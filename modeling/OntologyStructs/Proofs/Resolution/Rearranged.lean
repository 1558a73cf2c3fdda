import Mathlib.Data.List.Perm.Basic
import OntologyStructs.Proofs.ChildGraph
import OntologyStructs.Proofs.ChildrenOf
import OntologyStructs.Proofs.Resolution.Closure
import OntologyStructs.Proofs.Resolution.Tally

namespace OntologyStructs.Ontology

/-- The same entries in another order, and no identifier twice. -/
structure Rearranged (o o' : Ontology) : Prop where
  perm : o.nodes.Perm o'.nodes
  nodup : (o.nodes.map Node.id).Nodup

def Counterparts (o o' : Ontology) (p p' : Nat) : Prop :=
  ∃ n, o.nodes[p]? = some n ∧ o'.nodes[p']? = some n

variable {o o' : Ontology} {leaveOut : Bool} {c c' : Children} {p q p' q' : Nat} {id : Text}

theorem Counterparts.symm (hp : o.Counterparts o' p p') : o'.Counterparts o p' p := by
  obtain ⟨n, hn, hn'⟩ := hp
  exact ⟨n, hn', hn⟩

namespace Rearranged

variable (h : o.Rearranged o')

include h

theorem symm : o'.Rearranged o := ⟨h.perm.symm, (h.perm.map Node.id).nodup_iff.mp h.nodup⟩

theorem knows_eq : o.knows = o'.knows := by
  funext id
  rw [Bool.eq_iff_iff, knows_iff, knows_iff]
  simp only [h.perm.mem_iff]

theorem exists_counterpart (hp : p < o.nodes.length) : ∃ p', o.Counterparts o' p p' := by
  have hn := h.perm.mem_iff.mp (List.getElem_mem hp)
  obtain ⟨p', hp'⟩ := List.mem_iff_getElem?.mp hn
  exact ⟨p', o.nodes[p], List.getElem?_eq_getElem hp, hp'⟩

theorem position? (hp : o.Counterparts o' p p') :
    o.position? id = some p ↔ o'.position? id = some p' := by
  obtain ⟨n, hn, hn'⟩ := hp
  rw [position?_of_nodup h.nodup, position?_of_nodup h.symm.nodup, hn, hn']

theorem unique (hp : o.Counterparts o' p p') (hq : o.Counterparts o' p q') : p' = q' := by
  obtain ⟨n, hn, hn'⟩ := hp
  have hid : o.position? n.id = some p := (position?_of_nodup h.nodup).mpr ⟨n, hn, rfl⟩
  have hp' := (h.position? ⟨n, hn, hn'⟩).mp hid
  have hq' := (h.position? hq).mp hid
  exact Option.some.inj (hp'.symm.trans hq')

theorem subclass (hp : o.Counterparts o' p p') (hs : o.Subclass p q) :
    ∃ q', o.Counterparts o' q q' ∧ o'.Subclass p' q' := by
  obtain ⟨q', hq⟩ := h.exists_counterpart (o.subclass_lt hs).2
  refine ⟨q', hq, ?_⟩
  obtain ⟨n, hn, hn'⟩ := hp
  simp only [Subclass, superclassesAt, hn, hn', List.mem_filterMap, h.position? hq] at hs ⊢
  exact hs

theorem below (hp : o.Counterparts o' p p') (hb : o.Below p q) :
    ∃ q', o.Counterparts o' q q' ∧ o'.Below p' q' := by
  induction hb with
  | refl => exact ⟨p', hp, .refl⟩
  | tail _ hs ih =>
    obtain ⟨a', ha, hb⟩ := ih
    obtain ⟨q', hq, hs'⟩ := h.subclass ha hs
    exact ⟨q', hq, hb.tail hs'⟩

theorem acyclic (hc : o.Acyclic) : o'.Acyclic := by
  intro p' q' hpq hqp
  rcases hpq.cases_head with rfl | ⟨a', hs, _⟩
  · rfl
  · obtain ⟨p, hp⟩ := h.symm.exists_counterpart (o'.subclass_lt hs).1
    obtain ⟨q, hq, hb⟩ := h.symm.below hp hpq
    obtain ⟨p₂, hp₂, hb₂⟩ := h.symm.below hq hqp
    obtain rfl : p = p₂ := h.symm.unique hp hp₂
    obtain rfl : p = q := hc p q hb hb₂
    exact h.unique hp.symm hq.symm

theorem failure_directPlan :
    (o.directPlan leaveOut).failure = none ↔ (o'.directPlan leaveOut).failure = none := by
  simp only [Ontology.failure_directPlan, h.perm.mem_iff]

theorem failure_inheritancePlan :
    o.inheritancePlan.failure = none ↔ o'.inheritancePlan.failure = none := by
  simp only [Ontology.failure_inheritancePlan, h.perm.mem_iff]

theorem mem_directChildren (hd : (o.directPlan leaveOut).failure = none)
    (hp : o.Counterparts o' p p') :
    id ∈ (o.directChildren leaveOut).listAt p ↔ id ∈ (o'.directChildren leaveOut).listAt p' := by
  have hd' := h.failure_directPlan.mp hd
  rw [Ontology.mem_directChildren, Ontology.mem_directChildren, gives_directPlan _ _ hd,
    gives_directPlan _ _ hd']
  have hposition (t : Text) : o.position? t = some p ↔ o'.position? t = some p' := h.position? hp
  obtain ⟨n, hn, hn'⟩ := hp
  simp only [hn, hn', hposition, h.perm.mem_iff, h.knows_eq]

theorem due (hd : (o.directPlan leaveOut).failure = none) (hp : o.Counterparts o' p p')
    (hdue : o.Due (o.directChildren leaveOut) p id) :
    o'.Due (o'.directChildren leaveOut) p' id := by
  obtain ⟨q, hb, hid⟩ := hdue
  obtain ⟨q', hq, hb'⟩ := h.below hp hb
  exact ⟨q', hb', (h.mem_directChildren hd hq).mp hid⟩

end Rearranged

def SameChildren (o o' : Ontology) (c c' : Children) : Prop :=
  ∀ p p', o.Counterparts o' p p' → ∀ id, id ∈ c.listAt p ↔ id ∈ c'.listAt p'

namespace Rearranged

variable (h : o.Rearranged o')

include h

theorem mem_childrenOf (hsame : o.SameChildren o' c c') (a : Text) :
    id ∈ o.childrenOf c a ↔ id ∈ o'.childrenOf c' a := by
  cases ha : o.position? a with
  | none =>
    have hknows : (o'.position? a).isSome = (o.position? a).isSome := (congrFun h.knows_eq a).symm
    rw [ha, Option.isSome_none, Option.isSome_eq_false_iff, Option.isNone_iff_eq_none] at hknows
    rw [childrenOf, childrenOf, ha, hknows]
    rfl
  | some p =>
    obtain ⟨p', hp⟩ := h.exists_counterpart (position?_lt ha)
    rw [childrenOf, childrenOf, ha, (h.position? hp).mp ha]
    exact hsame p p' hp id

theorem total_eq (hfits : c.Fits o) (hfits' : c'.Fits o') (hsame : o.SameChildren o' c c') :
    c.total = c'.total := by
  have hchildren (a : Text) : (o.childrenOf c a).Perm (o'.childrenOf c' a) := by
    rw [List.perm_ext_iff_of_nodup (nodup_childrenOf hfits a) (nodup_childrenOf hfits' a)]
    exact fun id ↦ h.mem_childrenOf hsame a
  rw [total_eq_length h.nodup hfits, total_eq_length h.symm.nodup hfits']
  exact (h.perm.flatMap fun n _ ↦ hchildren n.id).length_eq

theorem hasChild_eq (hsame : o.SameChildren o' c c') : o.HasChild c = o'.HasChild c' := by
  have hchild (o : Ontology) (c : Children) (a b : Text) :
      o.HasChild c a b ↔ b ∈ o.childrenOf c a ∧ o.knows b := by
    rw [HasChild, childrenOf]
    cases o.position? a <;> simp
  funext a b
  rw [eq_iff_iff, hchild, hchild, h.mem_childrenOf hsame a, h.knows_eq]

theorem mem_recursiveGroups (hsame : o.SameChildren o' c c') {g : List Text} :
    g ∈ o.recursiveGroups c ↔ g ∈ o'.recursiveGroups c' := by
  rw [Ontology.mem_recursiveGroups, Ontology.mem_recursiveGroups]
  simp only [Descends, h.hasChild_eq hsame]

theorem notes_perm (leaveOut : Bool) :
    (o.nodes.flatMap (o.notesOf leaveOut)).Perm (o'.nodes.flatMap (o'.notesOf leaveOut)) := by
  have hdangling : o.danglingNotes = o'.danglingNotes := by
    funext n r
    rw [danglingNotes, danglingNotes, h.knows_eq]
  have hnotes : o.notesOf leaveOut = o'.notesOf leaveOut := by
    funext n
    simp only [notesOf, directNotes, joinNotes, hdangling]
  rw [hnotes]
  exact h.perm.flatMap_right _

theorem exists_resolved : (∃ r, (o.resolve leaveOut).result = .ok r) ↔
    ∃ r, (o'.resolve leaveOut).result = .ok r := by
  simp only [resolve_eq_ok, exists_and_left, exists_eq, and_true]
  rw [h.failure_directPlan, h.failure_inheritancePlan]

theorem sameChildren (hc : o.Acyclic) {r r' : Resolved} (hr : (o.resolve leaveOut).result = .ok r)
    (hr' : (o'.resolve leaveOut).result = .ok r') : o.SameChildren o' r.children r'.children := by
  intro p p' hp id
  obtain ⟨hd, _⟩ := resolve_eq_ok.mp hr
  rw [mem_iff_due_of_resolve hc hr, mem_iff_due_of_resolve (h.acyclic hc) hr']
  constructor
  · exact h.due hd hp
  · exact h.symm.due (h.failure_directPlan.mp hd) hp.symm

end Rearranged

/-- Without circles of subclasses, the order of a document decides neither whether it is resolved nor
which children its entries get. -/
theorem resolve_rearranged (h : o.Rearranged o') (hc : o.Acyclic) (leaveOut : Bool) :
    ((∃ r, (o.resolve leaveOut).result = .ok r) ↔ ∃ r, (o'.resolve leaveOut).result = .ok r) ∧
    ∀ r r', (o.resolve leaveOut).result = .ok r → (o'.resolve leaveOut).result = .ok r' →
      (∀ id child, child ∈ o.childrenOf r.children id ↔ child ∈ o'.childrenOf r'.children id) ∧
      (∀ g, g ∈ o.recursiveGroups r.children ↔ g ∈ o'.recursiveGroups r'.children) ∧
      r.counters.inherited = r'.counters.inherited ∧
      r.counters.dangling = r'.counters.dangling ∧
      r.counters.superseded = r'.counters.superseded ∧
      r.counters.total = r'.counters.total ∧
      r.counters.members + r.counters.ranges = r'.counters.members + r'.counters.ranges := by
  refine ⟨h.exists_resolved, fun r r' hr hr' ↦ ?_⟩
  obtain ⟨hd, _⟩ := resolve_eq_ok.mp hr
  have hsame := h.sameChildren hc hr hr'
  have htotal : r.counters.total = r'.counters.total := by
    rw [total_of_resolve hr, total_of_resolve hr']
    exact h.total_eq (fits_of_resolve hr) (fits_of_resolve hr') hsame
  have hattached : r.counters.members + r.counters.ranges =
      r'.counters.members + r'.counters.ranges := by
    rw [attached_of_resolve hr, attached_of_resolve hr']
    exact h.total_eq (o.fits_directChildren leaveOut) (o'.fits_directChildren leaveOut)
      fun p p' hp id ↦ h.mem_directChildren hd hp
  have hinherited : r.counters.inherited = r'.counters.inherited := by
    rw [Counters.total, Counters.total] at htotal
    omega
  refine ⟨fun id child ↦ h.mem_childrenOf hsame id, fun g ↦ h.mem_recursiveGroups hsame, hinherited,
    ?_, ?_, htotal, hattached⟩
  · rw [dangling_of_resolve hr, dangling_of_resolve hr', (h.notes_perm leaveOut).countP_eq]
  · rw [superseded_of_resolve hr, superseded_of_resolve hr', (h.notes_perm leaveOut).countP_eq]

def shopNodes : List Node := [
  .bare "Bakery" [(.subClassOf, ["Shop"])],
  .bare "Shop" [(.subClassOf, ["Thing", "Elsewhere"])],
  .bare "Thing" [],
  .bare "owner" [(.domainIncludes, ["Shop"]), (.rangeIncludes, ["Thing"])],
  .bare "name" [(.domainIncludes, ["Thing"]), (.rangeIncludes, ["owner"])]]

def shops : Ontology := .ofDocument ⟨[], shopNodes⟩

def reversedShops : Ontology := .ofDocument ⟨[], shopNodes.reverse⟩

theorem rearranged_shops : shops.Rearranged reversedShops where
  perm := (List.reverse_perm shopNodes).symm
  nodup := by decide

theorem acyclic_shops : shops.Acyclic := by
  apply acyclic_of_rank id
  intro p q hpq
  have hp : p < 5 := (shops.subclass_lt hpq).1
  have h : ∀ p < 5, ∀ q ∈ shops.superclassesAt p, p ≠ q → p < q := by decide
  exact h p hp q hpq

theorem resolve_shops : shops.Rearranged reversedShops ∧ shops.Acyclic ∧
    ∃ r r', (shops.resolve false).result = .ok r ∧ (reversedShops.resolve false).result = .ok r' ∧
      (∀ id child, child ∈ shops.childrenOf r.children id ↔
        child ∈ reversedShops.childrenOf r'.children id) ∧
      (∀ g, g ∈ shops.recursiveGroups r.children ↔ g ∈ reversedShops.recursiveGroups r'.children) ∧
      r.counters.total = r'.counters.total := by
  obtain ⟨hiff, hsame⟩ := resolve_rearranged rearranged_shops acyclic_shops false
  obtain ⟨r, hr, _⟩ := resolve_ok (o := shops) false (by decide)
  obtain ⟨r', hr'⟩ := hiff.mp ⟨r, hr⟩
  obtain ⟨hchildren, hgroups, _, _, _, htotal, _⟩ := hsame r r' hr hr'
  exact ⟨rearranged_shops, acyclic_shops, r, r', hr, hr', hchildren, hgroups, htotal⟩

end OntologyStructs.Ontology
