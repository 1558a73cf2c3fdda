import OntologyStructs.Ontology.Resolution
import OntologyStructs.Proofs.Children

namespace OntologyStructs

namespace ResolutionStep

def parent? : ResolutionStep → Option Nat
  | member parent _ => some parent
  | range parent _ => some parent
  | inherit heir _ => some heir
  | _ => none

def brings (c : Children) : ResolutionStep → List Text
  | member _ child => [child]
  | range _ child => [child]
  | inherit _ ancestor => c.listAt ancestor
  | _ => []

def isInherit : ResolutionStep → Bool
  | inherit _ _ => true
  | _ => false

def isAttachment : ResolutionStep → Bool
  | member _ _ => true
  | range _ _ => true
  | _ => false

def isDangling : ResolutionStep → Bool
  | dangling _ _ _ => true
  | _ => false

def isSuperseded : ResolutionStep → Bool
  | superseded _ _ => true
  | _ => false

def Within (size : Nat) (s : ResolutionStep) : Prop := ∀ p, s.parent? = some p → p < size

variable (s : ResolutionStep) {P : Progress} {p q : Nat} {id : Text}

theorem children_apply_of_none (h : s.parent? = none) : (apply P s).children = P.children := by
  cases s <;> simp_all [parent?, apply]

theorem children_apply_of_some (h : s.parent? = some p) :
    (apply P s).children = (P.children.addAll p (s.brings P.children)).1 := by
  cases s <;> simp_all [parent?, apply, brings]

theorem length_apply : (apply P s).children.length = P.children.length := by
  cases h : s.parent? with
  | none => rw [children_apply_of_none s h]
  | some p => rw [children_apply_of_some s h, Children.length_addAll]

theorem listAt_apply_of_ne (h : s.parent? ≠ some q) :
    (apply P s).children.listAt q = P.children.listAt q := by
  cases hp : s.parent? with
  | none => rw [children_apply_of_none s hp]
  | some p =>
    have hne : q ≠ p := fun e ↦ h (e ▸ hp)
    rw [children_apply_of_some s hp, Children.listAt_addAll_of_ne hne]

variable {s}

theorem listAt_apply_of_parent (hw : s.Within P.children.length) (hd : P.children.Distinct)
    (h : s.parent? = some q) :
    (apply P s).children.listAt q =
      (P.children.listAt q ++ s.brings P.children).eraseDups := by
  rw [children_apply_of_some s h, Children.listAt_addAll (hw q h) (hd q)]

theorem mem_apply (hw : s.Within P.children.length) (hd : P.children.Distinct) :
    id ∈ (apply P s).children.listAt q ↔
      id ∈ P.children.listAt q ∨ s.parent? = some q ∧ id ∈ s.brings P.children := by
  by_cases h : s.parent? = some q
  · simp [listAt_apply_of_parent hw hd h, h]
  · simp [listAt_apply_of_ne s h, h]

theorem distinct_apply (hw : s.Within P.children.length) (hd : P.children.Distinct) :
    (apply P s).children.Distinct := by
  cases h : s.parent? with
  | none => rwa [children_apply_of_none s h]
  | some p =>
    rw [children_apply_of_some s h]
    exact hd.addAll (hw p h) _

theorem prefix_apply (hw : s.Within P.children.length) (hd : P.children.Distinct) (q : Nat) :
    P.children.listAt q <+: (apply P s).children.listAt q := by
  cases h : s.parent? with
  | none =>
    refine ⟨[], ?_⟩
    rw [List.append_nil, children_apply_of_none s h]
  | some p =>
    rw [children_apply_of_some s h]
    exact Children.prefix_addAll (hw p h) (hd p) _ q

theorem children_apply_of_subset (h : ∀ p, s.parent? = some p → s.brings P.children ⊆ P.children.listAt p) :
    (apply P s).children = P.children := by
  cases hp : s.parent? with
  | none => exact children_apply_of_none s hp
  | some p => rw [children_apply_of_some s hp, Children.addAll_of_subset (h p hp)]

/-- What the counters gain is what the children gain. -/
theorem total_apply (hw : s.Within P.children.length) :
    (apply P s).counters.total + P.children.total =
      P.counters.total + (apply P s).children.total := by
  cases s with
  | member p id =>
    have h := Children.total_addAll (hw p rfl) [id]
    simp only [apply, Counters.total]
    omega
  | range p id =>
    have h := Children.total_addAll (hw p rfl) [id]
    simp only [apply, Counters.total]
    omega
  | inherit p a =>
    have h := Children.total_addAll (hw p rfl) (P.children.listAt a)
    simp only [apply, Counters.total]
    omega
  | dangling r id target => rfl
  | superseded r id => rfl

theorem inherited_apply (h : s.isInherit = false) :
    (apply P s).counters.inherited = P.counters.inherited := by
  cases s with
  | inherit p a => cases h
  | member p id => rfl
  | range p id => rfl
  | dangling r id target => rfl
  | superseded r id => rfl

theorem attached_apply (h : s.isAttachment = false) :
    (apply P s).counters.members = P.counters.members ∧
      (apply P s).counters.ranges = P.counters.ranges := by
  cases s with
  | member p id => cases h
  | range p id => cases h
  | inherit p a => exact ⟨rfl, rfl⟩
  | dangling r id target => exact ⟨rfl, rfl⟩
  | superseded r id => exact ⟨rfl, rfl⟩

theorem dangling_apply : (apply P s).counters.dangling =
    P.counters.dangling + if s.isDangling then 1 else 0 := by
  cases s <;> rfl

theorem superseded_apply : (apply P s).counters.superseded =
    P.counters.superseded + if s.isSuperseded then 1 else 0 := by
  cases s <;> rfl

end ResolutionStep

namespace Progress

open ResolutionStep

variable {P : Progress} {ss ts : List ResolutionStep} {q : Nat} {id : Text}

theorem run_nil : P.run [] = P := rfl

theorem run_cons (s : ResolutionStep) : P.run (s :: ss) = (apply P s).run ss := rfl

theorem run_append : P.run (ss ++ ts) = (P.run ss).run ts := List.foldl_append

theorem within_apply {s : ResolutionStep} (hw : ∀ t ∈ s :: ss, t.Within P.children.length) :
    ∀ t ∈ ss, t.Within (apply P s).children.length := by
  intro t ht
  rw [length_apply]
  exact hw t (List.mem_cons_of_mem s ht)

theorem length_run : (P.run ss).children.length = P.children.length := by
  induction ss generalizing P with
  | nil => rfl
  | cons s ss ih => rw [run_cons, ih, length_apply]

/-- What every step keeps, a whole run keeps. The property may rest on what the run as a whole needs:
its entries are there, and no child comes twice. -/
theorem run_invariant (Inv : Children → Prop)
    (hstep : ∀ P : Progress, ∀ s ∈ ss, s.Within P.children.length → P.children.Distinct →
      Inv P.children → Inv (apply P s).children)
    (hw : ∀ s ∈ ss, s.Within P.children.length) (hd : P.children.Distinct) (h : Inv P.children) :
    Inv (P.run ss).children := by
  induction ss generalizing P with
  | nil => exact h
  | cons s ss ih =>
    have hs := hw s List.mem_cons_self
    exact ih (fun Q t ht ↦ hstep Q t (List.mem_cons_of_mem s ht)) (within_apply hw)
      (distinct_apply hs hd) (hstep P s List.mem_cons_self hs hd h)

theorem distinct_run (hw : ∀ s ∈ ss, s.Within P.children.length) (hd : P.children.Distinct) :
    (P.run ss).children.Distinct :=
  run_invariant Children.Distinct (fun _ _ _ hs hQ _ ↦ distinct_apply hs hQ) hw hd hd

theorem prefix_run (hw : ∀ s ∈ ss, s.Within P.children.length) (hd : P.children.Distinct) (q : Nat) :
    P.children.listAt q <+: (P.run ss).children.listAt q :=
  run_invariant (fun c ↦ P.children.listAt q <+: c.listAt q)
    (fun _ _ _ hs hQ h ↦ h.trans (prefix_apply hs hQ q)) hw hd List.prefix_rfl

theorem listAt_run_of_ne (h : ∀ s ∈ ss, s.parent? ≠ some q) :
    (P.run ss).children.listAt q = P.children.listAt q := by
  induction ss generalizing P with
  | nil => rfl
  | cons s ss ih =>
    rw [run_cons, ih (fun t ht ↦ h t (List.mem_cons_of_mem s ht)),
      listAt_apply_of_ne s (h s List.mem_cons_self)]

theorem children_run_of_subset
    (h : ∀ s ∈ ss, ∀ p, s.parent? = some p → s.brings P.children ⊆ P.children.listAt p) :
    (P.run ss).children = P.children := by
  induction ss generalizing P with
  | nil => rfl
  | cons s ss ih =>
    have hs := children_apply_of_subset (h s List.mem_cons_self)
    rw [run_cons, ih, hs]
    intro t ht p hp
    rw [hs]
    exact h t (List.mem_cons_of_mem s ht) p hp

theorem mem_run_of_inherit {p a : Nat} (hs : .inherit p a ∈ ss)
    (hw : ∀ s ∈ ss, s.Within P.children.length) (hd : P.children.Distinct)
    (hid : id ∈ P.children.listAt a) : id ∈ (P.run ss).children.listAt p := by
  induction ss generalizing P with
  | nil => cases hs
  | cons s ss ih =>
    have hsw := hw s List.mem_cons_self
    have htw := within_apply hw
    have hd' := distinct_apply hsw hd
    rw [run_cons]
    rcases List.mem_cons.mp hs with rfl | hs
    · exact (prefix_run htw hd' p).subset ((mem_apply hsw hd).mpr (.inr ⟨rfl, hid⟩))
    · exact ih hs htw hd' ((prefix_apply hsw hd a).subset hid)

theorem total_run (hw : ∀ s ∈ ss, s.Within P.children.length) :
    (P.run ss).counters.total + P.children.total =
      P.counters.total + (P.run ss).children.total := by
  induction ss generalizing P with
  | nil => rfl
  | cons s ss ih =>
    have hs := total_apply (hw s List.mem_cons_self)
    have hr := ih (within_apply hw)
    rw [run_cons]
    omega

theorem inherited_run (h : ∀ s ∈ ss, s.isInherit = false) :
    (P.run ss).counters.inherited = P.counters.inherited := by
  induction ss generalizing P with
  | nil => rfl
  | cons s ss ih =>
    rw [run_cons, ih (fun t ht ↦ h t (List.mem_cons_of_mem s ht)),
      inherited_apply (h s List.mem_cons_self)]

theorem attached_run (h : ∀ s ∈ ss, s.isAttachment = false) :
    (P.run ss).counters.members = P.counters.members ∧
      (P.run ss).counters.ranges = P.counters.ranges := by
  induction ss generalizing P with
  | nil => exact ⟨rfl, rfl⟩
  | cons s ss ih =>
    obtain ⟨hm, hr⟩ := attached_apply (P := P) (h s List.mem_cons_self)
    obtain ⟨hm', hr'⟩ := ih (P := apply P s) (fun t ht ↦ h t (List.mem_cons_of_mem s ht))
    exact ⟨hm'.trans hm, hr'.trans hr⟩

theorem dangling_run : (P.run ss).counters.dangling =
    P.counters.dangling + ss.countP isDangling := by
  induction ss generalizing P with
  | nil => rfl
  | cons s ss ih => rw [run_cons, ih, dangling_apply, List.countP_cons]; omega

theorem superseded_run : (P.run ss).counters.superseded =
    P.counters.superseded + ss.countP isSuperseded := by
  induction ss generalizing P with
  | nil => rfl
  | cons s ss ih => rw [run_cons, ih, superseded_apply, List.countP_cons]; omega

end Progress

end OntologyStructs
