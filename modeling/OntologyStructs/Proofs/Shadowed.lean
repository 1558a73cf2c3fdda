import Mathlib.Data.List.Forall2
import OntologyStructs.Proofs.Reloading
import OntologyStructs.Proofs.Resolution.Arrivals
import OntologyStructs.Proofs.Resolution.Circles
import OntologyStructs.Proofs.Struct

namespace OntologyStructs

theorem flatMap_zipIdx_congr {α β : Type} {as bs : List α} {f g : α → Nat → List β}
    (hlength : as.length = bs.length)
    (h : ∀ p a b, as[p]? = some a → bs[p]? = some b → f a p = g b p) :
    (as.zipIdx.flatMap fun (a, p) ↦ f a p) = bs.zipIdx.flatMap fun (b, p) ↦ g b p := by
  rw [List.flatMap_def, List.flatMap_def]
  congr 1
  apply List.ext_getElem
  · simp [hlength]
  · intro p ha hb
    simp only [List.length_map, List.length_zipIdx] at ha hb
    simpa using h p _ _ (List.getElem?_eq_getElem ha) (List.getElem?_eq_getElem hb)

/-- Entries of one identifier that become members of the same entries. Types, texts, ranges,
superclasses and inverses are left open. -/
structure Node.JoinsAlike (n m : Node) : Prop where
  id : n.id = m.id
  relation : ∀ r ∈ [Relation.supersededBy, .subPropertyOf, .domainIncludes],
    n.relation r = m.relation r

/-- The same entries, except that one which a later one shadows may be replaced by any other that joins
alike, as long as what it ranges over and is a subclass of can be read. -/
structure Node.SameButShadowed (ns ms : List Node) : Prop where
  joins : List.Forall₂ Node.JoinsAlike ns ms
  last : ∀ id p, Index.IsLast (ns.map Node.id) id p → ms[p]? = ns[p]?
  readable : ∀ p m, ms[p]? = some m → ¬ Index.IsLast (ns.map Node.id) m.id p →
    ∀ r ∈ [Relation.rangeIncludes, .subClassOf], m.misreading? r = none

namespace Node

variable {n m : Node} {r : Relation}

theorem targets_congr (h : n.relation r = m.relation r) : n.targets r = m.targets r := by
  rw [targets, targets, h]

theorem misreading?_congr (h : n.relation r = m.relation r) : n.misreading? r = m.misreading? r := by
  rw [misreading?, misreading?, h]

namespace JoinsAlike

variable (h : n.JoinsAlike m)

include h

theorem isSuperseded_eq : n.isSuperseded = m.isSuperseded := by
  rw [isSuperseded, isSuperseded, h.relation _ (by decide)]

theorem joined_eq (leaveOut : Bool) : n.joined leaveOut = m.joined leaveOut := by
  rw [joined, joined, h.isSuperseded_eq, targets_congr (h.relation .subPropertyOf (by decide)),
    targets_congr (h.relation .domainIncludes (by decide))]

end JoinsAlike

end Node

namespace Ontology

theorem exists_id_of_subclass {o : Ontology} {p q : Nat} (hpq : o.Subclass p q) : ∃ id, o.position? id = some q := by
  rw [Subclass, superclassesAt] at hpq
  cases hn : o.nodes[p]? with
  | none => simp [hn] at hpq
  | some n =>
    rw [hn] at hpq
    obtain ⟨t, -, ht⟩ := List.mem_filterMap.mp hpq
    exact ⟨t, ht⟩

/-- Ontologies of the same identifiers, with the same last entry of each. -/
structure SameIndexed (o o' : Ontology) : Prop where
  index_eq : o.index = o'.index
  last : ∀ id p, o.position? id = some p → o'.nodes[p]? = o.nodes[p]?

namespace SameIndexed

variable {o o' : Ontology} (h : o.SameIndexed o') {p q : Nat} {id : Text}

include h

theorem position?_eq (id : Text) : o.position? id = o'.position? id := by
  rw [position?, position?, h.index_eq]

theorem knows_eq (id : Text) : o.knows id = o'.knows id := by
  rw [knows, knows, h.position?_eq]

theorem symm : o'.SameIndexed o :=
  ⟨h.index_eq.symm, fun id p hp ↦ (h.last id p (h.position?_eq id ▸ hp)).symm⟩

theorem superclassesAt_eq (hp : o.position? id = some p) : o.superclassesAt p = o'.superclassesAt p := by
  have hposition : o.position? = o'.position? := funext h.position?_eq
  rw [superclassesAt, superclassesAt, h.last id p hp, hposition]

theorem subclass (hp : o.position? id = some p) (hpq : o.Subclass p q) : o'.Subclass p q := by
  rwa [Subclass, ← h.superclassesAt_eq hp]

/-- No subclass edge leads to an entry that is not the last, so none is on the way from one that is. -/
theorem below (hp : o.position? id = some p) (hpq : o.Below p q) : o'.Below p q := by
  induction hpq using Relation.ReflTransGen.head_induction_on generalizing id with
  | refl => exact .refl
  | head hab _ ih =>
    obtain ⟨t, ht⟩ := exists_id_of_subclass hab
    exact .head (h.subclass hp hab) (ih ht)

/-- In a circle the order of the document decides, and outside it superclasses go first: what else there
is to be visited makes no difference. -/
theorem mem_before_iff {before after before' after' : List Nat} (hp : o.position? id = some p)
    (hpq : o.Subclass p q) (horder : visitingOrder o.superclassLists = before ++ p :: after)
    (horder' : visitingOrder o'.superclassLists = before' ++ p :: after') :
    q ∈ before ↔ q ∈ before' := by
  obtain ⟨t, ht⟩ := exists_id_of_subclass hpq
  have hpq' := h.subclass hp hpq
  have hback : o.Below q p ↔ o'.Below q p :=
    ⟨h.below ht, h.symm.below (h.position?_eq t ▸ ht)⟩
  by_cases hqp : o.Below q p
  · rw [mem_before_iff_lt horder (.single hpq) hqp,
      mem_before_iff_lt horder' (.single hpq') (hback.mp hqp)]
  · exact iff_of_true (mem_before_of_below horder (.single hpq) hqp)
      (mem_before_of_below horder' (.single hpq') (mt hback.mpr hqp))

/-- Inheritance comes to the same at all last entries if they have the same children before it. -/
theorem listAt_run_inheritancePlan {P P' : Progress} (hfits : P.children.Fits o)
    (hfits' : P'.children.Fits o') (hok : o.inheritancePlan.failure = none)
    (hok' : o'.inheritancePlan.failure = none)
    (hP : ∀ id p, o.position? id = some p → P.children.listAt p = P'.children.listAt p)
    (hp : o.position? id = some p) :
    (P.run o.inheritancePlan.steps).children.listAt p =
      (P'.run o'.inheritancePlan.steps).children.listAt p := by
  -- along the visits, those before being equal already
  have hvisited (before : List Nat) : ∀ after,
      visitingOrder o.superclassLists = before ++ after → ∀ p ∈ before, ∀ id,
        o.position? id = some p → (P.run o.inheritancePlan.steps).children.listAt p =
          (P'.run o'.inheritancePlan.steps).children.listAt p := by
    induction before using List.reverseRecOn with
    | nil => exact fun _ _ _ h ↦ nomatch h
    | append_singleton before p ih =>
      intro after horder q hq id hid
      rw [List.append_assoc, List.singleton_append] at horder
      rcases List.mem_append.mp hq with hq | hq
      · exact ih _ horder q hq id hid
      · obtain rfl := List.mem_singleton.mp hq
        obtain ⟨before', after', horder'⟩ := exists_split (position?_lt (h.position?_eq id ▸ hid))
        rw [Ontology.listAt_run_inheritancePlan hok hfits horder,
          Ontology.listAt_run_inheritancePlan hok' hfits' horder', hP id q hid,
          ← h.superclassesAt_eq hid]
        congr 2
        refine List.flatMap_congr fun a ha ↦ ?_
        obtain ⟨t, ht⟩ := exists_id_of_subclass ha
        by_cases hbefore : a ∈ before
        · rw [if_pos hbefore, if_pos ((h.mem_before_iff hid ha horder horder').mp hbefore),
            ih _ horder a hbefore t ht]
        · rw [if_neg hbefore, if_neg (mt (h.mem_before_iff hid ha horder horder').mpr hbefore),
            hP t a ht]
  obtain ⟨before, after, horder⟩ := exists_split (position?_lt hp)
  exact hvisited (before ++ [p]) after (by rw [horder, List.append_assoc]; rfl) p (by simp) id hp

section outputs

variable {c c' : Children} (hc : ∀ id p, o.position? id = some p → c'.listAt p = c.listAt p)

include hc

theorem childrenOf_eq (id : Text) : o'.childrenOf c' id = o.childrenOf c id := by
  rw [childrenOf, childrenOf, ← h.position?_eq]
  cases hp : o.position? id with
  | none => rfl
  | some p => exact hc id p hp

theorem childLists_eq : o'.childLists c' = o.childLists c := by
  have hknows : o.knows = o'.knows := funext h.knows_eq
  rw [childLists, childLists, ← h.index_eq, ← hknows]
  refine List.map_congr_left fun e he ↦ ?_
  simp only [hc e.1 e.2 (o.mem_positions.mp he)]

theorem edges_eq : o'.edges c' = o.edges c := by
  rw [edges, edges, h.childLists_eq hc]

theorem recursiveGroups_eq : o'.recursiveGroups c' = o.recursiveGroups c := by
  have hids : o'.ids = o.ids := by rw [ids, ids, h.index_eq]
  have hrank : o'.rank? = o.rank? := by
    funext id
    rw [rank?, rank?, hids]
  rw [recursiveGroups, recursiveGroups, descent, descent, h.childLists_eq hc, hrank, hids]

theorem structs_eq (keep : Bool) : Struct.all keep o' c' = Struct.all keep o c := by
  rw [Struct.all, Struct.all, indexed, indexed, ← h.index_eq]
  refine List.filterMap_congr fun p hp ↦ ?_
  obtain ⟨id, hid⟩ := Struct.mem_indexed.mp hp
  rw [h.last id p hid, hc id p hid]

theorem nodeLink_eq : Dump.nodeLink o' c' = Dump.nodeLink o c := by
  have hnodes : o'.indexed.filterMap (fun p ↦ (o'.nodes[p]?).map Dump.graphNode) =
      o.indexed.filterMap fun p ↦ (o.nodes[p]?).map Dump.graphNode := by
    rw [indexed, indexed, ← h.index_eq]
    refine List.filterMap_congr fun p hp ↦ ?_
    obtain ⟨id, hid⟩ := Struct.mem_indexed.mp hp
    rw [h.last id p hid]
  rw [Dump.nodeLink, Dump.nodeLink, hnodes, h.edges_eq hc]

end outputs

end SameIndexed

section shadowed

variable {o o' : Ontology} (h : Node.SameButShadowed o.nodes o'.nodes)

include h

theorem exists_joinsAlike {p : Nat} {m : Node} (hm : o'.nodes[p]? = some m) :
    ∃ n, o.nodes[p]? = some n ∧ n.JoinsAlike m := by
  obtain ⟨hp, rfl⟩ := List.getElem?_eq_some_iff.mp hm
  have hp' : p < o.nodes.length := h.joins.length_eq.symm ▸ hp
  exact ⟨_, List.getElem?_eq_getElem hp', h.joins.get hp' hp⟩

theorem sameIndexed : o.SameIndexed o' := by
  have hids : o.nodes.map Node.id = o'.nodes.map Node.id := by
    rw [← List.forall₂_eq_eq_eq, List.forall₂_map_left_iff, List.forall₂_map_right_iff]
    exact h.joins.imp fun _ _ hn ↦ hn.id
  refine ⟨by rw [o.index_eq, o'.index_eq, hids], fun id p hp ↦ ?_⟩
  exact h.last id p (o.position?_eq_some.mp hp)

theorem readable_of_shadowed {r : Relation} (hr : r ∈ [Relation.rangeIncludes, .subClassOf])
    (hread : ∀ n ∈ o.nodes, n.misreading? r = none) : ∀ m ∈ o'.nodes, m.misreading? r = none := by
  intro m hm
  obtain ⟨p, hp⟩ := List.mem_iff_getElem?.mp hm
  by_cases hlast : Index.IsLast (o.nodes.map Node.id) m.id p
  · exact hread m (List.mem_of_getElem? ((h.last _ p hlast).symm.trans hp))
  · exact h.readable p m hp hlast r hr

theorem failure_directPlan_of_shadowed {leaveOut : Bool}
    (hok : (o.directPlan leaveOut).failure = none) : (o'.directPlan leaveOut).failure = none := by
  rw [failure_directPlan] at hok ⊢
  intro m hm
  obtain ⟨p, hp⟩ := List.mem_iff_getElem?.mp hm
  obtain ⟨n, hn, hjoins⟩ := exists_joinsAlike h hp
  refine ⟨?_, readable_of_shadowed h (by decide) (fun n hn ↦ (hok n hn).2) m hm⟩
  rw [← hjoins.isSuperseded_eq, ← Node.misreading?_congr (hjoins.relation .subPropertyOf (by decide)),
    ← Node.misreading?_congr (hjoins.relation .domainIncludes (by decide))]
  exact (hok n (List.mem_of_getElem? hn)).1

theorem failure_inheritancePlan_of_shadowed (hok : o.inheritancePlan.failure = none) :
    o'.inheritancePlan.failure = none :=
  o'.failure_inheritancePlan.mpr
    (readable_of_shadowed h (by decide) (o.failure_inheritancePlan.mp hok))

/-- To a last entry come the same children: as members the same entries, and as ranges its own. -/
theorem arrivals_of_last (leaveOut : Bool) {id : Text} {q : Nat} (hq : o.position? id = some q) :
    o.arrivals leaveOut q = o'.arrivals leaveOut q := by
  have hsame := sameIndexed h
  have hposition : o.position? = o'.position? := funext hsame.position?_eq
  have hknows : o.knows = o'.knows := funext hsame.knows_eq
  refine flatMap_zipIdx_congr h.joins.length_eq fun p n m hn hm ↦ ?_
  obtain ⟨n', hn', hjoins⟩ := exists_joinsAlike h hm
  obtain rfl := Option.some.inj (hn.symm.trans hn')
  rw [arrivalsFrom, arrivalsFrom, hjoins.joined_eq, hjoins.id, hposition, hknows]
  by_cases hp : p = q
  · subst hp
    rw [hsame.last id p hq, hn] at hm
    rw [Option.some.inj hm]
  · rw [if_neg hp, if_neg hp]

theorem listAt_directChildren_of_last {leaveOut : Bool}
    (hok : (o.directPlan leaveOut).failure = none) {id : Text} {p : Nat}
    (hp : o.position? id = some p) :
    (o.directChildren leaveOut).listAt p = (o'.directChildren leaveOut).listAt p := by
  rw [listAt_directChildren hok, listAt_directChildren (failure_directPlan_of_shadowed h hok),
    arrivals_of_last h leaveOut hp]

/-- With shadowed entries changed the relations are still resolved, to the same children of last entries. -/
theorem resolve_shadowed {leaveOut : Bool} {r : Resolved} (hr : (o.resolve leaveOut).result = .ok r) :
    ∃ r', (o'.resolve leaveOut).result = .ok r' ∧
      ∀ id p, o.position? id = some p → r'.children.listAt p = r.children.listAt p := by
  obtain ⟨hd, hi, rfl⟩ := resolve_eq_ok.mp hr
  have hi' := failure_inheritancePlan_of_shadowed h hi
  refine ⟨_, resolve_eq_ok.mpr ⟨failure_directPlan_of_shadowed h hd, hi', rfl⟩, fun id p hp ↦ ?_⟩
  exact ((sameIndexed h).listAt_run_inheritancePlan (o.fits_directChildren leaveOut)
    (o'.fits_directChildren leaveOut) hi hi' (fun _ _ ↦ listAt_directChildren_of_last h hd) hp).symm

end shadowed

end Ontology

namespace Resolved

/-- Of an entry that a later one shadows only what it joins counts. Whatever its types, texts, ranges,
superclasses and inverses are, if they can be read, loading comes to the same children of each
identifier, the same structs and file, and the same graph and groups. -/
theorem load_shadowed {source source' : Source} {d d' : Document} {leaveOut : Bool} {r : Resolved}
    (hd : (Document.read source).result = .ok d) (hd' : (Document.read source').result = .ok d')
    (h : Node.SameButShadowed d.nodes d'.nodes) (hr : (load source false leaveOut).result = .ok r) :
    ∃ r', (load source' false leaveOut).result = .ok r' ∧
      (∀ id, r'.ontology.childrenOf r'.children id = r.ontology.childrenOf r.children id) ∧
      (∀ keep package, (Generated.ofResolved keep package r').structs =
          (Generated.ofResolved keep package r).structs ∧
        (Generated.ofResolved keep package r').source =
          (Generated.ofResolved keep package r).source) ∧
      Dump.nodeLink r'.ontology r'.children = Dump.nodeLink r.ontology r.children ∧
      r'.ontology.edges r'.children = r.ontology.edges r.children ∧
      r'.ontology.recursiveGroups r'.children = r.ontology.recursiveGroups r.children := by
  obtain ⟨d₁, hd₁, -, hr⟩ := load_eq_ok_iff.mp hr
  obtain rfl := Except.ok.inj (hd.symm.trans hd₁)
  have hsame := @Ontology.sameIndexed (.ofDocument d) (.ofDocument d') h
  obtain ⟨r', hr', hc⟩ := @Ontology.resolve_shadowed _ (.ofDocument d') h _ _ hr
  refine ⟨r', load_eq_ok_iff.mpr ⟨d', hd', rfl, hr'⟩, ?_⟩
  rw [Ontology.ontology_of_resolve hr, Ontology.ontology_of_resolve hr']
  refine ⟨hsame.childrenOf_eq hc, fun keep package ↦ ?_, hsame.nodeLink_eq hc, hsame.edges_eq hc,
    hsame.recursiveGroups_eq hc⟩
  have hstructs : (Generated.ofResolved keep package r').structs =
      (Generated.ofResolved keep package r).structs := by
    rw [Generated.ofResolved, Generated.ofResolved, Ontology.ontology_of_resolve hr,
      Ontology.ontology_of_resolve hr']
    exact hsame.structs_eq hc keep
  exact ⟨hstructs, congrArg (GoFile.render package) hstructs⟩

/-- A gallery where paintings are works and works are paintings. Paintings come twice, and the first entry
of them, which joins the works, is open. -/
def gallery (painting : Node) : Document := ⟨[], [
  painting,
  .bare "Work" [(.subClassOf, ["Painting"])],
  .bare "title" [(.domainIncludes, ["Work"])],
  .bare "Painting" [(.subClassOf, ["Work"]), (.rangeIncludes, ["artist"])],
  .bare "artist" [(.domainIncludes, ["Painting"])]]⟩

def sketch : Node := .bare "Painting" [(.domainIncludes, ["Work"])]

def canvas : Node :=
  { Node.bare "Painting" [(.domainIncludes, ["Work"]), (.subClassOf, ["title", "Work"]),
      (.rangeIncludes, ["title"])] with
    types := ⟨"rdfs:Class", ["Object"]⟩, comment := ⟨"Oil", "en"⟩ }

def gallerySource (painting : Node) : Source :=
  .text ((Dump.resolved (.ofDocument (gallery painting)) []).indented "\t")

theorem relation_bare_ne_null (id : Text) {relations : List (Relation × List Text)} (r : Relation) :
    (Node.bare id relations).relation r ≠ some .null := by
  intro h
  obtain ⟨_, _, h⟩ := Option.map_eq_some_iff.mp h
  cases h

theorem read_gallery {painting : Node} (hnull : ∀ r, painting.relation r ≠ some .null)
    (hportable : (Dump.resolved (.ofDocument (gallery painting)) []).all Json.isPortable) :
    (Document.read (gallerySource painting)).result = .ok (gallery painting) := by
  have hnull : ∀ n ∈ (gallery painting).nodes, ∀ r, n.relation r ≠ some .null := by
    simp only [gallery, List.forall_mem_cons]
    exact ⟨hnull, relation_bare_ne_null _, relation_bare_ne_null _, relation_bare_ne_null _,
      relation_bare_ne_null _, fun _ h ↦ nomatch h⟩
  exact Document.read_eq_ok.mpr ⟨_, Dump.readValue_indented hportable, Dump.ofJson_resolved hnull⟩

theorem gallery_sameButShadowed :
    Node.SameButShadowed (gallery sketch).nodes (gallery canvas).nodes := by
  refine ⟨?joins, ?last, ?readable⟩
  case joins =>
    have hpaintings : sketch.JoinsAlike canvas :=
      ⟨rfl, by simp only [List.forall_mem_cons]; exact ⟨rfl, rfl, rfl, fun _ h ↦ nomatch h⟩⟩
    exact .cons hpaintings (List.forall₂_same.mpr fun _ _ ↦ ⟨rfl, fun _ _ ↦ rfl⟩)
  case last =>
    intro id p hlast
    cases p with
    | zero => exact absurd hlast.1 (hlast.2 3 (by decide))
    | succ p => rfl
  case readable =>
    intro p m hm _
    have hread : ∀ m ∈ (gallery canvas).nodes, ∀ r ∈ [Relation.rangeIncludes, .subClassOf],
        m.misreading? r = none := by decide +kernel
    exact hread m (List.mem_of_getElem? hm)

theorem gallery_shadowed : ∃ r r',
    (Document.read (gallerySource sketch)).result = .ok (gallery sketch) ∧
    (Document.read (gallerySource canvas)).result = .ok (gallery canvas) ∧
    Node.SameButShadowed (gallery sketch).nodes (gallery canvas).nodes ∧
    (load (gallerySource sketch) false false).result = .ok r ∧
    (load (gallerySource canvas) false false).result = .ok r' ∧
    r.children = ([[], ["Painting", "title", "artist"], [],
      ["artist", "Painting", "title"], []] : List (List Text)) ∧
    r'.ontology.childrenOf r'.children "Painting" = r.ontology.childrenOf r.children "Painting" ∧
    r'.ontology.recursiveGroups r'.children = r.ontology.recursiveGroups r.children := by
  have hd := @read_gallery sketch (relation_bare_ne_null _) (by decide +kernel)
  have hd' := @read_gallery canvas (relation_bare_ne_null "Painting") (by decide +kernel)
  have hlists : (load (gallerySource sketch) false false).result.toOption.map Resolved.children =
      some ([[], ["Painting", "title", "artist"], [],
        ["artist", "Painting", "title"], []] : List (List Text)) := by decide +kernel
  obtain ⟨r, hr, hchildren⟩ := Logged.exists_of_map_eq_some hlists
  obtain ⟨r', hr', hsame, -, -, -, hgroups⟩ := load_shadowed hd hd' gallery_sameButShadowed hr
  exact ⟨r, r', hd, hd', gallery_sameButShadowed, hr, hr', hchildren, hsame _, hgroups⟩

end Resolved

end OntologyStructs
