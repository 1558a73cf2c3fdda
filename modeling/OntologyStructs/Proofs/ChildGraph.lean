import OntologyStructs.Ontology.ChildGraph
import OntologyStructs.Proofs.Index
import OntologyStructs.Proofs.Links
import OntologyStructs.Proofs.Sorting

namespace OntologyStructs.Ontology

variable (o : Ontology) (c : Children)

def HasChild (a b : Text) : Prop := ∃ p, o.position? a = some p ∧ b ∈ c.listAt p ∧ o.knows b

abbrev Descends (a b : Text) : Prop := Relation.TransGen (o.HasChild c) a b

variable {o c} {a b : Text} {i j k : Nat}

theorem ids_getElem?_iff : o.ids[k]? = some a ↔
    ∃ p, o.index.positions[k]? = some (a, p) := by
  rw [ids, Assoc.keys, List.getElem?_map, Option.map_eq_some_iff]
  constructor
  · intro hx
    obtain ⟨⟨a, p⟩, hp, rfl⟩ := hx
    exact ⟨p, hp⟩
  · intro hx
    obtain ⟨p, hp⟩ := hx
    exact ⟨(a, p), hp, rfl⟩

theorem exists_rank (h : o.knows a) : ∃ k : Nat, o.ids[k]? = some a :=
  List.mem_iff_getElem?.mp (o.mem_ids.mpr h)

theorem rank?_eq_some : o.rank? a = some k ↔ o.ids[k]? = some a := by
  rw [rank?, List.findIdx?_eq_some_iff_getElem, List.getElem?_eq_some_iff]
  simp only [beq_iff_eq]
  constructor
  · intro hx
    obtain ⟨hk, ha, _⟩ := hx
    exact ⟨hk, ha⟩
  · intro hx
    obtain ⟨hk, ha⟩ := hx
    refine ⟨hk, ha, fun j hj hja ↦ ?_⟩
    have hjk := (o.nodup_ids.getElem_inj_iff).mp (hja.trans ha.symm)
    omega

theorem linked_childLists : (Links.ofTargets ((o.childLists c).map fun (_, children) ↦
      children.filterMap o.rank?)).Linked i j ↔
    ∃ a b, o.ids[i]? = some a ∧ o.ids[j]? = some b ∧ o.HasChild c a b := by
  rw [Links.Linked, Links.has_ofTargets]
  simp only [childLists, List.map_map, List.getElem?_map, Option.map_eq_some_iff]
  constructor
  · intro hx
    obtain ⟨_, ⟨⟨a, p⟩, hp, rfl⟩, hj⟩ := hx
    simp only [Function.comp, List.mem_filterMap, List.mem_filter, rank?_eq_some] at hj
    obtain ⟨b, ⟨hb, hknows⟩, hj⟩ := hj
    refine ⟨a, b, ids_getElem?_iff.mpr ⟨p, hp⟩, hj, p, ?_, hb, hknows⟩
    exact o.mem_positions.mp (List.mem_of_getElem? hp)
  · intro hx
    obtain ⟨a, b, hi, hj, p, hp, hb, hknows⟩ := hx
    obtain ⟨q, hq⟩ := ids_getElem?_iff.mp hi
    have hpq := (o.mem_positions.mp (List.mem_of_getElem? hq)).symm.trans hp
    obtain rfl : q = p := Option.some.inj hpq
    refine ⟨_, ⟨(a, q), hq, rfl⟩, ?_⟩
    simp only [Function.comp, List.mem_filterMap, List.mem_filter, rank?_eq_some]
    exact ⟨b, ⟨hb, hknows⟩, hj⟩

theorem has_descent : (o.descent c).has i j ↔
    ∃ a b, o.ids[i]? = some a ∧ o.ids[j]? = some b ∧ o.Descends c a b := by
  rw [descent, Links.has_closure]
  constructor
  · intro h
    induction h with
    | single h =>
      obtain ⟨a, b, hi, hj, hab⟩ := linked_childLists.mp h
      exact ⟨a, b, hi, hj, .single hab⟩
    | tail _ h ih =>
      obtain ⟨a, b, hi, hj, hab⟩ := ih
      obtain ⟨b', d, hj', hk, hbd⟩ := linked_childLists.mp h
      obtain rfl : b = b' := Option.some.inj (hj.symm.trans hj')
      exact ⟨a, d, hi, hk, hab.tail hbd⟩
  · intro hx
    obtain ⟨a, b, hi, hj, hab⟩ := hx
    induction hab generalizing j with
    | single h => exact .single (linked_childLists.mpr ⟨a, _, hi, hj, h⟩)
    | @tail b d _ h ih =>
      have hb : o.knows b := by
        obtain ⟨p, hp, _⟩ := h
        exact position?_knows hp
      obtain ⟨k, hk⟩ := exists_rank hb
      exact (ih hk).tail (linked_childLists.mpr ⟨b, d, hk, hj, h⟩)

theorem has_descent_iff (hi : o.ids[i]? = some a) (hj : o.ids[j]? = some b) :
    (o.descent c).has i j ↔ o.Descends c a b := by
  rw [has_descent]
  constructor
  · intro hx
    obtain ⟨a', b', hi', hj', h⟩ := hx
    obtain rfl : a = a' := Option.some.inj (hi.symm.trans hi')
    obtain rfl : b = b' := Option.some.inj (hj.symm.trans hj')
    exact h
  · intro h
    exact ⟨a, b, hi, hj, h⟩

theorem Descends.knows (h : o.Descends c a b) : o.knows b := by
  cases h with
  | single h => exact h.choose_spec.2.2
  | tail _ h => exact h.choose_spec.2.2

variable (o c) in
def circular : List (Text × Nat) := o.ids.zipIdx.filter fun (_, k) ↦ (o.descent c).has k k

variable (o c) in
def groupAt (k : Nat) : List (Text × Nat) :=
  (o.circular c).filter fun (_, j) ↦ (o.descent c).bothWays k j

theorem recursiveGroups_eq : o.recursiveGroups c =
    ((o.circular c).filterMap fun (_, k) ↦
      if (o.groupAt c k).head?.map (·.2) = some k then
        some (Text.sort ((o.groupAt c k).map (·.1))) else none).mergeSort
      (Text.listLe Text.le) := rfl

theorem mem_circular : (a, k) ∈ o.circular c ↔ o.ids[k]? = some a ∧ o.Descends c a a := by
  simp only [circular, List.mem_filter, List.mem_zipIdx_iff_getElem?]
  constructor
  · intro hx
    obtain ⟨hk, h⟩ := hx
    exact ⟨hk, (has_descent_iff hk hk).mp h⟩
  · intro hx
    obtain ⟨hk, h⟩ := hx
    exact ⟨hk, (has_descent_iff hk hk).mpr h⟩

theorem mem_groupAt (hk : o.ids[k]? = some a) : (b, j) ∈ o.groupAt c k ↔
    o.ids[j]? = some b ∧ o.Descends c a b ∧ o.Descends c b a := by
  rw [groupAt, List.mem_filter, mem_circular]
  simp only [Links.bothWays, Bool.and_eq_true]
  constructor
  · intro hx
    obtain ⟨⟨hj, _⟩, hab, hba⟩ := hx
    exact ⟨hj, (has_descent_iff hk hj).mp hab, (has_descent_iff hj hk).mp hba⟩
  · intro hx
    obtain ⟨hj, hab, hba⟩ := hx
    exact ⟨⟨hj, hba.trans hab⟩, (has_descent_iff hk hj).mpr hab, (has_descent_iff hj hk).mpr hba⟩

theorem mem_ids_groupAt (hk : o.ids[k]? = some a) : b ∈ (o.groupAt c k).map (·.1) ↔
    o.Descends c a b ∧ o.Descends c b a := by
  simp only [List.mem_map, Prod.exists, exists_and_right, exists_eq_right, mem_groupAt hk]
  constructor
  · intro hx
    obtain ⟨_, h⟩ := hx
    exact h
  · intro h
    exact ⟨exists_rank h.1.knows, h⟩

theorem nodup_ids_groupAt (k : Nat) : ((o.groupAt c k).map (·.1)).Nodup := by
  have hs : ((o.groupAt c k).map (·.1)).Sublist o.ids := by
    have h : ((o.groupAt c k).map (·.1)).Sublist (o.ids.zipIdx.map (·.1)) :=
      (List.filter_sublist.trans List.filter_sublist).map _
    rwa [List.zipIdx_map_fst] at h
  exact o.nodup_ids.sublist hs

theorem groupAt_congr (hi : o.ids[i]? = some a) (hk : o.ids[k]? = some b)
    (hab : o.Descends c a b) (hba : o.Descends c b a) : o.groupAt c k = o.groupAt c i := by
  apply List.filter_congr
  rintro ⟨d, j⟩ hd
  obtain ⟨hj, _⟩ := mem_circular.mp hd
  rw [Bool.eq_iff_iff]
  simp only [Links.bothWays, Bool.and_eq_true, has_descent_iff hi hj, has_descent_iff hj hi,
    has_descent_iff hk hj, has_descent_iff hj hk]
  constructor
  · intro hx
    obtain ⟨hbd, hdb⟩ := hx
    exact ⟨hab.trans hbd, hdb.trans hba⟩
  · intro hx
    obtain ⟨had, hda⟩ := hx
    exact ⟨hba.trans had, hda.trans hab⟩

/-- The groups are the classes of identifiers that descend from each other, written in order. -/
theorem mem_recursiveGroups {g : List Text} : g ∈ o.recursiveGroups c ↔
    (∃ a, o.Descends c a a ∧ ∀ b, b ∈ g ↔ o.Descends c a b ∧ o.Descends c b a) ∧
      g.Nodup ∧ g.Pairwise (Text.le · ·) := by
  rw [recursiveGroups_eq, List.mem_mergeSort, List.mem_filterMap]
  constructor
  · intro hx
    obtain ⟨⟨a, k⟩, ha, hg⟩ := hx
    obtain ⟨hk, haa⟩ := mem_circular.mp ha
    simp only [Option.ite_none_right_eq_some, Option.some.injEq] at hg
    obtain ⟨_, rfl⟩ := hg
    refine ⟨⟨a, haa, fun b ↦ ?_⟩, ?_, Text.pairwise_sort _⟩
    · rw [Text.mem_sort, mem_ids_groupAt hk]
    · exact (Text.sort_perm _).nodup_iff.mpr (nodup_ids_groupAt k)
  · intro hx
    obtain ⟨⟨a, haa, hg⟩, hnd, hsorted⟩ := hx
    obtain ⟨i, hi⟩ := exists_rank haa.knows
    have hai : (a, i) ∈ o.groupAt c i := (mem_groupAt hi).mpr ⟨hi, haa, haa⟩
    -- the group goes by the least of its ranks
    obtain ⟨⟨b, k⟩, hhead⟩ : ∃ e, (o.groupAt c i).head? = some e := by
      cases h : o.groupAt c i with
      | nil => simp [h] at hai
      | cons e es => exact ⟨e, rfl⟩
    obtain ⟨hk, hab, hba⟩ := (mem_groupAt hi).mp (List.mem_of_head? hhead)
    have hgroup := groupAt_congr hi hk hab hba
    refine ⟨(b, k), mem_circular.mpr ⟨hk, hba.trans hab⟩, ?_⟩
    simp only [hgroup, hhead, Option.map_some, if_true, Option.some.injEq]
    apply Text.eq_of_sorted (Text.pairwise_sort _) hsorted
    refine (Text.sort_perm _).trans ?_
    rw [List.perm_ext_iff_of_nodup (nodup_ids_groupAt i) hnd]
    intro d
    rw [mem_ids_groupAt hi, hg d]

end OntologyStructs.Ontology
