import OntologyStructs.Proofs.ChildGraph
import OntologyStructs.Proofs.Resolution.Closure

namespace OntologyStructs.Ontology

variable {o : Ontology} {c c' : Children} {a b : Text} {g h : List Text} {j k : Nat}

theorem eq_of_mem_recursiveGroups (hg : g ∈ o.recursiveGroups c) (hh : h ∈ o.recursiveGroups c)
    (hag : a ∈ g) (hah : a ∈ h) : g = h := by
  obtain ⟨⟨x, -, hx⟩, hgn, hgs⟩ := mem_recursiveGroups.mp hg
  obtain ⟨⟨y, -, hy⟩, hhn, hhs⟩ := mem_recursiveGroups.mp hh
  obtain ⟨hxa, hax⟩ := (hx a).mp hag
  obtain ⟨hya, hay⟩ := (hy a).mp hah
  apply Text.eq_of_sorted hgs hhs
  rw [List.perm_ext_iff_of_nodup hgn hhn]
  intro b
  rw [hx, hy]
  constructor
  · intro hx
    obtain ⟨hxb, hbx⟩ := hx
    exact ⟨(hya.trans hax).trans hxb, (hbx.trans hxa).trans hay⟩
  · intro hx
    obtain ⟨hyb, hby⟩ := hx
    exact ⟨(hxa.trans hay).trans hyb, (hby.trans hya).trans hax⟩

/-- No group is listed twice, as it goes by the least of its ranks. -/
theorem nodup_recursiveGroups (o : Ontology) (c : Children) : (o.recursiveGroups c).Nodup := by
  let group (k : Nat) : Option (List Text) :=
    if (o.groupAt c k).head?.map (·.2) = some k then
      some (Text.sort ((o.groupAt c k).map (·.1))) else none
  have hranks : ((o.circular c).map (·.2)).Nodup := by
    have hs : ((o.circular c).map (·.2)).Sublist (o.ids.zipIdx.map (·.2)) :=
      List.filter_sublist.map _
    rw [List.zipIdx_map_snd] at hs
    exact hs.nodup List.nodup_range'
  have hinj (j k : Nat) (g : List Text) (hj : g ∈ group j) (hk : g ∈ group k) : j = k := by
    simp only [group, Option.mem_def, Option.ite_none_right_eq_some, Option.some.injEq,
      Option.map_eq_some_iff] at hj hk
    obtain ⟨⟨⟨a, _⟩, hja, rfl⟩, rfl⟩ := hj
    obtain ⟨⟨⟨b, _⟩, hkb, rfl⟩, hgk⟩ := hk
    have hja' := List.mem_of_mem_head? hja
    have hkb' := List.mem_of_mem_head? hkb
    obtain ⟨hj, -⟩ := mem_circular.mp (List.mem_filter.mp hja').1
    obtain ⟨hk, -⟩ := mem_circular.mp (List.mem_filter.mp hkb').1
    have hmem : a ∈ (o.groupAt c _).map (·.1) :=
      Text.mem_sort.mp (hgk ▸ Text.mem_sort.mpr (List.mem_map_of_mem hja'))
    obtain ⟨hba, hab⟩ := (mem_ids_groupAt hk).mp hmem
    rw [groupAt_congr hj hk hab hba, hja] at hkb
    exact congrArg Prod.snd (Option.some.inj hkb)
  have heq : o.recursiveGroups c =
      (((o.circular c).map (·.2)).filterMap group).mergeSort (Text.listLe Text.le) := by
    rw [recursiveGroups_eq, List.filterMap_map]
    rfl
  rw [heq, (List.mergeSort_perm _ _).nodup_iff]
  exact hranks.filterMap hinj

/-- Groups depend on nothing but who has which child. -/
theorem recursiveGroups_congr (h : o.HasChild c = o.HasChild c') :
    o.recursiveGroups c = o.recursiveGroups c' := by
  have hdescent : (o.descent c).has = (o.descent c').has := by
    funext i j
    rw [Bool.eq_iff_iff, has_descent, has_descent]
    simp only [Descends, h]
  have hcircular : o.circular c = o.circular c' := by rw [circular, circular, hdescent]
  have hgroup : o.groupAt c = o.groupAt c' := by
    funext k
    rw [groupAt, groupAt, hcircular]
    unfold Links.bothWays
    rw [hdescent]
  rw [recursiveGroups_eq, recursiveGroups_eq, hcircular, hgroup]

theorem exists_group (h : o.Descends c a a) :
    ∃ g ∈ o.recursiveGroups c, ∀ b, b ∈ g ↔ o.Descends c a b ∧ o.Descends c b a := by
  obtain ⟨k, hk⟩ := exists_rank h.knows
  let g := Text.sort ((o.groupAt c k).map (·.1))
  have hg (b : Text) : b ∈ g ↔ o.Descends c a b ∧ o.Descends c b a :=
    Text.mem_sort.trans (mem_ids_groupAt hk)
  refine ⟨g, mem_recursiveGroups.mpr ⟨⟨a, h, hg⟩, ?_, Text.pairwise_sort _⟩, hg⟩
  exact (Text.sort_perm _).nodup_iff.mpr (nodup_ids_groupAt k)

/-- The groups are the classes of identifiers that descend from each other, each once and sorted. Of the
children only those that are known count, and only those of indexed entries. -/
theorem recursiveGroups_partition (o : Ontology) (c : Children) :
    (∀ g, g ∈ o.recursiveGroups c ↔
      (∃ a, o.Descends c a a ∧ ∀ b, b ∈ g ↔ o.Descends c a b ∧ o.Descends c b a) ∧
        g.Nodup ∧ g.Pairwise (Text.le · ·)) ∧
    (∀ g ∈ o.recursiveGroups c, g ≠ [] ∧ ∀ a ∈ g, ∀ b ∈ g, o.Descends c a b) ∧
    (o.recursiveGroups c).Pairwise List.Disjoint ∧
    (∀ a, (∃ g ∈ o.recursiveGroups c, a ∈ g) ↔ o.Descends c a a) ∧
    (∀ a b, o.Descends c a b → o.Descends c b a → ∃ g ∈ o.recursiveGroups c, a ∈ g ∧ b ∈ g) ∧
    ∀ c', (∀ a p, o.position? a = some p → ∀ b, o.knows b → (b ∈ c'.listAt p ↔ b ∈ c.listAt p)) →
      o.recursiveGroups c' = o.recursiveGroups c := by
  have hmem (a : Text) : (∃ g ∈ o.recursiveGroups c, a ∈ g) ↔ o.Descends c a a := by
    constructor
    · intro hx
      obtain ⟨g, hg, ha⟩ := hx
      obtain ⟨⟨x, -, hx⟩, -⟩ := mem_recursiveGroups.mp hg
      obtain ⟨hxa, hax⟩ := (hx a).mp ha
      exact hax.trans hxa
    · intro haa
      obtain ⟨g, hg, h⟩ := exists_group haa
      exact ⟨g, hg, (h a).mpr ⟨haa, haa⟩⟩
  refine ⟨fun _ ↦ mem_recursiveGroups, ?_, ?_, hmem, ?_, ?_⟩
  · intro g hg
    obtain ⟨⟨x, hxx, hx⟩, -⟩ := mem_recursiveGroups.mp hg
    refine ⟨List.ne_nil_of_mem ((hx x).mpr ⟨hxx, hxx⟩), fun a ha b hb ↦ ?_⟩
    exact ((hx a).mp ha).2.trans ((hx b).mp hb).1
  · refine (nodup_recursiveGroups o c).pairwise_of_forall_ne fun g hg h hh hne a hag hah ↦ ?_
    exact hne (eq_of_mem_recursiveGroups hg hh hag hah)
  · intro a b hab hba
    obtain ⟨g, hg, h⟩ := exists_group (hab.trans hba)
    exact ⟨g, hg, (h a).mpr ⟨hab.trans hba, hab.trans hba⟩, (h b).mpr ⟨hab, hba⟩⟩
  · intro c' hsame
    apply recursiveGroups_congr
    funext a b
    apply propext
    constructor
    · intro hx
      obtain ⟨p, hp, hb, hknows⟩ := hx
      exact ⟨p, hp, (hsame a p hp b hknows).mp hb, hknows⟩
    · intro hx
      obtain ⟨p, hp, hb, hknows⟩ := hx
      exact ⟨p, hp, (hsame a p hp b hknows).mpr hb, hknows⟩

/-- Letters in a ring: `b` comes again with other children, `z` is not known, and `d` is its own child. -/
def letters : Ontology := .ofDocument ⟨[], [
  .bare "b" [], .bare "a" [], .bare "c" [], .bare "b" [], .bare "d" []]⟩

def letterChildren : Children := [["d"], ["c", "z"], ["b", "d"], ["a"], ["d"]]

theorem letters_partition :
    letters.Descends letterChildren "b" "c" ∧ letters.Descends letterChildren "c" "b" ∧
    (∃ g ∈ letters.recursiveGroups letterChildren, ("b" : Text) ∈ g ∧ ("c" : Text) ∈ g) ∧
    letters.Descends letterChildren "d" "d" ∧
    (∃ g ∈ letters.recursiveGroups letterChildren, ("d" : Text) ∈ g) ∧
    letters.recursiveGroups [[], ["c"], ["d", "b"], ["a"], ["d", "y"]] =
      letters.recursiveGroups letterChildren := by
  obtain ⟨-, -, -, hmem, hboth, hsame⟩ := recursiveGroups_partition letters letterChildren
  have hbc : letters.Descends letterChildren "b" "c" :=
    (@has_descent_iff letters letterChildren "b" "c" 0 2 (by decide) (by decide)).mp (by decide +kernel)
  have hcb : letters.Descends letterChildren "c" "b" :=
    (@has_descent_iff letters letterChildren "c" "b" 2 0 (by decide) (by decide)).mp (by decide +kernel)
  have hdd : letters.Descends letterChildren "d" "d" :=
    (@has_descent_iff letters letterChildren "d" "d" 3 3 (by decide) (by decide)).mp (by decide +kernel)
  refine ⟨hbc, hcb, hboth _ _ hbc hcb, hdd, (hmem _).mpr hdd, hsame _ ?_⟩
  intro a p hp b hb
  have hall : ∀ a ∈ letters.ids, ∀ p < 5, letters.position? a = some p → ∀ b ∈ letters.ids,
      (b ∈ Children.listAt [[], ["c"], ["d", "b"], ["a"], ["d", "y"]] p ↔
        b ∈ letterChildren.listAt p) := by decide +kernel
  exact hall a (letters.mem_ids.mpr (position?_knows hp)) p (position?_lt hp) hp b
    (letters.mem_ids.mpr hb)

end OntologyStructs.Ontology
