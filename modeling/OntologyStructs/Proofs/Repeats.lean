import Mathlib.Data.Finset.Card
import OntologyStructs.Proofs.Index
import OntologyStructs.Proofs.Loading

namespace OntologyStructs

namespace Index

variable {ids : List Text} {id a : Text} {p q : Nat} {r : Repeat}

def IsFirst (ids : List Text) (id : Text) (p : Nat) : Prop :=
  ids[p]? = some id ∧ ∀ q, q < p → ids[q]? ≠ some id

/-- The identifier stands at `position` and has stood before, at `shadowed` and not since. -/
structure IsRepeat (ids : List Text) (r : Repeat) : Prop where
  stands : ids[r.position]? = some r.id
  shadows : IsLast (ids.take r.position) r.id r.shadowed

theorem IsLast.lt (h : IsLast ids id p) : p < ids.length := (List.getElem?_eq_some_iff.mp h.1).1

theorem IsRepeat.lt (h : IsRepeat ids r) : r.shadowed < r.position ∧ r.position < ids.length := by
  have hshadowed := h.shadows.lt
  rw [List.length_take] at hshadowed
  exact ⟨by omega, (List.getElem?_eq_some_iff.mp h.stands).1⟩

theorem isRepeat_concat : IsRepeat (ids ++ [a]) r ↔
    IsRepeat ids r ∨ r.position = ids.length ∧ r.id = a ∧ IsLast ids a r.shadowed := by
  constructor
  · intro h
    have hlt := h.lt.2
    rw [List.length_append, List.length_singleton] at hlt
    obtain ⟨hstands, hshadows⟩ := h
    rcases Nat.lt_succ_iff_lt_or_eq.mp hlt with hlt | heq
    · rw [List.getElem?_append_left hlt] at hstands
      rw [List.take_append_of_le_length (Nat.le_of_lt hlt)] at hshadows
      exact .inl ⟨hstands, hshadows⟩
    · rw [heq, List.getElem?_concat_length] at hstands
      rw [heq, List.take_left, ← Option.some.inj hstands] at hshadows
      exact .inr ⟨heq, (Option.some.inj hstands).symm, Option.some.inj hstands ▸ hshadows⟩
  · intro hx
    rcases hx with h | ⟨heq, rfl, hlast⟩
    · have hlt := h.lt.2
      refine ⟨?_, ?_⟩
      · rw [List.getElem?_append_left hlt]
        exact h.stands
      · rw [List.take_append_of_le_length (Nat.le_of_lt hlt)]
        exact h.shadows
    · refine ⟨?_, ?_⟩
      · rw [heq, List.getElem?_concat_length]
      · rwa [heq, List.take_left]

theorem mem_iff_get? : id ∈ ids ↔ ∃ p, (ofIds ids).positions.get? id = some p := by
  rw [← Assoc.mem_keys_iff, keys_ofIds, List.mem_eraseDups]

theorem exists_isLast (h : id ∈ ids) : ∃ p, IsLast ids id p := by
  simpa only [mem_iff_get?, get?_ofIds] using h

theorem repeats_concat (ids : List Text) (a : Text) : (ofIds (ids ++ [a])).repeats =
    (ofIds ids).repeats ++
      (((ofIds ids).positions.get? a).map fun q ↦ ⟨a, ids.length, q⟩).toList := by
  rw [ofIds_concat, add]
  cases (ofIds ids).positions.get? a with
  | none => exact (List.append_nil _).symm
  | some q => rfl

theorem mem_repeats : r ∈ (ofIds ids).repeats ↔ IsRepeat ids r := by
  induction ids using List.reverseRecOn with
  | nil => exact iff_of_false (by simp [ofIds, addAll, empty]) fun h ↦ by simpa using h.lt.2
  | append_singleton ids a ih =>
    obtain ⟨id, position, shadowed⟩ := r
    simp only [repeats_concat, List.mem_append, ih, isRepeat_concat, Option.mem_toList,
      Option.map_eq_some_iff, get?_ofIds, Repeat.mk.injEq]
    refine or_congr_right ⟨?_, ?_⟩
    · intro hx
      obtain ⟨q, hq, rfl, rfl, rfl⟩ := hx
      exact ⟨rfl, rfl, hq⟩
    · intro hx
      obtain ⟨rfl, rfl, hq⟩ := hx
      exact ⟨shadowed, hq, rfl, rfl, rfl⟩

theorem pairwise_repeats (ids : List Text) :
    (ofIds ids).repeats.Pairwise fun r s ↦ r.position < s.position := by
  induction ids using List.reverseRecOn with
  | nil => exact .nil
  | append_singleton ids a ih =>
    rw [repeats_concat, List.pairwise_append]
    refine ⟨ih, ?_, ?_⟩
    · cases (ofIds ids).positions.get? a <;> simp
    · intro r hr s hs
      obtain ⟨q, -, rfl⟩ := Option.map_eq_some_iff.mp (Option.mem_toList.mp hs)
      exact (mem_repeats.mp hr).lt.2

theorem ids_repeats (ids : List Text) : (ofIds ids).repeats.map Repeat.id =
    (ids.zipIdx.filter fun e ↦ (ids.take e.2).contains e.1).map (·.1) := by
  induction ids using List.reverseRecOn with
  | nil => rfl
  | append_singleton ids a ih =>
    have hold : (ids.zipIdx.filter fun e ↦ ((ids ++ [a]).take e.2).contains e.1) =
        ids.zipIdx.filter fun e ↦ (ids.take e.2).contains e.1 := by
      refine List.filter_congr fun e he ↦ ?_
      have hp := (List.getElem?_eq_some_iff.mp (List.mem_zipIdx_iff_getElem?.mp he)).1
      rw [List.take_append_of_le_length (Nat.le_of_lt hp)]
    have hlast : (((ofIds ids).positions.get? a).map fun q ↦ Repeat.mk a ids.length q).toList.map
        Repeat.id = if a ∈ ids then [a] else [] := by
      cases hq : (ofIds ids).positions.get? a <;> simp [mem_iff_get?, hq]
    rw [repeats_concat, List.map_append, ih, hlast, List.zipIdx_append, List.filter_append,
      List.map_append, hold]
    by_cases ha : a ∈ ids <;> simp [ha]

theorem length_ofIds (ids : List Text) :
    (ofIds ids).positions.length + (ofIds ids).repeats.length = ids.length := by
  have hkeys (ids : List Text) : (ofIds ids).positions.length = ids.eraseDups.length := by
    rw [← keys_ofIds, Assoc.keys, List.length_map]
  rw [hkeys]
  induction ids using List.reverseRecOn with
  | nil => rfl
  | append_singleton ids a ih =>
    rw [repeats_concat, List.length_append, List.length_append, List.length_singleton, ← ih]
    cases hq : (ofIds ids).positions.get? a with
    | none =>
      have ha : a ∉ ids := by simp [mem_iff_get?, hq]
      rw [List.eraseDups_append_cons ha]
      simp
      omega
    | some q =>
      have ha : a ∈ ids := mem_iff_get?.mpr ⟨q, hq⟩
      rw [List.eraseDups_append_of_subset (by simpa using ha)]
      simp
      omega

theorem repeats_eq_nil : (ofIds ids).repeats = [] ↔ ids.Nodup := by
  induction ids using List.reverseRecOn with
  | nil => simp [ofIds, addAll, empty]
  | append_singleton ids a ih =>
    rw [repeats_concat, List.append_eq_nil_iff, ih, List.nodup_append_comm, List.singleton_append,
      List.nodup_cons, and_comm, mem_iff_get?]
    cases (ofIds ids).positions.get? a <;> simp

/-- The first repeat stands behind identifiers that are all different. -/
theorem head?_ids_repeats : ((ofIds ids).repeats.map Repeat.id).head? = some id ↔
    ∃ before after, ids = before ++ id :: after ∧ before.Nodup ∧ id ∈ before := by
  induction ids using List.reverseRecOn with
  | nil => simp [ofIds, addAll, empty]
  | append_singleton ids a ih =>
    have hsplit : (∃ before after, ids ++ [a] = before ++ id :: after ∧ before.Nodup ∧ id ∈ before) ↔
        (∃ before after, ids = before ++ id :: after ∧ before.Nodup ∧ id ∈ before) ∨
          ids.Nodup ∧ id ∈ ids ∧ a = id := by
      constructor
      · intro hx
        obtain ⟨before, after, h, hnd, hid⟩ := hx
        rcases List.eq_nil_or_concat after with rfl | ⟨after, b, rfl⟩
        · obtain ⟨rfl, ha⟩ := List.append_inj' h rfl
          exact .inr ⟨hnd, hid, List.singleton_inj.mp ha⟩
        · rw [List.concat_eq_append, ← List.cons_append, ← List.append_assoc] at h
          exact .inl ⟨before, after, (List.append_inj' h rfl).1, hnd, hid⟩
      · intro hx
        rcases hx with ⟨before, after, rfl, hnd, hid⟩ | ⟨hnd, hid, rfl⟩
        · exact ⟨before, after ++ [a], List.append_assoc _ _ _, hnd, hid⟩
        · exact ⟨ids, [], rfl, hnd, hid⟩
    have hlast : ((((ofIds ids).positions.get? a).map fun q ↦ Repeat.mk a ids.length q).toList.map
        Repeat.id).head? = some id ↔ id ∈ ids ∧ a = id := by
      cases hq : (ofIds ids).positions.get? a with
      | none =>
        have ha : a ∉ ids := by simp [mem_iff_get?, hq]
        exact iff_of_false (by simp) fun h ↦ ha (h.2 ▸ h.1)
      | some q =>
        have ha : a ∈ ids := mem_iff_get?.mpr ⟨q, hq⟩
        exact ⟨fun h ↦ ⟨Option.some.inj h ▸ ha, Option.some.inj h⟩, fun h ↦ congrArg some h.2⟩
    rw [hsplit, ← ih, repeats_concat, List.map_append, List.head?_append, Option.or_eq_some_iff,
      hlast, List.head?_eq_none_iff, List.map_eq_nil_iff, repeats_eq_nil]

theorem mem_ids_repeats : id ∈ (ofIds ids).repeats.map Repeat.id ↔
    ∃ p q : Nat, q < p ∧ ids[q]? = some id ∧ ids[p]? = some id := by
  rw [List.mem_map]
  constructor
  · intro hx
    obtain ⟨r, hr, rfl⟩ := hx
    have hr := mem_repeats.mp hr
    have hshadowed := hr.shadows.1
    rw [List.getElem?_take_of_lt hr.lt.1] at hshadowed
    exact ⟨r.position, r.shadowed, hr.lt.1, hshadowed, hr.stands⟩
  · intro hx
    obtain ⟨p, q, hqp, hq, hp⟩ := hx
    have hmem : id ∈ ids.take p := by
      rw [← List.getElem?_take_of_lt hqp] at hq
      exact List.mem_of_getElem? hq
    obtain ⟨s, hs⟩ := exists_isLast hmem
    exact ⟨⟨id, p, s⟩, mem_repeats.mpr ⟨hp, hs⟩, rfl⟩

end Index

namespace Ontology

variable (o : Ontology) {id : Text} {p : Nat} {n : Node}

theorem firstPosition?_eq_some :
    o.firstPosition? id = some p ↔ Index.IsFirst (o.nodes.map Node.id) id p := by
  rw [firstPosition?, List.findIdx?_eq_some_iff_getElem, Index.IsFirst, List.getElem?_eq_some_iff]
  simp only [beq_iff_eq, List.length_map, List.getElem_map]
  constructor
  · intro hx
    obtain ⟨hp, hid, hfirst⟩ := hx
    refine ⟨⟨hp, hid⟩, fun q hq h ↦ ?_⟩
    obtain ⟨hql, hqid⟩ := List.getElem?_eq_some_iff.mp h
    rw [List.getElem_map] at hqid
    exact hfirst q hq hqid
  · intro hx
    obtain ⟨⟨hp, hid⟩, hfirst⟩ := hx
    refine ⟨hp, hid, fun q hq h ↦ hfirst q hq ?_⟩
    rw [List.getElem?_map, List.getElem?_eq_getElem (Nat.lt_trans hq hp), Option.map_some, h]

theorem position?_eq_none : o.position? id = none ↔ id ∉ o.nodes.map Node.id := by
  rw [Index.mem_iff_get?, ← o.index_eq, ← Option.eq_none_iff_forall_ne_some.trans not_exists.symm]
  rfl

theorem firstPosition?_eq_none : o.firstPosition? id = none ↔ id ∉ o.nodes.map Node.id := by
  simp [firstPosition?]

theorem get?_eq_some : o.get? id = some n ↔
    ∃ p, Index.IsLast (o.nodes.map Node.id) id p ∧ o.nodes[p]? = some n := by
  simp only [get?, Option.bind_eq_some_iff, position?_eq_some]

theorem get?_eq_none : o.get? id = none ↔ id ∉ o.nodes.map Node.id := by
  rw [← position?_eq_none, get?]
  cases hp : o.position? id with
  | none => simp
  | some p => simp [position?_lt hp]

theorem duplicates_eq : o.duplicates =
    (Index.ofIds (o.nodes.map Node.id)).repeats.map Repeat.id := by
  rw [duplicates, o.index_eq]

theorem position?_eq_firstPosition? :
    o.position? id = o.firstPosition? id ↔ id ∉ o.duplicates := by
  rw [duplicates_eq, Index.mem_ids_repeats]
  constructor
  · intro h hx
    obtain ⟨p, q, hqp, hq, hp⟩ := hx
    obtain ⟨l, hl⟩ := Index.exists_isLast (List.mem_of_getElem? hq)
    have hf := o.firstPosition?_eq_some.mp (h ▸ o.position?_eq_some.mpr hl)
    -- nothing stands before the first, and nothing after the last
    have hlq : l ≤ q := Nat.le_of_not_lt fun hlt ↦ hf.2 q hlt hq
    exact hl.2 p (Nat.lt_of_le_of_lt hlq hqp) hp
  · intro h
    cases hl : o.position? id with
    | none => rw [o.firstPosition?_eq_none.mpr (o.position?_eq_none.mp hl)]
    | some l =>
      have hlast := o.position?_eq_some.mp hl
      refine (o.firstPosition?_eq_some.mpr ⟨hlast.1, fun q hq hid ↦ ?_⟩).symm
      exact h ⟨l, q, hq, hid, hlast.1⟩

theorem indexed_last : List.Forall₂ (Index.IsLast (o.nodes.map Node.id)) o.ids o.indexed := by
  rw [ids, indexed, Assoc.keys, Assoc.values, List.forall₂_map_left_iff, List.forall₂_map_right_iff,
    List.forall₂_same]
  rintro ⟨id, p⟩ he
  exact o.position?_eq_some.mp (o.mem_positions.mp he)

theorem size_eq_card : o.size = (o.nodes.map Node.id).toFinset.card := by
  have hids : o.ids.toFinset = (o.nodes.map Node.id).toFinset := by
    ext id
    rw [List.mem_toFinset, List.mem_toFinset, o.ids_eq, List.mem_eraseDups]
  rw [← hids, List.toFinset_card_of_nodup o.nodup_ids]
  exact (List.length_map _).symm

theorem length_nodes : o.nodes.length = o.size + o.duplicates.length := by
  rw [size, duplicates_eq, o.index_eq, List.length_map, Index.length_ofIds, List.length_map]

theorem repeatRecord_eq {r : Repeat} (h : Index.IsRepeat (o.nodes.map Node.id) r) :
    ∃ n f first, o.nodes[r.position]? = some n ∧ Index.IsFirst (o.nodes.map Node.id) r.id f ∧
      o.nodes[f]? = some first ∧ o.repeatRecord r = ⟨.warning, .ontology,
        "Duplicate node " ++ r.id ++ " (" ++ n.types.primary ++ ") at position "
          ++ Text.ofNat r.position ++ " shadows position " ++ Text.ofNat r.shadowed
          ++ "; first defined as " ++ first.types.primary⟩ := by
  have hid : r.id ∈ o.nodes.map Node.id := List.mem_of_getElem? h.stands
  obtain ⟨f, hf⟩ := Option.ne_none_iff_exists'.mp (mt o.firstPosition?_eq_none.mp (not_not_intro hid))
  have hfirst := o.firstPosition?_eq_some.mp hf
  obtain ⟨n, hn, -⟩ := Option.map_eq_some_iff.mp (List.getElem?_map ▸ h.stands)
  obtain ⟨first, hm, -⟩ := Option.map_eq_some_iff.mp (List.getElem?_map ▸ hfirst.1)
  refine ⟨n, f, first, hn, hfirst, hm, ?_⟩
  simp only [repeatRecord, hf, hn, hm, Option.bind_some, Option.map_some, Option.getD_some]

theorem warnings_log : o.log.filter (·.level = .warning) = o.index.repeats.map o.repeatRecord := by
  rw [log, List.filter_append, List.filter_eq_self.mpr (by simp [repeatRecord])]
  exact List.append_nil _

variable {d : Document}

theorem build_strict_eq_error : (build true d).result = .error ⟨id⟩ ↔
    ∃ before after, d.nodes.map Node.id = before ++ id :: after ∧ before.Nodup ∧ id ∈ before := by
  rw [← Index.head?_ids_repeats]
  change _ ↔ ((ofDocument d).index.repeats.map Repeat.id).head? = some id
  unfold build
  cases hr : (ofDocument d).index.repeats with
  | nil => simp [hr]
  | cons r rs => simp [hr]

theorem build_strict_eq_ok : (build true d).result = .ok (ofDocument d) ↔
    (d.nodes.map Node.id).Nodup := by
  rw [← Index.repeats_eq_nil]
  change _ ↔ (ofDocument d).index.repeats = []
  unfold build
  cases hr : (ofDocument d).index.repeats with
  | nil => simp [hr]
  | cons r rs => simp [hr]

/-- How an ontology finds entries: by identifier the last one, by a search from the front the first, and
in turn the last of each identifier in the order in which identifiers first came. -/
structure Finds (o : Ontology) (nodes : List Node) : Prop where
  nodes_eq : o.nodes = nodes
  position?_iff : ∀ id p, o.position? id = some p ↔ Index.IsLast (nodes.map Node.id) id p
  get?_iff : ∀ id n, o.get? id = some n ↔
    ∃ p, Index.IsLast (nodes.map Node.id) id p ∧ nodes[p]? = some n
  firstPosition?_iff : ∀ id p, o.firstPosition? id = some p ↔ Index.IsFirst (nodes.map Node.id) id p
  none_iff : ∀ id, (o.position? id = none ↔ id ∉ nodes.map Node.id) ∧
    (o.get? id = none ↔ id ∉ nodes.map Node.id) ∧
    (o.firstPosition? id = none ↔ id ∉ nodes.map Node.id)
  size_eq : o.size = (nodes.map Node.id).toFinset.card
  indexed : List.Forall₂ (Index.IsLast (nodes.map Node.id)) (nodes.map Node.id).eraseDups o.indexed

/-- What an ontology has to say of entries that are not the first of their identifier: it lists them in
the order of the document, and warns once of each. -/
structure Reports (o : Ontology) (nodes : List Node) (log : Log) : Prop where
  duplicates_eq : o.duplicates =
    ((nodes.map Node.id).zipIdx.filter fun e ↦
      ((nodes.map Node.id).take e.2).contains e.1).map (·.1)
  length_eq : nodes.length = o.size + o.duplicates.length
  same_iff : ∀ id, o.position? id = o.firstPosition? id ↔ id ∉ o.duplicates
  warnings : ∃ rs : List Repeat, o.duplicates = rs.map Repeat.id ∧
    (∀ r, r ∈ rs ↔ Index.IsRepeat (nodes.map Node.id) r) ∧
    (rs.Pairwise fun r s ↦ r.position < s.position) ∧
    List.Forall₂ (fun r w ↦ ∃ n f first, nodes[r.position]? = some n ∧
      Index.IsFirst (nodes.map Node.id) r.id f ∧ nodes[f]? = some first ∧
      w = ⟨.warning, .ontology,
        "Duplicate node " ++ r.id ++ " (" ++ n.types.primary ++ ") at position "
          ++ Text.ofNat r.position ++ " shadows position " ++ Text.ofNat r.shadowed
          ++ "; first defined as " ++ first.types.primary⟩) rs (log.filter (·.level = .warning))

/-- Any list of entries is indexed, with the last of each identifier found and the others reported. A
strict index refuses the first identifier that comes again, and nothing else. -/
theorem build_finds_and_reports (d : Document) :
    (∃ o, (build false d).result = .ok o ∧ o.Finds d.nodes ∧
      o.Reports d.nodes (build false d).log) ∧
    (∀ id, (build true d).result = .error ⟨id⟩ ↔
      ∃ before after, d.nodes.map Node.id = before ++ id :: after ∧ before.Nodup ∧ id ∈ before) ∧
    ((∃ e, (build true d).result = .error e) ↔ ¬ (d.nodes.map Node.id).Nodup) := by
  let o := ofDocument d
  have hfinds : o.Finds d.nodes :=
    { nodes_eq := rfl
      position?_iff := fun _ _ ↦ o.position?_eq_some
      get?_iff := fun _ _ ↦ o.get?_eq_some
      firstPosition?_iff := fun _ _ ↦ o.firstPosition?_eq_some
      none_iff := fun _ ↦ ⟨o.position?_eq_none, o.get?_eq_none, o.firstPosition?_eq_none⟩
      size_eq := o.size_eq_card
      indexed := o.ids_eq ▸ o.indexed_last }
  have hreports : o.Reports d.nodes o.log :=
    { duplicates_eq := o.duplicates_eq.trans (Index.ids_repeats _)
      length_eq := o.length_nodes
      same_iff := fun _ ↦ o.position?_eq_firstPosition?
      warnings := by
        refine ⟨_, rfl, fun _ ↦ Index.mem_repeats, Index.pairwise_repeats _, ?_⟩
        rw [warnings_log, List.forall₂_map_right_iff, List.forall₂_same]
        exact fun r hr ↦ o.repeatRecord_eq (Index.mem_repeats.mp hr) }
  refine ⟨⟨o, rfl, hfinds, hreports⟩, fun _ ↦ build_strict_eq_error, ?_⟩
  rw [exists_eq_error, ← build_strict_eq_ok]
  exact not_congr ⟨fun ⟨_, h⟩ ↦ build_eq_ok h ▸ h, fun h ↦ ⟨_, h⟩⟩

end Ontology

end OntologyStructs
