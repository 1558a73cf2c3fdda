import Mathlib.Data.List.Nodup
import OntologyStructs.Assoc

namespace OntologyStructs.Assoc

variable {α β : Type} [DecidableEq α]

theorem get?_insert (k k' : α) (v : β) (m : Assoc α β) :
    (m.insert k v).get? k' = if k' = k then some v else m.get? k' := by
  induction m with
  | nil => rfl
  | cons e r ih =>
    obtain ⟨a, b⟩ := e
    by_cases hk : k = a
    · subst hk
      by_cases hk' : k' = k <;> simp [insert, get?, hk']
    · by_cases hk' : k' = a
      · subst hk'
        simp [insert, get?, hk, Ne.symm hk]
      · simp only [insert, get?, hk, hk', if_false, ih]

theorem keys_insert (k : α) (v : β) (m : Assoc α β) :
    (m.insert k v).keys = if k ∈ m.keys then m.keys else m.keys ++ [k] := by
  induction m with
  | nil => rfl
  | cons e r ih =>
    obtain ⟨a, b⟩ := e
    have hr : keys ((a, b) :: r) = a :: keys r := rfl
    by_cases hk : k = a
    · subst hk
      simp [insert, keys]
    · have hi : insert k v ((a, b) :: r) = (a, b) :: insert k v r := by simp [insert, hk]
      rw [hi, hr]
      change a :: keys (insert k v r) = _
      rw [ih]
      by_cases hm : k ∈ keys r <;> simp [hm, hk]

theorem nodup_keys_insert (k : α) (v : β) {m : Assoc α β} (h : m.keys.Nodup) :
    (m.insert k v).keys.Nodup := by
  rw [keys_insert]
  split
  · exact h
  · next hk =>
    refine List.nodup_append.mpr ⟨h, List.nodup_singleton k, fun a ha b hb ↦ ?_⟩
    rintro rfl
    exact hk (List.mem_singleton.mp hb ▸ ha)

theorem insert_of_notMem {k : α} (v : β) {m : Assoc α β} (h : k ∉ m.keys) :
    m.insert k v = m ++ [(k, v)] := by
  induction m with
  | nil => rfl
  | cons e r ih =>
    obtain ⟨a, b⟩ := e
    obtain ⟨ha, hr⟩ := not_or.mp (mt List.mem_cons.mpr h)
    rw [insert, if_neg ha, ih hr, List.cons_append]

theorem values_insert_subset (k : α) (v : β) (m : Assoc α β) :
    (m.insert k v).values ⊆ v :: m.values := by
  induction m with
  | nil => exact List.Subset.refl _
  | cons e r ih =>
    obtain ⟨a, b⟩ := e
    have hold : values r ⊆ values ((a, b) :: r) := List.subset_cons_self b _
    rw [insert]
    split
    · exact List.cons_subset_cons v hold
    · exact List.cons_subset.mpr
        ⟨by simp [values], List.Subset.trans ih (List.cons_subset_cons v hold)⟩

theorem mem_keys_iff (k : α) (m : Assoc α β) : k ∈ m.keys ↔ ∃ v, m.get? k = some v := by
  induction m with
  | nil => simp [keys, get?]
  | cons e r ih =>
    obtain ⟨a, b⟩ := e
    have hr : keys ((a, b) :: r) = a :: keys r := rfl
    by_cases hk : k = a
    · simp [hr, get?, hk]
    · simp only [hr, List.mem_cons, hk, false_or, ih, get?, if_false]

theorem contains_iff (k : α) (m : Assoc α β) : m.contains k ↔ k ∈ m.keys := by
  rw [contains, Option.isSome_iff_exists, mem_keys_iff]

theorem mem_iff_get? {m : Assoc α β} (hm : m.keys.Nodup) (k : α) (v : β) :
    (k, v) ∈ m ↔ m.get? k = some v := by
  induction m with
  | nil => simp [get?]
  | cons e r ih =>
    obtain ⟨a, b⟩ := e
    obtain ⟨ha, hr⟩ := List.nodup_cons.mp hm
    by_cases hk : k = a
    · subst hk
      have hn : (k, v) ∉ r := fun h ↦ ha (List.mem_map_of_mem (f := (·.1)) h)
      simp [get?, hn, eq_comm]
    · simp only [List.mem_cons, Prod.mk.injEq, hk, false_and, false_or, ih hr, get?, if_false]

theorem get?_append_eq_or (k : α) (l m : Assoc α β) :
    get? k (l ++ m) = (get? k l).or (get? k m) := by
  induction l with
  | nil => rfl
  | cons e l ih =>
    obtain ⟨a, b⟩ := e
    rw [List.cons_append, get?, get?, ih]
    split <;> rfl

/-- What is listed under the keys of some of `l` is found under them. -/
theorem get?_filterMap {γ : Type} {key : γ → α} (hkey : key.Injective) {f : γ → Option β} {c : γ}
    {l : List γ} (hc : c ∈ l ∨ f c = none) :
    get? (key c) (l.filterMap fun a ↦ (f a).map fun b ↦ (key a, b)) = f c := by
  induction l with
  | nil =>
    rcases hc with hc | hc
    · cases hc
    · exact hc.symm
  | cons a l ih =>
    have hskip : key c ≠ key a →
        get? (key c) ((a :: l).filterMap fun a ↦ (f a).map fun b ↦ (key a, b)) =
          get? (key c) (l.filterMap fun a ↦ (f a).map fun b ↦ (key a, b)) := by
      intro hne
      rw [List.filterMap_cons]
      cases f a with
      | none => rfl
      | some b => exact if_neg hne
    by_cases hca : c = a
    · subst hca
      cases hf : f c with
      | none =>
        rw [List.filterMap_cons, hf]
        exact (ih (.inr hf)).trans hf
      | some b =>
        rw [List.filterMap_cons, hf]
        exact if_pos rfl
    · rw [hskip (mt (@hkey c a) hca), ih (hc.imp_left fun h ↦ (List.mem_cons.mp h).resolve_left hca)]

theorem get?_of_notMem {k : α} {m : Assoc α β} (h : k ∉ m.keys) : m.get? k = none := by
  cases hv : m.get? k with
  | none => rfl
  | some v => exact absurd ((mem_keys_iff k m).mpr ⟨v, hv⟩) h

def update (m ups : Assoc α β) : Assoc α β := ups.foldl (fun m (k, v) ↦ m.insert k v) m

theorem update_cons (m : Assoc α β) (e : α × β) (ups : Assoc α β) :
    m.update (e :: ups) = (m.insert e.1 e.2).update ups := rfl

theorem get?_update {ups : Assoc α β} (h : ups.keys.Nodup) (m : Assoc α β) (k : α) :
    (m.update ups).get? k = (ups.get? k).or (m.get? k) := by
  induction ups generalizing m with
  | nil => rfl
  | cons e ups ih =>
    obtain ⟨a, b⟩ := e
    obtain ⟨ha, hups⟩ := List.nodup_cons.mp h
    rw [update_cons, ih hups, get?_insert, get?]
    by_cases hk : k = a
    · subst hk
      rw [if_pos rfl, if_pos rfl, get?_of_notMem ha]
      rfl
    · rw [if_neg hk, if_neg hk]

theorem keys_update {ups : Assoc α β} (h : ups.keys.Nodup) (m : Assoc α β) :
    (m.update ups).keys = m.keys ++ ups.keys.filter fun k ↦ !m.contains k := by
  induction ups generalizing m with
  | nil => exact (List.append_nil _).symm
  | cons e ups ih =>
    obtain ⟨a, b⟩ := e
    obtain ⟨ha, hups⟩ := List.nodup_cons.mp h
    have hcons : keys ((a, b) :: ups) = a :: keys ups := rfl
    have hfilter : ((keys ups).filter fun k ↦ !(m.insert a b).contains k) =
        (keys ups).filter fun k ↦ !m.contains k := by
      refine List.filter_congr fun k hk ↦ ?_
      have hne : k ≠ a := fun h ↦ ha (h ▸ hk)
      rw [contains, contains, get?_insert, if_neg hne]
    rw [update_cons, ih hups, hfilter, keys_insert, hcons]
    split
    · next hm => rw [List.filter_cons_of_neg (by simpa [contains_iff] using hm)]
    · next hm =>
      rw [List.filter_cons_of_pos (by simpa [← contains_iff] using hm), List.append_assoc]
      rfl

theorem nodup_keys_update {m : Assoc α β} (h : m.keys.Nodup) (ups : Assoc α β) :
    (m.update ups).keys.Nodup := by
  induction ups generalizing m with
  | nil => exact h
  | cons e ups ih => exact ih (nodup_keys_insert e.1 e.2 h)

theorem values_update_subset (m ups : Assoc α β) :
    (m.update ups).values ⊆ ups.values ++ m.values := by
  induction ups generalizing m with
  | nil => exact List.Subset.refl _
  | cons e ups ih =>
    intro v hv
    rcases List.mem_append.mp (ih _ hv) with hv | hv
    · exact List.mem_append_left _ (List.mem_cons_of_mem _ hv)
    · rcases List.mem_cons.mp (values_insert_subset e.1 e.2 m hv) with rfl | hv
      · exact List.mem_append_left _ List.mem_cons_self
      · exact List.mem_append_right _ hv

end OntologyStructs.Assoc
