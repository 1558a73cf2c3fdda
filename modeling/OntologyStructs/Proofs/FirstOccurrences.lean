import Mathlib.Data.List.Nodup

namespace List

variable {α : Type} [BEq α] [LawfulBEq α]

theorem nodup_eraseDups : ∀ l : List α, l.eraseDups.Nodup
  | [] => by simp
  | a :: l => by
    rw [eraseDups_cons, nodup_cons, mem_eraseDups]
    exact ⟨by simp, nodup_eraseDups _⟩
termination_by l => l.length
decreasing_by exact Nat.lt_succ_of_le (length_filter_le _ _)

theorem Nodup.eraseDups_eq {l : List α} (h : l.Nodup) : l.eraseDups = l := by
  induction l with
  | nil => rfl
  | cons a l ih =>
    obtain ⟨ha, hl⟩ := nodup_cons.mp h
    have hf : (l.filter fun b ↦ !b == a) = l := by
      rw [filter_eq_self]
      intro b hb
      have : b ≠ a := fun e ↦ ha (e ▸ hb)
      simpa using this
    rw [eraseDups_cons, hf, ih hl]

theorem eraseDups_filter (p : α → Bool) : ∀ l : List α, (l.filter p).eraseDups = l.eraseDups.filter p
  | [] => rfl
  | a :: l => by
    have ih := eraseDups_filter p (l.filter fun b ↦ !b == a)
    rw [eraseDups_cons, filter_cons, filter_cons]
    by_cases ha : p a
    · simp only [ha, if_true, eraseDups_cons]
      rw [← ih, filter_comm]
    · have hf : (l.filter p).filter (fun b ↦ !b == a) = l.filter p := by
        rw [filter_eq_self]
        intro b hb
        have hne : b ≠ a := fun e ↦ ha (e ▸ (mem_filter.mp hb).2)
        simpa using hne
      simp only [ha, Bool.false_eq_true, if_false]
      rw [← ih, filter_comm, hf]
termination_by l => l.length
decreasing_by exact Nat.lt_succ_of_le (length_filter_le _ _)

theorem eraseDups_append_of_subset {xs ys : List α} (h : ys ⊆ xs) :
    (xs ++ ys).eraseDups = xs.eraseDups := by
  have hr : ys.removeAll xs = [] := by
    simp only [removeAll, filter_eq_nil_iff]
    intro y hy
    simpa using h hy
  rw [eraseDups_append, hr, eraseDups_nil, append_nil]

theorem eraseDups_append_congr {xs xs' : List α} (h : xs.eraseDups = xs'.eraseDups) (ys : List α) :
    (xs ++ ys).eraseDups = (xs' ++ ys).eraseDups := by
  have hm (y : α) : y ∈ xs ↔ y ∈ xs' := by rw [← mem_eraseDups, h, mem_eraseDups]
  have hr : ys.removeAll xs = ys.removeAll xs' := by
    simp only [removeAll]
    apply filter_congr
    intro y _
    simp [hm]
  rw [eraseDups_append, eraseDups_append, h, hr]

@[simp] theorem eraseDups_eraseDups (l : List α) : l.eraseDups.eraseDups = l.eraseDups :=
  (nodup_eraseDups l).eraseDups_eq

theorem eraseDups_eraseDups_append (xs ys : List α) :
    (xs.eraseDups ++ ys).eraseDups = (xs ++ ys).eraseDups :=
  eraseDups_append_congr (eraseDups_eraseDups xs) ys

theorem eraseDups_append_eraseDups (xs ys : List α) :
    (xs ++ ys.eraseDups).eraseDups = (xs ++ ys).eraseDups := by
  simp only [eraseDups_append, removeAll, eraseDups_filter, eraseDups_eraseDups]

theorem eraseDups_append_absorb {xs ys : List α} (h : ys ⊆ xs) (zs : List α) :
    (xs ++ ys ++ zs).eraseDups = (xs ++ zs).eraseDups :=
  eraseDups_append_congr (eraseDups_append_of_subset h) zs

theorem eraseDups_append_cons {a : α} {xs : List α} (h : a ∉ xs) (ys : List α) :
    (xs ++ a :: ys).eraseDups =
      xs.eraseDups ++ a :: ((ys.removeAll xs).filter fun b ↦ !b == a).eraseDups := by
  have hr : (a :: ys).removeAll xs = a :: ys.removeAll xs := by simp [removeAll, h]
  rw [eraseDups_append, hr, eraseDups_cons]

/-- The outcome may stand among what it comes from. -/
theorem eraseDups_append_flatMap_outcome {β : Type} [DecidableEq β] {xs : List α} {bs : List β}
    {f : β → List α} {b : β}
    (h : f b = (xs ++ bs.flatMap fun c ↦ if c = b then [] else f c).eraseDups) :
    (xs ++ bs.flatMap f).eraseDups = f b := by
  induction bs generalizing xs with
  | nil => exact h.symm
  | cons c bs ih =>
    rw [flatMap_cons] at h ⊢
    by_cases hc : c = b
    · subst hc
      rw [if_pos rfl, nil_append] at h
      have hall : bs.flatMap f ⊆ xs ++ f c := by
        intro a ha
        obtain ⟨d, hd, ha⟩ := mem_flatMap.mp ha
        by_cases hdc : d = c
        · exact mem_append_right xs (hdc ▸ ha)
        · rw [h, mem_append, mem_eraseDups]
          exact .inr (mem_append_right _ (mem_flatMap.mpr ⟨d, hd, by rwa [if_neg hdc]⟩))
      calc (xs ++ (f c ++ bs.flatMap f)).eraseDups
          = (xs ++ f c).eraseDups := by rw [← append_assoc, eraseDups_append_of_subset hall]
        _ = (xs ++ xs ++ _).eraseDups := by rw [h, eraseDups_append_eraseDups, append_assoc]
        _ = f c := by rw [eraseDups_append_absorb (Subset.refl xs), ← h]
    · rw [if_neg hc, ← append_assoc] at h
      rw [← append_assoc, ih h]

omit [BEq α] [LawfulBEq α] in
theorem filter_eq_singleton {β : Type} [DecidableEq β] {f : α → β} {l : List α} {a : α}
    (hl : (l.map f).Nodup) (ha : a ∈ l) : (l.filter fun b ↦ f b = f a) = [a] := by
  have hf : (l.filter fun b ↦ f b = f a).map f = [f a] := by
    have hone := count_eq_one_of_mem hl (mem_map_of_mem ha)
    have hmap := filter_map (p := fun b ↦ decide (b = f a)) (f := f) (l := l)
    rw [filter_eq, hone, replicate_one] at hmap
    exact hmap.symm
  obtain ⟨b, hb, _⟩ := map_eq_singleton_iff.mp hf
  have hab : a ∈ l.filter fun b ↦ f b = f a := mem_filter.mpr ⟨ha, decide_eq_true rfl⟩
  rw [hb, mem_singleton] at hab
  rw [hb, hab]

end List
