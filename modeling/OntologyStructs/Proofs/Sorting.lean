import OntologyStructs.Text

namespace OntologyStructs.Text

section listLe

variable {α : Type} [DecidableEq α] {le : α → α → Bool} {as bs cs : List α}

theorem listLe_total (h : ∀ a b, le a b || le b a) (as bs : List α) :
    listLe le as bs || listLe le bs as := by
  induction as generalizing bs with
  | nil => simp [listLe]
  | cons a as ih =>
    cases bs with
    | nil => simp [listLe]
    | cons b bs =>
      by_cases hab : a = b
      · simpa [listLe, hab] using ih bs
      · simpa [listLe, hab, Ne.symm hab] using h a b

theorem listLe_antisymm (h : ∀ a b, le a b → le b a → a = b) (hab : listLe le as bs)
    (hba : listLe le bs as) : as = bs := by
  induction as generalizing bs with
  | nil =>
    cases bs with
    | nil => rfl
    | cons b bs => simp [listLe] at hba
  | cons a as ih =>
    cases bs with
    | nil => simp [listLe] at hab
    | cons b bs =>
      by_cases he : a = b
      · subst he
        simp only [listLe, if_true] at hab hba
        rw [ih hab hba]
      · simp only [listLe, he, Ne.symm he, if_false] at hab hba
        exact absurd (h a b hab hba) he

theorem listLe_trans (ht : ∀ a b c, le a b → le b c → le a c) (ha : ∀ a b, le a b → le b a → a = b)
    (hab : listLe le as bs) (hbc : listLe le bs cs) : listLe le as cs := by
  induction as generalizing bs cs with
  | nil => simp [listLe]
  | cons a as ih =>
    cases bs with
    | nil => simp [listLe] at hab
    | cons b bs =>
      cases cs with
      | nil => simp [listLe] at hbc
      | cons c cs =>
        by_cases h₁ : a = b
        · subst h₁
          by_cases h₂ : a = c
          · subst h₂
            simp only [listLe, if_true] at hab hbc ⊢
            exact ih hab hbc
          · simpa [listLe, h₂] using hbc
        · simp only [listLe, h₁, if_false] at hab
          by_cases h₂ : b = c
          · subst h₂
            simpa [listLe, h₁] using hab
          · simp only [listLe, h₂, if_false] at hbc
            have hac : a ≠ c := by
              rintro rfl
              exact h₁ (ha a b hab hbc)
            simpa [listLe, hac] using ht a b c hab hbc

end listLe

variable {a b c : Text} {ts us : List Text}

theorem le_total (a b : Text) : le a b || le b a := by
  apply listLe_total
  intro c d
  simpa using Nat.le_total c.val d.val

theorem le_antisymm (hab : le a b) (hba : le b a) : a = b := by
  refine listLe_antisymm (fun c d hcd hdc ↦ ?_) hab hba
  simp only [decide_eq_true_eq] at hcd hdc
  exact Fin.ext (Nat.le_antisymm hcd hdc)

theorem le_trans (hab : le a b) (hbc : le b c) : le a c := by
  refine listLe_trans (fun c d e hcd hde ↦ ?_) (fun c d hcd hdc ↦ ?_) hab hbc
  · simp only [decide_eq_true_eq] at hcd hde ⊢
    exact Nat.le_trans hcd hde
  · simp only [decide_eq_true_eq] at hcd hdc
    exact Fin.ext (Nat.le_antisymm hcd hdc)

theorem sort_perm (ts : List Text) : (sort ts).Perm ts := List.mergeSort_perm ts le

theorem mem_sort : a ∈ sort ts ↔ a ∈ ts := (sort_perm ts).mem_iff

theorem pairwise_sort (ts : List Text) : (sort ts).Pairwise (le · ·) :=
  @List.pairwise_mergeSort _ le (fun _ _ _ ↦ le_trans) le_total ts

theorem eq_of_sorted (hts : ts.Pairwise (le · ·)) (hus : us.Pairwise (le · ·)) (h : ts.Perm us) :
    ts = us :=
  h.eq_of_pairwise (fun _ _ _ _ ↦ le_antisymm) hts hus

end OntologyStructs.Text
