import OntologyStructs.Proofs.Naming
import OntologyStructs.Text.Blank

namespace OntologyStructs

theorem CodePoint.not_isBlank_of_isAlphanumeric {c : CodePoint} (h : c.isAlphanumeric) :
    c.isBlank = false := by
  rw [isAlphanumeric_iff, isUpper_iff, isLower_iff, isDigit_iff] at h
  rw [Bool.eq_false_iff, isBlank]
  simp only [ne_eq, Bool.or_eq_true, Bool.and_eq_true, decide_eq_true_eq, beq_iff_eq]
  omega

namespace Naming

variable {c d : CodePoint} {r t : Text}

/-- A blank before each capital behind a small letter or digit. -/
def spaceCapitals : Text → Text
  | [] => []
  | [c] => [c]
  | c :: d :: r =>
    if (c.isLower || c.isDigit) && d.isUpper then c :: ' ' :: d :: spaceCapitals r
    else c :: spaceCapitals (d :: r)

def beginsWord : Text → Bool
  | [] => false
  | c :: r => c.isUpper && r.head?.any CodePoint.isLower

/-- How many capitals stand in front before one that begins a word: one at least, and as many as there
can be. -/
def acronym? : Text → Option Nat
  | [] => none
  | c :: r =>
    if c.isUpper then
      match acronym? r with
      | some n => some (n + 1)
      | none => if beginsWord r then some 1 else none
    else none

/-- A blank behind each acronym, from left to right. What comes next is looked for behind the two
letters that begin the word. -/
def spaceAcronyms : Text → Text
  | [] => []
  | c :: r =>
    match acronym? (c :: r) with
    | some n => (c :: r).take n ++ " " ++ ((c :: r).drop n).take 2 ++ spaceAcronyms (r.drop (n + 1))
    | none => c :: spaceAcronyms r
termination_by t => t.length
decreasing_by all_goals grind

theorem not_isUpper_of_space (h : (c.isLower || c.isDigit) && d.isUpper) : ¬c.isUpper :=
  CodePoint.not_isUpper_of_small (Bool.or_eq_true_iff.mp (Bool.and_eq_true_iff.mp h).1)

theorem spaceCapitals_cons_cons (c d : CodePoint) (r : Text) : spaceCapitals (c :: d :: r) =
    if (c.isLower || c.isDigit) && d.isUpper then c :: ' ' :: spaceCapitals (d :: r)
    else c :: spaceCapitals (d :: r) := by
  rw [spaceCapitals]
  split
  next h =>
    -- the capital is passed over with what is before it, but no blank can be due behind it
    have hd : ¬(d.isLower || d.isDigit) := fun hsmall ↦
      CodePoint.not_isUpper_of_small (Bool.or_eq_true_iff.mp hsmall) (Bool.and_eq_true_iff.mp h).2
    cases r with
    | nil => rfl
    | cons e r =>
      have hkeep : spaceCapitals (d :: e :: r) = d :: spaceCapitals (e :: r) := if_neg (by simp [hd])
      rw [hkeep]
  · rfl

theorem head?_spaceCapitals (t : Text) : (spaceCapitals t).head? = t.head? := by
  match t with
  | [] => rfl
  | [c] => rfl
  | c :: d :: r =>
    rw [spaceCapitals_cons_cons]
    split <;> rfl

theorem not_beginsWord_of_not_isUpper (h : ¬c.isUpper) : beginsWord (c :: r) = false := by
  rw [beginsWord, Bool.eq_false_iff.mpr h, Bool.false_and]

/-- No blank stands between a capital and the small letter behind it. -/
theorem beginsWord_spaceCapitals (t : Text) : beginsWord (spaceCapitals t) = beginsWord t := by
  match t with
  | [] => rfl
  | [c] => rfl
  | c :: d :: r =>
    rw [spaceCapitals_cons_cons]
    split
    next h =>
      have hc := not_isUpper_of_space h
      rw [not_beginsWord_of_not_isUpper hc, not_beginsWord_of_not_isUpper hc]
    · rw [beginsWord, head?_spaceCapitals, beginsWord]

theorem acronym?_of_not_isUpper (h : ¬c.isUpper) : acronym? (c :: r) = none := if_neg h

/-- Two capitals are in front of an acronym with the word behind it. -/
theorem beginsWord_of_acronym? {n : Nat} (h : acronym? t = some n) : beginsWord t = false := by
  rw [Bool.eq_false_iff]
  intro hbegins
  match t, hbegins with
  | [c], hbegins => simp [beginsWord] at hbegins
  | c :: d :: r, hbegins =>
    obtain ⟨hc, hlower⟩ := Bool.and_eq_true_iff.mp hbegins
    have hd : ¬d.isUpper := CodePoint.not_isUpper_of_small (.inl hlower)
    rw [acronym?, if_pos hc, acronym?_of_not_isUpper hd, not_beginsWord_of_not_isUpper hd] at h
    cases h

theorem spaceAcronyms_of_acronym?_eq_none (h : acronym? (c :: r) = none) :
    spaceAcronyms (c :: r) = c :: spaceAcronyms r := by
  rw [spaceAcronyms, h]

theorem spaceAcronyms_of_not_isUpper (h : ¬c.isUpper) :
    spaceAcronyms (c :: r) = c :: spaceAcronyms r :=
  spaceAcronyms_of_acronym?_eq_none (acronym?_of_not_isUpper h)

/-- That an acronym is as long as it can be leaves its last capital to say where the blank is. -/
theorem spaceAcronyms_cons (c : CodePoint) (r : Text) : spaceAcronyms (c :: r) =
    if c.isUpper && beginsWord r then c :: ' ' :: spaceAcronyms r else c :: spaceAcronyms r := by
  cases hc : c.isUpper with
  | false =>
    rw [Bool.false_and, if_neg Bool.false_ne_true, spaceAcronyms_of_not_isUpper (Bool.eq_false_iff.mp hc)]
  | true =>
    rw [Bool.true_and]
    cases hr : acronym? r with
    | some n =>
      have hacronym : acronym? (c :: r) = some (n + 1) := by rw [acronym?, if_pos hc, hr]
      obtain ⟨d, r, rfl⟩ : ∃ d r', r = d :: r' :=
        List.exists_cons_of_ne_nil (by rintro rfl; cases hr)
      rw [beginsWord_of_acronym? hr, if_neg Bool.false_ne_true, spaceAcronyms, hacronym, spaceAcronyms,
        hr]
      rfl
    | none =>
      cases hbegins : beginsWord r with
      | true =>
        have hacronym : acronym? (c :: r) = some 1 := by
          rw [acronym?, if_pos hc, hr]
          exact if_pos hbegins
        rw [if_pos rfl, spaceAcronyms, hacronym]
        match r, hbegins with
        | [d], hbegins => simp [beginsWord] at hbegins
        | d :: e :: r, hbegins =>
          have he : ¬e.isUpper :=
            CodePoint.not_isUpper_of_small (.inl (Bool.and_eq_true_iff.mp hbegins).2)
          rw [spaceAcronyms_of_acronym?_eq_none hr, spaceAcronyms_of_not_isUpper he]
          rfl
      | false =>
        have hacronym : acronym? (c :: r) = none := by
          rw [acronym?, if_pos hc, hr]
          exact if_neg (Bool.eq_false_iff.mp hbegins)
        rw [if_neg Bool.false_ne_true, spaceAcronyms_of_acronym?_eq_none hacronym]

theorem endsBetween_head? (c d : CodePoint) (r : Text) : endsBetween c d r.head? =
    ((c.isLower || c.isDigit) && d.isUpper || c.isUpper && beginsWord (d :: r)) := by
  rw [endsBetween, beginsWord]
  cases d.isUpper <;> simp

/-- Between them the two passes put a blank wherever a word ends, and nowhere else. -/
theorem spaceAcronyms_spaceCapitals (c d : CodePoint) (r : Text) :
    spaceAcronyms (spaceCapitals (c :: d :: r)) =
      if endsBetween c d r.head? then c :: ' ' :: spaceAcronyms (spaceCapitals (d :: r))
      else c :: spaceAcronyms (spaceCapitals (d :: r)) := by
  rw [spaceCapitals_cons_cons, endsBetween_head?]
  by_cases hsmall : (c.isLower || c.isDigit) && d.isUpper
  · have hc := not_isUpper_of_space hsmall
    have hspace : ¬CodePoint.isUpper ' ' := by decide
    rw [hsmall, Bool.true_or, if_pos rfl, if_pos rfl, spaceAcronyms_of_not_isUpper hc,
      spaceAcronyms_of_not_isUpper hspace]
  · rw [Bool.eq_false_iff.mpr hsmall, Bool.false_or, if_neg Bool.false_ne_true, spaceAcronyms_cons,
      beginsWord_spaceCapitals]

theorem head?_spaceAcronyms_spaceCapitals (c : CodePoint) (r : Text) :
    (spaceAcronyms (spaceCapitals (c :: r))).head? = some c := by
  cases r with
  | nil => rw [spaceCapitals, spaceAcronyms_cons, beginsWord, Bool.and_false]; rfl
  | cons d r =>
    rw [spaceAcronyms_spaceCapitals]
    split <;> rfl

/-- The words of letters and digits are what the blanks leave apart. -/
theorem caseWords_eq_stretches (h : ∀ c ∈ t, c.isAlphanumeric) :
    caseWords t = (spaceAcronyms (spaceCapitals t)).stretches fun c ↦ !c.isBlank := by
  have hkeep {c : CodePoint} (hc : c.isAlphanumeric) : !c.isBlank := by
    rw [CodePoint.not_isBlank_of_isAlphanumeric hc]
    rfl
  have hspace : ¬(!CodePoint.isBlank ' ') := by decide
  induction t with
  | nil =>
    rw [spaceCapitals, spaceAcronyms]
    rfl
  | cons c t ih =>
    obtain ⟨hc, ht⟩ := List.forall_mem_cons.mp h
    cases t with
    | nil =>
      rw [spaceCapitals, spaceAcronyms_cons, beginsWord, Bool.and_false, if_neg Bool.false_ne_true,
        spaceAcronyms]
      exact (Text.stretches_of_forall (List.forall_mem_singleton.mpr (hkeep hc))
        (List.cons_ne_nil c [])).symm
    | cons d r =>
      rw [caseWords, ih ht, spaceAcronyms_spaceCapitals]
      split
      · exact (Text.stretches_append (w := [c]) (List.forall_mem_singleton.mpr (hkeep hc))
          (List.cons_ne_nil c []) hspace _).symm
      · obtain ⟨u, hu⟩ := List.head?_eq_some_iff.mp (head?_spaceAcronyms_spaceCapitals d r)
        rw [hu, Text.stretches_cons_of_keep (hkeep hc) (hkeep (ht d List.mem_cons_self))]

end Naming

end OntologyStructs
