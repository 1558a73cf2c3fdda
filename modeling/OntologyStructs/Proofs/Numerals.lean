import OntologyStructs.Json.Reader

namespace OntologyStructs

namespace Text

variable {t u : Text} {n : Nat}

/-- There are `n` digits in a row in a text, but for underscores between them. -/
def HasNumeral (t : Text) (n : Nat) : Prop :=
  ∃ run, run <:+: t ∧ (∀ c ∈ run, c.isDigit ∨ c = '_') ∧ run.countP CodePoint.isDigit = n

theorem HasNumeral.mono (h : u.HasNumeral n) (hu : u <:+: t) : t.HasNumeral n := by
  obtain ⟨run, hrun, hdigits, hcount⟩ := h
  exact ⟨run, hrun.trans hu, hdigits, hcount⟩

theorem hasNumeral_of_all_isDigit (h : u.all CodePoint.isDigit) (hu : u <:+: t) :
    t.HasNumeral u.length :=
  ⟨u, hu, fun c hc ↦ .inl (List.all_eq_true.mp h c hc), List.countP_eq_length.mpr (List.all_eq_true.mp h)⟩

theorem suffix_of_afterPrefix? {start : Text} (h : t.afterPrefix? start = some u) : u <:+ t := by
  fun_induction afterPrefix? t start with
  | case1 t =>
    cases h
    exact List.suffix_rfl
  | case2 => cases h
  | case3 c t _ ih => exact (ih h).trans (List.suffix_cons _ _)
  | case4 => cases h

def NumeralsFit (t : Text) : Prop := ∀ n, t.HasNumeral n → n ≤ Json.digitLimit

end Text

/-- A reader that has come to its end, with a value or a fault. What it has left to read is an end of
its text, and it has given up on no numeral but one of its text. -/
structure Keeps {ε α : Type} (rest : α → Text) (long : Nat → ε) (t : Text) (x : Except ε α) : Prop where
  suffix : ∀ a, x = .ok a → rest a <:+ t
  numeral : ∀ n, x = .error (long n) → t.HasNumeral n ∧ Json.digitLimit < n

namespace Keeps

variable {ε α β : Type} {rest : α → Text} {rest' : β → Text} {long : Nat → ε} {t u : Text}
  {x : Except ε α}

theorem of_ok {a : α} (h : rest a <:+ t) : Keeps rest long t (.ok a) where
  suffix := by
    rintro _ ⟨⟩
    exact h
  numeral := nofun

theorem of_error {e : ε} (h : ∀ n, e ≠ long n) : Keeps rest long t (.error e) where
  suffix := nofun
  numeral n hn := absurd (Except.error.inj hn) (h n)

theorem mono (h : Keeps rest long u x) (hu : u <:+ t) : Keeps rest long t x where
  suffix a ha := (h.suffix a ha).trans hu
  numeral n hn := ⟨(h.numeral n hn).1.mono hu.isInfix, (h.numeral n hn).2⟩

theorem bind {f : α → Except ε β} (h : Keeps rest long t x)
    (hf : ∀ a, Keeps rest' long (rest a) (f a)) : Keeps rest' long t (x >>= f) := by
  cases x with
  | error e => exact ⟨nofun, fun n hn ↦ h.numeral n (congrArg _ (Except.error.inj hn))⟩
  | ok a => exact (hf a).mono (h.suffix a rfl)

theorem map {f : α → β} (h : Keeps rest long t x) (hf : ∀ a, rest' (f a) <:+ rest a) :
    Keeps rest' long t (x.map f) := by
  cases x with
  | error e => exact ⟨nofun, fun n hn ↦ h.numeral n (congrArg _ (Except.error.inj hn))⟩
  | ok a => exact of_ok ((hf a).trans (h.suffix a rfl))

/-- Nothing is given up on where all numerals fit. -/
theorem ne_long (h : Keeps rest long t x) (ht : t.NumeralsFit) (n : Nat) : x ≠ .error (long n) := by
  intro hn
  obtain ⟨hnumeral, hlong⟩ := h.numeral n hn
  exact absurd (ht n hnumeral) (Nat.not_le.mpr hlong)

end Keeps

end OntologyStructs
