import Mathlib.Algebra.GroupWithZero.Nat
import Mathlib.Data.List.TakeDrop
import Mathlib.Data.List.TakeWhile
import OntologyStructs.Proofs.Json.AsciiString

namespace OntologyStructs

namespace Text

theorem isDigit_ofChar {c : Char} (h : c.isDigit = true) : (CodePoint.ofChar c).isDigit := by
  rw [Char.isDigit, Bool.and_eq_true, decide_eq_true_eq, decide_eq_true_eq] at h
  exact CodePoint.isDigit_iff.mpr h

theorem all_isDigit_ofNat (n : Nat) : (ofNat n).all CodePoint.isDigit := by
  rw [ofNat, List.all_map, List.all_eq_true]
  exact fun c hc ↦ isDigit_ofChar (Nat.isDigit_of_mem_toDigits (by decide) (by decide) hc)

theorem decimalValue_ofNat (n : Nat) : decimalValue (ofNat n) = n := by
  rw [decimalValue, ofNat, List.foldl_map]
  exact Nat.ofDigitChars_ten_toDigits

theorem length_ofNat_le {n k : Nat} (hk : 0 < k) (h : n < 10 ^ k) : (ofNat n).length ≤ k := by
  rw [ofNat, List.length_map]
  exact (Nat.length_toDigits_le_iff (by decide) hk).mpr h

theorem ofNat_ne_nil (n : Nat) : ofNat n ≠ [] := fun h ↦
  Nat.toDigits_ne_nil (List.map_eq_nil_iff.mp h)

theorem exists_ofNat (n : Nat) : ∃ c t, ofNat n = c :: t ∧ c.isDigit := by
  have hdigits := all_isDigit_ofNat n
  cases ht : ofNat n with
  | nil => exact absurd ht (ofNat_ne_nil n)
  | cons c t =>
    rw [ht, List.all_cons, Bool.and_eq_true] at hdigits
    exact ⟨c, t, rfl, hdigits.1⟩

theorem head?_ofNat_ne_zero {n : Nat} (hn : 0 < n) : (ofNat n).head? ≠ some ('0' : CodePoint) := by
  induction n using Nat.strongRecOn with
  | ind n ih =>
    by_cases h : n < 10
    · have hall : ∀ d < 10, 0 < d → (ofNat d).head? ≠ some ('0' : CodePoint) := by decide
      exact hall n h hn
    · have hstep : ofNat n = ofNat (n / 10) ++ [CodePoint.ofChar (n % 10).digitChar] := by
        rw [ofNat, ofNat, Nat.toDigits_of_base_le (by decide) (Nat.not_lt.mp h), List.map_append]
        rfl
      rw [hstep, List.head?_append, Option.or_of_isSome (List.isSome_head?.mpr (ofNat_ne_nil _))]
      exact ih _ (by omega) (by omega)

theorem afterPrefix?_append (w rest : Text) : (w ++ rest).afterPrefix? w = some rest := by
  induction w with
  | nil => cases rest <;> rfl
  | cons c w ih => rw [List.cons_append, afterPrefix?, if_pos rfl, ih]

theorem afterPrefix?_of_ne {c d : CodePoint} {t w : Text} (h : c ≠ d) :
    afterPrefix? (c :: t) (d :: w) = none := by
  rw [afterPrefix?, if_neg h]

end Text

namespace Json

variable {opening read rest t : Text} {high : Bool} {fuel : Nat} {c : CodePoint}

def EndsValue (rest : Text) : Prop := ∀ c ∈ rest.head?, c = '\n' ∨ c = ','

theorem digits_append {ds : Text} (hds : ds.all CodePoint.isDigit) (hrest : EndsValue rest) :
    digits (ds ++ rest) = (ds, rest) := by
  have htake : rest.takeWhile CodePoint.isDigit = [] ∧ rest.dropWhile CodePoint.isDigit = rest := by
    cases rest with
    | nil => exact ⟨rfl, rfl⟩
    | cons c r =>
      rcases hrest c rfl with rfl | rfl <;> exact ⟨rfl, rfl⟩
  have hall := List.all_eq_true.mp hds
  rw [digits, List.span_eq_takeWhile_dropWhile, List.takeWhile_append_of_pos hall,
    List.dropWhile_append_of_pos hall, htake.1, htake.2, List.append_nil]

theorem wholeDigits_ofNat (n : Nat) (hrest : EndsValue rest) :
    wholeDigits (Text.ofNat n ++ rest) = (Text.ofNat n, rest) := by
  cases n with
  | zero => rfl
  | succ n =>
    have hall := Text.all_isDigit_ofNat (n + 1)
    have hhead := Text.head?_ofNat_ne_zero n.succ_pos
    rw [← digits_append hall hrest]
    cases ht : Text.ofNat (n + 1) with
    | nil => exact absurd ht (Text.ofNat_ne_nil _)
    | cons c t =>
      rw [ht, List.head?_cons, Option.some_inj.ne] at hhead
      rw [List.cons_append, wholeDigits, if_neg hhead]

theorem fraction_of_endsValue (hrest : EndsValue rest) : fraction rest = (none, rest) := by
  cases rest with
  | nil => rfl
  | cons c r =>
    have hpoint : c ≠ '.' := by rcases hrest c rfl with rfl | rfl <;> decide
    simp [fraction, hpoint]

theorem exponent_of_endsValue (hrest : EndsValue rest) : exponent rest = (none, rest) := by
  cases rest with
  | nil => rfl
  | cons c r =>
    have hmark : ¬(c = 'e' ∨ c = 'E') := by rcases hrest c rfl with rfl | rfl <;> decide
    simp only [exponent, if_neg hmark]

theorem number_ofNat {n : Nat} (hn : n < 10 ^ digitLimit) (hrest : EndsValue rest) :
    number (Text.ofNat n ++ rest) = .ok (.int n, rest) ∧
      number ('-' :: (Text.ofNat n ++ rest)) = .ok (.int (-n), rest) := by
  have hlength : ¬ digitLimit < (Text.ofNat n).length :=
    Nat.not_lt.mpr (Text.length_ofNat_le (by decide) hn)
  have hnot : Text.ofNat n ≠ [] := Text.ofNat_ne_nil n
  constructor
  · obtain ⟨c, t, ht, hc⟩ := Text.exists_ofNat n
    have hsign : c ≠ '-' := by
      rintro rfl
      cases hc
    have hstart : Text.ofNat n ++ rest = c :: (t ++ rest) := by rw [ht, List.cons_append]
    rw [hstart]
    simp only [number, if_neg hsign]
    rw [← hstart]
    simp only [wholeDigits_ofNat n hrest, fraction_of_endsValue hrest,
      exponent_of_endsValue hrest, if_neg hnot, if_neg hlength, Text.decimalValue_ofNat]
    rfl
  · simp only [number, if_true, wholeDigits_ofNat n hrest, fraction_of_endsValue hrest,
        exponent_of_endsValue hrest, if_neg hnot, if_neg hlength, Text.decimalValue_ofNat]
    rfl

theorem findSome?_words {ws : List (Text × Json)} (hheads : (ws.map fun e ↦ e.1.head?).Nodup)
    (hnil : ∀ e ∈ ws, e.1 ≠ []) {e : Text × Json} (he : e ∈ ws) :
    ws.findSome? (fun a ↦ ((e.1 ++ rest).afterPrefix? a.1).map fun r ↦ (a.2, r)) =
      some (e.2, rest) := by
  induction ws with
  | nil => cases he
  | cons a ws ih =>
    obtain ⟨ha, hws⟩ := List.nodup_cons.mp hheads
    obtain ⟨hanil, hwsnil⟩ := List.forall_mem_cons.mp hnil
    rcases List.mem_cons.mp he with rfl | he
    · rw [List.findSome?_cons, Text.afterPrefix?_append]
      rfl
    · -- no two words begin alike
      have hne : e.1.head? ≠ a.1.head? := fun h ↦ ha (List.mem_map.mpr ⟨e, he, h⟩)
      obtain ⟨c, w, hw⟩ := List.exists_cons_of_ne_nil (hwsnil e he)
      obtain ⟨d, u, hu⟩ := List.exists_cons_of_ne_nil hanil
      rw [hw, hu, List.head?_cons, List.head?_cons, Option.some_inj.ne] at hne
      have hnone : (e.1 ++ rest).afterPrefix? a.1 = none := by
        rw [hw, hu]
        exact Text.afterPrefix?_of_ne hne
      rw [List.findSome?_cons, hnone, Option.map_none]
      exact ih hws hwsnil he

theorem word?_of_mem {e : Text × Json} (he : e ∈ words) (rest : Text) :
    word? (e.1 ++ rest) = some (e.2, rest) :=
  findSome?_words (by decide) (by decide) he

theorem exists_of_mem_words {e : Text × Json} (he : e ∈ words) :
    ∃ c d w, e.1 = c :: d :: w ∧ c.isDigit = false ∧ d.isDigit = false ∧
      c ≠ '"' ∧ c ≠ '[' ∧ c ≠ '\x7b' := by
  simp only [words, List.mem_cons, List.not_mem_nil, or_false] at he
  rcases he with rfl | rfl | rfl | rfl | rfl | rfl <;>
    exact ⟨_, _, _, rfl, by decide, by decide, by decide, by decide, by decide⟩

theorem word?_of_isDigit (hc : c.isDigit) (t : Text) :
    word? (c :: t) = none ∧ word? ('-' :: c :: t) = none := by
  have hne {d : CodePoint} (hd : d.isDigit = false) : c ≠ d := by
    rintro rfl
    exact Bool.false_ne_true (hd.symm.trans hc)
  constructor
  · refine List.findSome?_eq_none_iff.mpr fun e he ↦ Option.map_eq_none_iff.mpr ?_
    obtain ⟨d, d', w, hw, hd, -⟩ := exists_of_mem_words he
    rw [hw, Text.afterPrefix?_of_ne (hne hd)]
  · refine List.findSome?_eq_none_iff.mpr fun e he ↦ Option.map_eq_none_iff.mpr ?_
    obtain ⟨d, d', w, hw, -, hd', -⟩ := exists_of_mem_words he
    rw [hw, Text.afterPrefix?]
    split
    · exact Text.afterPrefix?_of_ne (hne hd')
    · rfl

/-- A value that begins like no string, list or object is a word or a number. -/
theorem value_plain (hquote : c ≠ '"') (hbracket : c ≠ '[') (hbrace : c ≠ '\x7b') :
    value (fuel + 1) (c :: t) = match word? (c :: t) with
      | some found => .ok found
      | none => number (c :: t) := by
  rw [value.eq_def]
  exact (if_neg hquote).trans ((if_neg hbracket).trans (if_neg hbrace))

theorem value_word {e : Text × Json} (he : e ∈ words) :
    value (fuel + 1) (e.1 ++ rest) = .ok (e.2, rest) := by
  obtain ⟨c, d, w, hw, -, -, hquote, hbracket, hbrace⟩ := exists_of_mem_words he
  have hword := word?_of_mem he rest
  rw [hw, List.cons_append] at hword ⊢
  rw [value_plain hquote hbracket hbrace, hword]

theorem value_ofInt {n : Int} (hn : n.natAbs < 10 ^ digitLimit) (hrest : EndsValue rest) :
    value (fuel + 1) (Text.ofInt n ++ rest) = .ok (.int n, rest) := by
  have hplain : ∀ c : CodePoint, c.isDigit → c ≠ '"' ∧ c ≠ '[' ∧ c ≠ '\x7b' := by
    intro c hc
    refine ⟨?_, ?_, ?_⟩ <;> rintro rfl <;> cases hc
  cases n with
  | ofNat n =>
    have hnumber := (number_ofNat (n := n) hn hrest).1
    obtain ⟨c, t, ht, hc⟩ := Text.exists_ofNat n
    obtain ⟨hquote, hbracket, hbrace⟩ := hplain c hc
    rw [Text.ofInt]
    rw [ht, List.cons_append] at hnumber ⊢
    rw [value_plain hquote hbracket hbrace, (word?_of_isDigit hc _).1]
    exact hnumber
  | negSucc n =>
    have hnumber := (number_ofNat (n := n + 1) hn hrest).2
    obtain ⟨c, t, ht, hc⟩ := Text.exists_ofNat (n + 1)
    rw [Text.ofInt]
    rw [ht, List.cons_append] at hnumber
    rw [ht, List.cons_append, List.cons_append, value_plain (by decide) (by decide) (by decide),
      (word?_of_isDigit hc _).2]
    exact hnumber

theorem stringTail_asIs {c : CodePoint} (hrest : rest ≠ []) :
    stringTail opening .plain read high (c.asIs ++ rest) =
      stringTail opening .plain (c :: read) false rest := by
  rw [CodePoint.asIs]
  cases hshort : c.shortForm? with
  | some w => rw [Option.getD_some, stringTail_shortForm hshort]
  | none =>
    rw [Option.getD_none]
    by_cases hc : 0x20 ≤ c.val
    · rw [if_pos hc, List.singleton_append, stringTail_printable hshort hc]
    · have hlow : ¬(high ∧ c.isLowSurrogate) := by
        rw [CodePoint.isLowSurrogate_iff]
        omega
      have hhigh : c.isHighSurrogate = false :=
        Bool.eq_false_iff.mpr (mt CodePoint.isHighSurrogate_iff.mp (by omega))
      rw [if_neg hc, stringTail_unicodeEscape (by omega) hrest, addUnit_of_not_pair hlow, hhigh]

/-- A plain literal reads as the text that it stands for, whatever that is. -/
theorem stringTail_plainLiteral (t : Text) :
    stringTail opening .plain read high (t.flatMap CodePoint.asIs ++ "\"" ++ rest) =
      .ok (read.reverse ++ t, rest) := by
  induction t generalizing read high with
  | nil =>
    rw [List.append_nil]
    rfl
  | cons c t ih =>
    have hrest : (t.flatMap CodePoint.asIs ++ "\"" ++ rest : Text) ≠ [] := by
      simp [Text.ofString]
    rw [List.flatMap_cons, List.append_assoc, List.append_assoc, ← List.append_assoc (t.flatMap _),
      stringTail_asIs hrest, ih, List.reverse_cons, List.append_assoc, List.singleton_append]

theorem plainString_append (t rest : Text) : plainString t ++ rest =
    ('"' : CodePoint) :: (t.flatMap CodePoint.asIs ++ "\"" ++ rest : Text) := by
  rw [plainString, List.append_assoc, List.append_assoc, List.append_assoc]
  rfl

theorem value_plainString (t : Text) :
    value (fuel + 1) (plainString t ++ rest) = .ok (.text t, rest) := by
  rw [plainString_append, value.eq_def]
  simp only [if_true, stringTail_plainLiteral, List.reverse_nil, List.nil_append]
  rfl

end Json

end OntologyStructs
