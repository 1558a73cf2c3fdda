import Mathlib.Data.List.Chain
import Mathlib.Tactic.SplitIfs
import OntologyStructs.Json.Printer
import OntologyStructs.Json.Reader
import OntologyStructs.Proofs.CodePoint

namespace OntologyStructs

namespace CodePoint

theorem hexDigit_mod (n : Nat) : hexDigit (n % 16) = hexDigit n := by
  rw [hexDigit, hexDigit, Nat.mod_mod]

/-- What holds of all sixteen digits holds of the digit of any number. -/
theorem forall_hexDigit {p : CodePoint → Prop} (h : ∀ d < 16, p (hexDigit d)) (n : Nat) :
    p (hexDigit n) := by
  rw [← hexDigit_mod]
  exact h _ (Nat.mod_lt n (by decide))

theorem hexValue?_hexDigit (n : Nat) : (hexDigit n).hexValue? = some (n % 16) := by
  have hall : ∀ d < 16, (hexDigit d).hexValue? = some d := by decide
  rw [← hexDigit_mod]
  exact hall _ (Nat.mod_lt n (by decide))

def isPlainAscii (c : CodePoint) : Bool := 0x20 ≤ c.val && c.val < 0x7F

theorem isPlainAscii_iff {c : CodePoint} : c.isPlainAscii ↔ 0x20 ≤ c.val ∧ c.val < 0x7F := by
  simp only [isPlainAscii, Bool.and_eq_true, decide_eq_true_eq]

theorem isPlainAscii_hexDigit (n : Nat) : (hexDigit n).isPlainAscii :=
  forall_hexDigit (p := fun c ↦ c.isPlainAscii) (by decide) n

theorem isPlainAscii_unicodeEscape (unit : Nat) : (unicodeEscape unit).all isPlainAscii := by
  simp only [unicodeEscape, Text.hex, List.all_append, List.all_cons, isPlainAscii_hexDigit]
  decide

/-- A short form is a backslash and a sign that reads as the code point. -/
theorem exists_of_shortForm? {c : CodePoint} {w : Text} (hw : c.shortForm? = some w) :
    ∃ d : CodePoint, w = [('\\' : CodePoint), d] ∧ d ≠ 'u' ∧ d.isPlainAscii ∧
      Json.shortEscape? d = some c ∧ c.val < 0x80 := by
  unfold shortForm? at hw
  split_ifs at hw with h h h h h h h <;> subst h <;>
    exact ⟨_, (Option.some.inj hw).symm, by decide, by decide, by decide, by decide⟩

theorem isPlainAscii_asAscii (c : CodePoint) : c.asAscii.all isPlainAscii := by
  rw [asAscii]
  cases hshort : c.shortForm? with
  | some w =>
    obtain ⟨d, rfl, _, hd, _⟩ := exists_of_shortForm? hshort
    rw [Option.getD_some, List.all_cons, List.all_cons, hd]
    decide
  | none =>
    rw [Option.getD_none]
    split
    next h => simp [isPlainAscii_iff, h]
    · rw [List.all_flatMap]
      exact List.all_eq_true.mpr fun unit _ ↦ isPlainAscii_unicodeEscape unit

end CodePoint

namespace Json

variable {opening read rest : Text} {high : Bool} {c : CodePoint}

theorem stringTail_unicodeEscape {unit : Nat} (hunit : unit < 0x10000) (hrest : rest ≠ []) :
    stringTail opening .plain read high (CodePoint.unicodeEscape unit ++ rest) =
      stringTail opening .plain (addUnit read high unit).1 (addUnit read high unit).2 rest := by
  have hvalue : 16 * (16 * (16 * (unit / 16 / 16 / 16 % 16) + unit / 16 / 16 % 16) + unit / 16 % 16) +
      unit % 16 = unit := by omega
  have hquote : ('\\' : CodePoint) ≠ '"' := by decide
  simp only [CodePoint.unicodeEscape, Text.hex, List.nil_append, List.append_assoc,
    List.singleton_append]
  change stringTail opening .plain read high ('\\' :: 'u' :: _) = _
  simp [stringTail, CodePoint.hexValue?_hexDigit, hrest, hvalue, hquote]

theorem stringTail_shortForm {w : Text} (hw : c.shortForm? = some w) :
    stringTail opening .plain read high (w ++ rest) =
      stringTail opening .plain (c :: read) false rest := by
  obtain ⟨d, rfl, hu, _, hd, _⟩ := CodePoint.exists_of_shortForm? hw
  have hquote : ('\\' : CodePoint) ≠ '"' := by decide
  rw [List.cons_append, List.cons_append, List.nil_append]
  simp [stringTail, hquote, hu, hd]

theorem addUnit_of_not_pair (h : ¬(high ∧ c.isLowSurrogate)) :
    addUnit read high c.val = (c :: read, c.isHighSurrogate) := by
  have hpair : (high && c.isLowSurrogate) = false := by simpa using h
  cases read with
  | nil => simp [addUnit]
  | cons d read => simp [addUnit, hpair]

/-- The two halves of a code point beyond the first plane become that code point again. -/
theorem addUnit_addUnit (hc : 0x10000 ≤ c.val) :
    addUnit (addUnit read high (0xD800 + (c.val - 0x10000) / 0x400)).1
      (addUnit read high (0xD800 + (c.val - 0x10000) / 0x400)).2
      (0xDC00 + (c.val - 0x10000) % 0x400) = (c :: read, false) := by
  obtain ⟨a, ha⟩ : ∃ a : CodePoint, a.val = 0xD800 + (c.val - 0x10000) / 0x400 :=
    ⟨⟨_, by omega⟩, rfl⟩
  obtain ⟨b, hb⟩ : ∃ b : CodePoint, b.val = 0xDC00 + (c.val - 0x10000) % 0x400 :=
    ⟨⟨_, by omega⟩, rfl⟩
  have hahigh : a.isHighSurrogate = true := CodePoint.isHighSurrogate_iff.mpr (by omega)
  have hblow : b.isLowSurrogate = true := CodePoint.isLowSurrogate_iff.mpr (by omega)
  have halow : ¬(high ∧ a.isLowSurrogate) := by
    rw [CodePoint.isLowSurrogate_iff]
    omega
  have hjoin : 0x10000 + (a.val - 0xD800) * 0x400 + (b.val - 0xDC00) = c.val := by omega
  rw [← ha, ← hb, addUnit_of_not_pair halow, hahigh, addUnit]
  simp only [Fin.ofNat_val_eq_self, hblow, Bool.and_true, if_true, hjoin]

theorem stringTail_printable (hshort : c.shortForm? = none) (hc : 0x20 ≤ c.val) :
    stringTail opening .plain read high (c :: rest) = stringTail opening .plain (c :: read) false rest := by
  have hquote : c ≠ '"' := by
    rintro rfl
    cases hshort
  have hslash : c ≠ '\\' := by
    rintro rfl
    cases hshort
  rw [stringTail]
  simp only [if_neg hquote, if_neg hslash, if_neg (Nat.not_lt.mpr hc)]

/-- What stands for a code point reads as that code point, except for the second half of a pair behind
the first. -/
theorem stringTail_asAscii (hrest : rest ≠ []) (h : ¬(high ∧ c.isLowSurrogate)) :
    stringTail opening .plain read high (c.asAscii ++ rest) =
      stringTail opening .plain (c :: read) c.isHighSurrogate rest := by
  have hlone (hc : ¬(0xD800 ≤ c.val ∧ c.val < 0xDC00)) : c.isHighSurrogate = false :=
    Bool.eq_false_iff.mpr (mt CodePoint.isHighSurrogate_iff.mp hc)
  rw [CodePoint.asAscii]
  cases hshort : c.shortForm? with
  | some w =>
    obtain ⟨_, _, _, _, _, hsmall⟩ := CodePoint.exists_of_shortForm? hshort
    rw [Option.getD_some, stringTail_shortForm hshort, hlone (by omega)]
  | none =>
    rw [Option.getD_none]
    by_cases hc : 0x20 ≤ c.val ∧ c.val < 0x7F
    · rw [if_pos hc, List.singleton_append, stringTail_printable hshort hc.1,
        hlone (by omega)]
    · rw [if_neg hc, CodePoint.units16]
      by_cases hplane : c.val < 0x10000
      -- one escape, and beyond the first plane two, the second of which completes a pair
      · rw [if_pos hplane, List.flatMap_singleton, stringTail_unicodeEscape hplane hrest,
          addUnit_of_not_pair h]
      · have hmore : CodePoint.unicodeEscape (0xDC00 + (c.val - 0x10000) % 0x400) ++ rest ≠ [] := nofun
        rw [if_neg hplane, List.flatMap_cons, List.flatMap_singleton, List.append_assoc,
          stringTail_unicodeEscape (by omega) hmore, stringTail_unicodeEscape (by omega) hrest,
          addUnit_addUnit (Nat.not_lt.mp hplane), hlone (by omega)]

theorem isPlainAscii_asciiString (t : Text) : (asciiString t).all CodePoint.isPlainAscii := by
  have hquote : ("\"" : Text).all CodePoint.isPlainAscii := by decide
  have hbody : (t.flatMap CodePoint.asAscii).all CodePoint.isPlainAscii := by
    rw [List.all_flatMap]
    exact List.all_eq_true.mpr fun c _ ↦ c.isPlainAscii_asAscii
  rw [asciiString, List.all_append, List.all_append, hquote, hbody]
  rfl

end Json

/-- Nowhere does the second half of a pair stand behind the first, as if they were one code point. -/
def Text.Unsplit (t : Text) : Prop :=
  t.IsChain fun c d ↦ ¬(c.isHighSurrogate ∧ d.isLowSurrogate)

namespace Json

variable {opening read rest : Text} {high : Bool}

theorem stringTail_literal {t : Text} (ht : t.Unsplit)
    (hfirst : ∀ c ∈ t.head?, ¬(high ∧ c.isLowSurrogate)) :
    stringTail opening .plain read high (t.flatMap CodePoint.asAscii ++ "\"" ++ rest) =
      .ok (read.reverse ++ t, rest) := by
  -- `high` changes on the way: it says whether a first half was read last
  induction t generalizing read high with
  | nil =>
    rw [List.append_nil]
    rfl
  | cons c t ih =>
    have hrest : (t.flatMap CodePoint.asAscii ++ "\"" ++ rest : Text) ≠ [] := by
      simp [Text.ofString]
    rw [List.flatMap_cons, List.append_assoc, List.append_assoc, ← List.append_assoc (t.flatMap _),
      stringTail_asAscii hrest (hfirst c rfl), ih, List.reverse_cons, List.append_assoc,
      List.singleton_append]
    · exact ht.tail
    · cases t with
      | nil => nofun
      | cons d t =>
        rintro _ ⟨⟩
        exact (List.isChain_cons_cons.mp ht).1

/-- A literal reads as the text that it stands for. -/
theorem read_asciiString {t : Text} (ht : t.Unsplit) : Json.read (asciiString t) = .ok (.text t) := by
  have hskip : skipSpace (asciiString t) = asciiString t := rfl
  have hmark : (asciiString t).head? ≠ some 0xFEFF := nofun
  have hvalue (fuel : Nat) : value (fuel + 1) (asciiString t) = .ok (.text t, []) := by
    have htail := @stringTail_literal (asciiString t) [] [] false t ht
      fun _ _ h ↦ Bool.false_ne_true h.1
    rw [List.append_nil, List.reverse_nil, List.nil_append] at htail
    have hopen : asciiString t = ('"' : CodePoint) :: (t.flatMap CodePoint.asAscii ++ "\"" : Text) := rfl
    rw [value.eq_def, hopen]
    simp only [if_true, ← hopen, htail]
    rfl
  rw [Json.read, if_neg hmark, readDecoded, document, hskip, hvalue]
  rfl

end Json

end OntologyStructs
