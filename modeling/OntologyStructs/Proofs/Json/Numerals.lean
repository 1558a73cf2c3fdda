import OntologyStructs.Proofs.Json.Reading
import OntologyStructs.Proofs.Numerals

namespace OntologyStructs.Json

variable {α : Type} {t r : Text} {fuel : Nat}

abbrev Kept (t : Text) (x : Except Stop (α × Text)) : Prop := Keeps Prod.snd Stop.longNumber t x

theorem kept_fault (t : Text) (fault : Fault) (rest : Text) :
    Kept t (.error (.fault fault rest) : Except Stop (α × Text)) := .of_error nofun

theorem skipSpace_suffix (t : Text) : skipSpace t <:+ t := List.dropWhile_suffix _

theorem suffix_of_skipSpace_eq {c : CodePoint} (h : skipSpace t = c :: r) : r <:+ t :=
  (List.suffix_cons c r).trans (h ▸ skipSpace_suffix t)

theorem kept_stringTail (opening : Text) (state : Within) (read : Text) (high : Bool) (t : Text) :
    Kept t (stringTail opening state read high t) := by
  fun_induction stringTail opening state read high t with
  | case3 => exact .of_ok (List.suffix_cons _ _)
  | case4 _ _ _ _ ih | case7 _ _ _ _ ih | case6 _ _ _ _ _ _ _ ih | case8 _ _ _ _ _ _ _ _ ih
  | case11 _ _ _ _ _ _ _ _ _ _ _ ih | case13 _ _ _ _ _ _ _ _ _ _ _ _ _ _ _ ih =>
    exact ih.mono (List.suffix_cons _ _)
  | _ => exact kept_fault _ _ _

theorem digits_suffix (t : Text) : (digits t).2 <:+ t := by
  rw [digits, List.span_eq_takeWhile_dropWhile]
  exact List.dropWhile_suffix _

theorem fraction_suffix (t : Text) : (fraction t).2 <:+ t := by
  cases t with
  | nil => exact List.suffix_rfl
  | cons c r =>
    rw [fraction]
    dsimp only
    split
    · exact (digits_suffix r).trans (List.suffix_cons c r)
    · exact List.suffix_rfl

theorem suffix_of_sign {signed : Bool × Text} {negative : Bool} {unsigned : Text}
    (hsign : signed = (negative, unsigned)) (h : signed.2 = t ∨ signed.2 = t.tail) : unsigned <:+ t := by
  subst hsign
  rcases h with rfl | rfl
  · exact List.suffix_rfl
  · exact List.tail_suffix t

theorem exponent_suffix (t : Text) : (exponent t).2 <:+ t := by
  fun_cases exponent t with
  | case2 c r _ negative unsigned hsign ds rest hdigits =>
    have hunsigned : unsigned <:+ r := suffix_of_sign hsign (by grind)
    have hrest : rest <:+ unsigned := by
      have h := digits_suffix unsigned
      rwa [hdigits] at h
    exact hrest.trans (hunsigned.trans (List.suffix_cons c r))
  | _ => exact List.suffix_rfl

theorem append_wholeDigits (t : Text) : (wholeDigits t).1 ++ (wholeDigits t).2 = t := by
  cases t with
  | nil => rfl
  | cons c r =>
    rw [wholeDigits]
    split
    · rfl
    · rw [digits, List.span_eq_takeWhile_dropWhile]
      exact List.takeWhile_append_dropWhile

theorem kept_number (t : Text) : Kept t (number t) := by
  have hrest {unsigned whole rest u v : Text} {part : Option Text} {power : Option Int}
      (hwhole : wholeDigits unsigned = (whole, rest)) (hpart : fraction rest = (part, u))
      (hpower : exponent u = (power, v)) : v <:+ unsigned := by
    have hv := exponent_suffix u
    have hu := fraction_suffix rest
    have happend := append_wholeDigits unsigned
    rw [hpower] at hv
    rw [hpart] at hu
    rw [hwhole] at happend
    exact (hv.trans hu).trans ⟨whole, happend⟩
  fun_cases number t with
  | case1 => exact kept_fault _ _ _
  | case2 negative unsigned hsign whole rest hwhole _ _ _ _ _ _ _ _ hlong =>
    refine ⟨fun _ hread ↦ ?_, ?_⟩
    · cases hread
    rintro _ ⟨⟩
    have hunsigned : unsigned <:+ t := suffix_of_sign hsign (by grind)
    have hdigits := all_isDigit_wholeDigits unsigned
    have happend := append_wholeDigits unsigned
    rw [hwhole] at hdigits happend
    have hrun : whole <:+: unsigned := List.IsPrefix.isInfix ⟨rest, happend⟩
    exact ⟨Text.hasNumeral_of_all_isDigit hdigits (hrun.trans hunsigned.isInfix), hlong⟩
  | case3 negative unsigned hsign whole rest hwhole _ _ _ hpart _ _ hpower
  | case4 negative unsigned hsign whole rest hwhole _ _ _ hpart _ _ hpower =>
    have hunsigned : unsigned <:+ t := suffix_of_sign hsign (by grind)
    exact .of_ok ((hrest hwhole hpart hpower).trans hunsigned)

theorem kept_word? {v : Json} (h : word? t = some (v, r)) : Kept t (.ok (v, r)) := by
  obtain ⟨_, -, h⟩ := List.exists_of_findSome?_eq_some h
  obtain ⟨_, hafter, ⟨⟩⟩ := Option.map_eq_some_iff.mp h
  exact .of_ok (Text.suffix_of_afterPrefix? hafter)

structure AllKept (fuel : Nat) : Prop where
  value : ∀ t, Kept t (value fuel t)
  items : ∀ read t, Kept t (items fuel read t)
  members : ∀ read t, Kept t (members fuel read t)

theorem allKept_zero : AllKept 0 where
  value t := by
    rw [Json.value]
    exact kept_fault _ _ _
  items _ t := by
    rw [Json.items]
    exact kept_fault _ _ _
  members _ t := by
    rw [Json.members]
    exact kept_fault _ _ _

theorem AllKept.value_succ (h : AllKept fuel) (t : Text) : Kept t (Json.value (fuel + 1) t) := by
  rw [Json.value.eq_def]
  cases t with
  | nil => exact kept_fault _ _ _
  | cons c t =>
    have hc := List.suffix_cons c t
    dsimp only
    split
    · exact (kept_stringTail (c :: t) .plain [] false t).mono hc |>.map fun _ ↦ List.suffix_rfl
    split
    · split
      · next hspace =>
        split
        · exact .of_ok ((suffix_of_skipSpace_eq hspace).trans hc)
        · exact (h.items [] _).mono (hspace ▸ (skipSpace_suffix t).trans hc)
      · exact (h.items [] []).mono (List.nil_suffix)
    split
    · split
      · next hspace =>
        split
        · exact .of_ok ((suffix_of_skipSpace_eq hspace).trans hc)
        · exact (h.members [] _).mono (hspace ▸ (skipSpace_suffix t).trans hc)
      · exact (h.members [] []).mono (List.nil_suffix)
    split
    · next hword => exact kept_word? hword
    · exact kept_number _

theorem AllKept.items_succ (h : AllKept fuel) (read : List Json) (t : Text) :
    Kept t (Json.items (fuel + 1) read t) := by
  rw [Json.items]
  refine (h.value t).bind ?_
  rintro ⟨v, r⟩
  dsimp only
  split
  · next hspace =>
    have hr := suffix_of_skipSpace_eq hspace
    split
    · exact .of_ok hr
    split
    · exact (h.items _ _).mono ((skipSpace_suffix _).trans hr)
    · exact kept_fault _ _ _
  · exact kept_fault _ _ _

theorem AllKept.members_succ (h : AllKept fuel) (read : Assoc Text Json) (t : Text) :
    Kept t (Json.members (fuel + 1) read t) := by
  cases t with
  | nil =>
    rw [Json.members]
    exact kept_fault _ _ _
  | cons q t =>
    rw [Json.members]
    split
    · refine ((kept_stringTail _ _ _ _ t).mono (List.suffix_cons q t)).bind ?_
      rintro ⟨k, r⟩
      dsimp only
      split
      · exact kept_fault _ _ _
      · next hcolon =>
        split
        · refine ((h.value _).mono ((skipSpace_suffix _).trans (suffix_of_skipSpace_eq hcolon))).bind ?_
          rintro ⟨v, u⟩
          dsimp only
          split
          · next hspace =>
            have hu := suffix_of_skipSpace_eq hspace
            split
            · exact .of_ok hu
            split
            · exact (h.members _ _).mono ((skipSpace_suffix _).trans hu)
            · exact kept_fault _ _ _
          · exact kept_fault _ _ _
        · exact kept_fault _ _ _
    · exact kept_fault _ _ _

theorem allKept (fuel : Nat) : AllKept fuel := by
  induction fuel with
  | zero => exact allKept_zero
  | succ fuel ih => exact ⟨ih.value_succ, ih.items_succ, ih.members_succ⟩

theorem document_ne_longNumber (h : t.NumeralsFit) (n : Nat) : document t ≠ .error (.longNumber n) := by
  have hspace := skipSpace_suffix t
  have hkept : Keeps (fun _ ↦ []) Stop.longNumber t (document t) := by
    refine (((allKept _).value _).mono hspace).bind ?_
    rintro ⟨v, r⟩
    dsimp only
    split
    · exact .of_ok List.nil_suffix
    · exact .of_error nofun
  exact hkept.ne_long h n

/-- A text is not refused for a number that it does not hold. -/
theorem readDecoded_ne_longNumber (h : t.NumeralsFit) (n : Nat) :
    readDecoded t ≠ .error (.longNumber n) := by
  intro hread
  rw [readDecoded] at hread
  split at hread
  · cases hread
  · cases hread
  · next hlong => exact document_ne_longNumber h _ hlong

theorem read_ne_longNumber (h : t.NumeralsFit) (n : Nat) : read t ≠ .error (.longNumber n) := by
  rw [read]
  split
  · intro hread
    cases hread
  · exact readDecoded_ne_longNumber h n

end OntologyStructs.Json
