import OntologyStructs.Proofs.Json.Indented
import OntologyStructs.Proofs.Utf8

namespace OntologyStructs

theorem Text.isEncodable_append (t u : Text) :
    (t ++ u).isEncodable = (t.isEncodable && u.isEncodable) :=
  List.all_append

theorem CodePoint.isSurrogate_of_isPlainAscii {c : CodePoint} (h : c.isPlainAscii) :
    c.isSurrogate = false := by
  rw [isPlainAscii_iff] at h
  rw [Bool.eq_false_iff, ne_eq, isSurrogate_iff]
  omega

theorem CodePoint.isPlainAscii_of_isDigit {c : CodePoint} (h : c.isDigit) : c.isPlainAscii := by
  rw [isDigit_iff] at h
  rw [isPlainAscii_iff]
  omega

theorem Text.isEncodable_of_isPlainAscii {t : Text} (h : t.all CodePoint.isPlainAscii) :
    t.isEncodable :=
  List.all_eq_true.mpr fun c hc ↦ by
    rw [CodePoint.isSurrogate_of_isPlainAscii (List.all_eq_true.mp h c hc)]
    rfl

namespace Text

variable {t u : Text}

def isPlainAscii (t : Text) : Bool := t.all CodePoint.isPlainAscii

theorem isPlainAscii_append (t u : Text) :
    (t ++ u).isPlainAscii = (t.isPlainAscii && u.isPlainAscii) := List.all_append

theorem isPlainAscii_of_subset (h : t.isPlainAscii) (hu : u ⊆ t) : u.isPlainAscii :=
  List.all_eq_true.mpr fun c hc ↦ List.all_eq_true.mp h c (hu hc)

theorem isPlainAscii_replicate {c : CodePoint} (hc : c.isPlainAscii) (n : Nat) :
    isPlainAscii (List.replicate n c) :=
  List.all_eq_true.mpr fun _ hd ↦ List.eq_of_mem_replicate hd ▸ hc

theorem isPlainAscii_ofNat (n : Nat) : (ofNat n).isPlainAscii :=
  List.all_eq_true.mpr fun c hc ↦
    CodePoint.isPlainAscii_of_isDigit (List.all_eq_true.mp (all_isDigit_ofNat n) c hc)

theorem isPlainAscii_ofInt (n : Int) : (ofInt n).isPlainAscii := by
  cases n with
  | ofNat n => exact isPlainAscii_ofNat n
  | negSucc n =>
    rw [ofInt, isPlainAscii, List.all_cons]
    exact isPlainAscii_ofNat (n + 1)

end Text

namespace NumberStyle

open Text

theorem isPlainAscii_layOut (style : NumberStyle) {digits : Text} (h : digits.isPlainAscii)
    (point : Int) : (style.layOut digits point).isPlainAscii := by
  have hzeros (n : Nat) : isPlainAscii (List.replicate n ('0' : CodePoint)) :=
    isPlainAscii_replicate rfl n
  have htake (n : Nat) : isPlainAscii (digits.take n) :=
    isPlainAscii_of_subset h (List.take_subset n digits)
  have hdrop (n : Nat) : isPlainAscii (digits.drop n) :=
    isPlainAscii_of_subset h (List.drop_subset n digits)
  rw [layOut]
  split
  · simp only [isPlainAscii_append, hzeros, h]
    rfl
  split
  · simp only [isPlainAscii_append, hzeros, htake]
    split
    · rfl
    · rw [hdrop]
      rfl
  · simp only [isPlainAscii_append, hzeros, htake, isPlainAscii_ofNat]
    split
    · split <;> rfl
    · rw [isPlainAscii_append, hdrop]
      split <;> rfl

theorem isPlainAscii_write (x : Binary64) : (document.write x).isPlainAscii := by
  have hsign (negative : Bool) : (sign negative).isPlainAscii := by cases negative <;> rfl
  cases x with
  | nan => rfl
  | infinity negative =>
    rw [write, isPlainAscii_append, hsign]
    rfl
  | finite negative m e =>
    cases m with
    | zero =>
      rw [write, isPlainAscii_append, hsign]
      rfl
    | succ m =>
      have hdigits := isPlainAscii_ofNat (Binary64.shortest (m + 1) e).digits
      rw [write, isPlainAscii_append, hsign]
      · refine isPlainAscii_layOut document (isPlainAscii_of_subset hdigits fun c hc ↦ ?_) _
        exact List.mem_reverse.mp ((List.dropWhile_suffix _).subset (List.mem_reverse.mp hc))
      · nofun

end NumberStyle

namespace Json

/-- Whether a text is encodable, or the keys of an object are. -/
def isEncodable : Json → Bool
  | text t => t.isEncodable
  | object members => (Assoc.keys members).all Text.isEncodable
  | _ => true

theorem isEncodable_asIs {c : CodePoint} (hc : c.isSurrogate = false) : c.asIs.isEncodable := by
  rw [CodePoint.asIs]
  cases hshort : c.shortForm? with
  | some w =>
    obtain ⟨d, rfl, _, hd, _⟩ := CodePoint.exists_of_shortForm? hshort
    refine Text.isEncodable_of_isPlainAscii ?_
    rw [Option.getD_some, List.all_cons, List.all_cons, hd]
    rfl
  | none =>
    rw [Option.getD_none]
    split
    · rw [Text.isEncodable, List.all_cons, hc]
      rfl
    · exact Text.isEncodable_of_isPlainAscii (CodePoint.isPlainAscii_unicodeEscape c.val)

theorem isEncodable_plainString {t : Text} (ht : t.isEncodable) : (plainString t).isEncodable := by
  have hbody : Text.isEncodable (t.flatMap CodePoint.asIs) := by
    rw [Text.isEncodable, List.all_flatMap]
    refine List.all_eq_true.mpr fun c hc ↦ isEncodable_asIs ?_
    have hc' := List.all_eq_true.mp ht c hc
    rwa [Bool.not_eq_eq_eq_not, Bool.not_true] at hc'
  rw [plainString, Text.isEncodable_append, Text.isEncodable_append, hbody]
  decide

theorem isEncodable_ofInt (n : Int) : (Text.ofInt n).isEncodable :=
  Text.isEncodable_of_isPlainAscii (Text.isPlainAscii_ofInt n)

section pieces

variable {indent : Text} (hindent : indent.isEncodable) {depth : Nat} {v : Json}
include hindent

theorem isEncodable_newLine : (newLine indent depth).isEncodable := by
  refine List.all_eq_true.mpr fun c hc ↦ ?_
  rcases List.mem_cons.mp hc with rfl | hc
  · rfl
  · obtain ⟨i, hi, hc⟩ := List.mem_flatten.mp hc
    exact List.all_eq_true.mp hindent c (List.eq_of_mem_replicate hi ▸ hc)

theorem isEncodable_itemPieces {vs : List Json}
    (hvs : ∀ w ∈ vs, Text.isEncodable (pieces indent depth w).flatten) :
    Text.isEncodable (itemPieces indent depth "," vs).flatten := by
  induction vs with
  | nil =>
    rw [itemPieces]
    rfl
  | cons v vs ih =>
    obtain ⟨hv, hvs⟩ := List.forall_mem_cons.mp hvs
    rw [flatten_itemPieces]
    simp only [Text.isEncodable_append, isEncodable_newLine hindent, hv, ih hvs]
    rfl

theorem isEncodable_memberPieces {ms : List (Text × Json)}
    (hkeys : (Assoc.keys ms).all Text.isEncodable)
    (hms : ∀ m ∈ ms, Text.isEncodable (pieces indent depth m.2).flatten) :
    Text.isEncodable (memberPieces indent depth ms).flatten := by
  induction ms with
  | nil =>
    rw [memberPieces]
    rfl
  | cons m ms ih =>
    obtain ⟨k, v⟩ := m
    have hkeys' := (Bool.and_eq_true _ _).mp hkeys
    have hk := isEncodable_plainString hkeys'.1
    have hv := hms (k, v) List.mem_cons_self
    have hms' := (List.forall_mem_cons.mp hms).2
    cases ms with
    | nil =>
      rw [flatten_memberPieces_singleton]
      simp only [Text.isEncodable_append, hk, hv]
      rfl
    | cons m ms =>
      rw [flatten_memberPieces_cons]
      simp only [Text.isEncodable_append, isEncodable_newLine hindent, hk, hv, ih hkeys'.2 hms']
      rfl

theorem isEncodable_pieces (hv : v.all isEncodable) :
    Text.isEncodable (pieces indent depth v).flatten := by
  induction v using induct generalizing depth with
  | h v ih =>
    obtain ⟨hvenc, hpartsEnc⟩ := all_iff.mp hv
    have hparts : ∀ w ∈ v.parts, ∀ d, Text.isEncodable (pieces indent d w).flatten :=
      fun w hw d ↦ ih w hw (hpartsEnc w hw)
    have hline (d : Nat) : (newLine indent d).isEncodable := isEncodable_newLine hindent
    cases v with
    | float x =>
      rw [pieces, List.flatten_singleton]
      exact Text.isEncodable_of_isPlainAscii (NumberStyle.isPlainAscii_write x)
    | null => rfl
    | bool b => cases b <;> rfl
    | int n =>
      rw [pieces, List.flatten_singleton]
      exact isEncodable_ofInt n
    | text t =>
      rw [pieces, List.flatten_singleton]
      exact isEncodable_plainString hvenc
    | list vs =>
      cases vs with
      | nil => rfl
      | cons v vs =>
        have hitems := isEncodable_itemPieces hindent fun w hw ↦
          hparts w (List.mem_cons_of_mem v hw) (depth + 1)
        rw [flatten_pieces_list]
        simp only [Text.isEncodable_append, hline, hparts v List.mem_cons_self, hitems]
        rfl
    | object ms =>
      cases ms with
      | nil => rfl
      | cons m ms =>
        have hmembers := isEncodable_memberPieces hindent hvenc fun m hm ↦
          hparts m.2 (List.mem_map_of_mem hm) (depth + 1)
        rw [flatten_pieces_object]
        simp only [Text.isEncodable_append, hline, hmembers]
        rfl

end pieces

/-- Whether a value is written as a text, and that as bytes, from which it is read again. -/
def isPortable (v : Json) : Bool := v.isReadable && v.isWhole && v.isEncodable

theorem all_isPortable {v : Json} : v.all isPortable ↔
    v.all isReadable ∧ v.all isWhole ∧ v.all isEncodable := by
  have h : v.all isPortable ↔ v.all (fun w ↦ w.isReadable && w.isWhole) ∧ v.all isEncodable := all_and
  rw [h, all_and, and_assoc]

/-- A property that asks nothing of a value but that there are bytes for its texts, and that the keys
of its objects are distinct. -/
structure IsTextual (p : Json → Bool) : Prop where
  bool : ∀ b, p (.bool b)
  text : ∀ t, p (.text t) = t.isEncodable
  list : ∀ vs, p (.list vs)
  object : ∀ {ms}, (Assoc.keys ms).Nodup → (Assoc.keys ms).all Text.isEncodable → p (.object ms)

theorem isTextual_isEncodable : IsTextual isEncodable :=
  ⟨fun _ ↦ rfl, fun _ ↦ rfl, fun _ ↦ rfl, fun _ hkeys ↦ hkeys⟩

theorem isTextual_isPortable : IsTextual isPortable where
  bool _ := rfl
  text _ := rfl
  list _ := rfl
  object hnodup hkeys := by
    rw [isPortable, isReadable, isEncodable, hkeys, decide_eq_true hnodup]
    rfl

theorem IsTextual.all_text {p : Json → Bool} (hp : IsTextual p) {t : Text} (ht : t.isEncodable) :
    (Json.text t).all p := (hp.text t).trans ht

theorem IsTextual.all_texts {p : Json → Bool} (hp : IsTextual p) {ts : List Text}
    (hts : ∀ t ∈ ts, t.isEncodable) : (Json.list (ts.map Json.text)).all p := by
  refine all_iff.mpr ⟨hp.list _, fun w hw ↦ ?_⟩
  obtain ⟨t, ht, rfl⟩ := List.mem_map.mp hw
  exact hp.all_text (hts t ht)

end Json

end OntologyStructs
