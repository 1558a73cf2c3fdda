import Mathlib.Data.List.Chain
import Mathlib.Data.List.Forall2
import OntologyStructs.Proofs.Naming.Spacing

namespace OntologyStructs

namespace Naming

variable {c d : CodePoint} {r t v w u : Text} {ws : List Text}

/-- Capitals, and then small letters and digits. No small letter stands behind several capitals: the
last of these begins a word with it. -/
def IsWord (w : Text) : Prop :=
  w ≠ [] ∧ ∃ capitals tail : Text, w = capitals ++ tail ∧ (∀ c ∈ capitals, c.isUpper) ∧
    (∀ c ∈ tail, c.isLower ∨ c.isDigit) ∧
    (2 ≤ capitals.length → ∀ c, tail.head? = some c → ¬c.isLower)

def Meets (v w : Text) : Prop :=
  (∃ c, w.head? = some c ∧ c.isUpper) ∧
    ((∃ c, v.getLast? = some c ∧ (c.isLower ∨ c.isDigit)) ∨
      (∀ c ∈ v, c.isUpper) ∧ ∃ c, w[1]? = some c ∧ c.isLower)

structure Cut (t : Text) (ws : List Text) : Prop where
  flatten : ws.flatten = t
  words : ∀ w ∈ ws, IsWord w
  meets : ws.IsChain Meets

theorem endsBetween_iff {next : Option CodePoint} : endsBetween c d next ↔
    d.isUpper ∧ ((c.isLower ∨ c.isDigit) ∨ c.isUpper ∧ ∃ e, next = some e ∧ e.isLower) := by
  simp only [endsBetween, Bool.and_eq_true, Bool.or_eq_true, Option.any_eq_true_iff_get,
    Option.isSome_iff_exists]
  cases next <;> simp

theorem isUpper_of_not_endsBetween {next : Option CodePoint} (hc : c.isAlphanumeric) (hd : d.isUpper)
    (h : ¬endsBetween c d next) : c.isUpper :=
  (CodePoint.isAlphanumeric_iff.mp hc).resolve_right fun hsmall ↦
    h (endsBetween_iff.mpr ⟨hd, .inl hsmall⟩)

theorem IsWord.forall_isAlphanumeric (h : IsWord w) : ∀ c ∈ w, c.isAlphanumeric := by
  obtain ⟨_, capitals, tail, rfl, hcapitals, htail, _⟩ := h
  intro c hc
  rw [CodePoint.isAlphanumeric_iff]
  exact (List.mem_append.mp hc).imp (hcapitals c) (htail c)

theorem isWord_of_small (hne : w ≠ []) (h : ∀ c ∈ w, c.isLower ∨ c.isDigit) : IsWord w :=
  ⟨hne, [], w, rfl, nofun, h, nofun⟩

theorem isWord_singleton (h : c.isAlphanumeric) : IsWord [c] := by
  have hne := List.cons_ne_nil c []
  rcases CodePoint.isAlphanumeric_iff.mp h with hc | hc
  · exact ⟨hne, [c], [], rfl, List.forall_mem_singleton.mpr hc, nofun, nofun⟩
  · exact isWord_of_small hne (List.forall_mem_singleton.mpr hc)

theorem IsWord.tail (h : IsWord (c :: d :: v)) : IsWord (d :: v) := by
  obtain ⟨_, capitals, tail, heq, hcapitals, htail, hstop⟩ := h
  cases capitals with
  | nil =>
    obtain rfl : c :: d :: v = tail := heq
    exact isWord_of_small (List.cons_ne_nil d v) (List.forall_mem_cons.mp htail).2
  | cons c' capitals =>
    obtain ⟨_, heq⟩ := List.cons.inj heq
    refine ⟨List.cons_ne_nil d v, capitals, tail, heq, (List.forall_mem_cons.mp hcapitals).2, htail, ?_⟩
    exact fun h ↦ hstop (Nat.le_succ_of_le h)

/-- Nothing inside a word ends one. -/
theorem IsWord.not_endsBetween (h : IsWord (c :: d :: v)) : ¬endsBetween c d v.head? := by
  obtain ⟨_, capitals, tail, heq, hcapitals, htail, hstop⟩ := h
  rw [endsBetween_iff]
  rintro ⟨hd, hends⟩
  -- the second code point is a capital, so two capitals at least are in front
  rcases capitals with _ | ⟨c', _ | ⟨d', capitals⟩⟩
  · obtain rfl : c :: d :: v = tail := heq
    exact CodePoint.not_isUpper_of_small (htail d (by simp)) hd
  · obtain ⟨rfl, rfl⟩ : c = c' ∧ d :: v = tail := List.cons.inj heq
    exact CodePoint.not_isUpper_of_small (htail d (by simp)) hd
  · obtain ⟨rfl, rfl, rfl⟩ : c = c' ∧ d = d' ∧ v = capitals ++ tail := by simpa using heq
    rcases hends with hsmall | ⟨_, e, he, hlower⟩
    · exact CodePoint.not_isUpper_of_small hsmall (hcapitals c (by simp))
    · cases capitals with
      | nil => exact hstop (by simp) e he hlower
      | cons f capitals =>
        obtain rfl : f = e := Option.some.inj he
        exact CodePoint.not_isUpper_of_small (.inl hlower) (hcapitals f (by simp))

theorem IsWord.cons (hc : c.isAlphanumeric) (h : IsWord (d :: v)) (hends : ¬endsBetween c d v.head?) :
    IsWord (c :: d :: v) := by
  obtain ⟨_, capitals, tail, heq, hcapitals, htail, hstop⟩ := h
  have hne := List.cons_ne_nil c (d :: v)
  cases capitals with
  | nil =>
    obtain rfl : d :: v = tail := heq
    rcases CodePoint.isAlphanumeric_iff.mp hc with hc | hc
    · exact ⟨hne, [c], d :: v, rfl, List.forall_mem_singleton.mpr hc, htail, nofun⟩
    · exact isWord_of_small hne (List.forall_mem_cons.mpr ⟨hc, htail⟩)
  | cons d' capitals =>
    obtain ⟨rfl, rfl⟩ : d = d' ∧ v = capitals ++ tail := List.cons.inj heq
    have hd := hcapitals d List.mem_cons_self
    have hupper := isUpper_of_not_endsBetween hc hd hends
    refine ⟨hne, c :: d :: capitals, tail, rfl, List.forall_mem_cons.mpr ⟨hupper, hcapitals⟩, htail, ?_⟩
    intro _ e he hlower
    cases capitals with
    | nil => exact hends (endsBetween_iff.mpr ⟨hd, .inr ⟨hupper, e, he, hlower⟩⟩)
    | cons f capitals => exact hstop (by simp) e he hlower

theorem meets_singleton : Meets [c] (d :: w) ↔ endsBetween c d w.head? := by
  rw [endsBetween_iff]
  simp [Meets, List.head?_eq_getElem?]

/-- What begins a word does not change where it meets the next. -/
theorem meets_cons (h : IsWord (c :: d :: v)) : Meets (c :: d :: v) u ↔ Meets (d :: v) u := by
  have hupper : (∀ e ∈ c :: d :: v, e.isUpper) ↔ ∀ e ∈ d :: v, e.isUpper := by
    refine ⟨fun hall ↦ (List.forall_mem_cons.mp hall).2, fun hall ↦ ?_⟩
    have hc := isUpper_of_not_endsBetween (h.forall_isAlphanumeric c List.mem_cons_self)
      (hall d List.mem_cons_self) h.not_endsBetween
    exact List.forall_mem_cons.mpr ⟨hc, hall⟩
  rw [Meets, Meets, hupper, List.getLast?_cons_cons]

theorem Cut.exists_cons (h : Cut (d :: r) ws) : ∃ w ws', ws = (d :: w) :: ws' := by
  cases ws with
  | nil => cases h.flatten
  | cons w ws =>
    cases w with
    | nil => exact absurd rfl (h.words [] List.mem_cons_self).1
    | cons e w =>
      obtain rfl : e = d := (List.cons.inj h.flatten).1
      exact ⟨w, ws, rfl⟩

/-- A capital is next where the word is over. -/
theorem Cut.endsBetween_eq (h : Cut (d :: r) ((d :: w) :: ws)) (c : CodePoint) :
    endsBetween c d r.head? = endsBetween c d w.head? := by
  obtain rfl : w ++ ws.flatten = r := (List.cons.inj h.flatten).2
  cases w with
  | cons e w => rfl
  | nil =>
    cases ws with
    | nil => rfl
    | cons u ws =>
      obtain ⟨⟨e, he, hupper⟩, _⟩ := (List.isChain_cons_cons.mp h.meets).1
      have hlower : e.isLower = false :=
        Bool.eq_false_iff.mpr fun h ↦ CodePoint.not_isUpper_of_small (.inl h) hupper
      have hnext : ([] ++ (u :: ws).flatten).head? = some e := by
        rw [List.nil_append, List.flatten_cons, List.head?_append, he, Option.some_or]
      rw [hnext]
      simp only [endsBetween, List.head?_nil, Option.any_none, Option.any_some, hlower]

theorem cut_singleton_cons (hc : c.isAlphanumeric) :
    Cut (c :: d :: r) ([c] :: ws) ↔ endsBetween c d r.head? ∧ Cut (d :: r) ws := by
  constructor
  · rintro ⟨hflatten, hwords, hmeets⟩
    have hcut : Cut (d :: r) ws :=
      ⟨(List.cons.inj hflatten).2, (List.forall_mem_cons.mp hwords).2, hmeets.tail⟩
    obtain ⟨w, ws, rfl⟩ := hcut.exists_cons
    rw [hcut.endsBetween_eq, ← meets_singleton]
    exact ⟨(List.isChain_cons_cons.mp hmeets).1, hcut⟩
  · rintro ⟨hends, hcut⟩
    obtain ⟨w, ws, rfl⟩ := hcut.exists_cons
    rw [hcut.endsBetween_eq, ← meets_singleton] at hends
    exact ⟨congrArg (c :: ·) hcut.flatten, List.forall_mem_cons.mpr ⟨isWord_singleton hc, hcut.words⟩,
      List.isChain_cons_cons.mpr ⟨hends, hcut.meets⟩⟩

theorem cut_extended (hc : c.isAlphanumeric) :
    Cut (c :: d :: r) ((c :: d :: v) :: ws) ↔
      ¬endsBetween c d r.head? ∧ Cut (d :: r) ((d :: v) :: ws) := by
  constructor
  · rintro ⟨hflatten, hwords, hmeets⟩
    obtain ⟨hword, hwords⟩ := List.forall_mem_cons.mp hwords
    rw [List.isChain_cons] at hmeets
    have hcut : Cut (d :: r) ((d :: v) :: ws) :=
      ⟨(List.cons.inj hflatten).2, List.forall_mem_cons.mpr ⟨hword.tail, hwords⟩,
        List.isChain_cons.mpr ⟨fun u hu ↦ (meets_cons hword).mp (hmeets.1 u hu), hmeets.2⟩⟩
    rw [hcut.endsBetween_eq]
    exact ⟨hword.not_endsBetween, hcut⟩
  · rintro ⟨hends, hcut⟩
    rw [hcut.endsBetween_eq] at hends
    obtain ⟨hflatten, hwords, hmeets⟩ := hcut
    obtain ⟨hword, hwords⟩ := List.forall_mem_cons.mp hwords
    have hword := hword.cons hc hends
    rw [List.isChain_cons] at hmeets
    exact ⟨congrArg (c :: ·) hflatten, List.forall_mem_cons.mpr ⟨hword, hwords⟩,
      List.isChain_cons.mpr ⟨fun u hu ↦ (meets_cons hword).mpr (hmeets.1 u hu), hmeets.2⟩⟩

theorem cut_cons_cons (hc : c.isAlphanumeric) : Cut (c :: d :: r) ws ↔
    ∃ vs, Cut (d :: r) vs ∧ ws = if endsBetween c d r.head? then [c] :: vs else Text.addToFirst c vs := by
  constructor
  · intro h
    obtain ⟨w, ws, rfl⟩ := h.exists_cons
    cases w with
    | nil =>
      obtain ⟨hends, hcut⟩ := (cut_singleton_cons hc).mp h
      exact ⟨ws, hcut, (if_pos hends).symm⟩
    | cons e v =>
      obtain rfl : e = d := (List.cons.inj (List.cons.inj h.flatten).2).1
      obtain ⟨hends, hcut⟩ := (cut_extended hc).mp h
      exact ⟨(e :: v) :: ws, hcut, (if_neg hends).symm⟩
  · rintro ⟨vs, hcut, rfl⟩
    split
    next hends => exact (cut_singleton_cons hc).mpr ⟨hends, hcut⟩
    next hends =>
      obtain ⟨v, ws, rfl⟩ := hcut.exists_cons
      exact (cut_extended hc).mpr ⟨hends, hcut⟩

theorem cut_nil : Cut [] ws ↔ ws = [] := by
  constructor
  · intro h
    cases ws with
    | nil => rfl
    | cons w ws =>
      exact absurd (List.append_eq_nil_iff.mp h.flatten).1 (h.words w List.mem_cons_self).1
  · rintro rfl
    exact ⟨rfl, nofun, List.isChain_nil⟩

theorem cut_singleton (hc : c.isAlphanumeric) : Cut [c] ws ↔ ws = [[c]] := by
  constructor
  · intro h
    obtain ⟨w, ws, rfl⟩ := h.exists_cons
    obtain ⟨rfl, hws⟩ := List.append_eq_nil_iff.mp (List.cons.inj h.flatten).2
    have hcut : Cut [] ws := ⟨hws, (List.forall_mem_cons.mp h.words).2, h.meets.tail⟩
    rw [cut_nil.mp hcut]
  · rintro rfl
    exact ⟨rfl, List.forall_mem_singleton.mpr (isWord_singleton hc), List.isChain_singleton [c]⟩

/-- The shape of words and of the places where they meet leaves one way to cut. -/
theorem cut_iff (ht : ∀ c ∈ t, c.isAlphanumeric) : Cut t ws ↔ ws = caseWords t := by
  induction t generalizing ws with
  | nil => exact cut_nil
  | cons c t ih =>
    obtain ⟨hc, ht⟩ := List.forall_mem_cons.mp ht
    cases t with
    | nil => exact cut_singleton hc
    | cons d r =>
      -- what follows says whether the first code point is a word or goes before the first word
      rw [cut_cons_cons hc, caseWords]
      constructor
      · rintro ⟨vs, hcut, rfl⟩
        rw [(ih ht).mp hcut]
      · rintro rfl
        exact ⟨caseWords (d :: r), (ih ht).mpr rfl, rfl⟩

theorem caseWords_of_isWord (h : IsWord w) : caseWords w = [w] := by
  have hcut : Cut w [w] :=
    ⟨List.flatten_singleton, List.forall_mem_singleton.mpr h, List.isChain_singleton w⟩
  exact ((cut_iff h.forall_isAlphanumeric).mp hcut).symm

theorem cut_caseWords_of_mem_stretches {s : Text} (h : s ∈ t.stretches CodePoint.isAlphanumeric) :
    Cut s (caseWords s) :=
  (cut_iff fun _ ↦ Text.keep_of_mem_stretches h).mpr rfl

theorem isWord_of_mem_words (h : w ∈ words t) : IsWord w := by
  obtain ⟨s, hs, hw⟩ := List.mem_flatMap.mp h
  exact (cut_caseWords_of_mem_stretches hs).words w hw

/-- A text of words with one separator between them has just these words. -/
theorem words_join {sep : CodePoint} (hsep : ¬sep.isAlphanumeric) (h : ∀ w ∈ ws, IsWord w) :
    words (Text.join [sep] ws) = ws := by
  have hstretches : (Text.join [sep] ws).stretches CodePoint.isAlphanumeric = ws :=
    Text.stretches_join (fun w hw ↦ ⟨(h w hw).1, (h w hw).forall_isAlphanumeric⟩) hsep
  rw [words, hstretches, List.flatMap_congr fun w hw ↦ caseWords_of_isWord (h w hw),
    List.flatMap_singleton']

/-- Cutting stretch by stretch has one outcome. -/
theorem forall₂_cut_iff {stretches : List Text} {groups : List (List Text)}
    (h : ∀ s ∈ stretches, ∀ c ∈ s, c.isAlphanumeric) :
    List.Forall₂ Cut stretches groups ↔ groups = stretches.map caseWords := by
  induction stretches generalizing groups with
  | nil => exact List.forall₂_nil_left_iff
  | cons s stretches ih =>
    obtain ⟨hs, hstretches⟩ := List.forall_mem_cons.mp h
    rw [List.forall₂_cons_left_iff, List.map_cons]
    constructor
    · rintro ⟨ws, groups, hcut, hgroups, rfl⟩
      rw [(cut_iff hs).mp hcut, (ih hstretches).mp hgroups]
    · rintro rfl
      exact ⟨_, _, (cut_iff hs).mpr rfl, (ih hstretches).mpr rfl, rfl⟩

/-- The words of a text hold its letters and digits, have one shape, and meet only where the case says
so; there is one way to cut the stretches of letters and digits like this. Cutting what is cut already,
each word alone or all with a space between them, changes nothing. Blanks written into the stretches,
first before the capitals and then behind the acronyms, leave the same words apart. -/
theorem words_cut_by_case (t : Text) :
    (words t).flatten = t.filter CodePoint.isAlphanumeric ∧
    (∀ w ∈ words t, IsWord w) ∧
    (∃ groups, words t = groups.flatten ∧ ∀ groups',
      List.Forall₂ Cut (t.stretches CodePoint.isAlphanumeric) groups' ↔ groups' = groups) ∧
    (∀ w ∈ words t, words w = [w]) ∧
    words (Text.join " " (words t)) = words t ∧
    words t = (t.stretches CodePoint.isAlphanumeric).flatMap fun s ↦
      (spaceAcronyms (spaceCapitals s)).stretches fun c ↦ !c.isBlank := by
  have hkeep : ∀ s ∈ t.stretches CodePoint.isAlphanumeric, ∀ c ∈ s, c.isAlphanumeric := fun _ hs _ ↦
    Text.keep_of_mem_stretches hs
  refine ⟨flatten_words t, fun _ ↦ isWord_of_mem_words,
    ⟨_, List.flatMap_def, fun _ ↦ forall₂_cut_iff hkeep⟩, ?_, ?_, ?_⟩
  · intro w hw
    have hspace : ¬CodePoint.isAlphanumeric ' ' := by decide
    exact words_join hspace (List.forall_mem_singleton.mpr (isWord_of_mem_words hw))
  · exact words_join (by decide) fun _ ↦ isWord_of_mem_words
  · exact List.flatMap_congr fun s hs ↦ caseWords_eq_stretches (hkeep s hs)

/-- An acronym before a word, a digit at the end of a word, and an acronym that lends its last letter. -/
theorem server_words_cut :
    words "getHTTPServer2-isXMLv3" = ["get", "HTTP", "Server2", "is", "XM", "Lv3"] ∧
    IsWord "HTTP" ∧ words "Server2" = ["Server2"] ∧
    words "get HTTP Server2 is XM Lv3" = ["get", "HTTP", "Server2", "is", "XM", "Lv3"] := by
  have hwords : words "getHTTPServer2-isXMLv3" = ["get", "HTTP", "Server2", "is", "XM", "Lv3"] := by
    decide
  obtain ⟨_, hshape, _, hagain, hjoin, _⟩ := words_cut_by_case "getHTTPServer2-isXMLv3"
  rw [hwords] at hshape hagain hjoin
  exact ⟨hwords, hshape _ (by decide), hagain _ (by decide), hjoin⟩

end Naming

end OntologyStructs
