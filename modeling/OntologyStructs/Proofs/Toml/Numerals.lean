import Mathlib.Data.List.TakeDrop
import Mathlib.Data.List.TakeWhile
import Mathlib.Tactic.SplitIfs
import OntologyStructs.Proofs.Numerals
import OntologyStructs.Toml.Reader

namespace OntologyStructs.Toml

variable {α β : Type} {t r : Text} {fuel : Nat}

abbrev Kept (rest : α → Text) (t : Text) (x : Reading α) : Prop := Keeps rest ReadError.longNumber t x

theorem kept_malformed (rest : α → Text) (t : Text) : Kept rest t (.error .malformed) :=
  .of_error nofun

theorem kept_orMalformed {rest : α → Text} {x : Option α} (h : ∀ a, x = some a → rest a <:+ t) :
    Kept rest t (orMalformed x) := by
  cases x with
  | none => exact kept_malformed rest t
  | some a => exact .of_ok (h a rfl)

theorem kept_afterPrefix? (t start : Text) : Kept id t (orMalformed (t.afterPrefix? start)) :=
  kept_orMalformed fun _ ↦ Text.suffix_of_afterPrefix?

theorem skipSpace_suffix (t : Text) : skipSpace t <:+ t := List.dropWhile_suffix _

theorem kept_skipComment (t : Text) : Kept id t (skipComment t) := by
  cases t with
  | nil => exact .of_ok List.suffix_rfl
  | cons c r =>
    rw [skipComment]
    split
    · rw [skipCommentTail]
      split
      · exact kept_malformed id _
      · exact .of_ok ((List.dropWhile_suffix _).trans (List.suffix_cons c r))
    · exact .of_ok List.suffix_rfl

theorem kept_skipLines (inComment : Bool) (t : Text) : Kept id t (skipLines inComment t) := by
  fun_induction skipLines inComment t with
  | case1 => exact .of_ok List.suffix_rfl
  | case3 => exact kept_malformed id _
  | case2 _ ih | case4 _ _ _ _ ih | case5 _ _ _ _ _ ih | case6 _ _ _ _ ih =>
    exact ih.mono (List.suffix_cons _ _)
  | case7 => exact .of_ok List.suffix_rfl

theorem plainStep_suffix {multiline : Bool} {read u : Text} {c : CodePoint}
    (h : plainStep multiline read c r = .done u t) : t <:+ r := by
  rw [plainStep] at h
  split at h
  · split at h
    · cases h
      exact List.suffix_rfl
    split at h
    · next hafter =>
      cases h
      exact Text.suffix_of_afterPrefix? hafter
    · cases h
  split at h
  · cases h
  split at h <;> cases h

theorem step_suffix {multiline : Bool} {state : Within} {read u : Text} {c : CodePoint}
    (h : step multiline state read c r = .done u t) : t <:+ r := by
  cases state with
  | plain => exact plainStep_suffix h
  | escape =>
    rw [step, escapeStep] at h
    split_ifs at h
    split at h <;> cases h
  | unicode left value =>
    rw [step, unicodeStep] at h
    split at h
    · cases h
    · dsimp only at h
      split_ifs at h
  | lineEnd =>
    rw [step] at h
    split_ifs at h
  | blank =>
    rw [step] at h
    split at h
    · cases h
    · exact plainStep_suffix h

theorem kept_stringTail (multiline : Bool) (state : Within) (read t : Text) :
    Kept Prod.snd t (stringTail multiline state read t) := by
  fun_induction stringTail multiline state read t with
  | case1 => exact kept_malformed _ _
  | case2 _ _ _ _ _ _ _ ih => exact ih.mono (List.suffix_cons _ _)
  | case3 _ _ c r _ _ hstep => exact .of_ok ((step_suffix hstep).trans (List.suffix_cons c r))
  | case4 => exact kept_malformed _ _

theorem kept_literalTail (multiline : Bool) (read t : Text) :
    Kept Prod.snd t (literalTail multiline read t) := by
  fun_induction literalTail multiline read t with
  | case1 => exact kept_malformed _ _
  | case2 _ _ _ _ _ hafter => exact .of_ok (Text.suffix_of_afterPrefix? hafter)
  | case3 => exact kept_malformed _ _
  | case4 _ _ _ _ _ _ ih => exact ih.mono (List.suffix_cons _ _)

theorem withFinalQuotes_suffix (quote : CodePoint) (t rest : Text) :
    (withFinalQuotes quote t rest).2 <:+ rest := by
  fun_cases withFinalQuotes quote t rest with
  | case1 => exact (List.suffix_cons _ _).trans (List.suffix_cons _ _)
  | case2 => exact List.suffix_cons _ _
  | case3 => exact List.suffix_rfl
  | case4 => exact List.nil_suffix
  | case5 => exact List.suffix_rfl
  | case6 => exact List.suffix_rfl

theorem dropLineFeed_suffix (t : Text) : dropLineFeed t <:+ t := by
  rw [dropLineFeed]
  cases hafter : t.afterPrefix? "\n" with
  | none => exact List.suffix_rfl
  | some r => exact Text.suffix_of_afterPrefix? hafter

theorem kept_string? {x : Reading (Text × Text)} (h : string? t = some x) : Kept Prod.snd t x := by
  rw [string?] at h
  split at h
  · next r hafter =>
    cases h
    have hr := (dropLineFeed_suffix r).trans (Text.suffix_of_afterPrefix? hafter)
    exact ((kept_stringTail _ _ _ _).mono hr).map fun _ ↦ withFinalQuotes_suffix _ _ _
  split at h
  · next hafter =>
    cases h
    exact (kept_stringTail _ _ _ _).mono (Text.suffix_of_afterPrefix? hafter)
  split at h
  · next r hafter =>
    cases h
    have hr := (dropLineFeed_suffix r).trans (Text.suffix_of_afterPrefix? hafter)
    exact ((kept_literalTail _ _ _).mono hr).map fun _ ↦ withFinalQuotes_suffix _ _ _
  split at h
  · next hafter =>
    cases h
    exact (kept_literalTail _ _ _).mono (Text.suffix_of_afterPrefix? hafter)
  · cases h

theorem kept_keyPart (t : Text) : Kept Prod.snd t (keyPart t) := by
  cases t with
  | nil => exact kept_malformed _ _
  | cons c r =>
    have hc := List.suffix_cons c r
    rw [keyPart]
    split
    · rw [List.span_eq_takeWhile_dropWhile]
      exact .of_ok (List.dropWhile_suffix _)
    split
    · exact (kept_literalTail _ _ r).mono hc
    split
    · exact (kept_stringTail _ _ _ r).mono hc
    · exact kept_malformed _ _

theorem kept_key (fuel : Nat) (t : Text) : Kept Prod.snd t (key fuel t) := by
  induction fuel generalizing t with
  | zero => exact kept_malformed _ _
  | succ fuel ih =>
    rw [key]
    refine (kept_keyPart t).bind ?_
    rintro ⟨part, r⟩
    have hr := skipSpace_suffix r
    dsimp only
    split
    · next hspace =>
      rw [hspace] at hr
      split
      · refine ((ih _).mono (((skipSpace_suffix _).trans (List.suffix_cons _ _)).trans hr)).bind ?_
        rintro ⟨parts, u⟩
        exact .of_ok List.suffix_rfl
      · exact .of_ok hr
    · exact .of_ok List.nil_suffix

section scalars

variable {n low high : Nat}

theorem fixedDigits_suffix (h : fixedDigits n t = some (low, r)) : r <:+ t := by
  rw [fixedDigits] at h
  split at h
  · cases h
    exact List.drop_suffix n t
  · cases h

theorem twoDigits_suffix (h : twoDigits low high t = some (n, r)) : r <:+ t := by
  obtain ⟨⟨m, u⟩, hdigits, h⟩ := Option.bind_eq_some_iff.mp h
  dsimp only at h
  split at h
  · cases h
    exact fixedDigits_suffix hdigits
  · cases h

theorem afterTime?_suffix (h : afterTime? t = some r) : r <:+ t := by
  obtain ⟨⟨_, u⟩, hhour, h⟩ := Option.bind_eq_some_iff.mp h
  obtain ⟨v, hcolon, h⟩ := Option.bind_eq_some_iff.mp h
  obtain ⟨⟨_, w⟩, hminute, h⟩ := Option.bind_eq_some_iff.mp h
  obtain ⟨x, hcolon', h⟩ := Option.bind_eq_some_iff.mp h
  obtain ⟨⟨_, y⟩, hsecond, h⟩ := Option.bind_eq_some_iff.mp h
  have hy : y <:+ t := (twoDigits_suffix hsecond).trans <| (Text.suffix_of_afterPrefix? hcolon').trans <|
    (twoDigits_suffix hminute).trans <| (Text.suffix_of_afterPrefix? hcolon).trans <|
      twoDigits_suffix hhour
  dsimp only at h
  split at h
  · cases h
    exact hy
  · next u hpoint =>
    rw [List.span_eq_takeWhile_dropWhile] at h
    dsimp only at h
    split at h
    · cases h
      exact hy
    · cases h
      exact ((List.dropWhile_suffix _).trans (Text.suffix_of_afterPrefix? hpoint)).trans hy

theorem afterOffset?_suffix (h : afterOffset? t = some r) : r <:+ t := by
  cases t with
  | nil => cases h
  | cons c u =>
    rw [afterOffset?] at h
    split at h
    · cases h
      exact List.suffix_cons c r
    split at h
    · obtain ⟨⟨_, v⟩, hhour, h⟩ := Option.bind_eq_some_iff.mp h
      obtain ⟨w, hcolon, h⟩ := Option.bind_eq_some_iff.mp h
      obtain ⟨⟨_, x⟩, hminute, h⟩ := Option.bind_eq_some_iff.mp h
      cases h
      exact (twoDigits_suffix hminute).trans <| (Text.suffix_of_afterPrefix? hcolon).trans <|
        (twoDigits_suffix hhour).trans (List.suffix_cons c u)
    · cases h

theorem kept_date? {x : Reading (Toml × Text)} (h : date? t = some x) : Kept Prod.snd t x := by
  obtain ⟨⟨year, u⟩, hyear, h⟩ := Option.bind_eq_some_iff.mp h
  obtain ⟨v, hdash, h⟩ := Option.bind_eq_some_iff.mp h
  obtain ⟨⟨month, w⟩, hmonth, h⟩ := Option.bind_eq_some_iff.mp h
  obtain ⟨y, hdash', h⟩ := Option.bind_eq_some_iff.mp h
  obtain ⟨⟨day, z⟩, hday, h⟩ := Option.bind_eq_some_iff.mp h
  have hz : z <:+ t := (twoDigits_suffix hday).trans <| (Text.suffix_of_afterPrefix? hdash').trans <|
    (twoDigits_suffix hmonth).trans <| (Text.suffix_of_afterPrefix? hdash).trans <|
      fixedDigits_suffix hyear
  dsimp only at h
  split at h
  · cases h
    exact kept_malformed _ _
  · cases h
    refine .of_ok ?_
    cases z with
    | nil => exact List.nil_suffix
    | cons c r =>
      have hr := (List.suffix_cons c r).trans hz
      dsimp only
      split
      · split
        · next v htime =>
          have hv := (afterTime?_suffix htime).trans hr
          cases hoffset : afterOffset? v with
          | none => exact hv
          | some u => exact (afterOffset?_suffix hoffset).trans hv
        · exact hz
      · exact hz

/-- A text begins with a run of digits and underscores, which has `ds` for its digits and leaves `rest`. -/
def Begins (isDigit : CodePoint → Bool) (t ds rest : Text) : Prop :=
  ∃ run, run ++ rest = t ∧ (∀ c ∈ run, isDigit c ∨ c = '_') ∧ run.countP isDigit = ds.length

variable {isDigit : CodePoint → Bool} {ds rest : Text} {c : CodePoint}

theorem begins_nil (t : Text) : Begins isDigit t [] t := ⟨[], rfl, nofun, rfl⟩

theorem Begins.cons (hc : isDigit c) (h : Begins isDigit t ds rest) :
    Begins isDigit (c :: t) (c :: ds) rest := by
  obtain ⟨run, rfl, hrun, hcount⟩ := h
  refine ⟨c :: run, rfl, List.forall_mem_cons.mpr ⟨.inl hc, hrun⟩, ?_⟩
  rw [List.countP_cons_of_pos hc, hcount, List.length_cons]

theorem Begins.underscore (hdigit : isDigit '_' = false) (h : Begins isDigit t ds rest) :
    Begins isDigit (('_' : CodePoint) :: t) ds rest := by
  obtain ⟨run, rfl, hrun, hcount⟩ := h
  refine ⟨('_' : CodePoint) :: run, rfl, List.forall_mem_cons.mpr ⟨.inr rfl, hrun⟩, ?_⟩
  rw [List.countP_cons_of_neg (by simp [hdigit]), hcount]

theorem Begins.suffix (h : Begins isDigit t ds rest) : rest <:+ t := by
  obtain ⟨run, hrun, -⟩ := h
  exact ⟨run, hrun⟩

theorem begins_groupedDigits (hdigit : isDigit '_' = false) (t : Text) :
    Begins isDigit t (groupedDigits isDigit t).1 (groupedDigits isDigit t).2 := by
  fun_induction groupedDigits isDigit t with
  | case1 => exact begins_nil []
  | case2 c hc => exact (begins_nil []).cons hc
  | case3 c => exact begins_nil [c]
  | case4 => exact begins_nil _
  | case5 c r hc => exact (begins_nil _).cons (by simpa using hc)
  | case6 c r hc ds rest _ hds ih =>
    rw [hds] at ih
    exact (ih.underscore hdigit).cons (by simpa using hc)
  | case7 c d r hc _ ds rest hds ih =>
    rw [hds] at ih
    exact ih.cons (by simpa using hc)

theorem Begins.hasNumeral (h : Begins CodePoint.isDigit t ds rest) : t.HasNumeral ds.length := by
  obtain ⟨run, hrun, hdigits, hcount⟩ := h
  exact ⟨run, List.IsPrefix.isInfix ⟨rest, hrun⟩, hdigits, hcount⟩

theorem groupedDigits_suffix (t : Text) : (groupedDigits CodePoint.isDigit t).2 <:+ t :=
  (begins_groupedDigits rfl t).suffix

theorem begins_wholeDigits (t : Text) :
    Begins CodePoint.isDigit t (wholeDigits t).1 (wholeDigits t).2 := by
  cases t with
  | nil => exact begins_nil []
  | cons c r =>
    rw [wholeDigits]
    split
    · next hc => exact (begins_nil r).cons (hc ▸ rfl)
    · exact begins_groupedDigits rfl _

theorem splitSign_suffix (t : Text) : (splitSign t).2 <:+ t := by
  cases t with
  | nil => exact List.suffix_rfl
  | cons c r =>
    rw [splitSign]
    split_ifs
    · exact List.suffix_cons c r
    · exact List.suffix_cons c r
    · exact List.suffix_rfl

theorem fraction_suffix (t : Text) : (fraction t).2 <:+ t := by
  rw [fraction]
  split
  · next hdigits =>
    obtain ⟨u, hpoint, hu⟩ := Option.map_eq_some_iff.mp hdigits
    have hrest := groupedDigits_suffix u
    rw [hu] at hrest
    exact hrest.trans (Text.suffix_of_afterPrefix? hpoint)
  · exact List.suffix_rfl

theorem exponent_suffix (t : Text) : (exponent t).2 <:+ t := by
  cases t with
  | nil => exact List.suffix_rfl
  | cons c r =>
    have hr := (splitSign_suffix r).trans (List.suffix_cons c r)
    rw [exponent]
    split
    · dsimp only
      split
      · exact List.suffix_rfl
      · next hdigits =>
        have hrest := groupedDigits_suffix (splitSign r).2
        rw [hdigits] at hrest
        exact hrest.trans hr
    · exact List.suffix_rfl

theorem kept_decimal? {x : Reading (Toml × Text)} (h : decimal? t = some x) : Kept Prod.snd t x := by
  have hrest {u v w : Text} {part : Option Text} {power : Option Int}
      (hpart : fraction u = (part, v)) (hpower : exponent v = (power, w)) : w <:+ u := by
    have hv := fraction_suffix u
    have hw := exponent_suffix v
    rw [hpart] at hv
    rw [hpower] at hw
    exact hw.trans hv
  have hsuffix {negative : Bool} {r : Text} (hsign : splitSign t = (negative, r)) : r <:+ t := by
    have hr := splitSign_suffix t
    rwa [hsign] at hr
  have hbegins {r whole u : Text} (hwhole : wholeDigits r = (whole, u)) :
      Begins CodePoint.isDigit r whole u := by
    have hr := begins_wholeDigits r
    rwa [hwhole] at hr
  revert h
  fun_cases decimal? t with
  | case1 => nofun
  | case2 _ r hsign whole u hwhole _ _ _ _ _ _ _ _ hlong =>
    rintro ⟨⟩
    refine ⟨nofun, ?_⟩
    rintro _ ⟨⟩
    exact ⟨(hbegins hwhole).hasNumeral.mono (hsuffix hsign).isInfix, hlong⟩
  | case3 _ r hsign whole u hwhole _ _ _ hpart _ _ hpower =>
    rintro ⟨⟩
    exact .of_ok (((hrest hpart hpower).trans (hbegins hwhole).suffix).trans (hsuffix hsign))
  | case4 _ r hsign whole u hwhole _ _ _ hpart _ _ hpower =>
    rintro ⟨⟩
    exact .of_ok (((hrest hpart hpower).trans (hbegins hwhole).suffix).trans (hsuffix hsign))

theorem kept_prefixed? {v : Toml} (h : prefixed? t = some (v, r)) : Kept Prod.snd t (.ok (v, r)) := by
  obtain ⟨⟨mark, base⟩, hbase, h⟩ := List.exists_of_findSome?_eq_some h
  obtain ⟨u, hafter, h⟩ := Option.bind_eq_some_iff.mp h
  have hu := (@begins_groupedDigits (fun c ↦ c.hexValue?.any fun v ↦ decide (v < base)) rfl u).suffix
  split at h
  · cases h
  · next hdigits =>
    cases h
    rw [hdigits] at hu
    exact .of_ok (hu.trans (Text.suffix_of_afterPrefix? hafter))

theorem kept_word? {v : Toml} (h : word? t = some (v, r)) : Kept Prod.snd t (.ok (v, r)) := by
  obtain ⟨_, -, h⟩ := List.exists_of_findSome?_eq_some h
  obtain ⟨_, hafter, ⟨⟩⟩ := Option.map_eq_some_iff.mp h
  exact .of_ok (Text.suffix_of_afterPrefix? hafter)

end scalars

theorem kept_scalar (t : Text) : Kept Prod.snd t (scalar t) := by
  rw [scalar]
  split
  · next hstring => exact (kept_string? hstring).map fun _ ↦ List.suffix_rfl
  split
  · next hword => exact kept_word? hword
  split
  · next hdate => exact kept_date? hdate
  split
  · next htime => exact .of_ok (afterTime?_suffix htime)
  split
  · next hprefixed => exact kept_prefixed? hprefixed
  · cases hdecimal : decimal? t with
    | none => exact kept_malformed _ _
    | some x => exact kept_decimal? hdecimal

structure AllKept (fuel : Nat) : Prop where
  value : ∀ t, Kept Prod.snd t (value fuel t)
  items : ∀ read t, Kept Prod.snd t (items fuel read t)
  members : ∀ read marks t, Kept Prod.snd t (members fuel read marks t)

theorem allKept_zero : AllKept 0 where
  value t := by
    rw [Toml.value]
    exact kept_malformed _ _
  items _ t := by
    rw [Toml.items]
    exact kept_malformed _ _
  members _ _ t := by
    rw [Toml.members]
    exact kept_malformed _ _

theorem AllKept.value_succ (h : AllKept fuel) (t : Text) :
    Kept Prod.snd t (Toml.value (fuel + 1) t) := by
  rw [Toml.value]
  split
  · next u hbracket =>
    refine ((kept_skipLines false u).mono (Text.suffix_of_afterPrefix? hbracket)).bind fun r ↦ ?_
    split
    · next hclose => exact .of_ok (Text.suffix_of_afterPrefix? hclose)
    · exact h.items [] r
  split
  · next u hbrace =>
    have hu := (skipSpace_suffix u).trans (Text.suffix_of_afterPrefix? hbrace)
    split
    · next hclose => exact .of_ok ((Text.suffix_of_afterPrefix? hclose).trans hu)
    · exact (h.members [] .empty _).mono hu
  · exact kept_scalar t

theorem AllKept.items_succ (h : AllKept fuel) (read : List Toml) (t : Text) :
    Kept Prod.snd t (Toml.items (fuel + 1) read t) := by
  rw [Toml.items]
  refine (h.value t).bind ?_
  rintro ⟨v, r⟩
  refine (kept_skipLines false r).bind fun r ↦ ?_
  split
  · next hclose => exact .of_ok (Text.suffix_of_afterPrefix? hclose)
  refine (kept_afterPrefix? r ",").bind fun u ↦ (kept_skipLines false u).bind fun u ↦ ?_
  split
  · next hclose => exact .of_ok (Text.suffix_of_afterPrefix? hclose)
  · exact h.items _ u

theorem kept_place (enterLists : Bool) (parent : Key) (last : Text) (v : Toml) (m : Table) (t : Text) :
    Kept (fun _ ↦ t) t (place enterLists parent last v m) :=
  kept_orMalformed fun _ _ ↦ List.suffix_rfl

theorem AllKept.members_succ (h : AllKept fuel) (read : Table) (marks : Marks) (t : Text) :
    Kept Prod.snd t (Toml.members (fuel + 1) read marks t) := by
  rw [Toml.members]
  refine (kept_key t.length t).bind ?_
  rintro ⟨k, r⟩
  refine (kept_afterPrefix? r "=").bind fun r ↦ ?_
  refine ((h.value _).mono (skipSpace_suffix r)).bind ?_
  rintro ⟨v, u⟩
  dsimp only
  split
  · exact kept_malformed _ _
  refine (kept_place _ _ _ _ _ _).bind fun table ↦ ?_
  have hu := skipSpace_suffix u
  split
  · next hclose => exact .of_ok ((Text.suffix_of_afterPrefix? hclose).trans hu)
  refine ((kept_afterPrefix? _ ",").mono hu).bind fun w ↦ ?_
  exact (h.members _ _ _).mono (skipSpace_suffix w)

theorem allKept (fuel : Nat) : AllKept fuel := by
  induction fuel with
  | zero => exact allKept_zero
  | succ fuel ih => exact ⟨ih.value_succ, ih.items_succ, ih.members_succ⟩

theorem kept_assign (s : State) (k : Key) (v : Toml) (t : Text) :
    Kept (fun _ ↦ t) t (s.assign k v) := by
  rw [State.assign]
  dsimp only
  split
  · exact kept_malformed _ _
  · exact (kept_place _ _ _ _ _ _).bind fun table ↦ .of_ok List.suffix_rfl

theorem kept_openTable (s : State) (k : Key) (t : Text) : Kept (fun _ ↦ t) t (s.openTable k) := by
  rw [State.openTable]
  dsimp only
  split
  · exact kept_malformed _ _
  · exact (kept_orMalformed fun _ _ ↦ List.suffix_rfl).bind fun table ↦ .of_ok List.suffix_rfl

theorem kept_openItem (s : State) (k : Key) (t : Text) : Kept (fun _ ↦ t) t (s.openItem k) := by
  rw [State.openItem]
  dsimp only
  split
  · exact kept_malformed _ _
  · exact (kept_orMalformed fun _ _ ↦ List.suffix_rfl).bind fun table ↦ .of_ok List.suffix_rfl

theorem kept_statement (s : State) (t : Text) : Kept Prod.snd t (statement s t) := by
  rw [statement]
  split
  · next u hopen =>
    have hu := (skipSpace_suffix u).trans (Text.suffix_of_afterPrefix? hopen)
    refine ((kept_key _ _).mono hu).bind ?_
    rintro ⟨k, r⟩
    refine (kept_openItem s k r).bind fun s ↦ (kept_afterPrefix? r "]]").bind fun u ↦ ?_
    exact .of_ok List.suffix_rfl
  split
  · next u hopen =>
    have hu := (skipSpace_suffix u).trans (Text.suffix_of_afterPrefix? hopen)
    refine ((kept_key _ _).mono hu).bind ?_
    rintro ⟨k, r⟩
    refine (kept_openTable s k r).bind fun s ↦ (kept_afterPrefix? r "]").bind fun u ↦ ?_
    exact .of_ok List.suffix_rfl
  · refine (kept_key _ t).bind ?_
    rintro ⟨k, r⟩
    refine (kept_afterPrefix? r "=").bind fun u ↦ ?_
    refine (((allKept _).value _).mono (skipSpace_suffix u)).bind ?_
    rintro ⟨v, w⟩
    exact (kept_assign s k v w).bind fun s ↦ .of_ok List.suffix_rfl

theorem kept_statements (fuel : Nat) (s : State) (t : Text) :
    Kept (fun _ ↦ []) t (statements fuel s t) := by
  induction fuel generalizing s t with
  | zero => exact kept_malformed _ _
  | succ fuel ih =>
    rw [statements]
    have ht := skipSpace_suffix t
    split
    · exact .of_ok List.nil_suffix
    · next c r hspace =>
      rw [hspace] at ht
      split
      · exact (ih s r).mono ((List.suffix_cons c r).trans ht)
      · -- either way what is left of the line comes next
        extract_lets behind
        have hbehind : ∀ x : State × Text, Kept (fun _ ↦ []) x.2 (behind x) := by
          rintro ⟨s, r⟩
          refine ((kept_skipComment _).mono (skipSpace_suffix r)).bind fun u ↦ ?_
          split
          · exact .of_ok List.nil_suffix
          · next c r =>
            split
            · exact (ih s r).mono (List.suffix_cons c r)
            · exact kept_malformed _ _
        split
        · exact (hbehind (s, c :: r)).mono ht
        · exact ((kept_statement s (c :: r)).mono ht).bind hbehind

section lineEnds

variable {run : Text} (hrun : ('\n' : CodePoint) ∉ run)
include hrun

theorem prefix_of_prefix_joinLineEnds (h : run <+: joinLineEnds t) : run <+: t := by
  fun_induction joinLineEnds t generalizing run with
  | case1 c d r hc _ =>
    -- the carriage return is gone, but the line feed behind it is not in the run
    obtain ⟨-, rfl⟩ := hc
    have hfeed : ∃ u, joinLineEnds (('\n' : CodePoint) :: r) = ('\n' : CodePoint) :: u := by
      cases r with
      | nil => exact ⟨[], rfl⟩
      | cons c r => exact ⟨_, if_neg fun h ↦ absurd h.1 (by decide)⟩
    obtain ⟨u, hu⟩ := hfeed
    rw [hu] at h
    cases run with
    | nil => exact List.nil_prefix
    | cons c run =>
      obtain ⟨rfl, -⟩ := List.cons_prefix_cons.mp h
      exact absurd List.mem_cons_self hrun
  | case2 c d r _ ih =>
    cases run with
    | nil => exact List.nil_prefix
    | cons e run =>
      obtain ⟨rfl, htail⟩ := List.cons_prefix_cons.mp h
      exact List.cons_prefix_cons.mpr ⟨rfl, ih (fun hc ↦ hrun (List.mem_cons_of_mem e hc)) htail⟩
  | case3 => exact h

theorem infix_of_infix_joinLineEnds (h : run <:+: joinLineEnds t) : run <:+: t := by
  induction t using joinLineEnds.induct with
  | case1 c d r hc ih =>
    rw [joinLineEnds, if_pos hc] at h
    exact (ih h).trans (List.suffix_cons c _).isInfix
  | case2 c d r hc ih =>
    have hjoin : joinLineEnds (c :: d :: r) = c :: joinLineEnds (d :: r) := if_neg hc
    rw [hjoin, List.infix_cons_iff] at h
    rcases h with h | h
    · exact (prefix_of_prefix_joinLineEnds hrun (hjoin ▸ h)).isInfix
    · exact (ih h).trans (List.suffix_cons c _).isInfix
  | case3 t ht =>
    rwa [joinLineEnds] at h
    exact ht

end lineEnds

/-- A carriage return that does not count ends no numeral. -/
theorem hasNumeral_of_joinLineEnds {n : Nat} (h : (joinLineEnds t).HasNumeral n) : t.HasNumeral n := by
  obtain ⟨run, hrun, hdigits, hcount⟩ := h
  have hfeed : ('\n' : CodePoint) ∉ run := fun hc ↦ absurd (hdigits _ hc) (by decide)
  exact ⟨run, infix_of_infix_joinLineEnds hfeed hrun, hdigits, hcount⟩

theorem read_ne_longNumber (h : t.NumeralsFit) (n : Nat) : read t ≠ .error (.longNumber n) :=
  (kept_statements _ _ (joinLineEnds t)).ne_long (fun m hm ↦ h m (hasNumeral_of_joinLineEnds hm)) n

end OntologyStructs.Toml
