import OntologyStructs.Proofs.Json.Reading
import OntologyStructs.Proofs.Json.Scalar

namespace OntologyStructs

namespace Json

theorem not_isSpace_of_isDigit {c : CodePoint} (hc : c.isDigit) : isSpace c = false := by
  cases hs : isSpace c with
  | false => rfl
  | true =>
    simp only [isSpace, Bool.or_eq_true, decide_eq_true_eq] at hs
    obtain ((rfl | rfl) | rfl) | rfl := hs <;> cases hc

def isWhole : Json → Bool
  | float _ => false
  | _ => true

variable {indent rest : Text} {depth fuel : Nat} {v : Json}

theorem flatten_itemPieces (before : Text) (v : Json) (vs : List Json) :
    (itemPieces indent depth before (v :: vs)).flatten =
      before ++ newLine indent depth ++ (pieces indent depth v).flatten
        ++ (itemPieces indent depth "," vs).flatten := by
  rw [itemPieces.eq_def]
  cases v <;> simp

theorem flatten_memberPieces_singleton (k : Text) (v : Json) :
    (memberPieces indent depth [(k, v)]).flatten =
      plainString k ++ ": " ++ (pieces indent depth v).flatten := by
  rw [memberPieces]
  simp

theorem flatten_memberPieces_cons (k : Text) (v : Json) (m : Text × Json)
    (ms : List (Text × Json)) :
    (memberPieces indent depth ((k, v) :: m :: ms)).flatten =
      plainString k ++ ": " ++ (pieces indent depth v).flatten
        ++ ("," ++ newLine indent depth ++ (memberPieces indent depth (m :: ms)).flatten) := by
  rw [memberPieces.eq_def]
  simp

theorem exists_memberPieces (indent : Text) (depth : Nat) (m : Text × Json) (ms : List (Text × Json)) :
    ∃ t, (memberPieces indent depth (m :: ms)).flatten = ('"' : CodePoint) :: t := by
  rw [memberPieces.eq_def]
  cases ms <;> exact ⟨_, rfl⟩

theorem flatten_pieces_list (v : Json) (vs : List Json) :
    (pieces indent depth (list (v :: vs))).flatten =
      "[" ++ newLine indent (depth + 1) ++ (pieces indent (depth + 1) v).flatten
        ++ ((itemPieces indent (depth + 1) "," vs).flatten ++ newLine indent depth ++ "]") := by
  rw [pieces, List.flatten_append, flatten_itemPieces]
  simp

theorem flatten_pieces_object (m : Text × Json) (ms : List (Text × Json)) :
    (pieces indent depth (object (m :: ms))).flatten =
      "\x7b" ++ newLine indent (depth + 1)
        ++ ((memberPieces indent (depth + 1) (m :: ms)).flatten
          ++ newLine indent depth ++ "\x7d") := by
  rw [pieces]
  simp

/-- How a value begins: neither with space, nor with what closes a list, nor with a byte order
mark. -/
theorem exists_pieces (indent : Text) (depth : Nat) (h : v.isWhole) :
    ∃ c r, (pieces indent depth v).flatten = c :: r ∧ isSpace c = false ∧ c ≠ ']' ∧
      c ≠ 0xFEFF := by
  cases v with
  | null => exact ⟨_, _, rfl, by decide, by decide, by decide⟩
  | bool b => cases b <;> exact ⟨_, _, rfl, by decide, by decide, by decide⟩
  | int n =>
    cases n with
    | ofNat n =>
      obtain ⟨c, t, ht, hc⟩ := Text.exists_ofNat n
      refine ⟨c, t, by rw [pieces, List.flatten_singleton, Text.ofInt, ht],
        not_isSpace_of_isDigit hc, ?_, ?_⟩ <;> rintro rfl <;> cases hc
    | negSucc n => exact ⟨_, _, rfl, by decide, by decide, by decide⟩
  | float x => cases h
  | text t => exact ⟨_, _, rfl, by decide, by decide, by decide⟩
  | list items =>
    cases items with
    | nil => exact ⟨_, _, rfl, by decide, by decide, by decide⟩
    | cons v vs => exact ⟨_, _, flatten_pieces_list v vs, by decide, by decide, by decide⟩
  | object members => cases members <;> exact ⟨_, _, rfl, by decide, by decide, by decide⟩

theorem skipSpace_newLine (hindent : indent.all isSpace) (t : Text) :
    skipSpace (newLine indent depth ++ t) = skipSpace t := by
  have hall : ∀ c ∈ newLine indent depth, isSpace c = true := by
    rw [newLine, List.forall_mem_cons]
    refine ⟨by decide, fun c hc ↦ ?_⟩
    obtain ⟨i, hi, hc⟩ := List.mem_flatten.mp hc
    exact List.all_eq_true.mp hindent c (List.eq_of_mem_replicate hi ▸ hc)
  rw [skipSpace, List.dropWhile_append_of_pos hall]
  rfl

/-- A value is read off what is written for it, wherever that stands. -/
def ReadsBack (indent : Text) (v : Json) : Prop :=
  ∀ depth fuel rest, EndsValue rest → (pieces indent depth v).flatten.length ≤ fuel →
    value fuel ((pieces indent depth v).flatten ++ rest) = .ok (v, rest)

theorem skipSpace_of_not_isSpace {c : CodePoint} (hc : isSpace c = false) (t : Text) :
    skipSpace (c :: t) = c :: t := by
  rw [skipSpace, List.dropWhile_cons, if_neg (Bool.eq_false_iff.mp hc)]

theorem skipSpace_pieces (h : v.isWhole) (t : Text) :
    skipSpace ((pieces indent depth v).flatten ++ t) = (pieces indent depth v).flatten ++ t := by
  obtain ⟨c, r, hv, hc, -⟩ := exists_pieces indent depth h
  rw [hv, List.cons_append, skipSpace_of_not_isSpace hc]

theorem endsValue_newLine (t : Text) : EndsValue (newLine indent depth ++ t) := by
  rintro c ⟨⟩
  exact .inl rfl

theorem endsValue_comma (t : Text) : EndsValue ((',' : CodePoint) :: t) := by
  rintro c ⟨⟩
  exact .inr rfl

section items

variable {vs before : List Json}

theorem items_item (hv : ReadsBack indent v) {after : Text} (hafter : EndsValue after)
    (hfuel : (pieces indent depth v).flatten.length ≤ fuel) :
    items (fuel + 1) before ((pieces indent depth v).flatten ++ after) = match skipSpace after with
      | c :: r =>
        if c = ']' then .ok (.list (v :: before).reverse, r)
        else if c = ',' then items fuel (v :: before) (skipSpace r)
        else .error (.fault .commaExpected (c :: r))
      | [] => .error (.fault .commaExpected []) := by
  rw [items, hv _ _ _ hafter hfuel]
  rfl

/-- The items of a list behind the first are read off what is written for them. -/
theorem items_pieces (hindent : indent.all isSpace) (hwhole : ∀ w ∈ v :: vs, w.isWhole)
    (hvs : ∀ w ∈ v :: vs, ReadsBack indent w) {d : Nat}
    (hfuel : ((pieces indent depth v).flatten ++
      (itemPieces indent depth "," vs).flatten).length < fuel) :
    items fuel before ((pieces indent depth v).flatten ++
        ((itemPieces indent depth "," vs).flatten ++ (newLine indent d ++ ("]" ++ rest)))) =
      .ok (.list (before.reverse ++ v :: vs), rest) := by
  -- `before` holds the items that are read, the last of them first
  induction vs generalizing v before fuel with
  | nil =>
    obtain ⟨fuel, rfl⟩ := Nat.exists_eq_add_one.mpr (Nat.zero_lt_of_lt hfuel)
    have hclose : skipSpace (newLine indent d ++ ("]" ++ rest)) = (']' : CodePoint) :: rest := by
      rw [skipSpace_newLine hindent]
      rfl
    rw [itemPieces, List.flatten_nil, List.append_nil] at hfuel
    rw [itemPieces, List.flatten_nil, List.nil_append, items_item (hvs v List.mem_cons_self)
      (endsValue_newLine _) (Nat.lt_succ_iff.mp hfuel), hclose]
    simp
  | cons w ws ih =>
    obtain ⟨fuel, rfl⟩ := Nat.exists_eq_add_one.mpr (Nat.zero_lt_of_lt hfuel)
    obtain ⟨hvwhole, hwhole⟩ := List.forall_mem_cons.mp hwhole
    obtain ⟨hv, hvs⟩ := List.forall_mem_cons.mp hvs
    have hw : w.isWhole := hwhole w List.mem_cons_self
    have hnext (t : Text) : (itemPieces indent depth "," (w :: ws)).flatten ++ t =
        (',' : CodePoint) :: (newLine indent depth ++ ((pieces indent depth w).flatten ++
          ((itemPieces indent depth "," ws).flatten ++ t))) := by
      rw [flatten_itemPieces]
      simp only [List.append_assoc]
      rfl
    have hlength := congrArg List.length (hnext [])
    simp only [List.append_nil, List.length_cons, List.length_append] at hlength hfuel
    rw [hnext, items_item hv (endsValue_comma _) (by omega),
      skipSpace_of_not_isSpace (by decide)]
    simp only [if_true, if_neg (show (',' : CodePoint) ≠ ']' by decide)]
    rw [skipSpace_newLine hindent, skipSpace_pieces hw,
      ih hwhole hvs (by rw [List.length_append]; omega)]
    simp

end items

section members

variable {ms : List (Text × Json)} {before : Assoc Text Json} {k : Text}

theorem members_member (hwhole : v.isWhole) (hv : ReadsBack indent v) {after : Text}
    (hafter : EndsValue after) (hfuel : (pieces indent depth v).flatten.length ≤ fuel) :
    members (fuel + 1) before
        (plainString k ++ (": " ++ ((pieces indent depth v).flatten ++ after))) =
      match skipSpace after with
      | c :: r =>
        if c = '}' then .ok (.object (before.insert k v), r)
        else if c = ',' then members fuel (before.insert k v) (skipSpace r)
        else .error (.fault .commaExpected (c :: r))
      | [] => .error (.fault .commaExpected []) := by
  have hbind {α β : Type} (a : α) (f : α → Except Stop β) : (Except.ok a >>= f) = f a := rfl
  have hcolon (t : Text) : skipSpace (": " ++ t) =
      (':' : CodePoint) :: ((' ' : CodePoint) :: t) := rfl
  have hspace (t : Text) : skipSpace ((' ' : CodePoint) :: t) = skipSpace t := rfl
  rw [plainString_append, members]
  simp only [if_true, stringTail_plainLiteral, List.reverse_nil, List.nil_append, hbind,
    hcolon, hspace, skipSpace_pieces hwhole, hv _ _ _ hafter hfuel]
  rfl

/-- The members of an object are read off what is written for them. -/
theorem members_pieces (hindent : indent.all isSpace) (hnil : ms ≠ [])
    (hwhole : ∀ m ∈ ms, m.2.isWhole) (hms : ∀ m ∈ ms, ReadsBack indent m.2)
    (hkeys : (Assoc.keys (before ++ ms)).Nodup) {d : Nat}
    (hfuel : (memberPieces indent depth ms).flatten.length < fuel) :
    members fuel before ((memberPieces indent depth ms).flatten ++
        (newLine indent d ++ ("\x7d" ++ rest))) =
      .ok (.object (before ++ ms), rest) := by
  induction ms generalizing before fuel with
  | nil => exact absurd rfl hnil
  | cons m ms ih =>
    obtain ⟨k, v⟩ := m
    obtain ⟨fuel, rfl⟩ := Nat.exists_eq_add_one.mpr (Nat.zero_lt_of_lt hfuel)
    have hvwhole : v.isWhole := hwhole _ List.mem_cons_self
    have hv : ReadsBack indent v := hms _ List.mem_cons_self
    replace hwhole := (List.forall_mem_cons.mp hwhole).2
    replace hms := (List.forall_mem_cons.mp hms).2
    -- no key comes twice, so that a member goes behind those that are read
    have hk : k ∉ before.keys := by
      rw [Assoc.keys, List.map_append, List.nodup_append] at hkeys
      exact fun hk ↦ hkeys.2.2 k hk k List.mem_cons_self rfl
    cases ms with
    | nil =>
      have hclose : skipSpace (newLine indent d ++ ("\x7d" ++ rest)) =
          ('}' : CodePoint) :: rest := by
        rw [skipSpace_newLine hindent]
        rfl
      rw [flatten_memberPieces_singleton, List.length_append] at hfuel
      rw [flatten_memberPieces_singleton, List.append_assoc, List.append_assoc,
        members_member hvwhole hv (endsValue_newLine _) (by omega), hclose]
      simp only [if_true, Assoc.insert_of_notMem v hk]
    | cons m ms =>
      have hnext (t : Text) : "," ++ newLine indent depth ++
          (memberPieces indent depth (m :: ms)).flatten ++ t =
          (',' : CodePoint) :: (newLine indent depth ++
            ((memberPieces indent depth (m :: ms)).flatten ++ t)) := by
        simp only [List.append_assoc]
        rfl
      have hlength := congrArg List.length (hnext [])
      rw [flatten_memberPieces_cons] at hfuel
      simp only [List.append_nil, List.length_cons, List.length_append] at hlength hfuel
      obtain ⟨t, ht⟩ := exists_memberPieces indent depth m ms
      have hkeys' : (Assoc.keys (before ++ [(k, v)] ++ m :: ms)).Nodup := by
        rwa [List.append_assoc]
      have hopen (r : Text) : skipSpace ((memberPieces indent depth (m :: ms)).flatten ++ r) =
          (memberPieces indent depth (m :: ms)).flatten ++ r := by
        rw [ht, List.cons_append, skipSpace_of_not_isSpace (by decide)]
      rw [flatten_memberPieces_cons, List.append_assoc, List.append_assoc, List.append_assoc, hnext,
        members_member hvwhole hv (endsValue_comma _) (by omega),
        skipSpace_of_not_isSpace (by decide), Assoc.insert_of_notMem v hk]
      simp only [if_true, if_neg (show (',' : CodePoint) ≠ '}' by decide)]
      rw [skipSpace_newLine hindent, hopen, ih (List.cons_ne_nil m ms) hwhole hms hkeys' (by omega),
        List.append_assoc, List.singleton_append]

end members

theorem readsBack_list (hindent : indent.all isSpace) {vs : List Json}
    (hwhole : ∀ w ∈ vs, w.isWhole) (hvs : ∀ w ∈ vs, ReadsBack indent w) :
    ReadsBack indent (list vs) := by
  intro depth fuel rest _ hfuel
  cases vs with
  | nil =>
    obtain ⟨fuel, rfl⟩ := Nat.exists_eq_add_one.mpr (Nat.zero_lt_of_lt hfuel)
    rw [value.eq_def]
    rfl
  | cons v vs =>
    have htext (t : Text) : (pieces indent depth (list (v :: vs))).flatten ++ t =
        ('[' : CodePoint) :: (newLine indent (depth + 1) ++
          ((pieces indent (depth + 1) v).flatten ++
            ((itemPieces indent (depth + 1) "," vs).flatten ++
              (newLine indent depth ++ ("]" ++ t))))) := by
      rw [flatten_pieces_list]
      simp only [List.append_assoc]
      rfl
    have hclose : List.length ("]" : Text) = 1 := rfl
    have hlength := congrArg List.length (htext [])
    simp only [List.append_nil, List.length_cons, List.length_append] at hlength
    obtain ⟨fuel, rfl⟩ := Nat.exists_eq_add_one.mpr (by omega : 0 < fuel)
    have hwhole' := hwhole v List.mem_cons_self
    obtain ⟨c, r, hc, -, hnot, -⟩ := exists_pieces indent (depth + 1) hwhole'
    have hitems : items fuel [] ((pieces indent (depth + 1) v).flatten ++
        ((itemPieces indent (depth + 1) "," vs).flatten ++ (newLine indent depth ++ ("]" ++ rest)))) =
          .ok (.list (v :: vs), rest) :=
      items_pieces hindent hwhole hvs (by rw [List.length_append]; omega)
    rw [htext, value.eq_def]
    simp only [if_true, if_neg (show ('[' : CodePoint) ≠ '"' by decide), skipSpace_newLine hindent,
      skipSpace_pieces hwhole']
    rw [hc, List.cons_append] at hitems ⊢
    simp only [if_neg hnot]
    exact hitems

theorem readsBack_object (hindent : indent.all isSpace) {ms : List (Text × Json)}
    (hkeys : (Assoc.keys ms).Nodup) (hwhole : ∀ m ∈ ms, m.2.isWhole)
    (hms : ∀ m ∈ ms, ReadsBack indent m.2) : ReadsBack indent (object ms) := by
  intro depth fuel rest _ hfuel
  cases ms with
  | nil =>
    obtain ⟨fuel, rfl⟩ := Nat.exists_eq_add_one.mpr (Nat.zero_lt_of_lt hfuel)
    rw [value.eq_def]
    rfl
  | cons m ms =>
    have htext (t : Text) : (pieces indent depth (object (m :: ms))).flatten ++ t =
        ('{' : CodePoint) :: (newLine indent (depth + 1) ++
          ((memberPieces indent (depth + 1) (m :: ms)).flatten ++
            (newLine indent depth ++ ("\x7d" ++ t)))) := by
      rw [flatten_pieces_object]
      simp only [List.append_assoc]
      rfl
    have hclose : List.length ("\x7d" : Text) = 1 := rfl
    have hlength := congrArg List.length (htext [])
    simp only [List.append_nil, List.length_cons, List.length_append] at hlength
    obtain ⟨fuel, rfl⟩ := Nat.exists_eq_add_one.mpr (by omega : 0 < fuel)
    obtain ⟨t, ht⟩ := exists_memberPieces indent (depth + 1) m ms
    have hmembers : members fuel [] ((memberPieces indent (depth + 1) (m :: ms)).flatten ++
        (newLine indent depth ++ ("\x7d" ++ rest))) = .ok (.object (m :: ms), rest) :=
      members_pieces hindent (List.cons_ne_nil m ms) hwhole hms hkeys (by omega)
    rw [htext, value.eq_def]
    simp only [if_true, if_neg (show ('{' : CodePoint) ≠ '"' by decide),
      if_neg (show ('{' : CodePoint) ≠ '[' by decide), skipSpace_newLine hindent]
    rw [ht, List.cons_append] at hmembers ⊢
    rw [skipSpace_of_not_isSpace (by decide)]
    simp only [if_neg (show ('"' : CodePoint) ≠ '}' by decide)]
    exact hmembers

theorem readsBack (hindent : indent.all isSpace) (hread : v.all isReadable)
    (hwhole : v.all isWhole) : ReadsBack indent v := by
  induction v using induct with
  | h v ih =>
    obtain ⟨hvread, hpartsRead⟩ := all_iff.mp hread
    obtain ⟨hvwhole, hpartsWhole⟩ := all_iff.mp hwhole
    have hparts : ∀ w ∈ v.parts, w.isWhole ∧ ReadsBack indent w := fun w hw ↦
      ⟨(all_iff.mp (hpartsWhole w hw)).1, ih w hw (hpartsRead w hw) (hpartsWhole w hw)⟩
    have hfirst {depth fuel : Nat} (h : (pieces indent depth v).flatten.length ≤ fuel) :
        ∃ k, fuel = k + 1 := by
      obtain ⟨c, r, hc, -⟩ := exists_pieces indent depth hvwhole
      rw [hc] at h
      exact Nat.exists_eq_add_one.mpr (Nat.zero_lt_of_lt h)
    cases v with
    | list vs =>
      exact readsBack_list hindent (fun w hw ↦ (hparts w hw).1) fun w hw ↦ (hparts w hw).2
    | object ms =>
      have hms : ∀ m ∈ ms, m.2.isWhole ∧ ReadsBack indent m.2 := fun m hm ↦
        hparts m.2 (List.mem_map_of_mem hm)
      exact readsBack_object hindent (of_decide_eq_true hvread) (fun m hm ↦ (hms m hm).1)
        fun m hm ↦ (hms m hm).2
    | float x => cases hvwhole
    | null =>
      intro depth fuel rest _ hfuel
      obtain ⟨fuel, rfl⟩ := hfirst hfuel
      exact value_word (e := ("null", .null)) (by simp [words])
    | bool b =>
      intro depth fuel rest _ hfuel
      obtain ⟨fuel, rfl⟩ := hfirst hfuel
      rw [pieces, List.flatten_singleton]
      cases b with
      | false => exact value_word (e := ("false", .bool false)) (by simp [words])
      | true => exact value_word (e := ("true", .bool true)) (by simp [words])
    | int n =>
      intro depth fuel rest hrest hfuel
      obtain ⟨fuel, rfl⟩ := hfirst hfuel
      rw [pieces, List.flatten_singleton]
      rw [isReadable, decide_eq_true_eq] at hvread
      exact value_ofInt hvread hrest
    | text t =>
      intro depth fuel rest _ hfuel
      obtain ⟨fuel, rfl⟩ := hfirst hfuel
      rw [pieces, List.flatten_singleton]
      exact value_plainString t

/-- What is written over several lines reads as the value. -/
theorem document_indented (hindent : indent.all isSpace) (hread : v.all isReadable)
    (hwhole : v.all isWhole) : document (v.indented indent) = .ok v := by
  have hvalue : value (2 * (v.indented indent).length + 2) (v.indented indent ++ []) =
      .ok (v, []) :=
    readsBack hindent hread hwhole 0 _ [] nofun (by change (v.indented indent).length ≤ _; omega)
  have hskip : skipSpace (v.indented indent ++ []) = v.indented indent ++ [] :=
    skipSpace_pieces (all_iff.mp hwhole).1 []
  rw [List.append_nil] at hvalue hskip
  rw [document, hskip, hvalue]
  rfl

theorem readDecoded_indented (hindent : indent.all isSpace) (hread : v.all isReadable)
    (hwhole : v.all isWhole) : readDecoded (v.indented indent) = .ok v := by
  rw [readDecoded, document_indented hindent hread hwhole]

theorem read_indented (hindent : indent.all isSpace) (hread : v.all isReadable)
    (hwhole : v.all isWhole) : Json.read (v.indented indent) = .ok v := by
  have hmark : (v.indented indent).head? ≠ some 0xFEFF := by
    obtain ⟨c, r, hc, -, -, hmark⟩ := exists_pieces indent 0 (all_iff.mp hwhole).1
    rw [indented, hc, List.head?_cons]
    exact fun h ↦ hmark (Option.some.inj h)
  rw [Json.read, if_neg hmark, readDecoded_indented hindent hread hwhole]

end Json

end OntologyStructs
