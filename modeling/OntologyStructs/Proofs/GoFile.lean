import OntologyStructs.Generation
import OntologyStructs.Proofs.Json.Portable
import OntologyStructs.Proofs.Lines
import OntologyStructs.Proofs.Naming
import OntologyStructs.Proofs.Struct

namespace OntologyStructs

theorem Text.padRight_append_space (width : Nat) (t : Text) : (t.padRight width ++ " " : Text) =
    t ++ List.replicate (width - t.length + 1) (' ' : CodePoint) := by
  rw [padRight, List.append_assoc, List.replicate_succ']
  rfl

namespace GoFile

structure Row where
  name : Text
  type : Text
  tag : Text
  deriving DecidableEq, Repr

structure Shown where
  name : Text
  doc : List Text
  rows : List Row
  deriving DecidableEq, Repr

def Row.ofField (f : Field) : Row := ⟨f.name, f.goType, f.goTag⟩

def Shown.ofStruct (s : Struct) : Shown := ⟨s.name, s.doc, s.fields.map Row.ofField⟩

/-- The first text up to a space, and what follows the spaces behind it. -/
def readColumn (t : Text) : Text × Text :=
  (t.takeWhile fun (c : CodePoint) ↦ c ≠ ' ',
    (t.dropWhile fun (c : CodePoint) ↦ c ≠ ' ').dropWhile fun (c : CodePoint) ↦ c = ' ')

def readRow (t : Text) : Row :=
  let (name, t) := readColumn t
  let (type, tag) := readColumn t
  ⟨name, type, tag⟩

/-- Takes a line to the lines of a struct behind it, which end where a blank line comes before them. -/
def readLine (line : Text) : Shown × List Shown → Shown × List Shown
  | (s, ss) => match line with
    | [] => (⟨[], [], []⟩, s :: ss)
    | c :: r =>
      if c = '/' then ({ s with doc := r.drop 2 :: s.doc }, ss)
      else if c = 't' then ({ s with name := (readColumn (r.drop 4)).1 }, ss)
      else if c = '\t' then ({ s with rows := readRow r :: s.rows }, ss)
      else (s, ss)

def read (t : Text) : Option (Text × List Shown) :=
  match t.splitOn '\n' with
  | _ :: _ :: clause :: ls =>
    some (clause.drop 8, (ls.dropLast.foldr readLine (⟨[], [], []⟩, [])).2)
  | _ => none

def readTag (t : Text) : Option Text :=
  match Json.read (t.drop 6).dropLast with
  | .ok v => v.text?
  | .error _ => none

theorem readTag_goTag {f : Field} (h : f.tag.Unsplit) : readTag f.goTag = some f.tag := by
  have hdrop : (f.goTag.drop 6).dropLast = Json.asciiString f.tag := by
    have hmark : f.goTag.drop 6 = Json.asciiString f.tag ++ "`" := rfl
    rw [hmark]
    exact List.dropLast_concat
  rw [readTag, hdrop, Json.read_asciiString h]
  rfl

theorem readColumn_padRight {t u : Text} (ht : ∀ c ∈ t, c ≠ ' ') (hu : ∀ c ∈ u.head?, c ≠ ' ')
    (width : Nat) : readColumn (t.padRight width ++ " " ++ u) = (t, u) := by
  have hspaces (k : Nat) : ∀ c ∈ List.replicate (k + 1) (' ' : CodePoint), decide (c = ' ') = true := by
    intro c hc
    exact decide_eq_true (List.eq_of_mem_replicate hc)
  have hword : ∀ c ∈ t, decide (c ≠ ' ') = true := fun c hc ↦ decide_eq_true (ht c hc)
  have hrest : u.dropWhile (fun (c : CodePoint) ↦ c = ' ') = u := by
    cases u with
    | nil => rfl
    | cons c u => exact List.dropWhile_cons_of_neg (by simpa using hu c rfl)
  have hstop (k : Nat) : ((List.replicate (k + 1) (' ' : CodePoint) ++ u).takeWhile
      fun (c : CodePoint) ↦ c ≠ ' ') = [] := by
    simp [List.replicate_succ]
  have hkeep (k : Nat) : ((List.replicate (k + 1) (' ' : CodePoint) ++ u).dropWhile
      fun (c : CodePoint) ↦ c ≠ ' ') = List.replicate (k + 1) (' ' : CodePoint) ++ u := by
    simp [List.replicate_succ]
  rw [Text.padRight_append_space, List.append_assoc, readColumn, List.takeWhile_append_of_pos hword,
    List.dropWhile_append_of_pos hword, hstop, hkeep, List.dropWhile_append_of_pos (hspaces _), hrest,
    List.append_nil]

end GoFile

/-- Nothing that a row shows looks like the gap behind it: there is no space in the name and in the type,
and the type is not empty. -/
structure Field.Legible (f : Field) : Prop where
  name : (' ' : CodePoint) ∉ f.name
  type : (' ' : CodePoint) ∉ f.typeName
  shown : f.goType ≠ []

/-- Names and types are made of letters and digits, and no type is empty. -/
structure Field.Plain (f : Field) : Prop where
  name : ∀ c ∈ f.name, c.isAlphanumeric
  type : ∀ c ∈ f.typeName, c.isAlphanumeric
  shown : f.goType ≠ []

theorem Field.Plain.legible {f : Field} (h : f.Plain) : f.Legible where
  name hc := absurd (h.name _ hc) (by decide)
  type hc := absurd (h.type _ hc) (by decide)
  shown := h.shown

structure Struct.Plain (s : Struct) : Prop where
  name : ∀ c ∈ s.name, c.isAlphanumeric
  doc : ∀ line ∈ s.doc, ∀ c ∈ line, c.endsLine = false
  fields : ∀ f ∈ s.fields, f.Plain

namespace Struct

theorem plain_childField (keep : Bool) (child : Text) : (childField keep child).Plain where
  name := (Naming.capitalized_typeName keep child).1
  type := (Naming.capitalized_typeName keep child).1
  shown := nofun

theorem plain_header {f : Field} (hf : f ∈ header) : f.Plain := by
  have hnames : header.all fun f ↦ f.name.all CodePoint.isAlphanumeric &&
      f.typeName.all CodePoint.isAlphanumeric && !f.goType.isEmpty := by decide
  have h := List.all_eq_true.mp hnames f hf
  simp only [Bool.and_eq_true, List.all_eq_true, Bool.not_eq_true', List.isEmpty_eq_false_iff] at h
  exact ⟨h.1.1, h.1.2, h.2⟩

theorem plain_ofNode (keep : Bool) (n : Node) (children : List Text) :
    (ofNode keep n children).Plain where
  name := (Naming.capitalized_typeName keep n.id).1
  doc := by
    intro line hline c hc
    obtain ⟨l, hl, rfl⟩ := List.mem_map.mp hline
    exact Text.endsLine_of_mem_lines hl (Text.mem_of_mem_trimRight hc)
  fields := by
    intro f hf
    rcases List.mem_append.mp hf with hf | hf
    · exact plain_header hf
    · obtain ⟨child, _, rfl⟩ := List.mem_map.mp hf
      exact plain_childField keep child

end Struct

namespace GoFile

variable {s : Struct} {f : Field}

theorem mem_goType {c : CodePoint} (hc : c ∈ f.goType) :
    c ∈ f.typeName ∨ c ∈ ("[]*" : Text) := by
  rw [Field.goType] at hc
  split at hc
  · exact (List.mem_append.mp hc).symm
  · exact .inl hc

theorem readRow_row (hf : f.Legible) (nameWidth typeWidth : Nat) :
    readRow (f.name.padRight nameWidth ++ " " ++ f.goType.padRight typeWidth ++ " " ++ f.goTag) =
      Row.ofField f := by
  have hname : ∀ c ∈ f.name, c ≠ ' ' := fun c hc hspace ↦ hf.name (hspace ▸ hc)
  have htype : ∀ c ∈ f.goType, c ≠ ' ' := by
    rintro c hc rfl
    exact (mem_goType hc).elim hf.type (by decide)
  have hfirst : ∀ c ∈ (f.goType.padRight typeWidth ++ " " ++ f.goTag : Text).head?, c ≠ ' ' := by
    intro c hc
    obtain ⟨d, t, ht⟩ := List.exists_cons_of_ne_nil hf.shown
    rw [ht] at hc
    obtain rfl : d = c := Option.some.inj hc
    exact htype d (ht ▸ List.mem_cons_self)
  have htag : ∀ c ∈ f.goTag.head?, c ≠ ' ' := by
    rintro _ ⟨⟩
    decide
  have hsplit : (f.name.padRight nameWidth ++ " " ++ f.goType.padRight typeWidth ++ " " ++
      f.goTag : Text) = (f.name.padRight nameWidth ++ " " ++
        (f.goType.padRight typeWidth ++ " " ++ f.goTag) : Text) := by
    simp only [List.append_assoc]
  rw [hsplit, readRow, readColumn_padRight hname hfirst]
  dsimp only
  rw [readColumn_padRight htype htag]
  rfl

theorem readRow_rows {fields : List Field} (h : ∀ f ∈ fields, f.Legible) :
    (rows fields).map readRow = fields.map Row.ofField := by
  rw [rows, List.map_map]
  exact List.map_congr_left fun f hf ↦ readRow_row (h f hf) _ _

theorem foldr_readLine_rows (ls : List Text) (s : Shown) (ss : List Shown) :
    (ls.map (("\t" : Text) ++ ·)).foldr readLine (s, ss) =
      ({ s with rows := ls.map readRow ++ s.rows }, ss) := by
  induction ls with
  | nil => rfl
  | cons l ls ih =>
    rw [List.map_cons, List.foldr_cons, ih]
    rfl

theorem foldr_readLine_doc (ls : List Text) (s : Shown) (ss : List Shown) :
    (ls.map docLine).foldr readLine (s, ss) = ({ s with doc := ls ++ s.doc }, ss) := by
  induction ls with
  | nil => rfl
  | cons l ls ih =>
    rw [List.map_cons, List.foldr_cons, ih]
    cases l <;> rfl

theorem readLine_name {name : Text} (h : ∀ c ∈ name, c ≠ ' ') (s : Shown) (ss : List Shown) :
    readLine ("type " ++ name ++ " struct \x7b") (s, ss) = ({ s with name := name }, ss) := by
  have hbrace : ∀ c ∈ ("struct \x7b" : Text).head?, c ≠ ' ' := by
    rintro _ ⟨⟩
    decide
  have hcolumn : readColumn (name ++ " struct \x7b" : Text) = (name, ("struct \x7b" : Text)) := by
    rw [← readColumn_padRight h hbrace 0, Text.padRight, Nat.zero_sub, List.replicate_zero,
      List.append_nil, List.append_assoc]
    rfl
  have hline : readLine ("type " ++ name ++ " struct \x7b") (s, ss) =
      ({ s with name := (readColumn (name ++ " struct \x7b" : Text)).1 }, ss) := rfl
  rw [hline, hcolumn]

theorem foldr_structLines (hs : s.Plain) (ss : List Shown) :
    (structLines s).foldr readLine (⟨[], [], []⟩, ss) = (⟨[], [], []⟩, Shown.ofStruct s :: ss) := by
  have hname : ∀ c ∈ s.name, c ≠ ' ' := fun c hc ↦
    CodePoint.ne_of_isAlphanumeric (hs.name c hc) (by decide)
  have hrows : ∀ f ∈ s.fields, f.Legible := fun f hf ↦ (hs.fields f hf).legible
  -- from the last line to the first: the brace, the rows, the name, the comment and the blank line
  have hend (t : Shown) : readLine "\x7d" (t, ss) = (t, ss) := rfl
  simp only [structLines, List.foldr_append, List.foldr_cons, List.foldr_nil, hend,
    foldr_readLine_rows, readLine_name hname, foldr_readLine_doc, readRow_rows hrows, List.append_nil]
  rfl

theorem foldr_flatMap_structLines {ss : List Struct} (h : ∀ s ∈ ss, s.Plain) :
    (ss.flatMap structLines).foldr readLine (⟨[], [], []⟩, []) =
      (⟨[], [], []⟩, ss.map Shown.ofStruct) := by
  induction ss with
  | nil => rfl
  | cons s ss ih =>
    obtain ⟨hs, hss⟩ := List.forall_mem_cons.mp h
    rw [List.flatMap_cons, List.foldr_append, ih hss, foldr_structLines hs]
    rfl

theorem isPlainAscii_of_alphanumeric {t : Text} (h : ∀ c ∈ t, c.isAlphanumeric) : t.isPlainAscii :=
  List.all_eq_true.mpr fun c hc ↦ by
    have hc' := h c hc
    rw [CodePoint.isAlphanumeric_iff, CodePoint.isUpper_iff, CodePoint.isLower_iff,
      CodePoint.isDigit_iff] at hc'
    rw [CodePoint.isPlainAscii_iff]
    omega

theorem isPlainAscii_goTag (f : Field) : f.goTag.isPlainAscii := by
  have hliteral : (Json.asciiString f.tag).isPlainAscii := Json.isPlainAscii_asciiString f.tag
  rw [Field.goTag, Text.isPlainAscii_append, Text.isPlainAscii_append, hliteral]
  rfl

theorem isPlainAscii_goType (hf : f.Plain) : f.goType.isPlainAscii := by
  have htype := isPlainAscii_of_alphanumeric hf.type
  rw [Field.goType]
  split
  · rw [Text.isPlainAscii_append, htype]
    rfl
  · exact htype

theorem isPlainAscii_of_mem_rows {fields : List Field} (h : ∀ f ∈ fields, f.Plain) {row : Text}
    (hrow : row ∈ rows fields) : row.isPlainAscii := by
  obtain ⟨f, hf, rfl⟩ := List.mem_map.mp hrow
  have hpad (k : Nat) : Text.isPlainAscii (List.replicate k ' ') := Text.isPlainAscii_replicate rfl k
  have hname := isPlainAscii_of_alphanumeric (h f hf).name
  simp only [Text.padRight, Text.isPlainAscii_append, hpad, hname, isPlainAscii_goType (h f hf),
    isPlainAscii_goTag]
  rfl

/-- Only in comments there is more than printable ASCII and tabs. -/
theorem mem_of_mem_structLines (hs : s.Plain) {l : Text} (hl : l ∈ structLines s) {c : CodePoint}
    (hc : c ∈ l) : c.isPlainAscii ∨ c = '\t' ∨ ∃ line ∈ s.doc, c ∈ line := by
  have hplain {t : Text} (ht : t.isPlainAscii) (hc : c ∈ t) : c.isPlainAscii := List.all_eq_true.mp ht c hc
  simp only [structLines, List.mem_append, List.mem_cons, List.mem_map, List.not_mem_nil,
    or_false] at hl
  rcases hl with (((rfl | ⟨line, hline, rfl⟩) | rfl) | ⟨row, hrow, rfl⟩) | rfl
  · cases hc
  · rw [docLine] at hc
    split at hc
    · exact .inl (hplain rfl hc)
    · rcases List.mem_append.mp hc with hc | hc
      · exact .inl (hplain rfl hc)
      · exact .inr (.inr ⟨line, hline, hc⟩)
  · have hname := isPlainAscii_of_alphanumeric hs.name
    refine .inl (hplain ?_ hc)
    rw [Text.isPlainAscii_append, Text.isPlainAscii_append, hname]
    rfl
  · rcases List.mem_append.mp hc with hc | hc
    · exact .inr (.inl (List.mem_singleton.mp hc))
    · exact .inl (hplain (isPlainAscii_of_mem_rows hs.fields hrow) hc)
  · exact .inl (hplain rfl hc)

theorem isLine_of_mem_structLines (hs : s.Plain) {l : Text} (hl : l ∈ structLines s) : l.IsLine := by
  intro hc
  rcases mem_of_mem_structLines hs hl hc with hplain | htab | ⟨line, hline, hc⟩
  · exact absurd hplain (by decide)
  · exact absurd htab (by decide)
  · exact absurd (hs.doc line hline _ hc) (by decide)

variable {package : Text} {ss : List Struct}

theorem splitOn_render (hp : package.IsLine) (h : ∀ s ∈ ss, s.Plain) :
    (render package ss).splitOn '\n' = lines package ss ++ [[]] := by
  apply Text.splitOn_flatMap_lines
  intro l hl
  rcases List.mem_append.mp hl with hl | hl
  · simp only [List.mem_cons, List.not_mem_nil, or_false] at hl
    rcases hl with rfl | rfl | rfl
    · decide
    · exact Text.isLine_nil
    · exact Text.isLine_append.mpr ⟨by decide, hp⟩
  · obtain ⟨s, hs, hl⟩ := List.mem_flatMap.mp hl
    exact isLine_of_mem_structLines (h s hs) hl

theorem read_render (hp : package.IsLine) (h : ∀ s ∈ ss, s.Plain) :
    read (render package ss) = some (package, ss.map Shown.ofStruct) := by
  have hlines : lines package ss ++ [[]] = ("// Code generated by schemagen. DO NOT EDIT." : Text) ::
      [] :: ("package " ++ package : Text) :: (ss.flatMap structLines ++ [[]]) := rfl
  rw [read, splitOn_render hp h, hlines]
  dsimp only
  rw [List.dropLast_concat, foldr_flatMap_structLines h]
  rfl

/-- There are bytes for a file, if there are for the name of its package and for the comments. -/
theorem isEncodable_render (hp : package.isEncodable) (h : ∀ s ∈ ss, s.Plain)
    (hdoc : ∀ s ∈ ss, ∀ line ∈ s.doc, line.isEncodable) : (render package ss).isEncodable := by
  have hlines : ∀ l ∈ lines package ss, l.isEncodable := by
    intro l hl
    rcases List.mem_append.mp hl with hl | hl
    · simp only [List.mem_cons, List.not_mem_nil, or_false] at hl
      rcases hl with rfl | rfl | rfl
      · rfl
      · rfl
      · rw [Text.isEncodable_append, hp]
        rfl
    · obtain ⟨s, hs, hl⟩ := List.mem_flatMap.mp hl
      refine List.all_eq_true.mpr fun c hc ↦ ?_
      rcases mem_of_mem_structLines (h s hs) hl hc with hplain | rfl | ⟨line, hline, hc⟩
      · rw [CodePoint.isSurrogate_of_isPlainAscii hplain]
        rfl
      · rfl
      · exact List.all_eq_true.mp (hdoc s hs line hline) c hc
  rw [render, Text.isEncodable, List.all_flatMap]
  refine List.all_eq_true.mpr fun l hl ↦ ?_
  have hline : Text.isEncodable (l ++ "\n") := by
    rw [Text.isEncodable_append, hlines l hl]
    rfl
  exact hline

theorem structLines_eq (s : Struct) : structLines s =
    [] :: s.doc.map (fun (line : Text) ↦ if line = [] then ("//" : Text) else "// " ++ line) ++
      [("type " ++ s.name ++ " struct \x7b" : Text)] ++
      (rows s.fields).map (fun row ↦ ("\t" ++ row : Text)) ++ [("\x7d" : Text)] := by
  have hdoc : docLine = fun (line : Text) ↦ if line = [] then ("//" : Text) else "// " ++ line := by
    funext line
    cases line <;> rfl
  rw [structLines, hdoc]

end GoFile

namespace Generated

/-- There are bytes for the source of a resolved ontology, if there are for the comments of its entries. -/
theorem isEncodable_source {package : Text} (hp : package.isEncodable) {r : Resolved} (keep : Bool)
    (h : ∀ id n, r.ontology.get? id = some n → n.comment.value.isEncodable) :
    (ofResolved keep package r).source.isEncodable := by
  refine GoFile.isEncodable_render hp ?_ ?_
  · intro s hs
    obtain ⟨_, p, n, _, _, rfl⟩ := Struct.mem_all.mp hs
    exact Struct.plain_ofNode keep n _
  · intro s hs line hline
    obtain ⟨id, p, n, hid, hn, rfl⟩ := Struct.mem_all.mp hs
    have hget : r.ontology.get? id = some n := Option.bind_eq_some_iff.mpr ⟨p, hid, hn⟩
    refine List.all_eq_true.mpr fun c hc ↦ List.all_eq_true.mp (h id n hget) c ?_
    -- the lines of a comment hold nothing but what the comment holds
    obtain ⟨l, hl, rfl⟩ := List.mem_map.mp hline
    have hflat : c ∈ n.comment.value.lines.flatten :=
      List.mem_flatten.mpr ⟨l, hl, Text.mem_of_mem_trimRight hc⟩
    rw [Text.flatten_lines] at hflat
    exact (List.mem_filter.mp hflat).1

/-- A file is the lines of its structs, whatever they hold, and shows each of them in full. -/
theorem source_reads_back {source : Source} {strict leaveOut : Bool} {r : Resolved} {package : Text}
    (h : (Resolved.load source strict leaveOut).result = .ok r) (keep : Bool)
    (hp : ('\n' : CodePoint) ∉ package) :
    ∃ d, (Document.read source).result = .ok d ∧
      (ofResolved keep package r).source.splitOn '\n' =
        [("// Code generated by schemagen. DO NOT EDIT." : Text), [], "package " ++ package] ++
        (ofResolved keep package r).structs.flatMap (fun s ↦
          [] :: s.doc.map (fun (line : Text) ↦ if line = [] then ("//" : Text) else "// " ++ line) ++
          [("type " ++ s.name ++ " struct \x7b" : Text)] ++
          (GoFile.rows s.fields).map (fun row ↦ ("\t" ++ row : Text)) ++ [("\x7d" : Text)]) ++
        [[]] ∧
      (∀ s ∈ (ofResolved keep package r).structs, (GoFile.rows s.fields).length = s.fields.length ∧
        ∃ n, (Ontology.ofDocument d).get? s.source = some n ∧
          (∀ line ∈ s.doc, ∀ c ∈ line, c.endsLine = false) ∧
          (s.doc.flatten.filter fun c ↦ !c.isBlank) = n.comment.value.filter fun c ↦ !c.isBlank) ∧
      GoFile.read (ofResolved keep package r).source =
        some (package, (ofResolved keep package r).structs.map GoFile.Shown.ofStruct) ∧
      ∀ s ∈ (ofResolved keep package r).structs, ∀ f ∈ s.fields, f.tag.Unsplit →
        GoFile.readTag f.goTag = some f.tag := by
  obtain ⟨d, hd, hr⟩ := Resolved.load_eq_ok h
  have hplain : ∀ s ∈ (ofResolved keep package r).structs, s.Plain := by
    intro s hs
    obtain ⟨_, p, n, _, _, rfl⟩ := Struct.mem_all.mp hs
    exact Struct.plain_ofNode keep n _
  refine ⟨d, hd, ?_, ?_, GoFile.read_render hp hplain, fun _ _ _ _ ↦ GoFile.readTag_goTag⟩
  · have hlines := GoFile.splitOn_render hp hplain
    rw [GoFile.lines, funext GoFile.structLines_eq] at hlines
    exact hlines
  · intro s hs
    have hdoc := (hplain s hs).doc
    obtain ⟨_, p, n, hid, hn, rfl⟩ := Struct.mem_all.mp hs
    -- the identifier that leads to the entry is its own
    obtain ⟨n', hn', rfl⟩ := Ontology.exists_of_position? hid
    obtain rfl : n = n' := Option.some.inj (hn.symm.trans hn')
    rw [Ontology.ontology_of_resolve hr] at hid hn
    refine ⟨List.length_map _, n, ?_, hdoc, Text.filter_trimmed_lines n.comment.value⟩
    exact Option.bind_eq_some_iff.mpr ⟨p, hid, hn⟩

/-- A document whose comment looks like the end of a struct, and whose identifier breaks a line. -/
def brokenLines : Text :=
  "\x7b\"@graph\": [\x7b\"@id\": \"schema:Thing\", \"@type\": \"rdfs:Class\", " ++
  "\"rdfs:comment\": \"first\\n\\u2028\x7d\\n  second \"\x7d, " ++
  "\x7b\"@id\": \"schema:a\\n`b\", \"@type\": \"rdf:Property\", " ++
  "\"schema:domainIncludes\": \x7b\"@id\": \"schema:Thing\"\x7d\x7d]\x7d"

def brokenStructs : List GoFile.Shown := [
  ⟨"Thing", ["first", [], "\x7d", "  second"],
    [⟨"Context", "string", "`json:\"@context\"`"⟩, ⟨"Type", "string", "`json:\"@type\"`"⟩,
      ⟨"PropAB", "[]*PropAB", "`json:\"schema:a\\n`b\"`"⟩]⟩,
  ⟨"PropAB", [],
    [⟨"Context", "string", "`json:\"@context\"`"⟩, ⟨"Type", "string", "`json:\"@type\"`"⟩]⟩]

theorem brokenLines_reads_back :
    ∃ r, (Resolved.load (.text brokenLines) false false).result = .ok r ∧
      ('\n' : CodePoint) ∉ ("structs" : Text) ∧
      GoFile.read (ofResolved false "structs" r).source =
        some (("structs" : Text), brokenStructs) := by
  have hp : ('\n' : CodePoint) ∉ ("structs" : Text) := by decide
  have hshown : (Resolved.load (.text brokenLines) false false).result.toOption.map
      (fun r ↦ (ofResolved false "structs" r).structs.map GoFile.Shown.ofStruct) =
        some brokenStructs := by decide +kernel
  obtain ⟨r, hr, hstructs⟩ := Logged.exists_of_map_eq_some hshown
  obtain ⟨d, _, _, _, hread, _⟩ := source_reads_back hr false hp
  exact ⟨r, hr, hp, hstructs ▸ hread⟩

end Generated

end OntologyStructs
