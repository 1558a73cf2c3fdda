import OntologyStructs.Proofs.FileTree
import OntologyStructs.Proofs.Json.Compact
import OntologyStructs.Proofs.Lines
import OntologyStructs.Proofs.Settings.Loading

namespace OntologyStructs

theorem Text.isAscii_of_isPlainAscii {t : Text} (h : t.isPlainAscii) : ∀ c ∈ t, c.isAscii := by
  intro c hc
  have hplain := CodePoint.isPlainAscii_iff.mp (List.all_eq_true.mp h c hc)
  exact decide_eq_true (by omega)

namespace Settings

variable {tree : FileTree} {t q : Text} {d : List (Text × Json)} {bytes : Bytes}

theorem givenBy_of_isFile (h : tree.isFile (.ofText t) = .ok false) :
    givenBy tree (.text t) = parse (.guess t) t := by
  rw [givenBy, locate, h]
  rfl

theorem givenBy_of_isFile_error {e : FileError} (h : tree.isFile (.ofText t) = .error e) :
    givenBy tree (.text t) = .error (.file e) := by
  rw [givenBy, locate, h]
  rfl

/-- Plain ASCII comes out of a file as it went in. -/
theorem readText_of_isPlainAscii (h : t.isPlainAscii) (hbytes : Utf8.encode t = .ok bytes)
    (hread : tree.read (.ofText q) = .ok bytes) : readText tree (.ofText q) = .ok t := by
  have hencode := Utf8.encode_of_isEncodable (Text.isEncodable_of_isPlainAscii h)
  obtain rfl : bytes = t.flatMap Utf8.encodeOne := Except.ok.inj (hbytes.symm.trans hencode)
  have hreturn : ('\r' : CodePoint) ∉ t := fun hc ↦
    absurd (List.all_eq_true.mp h _ hc) (by decide)
  have hdecode := Utf8.decode_of_isAscii (Text.isAscii_of_isPlainAscii h) false
  rw [readText, hread]
  change (Utf8.decode false _).mapError _ >>= _ = _
  rw [hdecode]
  exact congrArg Except.ok (Text.unifyLineEnds_of_notMem hreturn)

theorem givenBy_of_file (h : t.isPlainAscii) (hbytes : Utf8.encode t = .ok bytes)
    (hread : tree.read (.ofText q) = .ok bytes) :
    givenBy tree (.text q) = parse (.ofFile (.ofText q) t) t := by
  rw [givenBy, locate, FileTree.isFile_of_read hread]
  change ((Logged.ofExcept (readText tree (.ofText q)) >>= _ : Logged _ _)).result >>= _ = _
  rw [readText_of_isPlainAscii h hbytes hread]
  rfl

abbrev objectText (members : List (Text × Json)) : Text := Json.compact (.object members)

theorem guess_objectText (d : List (Text × Json)) : SettingsFormat.guess (objectText d) = .json := by
  rw [objectText, Json.compact]
  rfl

theorem ofFile_objectText {p : Path} (hsuffix : Text.lower p.suffix ∉ [(".toml" : Text), ".tml"])
    (d : List (Text × Json)) : SettingsFormat.ofFile p (objectText d) = .json := by
  rw [List.mem_cons, List.mem_singleton] at hsuffix
  dsimp only [SettingsFormat.ofFile]
  rw [if_neg hsuffix, guess_objectText]
  exact ite_self _

/-- An object gives the same settings as its text, in a file or inline, unless the text is too long to
be looked for as a file. -/
theorem sources_agree (hread : Json.read (objectText d) = .ok (.object d))
    (hfree : tree.isFile (.ofText (objectText d)) ≠ .ok true) :
    (∀ (q : Text) (bytes : Bytes), Utf8.encode (objectText d) = .ok bytes →
      tree.read (.ofText q) = .ok bytes →
      Text.lower (Path.suffix (.ofText q)) ∉ [(".toml" : Text), ".tml"] →
      (load tree (.text q)).result = (load tree (.object d)).result) ∧
    ((Path.ofText (objectText d)).Short →
      (load tree (.text (objectText d))).result = (load tree (.object d)).result) ∧
    ((tree.isFile (.ofText (objectText d)) = .ok false ∧
        (load tree (.text (objectText d))).result = (load tree (.object d)).result) ∨
      ∃ e, e = .system .nameTooLong (.ofText (objectText d)) ∧
        tree.isFile (.ofText (objectText d)) = .error e ∧
        (load tree (.text (objectText d))).result = .error (.file e)) ∧
    ∀ e, (load tree (.object d)).result = .error e → ∃ issues, e = .invalid issues := by
  have hparse : parse .json (objectText d) = givenBy tree (.object d) := by
    rw [parse, hread]
    rfl
  have hinline : (tree.isFile (.ofText (objectText d)) = .ok false ∧
        (load tree (.text (objectText d))).result = (load tree (.object d)).result) ∨
      ∃ e, e = .system .nameTooLong (.ofText (objectText d)) ∧
        tree.isFile (.ofText (objectText d)) = .error e ∧
        (load tree (.text (objectText d))).result = .error (.file e) := by
    cases hfound : tree.isFile (.ofText (objectText d)) with
    | error e =>
      refine .inr ⟨e, (FileTree.isFile_eq_error hfound).1, rfl, ?_⟩
      rw [result_load, givenBy_of_isFile_error hfound]
      rfl
    | ok found =>
      cases found with
      | true => exact absurd hfound hfree
      | false =>
        refine .inl ⟨rfl, ?_⟩
        rw [result_load, result_load, givenBy_of_isFile hfound, guess_objectText, hparse]
  refine ⟨?_, ?_, hinline, ?_⟩
  · intro q bytes hbytes hfile hsuffix
    rw [result_load, result_load, givenBy_of_file (Json.isPlainAscii_compact _) hbytes hfile,
      ofFile_objectText hsuffix, hparse]
  · intro hshort
    rcases hinline with ⟨-, hsame⟩ | ⟨e, -, herror, -⟩
    · exact hsame
    · exact absurd hshort (FileTree.isFile_eq_error herror).2
  · intro e he
    obtain ⟨issues, -, rfl⟩ := mapError_eq_error.mp he
    exact ⟨issues, rfl⟩

def termsMembers : List (Text × Json) :=
  [("package_name", .text "terms"), ("input_path", .text "vocab/terms.jsonld"), ("gofmt", .bool true)]

def termsTree : FileTree where
  entries := [(["terms.conf"], .file ((objectText termsMembers).flatMap Utf8.encodeOne))]
  home := []

theorem terms_sources_agree : ∃ s,
    (load termsTree (.object termsMembers)).result = .ok s ∧
      (load termsTree (.text (objectText termsMembers))).result = .ok s ∧
      (load termsTree (.text "terms.conf")).result = .ok s := by
  have hread : Json.read (objectText termsMembers) = .ok (.object termsMembers) := rfl
  have hfree : termsTree.isFile (.ofText (objectText termsMembers)) ≠ .ok true := by
    decide +kernel
  have hnames : ∀ name ∈ (Path.ofText (objectText termsMembers)).parts,
      Path.nameSize name ≤ Path.nameLimit := by decide +kernel
  have hwhole : Path.nameSize (Path.ofText (objectText termsMembers)).toText ≤
      Path.pathLimit := by decide +kernel
  have hformat : (load termsTree (.object termsMembers)).result.toOption.map format = some true := by
    decide +kernel
  obtain ⟨s, hs, -⟩ := exists_of_toOption_map_eq_some hformat
  obtain ⟨hfile, hinline, -, -⟩ := sources_agree hread hfree
  exact ⟨s, hs, (hinline ⟨hnames, hwhole⟩).trans hs,
    (hfile "terms.conf" _ rfl rfl (by decide +kernel)).trans hs⟩

def longMembers : List (Text × Json) := [("output_path", .text (List.replicate 250 ('a' : CodePoint)))]

set_option maxRecDepth 4000 in
/-- A text that is longer than a name is asked for as a file, and never read. -/
theorem long_sources_differ : ∃ s,
    Json.read (objectText longMembers) = .ok (.object longMembers) ∧
      FileTree.isFile ⟨[], []⟩ (.ofText (objectText longMembers)) ≠ .ok true ∧
      (load ⟨[], []⟩ (.object longMembers)).result = .ok s ∧
      (load ⟨[], []⟩ (.text (objectText longMembers))).result =
        .error (.file (.system .nameTooLong (.ofText (objectText longMembers)))) := by
  have hread : Json.read (objectText longMembers) = .ok (.object longMembers) := rfl
  have hfound : FileTree.isFile ⟨[], []⟩ (.ofText (objectText longMembers)) =
      .error (.system .nameTooLong (.ofText (objectText longMembers))) := by
    decide +kernel
  have hformat : (load ⟨[], []⟩ (.object longMembers)).result.toOption.map format = some false := by
    decide +kernel
  obtain ⟨s, hs, -⟩ := exists_of_toOption_map_eq_some hformat
  refine ⟨s, hread, ?_, hs, ?_⟩
  · rw [hfound]
    nofun
  · rw [result_load, givenBy_of_isFile_error hfound]
    rfl

end Settings

end OntologyStructs
