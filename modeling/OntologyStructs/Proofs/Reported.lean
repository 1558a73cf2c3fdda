import OntologyStructs.Proofs.CommandLine
import OntologyStructs.Proofs.GoFile
import OntologyStructs.Proofs.Json.Numerals
import OntologyStructs.Proofs.PackageClause
import OntologyStructs.Proofs.Reloading
import OntologyStructs.Proofs.Toml.Numerals

namespace OntologyStructs

open CommandLine

namespace Settings

variable {tree : FileTree} {source : Json} {e : SettingsError}

/-- A source of settings that fails only in ways that a run reports: it is of a kind that settings come
as, a file that it names holds UTF-8, and no numeral is too long where settings cannot be read. -/
structure Regular (tree : FileTree) (source : Json) : Prop where
  kind : source = .null ∨ (∃ t, source = .text t) ∨ ∃ members, source = .object members
  decodable : ∀ t bytes, source = .text t → tree.read (.ofText t) = .ok bytes →
    ∃ u, Utf8.decode false bytes = .ok u
  numerals : ∀ t format text, source = .text t → (locate tree t).result = .ok (format, text) →
    (∃ given, parse format text = .ok given) ∨ text.NumeralsFit

theorem isReported_of_parse {format : SettingsFormat} {text : Text}
    (h : (∃ given, parse format text = .ok given) ∨ text.NumeralsFit)
    (he : parse format text = .error e) : (Failure.settings e).isReported := by
  have hfit : text.NumeralsFit := by
    rcases h with ⟨given, hgiven⟩ | hfit
    · rw [he] at hgiven
      cases hgiven
    · exact hfit
  rw [parse.eq_def] at he
  cases format with
  | json =>
    dsimp only at he
    split at he
    · cases he
    · cases he
      rfl
    · cases he
      rfl
    · next n hread => exact absurd hread (Json.read_ne_longNumber hfit n)
  | toml =>
    dsimp only at he
    split at he
    · cases he
    · cases he
      rfl
    · next n hread => exact absurd hread (Toml.read_ne_longNumber hfit n)

theorem isReported_of_locate {t : Text}
    (h : ∀ bytes, tree.read (.ofText t) = .ok bytes → ∃ u, Utf8.decode false bytes = .ok u)
    (he : (locate tree t).result = .error e) : (Failure.settings e).isReported := by
  rw [locate, Logged.result_bind] at he
  rcases bind_eq_error.mp he with he | ⟨isThere, hthere, he⟩
  · obtain ⟨fault, hfault, rfl⟩ := mapError_eq_error.mp he
    obtain ⟨rfl, -⟩ := FileTree.isFile_eq_error hfault
    rfl
  have hfile := mapError_eq_ok.mp hthere
  split at he
  · next hyes =>
    -- a file that is there is read, and is UTF-8
    obtain ⟨content, hread⟩ := FileTree.exists_read_of_isFile (hyes ▸ hfile)
    obtain ⟨u, hu⟩ := h content hread
    have htext : readText tree (.ofText t) = .ok u.unifyLineEnds := by
      rw [readText, hread]
      change (Utf8.decode false content).mapError _ >>= _ = _
      rw [hu]
      rfl
    rw [htext] at he
    cases he
  · cases he

theorem isReported_of_load (h : Regular tree source) (he : (load tree source).result = .error e) :
    (Failure.settings e).isReported := by
  rw [result_load] at he
  rcases bind_eq_error.mp he with he | ⟨given, -, he⟩
  · rcases h.kind with rfl | ⟨t, rfl⟩ | ⟨members, rfl⟩
    · cases he
    · rcases bind_eq_error.mp he with he | ⟨⟨format, text⟩, hlocate, he⟩
      · exact isReported_of_locate (fun bytes ↦ h.decodable t bytes rfl) he
      · exact isReported_of_parse (h.numerals t format text rfl hlocate) he
    · cases he
  · obtain ⟨issues, -, rfl⟩ := mapError_eq_error.mp he
    rfl

theorem Stable.isEncodable_packageName {s : Settings} (hs : s.Stable) : s.packageName.isEncodable := by
  have hword := GoFile.isPackageWord_of_isPackageName hs.isPackageName
  have hencodable : s.packageName.withoutFinalLineFeed.isEncodable := by
    refine Text.isEncodable_of_isPlainAscii (List.all_eq_true.mpr fun c hc ↦ ?_)
    rcases hword.forall_mem c hc with hlower | hdigit | rfl
    · rw [CodePoint.isLower_iff] at hlower
      exact CodePoint.isPlainAscii_iff.mpr (by omega)
    · exact CodePoint.isPlainAscii_of_isDigit hdigit
    · rfl
  rcases Text.withoutFinalLineFeed_or s.packageName with hname | hname
  · rwa [hname]
  · rw [hname, Text.isEncodable_append, hencodable]
    rfl

end Settings

namespace CommandLine.Request

variable {r : Request} {t : FileTree} {s : Settings} {e : SettingsError}

theorem isReported_of_settings (h : Settings.Regular t r.config)
    (he : (r.settings t).result = .error e) : (Failure.settings e).isReported := by
  rw [Request.settings, Logged.result_bind] at he
  rcases bind_eq_error.mp he with he | ⟨s, -, he⟩
  · exact Settings.isReported_of_load h he
  · obtain ⟨issues, -, rfl⟩ := mapError_eq_error.mp he
    rfl

theorem stable_of_settings (hs : (r.settings t).result = .ok s) : s.Stable := by
  obtain ⟨source, hload, hs⟩ := Logged.bind_eq_ok.mp hs
  exact Settings.stable_of_override (Settings.stable_of_load hload) (mapError_eq_ok.mp hs)

end CommandLine.Request

namespace Generation

variable {formatter : Formatter} {s : Settings} {t : FileTree} {resolved : Resolved} {source : Text}

def Decodes (s : Settings) (t : FileTree) (d : Document) : Prop :=
  ∃ bytes, t.read s.inputPath = .ok bytes ∧ (Document.read (.bytes bytes)).result = .ok d

theorem Loads.exists_decodes (h : Loads s t resolved) : ∃ d, Decodes s t d ∧
    ((Ontology.ofDocument d).resolve s.excludeSuperseded).result = .ok resolved := by
  obtain ⟨bytes, hread, hload⟩ := h
  obtain ⟨d, hd, hr⟩ := Resolved.load_eq_ok hload
  exact ⟨d, ⟨bytes, hread, hd⟩, hr⟩

/-- Settings and a tree with which a run fails only in ways that it reports: the system can be asked
about all paths, no numeral is too long where the input cannot be read, what goes from it to a file has
bytes, and what the formatter writes is UTF-8. -/
structure Regular (formatter : Formatter) (s : Settings) (t : FileTree) : Prop where
  paths : ∀ p ∈ s.inputPath :: s.dumpPaths ++ [s.outputPath], Path.areAskable p.parts
  numerals : ∀ bytes text, t.read s.inputPath = .ok bytes →
    (Encoding.detect bytes).decode bytes = .ok text →
    (∃ v, Json.readDecoded text = .ok v) ∨ text.NumeralsFit
  comments : ∀ d, Decodes s t d → ∀ id n, (Ontology.ofDocument d).get? id = some n →
    n.comment.value.isEncodable
  entries : s.dumpPaths ≠ [] → ∀ d, Decodes s t d → ∀ n ∈ d.nodes, n.Holds Json.isEncodable
  context : s.dumpPath ≠ none → ∀ d, Decodes s t d → (Json.object d.context).all Json.isEncodable
  formatted : s.format → ∀ ending? input ending, formatter.program? = some (.startable ending?) →
    ending? input = some ending → (∃ u, Utf8.decode false ending.output = .ok u) ∧
      ∃ u, Utf8.decode false ending.errors = .ok u

/-- Where all texts of the input have bytes, so have those that go from it to a file. -/
theorem regular_of_isEncodable
    (hpaths : ∀ p ∈ s.inputPath :: s.dumpPaths ++ [s.outputPath], Path.areAskable p.parts)
    (hinput : ∀ bytes text, t.read s.inputPath = .ok bytes →
      (Encoding.detect bytes).decode bytes = .ok text →
      ∃ v, Json.readDecoded text = .ok v ∧ v.all Json.isEncodable)
    (hformat : s.format = false) : Regular formatter s t := by
  have hdocument (d : Document) (hd : Decodes s t d) :
      (Json.object d.context).all Json.isEncodable ∧ ∀ n ∈ d.nodes, n.Holds Json.isEncodable := by
    obtain ⟨bytes, hread, hd⟩ := hd
    obtain ⟨v, hv, hd⟩ := Document.read_eq_ok.mp hd
    obtain ⟨text, htext, hv⟩ := bind_eq_ok.mp hv
    obtain ⟨w, hw, hall⟩ := hinput bytes text hread (mapError_eq_ok.mp htext)
    obtain rfl : v = w := Except.ok.inj ((mapError_eq_ok.mp hv).symm.trans hw)
    exact Document.all_of_ofJson Json.isTextual_isEncodable hall hd
  refine ⟨hpaths, ?_, ?_, ?_, ?_, ?_⟩
  · intro bytes text hread htext
    obtain ⟨v, hv, -⟩ := hinput bytes text hread htext
    exact .inl ⟨v, hv⟩
  · intro d hd id n hn
    obtain ⟨p, -, hn⟩ := Option.bind_eq_some_iff.mp hn
    exact ((hdocument d hd).2 n (List.mem_of_getElem? hn)).comment.1
  · exact fun _ d hd ↦ (hdocument d hd).2
  · exact fun _ d hd ↦ (hdocument d hd).1
  · exact fun h ↦ absurd h (Bool.eq_false_iff.mp hformat)

theorem Regular.isEncodable_source (h : Regular formatter s t) (hs : s.Stable)
    (hload : Loads s t resolved) :
    (Generated.ofResolved s.keepVocabulary s.packageName resolved).source.isEncodable := by
  obtain ⟨d, hd, hr⟩ := hload.exists_decodes
  refine Generated.isEncodable_source hs.isEncodable_packageName s.keepVocabulary fun id n hn ↦ ?_
  rw [Ontology.ontology_of_resolve hr] at hn
  exact h.comments d hd id n hn

theorem isEncodable_of_readOutput {bytes : Bytes} {output : Text}
    (h : Formatter.readOutput bytes = .ok output) : output.isEncodable := by
  have hmap := mapError_eq_ok.mp h
  cases hdecode : Utf8.decode false bytes with
  | error fault =>
    rw [hdecode] at hmap
    cases hmap
  | ok u =>
    rw [hdecode] at hmap
    cases hmap
    refine List.all_eq_true.mpr fun c hc ↦ ?_
    rcases Text.mem_of_mem_unifyLineEnds hc with hc | rfl
    · exact List.all_eq_true.mp (Utf8.isEncodable_of_decode hdecode) c hc
    · rfl

theorem readOutput_ne_error {bytes : Bytes} (h : ∃ u, Utf8.decode false bytes = .ok u)
    (e : FormatError) : Formatter.readOutput bytes ≠ .error e := by
  obtain ⟨u, hu⟩ := h
  rw [Formatter.readOutput, hu]
  nofun

theorem Yields.isEncodable (h : Regular formatter s t) (hs : s.Stable)
    (hsource : Yields formatter s t source) : source.isEncodable := by
  obtain ⟨resolved, hload, hsource⟩ := hsource
  have hplain := h.isEncodable_source hs hload
  dsimp only at hsource
  split at hsource
  · rw [Formatter.format] at hsource
    split at hsource
    · cases hsource
      exact hplain
    · next program _ =>
      cases program with
      | unstartable reason => cases hsource
      | startable ending? =>
        obtain ⟨input, -, hsource⟩ := bind_eq_ok.mp hsource
        split at hsource
        · cases hsource
        obtain ⟨output, houtput, hsource⟩ := bind_eq_ok.mp hsource
        obtain ⟨errors, -, hsource⟩ := bind_eq_ok.mp hsource
        split at hsource
        · cases hsource
          exact isEncodable_of_readOutput houtput
        · cases hsource
  · rw [hsource]
    exact hplain

theorem Dumps.mem_dumpPaths {p : Path} {v : Json} {indent : Text} (h : Dumps s resolved p v indent) :
    p ∈ s.dumpPaths := by
  cases h with
  | resolved hp => exact List.mem_append_left _ (Option.mem_toList.mpr hp)
  | nodeLink hp => exact List.mem_append_right _ (Option.mem_toList.mpr hp)

theorem Dumps.isEncodable (h : Regular formatter s t) (hload : Loads s t resolved) {p : Path} {v : Json}
    {indent : Text} (hdump : Dumps s resolved p v indent) :
    Text.isEncodable (v.pieces indent 0).flatten := by
  obtain ⟨d, hd, hr⟩ := hload.exists_decodes
  have hnodes := h.entries (List.ne_nil_of_mem hdump.mem_dumpPaths) d hd
  cases hdump with
  | resolved hp =>
    have hcontext := h.context (hp ▸ Option.some_ne_none p) d hd
    exact Json.isEncodable_pieces (by decide)
      (Resolved.all_dump Json.isTextual_isEncodable hcontext hnodes hr)
  | nodeLink hp =>
    rw [Ontology.ontology_of_resolve hr]
    exact Json.isEncodable_pieces (by decide) (Dump.all_nodeLink Json.isTextual_isEncodable hnodes)

theorem isReported_of_load (h : Regular formatter s t) {bytes : Bytes}
    (hread : t.read s.inputPath = .ok bytes) {strict leaveOut : Bool} {e : LoadError}
    (he : (Resolved.load (.bytes bytes) strict leaveOut).result = .error e) :
    (Failure.generation (.load e)).isReported := by
  have hlong (n : Nat) : e ≠ .document (.unreadable (.longNumber n)) := by
    rintro rfl
    rcases bind_eq_error.mp (Document.readValue_eq_error (Resolved.read_eq_error he)) with
      hdecode | ⟨text, hdecode, hvalue⟩
    · obtain ⟨_, -, hdecode⟩ := mapError_eq_error.mp hdecode
      cases hdecode
    obtain ⟨_, hvalue, ⟨⟩⟩ := mapError_eq_error.mp hvalue
    rcases h.numerals bytes text hread (mapError_eq_ok.mp hdecode) with ⟨v, hv⟩ | hfit
    · rw [hv] at hvalue
      cases hvalue
    · exact Json.readDecoded_ne_longNumber hfit n hvalue
  match e, hlong with
  | .document (.unreadable (.malformed _ _)), _ => rfl
  | .document (.unreadable (.longNumber n)), hlong => exact absurd rfl (hlong n)
  | .document (.undecodable _), _ | .document (.misshapen _), _ | .document (.invalid _), _ => rfl
  | .duplicate _, _ | .misshapen _, _ => rfl

theorem isReported_of_format (h : Regular formatter s t) (hs : s.format) (hplain : source.isEncodable)
    {e : FormatError} (he : (formatter.format source).result = .error e) :
    (Failure.generation (.format e)).isReported := by
  rw [Formatter.format] at he
  split at he
  · cases he
  · next program hprogram =>
    cases program with
    | unstartable reason =>
      cases he
      rfl
    | startable ending? =>
      change Formatter.run (.startable ending?) source = _ at he
      rw [Formatter.run, Utf8.encode_of_isEncodable hplain] at he
      rcases bind_eq_error.mp he with he | ⟨input, -, he⟩
      · cases he
      split at he
      · cases he
        rfl
      · next ending hending =>
        obtain ⟨houtput, herrors⟩ := h.formatted hs ending? input ending hprogram hending
        rcases bind_eq_error.mp he with he | ⟨output, -, he⟩
        · exact absurd he (readOutput_ne_error houtput e)
        rcases bind_eq_error.mp he with he | ⟨errors, -, he⟩
        · exact absurd he (readOutput_ne_error herrors e)
        split at he <;> cases he
        rfl

/-- What a run breaks off with before the file of structs is opened is reported. -/
theorem Breaks.isReported (h : Regular formatter s t) (hs : s.Stable) {e : GenerationError}
    (he : Breaks formatter s t e) : (Failure.generation e).isReported := by
  cases he with
  | unread he => exact FileTree.isSystem_of_read (h.paths _ List.mem_cons_self) he
  | unloaded hread he => exact isReported_of_load h hread he
  | unformatted hload hformat he =>
    exact isReported_of_format h hformat (h.isEncodable_source hs hload) he
  | undumped hload hdump he =>
    have hpath := List.mem_cons_of_mem s.inputPath hdump.mem_dumpPaths
    exact he (h.paths _ (List.mem_append_left _ hpath)) (hdump.isEncodable h hload)
  | unopened he => exact he (h.paths _ (List.mem_append_right _ List.mem_cons_self))

end Generation

end OntologyStructs
