import OntologyStructs.Proofs.Reported

namespace OntologyStructs.CommandLine.Request

/-- A request and a tree with which all that a run can meet is reported. -/
structure Regular (formatter : Formatter) (console : Console) (r : Request) (t : FileTree) : Prop where
  source : Settings.Regular t r.config
  generation : ∀ s, (r.settings t).result = .ok s → Generation.Regular formatter s t
  drawn : ∀ s, (r.settings t).result = .ok s → ∀ g : Generated, console (g.summary s) = .ok ()

variable {formatter : Formatter} {console : Console} {r : Request} {t : FileTree}

/-- Where the dumps go elsewhere, a run ends with a status. With 0 the output file holds the source in
UTF-8. With 1 the failure is in the log and the output file is as it was, and so is the whole tree if
there are no settings. -/
theorem output_written_or_kept (h : r.Regular formatter console t)
    (helsewhere : ∀ s, (r.settings t).result = .ok s →
      ∀ p ∈ s.dumpPaths, t.location s.outputPath ≠ t.location p) :
    let ended := r.run formatter console t
    (ended.outcome.status? = some 0 ∧ ∃ s source bytes, (r.settings t).result = .ok s ∧
      Generation.Yields formatter s t source ∧ Utf8.encode source = .ok bytes ∧
      ended.tree.read s.outputPath = .ok bytes) ∨
    (ended.outcome.status? = some 1 ∧
      (∃ e, ended.outcome = .failure e ∧ failureRecord e ∈ ended.log) ∧
      ((∃ e, (r.settings t).result = .error e ∧ ended.outcome = .failure (.settings e) ∧
          ended.tree = t) ∨
        ∃ s, (r.settings t).result = .ok s ∧ ended.tree.fileAt? (t.location s.outputPath) =
          t.fileAt? (t.location s.outputPath))) := by
  intro ended
  obtain ⟨e | summary, hends, houtcome⟩ := run_ends formatter r t console
  · obtain ⟨houtcome, hlogged⟩ := houtcome
    have hfailed (hreported : e.isReported) : ended.outcome.status? = some 1 ∧
        ∃ e, ended.outcome = .failure e ∧ failureRecord e ∈ ended.log := by
      refine ⟨?_, e, houtcome, hlogged hreported⟩
      rw [houtcome, Outcome.status?, if_pos hreported]
    cases hends with
    | unsettled he hu =>
      obtain ⟨hstatus, hrecord⟩ := hfailed (isReported_of_settings h.source he)
      exact .inr ⟨hstatus, hrecord, .inl ⟨_, he, houtcome, hu⟩⟩
    | @failed s _ hs hgeneration =>
      have hregular := h.generation s hs
      cases hgeneration with
      | broken hu he =>
        obtain ⟨hstatus, hrecord⟩ := hfailed (he.isReported hregular (stable_of_settings hs))
        exact .inr ⟨hstatus, hrecord, .inr ⟨s, hs, hu.fileAt? _ (helsewhere s hs)⟩⟩
      | emptied hsource hfault _ _ =>
        -- the one failure that comes too late for the output
        have hencodable := hsource.isEncodable hregular (stable_of_settings hs)
        rw [Utf8.encode_of_isEncodable hencodable] at hfault
        cases hfault
  · obtain ⟨s, g, bytes, hs, rfl, hsource, hbytes, hread⟩ := hends.exists_written
    have hdrawn : ended.outcome = .summary (g.summary s) := by
      rw [houtcome, Outcome.ofSummary, h.drawn s hs g]
    exact .inl ⟨congrArg Outcome.status? hdrawn, s, g.source, bytes, hs, hsource, hbytes, hread⟩

/-- A directory with a document of one class, and with a file of structs from an earlier run. -/
def desk (comment : Text) : FileTree where
  entries := [(["v.jsonld"], .file (("\x7b\"@graph\": [\x7b\"@id\": \"a\", " ++
      "\"@type\": \"rdfs:Class\", \"rdfs:comment\": \"" ++ comment ++ "\"\x7d]\x7d" :
        Text).flatMap Utf8.encodeOne)),
    (["out.go"], .file (("package old\n" : Text).flatMap Utf8.encodeOne))]
  home := []

/-- A request for a dump below a file, where there can be none. -/
def dumpBelowFile : Request where
  given := [("input_path", .text "v.jsonld"), ("output_path", .text "out.go"),
    ("dump_path", .text "v.jsonld/dump.json")]

theorem desk_kept :
    let ended := dumpBelowFile.run ⟨"gofmt", none⟩ plainConsole (desk "A place")
    ended.outcome.status? = some 1 ∧ (∃ e, ended.outcome = .failure e ∧ failureRecord e ∈ ended.log) ∧
      ended.tree.fileAt? ["out.go"] = (desk "A place").fileAt? ["out.go"] := by
  intro ended
  let s : Settings :=
    { inputPath := .ofText "v.jsonld"
      outputPath := .ofText "out.go"
      dumpPath := some (.ofText "v.jsonld/dump.json") }
  have hsettings : (dumpBelowFile.settings (desk "A place")).result.toOption.map id = some s := by
    decide +kernel
  have hstatus : ended.outcome.status? = some 1 := by decide +kernel
  have hinput : ((desk "A place").read s.inputPath).toOption.bind (fun bytes ↦
      ((Encoding.detect bytes).decode bytes).toOption.bind fun text ↦
        (Json.readDecoded text).toOption.map (·.all Json.isEncodable)) = some true := by
    decide +kernel
  obtain ⟨_, hs, rfl⟩ := Logged.exists_of_map_eq_some hsettings
  have honly (s' : Settings) (hs' : (dumpBelowFile.settings (desk "A place")).result = .ok s') :
      s' = s := Except.ok.inj (hs'.symm.trans hs)
  have hsource : Settings.Regular (desk "A place") dumpBelowFile.config := ⟨.inl rfl, nofun, nofun⟩
  have hgeneration : Generation.Regular ⟨"gofmt", none⟩ s (desk "A place") := by
    refine Generation.regular_of_isEncodable (by decide +kernel) (fun bytes text hread htext ↦ ?_) rfl
    obtain ⟨_, hread', hinput⟩ := exists_of_toOption_bind_eq_some hinput
    obtain rfl := Except.ok.inj (hread.symm.trans hread')
    obtain ⟨_, htext', hinput⟩ := exists_of_toOption_bind_eq_some hinput
    obtain rfl := Except.ok.inj (htext.symm.trans htext')
    exact exists_of_toOption_map_eq_some hinput
  have hregular : dumpBelowFile.Regular ⟨"gofmt", none⟩ plainConsole (desk "A place") :=
    ⟨hsource, fun s' hs' ↦ honly s' hs' ▸ hgeneration, fun _ _ _ ↦ rfl⟩
  have helsewhere : ∀ p ∈ s.dumpPaths,
      (desk "A place").location s.outputPath ≠ (desk "A place").location p := by
    decide +kernel
  rcases output_written_or_kept hregular (fun s' hs' ↦ honly s' hs' ▸ helsewhere) with
    ⟨hwritten, -⟩ | ⟨-, hlogged, ⟨e, he, -⟩ | ⟨s', hs', hkept⟩⟩
  · have hstatus' : ended.outcome.status? = some 0 := hwritten
    rw [hstatus] at hstatus'
    cases hstatus'
  · rw [hs] at he
    cases he
  · obtain rfl := honly s' hs'
    exact ⟨hstatus, hlogged, hkept⟩

/-- A comment that is half of a surrogate pair gets into the source. The failure escapes, and the file
of structs is empty. -/
theorem desk_emptied :
    let ended := CommandLine.run ⟨"gofmt", none⟩ plainConsole ["-i", "v.jsonld", "-o", "out.go"]
      (desk "\\ud800")
    (desk "\\ud800").fileAt? ["out.go"] = some (("package old\n" : Text).flatMap Utf8.encodeOne) ∧
      ended.tree.fileAt? ["out.go"] = some [] ∧ ended.outcome.status? = none ∧ ended.log = [] := by
  decide +kernel

end OntologyStructs.CommandLine.Request
