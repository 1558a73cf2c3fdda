import OntologyStructs.CommandLine
import OntologyStructs.Proofs.FileTree
import OntologyStructs.Proofs.Loading

namespace OntologyStructs

open FileTree FileWork

namespace Dump

variable (o : Ontology) (c : Children) (p : Path) (t : FileTree)

theorem saveResolved_meets :
    (saveResolved o c p).Meets t (Saved p ((resolved o c).pieces "\t" 0) t) :=
  meets_reported (save_meets p _ t)

theorem saveNodeLink_meets :
    (saveNodeLink o c p).Meets t (Saved p ((nodeLink o c).pieces "  " 0) t) :=
  meets_reported (save_meets p _ t)

end Dump

def Settings.dumpPaths (s : Settings) : List Path := s.dumpPath.toList ++ s.nodeLinkPath.toList

namespace Generation

def Loads (s : Settings) (t : FileTree) (resolved : Resolved) : Prop :=
  ∃ bytes, t.read s.inputPath = .ok bytes ∧
    (Resolved.load (.bytes bytes) s.strictDuplicates s.excludeSuperseded).result = .ok resolved

/-- The source that a run comes to, which is that of the ontology at the input path, gone over by the
formatter if settings say so. -/
def Yields (formatter : Formatter) (s : Settings) (t : FileTree) (source : Text) : Prop :=
  ∃ resolved, Loads s t resolved ∧
    let plain := (Generated.ofResolved s.keepVocabulary s.packageName resolved).source
    if s.format then (formatter.format plain).result = .ok source else source = plain

inductive Dumps (s : Settings) (resolved : Resolved) : Path → Json → Text → Prop
  | resolved {p : Path} (hp : s.dumpPath = some p) :
      Dumps s resolved p (Dump.resolved resolved.ontology resolved.children) "\t"
  | nodeLink {p : Path} (hp : s.nodeLinkPath = some p) :
      Dumps s resolved p (Dump.nodeLink resolved.ontology resolved.children) "  "

/-- What a run breaks off with before the file of structs is opened. -/
inductive Breaks (formatter : Formatter) (s : Settings) (t : FileTree) : GenerationError → Prop
  | unread {e : FileError} (he : t.read s.inputPath = .error e) : Breaks formatter s t (.file e)
  | unloaded {bytes : Bytes} {e : LoadError} (hread : t.read s.inputPath = .ok bytes)
      (he : (Resolved.load (.bytes bytes) s.strictDuplicates s.excludeSuperseded).result = .error e) :
      Breaks formatter s t (.load e)
  | unformatted {resolved : Resolved} {e : FormatError} (hload : Loads s t resolved) (hs : s.format)
      (he : (formatter.format
        (Generated.ofResolved s.keepVocabulary s.packageName resolved).source).result = .error e) :
      Breaks formatter s t (.format e)
  | undumped {resolved : Resolved} {p : Path} {v : Json} {indent : Text} {e : FileError}
      (hload : Loads s t resolved) (hdump : Dumps s resolved p v indent)
      (he : Path.areAskable p.parts → Text.isEncodable (v.pieces indent 0).flatten → e.isSystem) :
      Breaks formatter s t (.file e)
  | unopened {e : FileError} (he : Path.areAskable s.outputPath.parts → e.isSystem) :
      Breaks formatter s t (.file e)

inductive Ends (formatter : Formatter) (s : Settings) (t u : FileTree) :
    Except GenerationError Generated → Prop
  /-- Before the file of structs is opened, only dumps are written. -/
  | broken {e : GenerationError} (hu : SameBut s.dumpPaths t u) (he : Breaks formatter s t e) :
      Ends formatter s t u (.error e)
  /-- That the source has no bytes is found when the file is open, and it is left empty. -/
  | emptied {source : Text} {fault : EncodeFault} (hsource : Yields formatter s t source)
      (hfault : Utf8.encode source = .error fault)
      (hu : SameBut (s.dumpPaths ++ [s.outputPath]) t u) (hread : u.read s.outputPath = .ok []) :
      Ends formatter s t u (.error (.file (.unencodable fault)))
  | written {g : Generated} {bytes : Bytes} (hsource : Yields formatter s t g.source)
      (hbytes : Utf8.encode g.source = .ok bytes)
      (hu : SameBut (s.dumpPaths ++ [s.outputPath]) t u) (hread : u.read s.outputPath = .ok bytes) :
      Ends formatter s t u (.ok g)

variable (formatter : Formatter) (s : Settings) (t : FileTree)

/-- Nothing is written before the source is there. -/
theorem prepare_meets : (prepare formatter s).Meets t fun u x ↦
    u = t ∧ (∀ g, x = .ok g → Loads s t g.resolved ∧ Yields formatter s t g.source) ∧
      ∀ e, x = .error e → Breaks formatter s t e := by
  refine meets_tell_bind ?_
  refine meets_bind (P := fun u x ↦ u = t ∧ x = (t.read s.inputPath).mapError .file) ⟨rfl, rfl⟩ ?_ ?_
  · rintro u e ⟨hu, he⟩
    obtain ⟨fault, hread, rfl⟩ := mapError_eq_error.mp he.symm
    refine ⟨hu, nofun, ?_⟩
    rintro _ ⟨⟩
    exact .unread hread
  rintro u bytes ⟨rfl, hbytes⟩
  have hread := mapError_eq_ok.mp hbytes.symm
  refine meets_ofLogged_bind (fun e he ↦ ?_) fun resolved hresolved ↦ ?_
  · obtain ⟨fault, hload, rfl⟩ := mapError_eq_error.mp he
    refine ⟨rfl, nofun, ?_⟩
    rintro _ ⟨⟩
    exact .unloaded hread hload
  have hload : Loads s u resolved := ⟨bytes, hread, (Logged.mapError_eq_ok _).mp hresolved⟩
  refine meets_tell_bind ?_
  split
  · next hformat =>
    refine meets_ofLogged_bind (fun e he ↦ ?_) fun source hsource ↦ ⟨rfl, ?_, nofun⟩
    · obtain ⟨fault, hfault, rfl⟩ := mapError_eq_error.mp he
      refine ⟨rfl, nofun, ?_⟩
      rintro _ ⟨⟩
      exact .unformatted hload hformat hfault
    · rintro g ⟨⟩
      refine ⟨hload, resolved, hload, ?_⟩
      rw [if_pos hformat]
      exact (Logged.mapError_eq_ok _).mp hsource
  · next hformat =>
    refine ⟨rfl, ?_, nofun⟩
    rintro g ⟨⟩
    refine ⟨hload, resolved, hload, ?_⟩
    rw [if_neg hformat]

theorem saveAt_meets {save : Path → FileWork FileError Unit} {pieces : List Text}
    (hsave : ∀ p, (save p).Meets t (Saved p pieces t)) (p? : Option Path) :
    (saveAt save p?).Meets t fun u x ↦ SameBut p?.toList t u ∧
      ∀ e, x = .error e → ∃ p fault, p? = some p ∧ e = .file fault ∧
        (Path.areAskable p.parts → Text.isEncodable pieces.flatten → fault.isSystem) := by
  cases p? with
  | none => exact ⟨.refl [] t, nofun⟩
  | some p =>
    have hsaved := hsave p
    refine ⟨hsaved.same, fun e he ↦ ?_⟩
    obtain ⟨fault, hfault, rfl⟩ := mapError_eq_error.mp he
    rw [Meets, hfault] at hsaved
    exact ⟨p, fault, rfl, rfl, hsaved.isSystem⟩

theorem run_meets : (run formatter s).Meets t (Ends formatter s t) := by
  refine meets_bind (prepare_meets formatter s t) ?_ ?_
  · rintro u e ⟨rfl, -, he⟩
    exact .broken (.refl _ u) (he e rfl)
  rintro u g ⟨rfl, hg, -⟩
  obtain ⟨hload, hsource⟩ := hg g rfl
  refine meets_bind (saveAt_meets u (fun p ↦ Dump.saveResolved_meets _ _ p u) _) ?_ ?_
  · rintro v e ⟨hv, he⟩
    obtain ⟨p, fault, hp, rfl, hfault⟩ := he e rfl
    exact .broken (hv.mono (List.subset_append_left _ _)) (.undumped hload (.resolved hp) hfault)
  rintro v _ ⟨hv, -⟩
  refine meets_bind (saveAt_meets v (fun p ↦ Dump.saveNodeLink_meets _ _ p v) _) ?_ ?_
  · rintro w e ⟨hw, he⟩
    obtain ⟨p, fault, hp, rfl, hfault⟩ := he e rfl
    exact .broken (hv.trans hw) (.undumped hload (.nodeLink hp) hfault)
  rintro w _ ⟨hw, -⟩
  -- only now is the output opened, and nothing is left to fail but its encoding
  have hdumped : SameBut s.dumpPaths u w := hv.trans hw
  let output : FileTree → Except GenerationError Unit → Prop := fun z x ↦
    ∃ y, Saved s.outputPath [g.source] w z y ∧ x = y.mapError .file
  refine meets_bind (P := output) (meets_mapError ⟨_, save_meets _ _ w, rfl⟩) ?_ ?_
  · rintro z e ⟨y, hz, hy⟩
    cases hz with
    | refused hz he =>
      cases hy
      exact .broken (List.append_nil s.dumpPaths ▸ hdumped.trans hz) (.unopened he)
    | broken hp hz =>
      cases hy
      obtain ⟨rfl, hfault⟩ := encode_of_encodePieces_fault hp
      exact .emptied hsource hfault (hdumped.trans hz.same) hz.read
    | whole hp hz => cases hy
  · rintro z _ ⟨y, hz, hy⟩
    refine meets_tell_bind ?_
    cases hz with
    | refused hz _ => cases hy
    | broken hp hz => cases hy
    | whole hp hz =>
      exact .written hsource (encode_of_encodePieces hp) (hdumped.trans hz.same) hz.read

end Generation

namespace CommandLine.Request

inductive Ends (formatter : Formatter) (r : Request) (t u : FileTree) :
    Except Failure Summary → Prop
  /-- Without settings nothing is done. -/
  | unsettled {e : SettingsError} (he : (r.settings t).result = .error e) (hu : u = t) :
      Ends formatter r t u (.error (.settings e))
  | failed {s : Settings} {e : GenerationError} (hs : (r.settings t).result = .ok s)
      (h : Generation.Ends formatter s t u (.error e)) : Ends formatter r t u (.error (.generation e))
  | succeeded {s : Settings} {g : Generated} (hs : (r.settings t).result = .ok s)
      (h : Generation.Ends formatter s t u (.ok g)) : Ends formatter r t u (.ok (g.summary s))

variable (formatter : Formatter) (r : Request) (t : FileTree)

theorem generate_meets : (r.generate formatter).Meets t (Ends formatter r t) := by
  refine meets_tell_bind ?_
  refine meets_bind
    (P := fun u x ↦ u = t ∧ x = (r.settings t).result.mapError .settings) ⟨rfl, rfl⟩ ?_ ?_
  · rintro u e ⟨hu, he⟩
    cases hs : (r.settings t).result with
    | ok s =>
      rw [hs] at he
      cases he
    | error fault =>
      rw [hs] at he
      cases he
      exact .unsettled hs hu
  rintro u s ⟨rfl, hs⟩
  have hsettings := mapError_eq_ok.mp hs.symm
  let generated : FileTree → Except Failure Generated → Prop := fun v x ↦
    ∃ y, Generation.Ends formatter s u v y ∧ x = y.mapError .generation
  refine meets_bind (P := generated)
    (meets_mapError ⟨_, Generation.run_meets formatter s u, rfl⟩) ?_ ?_
  · rintro v e ⟨_ | _, hends, he⟩ <;> cases he
    exact .failed hsettings hends
  · rintro v g ⟨_ | _, hends, hg⟩ <;> cases hg
    exact .succeeded hsettings hends

/-- A run ends as the work that it does, and a failure is in its log if it is one to report. -/
theorem run_ends (console : Console) : ∃ x, Ends formatter r t (r.run formatter console t).tree x ∧
    match x with
    | .ok summary => (r.run formatter console t).outcome = .ofSummary console summary
    | .error e => (r.run formatter console t).outcome = .failure e ∧
        (e.isReported → failureRecord e ∈ (r.run formatter console t).log) := by
  have h := generate_meets formatter r t
  rw [FileWork.Meets] at h
  rw [Request.run]
  generalize r.generate formatter t = z at h ⊢
  obtain ⟨u, log, e | summary⟩ := z
  · refine ⟨_, h, rfl, fun he ↦ ?_⟩
    have hlevel : r.level.rank ≤ Level.error.rank := by
      rw [level]
      split <;> decide
    refine List.mem_filter.mpr ⟨?_, decide_eq_true hlevel⟩
    rw [if_pos he]
    exact List.mem_append_right _ List.mem_cons_self
  · exact ⟨_, h, rfl⟩

variable {formatter r t}

theorem Ends.exists_written {u : FileTree} {summary : Summary}
    (h : Ends formatter r t u (.ok summary)) : ∃ s g bytes, (r.settings t).result = .ok s ∧
      summary = Generated.summary s g ∧ Generation.Yields formatter s t g.source ∧
      Utf8.encode g.source = .ok bytes ∧ u.read s.outputPath = .ok bytes := by
  cases h with
  | @succeeded s g hs h =>
    cases h with
    | written hsource hbytes _ hread => exact ⟨s, g, _, hs, rfl, hsource, hbytes, hread⟩

/-- When there is nothing but the summary left to draw, the source is in its file. -/
theorem written_of_undrawn {console : Console} {reason : Text}
    (h : (r.run formatter console t).outcome = .undrawn reason) :
    ∃ s source bytes, (r.settings t).result = .ok s ∧ Generation.Yields formatter s t source ∧
      Utf8.encode source = .ok bytes ∧
      (r.run formatter console t).tree.read s.outputPath = .ok bytes := by
  obtain ⟨e | summary, hends, houtcome⟩ := run_ends formatter r t console
  · rw [houtcome.1] at h
    cases h
  · obtain ⟨s, g, bytes, hs, -, hsource, hbytes, hread⟩ := hends.exists_written
    exact ⟨s, g.source, bytes, hs, hsource, hbytes, hread⟩

end CommandLine.Request

end OntologyStructs
