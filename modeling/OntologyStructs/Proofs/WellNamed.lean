import OntologyStructs.Generation
import OntologyStructs.Proofs.Naming
import OntologyStructs.Proofs.Struct

namespace OntologyStructs

namespace Log

def Quiet (l : Log) : Prop := ∀ rec ∈ l, rec.level ≠ .warning

variable {l m : Log} {rec : Record}

theorem quiet_nil : Quiet [] := nofun

theorem quiet_append : Quiet (l ++ m) ↔ l.Quiet ∧ m.Quiet := List.forall_mem_append

theorem quiet_cons : Quiet (rec :: l) ↔ rec.level ≠ .warning ∧ l.Quiet := List.forall_mem_cons

end Log

namespace GoFile

def IsName (t : Text) : Prop :=
  ∃ c r, t = c :: r ∧ (c.isLetter ∨ c = '_') ∧ ∀ d ∈ r, d.isAlphanumeric ∨ d = '_'

theorem isIdentifier_iff {t : Text} (h : ('\n' : CodePoint) ∉ t) : isIdentifier t ↔ IsName t := by
  have hlast : t.getLast? ≠ some ('\n' : CodePoint) := mt List.mem_of_getLast? h
  rw [isIdentifier, Text.withoutFinalLineFeed, if_neg hlast]
  cases t with
  | nil => simp [IsName]
  | cons c r => simp [IsName]

theorem quiet_log {package : Text} {ss : List Struct} :
    (log package ss).Quiet ↔ ∀ s ∈ ss, isIdentifier s.name := by
  have hfinal : ∀ message, Log.Quiet [⟨.info, .goFile, message⟩] := by
    intro message
    exact Log.quiet_cons.mpr ⟨nofun, Log.quiet_nil⟩
  rw [log, Log.quiet_append, and_iff_left (hfinal _)]
  constructor
  · intro h s hs
    by_contra hn
    exact h _ (List.mem_filterMap.mpr ⟨s, hs, if_neg hn⟩) rfl
  · intro h rec hrec
    obtain ⟨s, hs, hrec⟩ := List.mem_filterMap.mp hrec
    rw [nameRecord?, if_pos (h s hs)] at hrec
    cases hrec

end GoFile

namespace Struct

variable {ss : List Struct} {s : Struct} {seen : Assoc Text Text}

theorem collisions_eq_nil : s.collisions = [] ↔ (s.fields.map Field.name).Nodup := by
  have hsort (ts : List Text) : Text.sort ts = [] ↔ ts = [] := by
    rw [Text.sort, ← List.length_eq_zero_iff, List.length_mergeSort, List.length_eq_zero_iff]
  have hdups (ts : List Text) : ts.eraseDups = [] ↔ ts = [] := by
    simp only [List.eq_nil_iff_forall_not_mem, List.mem_eraseDups]
  simp only [collisions, hsort, hdups, List.filter_eq_nil_iff, decide_eq_true_eq, Nat.not_lt,
    List.nodup_iff_count_le_one]
  constructor
  · intro h name
    by_cases hn : name ∈ s.fields.map Field.name
    · exact h name hn
    · rw [List.count_eq_zero_of_not_mem hn]
      exact Nat.zero_le 1
  · intro h name _
    exact h name

theorem quiet_collisionLog : s.collisionLog.Quiet ↔ (s.fields.map Field.name).Nodup := by
  rw [← collisions_eq_nil, collisionLog]
  cases s.collisions with
  | nil => exact iff_of_true Log.quiet_nil rfl
  | cons n names => exact iff_of_false (fun h ↦ (Log.quiet_cons.mp h).1 rfl) nofun

theorem quiet_nameLog : (nameLog seen ss).Quiet ↔
    (∀ s ∈ ss, (s.fields.map Field.name).Nodup) ∧ (ss.map name).Nodup ∧
      ∀ s ∈ ss, s.name ∉ seen.keys := by
  -- `seen` grows by each name that is new; a name that is not new is warned of at once
  induction ss generalizing seen with
  | nil => simp [nameLog, Log.quiet_nil]
  | cons s ss ih =>
    have hseen := Assoc.mem_keys_iff s.name seen
    rw [nameLog]
    cases hs : seen.get? s.name with
    | none =>
      have hnew : s.name ∉ seen.keys := by simp [hseen, hs]
      have hkeys : (∀ t ∈ ss, t.name ∉ (seen.insert s.name s.source).keys) ↔
          s.name ∉ ss.map name ∧ ∀ t ∈ ss, t.name ∉ seen.keys := by
        simp only [Assoc.keys_insert, if_neg hnew, List.mem_append, List.mem_singleton, List.mem_map]
        grind
      dsimp only
      rw [Log.quiet_append, quiet_collisionLog, ih, hkeys, List.map_cons, List.nodup_cons,
        List.forall_mem_cons, List.forall_mem_cons]
      tauto
    | some first =>
      have hold : s.name ∈ seen.keys := hseen.mpr ⟨first, hs⟩
      dsimp only
      rw [Log.quiet_append, Log.quiet_cons]
      exact iff_of_false (fun h ↦ h.2.1 rfl) fun h ↦ h.2.2 s List.mem_cons_self hold

theorem quiet_log : (log ss).Quiet ↔
    (∀ s ∈ ss, (s.fields.map Field.name).Nodup) ∧ (ss.map name).Nodup := by
  have hseen : ∀ s ∈ ss, s.name ∉ Assoc.keys ([] : Assoc Text Text) := fun _ _ ↦ List.not_mem_nil
  rw [log, Log.quiet_append, quiet_nameLog, and_iff_left hseen, Log.quiet_cons]
  exact and_iff_left ⟨nofun, Log.quiet_nil⟩

section all

variable {keep : Bool} {o : Ontology} {c : Children} (hs : s ∈ all keep o c)

include hs

theorem capitalized_name : Naming.Capitalized s.name := by
  obtain ⟨_, p, n, _, _, rfl⟩ := mem_all.mp hs
  exact Naming.capitalized_typeName keep n.id

theorem isIdentifier_name_iff : GoFile.isIdentifier s.name ↔ GoFile.IsName s.name := by
  apply GoFile.isIdentifier_iff
  intro hmem
  exact absurd ((capitalized_name hs).1 _ hmem) (by decide)

theorem name_ne_string : s.name ≠ "string" := by
  intro h
  have hsmall := (capitalized_name hs).2 's'
  rw [h] at hsmall
  exact absurd (hsmall rfl) (by decide)

theorem name_of_mem_fields {f : Field} (hf : f ∈ s.fields) :
    f ∈ header ∨ f ∈ s.childFields ∧ f.name = f.typeName := by
  obtain ⟨_, p, n, _, _, rfl⟩ := mem_all.mp hs
  rw [childFields_ofNode]
  rcases List.mem_append.mp hf with hf | hf
  · exact .inl hf
  · obtain ⟨child, _, rfl⟩ := List.mem_map.mp hf
    exact .inr ⟨hf, rfl⟩

end all

theorem isName_header {f : Field} (hf : f ∈ header) : GoFile.IsName f.name := by
  have hnames : header.all fun f ↦ GoFile.isIdentifier f.name && f.name.all (· ≠ '\n') := by decide
  have h := List.all_eq_true.mp hnames f hf
  rw [Bool.and_eq_true] at h
  refine (GoFile.isIdentifier_iff fun hmem ↦ ?_).mp h.1
  exact absurd (List.all_eq_true.mp h.2 _ hmem) (by decide)

end Struct

/-- Where all structs have names, and each its own, so have all fields, and each type is that of one
struct. -/
theorem Struct.Closed.well_named {keep : Bool} {o : Ontology} {c : Children}
    (hclosed : Struct.Closed (Struct.all keep o c))
    (hdistinct : ((Struct.all keep o c).map Struct.name).Nodup)
    (hnames : ∀ s ∈ Struct.all keep o c, GoFile.IsName s.name) :
    ∀ s ∈ Struct.all keep o c, (∀ f ∈ s.fields, GoFile.IsName f.name) ∧
      ∀ f ∈ s.childFields, ∃ t,
        (Struct.all keep o c).filter (fun t ↦ t.name = f.typeName) = [t] ∧ t.source = f.tag := by
  intro s hs
  constructor
  · intro f hf
    rcases Struct.name_of_mem_fields hs hf with hf | ⟨hf, hname⟩
    · exact Struct.isName_header hf
    · obtain ⟨t, ht, _, htype⟩ := hclosed s hs f hf
      rw [hname, ← htype]
      exact hnames t ht
  · intro f hf
    obtain ⟨t, ht, htag, htype⟩ := hclosed s hs f hf
    exact ⟨t, htype ▸ List.filter_eq_singleton hdistinct ht, htag⟩

namespace Generated

theorem quiet_log {keep : Bool} {package : Text} {r : Resolved} :
    ((ofResolved keep package r).log package).Quiet ↔
      ((ofResolved keep package r).structs.map Struct.name).Nodup ∧
      (∀ s ∈ (ofResolved keep package r).structs, (s.fields.map Field.name).Nodup) ∧
      ∀ s ∈ (ofResolved keep package r).structs, GoFile.IsName s.name := by
  have hnames : (∀ s ∈ (ofResolved keep package r).structs, GoFile.isIdentifier s.name) ↔
      ∀ s ∈ (ofResolved keep package r).structs, GoFile.IsName s.name :=
    forall₂_congr fun _ hs ↦ Struct.isIdentifier_name_iff hs
  rw [log, Log.quiet_append, Struct.quiet_log, GoFile.quiet_log, hnames]
  tauto

/-- Warnings tell all there is to tell of names that Go would not take. -/
theorem quiet_iff_well_named {source : Source} {strict leaveOut : Bool} {r : Resolved}
    (h : (Resolved.load source strict leaveOut).result = .ok r) (keep : Bool) (package : Text) :
    (((ofResolved keep package r).log package).Quiet ↔
      ((ofResolved keep package r).structs.map Struct.name).Nodup ∧
      (∀ s ∈ (ofResolved keep package r).structs, (s.fields.map Field.name).Nodup) ∧
      ∀ s ∈ (ofResolved keep package r).structs, GoFile.IsName s.name) ∧
    (((ofResolved keep package r).log package).Quiet →
      ∀ s ∈ (ofResolved keep package r).structs, s.name ≠ "string" ∧
        (∀ f ∈ s.fields, GoFile.IsName f.name) ∧
        ∀ f ∈ s.childFields, ∃ t,
          (ofResolved keep package r).structs.filter (fun t ↦ t.name = f.typeName) = [t] ∧
          t.source = f.tag) := by
  refine ⟨quiet_log, fun hquiet s hs ↦ ⟨Struct.name_ne_string hs, ?_⟩⟩
  obtain ⟨hdistinct, _, hnames⟩ := quiet_log.mp hquiet
  obtain ⟨d, _, hr⟩ := Resolved.load_eq_ok h
  have hclosed : Struct.Closed (Struct.all keep r.ontology r.children) := by
    rw [Ontology.ontology_of_resolve hr]
    exact Struct.closed_all fun _ _ hid ↦ Ontology.knows_of_resolve hr hid
  exact hclosed.well_named hdistinct hnames s hs

theorem namedThing_quiet :
    ∃ r, (Resolved.load (.text Struct.namedThing) false false).result = .ok r ∧
      ((ofResolved false "structs" r).log "structs").Quiet ∧
      (∀ s ∈ (ofResolved false "structs" r).structs, GoFile.IsName s.name) ∧
      ∀ s ∈ (ofResolved false "structs" r).structs, ∀ f ∈ s.childFields, ∃ t,
        (ofResolved false "structs" r).structs.filter (fun t ↦ t.name = f.typeName) = [t] ∧
        t.source = f.tag := by
  have hlevels : (Resolved.load (.text Struct.namedThing) false false).result.toOption.map
      (fun r ↦ ((ofResolved false "structs" r).log "structs").all fun rec ↦ rec.level ≠ .warning) =
        some true := by decide +kernel
  obtain ⟨r, hr, hlevel⟩ := Logged.exists_of_map_eq_some hlevels
  have hquiet : ((ofResolved false "structs" r).log "structs").Quiet := by
    intro rec hrec
    exact of_decide_eq_true (List.all_eq_true.mp hlevel rec hrec)
  obtain ⟨hiff, hnamed⟩ := quiet_iff_well_named hr false "structs"
  exact ⟨r, hr, hquiet, (hiff.mp hquiet).2.2, fun s hs ↦ (hnamed hquiet s hs).2.2⟩

end Generated

end OntologyStructs
