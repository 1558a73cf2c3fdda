import OntologyStructs.Proofs.Assoc
import OntologyStructs.Proofs.Checked
import OntologyStructs.Proofs.Path
import OntologyStructs.Settings

namespace OntologyStructs

namespace SettingKey

abbrev Value : SettingKey → Type
  | inputPath | outputPath => Path
  | packageName => Text
  | dumpPath | nodeLinkPath => Option Path
  | strictDuplicates | excludeSuperseded | keepVocabulary | format => Bool

def read : (k : SettingKey) → SettingValue → Checked k.Value
  | inputPath | outputPath => Settings.readPath
  | packageName => Settings.readPackageName
  | dumpPath | nodeLinkPath => Settings.readPath?
  | strictDuplicates | excludeSuperseded | keepVocabulary | format => Settings.readFlag

def write : (k : SettingKey) → k.Value → SettingValue
  | inputPath | outputPath => fun p ↦ .text p.toText
  | packageName => .text
  | dumpPath | nodeLinkPath => Settings.givenPath
  | strictDuplicates | excludeSuperseded | keepVocabulary | format => .bool

theorem readPath_toText {v : SettingValue} {p : Path} (h : Settings.readPath v = .ok p) :
    Settings.readPath (.text p.toText) = .ok p := by
  cases v with
  | text t =>
    cases h
    exact congrArg Except.ok (Path.ofText_toText (Path.isNormal_ofText t))
  | null | bool _ | int _ | float _ | other => cases h

theorem readPath?_givenPath {v : SettingValue} {p : Option Path} (h : Settings.readPath? v = .ok p) :
    Settings.readPath? (Settings.givenPath p) = .ok p := by
  cases v with
  | null =>
    cases h
    rfl
  | text t =>
    cases h
    exact congrArg (Except.map some) (readPath_toText (v := .text t) rfl)
  | bool _ | int _ | float _ | other => cases h

theorem readPackageName_text {v : SettingValue} {t : Text}
    (h : Settings.readPackageName v = .ok t) : v = .text t ∧ Settings.isPackageName t := by
  cases v with
  | text u =>
    rw [Settings.readPackageName] at h
    split at h
    · next hu =>
      cases h
      exact ⟨rfl, hu⟩
    · cases h
  | null | bool _ | int _ | float _ | other => cases h

variable {k : SettingKey} {v : SettingValue} {x old new : k.Value}

/-- What is read for a setting would be read for it again. -/
theorem read_write (h : k.read v = .ok x) : k.read (k.write x) = .ok x := by
  cases k with
  | inputPath | outputPath => exact readPath_toText h
  | packageName =>
    obtain ⟨rfl, -⟩ := readPackageName_text h
    exact h
  | dumpPath | nodeLinkPath => exact readPath?_givenPath h
  | strictDuplicates | excludeSuperseded | keepVocabulary | format => rfl

/-- A setting keeps what it held where nothing is given for it, and else holds what is read. -/
inductive Takes (k : SettingKey) (old : k.Value) : Option SettingValue → k.Value → Prop
  | kept : Takes k old none old
  | given {v : SettingValue} {new : k.Value} (h : k.read v = .ok new) : Takes k old (some v) new

theorem takes_none : k.Takes old none new ↔ new = old :=
  ⟨fun h ↦ by cases h; rfl, fun h ↦ h ▸ .kept⟩

theorem takes_some : k.Takes old (some v) new ↔ k.read v = .ok new :=
  ⟨fun h ↦ by cases h; assumption, .given⟩

theorem exists_takes {v? : Option SettingValue} (old : k.Value)
    (h : ∀ v, v? = some v → ∃ x, k.read v = .ok x) : ∃ new, k.Takes old v? new := by
  cases v? with
  | none => exact ⟨old, .kept⟩
  | some v =>
    obtain ⟨x, hx⟩ := h v rfl
    exact ⟨x, .given hx⟩

end SettingKey

namespace GivenSettings

variable {given : GivenSettings}

def present (given : GivenSettings) : GivenSettings := given.filter fun (_, v) ↦ v ≠ .null

theorem nodup_keys_present (h : given.keys.Nodup) : given.present.keys.Nodup :=
  (List.filter_sublist.map _).nodup h

theorem present_of_notMem (h : SettingValue.null ∉ given.values) : given.present = given := by
  refine List.filter_eq_self.mpr fun e he ↦ decide_eq_true fun hnull ↦ h ?_
  exact hnull ▸ List.mem_map_of_mem he

end GivenSettings

namespace Settings

variable {s s' : Settings} {given updates : GivenSettings}

def value (s : Settings) : (k : SettingKey) → k.Value
  | .inputPath => s.inputPath
  | .outputPath => s.outputPath
  | .packageName => s.packageName
  | .dumpPath => s.dumpPath
  | .nodeLinkPath => s.nodeLinkPath
  | .strictDuplicates => s.strictDuplicates
  | .excludeSuperseded => s.excludeSuperseded
  | .keepVocabulary => s.keepVocabulary
  | .format => s.format

theorem get_eq (s : Settings) (k : SettingKey) : s.get k = k.write (s.value k) := by
  cases k <;> rfl

theorem exists_value (f : (k : SettingKey) → k.Value) : ∃ s : Settings, ∀ k, s.value k = f k :=
  ⟨⟨f .inputPath, f .outputPath, f .packageName, f .dumpPath, f .nodeLinkPath, f .strictDuplicates,
    f .excludeSuperseded, f .keepVocabulary, f .format⟩, fun k ↦ by cases k <;> rfl⟩

def assemble (read : (k : SettingKey) → Checked k.Value) (others : Checked Unit) : Checked Settings :=
  Checked.pure mk
    |>.apply (read .inputPath)
    |>.apply (read .outputPath)
    |>.apply (read .packageName)
    |>.apply (read .dumpPath)
    |>.apply (read .nodeLinkPath)
    |>.apply (read .strictDuplicates)
    |>.apply (read .excludeSuperseded)
    |>.apply (read .keepVocabulary)
    |>.apply (read .format)
    |>.before others

theorem assemble_eq_ok {read : (k : SettingKey) → Checked k.Value} {others : Checked Unit} :
    assemble read others = .ok s ↔ (∀ k, read k = .ok (s.value k)) ∧ ∃ u, others = .ok u := by
  constructor
  · intro h
    obtain ⟨h₉, hothers⟩ := Checked.before_eq_ok.mp h
    obtain ⟨_, _, h₈, hformat, rfl⟩ := Checked.apply_eq_ok.mp h₉
    obtain ⟨_, _, h₇, hkeep, rfl⟩ := Checked.apply_eq_ok.mp h₈
    obtain ⟨_, _, h₆, hexclude, rfl⟩ := Checked.apply_eq_ok.mp h₇
    obtain ⟨_, _, h₅, hstrict, rfl⟩ := Checked.apply_eq_ok.mp h₆
    obtain ⟨_, _, h₄, hnodeLink, rfl⟩ := Checked.apply_eq_ok.mp h₅
    obtain ⟨_, _, h₃, hdump, rfl⟩ := Checked.apply_eq_ok.mp h₄
    obtain ⟨_, _, h₂, hpackage, rfl⟩ := Checked.apply_eq_ok.mp h₃
    obtain ⟨_, _, h₁, houtput, rfl⟩ := Checked.apply_eq_ok.mp h₂
    obtain ⟨_, _, h₀, hinput, rfl⟩ := Checked.apply_eq_ok.mp h₁
    cases h₀
    refine ⟨fun k ↦ ?_, hothers⟩
    cases k <;> assumption
  · rintro ⟨h, hothers⟩
    refine Checked.before_eq_ok.mpr ⟨?_, hothers⟩
    have hinput := Checked.apply_ok (f := .ok mk) rfl (h .inputPath)
    have hpaths := Checked.apply_ok hinput (h .outputPath)
    have hpackage := Checked.apply_ok hpaths (h .packageName)
    have hdumps := Checked.apply_ok (Checked.apply_ok hpackage (h .dumpPath)) (h .nodeLinkPath)
    have hstrict := Checked.apply_ok hdumps (h .strictDuplicates)
    have hexclude := Checked.apply_ok hstrict (h .excludeSuperseded)
    have hkeep := Checked.apply_ok hexclude (h .keepVocabulary)
    exact Checked.apply_ok hkeep (h .format)

def readKey (given : GivenSettings) (k : SettingKey) : Checked k.Value :=
  readSetting given k k.read (value {} k)

theorem check_eq (given : GivenSettings) :
    check given = assemble (readKey given) (readNoOthers given) := rfl

theorem readKey_congr {given' : GivenSettings} {k : SettingKey}
    (h : given.get? k.name = given'.get? k.name) : readKey given k = readKey given' k := by
  rw [readKey, readKey, readSetting, readSetting, h]

theorem readKey_eq_ok {k : SettingKey} {x : k.Value} :
    readKey given k = .ok x ↔ k.Takes (value {} k) (given.get? k.name) x := by
  rw [readKey, readSetting]
  cases given.get? k.name with
  | none =>
    rw [SettingKey.takes_none]
    exact ⟨fun h ↦ (Except.ok.inj h).symm, fun h ↦ congrArg _ h.symm⟩
  | some v => exact Checked.below_eq_ok.trans SettingKey.takes_some.symm

theorem readNoOthers_eq_ok : (∃ u, readNoOthers given = .ok u) ↔ unknownNames given = [] := by
  rw [readNoOthers]
  cases unknownNames given with
  | nil => exact iff_of_true ⟨(), rfl⟩ rfl
  | cons name names => exact iff_of_false nofun nofun

theorem check_eq_ok : check given = .ok s ↔
    (∀ k : SettingKey, k.Takes (value {} k) (given.get? k.name) (s.value k)) ∧
      unknownNames given = [] := by
  simp only [check_eq, assemble_eq_ok, readKey_eq_ok, readNoOthers_eq_ok]

theorem check_congr {given' : GivenSettings} (h : ∀ k, readKey given k = readKey given' k)
    (h' : unknownNames given = unknownNames given') : check given = check given' := by
  have hread : readKey given = readKey given' := funext h
  rw [check_eq, check_eq, hread, readNoOthers, readNoOthers, h']

theorem issues_check : (check given).issues =
    (SettingKey.all.flatMap fun k ↦ (readKey given k).issues) ++ (readNoOthers given).issues := by
  rw [check_eq, assemble]
  simp only [Checked.issues_before, Checked.issues_apply]
  simp only [SettingKey.all, List.flatMap_cons, List.flatMap_nil, List.append_nil, List.append_assoc]
  rfl

/-- Every complaint about settings is about a name that is given. -/
theorem exists_given_of_mem_issues {i : Issue} (hi : i ∈ (check given).issues) :
    ∃ name ∈ given.keys, i.place.head? = some (.member name) := by
  rw [issues_check] at hi
  rcases List.mem_append.mp hi with hi | hi
  · obtain ⟨k, -, hi⟩ := List.mem_flatMap.mp hi
    rw [readKey, readSetting] at hi
    cases hv : given.get? k.name with
    | none =>
      rw [hv] at hi
      cases hi
    | some v =>
      rw [hv] at hi
      dsimp only at hi
      rw [Checked.issues_below] at hi
      obtain ⟨j, -, rfl⟩ := List.mem_map.mp hi
      exact ⟨k.name, (Assoc.mem_keys_iff k.name given).mpr ⟨v, hv⟩, rfl⟩
  · rw [readNoOthers] at hi
    have hunknown : unknownNames given ⊆ given.keys := List.filter_sublist.subset
    generalize unknownNames given = names at hi hunknown
    cases names with
    | nil => cases hi
    | cons name names =>
      obtain ⟨other, hother, rfl⟩ := List.mem_map.mp hi
      exact ⟨other, hunknown hother, rfl⟩

/-- Each setting holds what is read for it, were its value given again. -/
def Stable (s : Settings) : Prop := ∀ k : SettingKey, k.read (s.get k) = .ok (s.value k)

theorem stable_defaults : ({} : Settings).Stable := by
  intro k
  cases k <;> rfl

theorem Stable.of_takes (hs : s.Stable) {v? : SettingKey → Option SettingValue}
    (h : ∀ k : SettingKey, k.Takes (s.value k) (v? k) (s'.value k)) : s'.Stable := by
  intro k
  specialize h k
  rw [get_eq]
  generalize v? k = v?, s'.value k = new at h ⊢
  cases h with
  | kept => exact get_eq s k ▸ hs k
  | given h => exact SettingKey.read_write h

theorem stable_of_check (h : check given = .ok s) : s.Stable :=
  stable_defaults.of_takes (check_eq_ok.mp h).1

theorem get?_toGiven (s : Settings) (k : SettingKey) : s.toGiven.get? k.name = some (s.get k) := by
  cases k <;> rfl

theorem unknownNames_toGiven (s : Settings) : unknownNames s.toGiven = [] := rfl

theorem unknownNames_eq_nil : unknownNames given = [] ↔
    ∀ name ∈ given.keys, name ∈ SettingKey.all.map SettingKey.name := by
  simp [unknownNames, List.filter_eq_nil_iff]

theorem unknownNames_present (h : unknownNames given = []) : unknownNames given.present = [] := by
  rw [unknownNames_eq_nil] at h ⊢
  exact fun name hname ↦ h name ((List.filter_sublist.map _).subset hname)

theorem unknownNames_update (hgiven : unknownNames given = []) (hupdates : updates.keys.Nodup) :
    unknownNames (given.update updates) = unknownNames updates := by
  have hold : given.keys.filter (fun k ↦ !(SettingKey.all.map SettingKey.name).contains k) = [] :=
    hgiven
  rw [unknownNames, Assoc.keys_update hupdates, List.filter_append, hold, List.nil_append,
    List.filter_filter]
  refine List.filter_congr fun name _ ↦ ?_
  -- a name that no setting has is not among the old ones
  cases hname : given.contains name with
  | false => exact Bool.and_true _
  | true =>
    have hmem := unknownNames_eq_nil.mp hgiven name ((Assoc.contains_iff name given).mp hname)
    rw [List.contains_iff_mem.mpr hmem]
    rfl

/-- What settings hold goes before the defaults. -/
theorem takes_toGiven (hs : s.Stable) {k : SettingKey} {v? : Option SettingValue} {new : k.Value} :
    k.Takes (value {} k) (v?.or (s.toGiven.get? k.name)) new ↔ k.Takes (s.value k) v? new := by
  rw [get?_toGiven]
  cases v? with
  | none =>
    rw [Option.none_or, SettingKey.takes_some, SettingKey.takes_none, hs k, Except.ok.injEq]
    exact eq_comm
  | some v => rw [Option.some_or, SettingKey.takes_some, SettingKey.takes_some]

theorem check_toGiven_update (hs : s.Stable) (hupdates : updates.keys.Nodup) :
    check (s.toGiven.update updates) = .ok s' ↔
      (∀ k : SettingKey, k.Takes (s.value k) (updates.get? k.name) (s'.value k)) ∧
        unknownNames updates = [] := by
  simp only [check_eq_ok, unknownNames_update (unknownNames_toGiven s) hupdates,
    Assoc.get?_update hupdates, takes_toGiven hs]

theorem override_eq (hs : s.Stable) (updates : GivenSettings) :
    s.override updates = check (s.toGiven.update updates.present) := by
  rw [override]
  split
  · next h =>
    have hnone : updates.present = [] := h
    have hkeys : (Assoc.keys ([] : GivenSettings)).Nodup := List.nodup_nil
    have hself := (check_toGiven_update hs hkeys).mpr ⟨fun _ ↦ .kept, rfl⟩
    rw [hnone, hself]
  · rfl

theorem stable_of_override (hs : s.Stable) (h : s.override updates = .ok s') : s'.Stable := by
  rw [override_eq hs] at h
  exact stable_of_check h

theorem override_eq_ok (hs : s.Stable) (hupdates : updates.keys.Nodup) :
    s.override updates = .ok s' ↔
      (∀ k : SettingKey, k.Takes (s.value k) (updates.present.get? k.name) (s'.value k)) ∧
        unknownNames updates.present = [] := by
  rw [override_eq hs, check_toGiven_update hs (GivenSettings.nodup_keys_present hupdates)]

theorem exists_override (hs : s.Stable) (hupdates : updates.keys.Nodup)
    (hknown : unknownNames updates.present = []) : (∃ s', s.override updates = .ok s') ↔
      ∀ (k : SettingKey) (v : SettingValue), updates.present.get? k.name = some v →
        ∃ x, k.read v = .ok x := by
  constructor
  · rintro ⟨s', h⟩ k v hv
    have htakes := ((override_eq_ok hs hupdates).mp h).1 k
    rw [hv, SettingKey.takes_some] at htakes
    exact ⟨_, htakes⟩
  · intro h
    have hvalue (k : SettingKey) := SettingKey.exists_takes (s.value k) (h k)
    choose f hf using hvalue
    obtain ⟨s', hs'⟩ := exists_value f
    exact ⟨s', (override_eq_ok hs hupdates).mpr ⟨fun k ↦ (hs' k).symm ▸ hf k, hknown⟩⟩

/-- Settings that are changed twice are as if they were changed at once. -/
theorem override_override {a b : GivenSettings} {c : Settings} (hs : s.Stable) (ha : a.keys.Nodup)
    (hb : b.keys.Nodup) (hanull : .null ∉ a.values) (hbnull : .null ∉ b.values)
    (h : s.override a = .ok c) : c.override b = s.override (a.update b) := by
  have hnull : SettingValue.null ∉ (a.update b).values := by
    intro hmem
    rcases List.mem_append.mp (Assoc.values_update_subset a b hmem) with hmem | hmem
    · exact hbnull hmem
    · exact hanull hmem
  have hab : (a.update b).keys.Nodup := Assoc.nodup_keys_update ha b
  obtain ⟨htakes, hknown⟩ := (override_eq_ok hs ha).mp h
  rw [GivenSettings.present_of_notMem hanull] at htakes hknown
  have hc : c.Stable := hs.of_takes htakes
  rw [override_eq hc, override_eq hs, GivenSettings.present_of_notMem hbnull,
    GivenSettings.present_of_notMem hnull]
  apply check_congr
  · intro k
    cases hv : b.get? k.name with
    | some v =>
      apply readKey_congr
      rw [Assoc.get?_update hb, Assoc.get?_update hab, Assoc.get?_update hb, hv]
      rfl
    | none =>
      -- what the first change left is read again as it is
      have hold : readKey (c.toGiven.update b) k = .ok (c.value k) := by
        rw [readKey_eq_ok, Assoc.get?_update hb, hv, takes_toGiven hc]
        exact .kept
      have hnew : readKey (s.toGiven.update (a.update b)) k = .ok (c.value k) := by
        rw [readKey_eq_ok, Assoc.get?_update hab, Assoc.get?_update hb, hv, Option.none_or,
          takes_toGiven hs]
        exact htakes k
      rw [hold, hnew]
  · rw [unknownNames_update (unknownNames_toGiven c) hb,
      unknownNames_update (unknownNames_toGiven s) hab, unknownNames_update hknown hb]

end Settings

end OntologyStructs
