import OntologyStructs.CommandLine
import OntologyStructs.Proofs.Settings.Loading

namespace OntologyStructs.CommandLine

namespace Request

variable {tree : FileTree} {r : Request} {s : Settings}

/-- The flags of a request are settings, and none is there twice. -/
structure Named (r : Request) : Prop where
  nodup : r.given.keys.Nodup
  known : Settings.unknownNames r.given = []

theorem named_start : Request.Named {} := ⟨List.nodup_nil, rfl⟩

theorem Named.take (h : r.Named) (use : Use) : (r.take use).Named := by
  obtain ⟨flag, value⟩ := use
  rw [Request.take]
  split
  · exact h
  · exact ⟨h.nodup, h.known⟩
  · exact ⟨h.nodup, h.known⟩
  · next key _ =>
    refine ⟨Assoc.nodup_keys_insert _ _ h.nodup, Settings.unknownNames_eq_nil.mpr fun name hname ↦ ?_⟩
    have hkey : key.name ∈ SettingKey.all.map SettingKey.name :=
      List.mem_map_of_mem (by cases key <;> decide)
    rw [Assoc.keys_insert] at hname
    split at hname
    · exact Settings.unknownNames_eq_nil.mp h.known name hname
    · rcases List.mem_append.mp hname with hname | hname
      · exact Settings.unknownNames_eq_nil.mp h.known name hname
      · exact List.mem_singleton.mp hname ▸ hkey

theorem Named.foldl_take (h : r.Named) (uses : List Use) : (uses.foldl Request.take r).Named := by
  induction uses generalizing r with
  | nil => exact h
  | cons use uses ih => exact ih (h.take use)

theorem named_of_read {args : List Text} (h : read args = .ok (some r)) : r.Named := by
  obtain ⟨⟨arguments, tail⟩, -, h⟩ := bind_eq_ok.mp h
  dsimp only at h
  split at h
  · cases h
  · split at h
    · cases h
    · cases h
      exact named_start.foldl_take _
    · cases h

theorem result_settings (hload : (Settings.load tree r.config).result = .ok s) :
    (r.settings tree).result = (s.override r.given).mapError .invalid := by
  rw [Request.settings, Logged.result_bind, hload]
  rfl

/-- Flags go before what the source of the settings says, and that before the defaults. Only a flag
whose value cannot be read is in the way. Changes can be made one after the other or at once. -/
theorem settings_precedence (hload : (Settings.load tree r.config).result = .ok s) (hr : r.Named) :
    (∃ given, Settings.givenBy tree r.config = .ok given ∧
      ∀ k : SettingKey, k.Takes (Settings.value {} k) (given.get? k.name) (s.value k)) ∧
    (∀ s', (r.settings tree).result = .ok s' →
      ∀ k : SettingKey, k.Takes (s.value k) (r.given.present.get? k.name) (s'.value k)) ∧
    ((∃ issues, (r.settings tree).result = .error (.invalid issues)) ↔
      ∃ (k : SettingKey) (v : SettingValue), r.given.present.get? k.name = some v ∧
        ∃ issues, k.read v = .error issues) ∧
    (∀ e, (r.settings tree).result = .error e → ∃ issues, e = .invalid issues) ∧
    ∀ (given : GivenSettings) (c : Settings), Settings.check given = .ok c →
      ∀ a b : GivenSettings, a.keys.Nodup → b.keys.Nodup → .null ∉ a.values → .null ∉ b.values →
        ∀ c', c.override a = .ok c' → c'.override b = c.override (a.update b) := by
  have hs : s.Stable := Settings.stable_of_load hload
  rw [result_settings hload]
  refine ⟨?_, ?_, ?_, ?_, ?_⟩
  · obtain ⟨given, hgiven, hcheck⟩ := Settings.load_eq_ok.mp hload
    exact ⟨given, hgiven, (Settings.check_eq_ok.mp hcheck).1⟩
  · intro s' hs'
    exact ((Settings.override_eq_ok hs hr.nodup).mp (mapError_eq_ok.mp hs')).1
  · have hfails : (∃ issues, (s.override r.given).mapError SettingsError.invalid =
        .error (.invalid issues)) ↔ ∃ issues, s.override r.given = .error issues := by
      simp [mapError_eq_error]
    rw [hfails, exists_eq_error, Settings.exists_override hs hr.nodup
      (Settings.unknownNames_present hr.known)]
    simp only [exists_eq_error, not_forall, exists_prop]
  · intro e he
    obtain ⟨issues, -, rfl⟩ := mapError_eq_error.mp he
    exact ⟨issues, rfl⟩
  · intro given c hc a b ha hb hanull hbnull c'
    exact Settings.override_override (Settings.stable_of_check hc) ha hb hanull hbnull

/-- A source that is strict and dumps, and flags that name a package and format the file. -/
def termsArguments : List Text :=
  ["-c", "\x7b\"strict_duplicates\": \"Yes\", \"dump_path\": \".//all/./nodes.json\"\x7d", "-p", "terms",
    "--gofmt"]

def termsFlags : GivenSettings := [("package_name", .text "terms"), ("gofmt", .bool true)]

def unformatted : GivenSettings := [("gofmt", .bool false)]

def moved : GivenSettings := [("output_path", .text "terms.go"), ("gofmt", .text "on")]

theorem terms_precedence : ∃ r s s' c,
    read termsArguments = .ok (some r) ∧ r.Named ∧ (Settings.load ⟨[], []⟩ r.config).result = .ok s ∧
      (r.settings ⟨[], []⟩).result = .ok s' ∧
      s.strictDuplicates = true ∧ s'.strictDuplicates = s.strictDuplicates ∧ s'.dumpPath = s.dumpPath ∧
      Settings.readPackageName (.text "terms") = .ok s'.packageName ∧
      s.override unformatted = .ok c ∧ c.override moved = s.override (unformatted.update moved) := by
  have hevaluated : ((read termsArguments).toOption.bind id).bind (fun r ↦
      (Settings.load ⟨[], []⟩ r.config).result.toOption.bind fun s ↦
        (r.settings ⟨[], []⟩).result.toOption.bind fun _ ↦
          (s.override unformatted).toOption.map fun _ ↦ (s.strictDuplicates, r.given)) =
      some (true, termsFlags) := by decide +kernel
  obtain ⟨r, hr, h⟩ := Option.bind_eq_some_iff.mp hevaluated
  obtain ⟨_, hread, rfl⟩ := exists_of_toOption_bind_eq_some hr
  obtain ⟨s, hload, h⟩ := exists_of_toOption_bind_eq_some h
  obtain ⟨s', hsettings, h⟩ := exists_of_toOption_bind_eq_some h
  obtain ⟨c, hc, h⟩ := exists_of_toOption_map_eq_some h
  obtain ⟨hstrict, hgiven⟩ := Prod.mk.inj h
  have hnamed : r.Named := named_of_read hread
  obtain ⟨-, htakes, -, -, hcompose⟩ := settings_precedence hload hnamed
  have hflags (k : SettingKey) := htakes s' hsettings k
  rw [hgiven] at hflags
  obtain ⟨given, -, hcheck⟩ := Settings.load_eq_ok.mp hload
  exact ⟨r, s, s', c, hread, hnamed, hload, hsettings, hstrict,
    SettingKey.takes_none.mp (hflags .strictDuplicates), SettingKey.takes_none.mp (hflags .dumpPath),
    SettingKey.takes_some.mp (hflags .packageName), hc,
    hcompose given s hcheck unformatted moved (by decide) (by decide) (by decide) (by decide) c hc⟩

end Request

end OntologyStructs.CommandLine
