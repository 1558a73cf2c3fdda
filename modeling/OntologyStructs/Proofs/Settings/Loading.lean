import OntologyStructs.Proofs.Settings
import OntologyStructs.Settings.Loading

namespace OntologyStructs.Settings

variable {tree : FileTree} {source : Json} {s : Settings}

def givenBy (tree : FileTree) : Json → Except SettingsError GivenSettings
  | .null => .ok []
  | .object members => .ok (.ofMembers members)
  | .text t => (locate tree t).result >>= fun (format, text) ↦ parse format text
  | .bool _ => .error (.unsupported .bool)
  | .int _ => .error (.unsupported .int)
  | .float _ => .error (.unsupported .float)
  | .list _ => .error (.unsupported .list)

theorem check_nil : check [] = .ok {} := check_eq_ok.mpr ⟨fun _ ↦ .kept, rfl⟩

theorem result_load (tree : FileTree) (source : Json) :
    (load tree source).result = givenBy tree source >>= ofGiven := by
  cases source with
  | null => exact (congrArg (Except.mapError SettingsError.invalid) check_nil).symm
  | text t =>
    rw [load, Logged.result_bind, givenBy, bind_assoc]
    rfl
  | object _ | bool _ | int _ | float _ | list _ => rfl

theorem ofGiven_eq_ok {given : GivenSettings} : ofGiven given = .ok s ↔ check given = .ok s :=
  mapError_eq_ok

theorem load_eq_ok : (load tree source).result = .ok s ↔
    ∃ given, givenBy tree source = .ok given ∧ check given = .ok s := by
  simp only [result_load, bind_eq_ok, ofGiven_eq_ok]

theorem stable_of_load (h : (load tree source).result = .ok s) : s.Stable := by
  obtain ⟨given, -, hcheck⟩ := load_eq_ok.mp h
  exact stable_of_check hcheck

end OntologyStructs.Settings
