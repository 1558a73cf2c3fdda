import OntologyStructs.Issue
import OntologyStructs.Proofs.Logged

namespace OntologyStructs.Checked

variable {α β : Type} {x : Checked α} {y : Checked β} {f : Checked (α → β)} {s : Selector} {a : α}

theorem below_eq_ok : x.below s = .ok a ↔ x = .ok a := mapError_eq_ok

theorem exists_below_eq_ok : (∃ a, x.below s = .ok a) ↔ ∃ a, x = .ok a := by
  simp only [below_eq_ok]

theorem issues_below : (x.below s).issues = x.issues.map (Issue.below s) := by
  cases x <;> rfl

theorem apply_eq_ok {b : β} : f.apply x = .ok b ↔ ∃ g a, f = .ok g ∧ x = .ok a ∧ g a = b := by
  cases f with
  | error is => exact iff_of_false nofun nofun
  | ok g =>
    cases x with
    | error is => exact iff_of_false nofun nofun
    | ok a =>
      constructor
      · exact fun h ↦ ⟨g, a, rfl, rfl, Except.ok.inj h⟩
      · rintro ⟨_, _, ⟨⟩, ⟨⟩, rfl⟩
        rfl

theorem apply_ok {g : α → β} (hf : f = .ok g) (hx : x = .ok a) : f.apply x = .ok (g a) :=
  apply_eq_ok.mpr ⟨g, a, hf, hx, rfl⟩

theorem issues_apply : (f.apply x).issues = f.issues ++ x.issues := by
  cases f <;> cases x <;> rfl

theorem before_eq_ok : x.before y = .ok a ↔ x = .ok a ∧ ∃ b, y = .ok b := by
  cases x with
  | error is => exact iff_of_false nofun nofun
  | ok a' =>
    cases y with
    | error is => exact iff_of_false nofun nofun
    | ok b => exact (and_iff_left ⟨b, rfl⟩).symm

theorem issues_before : (x.before y).issues = x.issues ++ y.issues := by
  cases x <;> cases y <;> rfl

end OntologyStructs.Checked
