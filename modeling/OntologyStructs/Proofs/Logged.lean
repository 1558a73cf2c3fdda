import OntologyStructs.Log

namespace OntologyStructs

section Except

variable {ε δ α β : Type} {x : Except ε α} {a : α} {b : β}

theorem bind_eq_ok {f : α → Except ε β} : x >>= f = .ok b ↔ ∃ a, x = .ok a ∧ f a = .ok b := by
  cases x with
  | error e => exact iff_of_false nofun nofun
  | ok a => exact ⟨fun h ↦ ⟨a, rfl, h⟩, fun ⟨_, ha, h⟩ ↦ Except.ok.inj ha ▸ h⟩

theorem bind_eq_error {f : α → Except ε β} {e : ε} :
    x >>= f = .error e ↔ x = .error e ∨ ∃ a, x = .ok a ∧ f a = .error e := by
  cases x with
  | error d =>
    change (.error d : Except ε β) = .error e ↔ _
    rw [Except.error.injEq, Except.error.injEq]
    exact ⟨.inl, fun h ↦ h.elim id nofun⟩
  | ok a => exact ⟨fun h ↦ .inr ⟨a, rfl, h⟩, fun h ↦ h.elim nofun fun ⟨_, ha, h⟩ ↦ Except.ok.inj ha ▸ h⟩

theorem mapError_eq_ok {f : ε → δ} : x.mapError f = .ok a ↔ x = .ok a := by
  cases x with
  | ok b =>
    change (Except.ok b : Except δ α) = .ok a ↔ _
    rw [Except.ok.injEq, Except.ok.injEq]
  | error e => exact iff_of_false nofun nofun

theorem mapError_eq_error {f : ε → δ} {d : δ} :
    x.mapError f = .error d ↔ ∃ e, x = .error e ∧ f e = d := by
  cases x with
  | ok b => exact iff_of_false nofun nofun
  | error e => exact ⟨fun h ↦ ⟨e, rfl, Except.error.inj h⟩, fun ⟨_, he, h⟩ ↦ Except.error.inj he ▸ h ▸ rfl⟩

theorem exists_eq_error : (∃ e, x = .error e) ↔ ¬ ∃ a, x = .ok a := by
  cases x with
  | ok a => exact iff_of_false nofun (not_not_intro ⟨a, rfl⟩)
  | error e => exact iff_of_true ⟨e, rfl⟩ nofun

theorem exists_of_toOption_bind_eq_some {f : α → Option β} (h : x.toOption.bind f = some b) :
    ∃ a, x = .ok a ∧ f a = some b := by
  cases x with
  | error e => cases h
  | ok a => exact ⟨a, rfl, h⟩

theorem exists_of_toOption_map_eq_some {f : α → β} (h : x.toOption.map f = some b) :
    ∃ a, x = .ok a ∧ f a = b := by
  cases x with
  | error e => cases h
  | ok a => exact ⟨a, rfl, Option.some.inj h⟩

end Except

namespace Logged

variable {ε δ α β : Type} {x : Logged ε α} {a : α} {b : β}

theorem result_bind (x : Logged ε α) (f : α → Logged ε β) :
    (x >>= f).result = x.result >>= fun a ↦ (f a).result := by
  change (x.bind f).result = _
  rw [bind]
  cases x.result <;> rfl

theorem bind_eq_ok {f : α → Logged ε β} :
    (x >>= f).result = .ok b ↔ ∃ a, x.result = .ok a ∧ (f a).result = .ok b := by
  change (x.bind f).result = .ok b ↔ _
  rw [bind]
  cases h : x.result <;> simp

theorem exists_of_map_eq_some {f : α → β} (h : x.result.toOption.map f = some b) :
    ∃ a, x.result = .ok a ∧ f a = b := exists_of_toOption_map_eq_some h

theorem mapError_eq_ok (f : ε → δ) : (x.mapError f).result = .ok a ↔ x.result = .ok a :=
  OntologyStructs.mapError_eq_ok

end Logged

end OntologyStructs
