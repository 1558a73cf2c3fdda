import OntologyStructs.Proofs.Json.Portable

namespace OntologyStructs

namespace Json

open Text

theorem isPlainAscii_compactItems {vs : List Json} (h : ∀ w ∈ vs, w.compact.isPlainAscii) :
    (compactItems vs).isPlainAscii := by
  induction vs with
  | nil => rfl
  | cons v vs ih =>
    obtain ⟨hv, hvs⟩ := List.forall_mem_cons.mp h
    cases vs with
    | nil => exact hv
    | cons w vs =>
      rw [compactItems, isPlainAscii_append, isPlainAscii_append, hv, ih hvs]
      · rfl
      · nofun

theorem isPlainAscii_compactMembers {ms : List (Text × Json)}
    (h : ∀ w ∈ Assoc.values ms, w.compact.isPlainAscii) : (compactMembers ms).isPlainAscii := by
  have hkey (k : Text) : (asciiString k).isPlainAscii := isPlainAscii_asciiString k
  induction ms with
  | nil => rfl
  | cons m ms ih =>
    obtain ⟨k, v⟩ := m
    obtain ⟨hv, hms⟩ := List.forall_mem_cons.mp h
    cases ms with
    | nil =>
      rw [compactMembers, isPlainAscii_append, isPlainAscii_append, hkey, hv]
      rfl
    | cons m ms =>
      rw [compactMembers]
      · simp only [isPlainAscii_append, hkey, hv, ih hms]
        rfl
      · nofun

/-- A value on one line is printable ASCII throughout. -/
theorem isPlainAscii_compact (v : Json) : v.compact.isPlainAscii := by
  induction v using induct with
  | h v ih =>
    cases v with
    | null => rfl
    | bool b => cases b <;> rfl
    | int n => exact isPlainAscii_ofInt n
    | float x => exact NumberStyle.isPlainAscii_write x
    | text t => exact isPlainAscii_asciiString t
    | list items =>
      have hitems : (compactItems items).isPlainAscii := isPlainAscii_compactItems ih
      rw [compact, isPlainAscii_append, isPlainAscii_append, hitems]
      rfl
    | object members =>
      have hmembers : (compactMembers members).isPlainAscii := isPlainAscii_compactMembers ih
      rw [compact, isPlainAscii_append, isPlainAscii_append, hmembers]
      rfl

end Json

end OntologyStructs
