import OntologyStructs.Proofs.GoFile

namespace OntologyStructs

theorem exists_widest {α : Type} (width : α → Nat) {l : List α} (h : l ≠ []) :
    ∃ a ∈ l, width a = ((l.map width).max?).getD 0 := by
  obtain ⟨m, hm⟩ : ∃ m, (l.map width).max? = some m :=
    Option.ne_none_iff_exists'.mp (mt List.max?_eq_none_iff.mp (mt List.map_eq_nil_iff.mp h))
  obtain ⟨a, ha, rfl⟩ := List.mem_map.mp (List.max?_mem hm)
  exact ⟨a, ha, by rw [hm, Option.getD_some]⟩

namespace GoFile

variable {fields : List Field} {f : Field}

/-- A row whose type begins in one column and whose tag in another, with one or more spaces in front of
each and nothing else. -/
def InColumns (typeColumn tagColumn : Nat) (f : Field) (row : Text) : Prop :=
  ∃ m n, row = f.name ++ List.replicate (m + 1) (' ' : CodePoint) ++ f.goType ++
      List.replicate (n + 1) (' ' : CodePoint) ++ f.goTag ∧
    f.name.length + (m + 1) = typeColumn ∧ typeColumn + f.goType.length + (n + 1) = tagColumn

theorem inColumns_row {nameWidth typeWidth : Nat} (hname : f.name.length ≤ nameWidth)
    (htype : f.goType.length ≤ typeWidth) :
    InColumns (nameWidth + 1) (nameWidth + 1 + typeWidth + 1) f
      (f.name.padRight nameWidth ++ " " ++ f.goType.padRight typeWidth ++ " " ++ f.goTag) := by
  refine ⟨nameWidth - f.name.length, typeWidth - f.goType.length, ?_, by omega, by omega⟩
  rw [List.append_assoc _ (f.goType.padRight typeWidth), Text.padRight_append_space,
    Text.padRight_append_space, ← List.append_assoc]

/-- The types of the rows of a struct stand in one column and the tags in another, no further to the
right than the longest name and the longest type need, and nothing but spaces is before them. What has
no space in its name and in its type, and is not without a type, is read back from its row. -/
theorem rows_in_columns (h : fields ≠ []) :
    ∃ typeColumn tagColumn,
      List.Forall₂ (InColumns typeColumn tagColumn) fields (rows fields) ∧
      (∃ f ∈ fields, f.name.length + 1 = typeColumn) ∧
      (∃ f ∈ fields, typeColumn + f.goType.length + 1 = tagColumn) ∧
      ((∀ f ∈ fields, f.Legible) → (rows fields).map readRow = fields.map Row.ofField) := by
  obtain ⟨named, hnamed, hname⟩ := exists_widest (fun f ↦ f.name.length) h
  obtain ⟨typed, htyped, htype⟩ := exists_widest (fun f ↦ f.goType.length) h
  refine ⟨_, _, ?_, ⟨named, hnamed, congrArg (· + 1) hname⟩,
    ⟨typed, htyped, congrArg (_ + 1 + · + 1) htype⟩, readRow_rows⟩
  rw [rows, List.forall₂_map_right_iff, List.forall₂_same]
  exact fun f hf ↦ inColumns_row (List.le_max?_getD_of_mem (List.mem_map_of_mem hf))
    (List.le_max?_getD_of_mem (List.mem_map_of_mem hf))

/-- Fields without a name, with a letter that is not ASCII, and with a space in the tag. -/
def unevenFields : List Field := [⟨[], "string", "a b", false⟩, ⟨"Café", [], "@id", true⟩]

theorem uneven_in_columns : unevenFields ≠ [] ∧ (∀ f ∈ unevenFields, f.Legible) ∧
    rows unevenFields = ["     string `json:\"a b\"`", "Café []*    `json:\"@id\"`"] ∧
    (∃ typeColumn tagColumn,
      List.Forall₂ (InColumns typeColumn tagColumn) unevenFields (rows unevenFields)) ∧
    (rows unevenFields).map readRow =
      [⟨[], "string", "`json:\"a b\"`"⟩, ⟨"Café", "[]*", "`json:\"@id\"`"⟩] := by
  have hne : unevenFields ≠ [] := List.cons_ne_nil _ _
  have hlegible : ∀ f ∈ unevenFields, f.Legible := by
    intro f hf
    rcases List.mem_pair.mp hf with rfl | rfl <;> exact ⟨by decide, by decide, by decide⟩
  obtain ⟨typeColumn, tagColumn, hrows, _, _, hread⟩ := rows_in_columns hne
  exact ⟨hne, hlegible, by decide, ⟨typeColumn, tagColumn, hrows⟩, (hread hlegible).trans (by decide)⟩

end GoFile

end OntologyStructs
