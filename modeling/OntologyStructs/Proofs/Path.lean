import OntologyStructs.Files.Path
import OntologyStructs.Proofs.Lines

namespace OntologyStructs.Path

variable {p : Path} {t : Text}

def IsPart (part : Text) : Prop := ('/' : CodePoint) ∉ part ∧ part ≠ [] ∧ part ≠ "."

def IsNormal (p : Path) : Prop := ∀ part ∈ p.parts, IsPart part

theorem isNormal_ofText (t : Text) : (ofText t).IsNormal := by
  intro part hpart
  obtain ⟨hmem, hproper⟩ := List.mem_filter.mp hpart
  exact ⟨Text.notMem_of_mem_splitOn hmem, of_decide_eq_true hproper⟩

theorem head?_join (h : p.IsNormal) : (Text.join "/" p.parts).head? ≠ some ('/' : CodePoint) := by
  obtain ⟨root, parts⟩ := p
  cases parts with
  | nil => nofun
  | cons part parts =>
    obtain ⟨hslash, hne, -⟩ := h part List.mem_cons_self
    obtain ⟨c, r, rfl⟩ := List.exists_cons_of_ne_nil hne
    have hc : c ≠ '/' := fun hc ↦ hslash (hc ▸ List.mem_cons_self)
    cases parts <;> exact fun h ↦ hc (Option.some.inj h)

theorem rootOf_append (root : PathRoot) (ht : t.head? ≠ some ('/' : CodePoint)) :
    rootOf (root.toText ++ t) = root := by
  have hnone : t.takeWhile (· == CodePoint.ofChar '/') = [] := by
    cases t with
    | nil => rfl
    | cons c t =>
      have hc : (c == CodePoint.ofChar '/') = false :=
        beq_eq_false_iff_ne.mpr fun hc ↦ ht (congrArg some hc)
      rw [List.takeWhile_cons, hc]
      rfl
  have hroot : ∀ c ∈ root.toText, (c == CodePoint.ofChar '/') = true :=
    List.all_eq_true.mp (by cases root <;> rfl)
  rw [rootOf, List.takeWhile_append_of_pos hroot, hnone, List.append_nil]
  cases root <;> rfl

theorem parts_ofText_append (root : PathRoot) (t : Text) :
    (ofText (root.toText ++ t)).parts = (ofText t).parts := by
  cases root <;> rfl

theorem parts_ofText_join (h : p.IsNormal) : (ofText (Text.join "/" p.parts)).parts = p.parts := by
  by_cases hparts : p.parts = []
  · rw [hparts]
    rfl
  · have hsplit : (Text.join "/" p.parts).splitOn '/' = p.parts :=
      Text.splitOn_join hparts fun part hpart ↦ (h part hpart).1
    rw [ofText, hsplit]
    exact List.filter_eq_self.mpr fun part hpart ↦ decide_eq_true (h part hpart).2

/-- A path is read back from its text. -/
theorem ofText_toText (h : p.IsNormal) : ofText p.toText = p := by
  rw [toText]
  split
  · next hp =>
    obtain ⟨root, parts⟩ := p
    obtain ⟨rfl, rfl⟩ := hp
    rfl
  · have hroot : rootOf (p.root.toText ++ Text.join "/" p.parts) = p.root :=
      rootOf_append p.root (head?_join h)
    have hparts : (ofText (p.root.toText ++ Text.join "/" p.parts)).parts = p.parts :=
      (parts_ofText_append p.root _).trans (parts_ofText_join h)
    exact congr (congrArg Path.mk hroot) hparts

end OntologyStructs.Path
