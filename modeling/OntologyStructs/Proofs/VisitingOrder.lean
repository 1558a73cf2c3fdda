import OntologyStructs.Ontology.VisitingOrder
import OntologyStructs.Proofs.Links

namespace OntologyStructs

namespace VisitingOrder

variable (targets : List (List Nat)) {p q r : Nat}

def Target (p q : Nat) : Prop := ∃ qs, targets[p]? = some qs ∧ q ∈ qs

abbrev Above (p q : Nat) : Prop := Relation.TransGen (Target targets) p q

def StrictlyAbove (p q : Nat) : Prop := Above targets p q ∧ ¬ Above targets q p

variable {targets}

theorem StrictlyAbove.trans (hpq : StrictlyAbove targets p q) (hqr : StrictlyAbove targets q r) :
    StrictlyAbove targets p r :=
  ⟨hpq.1.trans hqr.1, fun h ↦ hpq.2 (hqr.1.trans h)⟩

theorem StrictlyAbove.irrefl (p : Nat) : ¬ StrictlyAbove targets p p := fun h ↦ h.2 h.1

theorem strictlyAbove_iff : StrictlyAbove targets p q ↔
    Relation.ReflTransGen (Target targets) p q ∧ ¬ Relation.ReflTransGen (Target targets) q p := by
  constructor
  · intro h
    obtain ⟨hpq, hqp⟩ := h
    refine ⟨hpq.to_reflTransGen, fun h ↦ ?_⟩
    rcases Relation.reflTransGen_iff_eq_or_transGen.mp h with rfl | h
    · exact hqp hpq
    · exact hqp h
  · intro h
    obtain ⟨hpq, hqp⟩ := h
    refine ⟨?_, fun h ↦ hqp h.to_reflTransGen⟩
    rcases Relation.reflTransGen_iff_eq_or_transGen.mp hpq with rfl | h
    · exact absurd .refl hqp
    · exact h

/-- Among positions that wait there is one with nothing strictly above it. -/
theorem exists_highest (waiting : List Nat) (h : waiting ≠ []) :
    ∃ p ∈ waiting, ∀ q ∈ waiting, ¬ StrictlyAbove targets p q := by
  induction waiting with
  | nil => exact absurd rfl h
  | cons a l ih =>
    cases l with
    | nil =>
      refine ⟨a, by simp, fun q hq ↦ ?_⟩
      rw [List.mem_singleton.mp hq]
      exact StrictlyAbove.irrefl a
    | cons b l =>
      obtain ⟨p, hp, hmax⟩ := ih (by simp)
      by_cases ha : StrictlyAbove targets p a
      · refine ⟨a, List.mem_cons_self, fun q hq haq ↦ ?_⟩
        rcases List.mem_cons.mp hq with rfl | hq
        · exact StrictlyAbove.irrefl q haq
        · exact hmax q hq (ha.trans haq)
      · refine ⟨p, List.mem_cons_of_mem a hp, fun q hq ↦ ?_⟩
        rcases List.mem_cons.mp hq with rfl | hq
        · exact ha
        · exact hmax q hq

variable (targets)

theorem above_ofTargets : (ofTargets targets).above.has p q ↔ Above targets p q := by
  have hl : (Links.ofTargets targets).Linked = Target targets := by
    funext p q
    exact propext (Links.has_ofTargets targets)
  rw [ofTargets, Links.has_closure, hl]

theorem testBit_strictlyAbove (hp : p < targets.length) (hq : q < targets.length) :
    ((ofTargets targets).strictlyAbove.getD p 0).testBit q ↔ StrictlyAbove targets p q := by
  have hr : (ofTargets targets).strictlyAbove.getD p 0 =
      Links.row ((List.range targets.length).filter fun q ↦
        (ofTargets targets).above.has p q && !(ofTargets targets).above.has q p) := by
    simp [ofTargets, hp]
  rw [hr, Links.testBit_row]
  simp [StrictlyAbove, ← above_ofTargets, hq]

theorem ready_iff {waiting : List Nat} (hw : ∀ q ∈ waiting, q < targets.length)
    (hp : p < targets.length) :
    (ofTargets targets).ready (Links.row waiting) p ↔
      ∀ q ∈ waiting, ¬ StrictlyAbove targets p q := by
  rw [ready, beq_iff_eq]
  constructor
  · intro h q hq hs
    have hb := congrArg (Nat.testBit · q) h
    simp only [Nat.testBit_and, Links.testBit_row, hq, decide_true, Bool.and_true,
      Nat.zero_testBit] at hb
    rw [(testBit_strictlyAbove targets hp (hw q hq)).mpr hs] at hb
    cases hb
  · intro h
    apply Nat.eq_of_testBit_eq
    intro q
    rw [Nat.testBit_and, Links.testBit_row, Nat.zero_testBit, Bool.and_eq_false_iff]
    by_cases hq : q ∈ waiting
    · left
      rw [Bool.eq_false_iff, ne_eq, testBit_strictlyAbove targets hp (hw q hq)]
      exact h q hq
    · exact .inr (decide_eq_false hq)

theorem together_iff : (ofTargets targets).together p q ↔
    p = q ∨ Above targets p q ∧ Above targets q p := by
  simp [together, Links.bothWays, above_ofTargets]

theorem together_trans (hpq : (ofTargets targets).together p q)
    (hqr : (ofTargets targets).together q r) : (ofTargets targets).together p r := by
  rw [together_iff] at hpq hqr ⊢
  rcases hpq with rfl | ⟨hpq, hqp⟩
  · exact hqr
  · rcases hqr with rfl | ⟨hqr, hrq⟩
    · exact .inr ⟨hpq, hqp⟩
    · exact .inr ⟨hpq.trans hqr, hrq.trans hqp⟩

/-- Positions in one circle have the same strictly above them. -/
theorem StrictlyAbove.of_together (h : (ofTargets targets).together p q)
    (hs : StrictlyAbove targets q r) : StrictlyAbove targets p r := by
  rcases (together_iff targets).mp h with rfl | ⟨hpq, hqp⟩
  · exact hs
  · exact ⟨hpq.trans hs.1, fun hrp ↦ hs.2 (hrp.trans hpq)⟩

theorem not_strictlyAbove_of_together (hp : (ofTargets targets).together r p)
    (hq : (ofTargets targets).together r q) : ¬ StrictlyAbove targets p q := by
  intro h
  obtain ⟨hrq, hqr⟩ := StrictlyAbove.of_together targets hp h
  rcases (together_iff targets).mp hq with rfl | ⟨_, hqr'⟩
  · exact hqr hrq
  · exact hqr hqr'

/-- Only where nothing waits is nothing ready. -/
theorem eq_nil_of_find?_ready {waiting : List Nat} (hw : ∀ q ∈ waiting, q < targets.length)
    (h : waiting.find? ((ofTargets targets).ready (Links.row waiting)) = none) : waiting = [] := by
  by_cases hn : waiting = []
  · exact hn
  · obtain ⟨p, hp, hmax⟩ := @exists_highest targets waiting hn
    exact absurd ((ready_iff targets hw (hw p hp)).mpr hmax) (List.find?_eq_none.mp h p hp)

theorem length_left_lt {waiting : List Nat} (hp : p ∈ waiting) :
    (waiting.filter fun q ↦ !(ofTargets targets).together p q).length < waiting.length := by
  have hself : (ofTargets targets).together p p := (together_iff targets).mpr (.inl rfl)
  exact List.length_filter_lt_length_iff_exists.mpr ⟨p, hp, by simp [hself]⟩

/-- All that waits is visited, and nothing before what is strictly above it. -/
theorem visit_spec (fuel : Nat) (waiting : List Nat) (hw : ∀ p ∈ waiting, p < targets.length)
    (hf : waiting.length ≤ fuel) :
    ((ofTargets targets).visit fuel waiting).Perm waiting ∧
      ((ofTargets targets).visit fuel waiting).Pairwise fun p q ↦ ¬ StrictlyAbove targets p q := by
  induction fuel generalizing waiting with
  | zero =>
    rw [List.eq_nil_of_length_eq_zero (Nat.le_zero.mp hf)]
    exact ⟨.refl _, .nil⟩
  | succ fuel ih =>
    rw [visit]
    cases hp : waiting.find? ((ofTargets targets).ready (Links.row waiting)) with
    | none =>
      rw [eq_nil_of_find?_ready targets hw hp]
      exact ⟨.refl _, .nil⟩
    | some p =>
      have hm : p ∈ waiting := List.mem_of_find?_eq_some hp
      have hready := (ready_iff targets hw (hw p hm)).mp (List.find?_some hp)
      have hlen := length_left_lt targets hm
      obtain ⟨hperm, hpair⟩ := ih (waiting.filter fun q ↦ !(ofTargets targets).together p q)
        (fun q hq ↦ hw q (List.mem_filter.mp hq).1) (by omega)
      refine ⟨(hperm.append_left _).trans (List.filter_append_perm _ waiting),
        List.pairwise_append.mpr ⟨?_, hpair, ?_⟩⟩
      · apply List.pairwise_of_forall_mem_list
        intro a ha b hb
        exact not_strictlyAbove_of_together targets (List.mem_filter.mp ha).2
          (List.mem_filter.mp hb).2
      · intro a ha b hb hs
        have hb' := (List.mem_filter.mp (hperm.mem_iff.mp hb)).1
        exact hready b hb' (hs.of_together targets (List.mem_filter.mp ha).2)

theorem mem_of_mem_visit {fuel : Nat} {waiting : List Nat}
    (h : q ∈ (ofTargets targets).visit fuel waiting) : q ∈ waiting := by
  induction fuel generalizing waiting with
  | zero => cases h
  | succ fuel ih =>
    rw [visit] at h
    cases hp : waiting.find? ((ofTargets targets).ready (Links.row waiting)) with
    | none => simp [hp] at h
    | some p =>
      rw [hp] at h
      rcases List.mem_append.mp h with h | h
      · exact (List.mem_filter.mp h).1
      · exact (List.mem_filter.mp (ih h)).1

/-- Within a circle the least position goes first. -/
theorem visit_ascending (fuel : Nat) {waiting : List Nat} (hw : waiting.Pairwise (· < ·)) :
    ((ofTargets targets).visit fuel waiting).Pairwise fun p q ↦
      (ofTargets targets).together p q → p < q := by
  induction fuel generalizing waiting with
  | zero => exact .nil
  | succ fuel ih =>
    rw [visit]
    cases hp : waiting.find? ((ofTargets targets).ready (Links.row waiting)) with
    | none => exact .nil
    | some p =>
      refine List.pairwise_append.mpr ⟨?_, ih (hw.filter _), ?_⟩
      · refine (hw.filter _).imp ?_
        intro a b hlt _
        exact hlt
      · intro a ha b hb hab
        -- all that are in a circle with `p` go at once
        have hpb := together_trans targets (List.mem_filter.mp ha).2 hab
        have hnot := (List.mem_filter.mp (mem_of_mem_visit targets hb)).2
        simp [hpb] at hnot

end VisitingOrder

open VisitingOrder

variable (targets : List (List Nat))

theorem visitingOrder_perm : (visitingOrder targets).Perm (List.range targets.length) :=
  (visit_spec targets _ _ (fun _ h ↦ List.mem_range.mp h) (by simp)).1

theorem visitingOrder_pairwise :
    (visitingOrder targets).Pairwise fun p q ↦ ¬ StrictlyAbove targets p q :=
  (visit_spec targets _ _ (fun _ h ↦ List.mem_range.mp h) (by simp)).2

theorem visitingOrder_ascending : (visitingOrder targets).Pairwise fun p q ↦
    (ofTargets targets).together p q → p < q :=
  visit_ascending targets _ List.pairwise_lt_range

end OntologyStructs
