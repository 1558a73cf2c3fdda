import Mathlib.Logic.Relation
import OntologyStructs.Ontology.Links

namespace OntologyStructs.Links

variable (l : Links) {i j k m n : Nat}

abbrev Linked (i j : Nat) : Prop := l.has i j = true

theorem testBit_row (js : List Nat) (j : Nat) : (row js).testBit j = decide (j ∈ js) := by
  have h (bits : Nat) : (js.foldl (fun bits j ↦ bits ||| 1 <<< j) bits).testBit j =
      (bits.testBit j || decide (j ∈ js)) := by
    induction js generalizing bits with
    | nil => simp
    | cons k js ih =>
      rw [List.foldl_cons, ih]
      simp only [Nat.testBit_or, Nat.one_shiftLeft, Nat.testBit_two_pow, List.mem_cons,
        Bool.decide_or, Bool.or_assoc, eq_comm]
  rw [row, h, Nat.zero_testBit, Bool.false_or]

theorem has_ofTargets (targets : List (List Nat)) :
    (ofTargets targets).has i j ↔ ∃ js, targets[i]? = some js ∧ j ∈ js := by
  simp only [has, ofTargets, Array.getD_eq_getD_getElem?, List.getElem?_toArray,
    List.getElem?_map]
  cases targets[i]? with
  | none => simp
  | some js => simp [testBit_row]

theorem has_through : (l.through k).has i j = (l.has i j || (l.has i k && l.has k j)) := by
  have hr : (l.through k).rows.getD i 0 =
      if (l.rows.getD i 0).testBit k then l.rows.getD i 0 ||| l.rows.getD k 0
      else l.rows.getD i 0 := by
    simp only [through, Array.getD_eq_getD_getElem?, Array.getElem?_map]
    cases l.rows[i]? <;> simp
  rw [has, hr]
  simp only [has]
  split <;> simp_all

/-- The links once the numbers below `n` may stand between. -/
def below (n : Nat) : Links := (List.range n).foldl through l

theorem below_succ : l.below (n + 1) = (l.below n).through n := by
  simp only [below, List.range_succ, List.foldl_append, List.foldl_cons, List.foldl_nil]

theorem has_below_of_has (n : Nat) (h : l.has i j) : (l.below n).has i j := by
  induction n with
  | zero => exact h
  | succ n ih => rw [below_succ, has_through, ih, Bool.true_or]

theorem below_trans (hm : m < n) (hi : (l.below n).has i m) (hj : (l.below n).has m j) :
    (l.below n).has i j := by
  induction n generalizing i m j with
  | zero => omega
  | succ n ih =>
    simp only [below_succ, has_through, Bool.or_eq_true, Bool.and_eq_true] at hi hj ⊢
    rcases Nat.lt_succ_iff_lt_or_eq.mp hm with hm | rfl
    · rcases hi with hi | ⟨hi, hnm⟩
      · rcases hj with hj | ⟨hmn, hj⟩
        · exact .inl (ih hm hi hj)
        · exact .inr ⟨ih hm hi hmn, hj⟩
      · rcases hj with hj | ⟨_, hj⟩
        · exact .inr ⟨hi, ih hm hnm hj⟩
        · exact .inr ⟨hi, hj⟩
    · exact .inr ⟨hi.elim id And.left, hj.elim id And.right⟩

theorem transGen_of_has_below (h : (l.below n).has i j) : Relation.TransGen l.Linked i j := by
  induction n generalizing i j with
  | zero => exact .single h
  | succ n ih =>
    simp only [below_succ, has_through, Bool.or_eq_true, Bool.and_eq_true] at h
    rcases h with h | ⟨hi, hj⟩
    · exact ih h
    · exact (ih hi).trans (ih hj)

theorem lt_of_has (h : l.has i j) : i < l.rows.size := by
  by_cases hi : i < l.rows.size
  · exact hi
  · simp [has, Array.getD, hi] at h

theorem has_closure : l.closure.has i j ↔ Relation.TransGen l.Linked i j := by
  constructor
  · exact l.transGen_of_has_below
  · intro h
    induction h with
    | single h => exact l.has_below_of_has _ h
    | tail _ h ih => exact l.below_trans (l.lt_of_has h) ih (l.has_below_of_has _ h)

end OntologyStructs.Links
