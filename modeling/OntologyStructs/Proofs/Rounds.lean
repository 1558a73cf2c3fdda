import Mathlib.Tactic.Tauto
import OntologyStructs.Proofs.VisitingOrder

namespace OntologyStructs.VisitingOrder

open Relation

section Rounds

variable (R : Nat → Nat → Prop)

/-- Positions that lead to each other, by any number of steps. -/
def Circle (p q : Nat) : Prop := ReflTransGen R p q ∧ ReflTransGen R q p

/-- Whatever the circle of `p` leads to outside itself has been visited. -/
def Ready (visited : List Nat) (p : Nat) : Prop :=
  ∀ s t, Circle R p s → R s t → ¬ Circle R p t → t ∈ visited

/-- Of what waits, `p` leads to nothing that does not lead back. -/
def Highest (waiting : List Nat) (p : Nat) : Prop :=
  ∀ q ∈ waiting, ReflTransGen R p q → ReflTransGen R q p

/-- Waiting positions are taken in rounds: each time the least of the highest ones with its circle. -/
inductive Rounds : List Nat → List (List Nat) → Prop
  | done : Rounds [] []
  | next {waiting circle rest : List Nat} {rounds : List (List Nat)} {p : Nat} (hp : p ∈ waiting)
      (hhighest : Highest R waiting p) (hleast : ∀ q ∈ waiting, Highest R waiting q → p ≤ q)
      (hcircle : ∀ q, q ∈ circle ↔ q ∈ waiting ∧ Circle R p q) (hascending : circle.Pairwise (· < ·))
      (hrest : ∀ q, q ∈ rest ↔ q ∈ waiting ∧ ¬ Circle R p q) (hrounds : Rounds rest rounds) :
      Rounds waiting (circle :: rounds)

def Closed (waiting : List Nat) : Prop := ∀ p q, R p q → q ∈ waiting → p ∈ waiting

variable {R} {waiting visited rest circle : List Nat} {rounds before after : List (List Nat)}
  {p q r : Nat}

theorem Circle.refl (p : Nat) : Circle R p p := ⟨.refl, .refl⟩

theorem Circle.symm (h : Circle R p q) : Circle R q p := ⟨h.2, h.1⟩

theorem Circle.trans (hpq : Circle R p q) (hqr : Circle R q r) : Circle R p r :=
  ⟨hpq.1.trans hqr.1, hqr.2.trans hpq.2⟩

theorem Highest.of_circle (h : Highest R waiting p) (hpq : Circle R p q) : Highest R waiting q :=
  fun r hr hqr ↦ (h r hr (hpq.1.trans hqr)).trans hpq.1

theorem Closed.mem (h : Closed R waiting) (hpq : ReflTransGen R p q) (hq : q ∈ waiting) :
    p ∈ waiting := by
  induction hpq using ReflTransGen.head_induction_on with
  | refl => exact hq
  | head hab _ ih => exact h _ _ hab ih

/-- A round leaves nothing behind that leads to what still waits. -/
theorem Closed.of_round (h : Closed R waiting) (hhighest : Highest R waiting p)
    (hrest : ∀ q, q ∈ rest ↔ q ∈ waiting ∧ ¬ Circle R p q) : Closed R rest := by
  intro a b hab hb
  obtain ⟨hbw, hpb⟩ := (hrest b).mp hb
  refine (hrest a).mpr ⟨h a b hab hbw, fun hpa ↦ hpb ?_⟩
  have hto : ReflTransGen R p b := hpa.1.tail hab
  exact ⟨hto, hhighest b hbw hto⟩

theorem Rounds.split (h : Rounds R waiting (before ++ circle :: after)) (hclosed : Closed R waiting) :
    ∃ rest, (∀ q, q ∈ rest ↔ q ∈ waiting ∧ q ∉ before.flatten) ∧ Closed R rest ∧
      Rounds R rest (circle :: after) := by
  induction before generalizing waiting with
  | nil => exact ⟨waiting, by simp, hclosed, h⟩
  | cons first before ih =>
    cases h with
    | next hp hhighest hleast hcircle hascending hrest hrounds =>
      obtain ⟨rest', hrest', hclosed', hrounds'⟩ := ih hrounds (hclosed.of_round hhighest hrest)
      refine ⟨rest', fun q ↦ ?_, hclosed', hrounds'⟩
      rw [hrest', hrest, List.flatten_cons, List.mem_append, hcircle]
      tauto

theorem highest_iff_ready (hclosed : Closed R waiting)
    (hvisited : ∀ s t, R s t → (t ∈ visited ↔ t ∉ waiting)) :
    Highest R waiting p ↔ Ready R visited p := by
  constructor
  · intro h s t hps hst hpt
    rw [hvisited s t hst]
    intro ht
    have hto : ReflTransGen R p t := hps.1.tail hst
    exact hpt ⟨hto, h t ht hto⟩
  · intro h q hq hpq
    -- whatever `p` leads to is in its circle or does not wait
    have hpath : Circle R p q ∨ q ∉ waiting := by
      induction hpq with
      | refl => exact .inl (.refl p)
      | @tail s t _ hst ih =>
        by_cases hs : s ∈ waiting
        · by_cases hpt : Circle R p t
          · exact .inl hpt
          · exact .inr ((hvisited s t hst).mp (h s t ((ih hs).resolve_right (not_not_intro hs)) hst hpt))
        · exact .inr fun ht ↦ hs (hclosed s t hst ht)
    exact (hpath.resolve_right (not_not_intro hq)).2

/-- What one round takes: a whole circle, whose superiors have all been visited, and of those circles the
one with the least position. -/
structure Takes (R : Nat → Nat → Prop) (size : Nat) (visited circle : List Nat) : Prop where
  nonempty : circle ≠ []
  ascending : circle.Pairwise (· < ·)
  whole : ∀ p ∈ circle, ∀ q, q ∈ circle ↔ Circle R p q
  ready : ∀ p ∈ circle, Ready R visited p
  least : ∃ p ∈ circle, ∀ q < size, q ∉ visited → Ready R visited q → p ≤ q

theorem Rounds.takes {size : Nat} (h : Rounds R (List.range size) (before ++ circle :: after))
    (hsize : ∀ p q, R p q → p < size ∧ q < size) : Takes R size before.flatten circle := by
  have hclosed : Closed R (List.range size) :=
    fun p q hpq _ ↦ List.mem_range.mpr (hsize p q hpq).1
  obtain ⟨waiting, hwaiting, hclosed, hrounds⟩ := h.split hclosed
  have hvisited : ∀ s t, R s t → (t ∈ before.flatten ↔ t ∉ waiting) := by
    intro s t hst
    have ht := List.mem_range.mpr (hsize s t hst).2
    rw [hwaiting, not_and_not_right]
    exact ⟨fun h _ ↦ h, fun h ↦ h ht⟩
  cases hrounds with
  | @next _ _ _ _ p hp hhighest hleast hcircle hascending hrest hrounds =>
    have hwhole : ∀ q, q ∈ circle ↔ Circle R p q := fun q ↦
      (hcircle q).trans (and_iff_right_of_imp fun h ↦ hclosed.mem h.2 hp)
    exact
      { nonempty := List.ne_nil_of_mem ((hwhole p).mpr (.refl p))
        ascending := hascending
        whole := fun q hq r ↦
          have hpq := (hwhole q).mp hq
          (hwhole r).trans ⟨hpq.symm.trans, hpq.trans⟩
        ready := fun q hq ↦
          (highest_iff_ready hclosed hvisited).mp (hhighest.of_circle ((hwhole q).mp hq))
        least := by
          refine ⟨p, (hwhole p).mpr (.refl p), fun q hq hqv hready ↦ ?_⟩
          exact hleast q ((hwaiting q).mpr ⟨List.mem_range.mpr hq, hqv⟩)
            ((highest_iff_ready hclosed hvisited).mpr hready) }

/-- Where nothing leads to a later position, positions are taken as they stand. -/
theorem Rounds.pairwise_flatten (h : Rounds R waiting rounds) (hR : ∀ p q, R p q → q ≤ p) :
    rounds.flatten.Pairwise (· < ·) ∧ ∀ q ∈ rounds.flatten, q ∈ waiting := by
  have hle (p q : Nat) (hpq : ReflTransGen R p q) : q ≤ p := by
    induction hpq with
    | refl => exact Nat.le_refl p
    | tail _ hst ih => exact Nat.le_trans (hR _ _ hst) ih
  induction h with
  | done => exact ⟨.nil, fun _ h ↦ nomatch h⟩
  | @next waiting circle rest rounds p hp hhighest hleast hcircle hascending hrest _ ih =>
    obtain ⟨hpairwise, hmem⟩ := ih
    -- the least of the highest is the least of all
    have hfirst (q : Nat) (hq : q ∈ waiting) : p ≤ q := by
      induction q using Nat.strongRecOn with
      | ind q ih =>
        by_cases hh : Highest R waiting q
        · exact hleast q hq hh
        · simp only [Highest, not_forall] at hh
          obtain ⟨r, hr, hqr, hrq⟩ := hh
          have hlt : r < q := Nat.lt_of_le_of_ne (hle q r hqr) fun h ↦ hrq (h ▸ .refl)
          exact Nat.le_of_lt (Nat.lt_of_le_of_lt (ih r hlt hr) hlt)
    refine ⟨List.pairwise_append.mpr ⟨hascending, hpairwise, ?_⟩, ?_⟩
    · intro a ha b hb
      obtain ⟨-, hpa⟩ := (hcircle a).mp ha
      obtain ⟨hbw, hpb⟩ := (hrest b).mp (hmem b hb)
      have hpb' : p ≠ b := fun h ↦ hpb (h ▸ .refl p)
      have := hle p a hpa.1
      have := hfirst b hbw
      omega
    · intro q hq
      rcases List.mem_append.mp hq with hq | hq
      · exact ((hcircle q).mp hq).1
      · exact ((hrest q).mp (hmem q hq)).1

end Rounds

variable (targets : List (List Nat)) {p q : Nat}

theorem together_iff_circle :
    (ofTargets targets).together p q ↔ Circle (Target targets) p q := by
  rw [together_iff, Circle, reflTransGen_iff_eq_or_transGen, reflTransGen_iff_eq_or_transGen]
  constructor
  · intro hx
    rcases hx with rfl | ⟨hpq, hqp⟩
    · exact ⟨.inl rfl, .inl rfl⟩
    · exact ⟨.inr hpq, .inr hqp⟩
  · intro hx
    rcases hx with ⟨rfl | hpq, hqp⟩
    · exact .inl rfl
    · exact hqp.imp id fun hqp ↦ ⟨hpq, hqp⟩

theorem ready_iff_highest {waiting : List Nat} (hw : ∀ q ∈ waiting, q < targets.length)
    (hp : p < targets.length) :
    (ofTargets targets).ready (Links.row waiting) p ↔ Highest (Target targets) waiting p := by
  rw [ready_iff targets hw hp]
  simp only [strictlyAbove_iff, not_and_not_right]
  rfl

theorem visit_rounds (fuel : Nat) {waiting : List Nat} (hw : ∀ p ∈ waiting, p < targets.length)
    (hascending : waiting.Pairwise (· < ·)) (hf : waiting.length ≤ fuel) :
    ∃ rounds, Rounds (Target targets) waiting rounds ∧
      (ofTargets targets).visit fuel waiting = rounds.flatten := by
  induction fuel generalizing waiting with
  | zero =>
    rw [List.eq_nil_of_length_eq_zero (Nat.le_zero.mp hf)]
    exact ⟨[], .done, rfl⟩
  | succ fuel ih =>
    rw [visit]
    cases hp : waiting.find? ((ofTargets targets).ready (Links.row waiting)) with
    | none =>
      rw [eq_nil_of_find?_ready targets hw hp]
      exact ⟨[], .done, rfl⟩
    | some p =>
      obtain ⟨hready, passed, later, hsplit, hpassed⟩ := List.find?_eq_some_iff_append.mp hp
      have hm : p ∈ waiting := List.mem_of_find?_eq_some hp
      have hleast : ∀ q ∈ waiting, Highest (Target targets) waiting q → p ≤ q := by
        intro q hq hhighest
        rw [← ready_iff_highest targets hw (hw q hq)] at hhighest
        rw [hsplit, List.pairwise_append, List.pairwise_cons] at hascending
        rcases List.mem_append.mp (hsplit ▸ hq) with h | h
        · have hnot := hpassed q h
          rw [hhighest] at hnot
          cases hnot
        · rcases List.mem_cons.mp h with rfl | h
          · exact Nat.le_refl q
          · exact Nat.le_of_lt (hascending.2.1.1 q h)
      have hlen := length_left_lt targets hm
      obtain ⟨rounds, hrounds, hvisit⟩ := @ih
        (waiting.filter fun q ↦ !(ofTargets targets).together p q)
        (fun q hq ↦ hw q (List.mem_filter.mp hq).1) (hascending.filter _) (by omega)
      refine ⟨_, .next hm ((ready_iff_highest targets hw (hw p hm)).mp hready) hleast ?_
        (hascending.filter _) ?_ hrounds, congrArg _ hvisit⟩
      · intro q
        rw [List.mem_filter, together_iff_circle]
      · intro q
        rw [List.mem_filter, Bool.not_eq_true', Bool.eq_false_iff, ne_eq, together_iff_circle]

theorem visitingOrder_rounds : ∃ rounds,
    Rounds (Target targets) (List.range targets.length) rounds ∧
      visitingOrder targets = rounds.flatten :=
  visit_rounds targets _ (fun _ h ↦ List.mem_range.mp h) List.pairwise_lt_range (by simp)

end OntologyStructs.VisitingOrder
