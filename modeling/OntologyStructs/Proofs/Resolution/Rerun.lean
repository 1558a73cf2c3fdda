import Mathlib.Logic.Function.Basic
import Mathlib.Tactic.ByContra
import OntologyStructs.Proofs.Distance
import OntologyStructs.Proofs.Resolution.Closure

namespace OntologyStructs

def Phase.parts : Phase → List Phase
  | .whole => [.direct, .inheritance]
  | phase => [phase]

structure Call where
  resolver : Nat
  phase : Phase

/-- Resolvers at work on the same ontology: they share its children, and each has its counters. -/
structure Resolvers where
  children : Children
  counters : Nat → Counters

namespace Ontology

variable (o : Ontology) (leaveOut : Bool)

def call (s : Resolvers) (c : Call) : Except Misshapen Resolvers :=
  let (session, outcome) := Session.resolve ⟨o, ⟨s.children, s.counters c.resolver⟩, leaveOut⟩ c.phase
  outcome.result.map fun _ ↦
    ⟨session.children, Function.update s.counters c.resolver session.counters⟩

def runCalls (calls : List Call) : Except Misshapen Resolvers :=
  calls.foldlM (o.call leaveOut) ⟨.ofSize o.nodes.length, fun _ ↦ {}⟩

def afterAll (phases : List Phase) (c : Children) : Children :=
  phases.foldl (fun c phase ↦ o.after leaveOut phase c) c

def afterRuns (k : Nat) : Children :=
  o.afterAll leaveOut (List.replicate k .whole) (.ofSize o.nodes.length)

variable {o leaveOut} {s : Resolvers} {c D : Children} {p q : Nat} {id : Text}

theorem failure_plan (hw : o.WellShaped) (P : Progress) (phase : Phase) :
    (Session.plan ⟨o, P, leaveOut⟩ phase).failure = none := by
  cases phase with
  | direct => exact hw.direct
  | inheritance => exact hw.inheritance
  | whole => exact Plan.failure_followedBy.mpr ⟨hw.direct, hw.inheritance⟩

theorem call_eq_ok (leaveOut : Bool) (hw : o.WellShaped) (s : Resolvers) (c : Call) :
    ∃ s', o.call leaveOut s c = .ok s' ∧ s'.children = o.after leaveOut c.phase s.children := by
  have hr := (Session.result_resolve ⟨o, ⟨s.children, s.counters c.resolver⟩, leaveOut⟩ c.phase).mpr
    (failure_plan hw _ c.phase)
  refine ⟨_, by rw [call]; simp only [hr]; rfl, ?_⟩
  rw [after_eq, Session.children, Session.progress_resolve]
  exact Progress.children_run_congr rfl

theorem runCalls_eq_ok (leaveOut : Bool) (hw : o.WellShaped) (calls : List Call) :
    ∃ s, o.runCalls leaveOut calls = .ok s ∧
      s.children = o.afterAll leaveOut (calls.map Call.phase) (.ofSize o.nodes.length) := by
  have h (s : Resolvers) : ∃ s', calls.foldlM (o.call leaveOut) s = .ok s' ∧
      s'.children = o.afterAll leaveOut (calls.map Call.phase) s.children := by
    induction calls generalizing s with
    | nil => exact ⟨s, rfl, rfl⟩
    | cons c calls ih =>
      obtain ⟨s₁, h₁, hc₁⟩ := call_eq_ok leaveOut hw s c
      obtain ⟨s₂, h₂, hc₂⟩ := ih s₁
      refine ⟨s₂, ?_, ?_⟩
      · rw [List.foldlM_cons, h₁]
        exact h₂
      · rw [hc₂, hc₁]
        rfl
  exact h _

theorem afterAll_cons (phase : Phase) (phases : List Phase) :
    o.afterAll leaveOut (phase :: phases) c = o.afterAll leaveOut phases (o.after leaveOut phase c) :=
  rfl

theorem afterAll_parts (hw : o.WellShaped) (phases : List Phase) :
    o.afterAll leaveOut (phases.flatMap Phase.parts) c = o.afterAll leaveOut phases c := by
  induction phases generalizing c with
  | nil => rfl
  | cons phase phases ih =>
    rw [List.flatMap_cons, afterAll_cons, ← ih]
    cases phase with
    | direct => rfl
    | inheritance => rfl
    | whole =>
      rw [after_whole hw]
      rfl

theorem Saturated.afterAll_eq_self (h : o.Saturated leaveOut c) (phases : List Phase) :
    o.afterAll leaveOut phases c = c := by
  induction phases with
  | nil => rfl
  | cons phase phases ih => rw [afterAll_cons, h.after_eq_self, ih]

theorem after_inheritance_start (o : Ontology) (leaveOut : Bool) :
    o.after leaveOut .inheritance (.ofSize o.nodes.length) = .ofSize o.nodes.length := by
  rw [after_eq]
  apply Progress.children_run_of_subset
  intro s hs p hp
  obtain ⟨a, _, rfl⟩ := (o.inheritStep_inheritancePlan hs).inherits p hp
  rw [ResolutionStep.brings, Children.listAt_ofSize]
  exact List.nil_subset _

theorem after_direct_start (o : Ontology) (leaveOut : Bool) :
    o.after leaveOut .direct (.ofSize o.nodes.length) = o.directChildren leaveOut := rfl

theorem after_direct_again (o : Ontology) (leaveOut : Bool) :
    o.after leaveOut .direct (o.directChildren leaveOut) = o.directChildren leaveOut := by
  rw [after_eq]
  apply Progress.children_run_of_subset
  intro s hs p hp id hid
  have hb := ResolutionStep.brings_eq (o.directStep_directPlan leaveOut hs).not_inherit
    (o.directChildren leaveOut) []
  exact mem_directChildren.mpr ⟨s, hs, hp, hb ▸ hid⟩

/-- Before the first inheritance that counts, direct phases change nothing after the first of them. -/
theorem afterAll_directChildren {F : Children} (hw : o.WellShaped)
    (hF : o.after leaveOut .inheritance (o.directChildren leaveOut) = F)
    (hsat : o.Saturated leaveOut F) {phases : List Phase} (h : .inheritance ∈ phases) :
    o.afterAll leaveOut phases (o.directChildren leaveOut) = F := by
  induction phases with
  | nil => cases h
  | cons phase phases ih =>
    rw [afterAll_cons]
    cases phase with
    | direct =>
      rw [after_direct_again]
      exact ih ((List.mem_cons.mp h).resolve_left nofun)
    | inheritance =>
      rw [hF]
      exact hsat.afterAll_eq_self phases
    | whole =>
      rw [after_whole hw, after_direct_again, hF]
      exact hsat.afterAll_eq_self phases

theorem afterAll_start {F : Children} (hw : o.WellShaped)
    (hF : o.after leaveOut .inheritance (o.directChildren leaveOut) = F)
    (hsat : o.Saturated leaveOut F) {phases : List Phase}
    (h : [Phase.direct, .inheritance].Sublist phases) :
    o.afterAll leaveOut phases (.ofSize o.nodes.length) = F := by
  induction phases with
  | nil => cases h
  | cons phase phases ih =>
    rw [afterAll_cons]
    cases phase with
    | direct =>
      have hi : [Phase.inheritance].Sublist phases := List.cons_sublist_cons.mp h
      rw [after_direct_start]
      exact afterAll_directChildren hw hF hsat (List.singleton_sublist.mp hi)
    | inheritance =>
      rw [after_inheritance_start]
      cases h with
      | cons _ h => exact ih h
    | whole =>
      rw [after_whole hw, after_direct_start, hF]
      exact hsat.afterAll_eq_self phases

variable (o leaveOut) in
theorem fits_afterRuns (k : Nat) : (o.afterRuns leaveOut k).Fits o := by
  have h (c : Children) (hc : c.Fits o) : (o.afterAll leaveOut (List.replicate k .whole) c).Fits o := by
    induction k generalizing c with
    | zero => exact hc
    | succ k ih => exact ih _ (fits_after leaveOut .whole hc)
  exact h _ (o.fits_start leaveOut)

theorem afterRuns_succ (k : Nat) :
    o.afterRuns leaveOut (k + 1) = o.after leaveOut .whole (o.afterRuns leaveOut k) := by
  rw [afterRuns, List.replicate_succ', afterAll, List.foldl_append]
  rfl

theorem due_afterRuns (k : Nat) : ∀ p, ∀ id ∈ (o.afterRuns leaveOut k).listAt p,
    o.Due (o.directChildren leaveOut) p id := by
  induction k with
  | zero =>
    intro p id hid
    have he : (o.afterRuns leaveOut 0).listAt p = [] := Children.listAt_ofSize _ p
    rw [he] at hid
    cases hid
  | succ k ih =>
    rw [afterRuns_succ]
    exact due_after .whole (o.fits_afterRuns leaveOut k) ih

/-- What is `k` edges away arrives with the `k`-th run, and before its inheritance phase with the next
direct phase. -/
theorem mem_afterRuns_of_way (hw : o.WellShaped) {k : Nat} (h : Way o.Subclass k p q)
    (hid : id ∈ (o.directChildren leaveOut).listAt q) :
    id ∈ (o.after leaveOut .direct (o.afterRuns leaveOut k)).listAt p := by
  induction h with
  | refl a => exact (mem_after_direct (o.fits_afterRuns leaveOut 0)).mpr (.inr hid)
  | @head k a b d hab _ ih =>
    have hfits := o.fits_afterRuns leaveOut k
    have ha := inherited_after leaveOut hw (fits_after leaveOut .direct hfits) hab (ih hid)
    rw [← after_whole hw, ← afterRuns_succ] at ha
    exact subset_after leaveOut .direct (o.fits_afterRuns leaveOut (k + 1)) a ha

theorem subset_afterRuns {j k : Nat} (h : j ≤ k) (p : Nat) :
    (o.afterRuns leaveOut j).listAt p ⊆ (o.afterRuns leaveOut k).listAt p := by
  induction h with
  | refl => exact List.Subset.refl _
  | step _ ih =>
    rw [afterRuns_succ]
    exact List.Subset.trans ih (subset_after leaveOut .whole (o.fits_afterRuns leaveOut _) p)

theorem Due.lt (h : o.Due (o.directChildren leaveOut) p id) : p < o.nodes.length := by
  obtain ⟨q, hpq, hid⟩ := h
  rcases hpq.cases_head with rfl | ⟨a, hpa, _⟩
  · by_contra hp
    rw [Children.listAt_of_le (by rw [(o.fits_directChildren leaveOut).length]; omega)] at hid
    cases hid
  · exact (o.subclass_lt hpa).1

theorem mem_afterRuns_of_due (hw : o.WellShaped) {k : Nat} (hk : o.nodes.length ≤ k)
    (h : o.Due (o.directChildren leaveOut) p id) : id ∈ (o.afterRuns leaveOut k).listAt p := by
  have hp := h.lt
  obtain ⟨q, hpq, hid⟩ := h
  obtain ⟨j, hj, hway⟩ := Way.exists_short (Finset.range o.nodes.length)
    (fun _ _ hab ↦ Finset.mem_range.mpr (o.subclass_lt hab).2) hpq
  rw [Finset.card_erase_of_mem (Finset.mem_range.mpr hp), Finset.card_range] at hj
  have hmid := fits_after leaveOut .direct (o.fits_afterRuns leaveOut j)
  have hnext := subset_after leaveOut .inheritance hmid p (mem_afterRuns_of_way hw hway hid)
  rw [← after_whole hw, ← afterRuns_succ] at hnext
  exact subset_afterRuns (by omega) p hnext

theorem saturated_afterRuns (hw : o.WellShaped) {k : Nat} (hk : o.nodes.length ≤ k) :
    o.Saturated leaveOut (o.afterRuns leaveOut k) := by
  constructor
  · intro p id hid
    exact mem_afterRuns_of_due hw hk ⟨p, .refl, hid⟩
  · intro p q hpq id hid
    exact mem_afterRuns_of_due hw hk ((due_afterRuns k q id hid).of_subclass hpq)

theorem map_phase_of_whole {calls : List Call} (h : ∀ c ∈ calls, c.phase = .whole) :
    calls.map Call.phase = List.replicate calls.length .whole := by
  rw [List.eq_replicate_iff]
  exact ⟨List.length_map _, List.forall_mem_map.mpr h⟩

/-- Phases may be run again, in any order and by any resolvers. Without circles, all that matters is
that some inheritance phase comes after some direct one. Otherwise as many runs as there are entries
suffice, and when a run adds nothing each entry has all children that it is due. -/
theorem rerun_resolution (leaveOut : Bool) (hw : o.WellShaped) :
    (o.Acyclic → ∀ calls : List Call,
      [Phase.direct, .inheritance].Sublist (calls.flatMap fun c ↦ c.phase.parts) →
      ∃ s r, o.runCalls leaveOut calls = .ok s ∧ (o.resolve leaveOut).result = .ok r ∧
        s.children = r.children ∧ o.AddsNothing leaveOut s.children) ∧
    ∀ calls : List Call, (∀ c ∈ calls, c.phase = .whole) →
      ∃ s, o.runCalls leaveOut calls = .ok s ∧
        (o.nodes.length ≤ calls.length → o.AddsNothing leaveOut s.children) ∧
        (o.AddsNothing leaveOut s.children → ∀ p id, id ∈ s.children.listAt p ↔
          ∃ q, o.Below p q ∧ id ∈ (o.directChildren leaveOut).listAt q) := by
  constructor
  · intro hc calls hcalls
    obtain ⟨s, hs, hchildren⟩ := runCalls_eq_ok leaveOut hw calls
    obtain ⟨r, hr, hF⟩ := resolve_ok leaveOut hw
    have hfits := o.fits_directChildren leaveOut
    have hsat : o.Saturated leaveOut r.children := by
      rw [hF]
      exact saturated_after_inheritance hc hw.inheritance hfits fun _ _ hid ↦ hid
    have hsr : s.children = r.children := by
      rw [hchildren, ← afterAll_parts hw, List.flatMap_map]
      exact afterAll_start hw hF.symm hsat hcalls
    have hfitsr : r.children.Fits o := hF ▸ fits_after leaveOut .inheritance hfits
    refine ⟨s, r, hs, hr, hsr, ?_⟩
    rw [hsr]
    exact (addsNothing_iff hw hfitsr).mpr (hsat.after_eq_self .whole)
  · intro calls hcalls
    obtain ⟨s, hs, hchildren⟩ := runCalls_eq_ok leaveOut hw calls
    have hruns : s.children = o.afterRuns leaveOut calls.length := by
      rw [hchildren, map_phase_of_whole hcalls]
      rfl
    have hfits := o.fits_afterRuns leaveOut calls.length
    refine ⟨s, hs, fun hlen ↦ ?_, fun ha p id ↦ ?_⟩
    · rw [hruns, addsNothing_iff hw hfits]
      exact (saturated_afterRuns hw hlen).after_eq_self .whole
    · rw [hruns] at ha ⊢
      have hsat := saturated_of_after_eq hw hfits ((addsNothing_iff hw hfits).mp ha)
      exact hsat.mem_iff_due (due_afterRuns calls.length)

/-- Classes in a circle, where the first run leaves a chicken without the weight of a nest. -/
def circle : Ontology := .ofDocument ⟨[], [
  .bare "Chicken" [(.subClassOf, ["Egg"])],
  .bare "Egg" [(.subClassOf, ["Nest"])],
  .bare "Nest" [(.subClassOf, ["Chicken"])],
  .bare "weight" [(.domainIncludes, ["Nest"])]]⟩

/-- Two resolvers take turns with the restaurants, and one runs around the circle often enough. -/
theorem rerun_restaurants_circle :
    (restaurants.WellShaped ∧ restaurants.Acyclic ∧
      ∃ s r, restaurants.runCalls false
          [⟨0, .inheritance⟩, ⟨1, .direct⟩, ⟨0, .direct⟩, ⟨0, .inheritance⟩] = .ok s ∧
        (restaurants.resolve false).result = .ok r ∧ s.children = r.children ∧
        restaurants.AddsNothing false s.children) ∧
    circle.WellShaped ∧
      ∃ s, circle.runCalls false (List.replicate 4 ⟨0, .whole⟩) = .ok s ∧
        circle.AddsNothing false s.children ∧
        ∀ p id, id ∈ s.children.listAt p ↔
          ∃ q, circle.Below p q ∧ id ∈ (circle.directChildren false).listAt q := by
  have hrestaurants : restaurants.WellShaped := by decide
  have hcircle : circle.WellShaped := by decide
  refine ⟨⟨hrestaurants, acyclic_restaurants, ?_⟩, hcircle, ?_⟩
  · exact (rerun_resolution false hrestaurants).1 acyclic_restaurants
      [⟨0, .inheritance⟩, ⟨1, .direct⟩, ⟨0, .direct⟩, ⟨0, .inheritance⟩] (by decide)
  · obtain ⟨s, hs, hadds, hdue⟩ := (rerun_resolution false hcircle).2
      (List.replicate 4 ⟨0, .whole⟩) (by simp)
    exact ⟨s, hs, hadds (by decide), hdue (hadds (by decide))⟩

end Ontology

end OntologyStructs
