import Mathlib.Data.Finset.Insert
import Mathlib.Logic.Function.Basic
import OntologyStructs.Proofs.Resolution.Steps

namespace OntologyStructs

/-- Lists of children with a set beside each. The set alone is asked what the list holds. -/
structure Roster where
  lists : Children
  sets : Nat → Finset Text

namespace Roster

def start (size : Nat) : Roster := ⟨.ofSize size, fun _ ↦ ∅⟩

def add (r : Roster) (p : Nat) (id : Text) : Roster :=
  if id ∈ r.sets p then r
  else ⟨r.lists.modify p (· ++ [id]), Function.update r.sets p (insert id (r.sets p))⟩

def addAll (r : Roster) (p : Nat) (ids : List Text) : Roster := ids.foldl (fun r id ↦ r.add p id) r

def apply (r : Roster) (s : ResolutionStep) : Roster :=
  match s.parent? with
  | none => r
  | some p => r.addAll p (s.brings r.lists)

def run (r : Roster) (steps : List ResolutionStep) : Roster := steps.foldl apply r

def Sound (r : Roster) : Prop := ∀ p id, id ∈ r.sets p ↔ id ∈ r.lists.listAt p

variable {r : Roster} {p : Nat}

theorem sound_start (size : Nat) : (start size).Sound := by
  intro p id
  simp [start]

theorem lists_add (h : r.Sound) (p : Nat) (id : Text) : (r.add p id).lists = (r.lists.add p id).1 := by
  by_cases hid : id ∈ r.sets p
  · rw [add, if_pos hid, Children.add_of_mem ((h p id).mp hid)]
  · rw [add, if_neg hid, Children.add_of_notMem (fun hl ↦ hid ((h p id).mpr hl))]

theorem Sound.add (h : r.Sound) (hp : p < r.lists.length) (id : Text) : (r.add p id).Sound := by
  by_cases hid : id ∈ r.sets p
  · rwa [Roster.add, if_pos hid]
  · rw [Roster.add, if_neg hid]
    intro q id'
    dsimp only
    by_cases hq : q = p
    · subst hq
      rw [Function.update_self, Children.listAt_modify_self _ hp, Finset.mem_insert,
        List.mem_append, List.mem_singleton, h, or_comm]
    · rw [Function.update_of_ne hq, Children.listAt_modify_of_ne _ hq]
      exact h q id'

theorem addAll_spec (h : r.Sound) (hp : p < r.lists.length) (ids : List Text) :
    (r.addAll p ids).Sound ∧ (r.addAll p ids).lists = (r.lists.addAll p ids).1 := by
  induction ids generalizing r with
  | nil => exact ⟨h, rfl⟩
  | cons id ids ih =>
    have hl := lists_add h p id
    obtain ⟨hs, hi⟩ := ih (h.add hp id) (by rwa [hl, Children.length_add])
    refine ⟨hs, ?_⟩
    rw [Children.addAll_cons, ← hl]
    exact hi

theorem apply_spec {P : Progress} {s : ResolutionStep} (h : r.Sound) (hr : r.lists = P.children)
    (hw : s.Within P.children.length) :
    (r.apply s).Sound ∧ (r.apply s).lists = (ResolutionStep.apply P s).children := by
  rw [Roster.apply]
  cases hp : s.parent? with
  | none => exact ⟨h, hr.trans (ResolutionStep.children_apply_of_none s hp).symm⟩
  | some p =>
    rw [ResolutionStep.children_apply_of_some s hp, ← hr]
    exact addAll_spec h (hr ▸ hw p hp) _

/-- The sets never part from the lists, and the lists are those of children without sets. -/
theorem run_spec {P : Progress} {ss : List ResolutionStep} (h : r.Sound) (hr : r.lists = P.children)
    (hw : ∀ s ∈ ss, s.Within P.children.length) :
    (r.run ss).Sound ∧ (r.run ss).lists = (P.run ss).children := by
  induction ss generalizing r P with
  | nil => exact ⟨h, hr⟩
  | cons s ss ih =>
    obtain ⟨hs, hl⟩ := apply_spec h hr (hw s List.mem_cons_self)
    exact ih hs hl (Progress.within_apply hw)

end Roster

end OntologyStructs
