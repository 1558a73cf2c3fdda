import Mathlib.Data.Finset.Card
import Mathlib.Logic.Relation

namespace OntologyStructs

variable {α : Type} {R R' : α → α → Prop} {a b c : α} {k : Nat}

inductive Way (R : α → α → Prop) : Nat → α → α → Prop
  | refl (a : α) : Way R 0 a a
  | head {k : Nat} {a b c : α} : R a b → Way R k b c → Way R (k + 1) a c

namespace Way

theorem mono (h : ∀ a b, R a b → R' a b) (hw : Way R k a b) : Way R' k a b := by
  induction hw with
  | refl a => exact .refl a
  | head hab _ ih => exact .head (h _ _ hab) ih

/-- A way that leads elsewhere can leave its start for good. -/
theorem leave (h : Relation.ReflTransGen R a b) :
    a = b ∨ ∃ c, R a c ∧ c ≠ a ∧ Relation.ReflTransGen (fun x y ↦ R x y ∧ y ≠ a) c b := by
  induction h with
  | refl => exact .inl rfl
  | @tail b d _ hbd ih =>
    by_cases hd : d = a
    · exact .inl hd.symm
    · right
      rcases ih with rfl | ⟨c, hac, hca, hcb⟩
      · exact ⟨d, hbd, hd, .refl⟩
      · exact ⟨c, hac, hca, hcb.tail ⟨hbd, hd⟩⟩

/-- No more edges are needed than there are places to lead to, the start apart. -/
theorem exists_short [DecidableEq α] (places : Finset α) (hR : ∀ a b, R a b → b ∈ places)
    (h : Relation.ReflTransGen R a b) : ∃ k ≤ (places.erase a).card, Way R k a b := by
  induction hn : (places.erase a).card generalizing R places a with
  | zero =>
    rcases leave h with rfl | ⟨c, hac, hca, _⟩
    · exact ⟨0, Nat.le_refl 0, .refl a⟩
    · have hc : c ∈ places.erase a := Finset.mem_erase.mpr ⟨hca, hR a c hac⟩
      rw [Finset.card_eq_zero.mp hn] at hc
      simp at hc
  | succ n ih =>
    rcases leave h with rfl | ⟨c, hac, hca, hcb⟩
    · exact ⟨0, Nat.zero_le _, .refl a⟩
    · have hc : c ∈ places.erase a := Finset.mem_erase.mpr ⟨hca, hR a c hac⟩
      have hcard : ((places.erase a).erase c).card = n := by
        rw [Finset.card_erase_of_mem hc, hn, Nat.add_sub_cancel]
      obtain ⟨k, hk, hw⟩ := ih (places.erase a)
        (fun x y hxy ↦ Finset.mem_erase.mpr ⟨hxy.2, hR x y hxy.1⟩) hcb hcard
      exact ⟨k + 1, by omega, .head hac (hw.mono fun _ _ hxy ↦ hxy.1)⟩

end Way

end OntologyStructs
