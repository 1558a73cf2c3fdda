import OntologyStructs.Proofs.Resolution.Closure

namespace OntologyStructs

theorem flatMap_zipIdx_ite {α β : Type} (l : List α) (f : α → List β) (p : Nat) :
    (l.zipIdx.flatMap fun e ↦ if e.2 = p then f e.1 else []) = (l[p]?).elim [] f := by
  induction l using List.reverseRecOn with
  | nil => rfl
  | append_singleton l a ih =>
    rw [List.zipIdx_append, List.flatMap_append, ih]
    rcases Nat.lt_trichotomy p l.length with h | h | h
    · simp [List.getElem?_append_left h, Nat.ne_of_gt h]
    · simp [h]
    · have hl : (l ++ [a]).length ≤ p := by
        rw [List.length_append, List.length_singleton]
        exact h
      rw [List.getElem?_eq_none (Nat.le_of_lt h), List.getElem?_eq_none hl]
      simp [Nat.ne_of_lt h]

namespace Ontology

variable {o : Ontology} {leaveOut : Bool} {n : Node} {p : Nat}

theorem listAt_directChildren (h : (o.directPlan leaveOut).failure = none) :
    (o.directChildren leaveOut).listAt p = (o.arrivals leaveOut p).eraseDups := by
  rw [directChildren, directProgress_eq, Progress.listAt_run_direct
    (fun _ hs ↦ (o.directStep_directPlan leaveOut hs).not_inherit)
    (within_directPlan (o.fits_start leaveOut)) (o.fits_start leaveOut).distinct,
    bringsTo_directPlan o leaveOut h]
  simp [Session.start]

/-- To an entry that a later one shadows nothing leads. -/
theorem arrivals_of_shadowed (leaveOut : Bool) (hn : o.nodes[p]? = some n)
    (hs : o.position? n.id ≠ some p) :
    o.arrivals leaveOut p = (n.targets .rangeIncludes).filter o.knows := by
  have hfrom (m : Node) (i : Nat) : o.arrivalsFrom leaveOut p m i =
      if i = p then (m.targets .rangeIncludes).filter o.knows else [] := by
    have hnone : ((m.joined leaveOut).filter fun t ↦ o.position? t = some p) = [] := by
      rw [List.filter_eq_nil_iff]
      intro t _ ht
      have ht := of_decide_eq_true ht
      obtain ⟨n', hn', rfl⟩ := exists_of_position? ht
      cases hn.symm.trans hn'
      exact hs ht
    rw [arrivalsFrom, hnone, List.map_nil, List.nil_append]
  have hzip := flatMap_zipIdx_ite o.nodes (fun m ↦ (m.targets .rangeIncludes).filter o.knows) p
  simp only [arrivals, hfrom]
  rw [hzip, hn, Option.elim_some]

/-- The children of an entry after the direct phase are what arrives in one walk over the vocabulary,
each where it first came. Only the last entry of an identifier gets members, but every one has its
own ranges and joins its targets. -/
theorem direct_in_order_of_arrival
    (h : ((Session.start o leaveOut).resolve .direct).2.result = .ok ()) (p : Nat) :
    (o.directChildren leaveOut).listAt p = (o.arrivals leaveOut p).eraseDups ∧
    (∀ before id after, o.arrivals leaveOut p = before ++ id :: after → id ∉ before →
      ∃ later, (o.directChildren leaveOut).listAt p = before.eraseDups ++ id :: later ∧
        id ∉ later) ∧
    (∀ n, o.nodes[p]? = some n → o.position? n.id ≠ some p →
      (o.directChildren leaveOut).listAt p =
        ((n.targets .rangeIncludes).filter o.knows).eraseDups) ∧
    ∀ n ∈ o.nodes, ∀ t ∈ n.joined leaveOut, o.position? t = some p →
      n.id ∈ (o.directChildren leaveOut).listAt p := by
  have hplan : (o.directPlan leaveOut).failure = none := (Session.result_resolve _ .direct).mp h
  have heq := listAt_directChildren (p := p) hplan
  refine ⟨heq, fun before id after harrivals hid ↦ ?_, fun n hn hs ↦ ?_, fun n hn t ht hp ↦ ?_⟩
  · have hfirst := List.eraseDups_append_cons hid after
    rw [← harrivals, ← heq] at hfirst
    exact ⟨_, hfirst, by simp⟩
  · rw [heq, arrivals_of_shadowed leaveOut hn hs]
  · rw [heq, List.mem_eraseDups, mem_arrivals]
    exact .inl ⟨n, hn, rfl, t, ht, hp⟩

/-- A vocabulary of books: one entry comes twice, one is member and range of the same, and of itself,
one is superseded, and one target is not there. -/
def books : Ontology := .ofDocument ⟨[], [
  .bare "Book" [(.rangeIncludes, ["author", "Gone", "author"])],
  .bare "author" [(.subPropertyOf, ["Book"]), (.domainIncludes, ["Book", "author"])],
  .bare "Book" [(.rangeIncludes, ["title", "author"]), (.domainIncludes, ["author"])],
  .bare "title" [(.domainIncludes, ["Book"]), (.supersededBy, ["author"])]]⟩

theorem books_in_order_of_arrival :
    ((Session.start books true).resolve .direct).2.result = .ok () ∧
    books.arrivals true 2 = (["author", "author", "title", "author"] : List Text) ∧
    (books.directChildren true).listAt 2 = (books.arrivals true 2).eraseDups ∧
    (books.directChildren true).listAt 2 = (["author", "title"] : List Text) ∧
    (books.directChildren true).listAt 0 = (["author"] : List Text) ∧
    ("Book" : Text) ∈ (books.directChildren true).listAt 1 := by
  have hshaped : books.WellShaped := by decide
  have h : ((Session.start books true).resolve .direct).2.result = .ok () :=
    (Session.result_resolve _ .direct).mpr hshaped.direct
  have harrivals : books.arrivals true 2 = (["author", "author", "title", "author"] : List Text) := by
    decide +kernel
  have hbook := (direct_in_order_of_arrival h 2).1
  obtain ⟨-, -, hshadowed, -⟩ := direct_in_order_of_arrival h 0
  obtain ⟨-, -, -, hjoined⟩ := direct_in_order_of_arrival h 1
  refine ⟨h, harrivals, hbook, ?_, ?_, ?_⟩
  · rw [hbook, harrivals]
    decide
  · rw [hshadowed _ rfl (by decide +kernel)]
    decide +kernel
  · exact hjoined _ (List.getElem_mem (n := 2) (by decide)) "author" (by decide) (by decide +kernel)

end Ontology

end OntologyStructs
