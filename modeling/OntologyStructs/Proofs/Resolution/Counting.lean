import OntologyStructs.Proofs.Logged
import OntologyStructs.Proofs.Resolution.Tally
import OntologyStructs.Proofs.Resolution.Turns

namespace OntologyStructs

namespace Session

variable (s : Session)

def resolveAll (phases : List Phase) : Session := phases.foldl (fun s phase ↦ (s.resolve phase).1) s

theorem resolveAll_cons (phase : Phase) (phases : List Phase) :
    s.resolveAll (phase :: phases) = (s.resolve phase).1.resolveAll phases := rfl

variable {s}

theorem ontology_resolve (s : Session) (phase : Phase) : (s.resolve phase).1.ontology = s.ontology := by
  rw [resolve]
  cases (s.plan phase).failure <;> rfl

theorem length_resolve (h : s.children.length = s.ontology.nodes.length) (phase : Phase) :
    (s.resolve phase).1.children.length = (s.resolve phase).1.ontology.nodes.length := by
  rw [ontology_resolve, ← h, children, progress_resolve]
  exact Progress.length_run

theorem total_resolveAll (h : s.children.length = s.ontology.nodes.length) (phases : List Phase) :
    (s.resolveAll phases).counters.total + s.children.total =
      s.counters.total + (s.resolveAll phases).children.total := by
  induction phases generalizing s with
  | nil => rfl
  | cons phase phases ih =>
    have hfirst := s.total_resolve phase h
    have hrest := ih (length_resolve h phase)
    rw [resolveAll_cons]
    omega

end Session

namespace Ontology

variable {o : Ontology} {leaveOut : Bool}

section notes

variable (o leaveOut) (n : Node) (r : Relation)

theorem countP_isDangling_danglingNotes :
    (o.danglingNotes n r).countP ResolutionStep.isDangling = (n.targets r).countP fun id ↦ !o.knows id := by
  rw [danglingNotes, List.countP_map, List.countP_filter]
  rfl

theorem countP_isDangling_joinNotes : (o.joinNotes leaveOut n r).countP ResolutionStep.isDangling =
    if leaveOut && n.isSuperseded then 0 else (n.targets r).countP fun id ↦ !o.knows id := by
  rw [joinNotes, ← countP_isDangling_danglingNotes]
  cases leaveOut && n.isSuperseded with
  | false => rfl
  | true =>
    -- what is not there is not counted as left out, and names no targets either
    cases hr : n.relation r with
    | none => simp [danglingNotes, Node.targets, hr]
    | some v => rfl

theorem countP_isDangling_notesOf : (o.notesOf leaveOut n).countP ResolutionStep.isDangling =
    (n.joined leaveOut ++ n.targets .rangeIncludes ++ n.targets .subClassOf).countP
      fun id ↦ !o.knows id := by
  simp only [notesOf, directNotes, List.countP_append, countP_isDangling_joinNotes,
    countP_isDangling_danglingNotes, Node.joined]
  cases leaveOut && n.isSuperseded <;> simp

theorem countP_isSuperseded_danglingNotes :
    (o.danglingNotes n r).countP ResolutionStep.isSuperseded = 0 := by
  rw [danglingNotes, List.countP_map, List.countP_eq_zero]
  exact fun _ _ h ↦ nomatch h

theorem countP_isSuperseded_notesOf : (o.notesOf leaveOut n).countP ResolutionStep.isSuperseded =
    (if leaveOut && n.isSuperseded then
      [Relation.subPropertyOf, .domainIncludes].filterMap n.relation else []).length := by
  simp only [notesOf, directNotes, joinNotes, List.countP_append, countP_isSuperseded_danglingNotes]
  cases leaveOut && n.isSuperseded with
  | false => simp [countP_isSuperseded_danglingNotes]
  | true =>
    cases hs : n.relation .subPropertyOf <;> cases hd : n.relation .domainIncludes <;>
      simp [countP_isSuperseded_danglingNotes, hs, hd, ResolutionStep.isSuperseded]

end notes

/-- What a resolver has counted is what it has added, whatever it was asked for and however far it got.
After one resolution the counters tell what each phase has added, how many times a target was not
there, though superclasses are read twice, and how many values of superseded entries were passed over. -/
theorem counters_exact (o : Ontology) (leaveOut : Bool) :
    (∀ c : Children, c.length = o.nodes.length → ∀ phases,
      ((o.sessionOn leaveOut c).resolveAll phases).counters.total + c.total =
        ((o.sessionOn leaveOut c).resolveAll phases).children.total) ∧
    ∀ r, (o.resolve leaveOut).result = .ok r →
      r.counters.members + r.counters.ranges = (o.directChildren leaveOut).total ∧
      r.counters.members + r.counters.ranges + r.counters.inherited = r.children.total ∧
      r.counters.dangling = (o.nodes.flatMap fun n ↦
        n.joined leaveOut ++ n.targets .rangeIncludes ++ n.targets .subClassOf).countP
          (fun id ↦ !o.knows id) ∧
      r.counters.superseded = (o.nodes.flatMap fun n ↦
        if leaveOut && n.isSuperseded then
          [Relation.subPropertyOf, .domainIncludes].filterMap n.relation else []).length := by
  refine ⟨fun c hc phases ↦ ?_, fun r hr ↦ ⟨attached_of_resolve hr, total_of_resolve hr, ?_, ?_⟩⟩
  · have htotal := Session.total_resolveAll (s := o.sessionOn leaveOut c) hc phases
    exact htotal.trans (Nat.zero_add _)
  · rw [dangling_of_resolve hr, List.countP_flatMap, List.countP_flatMap]
    simp only [Function.comp_def, countP_isDangling_notesOf]
  · rw [superseded_of_resolve hr, List.countP_flatMap, List.length_flatMap]
    simp only [Function.comp_def, countP_isSuperseded_notesOf]

/-- A library that cannot be resolved, with children from elsewhere. -/
def shelves : Session := (library (.text "title")).sessionOn true [["978"], [], ["isbn", "issn"], []]

theorem shelves_counted :
    (shelves.resolve .whole).2.result.isOk = false ∧
    (shelves.resolveAll [.whole, .inheritance, .direct]).counters.total = 1 ∧
    (shelves.resolveAll [.whole, .inheritance, .direct]).counters.total + 3 =
      (shelves.resolveAll [.whole, .inheritance, .direct]).children.total ∧
    ∃ r, (restaurants.resolve true).result = .ok r ∧ r.counters = ⟨2, 0, 3, 1, 0⟩ ∧
      r.counters.members + r.counters.ranges = (restaurants.directChildren true).total ∧
      r.counters.members + r.counters.ranges + r.counters.inherited = r.children.total := by
  obtain ⟨hgrowth, -⟩ := counters_exact (library (.text "title")) true
  obtain ⟨-, hcounts⟩ := counters_exact restaurants true
  have hcounters : (restaurants.resolve true).result.toOption.map Resolved.counters =
      some ⟨2, 0, 3, 1, 0⟩ := by decide +kernel
  obtain ⟨r, hr, hr'⟩ := Logged.exists_of_map_eq_some hcounters
  obtain ⟨hattached, htotal, -, -⟩ := hcounts r hr
  exact ⟨by decide +kernel, by decide +kernel, hgrowth _ rfl _, r, hr, hr', hattached, htotal⟩

end Ontology

end OntologyStructs
