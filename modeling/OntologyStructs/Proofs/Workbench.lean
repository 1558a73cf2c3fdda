import OntologyStructs.Proofs.Loading
import OntologyStructs.Proofs.Resolution.Closure
import OntologyStructs.Proofs.Roster
import OntologyStructs.Workbench

namespace OntologyStructs

def Operation.mayAddChildren : Operation → Bool
  | .addChild _ _ => true
  | .resolve _ _ => true
  | .resolveOnce _ => true
  | _ => false

namespace Workbench

variable (b : Workbench) {op : Operation} {p : Nat} {id : Text}

def steps : Operation → List ResolutionStep
  | .addChild position id => if position < b.ontology.nodes.length then [.member position id] else []
  | .resolve number phase => match b.resolvers[number]? with
    | none => []
    | some r => ((b.session r).plan phase).steps
  | .resolveOnce leaveOut => ((b.session ⟨leaveOut, {}⟩).plan .whole).steps
  | _ => []

def history (b : Workbench) : List Operation → List ResolutionStep
  | [] => []
  | op :: ops => b.steps op ++ history (b.perform op).1 ops

theorem atEntry_fst (position : Nat) (f : Node → Workbench × Logged OperationError Answer) :
    (b.atEntry position f).1 = match b.ontology.nodes[position]? with
      | none => b
      | some n => (f n).1 := by
  rw [atEntry]
  cases b.ontology.nodes[position]? <;> rfl

theorem children_resolveBy (r : Resolver) (phase : Phase) : (b.resolveBy r phase).1.children =
    (Progress.run ⟨b.children, {}⟩ ((b.session r).plan phase).steps).children := by
  rw [resolveBy]
  simp only [Session.children, Session.progress_resolve]
  exact Progress.children_run_congr rfl

theorem perform_addChild_fst (position : Nat) (id : Text) :
    (b.perform (.addChild position id)).1 =
      if position < b.ontology.nodes.length then
        { b with children := (b.children.add position id).1 } else b := by
  simp only [perform, atEntry_fst]
  by_cases h : position < b.ontology.nodes.length
  · rw [List.getElem?_eq_getElem h, if_pos h]
    rfl
  · rw [List.getElem?_eq_none (by omega), if_neg h]

theorem perform_resolve_fst (number : Nat) (phase : Phase) :
    (b.perform (.resolve number phase)).1 = match b.resolvers[number]? with
      | none => b
      | some r => { b with
        children := (b.resolveBy r phase).1.children
        resolvers := b.resolvers.set number (b.resolveBy r phase).2.1 } := by
  rw [perform]
  cases b.resolvers[number]? <;> rfl

/-- All that an operation does to children, whether it fails or not. -/
theorem children_perform (op : Operation) : (b.perform op).1.children =
    (Progress.run ⟨b.children, {}⟩ (b.steps op)).children := by
  cases op with
  | addChild position id =>
    rw [perform_addChild_fst, steps]
    split
    · rfl
    · rfl
  | resolve number phase =>
    rw [perform_resolve_fst, steps]
    cases b.resolvers[number]? with
    | none => rfl
    | some r => exact b.children_resolveBy r phase
  | resolveOnce leaveOut => exact b.children_resolveBy ⟨leaveOut, {}⟩ .whole
  | showEntry position | declare keep position =>
    simp only [perform, atEntry_fst]
    cases b.ontology.nodes[position]? <;> rfl
  | _ => rfl

theorem ontology_perform (op : Operation) : (b.perform op).1.ontology = b.ontology := by
  cases op with
  | addChild position id =>
    rw [perform_addChild_fst]
    split <;> rfl
  | resolve number phase =>
    rw [perform_resolve_fst]
    cases b.resolvers[number]? <;> rfl
  | showEntry position | declare keep position =>
    simp only [perform, atEntry_fst]
    cases b.ontology.nodes[position]? <;> rfl
  | _ => rfl

variable {b}

theorem within_steps (h : b.children.Fits b.ontology) :
    ∀ s ∈ b.steps op, s.Within b.children.length := by
  intro s hs
  cases op with
  | addChild position id =>
    simp only [steps, List.mem_ite_nil_right, List.mem_singleton] at hs
    obtain ⟨hp, rfl⟩ := hs
    rintro _ ⟨⟩
    rwa [h.length]
  | resolve number phase =>
    rw [steps] at hs
    cases hr : b.resolvers[number]? with
    | none => simp [hr] at hs
    | some r =>
      rw [hr] at hs
      exact Ontology.within_plan r.leaveOut phase h s hs
  | resolveOnce leaveOut => exact Ontology.within_plan leaveOut .whole h s hs
  | _ => cases hs

theorem fits_perform (h : b.children.Fits b.ontology) :
    (b.perform op).1.children.Fits (b.perform op).1.ontology := by
  rw [children_perform, ontology_perform]
  exact ⟨Progress.length_run.trans h.length, Progress.distinct_run (within_steps h) h.distinct⟩

theorem prefix_perform (h : b.children.Fits b.ontology) (p : Nat) :
    b.children.listAt p <+: (b.perform op).1.children.listAt p := by
  rw [children_perform]
  exact Progress.prefix_run (P := ⟨b.children, {}⟩) (within_steps h) h.distinct p

theorem children_perform_of_not (h : op.mayAddChildren = false) :
    (b.perform op).1.children = b.children := by
  rw [children_perform]
  cases op with
  | addChild position id => cases h
  | resolve number phase => cases h
  | resolveOnce leaveOut => cases h
  | _ => rfl

/-- A resolution brings nothing unknown where nothing unknown is there. -/
theorem knows_brings {s : Session} {phase : Phase} {step : ResolutionStep} {c : Children}
    (hs : step ∈ (s.plan phase).steps) (hc : ∀ p, ∀ id ∈ c.listAt p, s.ontology.knows id) :
    ∀ p, step.parent? = some p → ∀ id ∈ step.brings c, s.ontology.knows id := by
  intro p hp id hid
  rcases s.mem_steps_plan phase hs with hs | hs
  · have hd := s.ontology.directStep_directPlan s.leaveOut hs
    exact hd.knows p hp id (ResolutionStep.brings_eq hd.not_inherit c [] ▸ hid)
  · obtain ⟨a, _, rfl⟩ := (s.ontology.inheritStep_inheritancePlan hs).inherits p hp
    exact hc a id hid

theorem knows_perform (h : b.children.Fits b.ontology)
    (hop : ∀ p id, op = .addChild p id → b.ontology.knows id)
    (hc : ∀ p, ∀ id ∈ b.children.listAt p, b.ontology.knows id) :
    ∀ p, ∀ id ∈ (b.perform op).1.children.listAt p, b.ontology.knows id := by
  rw [children_perform]
  refine Progress.run_invariant (fun c ↦ ∀ p, ∀ id ∈ c.listAt p, b.ontology.knows id) ?_
    (within_steps h) h.distinct hc
  intro P s hs hw hd hP p id hid
  rcases (ResolutionStep.mem_apply hw hd).mp hid with hid | ⟨hp, hid⟩
  · exact hP p id hid
  · cases op with
    | addChild position child =>
      simp only [steps, List.mem_ite_nil_right, List.mem_singleton] at hs
      obtain ⟨_, rfl⟩ := hs
      rw [List.mem_singleton.mp hid]
      exact hop position child rfl
    | resolve number phase =>
      rw [steps] at hs
      cases hr : b.resolvers[number]? with
      | none => simp [hr] at hs
      | some r =>
        rw [hr] at hs
        exact knows_brings hs hP p hp id hid
    | resolveOnce leaveOut => exact knows_brings (s := b.session ⟨leaveOut, {}⟩) hs hP p hp id hid
    | _ => cases hs

theorem run_cons (op : Operation) (ops : List Operation) :
    b.run (op :: ops) = (b.perform op).1.run ops := rfl

theorem ontology_run (ops : List Operation) : (b.run ops).ontology = b.ontology := by
  induction ops generalizing b with
  | nil => rfl
  | cons op ops ih => rw [run_cons, ih, ontology_perform]

theorem fits_run (h : b.children.Fits b.ontology) (ops : List Operation) :
    (b.run ops).children.Fits (b.run ops).ontology := by
  induction ops generalizing b with
  | nil => exact h
  | cons op ops ih => exact ih (fits_perform h)

theorem knows_run (h : b.children.Fits b.ontology) {ops : List Operation}
    (hops : ∀ p id, .addChild p id ∈ ops → b.ontology.knows id)
    (hc : ∀ p, ∀ id ∈ b.children.listAt p, b.ontology.knows id) :
    ∀ p, ∀ id ∈ (b.run ops).children.listAt p, b.ontology.knows id := by
  induction ops generalizing b with
  | nil => exact hc
  | cons op ops ih =>
    have ho := b.ontology_perform op
    rw [run_cons, ← ho]
    apply ih (fits_perform h)
    · intro p id hid
      rw [ho]
      exact hops p id (List.mem_cons_of_mem op hid)
    · rw [ho]
      exact knows_perform h (fun p id hop ↦ hops p id (hop ▸ List.mem_cons_self)) hc

/-- With sets beside them, the lists of children come out the same. -/
theorem roster_run {r : Roster} (h : b.children.Fits b.ontology) (hr : r.Sound)
    (hl : r.lists = b.children) (ops : List Operation) :
    (r.run (b.history ops)).Sound ∧ (r.run (b.history ops)).lists = (b.run ops).children := by
  induction ops generalizing b r with
  | nil => exact ⟨hr, hl⟩
  | cons op ops ih =>
    obtain ⟨hr', hl'⟩ := Roster.run_spec (P := ⟨b.children, {}⟩) hr hl (@within_steps b op h)
    rw [history, Roster.run, List.foldl_append, run_cons]
    exact ih (fits_perform h) hr' (hl'.trans (b.children_perform op).symm)

theorem result_addChild (hp : p < b.ontology.nodes.length) (id : Text) :
    (b.perform (.addChild p id)).2.result = .ok (.added (b.children.add p id).2) := by
  rw [perform, atEntry, List.getElem?_eq_getElem hp]
  rfl

/-- Whatever is asked for in whatever order, and also where it fails: entries, index and context stay
as they are, and children only ever come behind those that are there, each once. Sets kept beside the
lists hold the same, and nothing unknown comes in unless it is added by hand. -/
theorem children_only_grow {d : Document} {strict : Bool} {o : Ontology}
    (h : (Ontology.build strict d).result = .ok o) (files : FileTree) (ops : List Operation) :
    let b := (start o files).run ops
    let r := (Roster.start d.nodes.length).run ((start o files).history ops)
    b.ontology = .ofDocument d ∧ b.children.Distinct ∧
    (r.lists = b.children ∧ (∀ p id, id ∈ r.sets p ↔ id ∈ b.children.listAt p) ∧
      ∀ p < d.nodes.length, ∀ id, (b.perform (.addChild p id)).2.result =
        .ok (.added (decide (id ∉ r.sets p)))) ∧
    (∀ op, (b.perform op).1.ontology = .ofDocument d ∧
      (∀ p, b.children.listAt p <+: (b.perform op).1.children.listAt p) ∧
      (op.mayAddChildren = false → (b.perform op).1.children = b.children)) ∧
    ((∀ p id, .addChild p id ∈ ops → (Ontology.ofDocument d).knows id) →
      ∀ p, ∀ id ∈ b.children.listAt p, (Ontology.ofDocument d).knows id) := by
  obtain rfl := Ontology.build_eq_ok h
  intro b r
  have hstart : (start (.ofDocument d) files).children.Fits (.ofDocument d) :=
    (Ontology.ofDocument d).fits_start false
  have ho : b.ontology = .ofDocument d := ontology_run ops
  have hfits := fits_run hstart ops
  obtain ⟨hsound, hlists⟩ := roster_run hstart (Roster.sound_start _) rfl ops
  have hsets : ∀ p id, id ∈ r.sets p ↔ id ∈ b.children.listAt p := by
    intro p id
    rw [← hlists]
    exact hsound p id
  refine ⟨ho, hfits.distinct, ⟨hlists, hsets, fun p hp id ↦ ?_⟩, fun op ↦ ⟨?_, ?_, ?_⟩, fun hops ↦ ?_⟩
  · have hnew : (b.children.add p id).2 = decide (id ∉ r.sets p) := by
      by_cases hid : id ∈ b.children.listAt p
      · simp [Children.add_of_mem hid, hsets, hid]
      · simp [Children.add_of_notMem hid, hsets, hid]
    rw [result_addChild (by rwa [ho]), hnew]
  · exact (b.ontology_perform op).trans ho
  · exact prefix_perform hfits
  · exact children_perform_of_not
  · exact knows_run hstart hops fun p id hid ↦ by simp [start] at hid

/-- A document with an entry that comes twice and is its own superclass, and a range that cannot be
read. -/
def rangeless : Document := ⟨[], [
  .bare "Thing" [],
  .bare "name" [(.domainIncludes, ["Thing", "Gone"])],
  ⟨"length", ⟨[], []⟩, .empty, .empty, fun r ↦ if r = .rangeIncludes then some (.int 3) else none⟩,
  .bare "Thing" [(.subClassOf, ["Thing"])]]⟩

/-- A phase fails midway, a resolver and an entry are not there, and there is no place for a dump. -/
def rangelessOperations : List Operation := [
  .makeResolver true, .addChild 3 "length", .resolve 0 .direct, .resolve 0 .inheritance,
  .resolve 1 .whole, .addChild 9 "Thing", .declareAll false, .saveResolved (.ofText "no/dump.json"),
  .resolveOnce false]

theorem rangeless_only_grows :
    let b := (start (.ofDocument rangeless) ⟨[], []⟩).run rangelessOperations
    b.children = ([[], [], [], ["length", "name"]] : Children) ∧
    b.ontology = .ofDocument rangeless ∧
    (b.perform (.resolve 0 .whole)).1.ontology = .ofDocument rangeless ∧
    (∀ p, b.children.listAt p <+: (b.perform (.resolve 0 .whole)).1.children.listAt p) ∧
    ∀ p, ∀ id ∈ b.children.listAt p, (Ontology.ofDocument rangeless).knows id := by
  have h : (Ontology.build false rangeless).result = .ok (.ofDocument rangeless) := rfl
  obtain ⟨ho, -, -, hop, hknows⟩ := children_only_grow h ⟨[], []⟩ rangelessOperations
  obtain ⟨ho', hprefix, -⟩ := hop (.resolve 0 .whole)
  refine ⟨by decide +kernel, ho, ho', hprefix, hknows ?_⟩
  have hk : ∀ id ∈ (["length", "Thing"] : List Text), (Ontology.ofDocument rangeless).knows id := by
    decide +kernel
  intro p id hid
  simp only [rangelessOperations, List.mem_cons, Operation.addChild.injEq, reduceCtorEq,
    List.not_mem_nil, false_or, or_false] at hid
  rcases hid with ⟨-, rfl⟩ | ⟨-, rfl⟩
  · exact hk _ List.mem_cons_self
  · exact hk _ (List.mem_cons_of_mem _ List.mem_cons_self)

end Workbench

end OntologyStructs
