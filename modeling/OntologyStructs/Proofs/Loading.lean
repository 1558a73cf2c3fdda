import OntologyStructs.Ontology.Loading
import OntologyStructs.Proofs.Logged

namespace OntologyStructs

theorem Ontology.build_eq_ok {strict : Bool} {d : Document} {o : Ontology}
    (h : (build strict d).result = .ok o) : o = ofDocument d := by
  cases strict with
  | false => exact (Except.ok.inj h).symm
  | true =>
    unfold build at h
    cases hr : (ofDocument d).index.repeats with
    | nil =>
      simp only [hr] at h
      exact (Except.ok.inj h).symm
    | cons r rs =>
      simp only [hr] at h
      cases h

theorem Resolved.result_load {source : Source} {d : Document}
    (hd : (Document.read source).result = .ok d) (strict leaveOut : Bool) :
    (load source strict leaveOut).result =
      (Ontology.build strict d).result.mapError .duplicate >>= fun o ↦
        (o.resolve leaveOut).result.mapError .misshapen := by
  have hdocument : ((Document.read source).mapError LoadError.document).result = .ok d :=
    (Logged.mapError_eq_ok _).mpr hd
  rw [load, Logged.result_bind, hdocument]
  exact Logged.result_bind _ _

theorem Resolved.load_eq_ok_iff {source : Source} {strict leaveOut : Bool} {r : Resolved} :
    (load source strict leaveOut).result = .ok r ↔
      ∃ d, (Document.read source).result = .ok d ∧
        (Ontology.build strict d).result = .ok (.ofDocument d) ∧
        ((Ontology.ofDocument d).resolve leaveOut).result = .ok r := by
  constructor
  · intro h
    obtain ⟨d, hd, h⟩ := Logged.bind_eq_ok.mp h
    obtain ⟨o, ho, h⟩ := Logged.bind_eq_ok.mp h
    rw [Logged.mapError_eq_ok] at hd ho h
    obtain rfl := Ontology.build_eq_ok ho
    exact ⟨d, hd, ho, h⟩
  · intro hx
    obtain ⟨d, hd, ho, hr⟩ := hx
    exact Logged.bind_eq_ok.mpr ⟨d, (Logged.mapError_eq_ok _).mpr hd,
      Logged.bind_eq_ok.mpr ⟨_, (Logged.mapError_eq_ok _).mpr ho, (Logged.mapError_eq_ok _).mpr hr⟩⟩

theorem Resolved.load_eq_ok {source : Source} {strict leaveOut : Bool} {r : Resolved}
    (h : (load source strict leaveOut).result = .ok r) :
    ∃ d, (Document.read source).result = .ok d ∧
      ((Ontology.ofDocument d).resolve leaveOut).result = .ok r := by
  obtain ⟨d, hd, -, hr⟩ := load_eq_ok_iff.mp h
  exact ⟨d, hd, hr⟩

theorem Resolved.read_eq_error {source : Source} {strict leaveOut : Bool} {e : DocumentError}
    (h : (load source strict leaveOut).result = .error (.document e)) :
    (Document.read source).result = .error e := by
  rw [load, Logged.result_bind] at h
  rcases bind_eq_error.mp h with h | ⟨d, -, h⟩
  · obtain ⟨_, h, ⟨⟩⟩ := mapError_eq_error.mp h
    exact h
  rw [Logged.result_bind] at h
  rcases bind_eq_error.mp h with h | ⟨o, -, h⟩
  · obtain ⟨_, -, h⟩ := mapError_eq_error.mp h
    cases h
  · obtain ⟨_, -, h⟩ := mapError_eq_error.mp h
    cases h

end OntologyStructs
