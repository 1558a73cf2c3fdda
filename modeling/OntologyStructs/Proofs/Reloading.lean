import OntologyStructs.Proofs.Generation
import OntologyStructs.Proofs.Resolution.Tally
import OntologyStructs.Proofs.RoundTrip

namespace OntologyStructs

theorem Document.all_isReadable_readValue {source : Source} {v : Json}
    (h : readValue source = .ok v) : v.all Json.isReadable := by
  cases source with
  | bytes bytes =>
    obtain ⟨t, -, ht⟩ := bind_eq_ok.mp h
    exact Json.isReadable_readDecoded (mapError_eq_ok.mp ht)
  | text t => exact Json.isReadable_read (mapError_eq_ok.mp h)

theorem Document.read_eq_ok {source : Source} {d : Document} : (read source).result = .ok d ↔
    ∃ v, readValue source = .ok v ∧ (ofJson v).result = .ok d := by
  constructor
  · intro h
    obtain ⟨v, hv, h⟩ := Logged.bind_eq_ok.mp h
    obtain ⟨d', hd, h⟩ := Logged.bind_eq_ok.mp h
    obtain ⟨_, _, h⟩ := Logged.bind_eq_ok.mp h
    cases h
    exact ⟨v, hv, hd⟩
  · intro h
    obtain ⟨v, hv, hd⟩ := h
    exact Logged.bind_eq_ok.mpr ⟨v, hv, Logged.bind_eq_ok.mpr ⟨d, hd, rfl⟩⟩

theorem Document.readValue_eq_error {source : Source} {cause : Json.ReadError}
    (h : (read source).result = .error (.unreadable cause)) :
    readValue source = .error (.unreadable cause) := by
  rw [read, Logged.result_bind] at h
  rcases bind_eq_error.mp h with h | ⟨v, -, h⟩
  · exact h
  rw [Logged.result_bind] at h
  rcases bind_eq_error.mp h with h | ⟨d, -, h⟩
  · rw [ofJson] at h
    split at h
    · cases h
    · split at h <;> cases h
  · cases h

/-- What holds of all of a value holds of all that a document takes from it. -/
theorem Document.all_of_ofJson {p : Json → Bool} (hp : Json.IsTextual p) {v : Json} (hv : v.all p)
    {d : Document} (hd : (ofJson v).result = .ok d) :
    (Json.object d.context).all p ∧ ∀ n ∈ d.nodes, n.Holds p := by
  constructor
  · obtain ⟨hcontext, -⟩ := check_eq_ok (ofJson_eq_ok.mp hd)
    rcases readContext_eq_ok hcontext with hget | hnil
    · exact Json.all_of_get? hv hget
    · rw [hnil]
      exact Json.all_iff.mpr ⟨hp.object List.nodup_nil rfl, List.forall_mem_nil _⟩
  · intro n hn
    obtain ⟨e, he, hall⟩ := exists_read_of_mem hd hn
    exact Node.holds_of_read (hp.text []) he (hall _ hv)

namespace Dump

variable {o : Ontology} {c : Children}

theorem readValue_indented (h : (resolved o c).all Json.isPortable) :
    Document.readValue (.text ((resolved o c).indented "\t")) = .ok (resolved o c) := by
  obtain ⟨hread, hwhole, -⟩ := Json.all_isPortable.mp h
  rw [Document.readValue, Json.read_indented (by decide) hread hwhole]
  rfl

theorem readValue_bytes (h : (resolved o c).all Json.isPortable) : Document.readValue
    (.bytes (((resolved o c).indented "\t").flatMap Utf8.encodeOne)) = .ok (resolved o c) := by
  obtain ⟨hread, hwhole, -⟩ := Json.all_isPortable.mp h
  have hstart : ∃ t : Text, (resolved o c).indented "\t" = ('{' : CodePoint) ::
      ('\n' : CodePoint) :: ('\t' : CodePoint) :: ('"' : CodePoint) :: t := ⟨_, rfl⟩
  have hdetect :
      Encoding.detect (((resolved o c).indented "\t").flatMap Utf8.encodeOne) = .utf8 := by
    obtain ⟨t, ht⟩ := hstart
    rw [ht]
    rfl
  rw [Document.readValue, hdetect, Encoding.decode, Utf8.decode_flatMap_encodeOne]
  change (Json.readDecoded _).mapError _ = _
  rw [Json.readDecoded_indented (by decide) hread hwhole]
  rfl

theorem read_saveResolved {p : Path} {t : FileTree} (h : (saveResolved o c p t).2.result = .ok ()) :
    (saveResolved o c p t).1.read p =
      .ok (FileTree.encodePieces ((resolved o c).pieces "\t" 0)).1 := by
  have hsaved := saveResolved_meets o c p t
  rw [FileWork.Meets, h] at hsaved
  cases hsaved with
  | whole hp hu => rw [hu.read, hp]

end Dump

namespace Resolved

variable {source : Source} {strict leaveOut : Bool} {r : Resolved} {v : Json}

theorem all_dump {p : Json → Bool} (hp : Json.IsTextual p) {d : Document}
    (hcontext : (Json.object d.context).all p) (hnodes : ∀ n ∈ d.nodes, n.Holds p)
    (hr : ((Ontology.ofDocument d).resolve leaveOut).result = .ok r) :
    (Dump.resolved r.ontology r.children).all p := by
  rw [Ontology.ontology_of_resolve hr]
  refine Dump.all_resolved hp hcontext hnodes fun i id hid ↦ ?_
  have hknown := Ontology.knows_of_resolve hr hid
  obtain ⟨q, hq⟩ := Option.isSome_iff_exists.mp hknown
  obtain ⟨n, hn, rfl⟩ := Ontology.exists_of_position? hq
  exact ((hnodes n (List.mem_of_getElem? hn)).isEncodable hp).1

/-- The dump of a resolved ontology is a document again, and the one that was resolved: as a value, as
a text, and as the bytes that are saved it reads as the same context and the same entries, which have
no children at first, and it is resolved to the same in the same way. -/
theorem load_dump (h : (load source strict leaveOut).result = .ok r)
    (hv : Document.readValue source = .ok v) (hwhole : v.all Json.isWhole)
    (hencodable : v.all Json.isEncodable) :
    ∃ d bytes, (Document.read source).result = .ok d ∧
      (Document.ofJson (Dump.resolved r.ontology r.children)).result = .ok d ∧
      (∀ n ∈ d.nodes, Node.read n.toJson = .ok n) ∧
      (∀ p, (Session.start (.ofDocument d) leaveOut).children.listAt p = []) ∧
      (Ontology.build strict d).result = .ok r.ontology ∧
      (r.ontology.resolve leaveOut).result = .ok r ∧
      FileTree.encodePieces ((Dump.resolved r.ontology r.children).pieces "\t" 0) = (bytes, none) ∧
      (∀ p t, (Dump.saveResolved r.ontology r.children p t).2.result = .ok () →
        (Dump.saveResolved r.ontology r.children p t).1.read p = .ok bytes) ∧
      ∀ copy ∈ [Source.text ((Dump.resolved r.ontology r.children).indented "\t"), .bytes bytes],
        (Document.read copy).result = .ok d ∧ (load copy strict leaveOut).result = .ok r := by
  obtain ⟨d, hd, hbuild, hr⟩ := load_eq_ok_iff.mp h
  obtain ⟨v', hv', hofJson⟩ := Document.read_eq_ok.mp hd
  obtain rfl : v = v' := Except.ok.inj (hv.symm.trans hv')
  have hontology := Ontology.ontology_of_resolve hr
  have hnull : ∀ n ∈ d.nodes, ∀ r, n.relation r ≠ some .null := by
    intro n hn
    obtain ⟨e, he, -⟩ := Document.exists_read_of_mem hofJson hn
    exact Node.relation_ne_null he
  have hdump : (Document.ofJson (Dump.resolved r.ontology r.children)).result = .ok d := by
    rw [hontology]
    exact Dump.ofJson_resolved hnull
  have hvalue := Json.all_isPortable.mpr ⟨Document.all_isReadable_readValue hv, hwhole, hencodable⟩
  obtain ⟨hcontext, hnodes⟩ := Document.all_of_ofJson Json.isTextual_isPortable hvalue hofJson
  have hportable := all_dump Json.isTextual_isPortable hcontext hnodes hr
  obtain ⟨-, -, hdumpEncodable⟩ := Json.all_isPortable.mp hportable
  have hencoded : Text.isEncodable ((Dump.resolved r.ontology r.children).pieces "\t" 0).flatten :=
    Json.isEncodable_pieces (by decide) hdumpEncodable
  have hpieces := FileTree.encodePieces_of_isEncodable hencoded
  -- it does not matter in which form the dump is read
  have hcopy (copy : Source)
      (hcopy : Document.readValue copy = .ok (Dump.resolved r.ontology r.children)) :
      (Document.read copy).result = .ok d ∧ (load copy strict leaveOut).result = .ok r := by
    have hread := Document.read_eq_ok.mpr ⟨_, hcopy, hdump⟩
    exact ⟨hread, load_eq_ok_iff.mpr ⟨d, hread, hbuild, hr⟩⟩
  refine ⟨d, _, hd, hdump, ?_, ?_, ?_, ?_, hpieces, ?_, ?_⟩
  · exact fun n hn ↦ Node.read_toJson (hnull n hn)
  · exact fun p ↦ Children.listAt_ofSize _ p
  · rw [hontology]
    exact hbuild
  · rw [hontology]
    exact hr
  · intro p t hsaved
    rw [Dump.read_saveResolved hsaved, hpieces]
  · exact List.forall_mem_cons.mpr ⟨hcopy _ (Dump.readValue_indented hportable),
      List.forall_mem_singleton.mpr (hcopy _ (Dump.readValue_bytes hportable))⟩

/-- A document of a menu, whose name comes twice. Within relations null is a value like others. -/
def menu : Text :=
  "\x7b\"@context\": \x7b\"schema\": \"https://schema.org/\", \"version\": -12\x7d, \"@graph\": [" ++
  "\x7b\"@id\": \"schema:Menu\", \"@type\": \"rdfs:Class\", \"rdfs:comment\": " ++
  "\x7b\"@language\": \"en\", \"@value\": \"A \\\"list\\\"\\n\"\x7d, \"Childs\": 7, " ++
  "\"rdfs:subClassOf\": \x7b\"@id\": \"schema:List\", \"note\": null\x7d\x7d, " ++
  "\x7b\"@id\": \"schema:List\", \"@type\": [\"rdfs:Class\"], \"rdfs:label\": null\x7d, " ++
  "\x7b\"@id\": \"schema:name\", \"@type\": [\"rdf:Property\", \"rdfs:Class\"], " ++
  "\"schema:domainIncludes\": [\x7b\"@id\": \"schema:List\"\x7d], " ++
  "\"schema:supersededBy\": null\x7d, " ++
  "\x7b\"@id\": \"schema:name\", \"@type\": \"rdf:Property\", " ++
  "\"schema:rangeIncludes\": [\"schema:Menu\"]\x7d]\x7d"

theorem menu_loads_again : ∃ r, (load (.text menu) false false).result = .ok r ∧
    r.counters.total = 3 ∧
    (load (.text ((Dump.resolved r.ontology r.children).indented "\t")) false false).result =
      .ok r := by
  have hcount : (load (.text menu) false false).result.toOption.map (·.counters.total) = some 3 := by
    decide +kernel
  have hplain : (Document.readValue (.text menu)).toOption.map
      (fun v ↦ (v.all Json.isWhole, v.all Json.isEncodable)) = some (true, true) := by
    decide +kernel
  obtain ⟨r, hr, htotal⟩ := Logged.exists_of_map_eq_some hcount
  obtain ⟨v, hv, hv'⟩ := exists_of_toOption_map_eq_some hplain
  obtain ⟨hwhole, hencodable⟩ := Prod.mk.inj hv'
  obtain ⟨d, bytes, -, -, -, -, -, -, -, -, hcopies⟩ := load_dump hr hv hwhole hencodable
  exact ⟨r, hr, htotal, (hcopies _ List.mem_cons_self).2⟩

end Resolved

end OntologyStructs
