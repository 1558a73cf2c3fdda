import OntologyStructs.Files.Work
import OntologyStructs.Proofs.Assoc
import OntologyStructs.Proofs.Json.Reading
import OntologyStructs.Proofs.Utf8

namespace OntologyStructs

structure Path.Short (p : Path) : Prop where
  names : ∀ name ∈ p.parts, nameSize name ≤ nameLimit
  whole : nameSize p.toText ≤ pathLimit

theorem Text.mem_of_mem_join {c : CodePoint} {sep : Text} {ts : List Text} (h : c ∈ join sep ts) :
    c ∈ sep ∨ ∃ t ∈ ts, c ∈ t := by
  fun_induction join sep ts with
  | case1 => cases h
  | case2 t => exact .inr ⟨t, List.mem_cons_self, h⟩
  | case3 t ts _ ih =>
    rcases List.mem_append.mp h with h | h
    · rcases List.mem_append.mp h with h | h
      · exact .inr ⟨t, List.mem_cons_self, h⟩
      · exact .inl h
    · rcases ih h with h | ⟨u, hu, h⟩
      · exact .inl h
      · exact .inr ⟨u, List.mem_cons_of_mem t hu, h⟩

namespace Path

/-- Whether the system can be asked about a path with these parts: no name holds a zero, and the only
surrogates are such as stand for bytes. -/
def areAskable (parts : List Text) : Bool :=
  parts.all fun part ↦ part.all fun c ↦ c ≠ 0 ∧ (c.isSurrogate → standsForByte c)

theorem areAskable_iff {parts : List Text} : areAskable parts ↔
    ∀ part ∈ parts, ∀ c ∈ part, c ≠ 0 ∧ (c.isSurrogate → standsForByte c) := by
  simp only [areAskable, List.all_eq_true, decide_eq_true_eq]

theorem areAskable_mono {parts others : List Text} (h : areAskable parts) (hsub : others ⊆ parts) :
    areAskable others := areAskable_iff.mpr fun part hpart ↦ areAskable_iff.mp h part (hsub hpart)

theorem nameFault_eq_none {t : Text} {position : Nat} (h : ∀ c ∈ t, c.isSurrogate → standsForByte c) :
    nameFault position t = none := by
  induction t generalizing position with
  | nil => rfl
  | cons c r ih =>
    obtain ⟨hc, hr⟩ := List.forall_mem_cons.mp h
    rw [nameFault, if_neg (by simpa using hc), ih hr]

theorem askable_of_areAskable {p : Path} (h : areAskable p.parts) : p.askable = .ok () := by
  have hall : ∀ c ∈ p.toText, c ≠ 0 ∧ (c.isSurrogate → standsForByte c) := by
    intro c hc
    have hmark (u : Text) (hu : u.all fun c ↦ c ≠ 0 ∧ c.isSurrogate = false) (hc : c ∈ u) :
        c ≠ 0 ∧ (c.isSurrogate → standsForByte c) := by
      obtain ⟨hzero, hsurrogate⟩ := of_decide_eq_true (List.all_eq_true.mp hu c hc)
      exact ⟨hzero, fun hs ↦ absurd hs (Bool.eq_false_iff.mp hsurrogate)⟩
    rw [toText] at hc
    split at hc
    · exact hmark "." (by decide) hc
    · rcases List.mem_append.mp hc with hc | hc
      · exact hmark p.root.toText (by cases p.root <;> decide) hc
      · rcases Text.mem_of_mem_join hc with hc | ⟨part, hpart, hc⟩
        · exact hmark "/" (by decide) hc
        · exact areAskable_iff.mp h part hpart c hc
  have hzero : ¬ p.toText.contains 0 := fun hzero ↦ (hall 0 (List.contains_iff_mem.mp hzero)).1 rfl
  rw [askable, nameFault_eq_none fun c hc ↦ (hall c hc).2]
  exact if_neg hzero

end Path

namespace FileTree

variable {t u : FileTree} {l m : Location} {e : Entry} {found : Option Entry} {names : List Text}
  {p : Path}

theorem at?_put (hl : l ≠ []) : (t.put l e).at? m = if m = l then some e else t.at? m := by
  cases m with
  | nil => rw [if_neg (Ne.symm hl)]; rfl
  | cons name names => exact Assoc.get?_insert l _ e t.entries

/-- Where names lead, whether or not there is anything on the way. -/
def descend (l : Location) : List Text → Location
  | [] => l
  | name :: names => if name = ".." then descend l.dropLast names else descend (l ++ [name]) names

theorem walk_eq_ok (h : t.walk l names = .ok (m, found)) : m = descend l names ∧ found = t.at? m := by
  induction names generalizing l with
  | nil =>
    cases h
    exact ⟨rfl, rfl⟩
  | cons name names ih =>
    rw [walk.eq_def] at h
    rw [descend]
    simp only at h
    split at h
    · next hup => rw [if_pos hup]; exact ih h
    next hup =>
    rw [if_neg hup]
    split at h
    · cases h
    split at h
    · next hat =>
      cases h
      exact ⟨rfl, hat.symm⟩
    · cases h
    · next hat =>
      cases h
      exact ⟨rfl, hat.symm⟩
    · cases h
    · exact ih h

theorem walk_put {content : Bytes} (h : t.walk l names = .ok (m, found))
    (hfound : found ≠ some .directory) :
    (t.put m (.file content)).walk l names = .ok (m, some (.file content)) := by
  have hat := (walk_eq_ok h).2
  have hm : m ≠ [] := by
    rintro rfl
    exact hfound hat
  induction names generalizing l with
  | nil =>
    cases h
    rw [walk, at?_put hm, if_pos rfl]
  | cons name names ih =>
    rw [walk.eq_def] at h ⊢
    simp only at h ⊢
    split at h
    · next hup => rw [if_pos hup]; exact ih h
    next hup =>
    rw [if_neg hup]
    split at h
    · cases h
    next hsize =>
    rw [if_neg hsize, at?_put hm]
    split at h
    · cases h
      rw [if_pos rfl]
    · cases h
    · cases h
      rw [if_pos rfl]
    · cases h
    · next hdir =>
      -- a directory on the way is not where the file is put, and stays
      have hne : l ++ [name] ≠ m := by
        rintro rfl
        exact hfound (hat.trans hdir)
      rw [if_neg hne, hdir]
      exact ih h

def location (t : FileTree) (p : Path) : Location :=
  descend (if p.root = .none then t.home else []) p.parts

theorem locate_eq_ok : t.locate p = .ok (l, found) ↔
    p.askable = .ok () ∧ t.find p = .ok (l, found) := by
  rw [locate]
  cases p.askable with
  | error e => exact iff_of_false nofun nofun
  | ok _ =>
    change (t.find p).mapError _ = _ ↔ _
    cases t.find p with
    | error fault => exact iff_of_false nofun nofun
    | ok found =>
      exact ⟨fun h ↦ ⟨rfl, congrArg _ (Except.ok.inj h)⟩, fun h ↦ congrArg _ (Except.ok.inj h.2)⟩

theorem find_eq_ok : t.find p = .ok (l, found) ↔ ¬ Path.pathLimit < Path.nameSize p.toText ∧
    t.walk (if p.root = .none then t.home else []) p.parts = .ok (l, found) := by
  rw [find]
  split
  · next h => exact iff_of_false nofun fun h' ↦ h'.1 h
  · next h => exact (and_iff_right h).symm

theorem eq_location (h : t.locate p = .ok (l, found)) : l = t.location p ∧ found = t.at? l :=
  walk_eq_ok (find_eq_ok.mp (locate_eq_ok.mp h).2).2

theorem locate_put {content : Bytes} (h : t.locate p = .ok (l, found))
    (hfound : found ≠ some .directory) :
    (t.put l (.file content)).locate p = .ok (l, some (.file content)) := by
  obtain ⟨hask, hfind⟩ := locate_eq_ok.mp h
  obtain ⟨hsize, hwalk⟩ := find_eq_ok.mp hfind
  exact locate_eq_ok.mpr ⟨hask, find_eq_ok.mpr ⟨hsize, walk_put hwalk hfound⟩⟩

theorem exists_long_of_walk (h : t.walk l names = .error .nameTooLong) :
    ∃ name ∈ names, Path.nameLimit < Path.nameSize name := by
  induction names generalizing l with
  | nil => cases h
  | cons name names ih =>
    have htail {m : Location} (h : t.walk m names = .error .nameTooLong) :
        ∃ part ∈ name :: names, Path.nameLimit < Path.nameSize part := by
      obtain ⟨part, hpart, hlong⟩ := ih h
      exact ⟨part, List.mem_cons_of_mem name hpart, hlong⟩
    rw [walk.eq_def] at h
    simp only at h
    split at h
    · exact htail h
    split at h
    · next hlong => exact ⟨name, List.mem_cons_self, hlong⟩
    split at h
    · cases h
    · cases h
    · cases h
    · cases h
    · exact htail h

theorem find_ne_nameTooLong (h : p.Short) : t.find p ≠ .error .nameTooLong := by
  rw [find, if_neg (Nat.not_lt.mpr h.whole)]
  intro hwalk
  obtain ⟨name, hname, hlong⟩ := exists_long_of_walk hwalk
  exact absurd hlong (Nat.not_lt.mpr (h.names name hname))

theorem isFile_of_read {content : Bytes} (h : t.read p = .ok content) : t.isFile p = .ok true := by
  obtain ⟨⟨l, found⟩, hlocate, h⟩ := bind_eq_ok.mp h
  rw [isFile, hlocate]
  match found, h with
  | some (.file _), _ => rfl

theorem exists_read_of_isFile (h : t.isFile p = .ok true) :
    ∃ content, t.read p = .ok content := by
  rw [isFile] at h
  split at h
  · next l content hlocate =>
    refine ⟨content, ?_⟩
    rw [read, hlocate]
    rfl
  · cases h
  · cases h

theorem find_of_locate_system {fault : FileFault} {path : Path}
    (h : t.locate p = .error (.system fault path)) : t.find p = .error fault ∧ path = p := by
  rw [locate] at h
  cases hask : p.askable with
  | error e =>
    rw [hask] at h
    cases h
    rw [Path.askable] at hask
    split at hask
    · cases hask
    · split at hask <;> cases hask
  | ok _ =>
    rw [hask] at h
    obtain ⟨_, hfind, he⟩ := mapError_eq_error.mp h
    cases he
    exact ⟨hfind, rfl⟩

/-- Only of a name that is too long it cannot be said whether there is a file. -/
theorem isFile_eq_error {e : FileError} (h : t.isFile p = .error e) :
    e = .system .nameTooLong p ∧ ¬ p.Short := by
  rw [isFile] at h
  split at h
  · cases h
  · next hlocate =>
    cases h
    obtain ⟨hfind, rfl⟩ := find_of_locate_system hlocate
    exact ⟨rfl, fun hshort ↦ find_ne_nameTooLong hshort hfind⟩
  · cases h

def fileAt? (t : FileTree) (l : Location) : Option Bytes :=
  match t.at? l with
  | some (.file content) => some content
  | _ => none

theorem fileAt?_put_file {content : Bytes} (hl : l ≠ []) :
    (t.put l (.file content)).fileAt? m = if m = l then some content else t.fileAt? m := by
  rw [fileAt?, at?_put hl]
  by_cases hm : m = l
  · rw [if_pos hm, if_pos hm]
  · rw [if_neg hm, if_neg hm]
    rfl

/-- A tree that has the same files as another, those at some paths left aside; it may have more
directories. -/
structure SameBut (paths : List Path) (t u : FileTree) : Prop where
  home : u.home = t.home
  fileAt? : ∀ l, (∀ p ∈ paths, l ≠ t.location p) → u.fileAt? l = t.fileAt? l

theorem SameBut.refl (paths : List Path) (t : FileTree) : SameBut paths t t := ⟨rfl, fun _ _ ↦ rfl⟩

theorem SameBut.location {paths : List Path} (h : SameBut paths t u) (p : Path) :
    u.location p = t.location p := by
  rw [FileTree.location, FileTree.location, h.home]

theorem SameBut.trans {paths others : List Path} {v : FileTree} (h : SameBut paths t u)
    (h' : SameBut others u v) : SameBut (paths ++ others) t v := by
  refine ⟨h'.home.trans h.home, fun l hl ↦ ?_⟩
  have hpaths := h.fileAt? l fun p hp ↦ hl p (List.mem_append_left _ hp)
  have hothers := h'.fileAt? l fun p hp ↦ h.location p ▸ hl p (List.mem_append_right _ hp)
  exact hothers.trans hpaths

theorem SameBut.mono {paths others : List Path} (h : SameBut paths t u) (hsub : paths ⊆ others) :
    SameBut others t u :=
  ⟨h.home, fun l hl ↦ h.fileAt? l fun p hp ↦ hl p (hsub hp)⟩

theorem same_makeNew (h : t.makeNew p = .ok u) : SameBut [] t u := by
  obtain ⟨⟨l, found⟩, hlocate, h⟩ := bind_eq_ok.mp h
  have hfound := (eq_location hlocate).2
  cases found with
  | some e => cases h
  | none =>
    cases h
    have hl : l ≠ [] := by
      rintro rfl
      cases hfound
    refine ⟨rfl, fun m _ ↦ ?_⟩
    rw [FileTree.fileAt?, FileTree.fileAt?, at?_put hl]
    by_cases hm : m = l
    · rw [if_pos hm, hm, ← hfound]
    · rw [if_neg hm]

theorem same_makeOne (t : FileTree) (p : Path) : SameBut [] t (t.makeOne p).1 := by
  rw [makeOne]
  split
  · next h => exact same_makeNew h
  · exact .refl [] t
  · exact .refl [] t

theorem same_makeAllAbove (t : FileTree) (root : PathRoot) (parts : List Text) :
    SameBut [] t (t.makeAllAbove root parts).1 := by
  induction parts with
  | nil => exact same_makeOne t _
  | cons part above ih =>
    rw [makeAllAbove]
    split
    · split
      · next h =>
        rw [h] at ih
        exact ih.trans (same_makeOne _ _)
      · next h => exact ih
    · exact same_makeOne t _

theorem same_makeAll (t : FileTree) (p : Path) : SameBut [] t (t.makeAll p).1 :=
  same_makeAllAbove t p.root p.parts.reverse

section System

variable {e : FileError}

theorem isSystem_of_locate_bind {α : Type} {f : Location × Option Entry → Except FileError α}
    (h : Path.areAskable p.parts) (hf : ∀ found e, f found = .error e → e.isSystem)
    (he : t.locate p >>= f = .error e) : e.isSystem := by
  rcases bind_eq_error.mp he with he | ⟨found, -, he⟩
  · rw [locate, Path.askable_of_areAskable h] at he
    obtain ⟨_, -, rfl⟩ := mapError_eq_error.mp he
    rfl
  · exact hf found e he

theorem isSystem_of_read (h : Path.areAskable p.parts) (he : t.read p = .error e) : e.isSystem := by
  refine isSystem_of_locate_bind h (fun found e he ↦ ?_) he
  split at he <;> cases he <;> rfl

theorem isSystem_of_writable (h : Path.areAskable p.parts) (he : t.writable p = .error e) :
    e.isSystem := by
  refine isSystem_of_locate_bind h (fun found e he ↦ ?_) he
  split at he <;> cases he
  rfl

theorem isSystem_of_makeNew (h : Path.areAskable p.parts) (he : t.makeNew p = .error e) :
    e.isSystem := by
  refine isSystem_of_locate_bind h (fun found e he ↦ ?_) he
  split at he <;> cases he
  rfl

theorem isSystem_of_makeOne (h : Path.areAskable p.parts) (he : (t.makeOne p).2 = .error e) :
    e.isSystem := by
  rw [makeOne] at he
  split at he
  · cases he
  · split at he <;> cases he
    rfl
  · next hmake =>
    cases he
    exact isSystem_of_makeNew h hmake

theorem isSystem_of_makeAllAbove {root : PathRoot} {parts : List Text} (h : Path.areAskable parts)
    (he : (t.makeAllAbove root parts).2 = .error e) : e.isSystem := by
  induction parts generalizing e with
  | nil => exact isSystem_of_makeOne h he
  | cons part above ih =>
    have hp : Path.areAskable (part :: above).reverse :=
      Path.areAskable_mono h (List.reverse_subset.mpr (List.Subset.refl _))
    rw [makeAllAbove] at he
    split at he
    · split at he
      · exact isSystem_of_makeOne hp he
      · exact ih (Path.areAskable_mono h (List.subset_cons_self part above)) he
    · exact isSystem_of_makeOne hp he

theorem isSystem_of_makeAll (h : Path.areAskable p.parts) (he : (t.makeAll p).2 = .error e) :
    e.isSystem :=
  isSystem_of_makeAllAbove (Path.areAskable_mono h (List.reverse_subset.mpr (List.Subset.refl _))) he

end System

theorem writable_eq_ok (h : t.writable p = .ok l) :
    ∃ found, t.locate p = .ok (l, found) ∧ found ≠ some .directory := by
  obtain ⟨⟨m, found⟩, hlocate, h⟩ := bind_eq_ok.mp h
  cases found with
  | none =>
    cases h
    exact ⟨none, hlocate, nofun⟩
  | some e =>
    cases e with
    | file content =>
      cases h
      exact ⟨_, hlocate, nofun⟩
    | directory => cases h

theorem encode_of_encodePieces {t : Text} {content : Bytes} (h : encodePieces [t] = (content, none)) :
    Utf8.encode t = .ok content := by
  rw [encodePieces] at h
  cases hencode : Utf8.encode t with
  | error fault =>
    rw [hencode] at h
    cases h
  | ok bytes =>
    rw [hencode] at h
    cases h
    exact congrArg _ (List.append_nil bytes).symm

theorem encode_of_encodePieces_fault {t : Text} {content : Bytes} {fault : EncodeFault}
    (h : encodePieces [t] = (content, some fault)) : content = [] ∧ Utf8.encode t = .error fault := by
  rw [encodePieces] at h
  cases hencode : Utf8.encode t with
  | error fault =>
    rw [hencode] at h
    cases h
    exact ⟨rfl, rfl⟩
  | ok bytes =>
    rw [hencode] at h
    cases h

theorem encodePieces_of_isEncodable {pieces : List Text} (h : Text.isEncodable pieces.flatten) :
    encodePieces pieces = (pieces.flatten.flatMap Utf8.encodeOne, none) := by
  induction pieces with
  | nil => rfl
  | cons t ts ih =>
    rw [List.flatten_cons, Text.isEncodable, List.all_append, Bool.and_eq_true] at h
    rw [encodePieces, Utf8.encode_of_isEncodable h.1, ih h.2, List.flatten_cons, List.flatMap_append]

structure Written (p : Path) (content : Bytes) (t u : FileTree) : Prop where
  same : SameBut [p] t u
  read : u.read p = .ok content

/-- What comes of writing texts to a file: either all files are as they were, or the file holds the
texts up to the first that has no bytes. -/
inductive Saved (p : Path) (pieces : List Text) (t u : FileTree) : Except FileError Unit → Prop
  | refused {e : FileError} (hu : SameBut [] t u) (he : Path.areAskable p.parts → e.isSystem) :
      Saved p pieces t u (.error e)
  | broken {content : Bytes} {fault : EncodeFault} (hp : encodePieces pieces = (content, some fault))
      (hu : Written p content t u) : Saved p pieces t u (.error (.unencodable fault))
  | whole {content : Bytes} (hp : encodePieces pieces = (content, none))
      (hu : Written p content t u) : Saved p pieces t u (.ok ())

variable {pieces : List Text} {x : Except FileError Unit}

theorem Saved.same (h : Saved p pieces t u x) : SameBut [p] t u := by
  cases h with
  | refused hu _ => exact hu.mono (List.nil_subset _)
  | broken _ hu => exact hu.same
  | whole _ hu => exact hu.same

theorem Saved.isSystem {e : FileError} (h : Saved p pieces t u (.error e))
    (hp : Path.areAskable p.parts) (hpieces : Text.isEncodable pieces.flatten) : e.isSystem := by
  cases h with
  | refused _ he => exact he hp
  | broken hbroken _ =>
    rw [encodePieces_of_isEncodable hpieces] at hbroken
    cases hbroken

theorem Saved.after {v : FileTree} (h : SameBut [] t u) (h' : Saved p pieces u v x) :
    Saved p pieces t v x := by
  cases h' with
  | refused hu he => exact .refused (h.trans hu) he
  | broken hp hu => exact .broken hp ⟨h.trans hu.same, hu.read⟩
  | whole hp hu => exact .whole hp ⟨h.trans hu.same, hu.read⟩

theorem saved_write (t : FileTree) (p : Path) (pieces : List Text) :
    Saved p pieces t (t.write p pieces).1 (t.write p pieces).2 := by
  rw [write]
  cases hw : t.writable p with
  | error e => exact .refused (.refl [] t) fun hp ↦ isSystem_of_writable hp hw
  | ok l =>
    obtain ⟨found, hlocate, hfound⟩ := writable_eq_ok hw
    obtain ⟨hl, hat⟩ := eq_location hlocate
    have hnil : l ≠ [] := by
      rintro rfl
      exact hfound hat
    have hwritten (content : Bytes) : Written p content t (t.put l (.file content)) := by
      refine ⟨⟨rfl, fun m hm ↦ ?_⟩, ?_⟩
      · rw [fileAt?_put_file hnil, if_neg (hl ▸ hm p List.mem_cons_self)]
      · rw [read, locate_put hlocate hfound]
        rfl
    rcases hp : encodePieces pieces with ⟨content, _ | fault⟩
    · exact .whole hp (hwritten content)
    · exact .broken hp (hwritten content)

end FileTree

namespace FileWork

open FileTree

variable {ε δ α β : Type} {t : FileTree}

def Meets (w : FileWork ε α) (t : FileTree) (Q : FileTree → Except ε α → Prop) : Prop :=
  Q (w t).1 (w t).2.result

theorem meets_bind {w : FileWork ε α} {f : α → FileWork ε β} {P : FileTree → Except ε α → Prop}
    {Q : FileTree → Except ε β → Prop} (hw : w.Meets t P)
    (herror : ∀ u e, P u (.error e) → Q u (.error e))
    (hok : ∀ u a, P u (.ok a) → (f a).Meets u Q) : (w >>= f).Meets t Q := by
  change (bind w f).Meets t Q
  rw [Meets, bind]
  rw [Meets] at hw
  generalize w t = z at hw ⊢
  obtain ⟨u, log, e | a⟩ := z
  · exact herror u e hw
  · exact hok u a hw

theorem meets_ofLogged_bind {x : Logged ε α} {f : α → FileWork ε β}
    {Q : FileTree → Except ε β → Prop} (herror : ∀ e, x.result = .error e → Q t (.error e))
    (hok : ∀ a, x.result = .ok a → (f a).Meets t Q) : (ofLogged x >>= f).Meets t Q := by
  refine meets_bind (P := fun u y ↦ u = t ∧ x.result = y) ⟨rfl, rfl⟩ ?_ ?_
  · rintro u e ⟨rfl, he⟩
    exact herror e he
  · rintro u a ⟨rfl, ha⟩
    exact hok a ha

theorem meets_tell_bind {log : Log} {f : Unit → FileWork ε β} {Q : FileTree → Except ε β → Prop}
    (h : (f ()).Meets t Q) : (tell log >>= f).Meets t Q :=
  meets_ofLogged_bind nofun fun _ _ ↦ h

theorem meets_mapError {f : ε → δ} {w : FileWork ε α} {Q : FileTree → Except δ α → Prop}
    (h : w.Meets t fun u x ↦ Q u (x.mapError f)) : (w.mapError f).Meets t Q := h

theorem meets_reported {before after : Log} {w : FileWork ε Unit}
    {Q : FileTree → Except ε Unit → Prop} (h : w.Meets t Q) :
    (do tell before; w; tell after : FileWork ε Unit).Meets t Q :=
  meets_tell_bind (meets_bind h (fun _ _ he ↦ he) fun _ _ hu ↦ hu)

theorem save_meets (p : Path) (pieces : List Text) (t : FileTree) :
    (save p pieces).Meets t (Saved p pieces t) := by
  have hmade := same_makeAll t p.parent
  rw [Meets, save]
  rcases hmake : t.makeAll p.parent with ⟨u, e | _⟩
  · rw [hmake] at hmade
    have hparent : p.parent.parts ⊆ p.parts := List.dropLast_subset p.parts
    refine .refused hmade fun hp ↦ ?_
    exact isSystem_of_makeAll (Path.areAskable_mono hp hparent) (congrArg Prod.snd hmake)
  · rw [hmake] at hmade
    exact (saved_write u p pieces).after hmade

end FileWork

end OntologyStructs
