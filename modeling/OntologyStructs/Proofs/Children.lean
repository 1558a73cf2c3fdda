import OntologyStructs.Ontology.Children
import OntologyStructs.Proofs.FirstOccurrences

namespace OntologyStructs.Children

variable {c : Children} {p q : Nat}

def Distinct (c : Children) : Prop := ∀ p, (c.listAt p).Nodup

@[simp] theorem length_ofSize (n : Nat) : (ofSize n).length = n := List.length_replicate

@[simp] theorem listAt_ofSize (n p : Nat) : (ofSize n).listAt p = [] := by
  by_cases h : p < n <;> simp [ofSize, listAt, List.getD, h]

theorem distinct_ofSize (n : Nat) : (ofSize n).Distinct := by
  intro p
  simp

@[simp] theorem total_ofSize (n : Nat) : (ofSize n).total = 0 := by
  rw [total, ofSize, List.flatten_replicate_nil, List.length_nil]

theorem listAt_of_le (h : c.length ≤ p) : c.listAt p = [] := by
  simp [listAt, List.getD, List.getElem?_eq_none h]

theorem distinct_of_nodup (h : ∀ l ∈ c, l.Nodup) : c.Distinct := by
  intro p
  by_cases hp : p < c.length
  · apply h
    rw [listAt, List.getD_eq_getElem?_getD, List.getElem?_eq_getElem hp, Option.getD_some]
    exact List.getElem_mem hp
  · rw [listAt_of_le (by omega)]
    exact List.nodup_nil

theorem ext {c d : Children} (hl : c.length = d.length) (h : ∀ p, c.listAt p = d.listAt p) :
    c = d := by
  apply List.ext_getElem hl
  intro p hc hd
  have hp := h p
  simpa [listAt, List.getD, hc, hd] using hp

theorem listAt_modify_self (f : List Text → List Text) (hp : p < c.length) :
    listAt (c.modify p f) p = f (c.listAt p) := by
  simp [listAt, List.getD, hp]

theorem listAt_modify_of_ne (f : List Text → List Text) (h : q ≠ p) :
    listAt (c.modify p f) q = c.listAt q := by
  simp [listAt, List.getD, Ne.symm h]

theorem total_modify {c : Children} (id : Text) (hp : p < c.length) :
    total (c.modify p (· ++ [id])) = c.total + 1 := by
  induction c generalizing p with
  | nil => simp at hp
  | cons l c ih =>
    cases p with
    | zero =>
      simp only [total, List.modify_zero_cons, List.flatten_cons, List.length_append,
        List.length_singleton]
      omega
    | succ p =>
      have h := ih (p := p) (by simpa using hp)
      simp only [total, List.modify_succ_cons, List.flatten_cons, List.length_append] at h ⊢
      omega

theorem add_of_mem {id : Text} (h : id ∈ c.listAt p) : c.add p id = (c, false) := if_pos h

theorem add_of_notMem {id : Text} (h : id ∉ c.listAt p) :
    c.add p id = (c.modify p (· ++ [id]), true) := if_neg h

@[simp] theorem length_add (c : Children) (p : Nat) (id : Text) :
    (c.add p id).1.length = c.length := by
  unfold add
  split
  · rfl
  · exact List.length_modify _ _ _

theorem listAt_add_of_ne {id : Text} (h : q ≠ p) : (c.add p id).1.listAt q = c.listAt q := by
  by_cases hid : id ∈ c.listAt p
  · rw [add_of_mem hid]
  · rw [add_of_notMem hid, listAt_modify_of_ne _ h]

theorem listAt_add_self {id : Text} (hp : p < c.length) (hc : (c.listAt p).Nodup) :
    (c.add p id).1.listAt p = (c.listAt p ++ [id]).eraseDups := by
  by_cases hid : id ∈ c.listAt p
  · rw [add_of_mem hid, List.eraseDups_append_of_subset (by simpa using hid), hc.eraseDups_eq]
  · have hn : (c.listAt p ++ [id]).Nodup := by
      rw [List.nodup_append_comm]
      simp [hid, hc]
    rw [add_of_notMem hid, listAt_modify_self _ hp, hn.eraseDups_eq]

theorem total_add {id : Text} (hp : p < c.length) :
    (c.add p id).1.total = c.total + if (c.add p id).2 then 1 else 0 := by
  by_cases h : id ∈ c.listAt p
  · simp [add_of_mem h]
  · simp [add_of_notMem h, total_modify id hp]

theorem addAll_cons (c : Children) (p : Nat) (id : Text) (ids : List Text) :
    c.addAll p (id :: ids) =
      (((c.add p id).1.addAll p ids).1,
        ((c.add p id).1.addAll p ids).2 + if (c.add p id).2 then 1 else 0) := by
  simp only [addAll]
  split <;> simp_all

@[simp] theorem length_addAll (c : Children) (p : Nat) (ids : List Text) :
    (c.addAll p ids).1.length = c.length := by
  induction ids generalizing c with
  | nil => rfl
  | cons id ids ih => simp [addAll_cons, ih]

theorem listAt_addAll_of_ne (h : q ≠ p) (ids : List Text) :
    (c.addAll p ids).1.listAt q = c.listAt q := by
  induction ids generalizing c with
  | nil => rfl
  | cons id ids ih =>
    rw [addAll_cons, ih, listAt_add_of_ne h]

theorem listAt_addAll (hp : p < c.length) (hc : (c.listAt p).Nodup) (ids : List Text) :
    (c.addAll p ids).1.listAt p = (c.listAt p ++ ids).eraseDups := by
  induction ids generalizing c with
  | nil => simp [addAll, hc.eraseDups_eq]
  | cons id ids ih =>
    have ha : (c.add p id).1.listAt p = (c.listAt p ++ [id]).eraseDups := listAt_add_self hp hc
    have hn : ((c.add p id).1.listAt p).Nodup := by
      rw [ha]
      exact List.nodup_eraseDups _
    rw [addAll_cons, ih (by simpa using hp) hn, ha, List.eraseDups_eraseDups_append,
      List.append_assoc]
    rfl

theorem total_addAll (hp : p < c.length) (ids : List Text) :
    (c.addAll p ids).1.total = c.total + (c.addAll p ids).2 := by
  induction ids generalizing c with
  | nil => rfl
  | cons id ids ih =>
    rw [addAll_cons, ih (by simpa using hp), total_add hp]
    omega

theorem prefix_addAll (hp : p < c.length) (hc : (c.listAt p).Nodup) (ids : List Text) (q : Nat) :
    c.listAt q <+: (c.addAll p ids).1.listAt q := by
  by_cases h : q = p
  · subst h
    rw [listAt_addAll hp hc, List.eraseDups_append, hc.eraseDups_eq]
    exact List.prefix_append _ _
  · refine ⟨[], ?_⟩
    rw [List.append_nil, listAt_addAll_of_ne h]

theorem Distinct.addAll (hc : c.Distinct) (hp : p < c.length) (ids : List Text) :
    (c.addAll p ids).1.Distinct := by
  intro q
  by_cases h : q = p
  · subst h
    rw [listAt_addAll hp (hc q)]
    exact List.nodup_eraseDups _
  · rw [listAt_addAll_of_ne h]
    exact hc q

theorem addAll_of_subset {ids : List Text} (h : ids ⊆ c.listAt p) : c.addAll p ids = (c, 0) := by
  induction ids with
  | nil => rfl
  | cons id ids ih =>
    obtain ⟨hid, hids⟩ := List.cons_subset.mp h
    simp [addAll_cons, add_of_mem hid, ih hids]

end OntologyStructs.Children
