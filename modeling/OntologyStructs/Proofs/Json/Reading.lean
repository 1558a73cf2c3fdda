import Mathlib.Algebra.GroupWithZero.Nat
import Mathlib.Data.List.TakeDrop
import OntologyStructs.Json.Reader
import OntologyStructs.Proofs.Assoc
import OntologyStructs.Proofs.CodePoint
import OntologyStructs.Proofs.Logged

namespace OntologyStructs

namespace Json

variable {p q : Json → Bool} {v w : Json} {k : Text}

def parts : Json → List Json
  | list items => items
  | object members => Assoc.values members
  | _ => []

mutual

def all (p : Json → Bool) : Json → Bool
  | list items => p (list items) && allItems p items
  | object members => p (object members) && allMembers p members
  | v => p v

def allItems (p : Json → Bool) : List Json → Bool
  | [] => true
  | v :: vs => all p v && allItems p vs

def allMembers (p : Json → Bool) : List (Text × Json) → Bool
  | [] => true
  | (_, v) :: ms => all p v && allMembers p ms

end

theorem allItems_eq (items : List Json) : allItems p items = items.all (all p) := by
  induction items with
  | nil => rfl
  | cons v vs ih => rw [allItems, ih, List.all_cons]

theorem allMembers_eq (members : List (Text × Json)) :
    allMembers p members = (Assoc.values members).all (all p) := by
  induction members with
  | nil => rfl
  | cons m ms ih =>
    rw [allMembers, ih]
    rfl

theorem all_iff : v.all p ↔ p v ∧ ∀ w ∈ v.parts, w.all p := by
  cases v with
  | list items => simp [all, parts, allItems_eq]
  | object members => simp [all, parts, allMembers_eq]
  | _ => simp [all, parts]

mutual

/-- What holds of a value as soon as it holds of what the value directly holds, holds of all. -/
theorem induct {motive : Json → Prop} (h : ∀ v, (∀ w ∈ v.parts, motive w) → motive v) :
    (v : Json) → motive v
  | null => h _ nofun
  | bool _ => h _ nofun
  | int _ => h _ nofun
  | float _ => h _ nofun
  | text _ => h _ nofun
  | list items => h _ (inductItems h items)
  | object members => h _ (inductMembers h members)

theorem inductItems {motive : Json → Prop} (h : ∀ v, (∀ w ∈ v.parts, motive w) → motive v) :
    (items : List Json) → ∀ w ∈ items, motive w
  | [] => nofun
  | v :: vs => List.forall_mem_cons.mpr ⟨induct h v, inductItems h vs⟩

theorem inductMembers {motive : Json → Prop} (h : ∀ v, (∀ w ∈ v.parts, motive w) → motive v) :
    (members : List (Text × Json)) → ∀ w ∈ Assoc.values members, motive w
  | [] => nofun
  | (_, v) :: ms => List.forall_mem_cons.mpr ⟨induct h v, inductMembers h ms⟩

end

theorem all_and : v.all (fun w ↦ p w && q w) ↔ v.all p ∧ v.all q := by
  induction v using induct with
  | h v ih =>
    rw [all_iff, all_iff, all_iff (p := q), Bool.and_eq_true]
    constructor
    · intro h
      exact ⟨⟨h.1.1, fun w hw ↦ ((ih w hw).mp (h.2 w hw)).1⟩, h.1.2,
        fun w hw ↦ ((ih w hw).mp (h.2 w hw)).2⟩
    · intro h
      exact ⟨⟨h.1.1, h.2.1⟩, fun w hw ↦ (ih w hw).mpr ⟨h.1.2 w hw, h.2.2 w hw⟩⟩

theorem mem_parts_of_get? (h : v.get? k = some w) : w ∈ v.parts := by
  cases v with
  | object members =>
    change Assoc.get? k members = some w at h
    change w ∈ Assoc.values members
    induction members with
    | nil => cases h
    | cons m ms ih =>
      obtain ⟨a, b⟩ := m
      rw [Assoc.get?] at h
      split at h
      · obtain rfl := Option.some.inj h
        exact List.mem_cons_self
      · exact List.mem_cons_of_mem b (ih h)
  | _ => cases h

theorem all_of_get? (hv : v.all p) (h : v.get? k = some w) : w.all p :=
  (all_iff.mp hv).2 w (mem_parts_of_get? h)

/-- What reading makes sure of: whole numbers are not too long, and no key comes twice. -/
def isReadable : Json → Bool
  | int n => n.natAbs < 10 ^ digitLimit
  | object members => (Assoc.keys members).Nodup
  | _ => true

end Json

namespace Text

theorem foldl_digits_lt {t : Text} (ht : t.all CodePoint.isDigit) (n : Nat) :
    t.foldl (fun n c ↦ 10 * n + c.digitValue) n < (n + 1) * 10 ^ t.length := by
  induction t generalizing n with
  | nil => simp
  | cons c t ih =>
    rw [List.all_cons, Bool.and_eq_true] at ht
    have hc : c.digitValue < 10 := by
      have hval := (CodePoint.isDigit_iff.mp ht.1).2
      have hzero : (CodePoint.ofChar '0').val = 48 := rfl
      rw [CodePoint.digitValue, hzero]
      omega
    calc (c :: t).foldl (fun n c ↦ 10 * n + c.digitValue) n
        < (10 * n + c.digitValue + 1) * 10 ^ t.length := ih ht.2 _
      _ ≤ ((n + 1) * 10) * 10 ^ t.length := Nat.mul_le_mul_right _ (by omega)
      _ = (n + 1) * 10 ^ (c :: t).length := by
        rw [List.length_cons, Nat.pow_succ, Nat.mul_assoc, Nat.mul_comm 10]

theorem decimalValue_lt {t : Text} (ht : t.all CodePoint.isDigit) :
    t.decimalValue < 10 ^ t.length := by
  have h := foldl_digits_lt ht 0
  rwa [Nat.zero_add, Nat.one_mul] at h

end Text

namespace Json

variable {v : Json} {t r : Text} {fuel : Nat}

theorem all_isDigit_wholeDigits (t : Text) : (wholeDigits t).1.all CodePoint.isDigit := by
  cases t with
  | nil => rfl
  | cons c t =>
    rw [wholeDigits]
    split
    · next h =>
      subst h
      rfl
    · rw [digits, List.span_eq_takeWhile_dropWhile]
      exact List.all_takeWhile

theorem number_eq_ok (h : number t = .ok (v, r)) : (∃ x, v = .float x) ∨
    ∃ (n : Nat) (negative : Bool), n < 10 ^ digitLimit ∧ v = .int (if negative then -n else n) := by
  revert h
  fun_cases number t with
  | case1 => nofun
  | case2 => nofun
  | case3 negative unsigned _ whole rest hwhole _ _ _ _ _ _ _ _ hlong =>
    rintro ⟨⟩
    have hdigits := all_isDigit_wholeDigits unsigned
    rw [hwhole] at hdigits
    exact .inr ⟨_, negative, Nat.lt_of_lt_of_le (Text.decimalValue_lt hdigits)
      (Nat.pow_le_pow_right (by decide) (Nat.not_lt.mp hlong)), rfl⟩
  | case4 =>
    rintro ⟨⟩
    exact .inl ⟨_, rfl⟩

theorem isReadable_number (h : number t = .ok (v, r)) : v.all isReadable := by
  rcases number_eq_ok h with ⟨x, rfl⟩ | ⟨n, negative, hn, rfl⟩
  · rfl
  · have hnat : (if negative then -(n : Int) else n).natAbs = n := by
      cases negative <;> simp
    simp only [all, isReadable, hnat, decide_eq_true_eq]
    exact hn

theorem isReadable_word? (h : word? t = some (v, r)) : v.all isReadable := by
  obtain ⟨⟨w, u⟩, hw, h⟩ := List.exists_of_findSome?_eq_some h
  have hwords : ∀ e ∈ words, e.2.all isReadable := by decide
  obtain ⟨r', _, hu⟩ := Option.map_eq_some_iff.mp h
  cases hu
  exact hwords _ hw

/-- Whatever is read is readable: by a reader with the given fuel, if what it has read so far is. -/
structure Reads (fuel : Nat) : Prop where
  value : ∀ {t v r}, value fuel t = .ok (v, r) → v.all isReadable
  items : ∀ {read t v r}, (∀ w ∈ read, w.all isReadable) → items fuel read t = .ok (v, r) →
    v.all isReadable
  members : ∀ {read : Assoc Text Json} {t v r}, read.keys.Nodup →
    (∀ w ∈ read.values, w.all isReadable) → members fuel read t = .ok (v, r) → v.all isReadable

theorem reads_zero : Reads 0 where
  value h := by
    rw [Json.value] at h
    cases h
  items _ h := by
    rw [Json.items] at h
    cases h
  members _ _ h := by
    rw [Json.members] at h
    cases h

theorem all_isReadable_list {items : List Json} (h : ∀ w ∈ items, w.all isReadable) :
    (list items).all isReadable := all_iff.mpr ⟨rfl, h⟩

theorem all_isReadable_object {members : Assoc Text Json} (hkeys : members.keys.Nodup)
    (h : ∀ w ∈ members.values, w.all isReadable) : (object members).all isReadable :=
  all_iff.mpr ⟨decide_eq_true hkeys, h⟩

theorem Reads.value_succ (h : Reads fuel) (hv : Json.value (fuel + 1) t = .ok (v, r)) :
    v.all isReadable := by
  have hnil : (Assoc.keys ([] : Assoc Text Json)).Nodup := List.nodup_nil
  rw [Json.value.eq_def] at hv
  cases t with
  | nil => cases hv
  | cons c t =>
    simp only at hv
    split at hv
    · cases hs : stringTail (c :: t) .plain [] false t with
      | error e =>
        rw [hs] at hv
        cases hv
      | ok s =>
        rw [hs] at hv
        cases hv
        rfl
    split at hv
    · split at hv
      · split at hv
        · cases hv
          rfl
        · exact h.items (List.forall_mem_nil _) hv
      · exact h.items (List.forall_mem_nil _) hv
    split at hv
    · split at hv
      · split at hv
        · cases hv
          rfl
        · exact h.members hnil (List.forall_mem_nil _) hv
      · exact h.members hnil (List.forall_mem_nil _) hv
    split at hv
    · next hw =>
      cases hv
      exact isReadable_word? hw
    · exact isReadable_number hv

theorem Reads.items_succ {read : List Json} (h : Reads fuel) (hread : ∀ w ∈ read, w.all isReadable)
    (hv : Json.items (fuel + 1) read t = .ok (v, r)) : v.all isReadable := by
  rw [Json.items] at hv
  obtain ⟨⟨w, rest⟩, hw, hv⟩ := bind_eq_ok.mp hv
  have hmore : ∀ u ∈ w :: read, u.all isReadable := List.forall_mem_cons.mpr ⟨h.value hw, hread⟩
  simp only at hv
  split at hv
  · split at hv
    · cases hv
      exact all_isReadable_list fun u hu ↦ hmore u (List.mem_reverse.mp hu)
    split at hv
    · exact h.items hmore hv
    · cases hv
  · cases hv

theorem Reads.members_succ {read : Assoc Text Json} (h : Reads fuel) (hkeys : read.keys.Nodup)
    (hread : ∀ w ∈ read.values, w.all isReadable)
    (hv : Json.members (fuel + 1) read t = .ok (v, r)) : v.all isReadable := by
  cases t with
  | nil =>
    rw [Json.members] at hv
    cases hv
  | cons q t =>
    rw [Json.members] at hv
    split at hv
    · obtain ⟨⟨k, rest⟩, _, hv⟩ := bind_eq_ok.mp hv
      simp only at hv
      split at hv
      · cases hv
      split at hv
      · obtain ⟨⟨w, rest⟩, hw, hv⟩ := bind_eq_ok.mp hv
        have hmore : ∀ u ∈ (read.insert k w).values, u.all isReadable := by
          intro u hu
          rcases List.mem_cons.mp (Assoc.values_insert_subset k w read hu) with rfl | hu
          · exact h.value hw
          · exact hread u hu
        have hnodup := Assoc.nodup_keys_insert k w hkeys
        simp only at hv
        split at hv
        · split at hv
          · cases hv
            exact all_isReadable_object hnodup hmore
          split at hv
          · exact h.members hnodup hmore hv
          · cases hv
        · cases hv
      · cases hv
    · cases hv

theorem reads (fuel : Nat) : Reads fuel := by
  induction fuel with
  | zero => exact reads_zero
  | succ fuel ih => exact ⟨ih.value_succ, ih.items_succ, ih.members_succ⟩

theorem isReadable_document (h : document t = .ok v) : v.all isReadable := by
  obtain ⟨⟨w, rest⟩, hw, hv⟩ := bind_eq_ok.mp h
  simp only at hv
  split at hv
  · cases hv
    exact (reads _).value hw
  · cases hv

theorem isReadable_readDecoded (h : readDecoded t = .ok v) : v.all isReadable := by
  rw [readDecoded] at h
  split at h
  · next hv =>
    cases h
    exact isReadable_document hv
  · cases h
  · cases h

theorem isReadable_read (h : read t = .ok v) : v.all isReadable := by
  rw [read] at h
  split at h
  · cases h
  · exact isReadable_readDecoded h

end Json

end OntologyStructs
