import Mathlib.Algebra.GroupWithZero.Nat
import Mathlib.Data.List.TakeDrop
import Mathlib.Data.List.TakeWhile
import OntologyStructs.Encoding.Utf8
import OntologyStructs.Proofs.CodePoint

namespace OntologyStructs

/-- Whether a text holds no surrogates, so that there are bytes for it. -/
def Text.isEncodable (t : Text) : Bool := t.all fun c ↦ !c.isSurrogate

namespace Utf8

variable {position n x : Nat} {b : UInt8} {read : Text} {rest : Bytes} {p : Pending}

theorem toNat_toUInt8 (h : n < 0x100) : n.toUInt8.toNat = n := by
  rw [Nat.toUInt8, UInt8.toNat_ofNat']
  exact Nat.mod_eq_of_lt h

theorem announced_one {pass : Bool} (hb : b.toNat = n) (h : n < 0x80) :
    announced pass b = some (.inl (Fin.ofNat _ n)) := by
  simp [announced, UInt8.lt_iff_toNat_lt, hb, h]

theorem announced_two (hb : b.toNat = 0xC0 + n) (h : 2 ≤ n) (h' : n < 0x20) :
    announced true b = some (.inr { lead := b, taken := 1, left := 1, value := n }) := by
  have hlow : ¬ 0xC0 + n < 0x80 := by omega
  have hstart : ¬ 0xC0 + n < 0xC2 := by omega
  have hend : 0xC0 + n < 0xE0 := by omega
  have hvalue : (0xC0 + n) % 0x20 = n := by omega
  simp [announced, UInt8.lt_iff_toNat_lt, hb, hlow, hstart, hend, hvalue]

theorem announced_three (hb : b.toNat = 0xE0 + n) (h : n < 0x10) :
    announced true b = some (.inr
      { lead := b, taken := 1, left := 2, value := n, low := if n = 0 then 0xA0 else 0x80 }) := by
  have hlow : ¬ 0xE0 + n < 0x80 := by omega
  have hstart : ¬ 0xE0 + n < 0xC2 := by omega
  have htwo : ¬ 0xE0 + n < 0xE0 := by omega
  have hend : 0xE0 + n < 0xF0 := by omega
  have hvalue : (0xE0 + n) % 0x10 = n := by omega
  simp [announced, UInt8.lt_iff_toNat_lt, ← UInt8.toNat_inj, hb, hlow, hstart, hend, hvalue]

theorem announced_four (hb : b.toNat = 0xF0 + n) (h : n < 5) :
    announced true b = some (.inr
      { lead := b, taken := 1, left := 3, value := n
        low := if n = 0 then 0x90 else 0x80, high := if n = 4 then 0x8F else 0xBF }) := by
  have hlow : ¬ 0xF0 + n < 0x80 := by omega
  have hstart : ¬ 0xF0 + n < 0xC2 := by omega
  have hthree : ¬ 0xF0 + n < 0xF0 := by omega
  have hend : 0xF0 + n < 0xF5 := by omega
  have hvalue : (0xF0 + n) % 0x08 = n := by omega
  have hlast : 0xF0 + n = 0xF4 ↔ n = 4 := by omega
  have htwo : ¬ 0xF0 + n < 0xE0 := by omega
  simp [announced, UInt8.lt_iff_toNat_lt, ← UInt8.toNat_inj, hb, hlow, hstart, htwo, hthree, hend,
    hvalue, hlast]

section sequence

variable {lead low high : UInt8} {taken left value : Nat}

theorem within_bounds (hx : x < 0x40) (hlow : low.toNat ≤ 0x80 + x) (hhigh : 0x80 + x ≤ high.toNat) :
    low ≤ (0x80 + x).toUInt8 ∧ (0x80 + x).toUInt8 ≤ high := by
  rw [UInt8.le_iff_toNat_le, UInt8.le_iff_toNat_le, toNat_toUInt8 (by omega)]
  exact ⟨hlow, hhigh⟩

theorem toNat_mod (hx : x < 0x40) : (0x80 + x).toUInt8.toNat % 0x40 = x := by
  rw [toNat_toUInt8 (by omega)]
  omega

theorem scan_last (hx : x < 0x40) (hvalue : 0x40 * value + x = n) :
    scan true read (some ⟨lead, taken, 1, value, 0x80, 0xBF⟩) position ((0x80 + x).toUInt8 :: rest) =
      scan true (Fin.ofNat _ n :: read) none (position + 1) rest := by
  have hbounds : 0x80 ≤ (0x80 + x).toUInt8 ∧ (0x80 + x).toUInt8 ≤ 0xBF :=
    within_bounds hx (Nat.le_add_right 0x80 x) (by change 0x80 + x ≤ 0xBF; omega)
  rw [scan, if_pos hbounds, toNat_mod hx, if_pos rfl, hvalue]

theorem scan_next (hx : x < 0x40) (hlow : low.toNat ≤ 0x80 + x) (hhigh : 0x80 + x ≤ high.toNat) :
    scan true read (some ⟨lead, taken, left + 2, value, low, high⟩) position
        ((0x80 + x).toUInt8 :: rest) =
      scan true read (some ⟨lead, taken + 1, left + 1, 0x40 * value + x, 0x80, 0xBF⟩) (position + 1)
        rest := by
  rw [scan, if_pos (within_bounds hx hlow hhigh), toNat_mod hx, if_neg (by simp)]
  rfl

end sequence

theorem scan_encodeOne (c : CodePoint) : scan true read none position (encodeOne c ++ rest) =
    scan true (c :: read) none (position + (encodeOne c).length) rest := by
  have hc := c.isLt
  have hfirst {b : UInt8} {rest : Bytes} {p : Pending} (h : announced true b = some (.inr p)) :
      scan true read none position (b :: rest) = scan true read (some p) (position + 1) rest := by
    rw [scan, h]
  rw [encodeOne]
  by_cases h1 : c.val < 0x80
  · rw [if_pos h1, List.singleton_append, scan, announced_one (toNat_toUInt8 (by omega)) h1]
    simp only [Fin.ofNat_val_eq_self, List.length_singleton]
  by_cases h2 : c.val < 0x800
  · rw [if_neg h1, if_pos h2, List.cons_append, List.singleton_append,
      hfirst (announced_two (toNat_toUInt8 (by omega)) (by omega) (by omega)),
      scan_last (n := c.val) (by omega) (by omega), Fin.ofNat_val_eq_self]
    rfl
  by_cases h3 : c.val < 0x10000
  · have hlow : (if c.val / 0x1000 = 0 then (0xA0 : UInt8) else 0x80).toNat ≤
        0x80 + c.val / 0x40 % 0x40 := by
      split
      · change 0xA0 ≤ _
        omega
      · exact Nat.le_add_right 0x80 _
    rw [if_neg h1, if_neg h2, if_pos h3, List.cons_append, List.cons_append, List.singleton_append,
      hfirst (announced_three (toNat_toUInt8 (by omega)) (by omega)),
      scan_next (by omega) hlow (by change _ ≤ 0xBF; omega),
      scan_last (n := c.val) (by omega) (by omega), Fin.ofNat_val_eq_self]
    rfl
  · have hlow : (if c.val / 0x40000 = 0 then (0x90 : UInt8) else 0x80).toNat ≤
        0x80 + c.val / 0x1000 % 0x40 := by
      split
      · change 0x90 ≤ _
        omega
      · exact Nat.le_add_right 0x80 _
    have hhigh : 0x80 + c.val / 0x1000 % 0x40 ≤
        (if c.val / 0x40000 = 4 then (0x8F : UInt8) else 0xBF).toNat := by
      split
      · change _ ≤ 0x8F
        omega
      · change _ ≤ 0xBF
        omega
    rw [if_neg h1, if_neg h2, if_neg h3, List.cons_append, List.cons_append, List.cons_append,
      List.singleton_append, hfirst (announced_four (toNat_toUInt8 (by omega)) (by omega)),
      scan_next (by omega) hlow hhigh,
      scan_next (by omega) (Nat.le_add_right 0x80 _) (by change _ ≤ 0xBF; omega),
      scan_last (n := c.val) (by omega) (by omega), Fin.ofNat_val_eq_self]
    rfl

theorem scan_flatMap_encodeOne (t : Text) :
    scan true read none position (t.flatMap encodeOne) = .ok (read.reverse ++ t) := by
  induction t generalizing read position with
  | nil => rw [List.append_nil]; rfl
  | cons c t ih =>
    rw [List.flatMap_cons, scan_encodeOne, ih, List.reverse_cons, List.append_assoc,
      List.singleton_append]

/-- What encodes a text, surrogates as if they were other code points, reads as that text. -/
theorem decode_flatMap_encodeOne (t : Text) : decode true (t.flatMap encodeOne) = .ok t :=
  scan_flatMap_encodeOne t

/-- What encodes plain ASCII reads as it, whether or not surrogates pass. -/
theorem decode_of_isAscii {t : Text} (h : ∀ c ∈ t, c.isAscii) (pass : Bool) :
    decode pass (t.flatMap encodeOne) = .ok t := by
  have hscan (read : Text) (position : Nat) :
      scan pass read none position (t.flatMap encodeOne) = .ok (read.reverse ++ t) := by
    induction t generalizing read position with
    | nil => rw [List.append_nil]; rfl
    | cons c t ih =>
      obtain ⟨hc, ht⟩ := List.forall_mem_cons.mp h
      have hlow : c.val < 0x80 := of_decide_eq_true hc
      rw [List.flatMap_cons, encodeOne, if_pos hlow, List.singleton_append, scan,
        announced_one (toNat_toUInt8 (by omega)) hlow]
      simp only [Fin.ofNat_val_eq_self]
      rw [ih ht, List.reverse_cons, List.append_assoc, List.singleton_append]
  exact hscan [] 0

theorem encode_of_isEncodable {t : Text} (h : t.isEncodable) :
    encode t = .ok (t.flatMap encodeOne) := by
  have hrest : t.dropWhile (fun c ↦ !c.isSurrogate) = [] :=
    List.dropWhile_eq_nil_iff.mpr (List.all_eq_true.mp h)
  rw [encode, encodeFault?, List.span_eq_takeWhile_dropWhile, hrest]
  rfl

/-- A text that has bytes is read off them. -/
theorem decode_of_encode {t : Text} {bytes : Bytes} (h : encode t = .ok bytes) :
    decode true bytes = .ok t := by
  unfold encode at h
  cases hfault : encodeFault? t with
  | some fault => simp [hfault] at h
  | none =>
    simp only [hfault, Except.ok.injEq] at h
    rw [← h, decode_flatMap_encodeOne]

/-- Whatever bytes complete a sequence, it spells a code point, and that is no surrogate. -/
structure Pending.Sound (p : Pending) : Prop where
  left : 0 < p.left
  spelled : ∀ b : UInt8, p.low ≤ b → b ≤ p.high →
    let value := 0x40 * p.value + b.toNat % 0x40
    (value + 1) * 0x40 ^ (p.left - 1) ≤ 0xD800 ∨
      0xE000 ≤ value * 0x40 ^ (p.left - 1) ∧ (value + 1) * 0x40 ^ (p.left - 1) ≤ 0x110000

theorem isSurrogate_ofNat (h : n + 1 ≤ 0xD800 ∨ 0xE000 ≤ n ∧ n + 1 ≤ 0x110000) :
    CodePoint.isSurrogate (Fin.ofNat _ n) = false := by
  have hval : (Fin.ofNat 0x110000 n).val = n := Nat.mod_eq_of_lt (by omega)
  rw [Bool.eq_false_iff, ne_eq, CodePoint.isSurrogate_iff]
  rw [hval]
  omega

theorem sound_announced (h : announced false b = some (.inr p)) : p.Sound := by
  rw [announced] at h
  simp only [UInt8.lt_iff_toNat_lt, ← UInt8.toNat_inj] at h
  split at h
  · cases h
  split at h
  · cases h
  split at h
  · cases h
    refine ⟨Nat.one_pos, fun c _ _ ↦ .inl ?_⟩
    simp only [Nat.sub_self, Nat.pow_zero, Nat.mul_one]
    omega
  split at h
  · next _ _ hthree hend =>
    -- the second byte behind 0xED is bounded, since surrogates begin there
    have hstart : 0xE0 ≤ b.toNat := Nat.not_lt.mp hthree
    have hstop : b.toNat < 0xF0 := hend
    cases h
    refine ⟨Nat.two_pos, fun c hlow hhigh ↦ ?_⟩
    have hmiddle : b.toNat = 0xED → 0x80 ≤ c.toNat ∧ c.toNat ≤ 0x9F := by
      intro hb
      have hbounds : 0x80 ≤ c ∧ c ≤ 0x9F := by simpa [hb] using And.intro hlow hhigh
      exact hbounds.imp UInt8.le_iff_toNat_le.mp UInt8.le_iff_toNat_le.mp
    simp only [Nat.add_one_sub_one, Nat.pow_one]
    omega
  split at h
  · next _ _ _ hfour hend =>
    have hstart : 0xF0 ≤ b.toNat := Nat.not_lt.mp hfour
    have hstop : b.toNat < 0xF5 := hend
    cases h
    refine ⟨Nat.succ_pos 2, fun c hlow hhigh ↦ .inr ?_⟩
    have hc := c.toNat_lt
    have hfirst : b.toNat = 0xF0 → 0x90 ≤ c.toNat ∧ c.toNat ≤ 0xBF := by
      intro hb
      have hbounds : 0x90 ≤ c ∧ c ≤ 0xBF := by simpa [hb] using And.intro hlow hhigh
      exact hbounds.imp UInt8.le_iff_toNat_le.mp UInt8.le_iff_toNat_le.mp
    have hlast : b.toNat = 0xF4 → 0x80 ≤ c.toNat ∧ c.toNat ≤ 0x8F := by
      intro hb
      have hbounds : 0x80 ≤ c ∧ c ≤ 0x8F := by simpa [hb] using And.intro hlow hhigh
      exact hbounds.imp UInt8.le_iff_toNat_le.mp UInt8.le_iff_toNat_le.mp
    simp only [Nat.add_one_sub_one, Nat.reducePow]
    omega
  · cases h

theorem Pending.Sound.next (h : p.Sound) (hlow : p.low ≤ b) (hhigh : b ≤ p.high) (hleft : p.left ≠ 1) :
    Pending.Sound { lead := p.lead, taken := p.taken + 1, left := p.left - 1,
                    value := 0x40 * p.value + b.toNat % 0x40 } := by
  have hpos := h.left
  obtain ⟨k, hk⟩ : ∃ k, p.left = k + 2 := ⟨p.left - 2, by omega⟩
  have hspelled := h.spelled b hlow hhigh
  refine ⟨by simp only; omega, fun c _ _ ↦ ?_⟩
  simp only [hk, Nat.add_succ_sub_one] at hspelled ⊢
  generalize 0x40 * p.value + b.toNat % 0x40 = value at hspelled ⊢
  have hexpand (n : Nat) : n * 0x40 ^ (k + 1) = 0x40 * n * 0x40 ^ k := by
    rw [Nat.pow_succ, Nat.mul_comm (0x40 ^ k), ← Nat.mul_assoc, Nat.mul_comm n]
  have hupper : (0x40 * value + c.toNat % 0x40 + 1) * 0x40 ^ k ≤ (value + 1) * 0x40 ^ (k + 1) := by
    rw [hexpand]
    exact Nat.mul_le_mul_right _ (by omega)
  have hlower : value * 0x40 ^ (k + 1) ≤ (0x40 * value + c.toNat % 0x40) * 0x40 ^ k := by
    rw [hexpand]
    exact Nat.mul_le_mul_right _ (Nat.le_add_right _ _)
  exact hspelled.imp hupper.trans fun ⟨hstart, hend⟩ ↦ ⟨hstart.trans hlower, hupper.trans hend⟩

theorem val_lt_of_announced {pass : Bool} {c : CodePoint} (h : announced pass b = some (.inl c)) :
    c.val < 0x80 := by
  rw [announced] at h
  split at h
  · next hlow =>
    cases h
    exact (Nat.mod_le _ _).trans_lt (UInt8.lt_iff_toNat_lt.mp hlow)
  split at h
  · cases h
  split at h
  · cases h
  split at h
  · cases h
  split at h <;> cases h

/-- What is read from bytes, when surrogates do not pass, has bytes again. -/
theorem isEncodable_of_decode {t : Text} {bytes : Bytes} (h : decode false bytes = .ok t) :
    t.isEncodable := by
  have hscan (bytes : Bytes) (read : Text) (p? : Option Pending) (position : Nat)
      (hread : read.isEncodable) (hp : ∀ p ∈ p?, p.Sound)
      (h : scan false read p? position bytes = .ok t) : t.isEncodable := by
    fun_induction scan false read p? position bytes with
    | case1 read =>
      cases h
      exact List.all_reverse.trans hread
    | case2 | case3 | case8 => cases h
    | case4 read _ b r c hc ih =>
      refine ih ?_ nofun h
      have hlow := val_lt_of_announced hc
      have hsurrogate : c.isSurrogate = false := by
        rw [Bool.eq_false_iff, ne_eq, CodePoint.isSurrogate_iff]
        omega
      rw [Text.isEncodable, List.all_cons, hsurrogate]
      exact hread
    | case5 read _ b r p hc ih => 
      refine ih hread ?_ h
      rintro _ ⟨⟩
      exact sound_announced hc
    | case6 read p _ b r hb value hleft ih =>
      refine ih ?_ nofun h
      have hspelled := (hp p rfl).spelled b hb.1 hb.2
      simp only [hleft, Nat.sub_self, Nat.pow_zero, Nat.mul_one] at hspelled
      rw [Text.isEncodable, List.all_cons, isSurrogate_ofNat hspelled]
      exact hread
    | case7 read p _ b r hb value hleft ih =>
      refine ih hread ?_ h
      rintro _ ⟨⟩
      exact (hp p rfl).next hb.1 hb.2 hleft
  exact hscan bytes [] none 0 rfl nofun h

end Utf8

end OntologyStructs
