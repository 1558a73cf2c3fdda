import OntologyStructs.Encoding

namespace OntologyStructs.Utf8

/-- A sequence that is not complete: `taken` bytes are read and gave `value`, `left` are to come, and
the next must lie between `low` and `high`. -/
structure Pending where
  lead : UInt8
  taken : Nat
  left : Nat
  value : Nat
  low : UInt8 := 0x80
  high : UInt8 := 0xBF

/-- What a first byte announces: a whole code point, or a sequence. Overlong forms and code points
beyond the last are shut out by the bounds of the second byte; surrogates too, unless they pass. -/
def announced (passSurrogates : Bool) (b : UInt8) : Option (CodePoint ⊕ Pending) :=
  if b < 0x80 then some (.inl (Fin.ofNat _ b.toNat))
  else if b < 0xC2 then none
  else if b < 0xE0 then some (.inr { lead := b, taken := 1, left := 1, value := b.toNat % 0x20 })
  else if b < 0xF0 then some (.inr
    { lead := b, taken := 1, left := 2, value := b.toNat % 0x10
      low := if b = 0xE0 then 0xA0 else 0x80
      high := if b = 0xED && !passSurrogates then 0x9F else 0xBF })
  else if b < 0xF5 then some (.inr
    { lead := b, taken := 1, left := 3, value := b.toNat % 0x08
      low := if b = 0xF0 then 0x90 else 0x80
      high := if b = 0xF4 then 0x8F else 0xBF })
  else none

def Pending.spellsSurrogate (p : Pending) : Bool := p.lead == 0xED && p.taken == 2 && 0x360 ≤ p.value

def fault (byte : UInt8) (first count : Nat) (reason : Text) : DecodeFault :=
  ⟨"utf-8", byte, first, count, reason⟩

/-- Where a sequence breaks off before a byte that does not belong to it, or before the end. A
surrogate breaks off behind its first byte. -/
def Pending.broken (p : Pending) (position : Nat) (atEnd : Bool) : DecodeFault :=
  if p.spellsSurrogate then fault p.lead (position - p.taken) 1 "invalid continuation byte"
  else fault p.lead (position - p.taken) p.taken
    (if atEnd then "unexpected end of data" else "invalid continuation byte")

def scan (passSurrogates : Bool) (read : Text) :
    Option Pending → Nat → Bytes → Except DecodeFault Text
  | none, _, [] => .ok read.reverse
  | some p, position, [] => .error (p.broken position true)
  | none, position, b :: r => match announced passSurrogates b with
    | none => .error (fault b position 1 "invalid start byte")
    | some (.inl c) => scan passSurrogates (c :: read) none (position + 1) r
    | some (.inr p) => scan passSurrogates read (some p) (position + 1) r
  | some p, position, b :: r =>
    if p.low ≤ b ∧ b ≤ p.high then
      let value := 0x40 * p.value + b.toNat % 0x40
      if p.left = 1 then scan passSurrogates (Fin.ofNat _ value :: read) none (position + 1) r
      else scan passSurrogates read
        (some { lead := p.lead, taken := p.taken + 1, left := p.left - 1, value }) (position + 1) r
    else .error (p.broken position false)

/-- Reads UTF-8. Three bytes that would spell a surrogate are a fault, unless surrogates pass. -/
def decode (passSurrogates : Bool) (bytes : Bytes) : Except DecodeFault Text :=
  scan passSurrogates [] none 0 bytes

def encodeOne (c : CodePoint) : Bytes :=
  let n := c.val
  if n < 0x80 then [n.toUInt8]
  else if n < 0x800 then [(0xC0 + n / 0x40).toUInt8, (0x80 + n % 0x40).toUInt8]
  else if n < 0x10000 then
    [(0xE0 + n / 0x1000).toUInt8, (0x80 + n / 0x40 % 0x40).toUInt8, (0x80 + n % 0x40).toUInt8]
  else
    [(0xF0 + n / 0x40000).toUInt8, (0x80 + n / 0x1000 % 0x40).toUInt8,
      (0x80 + n / 0x40 % 0x40).toUInt8, (0x80 + n % 0x40).toUInt8]

def encodeFault? (t : Text) : Option EncodeFault :=
  let (before, rest) := t.span fun c ↦ !c.isSurrogate
  rest.head?.map fun c ↦ ⟨c, before.length, (rest.takeWhile CodePoint.isSurrogate).length⟩

def encode (t : Text) : Except EncodeFault Bytes :=
  match encodeFault? t with
  | some f => .error f
  | none => .ok (t.flatMap encodeOne)

end OntologyStructs.Utf8
