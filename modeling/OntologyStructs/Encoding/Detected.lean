import OntologyStructs.Encoding.Utf8

namespace OntologyStructs

inductive Encoding
  | utf8
  /-- With a byte order mark, which is dropped and not counted. -/
  | utf8Marked
  | utf16 (bigEndian marked : Bool)
  | utf32 (bigEndian marked : Bool)
  deriving DecidableEq, Repr

namespace Encoding

/-- A byte order mark tells the encoding; without one, the zeros among the first four bytes do, since
a document begins with two ASCII characters. -/
def detect : Bytes → Encoding
  | 0x00 :: 0x00 :: 0xFE :: 0xFF :: _ => .utf32 true true
  | 0xFF :: 0xFE :: 0x00 :: 0x00 :: _ => .utf32 false true
  | 0xFE :: 0xFF :: _ => .utf16 true true
  | 0xFF :: 0xFE :: _ => .utf16 false true
  | 0xEF :: 0xBB :: 0xBF :: _ => .utf8Marked
  | 0x00 :: b :: _ :: _ :: _ => if b = 0 then .utf32 true false else .utf16 true false
  | _ :: 0x00 :: c :: d :: _ => if c = 0 && d = 0 then .utf32 false false else .utf16 false false
  | [0x00, _] => .utf16 true false
  | [_, 0x00] => .utf16 false false
  | _ => .utf8

def codecName : Encoding → Text
  | utf8 | utf8Marked => "utf-8"
  | utf16 bigEndian _ => if bigEndian then "utf-16-be" else "utf-16-le"
  | utf32 bigEndian _ => if bigEndian then "utf-32-be" else "utf-32-le"

/-- Puts a code unit of sixteen bits behind what was read; it joins a first half before it. -/
def addUnit16 (read : Text) (unit : Nat) : Text :=
  let c : CodePoint := Fin.ofNat _ unit
  match read with
  | first :: before =>
    if first.isHighSurrogate && c.isLowSurrogate then
      Fin.ofNat _ (0x10000 + (first.val - 0xD800) * 0x400 + (unit - 0xDC00)) :: before
    else c :: read
  | [] => [c]

def scan16 (bigEndian : Bool) (read : Text) : Nat → Bytes → Except DecodeFault Text
  | _, [] => .ok read.reverse
  | position, [b] =>
    .error ⟨codecName (.utf16 bigEndian false), b, position, 1, "truncated data"⟩
  | position, a :: b :: r =>
    let unit := if bigEndian then 0x100 * a.toNat + b.toNat else a.toNat + 0x100 * b.toNat
    scan16 bigEndian (addUnit16 read unit) (position + 2) r

def scan32 (bigEndian : Bool) (read : Text) : Nat → Bytes → Except DecodeFault Text
  | _, [] => .ok read.reverse
  | position, a :: b :: c :: d :: r =>
    let value := (if bigEndian then [a, b, c, d] else [d, c, b, a]).foldl
      (fun n x ↦ 0x100 * n + x.toNat) 0
    if h : value < 0x110000 then scan32 bigEndian (⟨value, h⟩ :: read) (position + 4) r
    else .error ⟨codecName (.utf32 bigEndian false), a, position, 4,
      "code point not in range(0x110000)"⟩
  | position, a :: r =>
    .error ⟨codecName (.utf32 bigEndian false), a, position, r.length + 1, "truncated data"⟩

/-- Reads bytes in an encoding; surrogates pass. -/
def decode (bytes : Bytes) : Encoding → Except DecodeFault Text
  | utf8 => Utf8.decode true bytes
  | utf8Marked => Utf8.decode true (bytes.drop 3)
  | utf16 bigEndian marked =>
    if marked then scan16 bigEndian [] 2 (bytes.drop 2) else scan16 bigEndian [] 0 bytes
  | utf32 bigEndian marked =>
    if marked then scan32 bigEndian [] 4 (bytes.drop 4) else scan32 bigEndian [] 0 bytes

end Encoding

end OntologyStructs
