import OntologyStructs.Text

namespace OntologyStructs

abbrev Bytes := List UInt8

/-- Bytes that a codec cannot read: `count` of them from position `first` on, the first being
`byte`. -/
structure DecodeFault where
  codec : Text
  byte : UInt8
  first : Nat
  count : Nat
  reason : Text
  deriving DecidableEq, Repr

def DecodeFault.message (f : DecodeFault) : Text :=
  "'" ++ f.codec ++ "' codec can't decode "
    ++ (if f.count ≤ 1 then
        "byte 0x" ++ Text.hex 2 f.byte.toNat ++ " in position " ++ Text.ofNat f.first
      else
        "bytes in position " ++ Text.ofNat f.first ++ "-" ++ Text.ofNat (f.first + f.count - 1))
    ++ ": " ++ f.reason

/-- Surrogates that UTF-8 has no bytes for: `count` of them from position `first` on. -/
structure EncodeFault where
  surrogate : CodePoint
  first : Nat
  count : Nat
  deriving DecidableEq, Repr

def EncodeFault.message (f : EncodeFault) : Text :=
  "'utf-8' codec can't encode "
    ++ (if f.count ≤ 1 then
        "character '\\u" ++ Text.hex 4 f.surrogate.val ++ "' in position " ++ Text.ofNat f.first
      else
        "characters in position " ++ Text.ofNat f.first ++ "-" ++ Text.ofNat (f.first + f.count - 1))
    ++ ": surrogates not allowed"

end OntologyStructs
