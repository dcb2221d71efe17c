import Vadum.Core.Types

/-!
# Base45

RFC 9285, as the codec writes its payloads into QR codes: three characters for
two bytes, two for an odd byte at the end. The alphabet contains the space, and
spaces are data, so nothing is trimmed.

A JavaScript string is a list of UTF-16 units, any units at all, and what a
camera delivers is no better. `fromBase45` refuses what is not base45: a length
that leaves one character over, a character outside the alphabet, and a group or
a tail above what its bytes can hold.

## Main definitions

* `base45Alphabet`: The 45 characters, in order.
* `toBase45`, `fromBase45`: The two directions.
-/

namespace Vadum

def base45Alphabet : JsString :=
  "0123456789ABCDEFGHIJKLMNOPQRSTUVWXYZ $%*+-./:".toList.map fun c => UInt16.ofNat c.toNat

/-- The character of a digit. -/
def base45Character (value : Nat) : UInt16 := base45Alphabet.getD value 0

/-- The digit of a character. -/
def base45Value (character : UInt16) : Option Nat := base45Alphabet.idxOf? character

def base45Invalid (reason : String) (detail : List (String × DetailValue)) : Thrown :=
  vadumError .wireBase45Invalid (("reason", .text reason) :: detail)

/-- Three characters for two bytes, two for an odd byte at the end. -/
def toBase45 : List UInt8 → JsString
  | high :: low :: rest =>
    let value := high.toNat * 256 + low.toNat
    let c := value / 2025
    let value := value - c * 2025
    let d := value / 45
    base45Character (value - d * 45) :: base45Character d :: base45Character c :: toBase45 rest
  | [last] =>
    let value := last.toNat
    let d := value / 45
    [base45Character (value - d * 45), base45Character d]
  | [] => []

/-- The digits of a string, from the character at `index` on. -/
def base45Digits (index : Nat) : JsString → Except Thrown (List Nat)
  | [] => pure []
  | character :: rest => do
    let some value := base45Value character
      | throw (base45Invalid "character outside the RFC 9285 alphabet"
          [("index", .number index), ("character", .utf16 [character])])
    let digits ← base45Digits (index + 1) rest
    pure (value :: digits)

/-- The bytes of some digits, from the one at `index` on. -/
def base45Bytes (index : Nat) : List Nat → Except Thrown (List UInt8)
  | a :: b :: c :: rest => do
    let value := a + b * 45 + c * 2025
    if value > 0xffff then
      throw (base45Invalid "a 3-character group decodes above 0xFFFF"
        [("index", .number index), ("value", .number value)])
    let bytes ← base45Bytes (index + 3) rest
    pure (UInt8.ofNat (value >>> 8) :: UInt8.ofNat (value &&& 0xff) :: bytes)
  | [a, b] => do
    let value := a + b * 45
    if value > 0xff then
      throw (base45Invalid "a 2-character tail decodes above 0xFF"
        [("index", .number index), ("value", .number value)])
    pure [UInt8.ofNat value]
  -- One digit over is refused before the digits are looked at.
  | _ => pure []

def fromBase45 (s : JsString) : Except Thrown (List UInt8) := do
  if s.length % 3 = 1 then
    throw (base45Invalid "length % 3 == 1" [("length", .number s.length)])
  let digits ← base45Digits 0 s
  base45Bytes 0 digits

end Vadum
