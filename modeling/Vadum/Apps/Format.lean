import Mathlib.Data.List.DropRight
import Vadum.Core.Canonical
import Vadum.Wire.Base45

/-!
# Amounts as Text

Amounts are base units everywhere in the protocol and decimal strings only at
the edges: the keypad the user types on, and the line the user reads.

`formatAmount` pads the digits to one more than the places, cuts them, and drops
the zeros at the end of the fraction. `parseAmount` refuses more fraction digits
than the mint has places, and amounts no u64 can carry. Strings are UTF-16
units, any units at all, since what is typed is any text.

## Main definitions

* `trim`: A string without the white space at its ends.
* `isPlainNumber`: The expression a typed amount has to match.
* `formatAmount`, `parseAmount`: The two directions.
-/

namespace Vadum

def zeroUnit : UInt16 := 0x30

def pointUnit : UInt16 := 0x2e

def minusUnit : UInt16 := 0x2d

/-- White space and line ends, as `String.prototype.trim` has them. -/
def isWhiteSpace (unit : UInt16) : Bool :=
  unit ∈ [0x9, 0xa, 0xb, 0xc, 0xd, 0x20, 0xa0, 0x1680, 0x2028, 0x2029, 0x202f, 0x205f, 0x3000,
    0xfeff] ∨ 0x2000 ≤ unit ∧ unit ≤ 0x200a

def trim (text : JsString) : JsString := (text.dropWhile isWhiteSpace).rdropWhile isWhiteSpace

/-- The class `\d`. -/
def isDigitUnit (unit : UInt16) : Bool := 0x30 ≤ unit ∧ unit ≤ 0x39

/-- The expression `/^\d*(\.\d*)?$/`: digits, and then nothing or a point and
    more digits. -/
def isPlainNumber (text : JsString) : Bool :=
  match text.dropWhile isDigitUnit with
  | [] => true
  | unit :: rest => unit = pointUnit ∧ rest.all isDigitUnit

/-- The digits of a number, without a sign. -/
def decimalDigits (n : Nat) : JsString := (Nat.toDigits 10 n).map fun c => UInt16.ofNat c.toNat

/-- `BigInt.prototype.toString`. -/
def bigIntToString : Int → JsString
  | .ofNat n => decimalDigits n
  | .negSucc n => minusUnit :: decimalDigits (n + 1)

/-- `BigInt` of a string of digits, as every string it is called on is. -/
def bigIntOfDigits (text : JsString) : Int :=
  (text.foldl (fun n unit => n * 10 + (unit.toNat - zeroUnit.toNat)) 0 : Nat)

/-- Base units → a plain decimal string, trailing zeros trimmed but never
    rounded. -/
def formatAmount (base : Int) (decimals : Nat) : JsString :=
  let negative := base < 0
  let digits := (bigIntToString (if negative then -base else base)).leftpad (decimals + 1) zeroUnit
  let whole := digits.take (digits.length - decimals)
  let fraction := if decimals = 0 then []
    else (digits.drop (digits.length - decimals)).rdropWhile (· = zeroUnit)
  (if negative then [minusUnit] else []) ++ whole
    ++ (if fraction = [] then [] else pointUnit :: fraction)

/-- A typed amount → base units, or nothing when it is not a number this
    protocol can carry. -/
def parseAmount (text : JsString) (decimals : Nat) : Option Int :=
  let trimmed := trim text
  if isPlainNumber trimmed = false ∨ trimmed = [] ∨ trimmed = [pointUnit] then none
  else
    let parts := trimmed.splitOn pointUnit
    let whole := parts.getD 0 []
    let fraction := parts.getD 1 []
    if fraction.length > decimals then none
    else
      let base := bigIntOfDigits
        ((if whole = [] then [zeroUnit] else whole) ++ fraction.rightpad decimals zeroUnit)
      if base > u64Max then none else some base

end Vadum
