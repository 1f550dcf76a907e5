import StreamQuery.Number.Binary
import StreamQuery.Number.Digits
namespace StreamQuery

/-! The fewest decimal digits that read back to a binary number. The reals that round to the number
form an interval whose ends belong to it exactly when the mantissa is even. Grids of powers of ten
are tried from the coarsest on: of the two grid points around the number, the first that lies in
the interval is taken, of two the nearer, and of two equally near the larger. -/

structure DecimalDigits where
  digits : Nat
  exponent : Int
deriving DecidableEq, Repr

namespace DecimalDigits

/-- Least `k` with `mantissa * 2 ^ exponent < 10 ^ k`, from a logarithm that may be off by one. -/
def integerPlaces (mantissa : Nat) (exponent : Int) : Int :=
  let logarithm := (mantissa.log2 : Int) + exponent
  let estimate := (logarithm * 30103).fdiv 100000
  let below (places : Int) : Bool :=
    mantissa * powTwo exponent.toNat * powTen (-places).toNat
      < powTen places.toNat * powTwo (-exponent).toNat
  ([estimate - 1, estimate, estimate + 1].find? below).getD (estimate + 2)

/-- The point of the grid `10 ^ grid` that stands for the number, if one does. `narrow` says that
the next number below is only half as far away as the next one above. -/
def onGrid? (mantissa : Nat) (exponent : Int) (narrow : Bool) (grid : Int) : Option Nat :=
  let unit := powTwo (exponent - 2).toNat * powTen (-grid).toNat
  let step := powTen grid.toNat * powTwo (2 - exponent).toNat
  let value := 4 * mantissa * unit
  let lowest := (4 * mantissa - if narrow then 1 else 2) * unit
  let highest := (4 * mantissa + 2) * unit
  let inside (point : Nat) : Bool :=
    if mantissa % 2 = 0 then lowest ≤ point * step && point * step ≤ highest
    else lowest < point * step && point * step < highest
  let below := value / step
  match inside below, inside (below + 1) with
  | true, true => some (if 2 * (value % step) < step then below else below + 1)
  | true, false => some below
  | false, true => some (below + 1)
  | false, false => none

def stripZeros : Nat → DecimalDigits → DecimalDigits
  | 0, decimal => decimal
  | fuel + 1, ⟨digits, exponent⟩ =>
      if digits % 10 = 0 ∧ digits ≠ 0 then stripZeros fuel ⟨digits / 10, exponent + 1⟩
      else ⟨digits, exponent⟩

def mostDigits : Nat := 17

/-- The number exactly, which stands in should no grid hold a point for it. -/
def exact (mantissa : Nat) (exponent : Int) : DecimalDigits :=
  ⟨mantissa * powTwo exponent.toNat * Nat.pow 5 (-exponent).toNat, min exponent 0⟩

def shortest (mantissa : Nat) (exponent : Int) (narrow : Bool) : DecimalDigits :=
  if mantissa = 0 then ⟨0, 0⟩
  else
    let places := integerPlaces mantissa exponent
    let attempt (count : Nat) : Option DecimalDigits :=
      let grid := places - (count + 1)
      (onGrid? mantissa exponent narrow grid).map fun point => ⟨point, grid⟩
    let found := ((List.range mostDigits).findSome? attempt).getD (exact mantissa exponent)
    stripZeros (Digits.ofNat found.digits).length found

end DecimalDigits

namespace Binary

variable {format : BinaryFormat}

def shortestDigits (x : Binary format) : DecimalDigits :=
  let field := x.magnitude / powTwo format.fractionBits
  let narrow := x.magnitude % powTwo format.fractionBits == 0 && 1 < field
  .shortest x.mantissa x.exponent narrow

end Binary

/-! Two written forms. The plain one never has an exponent. The literal one always shows that the
number is no integer, by a point or by an exponent, and has an exponent when the leading digit
stands below `plainFrom` or from `plainBelow` on. -/

namespace Binary

variable {format : BinaryFormat}

def positional : DecimalDigits → List Char
  | ⟨digits, exponent⟩ =>
      let written := Digits.ofNat digits
      if 0 ≤ exponent then written ++ List.replicate exponent.toNat '0'
      else
        let places := (-exponent).toNat
        let padded := List.replicate (places + 1 - written.length) '0' ++ written
        padded.take (padded.length - places) ++ '.' :: padded.drop (padded.length - places)

def scientific : DecimalDigits → List Char
  | ⟨digits, exponent⟩ =>
      let written := Digits.ofNat digits
      let fraction := written.drop 1
      written.take 1 ++ (if fraction.isEmpty then [] else '.' :: fraction)
        ++ 'e' :: Digits.ofInt (exponent + written.length - 1)

def plainFrom : Int := -4

def plainBelow : Int := 16

def literalForm (decimal : DecimalDigits) : List Char :=
  let leading := decimal.exponent + (Digits.ofNat decimal.digits).length - 1
  if decimal.digits ≠ 0 ∧ (leading < plainFrom ∨ plainBelow ≤ leading) then scientific decimal
  else positional decimal ++ if 0 ≤ decimal.exponent then ['.', '0'] else []

def written (form : DecimalDigits → List Char) (x : Binary format) : String :=
  if x.isNaN then "NaN"
  else
    let magnitude := if x.isFinite then form x.shortestDigits else ['i', 'n', 'f']
    String.ofList (if x.isNegative then '-' :: magnitude else magnitude)

def toString (x : Binary format) : String :=
  x.written positional

def literalText (x : Binary format) : String :=
  x.written literalForm

end Binary

/-! Reading a number of the double format: a sign, then `inf`, `infinity` or `nan` in any case, or
digits with an optional point and an optional exponent, rounded to the nearest number. -/

namespace Double

def unsigned? (negative : Bool) (characters : List Char) : Option Double :=
  let isMark (character : Char) : Bool := character == 'e' || character == 'E'
  let mantissa := characters.takeWhile (!isMark ·)
  let exponent? : Option Int :=
    match characters.dropWhile (!isMark ·) with
    | [] => some 0
    | _ :: exponent => Digits.int? exponent
  let whole := mantissa.takeWhile (· != '.')
  let fraction := (mantissa.dropWhile (· != '.')).drop 1
  exponent?.bind fun exponent =>
    (Digits.nat? (whole ++ fraction)).map fun digits =>
      Binary.ofDecimal negative digits (exponent - fraction.length)

def ofString? (text : String) : Option Double :=
  let (negative, rest) := Digits.splitSign text.toList
  match String.ofList (rest.map Char.toLower) with
  | "inf" | "infinity" => some (Binary.infinite negative)
  | "nan" => some (Binary.nan negative)
  | _ => unsigned? negative rest

end Double

end StreamQuery
