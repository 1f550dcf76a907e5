import StreamQuery.Number.Digits
import StreamQuery.Number.Powers
namespace StreamQuery

/-! Decimals of any size: an integer and the number of its digits after the point, which may be
negative and takes 64 bits. Two decimals of one value may differ in scale; comparisons go by value,
the written form keeps the scale. -/

structure Decimal where
  digits : Int
  scale : Int
deriving DecidableEq, Repr

namespace Decimal

def ofInt (value : Int) : Decimal :=
  ⟨value, 0⟩

/-! Scales go from `-scaleLimit` to just below `scaleLimit`. Those of products and quotients are sums
and differences, which wrap around at the limits. -/

def scaleLimit : Int := 9223372036854775808

def wrapScale (scale : Int) : Int :=
  scale.bmod (2 * scaleLimit.toNat)

/-- The integer part of the decimal when it is written with that many places. A power of ten that
exceeds the digits is not computed, and zero needs none. -/
def digitsAt (x : Decimal) (scale : Int) : Int :=
  if x.digits = 0 then 0
  else if x.scale ≤ scale then x.digits * powTen (scale - x.scale).toNat
  else x.digits.tdiv (powTenFor x.digits (x.scale - scale).toNat)

theorem digitsAt_eq (x : Decimal) (scale : Int) :
    x.digitsAt scale =
      if x.scale ≤ scale then x.digits * powTen (scale - x.scale).toNat
      else x.digits.tdiv (powTen (x.scale - scale).toNat) := by
  by_cases zero : x.digits = 0 <;> simp [digitsAt, zero, tdiv_powTenFor]

theorem digitsAt_scale (x : Decimal) : x.digitsAt x.scale = x.digits := by
  simp [digitsAt_eq, powTen]

def withScale (x : Decimal) (scale : Int) : Decimal :=
  ⟨x.digitsAt scale, scale⟩

/-- The decimal of the smaller scale is brought to the larger one, at which both keep their value. -/
def compareValue (x y : Decimal) : Ordering :=
  if x.scale ≤ y.scale then
    compare (x.digits * powTenFor y.digits (y.scale - x.scale).toNat) y.digits
  else compare x.digits (y.digits * powTenFor x.digits (x.scale - y.scale).toNat)

theorem compareValue_eq (x y : Decimal) :
    x.compareValue y =
      compare (x.digitsAt (max x.scale y.scale)) (y.digitsAt (max x.scale y.scale)) := by
  by_cases ordered : x.scale ≤ y.scale
  · rw [Int.max_eq_right ordered, digitsAt_scale, digitsAt_eq, compareValue, if_pos ordered,
      if_pos ordered, compare_mul_powTenFor]
  · have reversed := Int.le_of_not_le ordered
    rw [Int.max_eq_left reversed, digitsAt_scale, digitsAt_eq, compareValue, if_neg ordered,
      if_pos reversed, ← Int.compare_swap, compare_mul_powTenFor, Int.compare_swap]

def equals (x y : Decimal) : Bool :=
  compareValue x y == .eq

def isZero (x : Decimal) : Bool :=
  x.digits == 0

def longestOne : Int := 38

/-- One, in a form short enough to be recognized before a product or a quotient is computed. -/
def isOne (x : Decimal) : Bool :=
  0 ≤ x.scale && x.scale ≤ longestOne && x.digits == powTen x.scale.toNat

def negate (x : Decimal) : Decimal :=
  ⟨-x.digits, x.scale⟩

def abs (x : Decimal) : Decimal :=
  ⟨x.digits.natAbs, x.scale⟩

def add (x y : Decimal) : Decimal :=
  let scale := max x.scale y.scale
  ⟨x.digitsAt scale + y.digitsAt scale, scale⟩

/-- Subtracting zero keeps the scale of the other decimal, on either side. -/
def subtract (x y : Decimal) : Decimal :=
  if y.isZero then x
  else if x.isZero then y.negate
  else
    let scale := max x.scale y.scale
    ⟨x.digitsAt scale - y.digitsAt scale, scale⟩

/-- A factor that is recognized as one keeps the scale of the other factor. -/
def multiply (x y : Decimal) : Decimal :=
  if x.isOne then y
  else if y.isOne then x
  else ⟨x.digits * y.digits, wrapScale (x.scale + y.scale)⟩

/-! Division goes digit by digit until it is exact or has the greatest number of digits that a
quotient gets, and is then rounded by the next digit, a five upwards. -/

def quotientDigits : Nat := 100

/-- Zeros to append to the numerator until it is at least the denominator. -/
def leadingShift (numerator denominator : Nat) : Nat → Nat
  | 0 => 0
  | fuel + 1 =>
      if numerator < denominator then leadingShift (10 * numerator) denominator fuel + 1 else 0

/-- The state is a quotient, its scale and the remainder times ten. -/
def extendQuotient (denominator : Nat) :
    (digits quotient : Nat) → (scale : Int) → (tenfold : Nat) → Nat × Int × Nat
  | 0, quotient, scale, tenfold => (quotient, scale, tenfold)
  | digits + 1, quotient, scale, tenfold =>
      if tenfold = 0 then (quotient, scale, tenfold)
      else
        extendQuotient denominator digits (10 * quotient + tenfold / denominator) (scale + 1)
          (10 * (tenfold % denominator))

def divideMagnitudes (numerator denominator : Nat) (scale : Int) : Nat × Int :=
  let shift := leadingShift numerator denominator (denominator.log2 + 1)
  let shifted := numerator * powTen shift
  let quotient := shifted / denominator
  let missing := quotientDigits - (Digits.ofNat quotient).length
  let (quotient, scale, tenfold) :=
    extendQuotient denominator missing quotient (scale + shift) (10 * (shifted % denominator))
  (quotient + if 5 ≤ tenfold / denominator then 1 else 0, scale)

def divide (x y : Decimal) : Decimal :=
  if x.isZero || y.isOne then x
  else if x.digits = y.digits then ⟨1, wrapScale (x.scale - y.scale)⟩
  else
    let (quotient, scale) :=
      divideMagnitudes x.digits.natAbs y.digits.natAbs (x.scale - y.scale)
    ⟨if (x.digits < 0) = (y.digits < 0) then quotient else -quotient, wrapScale scale⟩

def remainder (x y : Decimal) : Decimal :=
  let scale := max x.scale y.scale
  ⟨(x.digitsAt scale).tmod (y.digitsAt scale), scale⟩

/-! Rounding to an integer. -/

def floor (x : Decimal) : Decimal :=
  let whole := x.withScale 0
  if x.compareValue whole == .lt then ⟨whole.digits - 1, 0⟩ else whole

def ceiling (x : Decimal) : Decimal :=
  x.negate.floor.negate

/-- A half goes away from zero, so the first digit after the point decides. -/
def roundHalfAway (x : Decimal) : Decimal :=
  ⟨(x.digitsAt 1 + 5 * x.digits.sign).tdiv 10, 0⟩

/-! The written form. A decimal reads as digits with at most one point and an optional exponent;
underscores between digits are skipped. It is written plainly unless more than `leadingZeros`
zeros would stand between the point and the first digit, or more than `trailingZeros` zeros
between the last digit and the point. -/

def leadingZeros : Int := 5

def trailingZeros : Int := 15

def unsignedDigits? (characters : List Char) : Option Nat :=
  match characters with
  | [] | '_' :: _ => none
  | _ =>
      let digits := characters.filter (· != '_')
      if digits.all Digits.isDigit then some (Digits.toNat digits 0) else none

def signedDigits? (characters : List Char) : Option Int :=
  match characters with
  | '-' :: rest => (unsignedDigits? rest).map fun value => -value
  | '+' :: rest => (unsignedDigits? rest).map fun value => value
  | _ => (unsignedDigits? characters).map fun value => value

def exponentLimit : Int := 170141183460469231731687303715884105728

def ofMantissa? (mantissa : List Char) (exponent : Int) : Option Decimal :=
  let whole := mantissa.takeWhile (· != '.')
  let fraction := (mantissa.dropWhile (· != '.')).drop 1
  let scale := (fraction.filter (· != '_')).length - exponent
  if exponent < -exponentLimit ∨ exponentLimit ≤ exponent ∨ scale < -scaleLimit
      ∨ scaleLimit ≤ scale then none
  else (signedDigits? (whole ++ fraction)).map fun digits => ⟨digits, scale⟩

def isExponentMark (character : Char) : Bool :=
  character == 'e' || character == 'E'

def ofString? (text : String) : Option Decimal :=
  let characters := text.toList
  let mantissa := characters.takeWhile (!isExponentMark ·)
  match characters.dropWhile (!isExponentMark ·) with
  | [] => ofMantissa? mantissa 0
  | _ :: exponent => (Digits.int? exponent).bind fun exponent => ofMantissa? mantissa exponent

def withPoint (digits : List Char) (scale : Nat) : List Char :=
  if scale = 0 then digits
  else
    let padded := List.replicate (scale + 1 - digits.length) '0' ++ digits
    padded.take (padded.length - scale) ++ '.' :: padded.drop (padded.length - scale)

def magnitudeText (digits : List Char) (scale : Int) : List Char :=
  if leadingZeros < scale - digits.length then
    let fraction := digits.drop 1
    digits.take 1 ++ (if fraction.isEmpty then [] else '.' :: fraction)
      ++ ['E'] ++ Digits.ofInt (digits.length - 1 - scale)
  else if trailingZeros < -scale then digits ++ ['e', '+'] ++ Digits.ofInt (-scale)
  else if scale ≤ 0 then digits ++ List.replicate (-scale).toNat '0'
  else withPoint digits scale.toNat

/-- Zero has one written form, whatever its scale. -/
def toString (x : Decimal) : String :=
  if x.digits = 0 then "0"
  else
    let magnitude := magnitudeText (Digits.ofNat x.digits.natAbs) x.scale
    String.ofList (if x.digits < 0 then '-' :: magnitude else magnitude)

end Decimal

end StreamQuery
