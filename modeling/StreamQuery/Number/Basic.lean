import StreamQuery.Number.Decimal
import StreamQuery.Number.Shortest
import StreamQuery.Text.Blank
namespace StreamQuery

/-! Numbers as expressions and aggregates compute with them: integers of 64 bits, binary floating
point, and decimals. An operation widens its operands to the wider of their two kinds. -/

inductive Number where
  | int (value : Int64)
  | float (value : Double)
  | decimal (value : Decimal)
deriving DecidableEq, Repr

namespace Decimal

/-- The decimal that the shortest written form of a finite number denotes. -/
def ofDouble (x : Double) : Decimal :=
  let ⟨digits, exponent⟩ := x.shortestDigits
  let signed := Binary.signed x.isNegative (digits * powTen exponent.toNat)
  ⟨signed, (-exponent).toNat⟩

def toDouble (x : Decimal) : Double :=
  Binary.ofDecimal (x.digits < 0) x.digits.natAbs (-x.scale)

end Decimal

namespace Number

def ofInt32 (value : Int32) : Number :=
  .int value.toInt64

def ofBool (value : Bool) : Number :=
  .int (if value then 1 else 0)

/-- An integer text first, then the text of a floating-point number, without blanks around it. -/
def ofString? (text : String) : Option Number :=
  let text := Text.trim text
  match Digits.int64? text.toList with
  | some value => some (.int value)
  | none => (Double.ofString? text).map .float

def isZero : Number → Bool
  | .int value => value == 0
  | .float value => value.isZero
  | .decimal value => value.isZero

def isIntegral : Number → Bool
  | .int _ => true
  | _ => false

def toDouble : Number → Double
  | .int value => Binary.ofInt value.toInt
  | .float value => value
  | .decimal value => value.toDouble

/-- Truncation toward zero. The float `2 ^ 63` counts as the largest integer. -/
def toInt64? : Number → Option Int64
  | .int value => some value
  | .float value =>
      value.truncate?.bind fun whole =>
        if whole = 9223372036854775808 then some Int64.maxValue else StreamQuery.toInt64? whole
  | .decimal value => StreamQuery.toInt64? (value.digitsAt 0)

def toDecimal? : Number → Option Decimal
  | .int value => some (.ofInt value.toInt)
  | .float value => if value.isFinite then some (.ofDouble value) else none
  | .decimal value => some value

/-! One representative for each numeric value: integral numbers in the range become integers, and
decimals that a float writes become that float. -/

def canonicalFloat (value : Double) : Number :=
  match value.truncate? with
  | some whole =>
      if value.isIntegral then ((StreamQuery.toInt64? whole).map .int).getD (.float value)
      else .float value
  | none => .float value

def canonicalDecimal (value : Decimal) : Number :=
  let whole : Option Int64 :=
    if value.equals (value.withScale 0) then StreamQuery.toInt64? (value.digitsAt 0) else none
  match whole with
  | some whole => .int whole
  | none =>
      let float := value.toDouble
      if float.isFinite && (Decimal.ofDouble float).equals value then canonicalFloat float
      else .decimal value

def canonical : Number → Number
  | .int value => .int value
  | .float value => canonicalFloat value
  | .decimal value => canonicalDecimal value

/-! Comparison widens as arithmetic does, and has no answer for what is not a number or for an
infinity beside a decimal. The total order falls back to floats and their total order. -/

def compareDecimals? (left right : Number) : Option Ordering :=
  match left.toDecimal?, right.toDecimal? with
  | some left, some right => some (left.compareValue right)
  | _, _ => none

def compare? : Number → Number → Option Ordering
  | .int left, .int right => some (compare left right)
  | .decimal left, right => compareDecimals? (.decimal left) right
  | left, .decimal right => compareDecimals? left (.decimal right)
  | left, right => left.toDouble.compare? right.toDouble

def totalCompare (left right : Number) : Ordering :=
  (left.compare? right).getD (left.toDouble.totalCompare right.toDouble)

/-! Arithmetic. -/

def negate : Number → Number
  | .int value =>
      ((StreamQuery.toInt64? (-value.toInt)).map .int).getD (.float (Binary.ofInt value.toInt).negate)
  | .float value => .float value.negate
  | .decimal value => .decimal value.negate

inductive Operation where
  | add
  | subtract
  | multiply
  | divide
  | remainder
deriving DecidableEq, Repr

namespace Operation

def divides : Operation → Bool
  | .divide | .remainder => true
  | _ => false

/-- The exact result over the integers, if it is in the range; the divisor is not zero. -/
def onIntegers? (operation : Operation) (left right : Int64) : Option Int64 :=
  let left := left.toInt
  let right := right.toInt
  match operation with
  | .add => StreamQuery.toInt64? (left + right)
  | .subtract => StreamQuery.toInt64? (left - right)
  | .multiply => StreamQuery.toInt64? (left * right)
  | .divide => StreamQuery.toInt64? (left.tdiv right)
  | .remainder => (StreamQuery.toInt64? (left.tdiv right)).bind fun _ =>
      StreamQuery.toInt64? (left.tmod right)

def onFloats : Operation → Double → Double → Double
  | .add => Binary.add
  | .subtract => Binary.subtract
  | .multiply => Binary.multiply
  | .divide => Binary.divide
  | .remainder => Binary.remainder

def onDecimals : Operation → Decimal → Decimal → Decimal
  | .add => Decimal.add
  | .subtract => Decimal.subtract
  | .multiply => Decimal.multiply
  | .divide => Decimal.divide
  | .remainder => Decimal.remainder

end Operation

def onDecimals? (operation : Operation) (left right : Number) : Option Number :=
  match left.toDecimal?, right.toDecimal? with
  | some left, some right => some (.decimal (operation.onDecimals left right))
  | _, _ => none

/-- No result for a zero divisor. An integer result that is out of the range becomes a float; so
does the remainder of a division whose quotient is. -/
def arithmetic? (operation : Operation) (left right : Number) : Option Number :=
  if operation.divides && right.isZero then none
  else
    match left, right with
    | .int x, .int y =>
        match operation.onIntegers? x y with
        | some exact => some (.int exact)
        | none => some (.float (operation.onFloats (Binary.ofInt x.toInt) (Binary.ofInt y.toInt)))
    | .decimal _, _ | _, .decimal _ => onDecimals? operation left right
    | _, _ => some (.float (operation.onFloats left.toDouble right.toDouble))

end Number

end StreamQuery
