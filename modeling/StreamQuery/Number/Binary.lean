import StreamQuery.Number.Powers
namespace StreamQuery

/-! Binary floating-point numbers as bit patterns: a sign bit, an exponent field and a fraction
field. Every operation reads the patterns exactly, computes in integers and rounds once, so each
result is a closed computation on the bits. -/

structure BinaryFormat where
  fractionBits : Nat
  exponentBits : Nat
deriving DecidableEq, Repr

namespace BinaryFormat

abbrev single : BinaryFormat := ⟨23, 8⟩
abbrev double : BinaryFormat := ⟨52, 11⟩

abbrev width (format : BinaryFormat) : Nat :=
  format.fractionBits + format.exponentBits + 1

def leastExponent (format : BinaryFormat) : Int :=
  2 - powTwo (format.exponentBits - 1) - format.fractionBits

def infinity (format : BinaryFormat) : Nat :=
  (powTwo format.exponentBits - 1) * powTwo format.fractionBits

def quietBit (format : BinaryFormat) : Nat :=
  powTwo (format.fractionBits - 1)

end BinaryFormat

structure Binary (format : BinaryFormat) where
  bits : BitVec format.width
deriving DecidableEq, Repr

abbrev Single := Binary .single
abbrev Double := Binary .double

namespace Binary

variable {format : BinaryFormat}

def signWeight (format : BinaryFormat) : Nat :=
  powTwo (format.fractionBits + format.exponentBits)

def magnitude (x : Binary format) : Nat :=
  x.bits.toNat % signWeight format

def isNegative (x : Binary format) : Bool :=
  signWeight format ≤ x.bits.toNat

def ofMagnitude (negative : Bool) (magnitude : Nat) : Binary format :=
  ⟨BitVec.ofNat _ ((if negative then signWeight format else 0) + magnitude)⟩

def zero (negative : Bool) : Binary format :=
  ofMagnitude negative 0

def infinite (negative : Bool) : Binary format :=
  ofMagnitude negative format.infinity

def isNaN (x : Binary format) : Bool :=
  format.infinity < x.magnitude

def isFinite (x : Binary format) : Bool :=
  x.magnitude < format.infinity

def isZero (x : Binary format) : Bool :=
  x.magnitude == 0

def invalid : Binary format :=
  ofMagnitude true (format.infinity + format.quietBit)

def nan (negative : Bool) : Binary format :=
  ofMagnitude negative (format.infinity + format.quietBit)

def quiet (x : Binary format) : Binary format :=
  ofMagnitude x.isNegative (x.magnitude ||| format.quietBit)

/-! What a pattern denotes: a finite one is an integer times a power of two. -/

inductive Reading where
  | notANumber
  | infinite (negative : Bool)
  | finite (negative : Bool) (mantissa : Nat) (exponent : Int)
deriving DecidableEq, Repr

def mantissa (x : Binary format) : Nat :=
  if x.magnitude < powTwo format.fractionBits then x.magnitude
  else powTwo format.fractionBits + x.magnitude % powTwo format.fractionBits

def exponent (x : Binary format) : Int :=
  format.leastExponent + (x.magnitude / powTwo format.fractionBits - 1 : Nat)

def reading (x : Binary format) : Reading :=
  if x.isNaN then .notANumber
  else if x.isFinite then .finite x.isNegative x.mantissa x.exponent
  else .infinite x.isNegative

/-! Rounding a positive ratio: to the nearest number of the format, a half to the even one. -/

def roundHalfEven (numerator denominator : Nat) : Nat :=
  let quotient := numerator / denominator
  match compare (2 * (numerator % denominator)) denominator with
  | .lt => quotient
  | .gt => quotient + 1
  | .eq => quotient + quotient % 2

/-- The exponent of the largest power of two that is at most the ratio. -/
def ratioLog2 (numerator denominator : Nat) : Int :=
  let estimate : Int := (numerator.log2 : Int) - denominator.log2
  if denominator * powTwo estimate.toNat ≤ numerator * powTwo (-estimate).toNat then estimate
  else estimate - 1

/-- A mantissa that rounds up to the next power of two carries into the exponent field, and a
number past the largest becomes infinity, both by plain addition of the fields. -/
def ofRatio (negative : Bool) (numerator denominator : Nat) : Binary format :=
  if numerator = 0 then zero negative
  else
    let exponent :=
      max (ratioLog2 numerator denominator - format.fractionBits) format.leastExponent
    let mantissa :=
      roundHalfEven (numerator * powTwo (-exponent).toNat) (denominator * powTwo exponent.toNat)
    let magnitude := (exponent - format.leastExponent).toNat * powTwo format.fractionBits + mantissa
    ofMagnitude negative (min magnitude format.infinity)

def ofScaled (negative : Bool) (mantissa : Nat) (exponent : Int) : Binary format :=
  ofRatio negative (mantissa * powTwo exponent.toNat) (powTwo (-exponent).toNat)

def ofInt (value : Int) : Binary format :=
  ofRatio (value < 0) value.natAbs 1

/-- The nearest number to `digits` times ten to the `exponent`. Far outside the range of every
format the answer is known without the power of ten. -/
def ofDecimal (negative : Bool) (digits : Nat) (exponent : Int) : Binary format :=
  let length : Int := (Nat.toDigits 10 digits).length
  if digits = 0 ∨ length + exponent < -400 then zero negative
  else if 400 < length + exponent then infinite negative
  else ofRatio negative (digits * powTen exponent.toNat) (powTen (-exponent).toNat)

def convert {source : BinaryFormat} (target : BinaryFormat) (x : Binary source) : Binary target :=
  match x.reading with
  | .notANumber =>
      let payload := (x.magnitude - source.infinity) * powTwo target.fractionBits
        / powTwo source.fractionBits
      quiet (ofMagnitude x.isNegative (target.infinity + payload))
  | .infinite negative => infinite negative
  | .finite negative mantissa exponent => ofScaled negative mantissa exponent

/-! Order. Patterns without sign are ordered as their magnitudes are, so the signed magnitude is an
order key in which the two zeros agree; the total order tells them apart and places the patterns
that are not numbers at the two ends. -/

def orderKey (x : Binary format) : Int :=
  if x.isNegative then -x.magnitude else x.magnitude

def totalKey (x : Binary format) : Int :=
  if x.isNegative then -x.magnitude - 1 else x.magnitude

def compare? (x y : Binary format) : Option Ordering :=
  if x.isNaN || y.isNaN then none else some (compare x.orderKey y.orderKey)

def totalCompare (x y : Binary format) : Ordering :=
  compare x.totalKey y.totalKey

/-- Numeric equality: zeros agree, and what is not a number equals nothing. -/
def equals (x y : Binary format) : Bool :=
  x.compare? y == some .eq

/-! Arithmetic. An operand that is not a number is the answer itself, the first one first. -/

def negate (x : Binary format) : Binary format :=
  ofMagnitude (!x.isNegative) x.magnitude

def abs (x : Binary format) : Binary format :=
  ofMagnitude false x.magnitude

def signed (negative : Bool) (mantissa : Nat) : Int :=
  if negative then -mantissa else mantissa

def addFinite (xNegative : Bool) (xMantissa : Nat) (xExponent : Int)
    (yNegative : Bool) (yMantissa : Nat) (yExponent : Int) : Binary format :=
  let exponent := min xExponent yExponent
  let sum := signed xNegative xMantissa * powTwo (xExponent - exponent).toNat
    + signed yNegative yMantissa * powTwo (yExponent - exponent).toNat
  if sum = 0 then zero (xNegative && yNegative) else ofScaled (sum < 0) sum.natAbs exponent

def add (x y : Binary format) : Binary format :=
  match x.reading, y.reading with
  | .notANumber, _ => x.quiet
  | _, .notANumber => y.quiet
  | .infinite xNegative, .infinite yNegative =>
      if xNegative == yNegative then infinite xNegative else invalid
  | .infinite negative, .finite .. | .finite .., .infinite negative => infinite negative
  | .finite xNegative xMantissa xExponent, .finite yNegative yMantissa yExponent =>
      addFinite xNegative xMantissa xExponent yNegative yMantissa yExponent

def subtract (x y : Binary format) : Binary format :=
  if y.isNaN then if x.isNaN then x.quiet else y.quiet else add x y.negate

def multiply (x y : Binary format) : Binary format :=
  match x.reading, y.reading with
  | .notANumber, _ => x.quiet
  | _, .notANumber => y.quiet
  | .infinite xNegative, .infinite yNegative => infinite (xNegative != yNegative)
  | .infinite xNegative, .finite yNegative mantissa _ =>
      if mantissa = 0 then invalid else infinite (xNegative != yNegative)
  | .finite xNegative mantissa _, .infinite yNegative =>
      if mantissa = 0 then invalid else infinite (xNegative != yNegative)
  | .finite xNegative xMantissa xExponent, .finite yNegative yMantissa yExponent =>
      ofScaled (xNegative != yNegative) (xMantissa * yMantissa) (xExponent + yExponent)

def divide (x y : Binary format) : Binary format :=
  match x.reading, y.reading with
  | .notANumber, _ => x.quiet
  | _, .notANumber => y.quiet
  | .infinite _, .infinite _ => invalid
  | .infinite xNegative, .finite yNegative _ _ => infinite (xNegative != yNegative)
  | .finite xNegative _ _, .infinite yNegative => zero (xNegative != yNegative)
  | .finite xNegative xMantissa xExponent, .finite yNegative yMantissa yExponent =>
      let negative := xNegative != yNegative
      let exponent := xExponent - yExponent
      if yMantissa = 0 then if xMantissa = 0 then invalid else infinite negative
      else ofRatio negative (xMantissa * powTwo exponent.toNat) (yMantissa * powTwo (-exponent).toNat)

/-- The remainder of the division that is rounded toward zero; it is exact and has the sign of the
dividend. -/
def remainder (x y : Binary format) : Binary format :=
  match x.reading, y.reading with
  | .notANumber, _ => x.quiet
  | _, .notANumber => y.quiet
  | .infinite _, _ => invalid
  | .finite .., .infinite _ => x
  | .finite xNegative xMantissa xExponent, .finite _ yMantissa yExponent =>
      if yMantissa = 0 then invalid
      else
        let exponent := min xExponent yExponent
        ofScaled xNegative
          (xMantissa * powTwo (xExponent - exponent).toNat
            % (yMantissa * powTwo (yExponent - exponent).toNat))
          exponent

/-- A root of sufficiently many bits, with one more bit that tells whether it is exact, rounds as
the true root does. -/
def squareRoot (x : Binary format) : Binary format :=
  match x.reading with
  | .notANumber => x.quiet
  | .infinite negative => if negative then invalid else x
  | .finite negative mantissa exponent =>
      if mantissa = 0 then x
      else if negative then invalid
      else
        let odd := (exponent % 2).toNat
        let places := format.fractionBits + 2
        let radicand := mantissa * powTwo odd * powTwo (2 * places)
        let root := radicand.sqrt
        let rest := if root * root = radicand then 0 else 1
        ofScaled false (2 * root + rest) ((exponent - odd) / 2 - places - 1)

/-! Rounding to an integral number keeps the sign, also of a zero. -/

inductive IntegralRounding where
  | towardZero
  | floor
  | ceiling
  | halfAway
deriving DecidableEq, Repr

/-- Whether the magnitude `quotient + remainder / unit` goes to the next integer. -/
def IntegralRounding.goesUp (rounding : IntegralRounding) (negative : Bool)
    (remainder unit : Nat) : Bool :=
  match rounding with
  | .towardZero => false
  | .floor => negative && remainder != 0
  | .ceiling => !negative && remainder != 0
  | .halfAway => unit ≤ 2 * remainder

def roundToIntegral (rounding : IntegralRounding) (x : Binary format) : Binary format :=
  match x.reading with
  | .notANumber => x.quiet
  | .infinite _ => x
  | .finite negative mantissa exponent =>
      if 0 ≤ exponent then x
      else
        let unit := powTwo (-exponent).toNat
        let up := rounding.goesUp negative (mantissa % unit) unit
        ofScaled negative (mantissa / unit + up.toNat) 0

/-- The integer that a finite number is after dropping its fraction. -/
def truncate? (x : Binary format) : Option Int :=
  match x.reading with
  | .finite negative mantissa exponent =>
      some (signed negative (mantissa * powTwo exponent.toNat / powTwo (-exponent).toNat))
  | _ => none

def isIntegral (x : Binary format) : Bool :=
  match x.reading with
  | .finite _ mantissa exponent => mantissa % powTwo (-exponent).toNat == 0
  | _ => false

/-! The transcendental functions are those of the machine; the cases without a numeric answer are
settled here. -/

def toMachine (x : Double) : Float :=
  Float.ofBits (UInt64.ofBitVec x.bits)

def ofMachine (x : Float) : Double :=
  ⟨x.toBits.toBitVec⟩

def exponential (x : Double) : Double :=
  if x.isNaN then x.quiet else ofMachine x.toMachine.exp

def logarithm (x : Double) : Double :=
  if x.isNaN then x.quiet
  else if x.isNegative && !x.isZero then invalid
  else ofMachine x.toMachine.log

def power (x y : Double) : Double :=
  if y.isZero || x == ofInt 1 then ofInt 1
  else if x.isNaN then x.quiet
  else if y.isNaN then y.quiet
  else if x.isFinite && x.isNegative && !x.isZero && y.isFinite && !y.isIntegral then invalid
  else ofMachine (x.toMachine.pow y.toMachine)

end Binary

end StreamQuery
