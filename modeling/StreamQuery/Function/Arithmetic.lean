import StreamQuery.Syntax.Expr
import StreamQuery.Value.DataType
import StreamQuery.Value.Order
namespace StreamQuery

/-! Arithmetic on values. A null operand gives null, and every other operand has to be a number. -/

namespace Value

def requireNumber (value : Value) : Except QueryError Number :=
  match value.asNumber? with
  | some number => .ok number
  | none => .error (value.castError "number")

/-- Null where the numbers have no result, as for a zero divisor. -/
def arithmetic (operation : Number.Operation) (left right : Value) : Except QueryError Value :=
  if left.isNull || right.isNull then .ok .null
  else do
    let x ← left.requireNumber
    let y ← right.requireNumber
    .ok (((Number.arithmetic? operation x y).map ofNumber).getD .null)

/-! The extreme of several operands. Operands are compared as they stand, and a later one takes the
place of the best so far only if it beats it. -/

def betterOperand (wanted : Ordering) (best : Option Value) (operand : Value) : Value :=
  match best with
  | none => operand
  | some best => if operand.compare? best == some wanted then operand else best

def extremeOperand (wanted : Ordering) : Option Value → List Value → Except QueryError (Option Value)
  | best, [] => .ok best
  | best, operand :: rest =>
      if operand.isNull then extremeOperand wanted best rest
      else do
        let _ ← operand.requireNumber
        extremeOperand wanted (some (betterOperand wanted best operand)) rest

def extreme (wanted : Ordering) (operands : List Value) : Except QueryError Value := do
  let best ← extremeOperand wanted none operands
  .ok (((best.bind asNumber?).map ofNumber).getD .null)

/-! Functions of one number. -/

def mapNumber (transform : Number → Value) (value : Value) : Except QueryError Value :=
  if value.isNull then .ok .null else value.requireNumber.map transform

def roundNumber (rounding : Binary.IntegralRounding) : Number → Value
  | .int value => .int64 value
  | .float value => .double (value.roundToIntegral rounding)
  | .decimal value =>
      .decimal <|
        match rounding with
        | .floor => value.floor
        | .ceiling => value.ceiling
        | .halfAway => value.roundHalfAway
        | .towardZero => value.withScale 0

/-- The least integer has no opposite of its kind, and its absolute value is a float. -/
def absoluteNumber : Number → Value
  | .int value =>
      ((StreamQuery.toInt64? value.toInt.natAbs).map .int64).getD (.double (Binary.ofInt value.toInt).abs)
  | .float value => .double value.abs
  | .decimal value => .decimal value.abs

def mapFloat (transform : Double → Double) : Value → Except QueryError Value :=
  mapNumber fun number => .double (transform number.toDouble)

def power (base exponent : Value) : Except QueryError Value :=
  if base.isNull || exponent.isNull then .ok .null
  else do
    let x ← base.requireNumber
    let y ← exponent.requireNumber
    .ok (.double (x.toDouble.power y.toDouble))

def withSign (sign : Sign) (value : Value) : Except QueryError Value :=
  match sign, value with
  | _, .null => .ok .null
  | .minus, .int32 operand =>
      .ok (((toInt32? (-operand.toInt)).map .int32).getD (.int64 (Int64.ofInt (-operand.toInt))))
  | .minus, .single operand => .ok (.single operand.negate)
  | .minus, operand => operand.requireNumber.map fun number => .ofNumber number.negate
  | .plus, operand =>
      if operand.isNumeric then .ok operand else operand.requireNumber.map .ofNumber
  | .bitNot, .int32 operand => .ok (.int32 (~~~operand))
  | .bitNot, operand => do
      let number ← operand.requireNumber
      if !number.isIntegral then .error (operand.castError "long")
      else
        match number.toInt64? with
        | some bits => .ok (.int64 (~~~bits))
        | none => .error (operand.castError "number")

end Value

end StreamQuery
