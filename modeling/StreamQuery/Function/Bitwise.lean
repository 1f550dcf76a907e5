import StreamQuery.Value.DataType
namespace StreamQuery

/-! Operations on the bits of 64-bit integers. Of a shift distance only the low six bits count. -/

inductive BitOperation where
  | exclusiveOr
  | and
  | or
  | shiftLeft
  /-- Keeps the sign. -/
  | shiftRight
  /-- Fills with zeros. -/
  | shiftRightUnsigned
deriving DecidableEq, Repr

namespace BitOperation

def apply (operation : BitOperation) (left right : Int64) : Int64 :=
  match operation with
  | .exclusiveOr => left ^^^ right
  | .and => left &&& right
  | .or => left ||| right
  | .shiftLeft => left <<< (right &&& 63)
  | .shiftRight => left >>> (right &&& 63)
  | .shiftRightUnsigned => (left.toUInt64 >>> (right &&& 63).toUInt64).toInt64

end BitOperation

namespace Value

/-- A text that writes an integer counts as one; an integral float does not. -/
def requireBits (value : Value) : Except QueryError Int64 :=
  match value.asNumber? with
  | some (.int bits) => .ok bits
  | _ => .error (value.castError "long")

def bitwise (operation : BitOperation) (left right : Value) : Except QueryError Value :=
  if left.isNull || right.isNull then .ok .null
  else do
    let left ← left.requireBits
    let right ← right.requireBits
    .ok (.int64 (operation.apply left right))

def mapBits (transform : Int64 → Int64) (value : Value) : Except QueryError Value :=
  if value.isNull then .ok .null
  else value.requireBits.map fun bits => .int64 (transform bits)

def countBits (bits : Int64) : Int64 :=
  Int64.ofNat ((List.range 64).countP bits.toBitVec.getLsbD)

end Value

end StreamQuery
