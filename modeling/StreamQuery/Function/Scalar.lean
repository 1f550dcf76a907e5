import StreamQuery.Function.Arithmetic
import StreamQuery.Function.Arity
import StreamQuery.Function.Bitwise
import StreamQuery.Function.Collection
import StreamQuery.Function.Text
namespace StreamQuery

/-! The functions over evaluated operands. -/

inductive ScalarFunction where
  | arithmetic (operation : Number.Operation)
  | greatest
  | least
  | rounded (rounding : Binary.IntegralRounding)
  | absolute
  | logarithm
  | squareRoot
  | exponential
  | power
  | bitwise (operation : BitOperation)
  | bitNot
  | bitCount
  | joined
  | concatenated
  | upper
  | lower
  | trimmed
  | length
  | substring
  | newList
  | items
  | coalesce
deriving DecidableEq, Repr

namespace ScalarFunction

def arity : ScalarFunction → Arity
  | .arithmetic _ | .power | .bitwise _ | .joined => .exactly 2
  | .greatest | .least | .coalesce => .atLeast 1
  | .concatenated | .newList => .atLeast 0
  | .substring => .between 2 3
  | .rounded _ | .absolute | .logarithm | .squareRoot | .exponential | .bitNot | .bitCount
  | .upper | .lower | .trimmed | .length | .items => .exactly 1

/-- Operands in a number outside of the arity have no result. -/
def result? : ScalarFunction → List Value → Option (Except QueryError Value)
  | .arithmetic operation, [left, right] => some (Value.arithmetic operation left right)
  | .greatest, operands => some (Value.extreme .gt operands)
  | .least, operands => some (Value.extreme .lt operands)
  | .rounded rounding, [value] => some (value.mapNumber (Value.roundNumber rounding))
  | .absolute, [value] => some (value.mapNumber Value.absoluteNumber)
  | .logarithm, [value] => some (value.mapFloat Binary.logarithm)
  | .squareRoot, [value] => some (value.mapFloat Binary.squareRoot)
  | .exponential, [value] => some (value.mapFloat Binary.exponential)
  | .power, [base, exponent] => some (base.power exponent)
  | .bitwise operation, [left, right] => some (Value.bitwise operation left right)
  | .bitNot, [value] => some (value.mapBits fun bits => ~~~bits)
  | .bitCount, [value] => some (value.mapBits Value.countBits)
  | .joined, [left, right] => some (.ok (Value.concatenate [left, right]))
  | .concatenated, operands => some (.ok (Value.concatenate operands))
  | .upper, [value] => some (.ok (value.mapText Text.upper))
  | .lower, [value] => some (.ok (value.mapText Text.lower))
  | .trimmed, [value] => some (.ok (value.mapText Text.trim))
  | .length, [value] => some (.ok value.size)
  | .substring, [value, start] => some (value.substring start none)
  | .substring, [value, start, count] => some (value.substring start (some count))
  | .newList, operands => some (.ok (.list operands))
  | .items, [value] => some (.ok value.toItems)
  | .coalesce, operands => some (.ok (Value.coalesce operands))
  | _, _ => none

end ScalarFunction

end StreamQuery
