import StreamQuery.Value.DataType
import StreamQuery.Value.Order
namespace StreamQuery

/-! Aggregates are computed one operand at a time. Nulls are passed over, except where records are
counted. -/

inductive Aggregation where
  | countRows
  | count
  | countDistinct
  | sum
  | average
  | minimum
  | maximum
  /-- The standard deviation of the operands as a population. -/
  | deviation
  /-- Of operands above zero. -/
  | geometricMean
deriving DecidableEq, Repr

namespace Aggregation

def operandKind : Aggregation → String
  | .sum => "number (sum)"
  | .average => "number (avg)"
  | .deviation => "number (stddev)"
  | .geometricMean => "number (geomean)"
  | _ => "value"

def numericOperand (aggregation : Aggregation) (value : Value) : Except QueryError Number :=
  match value.asNumber? with
  | some number => .ok number
  | none => .error (value.castError aggregation.operandKind)

def positiveOperand (value : Value) : Except QueryError Double := do
  let number ← geometricMean.numericOperand value
  let x := number.toDouble
  match x.compare? (Binary.zero false) with
  | some .lt | some .eq => .error (value.castError "positive number (geomean)")
  | _ => .ok x

/-- Whether the aggregate accepts an operand; this depends on the operand alone. -/
def check (aggregation : Aggregation) (value : Value) : Except QueryError Unit :=
  if value.isNull then .ok ()
  else
    match aggregation with
    | .sum | .average | .deviation => (aggregation.numericOperand value).map fun _ => ()
    | .geometricMean => (positiveOperand value).map fun _ => ()
    | _ => .ok ()

end Aggregation

/-! The state of one aggregate. -/

inductive Accumulator where
  | countRows (count : Nat)
  | count (count : Nat)
  /-- The normalized operands, each once. -/
  | countDistinct (seen : List Value)
  | sum (total : Option Number)
  | average (sum : Double) (count : Nat)
  | minimum (current : Option Value)
  | maximum (current : Option Value)
  /-- The squared differences from the mean are summed as the mean moves. -/
  | deviation (count : Nat) (mean squares : Double)
  | geometricMean (count : Nat) (logarithms : Double)

namespace Accumulator

def start : Aggregation → Accumulator
  | .countRows => .countRows 0
  | .count => .count 0
  | .countDistinct => .countDistinct []
  | .sum => .sum none
  | .average => .average (Binary.zero false) 0
  | .minimum => .minimum none
  | .maximum => .maximum none
  | .deviation => .deviation 0 (Binary.zero false) (Binary.zero false)
  | .geometricMean => .geometricMean 0 (Binary.zero false)

def aggregation : Accumulator → Aggregation
  | .countRows _ => .countRows
  | .count _ => .count
  | .countDistinct _ => .countDistinct
  | .sum _ => .sum
  | .average _ _ => .average
  | .minimum _ => .minimum
  | .maximum _ => .maximum
  | .deviation _ _ _ => .deviation
  | .geometricMean _ _ => .geometricMean

def check (accumulator : Accumulator) (value : Value) : Except QueryError Unit :=
  accumulator.aggregation.check value

/-- Operands that the comparison of queries leaves unordered are ordered by the total order. -/
def compareOperands (left right : Value) : Ordering :=
  (left.compare? right).getD (left.order right)

def keepBest (wanted : Ordering) (current : Option Value) (value : Value) : Option Value :=
  match current with
  | none => some value
  | some best => if compareOperands value best = wanted then some value else some best

def addDistinct (seen : List Value) (value : Value) : List Value :=
  if seen.any value.equals then seen else seen ++ [value]

def ofCount (count : Nat) : Double :=
  Binary.ofInt count

def updatePresent (accumulator : Accumulator) (value : Value) : Except QueryError Accumulator :=
  match accumulator with
  | .countRows seen => .ok (.countRows (seen + 1))
  | .count seen => .ok (.count (seen + 1))
  | .countDistinct seen => .ok (.countDistinct (addDistinct seen value.normalized))
  | .sum total => do
      let operand ← Aggregation.sum.numericOperand value
      match total with
      | none => .ok (.sum (some operand))
      | some total => .ok (.sum (Number.arithmetic? .add total operand))
  | .average total operands => do
      let operand ← Aggregation.average.numericOperand value
      .ok (.average (total.add operand.toDouble) (operands + 1))
  | .minimum current => .ok (.minimum (keepBest .lt current value))
  | .maximum current => .ok (.maximum (keepBest .gt current value))
  | .deviation operands mean squares => do
      let operand ← Aggregation.deviation.numericOperand value
      let x := operand.toDouble
      let difference := x.subtract mean
      let moved := mean.add (difference.divide (ofCount (operands + 1)))
      .ok (.deviation (operands + 1) moved (squares.add (difference.multiply (x.subtract moved))))
  | .geometricMean operands logarithms => do
      let x ← Aggregation.positiveOperand value
      .ok (.geometricMean (operands + 1) (logarithms.add x.logarithm))

def update (accumulator : Accumulator) (value : Value) : Except QueryError Accumulator :=
  match accumulator, value with
  | .countRows seen, .null => .ok (.countRows (seen + 1))
  | accumulator, .null => .ok accumulator
  | accumulator, value => accumulator.updatePresent value

def variance? : Accumulator → Option Double
  | .deviation operands _ squares =>
      if operands = 0 then none else some (squares.divide (ofCount operands))
  | _ => none

def finish : Accumulator → Value
  | .countRows seen | .count seen => .int64 (Int64.ofNat seen)
  | .countDistinct seen => .int64 (Int64.ofNat seen.length)
  | .sum total => (total.map Value.ofNumber).getD .null
  | .average total operands => if operands = 0 then .null else .double (total.divide (ofCount operands))
  | .minimum current | .maximum current => current.getD .null
  | .deviation operands mean squares =>
      ((variance? (.deviation operands mean squares)).map fun variance =>
        .double variance.squareRoot).getD .null
  | .geometricMean operands logarithms =>
      if operands = 0 then .null else .double (logarithms.divide (ofCount operands)).exponential

end Accumulator

end StreamQuery
