import StreamQuery.Aggregate.Accumulator
namespace StreamQuery.Accumulator

/-! An accumulator that is held in place and asked one request after the other. What a request has
written stays written, also if it fails afterwards. -/

abbrev InPlace := EStateM QueryError Accumulator

def require (result : Except QueryError α) : InPlace α :=
  MonadExcept.ofExcept result

def checkInPlace (operand : Value) : InPlace Unit := do
  let accumulator ← get
  require (accumulator.check operand)

/-- Takes an operand in. Every number of the state is written on its own. -/
def updateInPlace (operand : Value) : InPlace Unit := do
  match ← get with
  | .countRows seen => set (countRows (seen + 1))
  | .count seen => unless operand.isNull do set (count (seen + 1))
  | .countDistinct seen =>
      unless operand.isNull do set (countDistinct (addDistinct seen operand.normalized))
  | .sum total =>
      unless operand.isNull do
        let number ← require (Aggregation.sum.numericOperand operand)
        -- The total is out of the state while the operand is added to it.
        set (sum none)
        set (sum (match total with
          | none => some number
          | some total => Number.arithmetic? .add total number))
  | .average total operands =>
      unless operand.isNull do
        let number ← require (Aggregation.average.numericOperand operand)
        let total := total.add number.toDouble
        set (average total operands)
        set (average total (operands + 1))
  | .minimum current => unless operand.isNull do set (minimum (keepBest .lt current operand))
  | .maximum current => unless operand.isNull do set (maximum (keepBest .gt current operand))
  | .deviation operands mean squares =>
      unless operand.isNull do
        let number ← require (Aggregation.deviation.numericOperand operand)
        let x := number.toDouble
        let operands := operands + 1
        set (deviation operands mean squares)
        let difference := x.subtract mean
        let mean := mean.add (difference.divide (ofCount operands))
        set (deviation operands mean squares)
        set (deviation operands mean (squares.add (difference.multiply (x.subtract mean))))
  | .geometricMean operands logarithms =>
      unless operand.isNull do
        let x ← require (Aggregation.positiveOperand operand)
        let operands := operands + 1
        set (geometricMean operands logarithms)
        set (geometricMean operands (logarithms.add x.logarithm))

inductive Request where
  | check (operand : Value)
  | update (operand : Value)

def Request.run : Request → InPlace Unit
  | .check operand => checkInPlace operand
  | .update operand => updateInPlace operand

def perform (accumulator : Accumulator) (request : Request) :
    Except QueryError Unit × Accumulator :=
  match request.run.run accumulator with
  | .ok () next => (.ok (), next)
  | .error error next => (.error error, next)

def after (accumulator : Accumulator) (requests : List Request) : Accumulator :=
  requests.foldl (fun accumulator request => (accumulator.perform request).2) accumulator

structure Reply where
  result : Except QueryError Unit
  finish : Value

def replies : List Request → Accumulator → List Reply
  | [], _ => []
  | request :: rest, accumulator =>
      let (result, next) := accumulator.perform request
      ⟨result, next.finish⟩ :: replies rest next

end StreamQuery.Accumulator
