import StreamQuery.Plan.Feature
namespace StreamQuery

/-! The aggregate calls of a statement. Each is computed once for every group, and where the
statement names the call, its value is read from the group's results. -/

structure AggregateSpec where
  /-- Without an argument the operand of every record is null. -/
  argument : Option Mapper
  aggregation : Aggregation

namespace AggregateSpec

def operand (spec : AggregateSpec) : Mapper :=
  spec.argument.getD (Mapper.constant .null)

end AggregateSpec

namespace AggregateFeature

def argument (call : Call) : List Compiled → Except QueryError Compiled
  | [argument] =>
      if call.star then .error (.arity call.text "1" call.arguments.length) else .ok argument
  | arguments => .error (.arity call.text "1" arguments.length)

def countsRows : List Expr → Bool
  | [.literal .null] => false
  | [.literal _] => true
  | _ => false

def compileCount (call : Call) (arguments : List Compiled) : Except QueryError AggregateSpec :=
  if call.star then .ok ⟨none, .countRows⟩
  else do
    let argument ← argument call arguments
    if call.distinct then .ok ⟨some (← argument.value.get), .countDistinct⟩
    else if countsRows call.arguments then .ok ⟨none, .countRows⟩
    else .ok ⟨some (← argument.value.get), .count⟩

def compile (call : Call) (arguments : List Compiled) :
    AggregateFeature → Except QueryError AggregateSpec
  | .count => compileCount call arguments
  | .single name aggregation =>
      if call.distinct then
        .error (.unsupportedFeature ((FeatureId.of .aggregate name).text ++ " distinct") call.text)
      else do
        let argument ← argument call arguments
        .ok ⟨some (← argument.value.get), aggregation⟩

end AggregateFeature

structure AggregateCall where
  call : Call
  spec : Thunk (Except QueryError AggregateSpec)

/-- The different aggregate calls of a statement in the order of their first places. -/
structure AggregateSet where
  calls : List Call
  specs : List AggregateSpec

namespace AggregateSet

def addCall (found : List AggregateCall) (next : AggregateCall) : List AggregateCall :=
  if found.any fun earlier => earlier.call.equals next.call then found else found ++ [next]

def ofCalls (calls : List AggregateCall) : Except QueryError AggregateSet := do
  let found := calls.foldl addCall []
  .ok ⟨found.map (·.call), ← found.mapM fun next => next.spec.get⟩

def isEmpty (set : AggregateSet) : Bool :=
  set.calls.isEmpty

def install (set : AggregateSet) (metadata : Metadata) : Metadata :=
  set.calls.foldl
    (fun metadata call =>
      metadata.withStatementFeature (.of .valueMap call.name) (.valueMap (.slots set.calls)))
    metadata

end AggregateSet

end StreamQuery
