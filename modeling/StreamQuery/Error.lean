namespace StreamQuery

/-! What can go wrong. The first three kinds are found while a statement is compiled, a parse error
comes with the text of a statement, and the others arise while records flow. -/

inductive QueryError where
  /-- No feature of this name is known. -/
  | unsupportedFeature (feature expression : String)
  /-- No feature accepts an expression of this form. -/
  | unsupportedExpression (expression : String)
  /-- The number of arguments is not what the feature expects. -/
  | arity (expression expected : String) (got : Nat)
  /-- The value has no counterpart of the wanted kind. -/
  | cast (value target : String)
  | parse (message : String)
  /-- A source is unknown or failed. -/
  | source (name message : String)
  /-- A record would open one group more than allowed. -/
  | groupLimit (limit : Nat)
deriving DecidableEq, Repr

namespace QueryError

def message : QueryError → String
  | .unsupportedFeature feature expression => s!"unsupported feature {feature}: {expression}"
  | .unsupportedExpression expression => s!"unsupported expression: {expression}"
  | .arity expression expected got => s!"{expression}: expected {expected} argument(s), got {got}"
  | .cast value target => s!"cannot cast {value} to {target}"
  | .parse message => s!"parse error: {message}"
  | .source name message => s!"source {name}: {message}"
  | .groupLimit limit => s!"group limit of {limit} exceeded"

def isCompileError : QueryError → Bool
  | .unsupportedFeature .. | .unsupportedExpression _ | .arity .. => true
  | _ => false

def isFatal : QueryError → Bool
  | .source .. | .groupLimit _ => true
  | _ => false

end QueryError

/-! A record that fails to evaluate ends the run, or is left out of it. -/

inductive ErrorPolicy where
  | fail
  | skip
deriving DecidableEq, Repr

def ErrorPolicy.skips (policy : ErrorPolicy) (error : QueryError) : Bool :=
  policy == .skip && !error.isFatal

end StreamQuery
