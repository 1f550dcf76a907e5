import StreamQuery.Plan.Context
import StreamQuery.Stream.Feed
namespace StreamQuery

/-! A plan is a compiled statement. Its rows can be asked for again and again. -/

structure Plan where
  /-- The statement as it is written. -/
  text : String
  grouped : Bool
  settings : Settings
  /-- The rows of a run in a context. A nested run without sources of its own reads the record of
  the context. -/
  rows : (nested : Bool) → Context → Opening (Stream Value)

/-- An expression can be read as a value and as a condition. Neither reading is worked out before it
is asked for. -/
structure Compiled where
  value : Thunk (Except QueryError Mapper)
  predicate : Thunk (Except QueryError Predicate)

/-- One node of an expression, with its parts compiled. -/
inductive Node where
  | literal (value : Literal)
  | column (reference : ColumnRef)
  | call (call : Call) (arguments : List Compiled)
  | binary (operator : BinaryOperator) (left right : Compiled)
  | signed (sign : Sign) (operand : Compiled)
  | cast (operand : Compiled) (target : String)
  | caseWhen (subject : Option Compiled) (branches : List (Compiled × Compiled))
      (otherwise : Option Compiled)
  | parenthesis (inner : Compiled)
  | subselect (query : Select) (plan : Thunk (Except QueryError Plan))
  | not (inner : Compiled)
  | isNull (subject : Compiled) (negated : Bool)
  | isBoolean (subject : Compiled) (value negated : Bool)
  | between (subject low high : Compiled) (negated : Bool)
  | inList (subject : Compiled) (members : List Compiled) (negated : Bool)

end StreamQuery
