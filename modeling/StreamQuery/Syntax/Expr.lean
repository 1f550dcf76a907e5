import StreamQuery.Stream.Stage
namespace StreamQuery

/-! Expressions and select statements as trees. -/

inductive Literal where
  | string (text : String)
  | integer (value : Int64)
  | float (value : Double)
  | date (text : String)
  | timestamp (text : String)
  /-- The digits of a hexadecimal number, perhaps with their prefix. -/
  | hex (digits : String)
  | boolean (value : Bool)
  | null

structure ColumnRef where
  table : Option String
  name : String
deriving DecidableEq, Repr

/-- Operators other than the two connectives are known by their symbols. -/
inductive BinaryOperator where
  | and
  | or
  | named (symbol : String)
deriving DecidableEq, Repr

inductive Sign where
  | plus
  | minus
  | bitNot
deriving DecidableEq, Repr

inductive JoinKind where
  | inner
  | left
  | right
  | cross
deriving DecidableEq, Repr

mutual
structure Call where
  name : String
  arguments : List Expr
  /-- The argument list is a star. -/
  star : Bool
  distinct : Bool

inductive Expr where
  | literal (value : Literal)
  | column (reference : ColumnRef)
  | call (call : Call)
  | binary (operator : BinaryOperator) (left right : Expr)
  | signed (sign : Sign) (operand : Expr)
  | cast (operand : Expr) (target : String)
  | caseWhen (subject : Option Expr) (branches : List (Expr × Expr)) (otherwise : Option Expr)
  | parenthesis (inner : Expr)
  | subselect (query : Select)
  | not (inner : Expr)
  | isNull (subject : Expr) (negated : Bool)
  | isBoolean (subject : Expr) (value negated : Bool)
  | between (subject low high : Expr) (negated : Bool)
  | inList (subject : Expr) (members : List Expr) (negated : Bool)

inductive SelectItem where
  | wildcard
  | expression (value : Expr) (label : Option String)

inductive FromItem where
  | table (name : String) (label : Option String)
  | query (query : Select) (label : Option String)

structure JoinClause where
  kind : JoinKind
  source : FromItem
  condition : Option Expr

structure SortClause where
  key : Expr
  descending : Bool

structure Select where
  distinct : Bool
  items : List SelectItem
  source : Option FromItem
  joins : List JoinClause
  filter : Option Expr
  groupBy : List Expr
  having : Option Expr
  orderBy : List SortClause
  limit : Option Limit
end

namespace ColumnRef

/-- The text before the first dot names the source. -/
def ofPath (path : String) : ColumnRef :=
  match Path.segments path.toList with
  | table :: next :: rest => ⟨some (String.ofList table), Path.join (next :: rest)⟩
  | _ => ⟨none, path⟩

end ColumnRef

namespace BinaryOperator

def ofSymbol : String → BinaryOperator
  | "and" => .and
  | "or" => .or
  | symbol => .named symbol

def symbol : BinaryOperator → String
  | .and => "and"
  | .or => "or"
  | .named symbol => symbol

end BinaryOperator

namespace Sign

def symbol : Sign → String
  | .plus => "+"
  | .minus => "-"
  | .bitNot => "~"

end Sign

namespace JoinKind

def name : JoinKind → String
  | .inner => "inner"
  | .left => "left"
  | .right => "right"
  | .cross => "cross"

end JoinKind

namespace Expr

def isThis : Expr → Bool
  | .column ⟨none, name⟩ => name == "this"
  | _ => false

def toColumn? : Expr → Option ColumnRef
  | .column reference => some reference
  | _ => none

def toCall? : Expr → Option Call
  | .call application => some application
  | _ => none

end Expr

namespace FromItem

def qualifier? : FromItem → Option String
  | .table name label => some (label.getD name)
  | .query _ label => label

end FromItem

end StreamQuery
