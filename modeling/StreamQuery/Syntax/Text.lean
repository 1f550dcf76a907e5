import StreamQuery.Syntax.Expr
import StreamQuery.Value.Text
namespace StreamQuery

/-! The written form of a statement. It names the columns of a row that have no label, and errors
quote it. -/

namespace Literal

def quoted (text : String) : String :=
  let doubled := text.toList.flatMap fun character =>
    if character == '\'' then ['\'', '\''] else [character]
  "'" ++ String.ofList doubled ++ "'"

def dropMarks (mark : Char) : List Char → List Char
  | '0' :: second :: rest =>
      if second == mark then dropMarks mark rest else '0' :: second :: rest
  | characters => characters

def text : Literal → String
  | .string text => quoted text
  | .integer value => intText value.toInt
  | .float value => value.literalText
  | .date text => "\x7bd '" ++ text ++ "'\x7d"
  | .timestamp text => "\x7bts '" ++ text ++ "'\x7d"
  | .hex digits => "0x" ++ String.ofList (dropMarks 'x' digits.toList)
  | .boolean value => boolText value
  | .null => "null"

end Literal

def ColumnRef.text (reference : ColumnRef) : String :=
  match reference.table with
  | some table => table ++ "." ++ reference.name
  | none => reference.name

def negation (negated : Bool) : String :=
  if negated then "not " else ""

def labelText : Option String → String
  | some label => " " ++ label
  | none => ""

def Limit.text (limit : Limit) : String :=
  match limit.count with
  | some count => s!" limit {limit.offset},{count}"
  | none => s!" offset {limit.offset}"

mutual
def Call.text : Call → String
  | ⟨name, arguments, star, distinct⟩ =>
      name ++ "(" ++ (if distinct then "distinct " else "")
        ++ (if star then "*" else String.intercalate ", " (Expr.texts arguments)) ++ ")"

def Expr.text : Expr → String
  | .literal value => value.text
  | .column reference => reference.text
  | .call call => call.text
  | .binary operator left right => left.text ++ " " ++ operator.symbol ++ " " ++ right.text
  | .signed sign operand => sign.symbol ++ operand.text
  | .cast operand target => "cast(" ++ operand.text ++ " as " ++ target ++ ")"
  | .caseWhen subject branches otherwise =>
      "case" ++ Expr.clauseText " " subject ++ Expr.branchesText branches
        ++ Expr.clauseText " else " otherwise ++ " end"
  | .parenthesis inner => "(" ++ inner.text ++ ")"
  | .subselect query => "(" ++ query.text ++ ")"
  | .not inner => "not " ++ inner.text
  | .isNull subject negated => subject.text ++ " is " ++ negation negated ++ "null"
  | .isBoolean subject value negated =>
      subject.text ++ " is " ++ negation negated ++ boolText value
  | .between subject low high negated =>
      subject.text ++ " " ++ negation negated ++ "between " ++ low.text ++ " and " ++ high.text
  | .inList subject members negated =>
      subject.text ++ " " ++ negation negated ++ "in ("
        ++ String.intercalate ", " (Expr.texts members) ++ ")"

def Expr.texts : List Expr → List String
  | [] => []
  | head :: rest => head.text :: Expr.texts rest

def Expr.clauseText (announcement : String) : Option Expr → String
  | none => ""
  | some clause => announcement ++ clause.text

def Expr.branchesText : List (Expr × Expr) → String
  | [] => ""
  | (condition, result) :: rest =>
      " when " ++ condition.text ++ " then " ++ result.text ++ Expr.branchesText rest

def SelectItem.text : SelectItem → String
  | .wildcard => "*"
  | .expression value label => value.text ++ labelText label

def SelectItem.texts : List SelectItem → List String
  | [] => []
  | head :: rest => head.text :: SelectItem.texts rest

def FromItem.text : FromItem → String
  | .table name label => name ++ labelText label
  | .query query label => "(" ++ query.text ++ ")" ++ labelText label

def FromItem.clauseText : Option FromItem → String
  | none => ""
  | some source => " from " ++ source.text

def JoinClause.text : JoinClause → String
  | ⟨.cross, source, none⟩ => ", " ++ source.text
  | ⟨kind, source, condition⟩ =>
      " " ++ kind.name ++ " join " ++ source.text ++ Expr.clauseText " on " condition

def JoinClause.textOfAll : List JoinClause → String
  | [] => ""
  | head :: rest => head.text ++ JoinClause.textOfAll rest

def SortClause.texts : List SortClause → List String
  | [] => []
  | ⟨key, descending⟩ :: rest =>
      (key.text ++ if descending then " desc" else "") :: SortClause.texts rest

def Select.text : Select → String
  | ⟨distinct, items, source, joins, filter, groupBy, having, orderBy, limit⟩ =>
      let groups := Expr.texts groupBy
      let orders := SortClause.texts orderBy
      "select " ++ (if distinct then "distinct " else "")
        ++ String.intercalate ", " (SelectItem.texts items) ++ FromItem.clauseText source
        ++ JoinClause.textOfAll joins ++ Expr.clauseText " where " filter
        ++ (if groups.isEmpty then "" else " group by " ++ String.intercalate ", " groups)
        ++ Expr.clauseText " having " having
        ++ (if orders.isEmpty then "" else " order by " ++ String.intercalate ", " orders)
        ++ (limit.map Limit.text).getD ""
end

def SelectItem.outputName : SelectItem → String
  | .wildcard => "*"
  | .expression value label => label.getD value.text

end StreamQuery
