import StreamQuery.Syntax.Expr
namespace StreamQuery

/-! Structural equality of expressions, in which float literals compare by value: one that is not a
number differs from itself. -/

def Literal.equals : Literal → Literal → Bool
  | .string left, .string right => left == right
  | .integer left, .integer right => left == right
  | .float left, .float right => Binary.equals left right
  | .date left, .date right => left == right
  | .timestamp left, .timestamp right => left == right
  | .hex left, .hex right => left == right
  | .boolean left, .boolean right => left == right
  | .null, .null => true
  | _, _ => false

mutual
def Call.equals : Call → Call → Bool
  | ⟨name, arguments, star, distinct⟩, other =>
      name == other.name && Expr.equalAll arguments other.arguments && star == other.star
        && distinct == other.distinct

def Expr.equals : Expr → Expr → Bool
  | .literal left, .literal right => left.equals right
  | .column left, .column right => left == right
  | .call left, .call right => left.equals right
  | .binary operator left right, .binary operator' left' right' =>
      operator == operator' && left.equals left' && right.equals right'
  | .signed sign operand, .signed sign' operand' => sign == sign' && operand.equals operand'
  | .cast operand target, .cast operand' target' => operand.equals operand' && target == target'
  | .caseWhen subject branches otherwise, .caseWhen subject' branches' otherwise' =>
      Expr.equalOptions subject subject' && Expr.equalBranches branches branches'
        && Expr.equalOptions otherwise otherwise'
  | .parenthesis left, .parenthesis right => left.equals right
  | .subselect left, .subselect right => left.equals right
  | .not left, .not right => left.equals right
  | .isNull left negated, .isNull right negated' => left.equals right && negated == negated'
  | .isBoolean left value negated, .isBoolean right value' negated' =>
      left.equals right && value == value' && negated == negated'
  | .between subject low high negated, .between subject' low' high' negated' =>
      subject.equals subject' && low.equals low' && high.equals high' && negated == negated'
  | .inList subject members negated, .inList subject' members' negated' =>
      subject.equals subject' && Expr.equalAll members members' && negated == negated'
  | _, _ => false

def Expr.equalAll : List Expr → List Expr → Bool
  | [], [] => true
  | left :: lefts, right :: rights => left.equals right && Expr.equalAll lefts rights
  | _, _ => false

def Expr.equalOptions : Option Expr → Option Expr → Bool
  | none, none => true
  | some left, some right => left.equals right
  | _, _ => false

def Expr.equalBranches : List (Expr × Expr) → List (Expr × Expr) → Bool
  | [], [] => true
  | (condition, result) :: lefts, (condition', result') :: rights =>
      condition.equals condition' && result.equals result' && Expr.equalBranches lefts rights
  | _, _ => false

def SelectItem.equals : SelectItem → SelectItem → Bool
  | .wildcard, .wildcard => true
  | .expression left label, .expression right label' => left.equals right && label == label'
  | _, _ => false

def SelectItem.equalAll : List SelectItem → List SelectItem → Bool
  | [], [] => true
  | left :: lefts, right :: rights => left.equals right && SelectItem.equalAll lefts rights
  | _, _ => false

def FromItem.equals : FromItem → FromItem → Bool
  | .table left label, .table right label' => left == right && label == label'
  | .query left label, .query right label' => left.equals right && label == label'
  | _, _ => false

def FromItem.equalOptions : Option FromItem → Option FromItem → Bool
  | none, none => true
  | some left, some right => left.equals right
  | _, _ => false

def JoinClause.equalAll : List JoinClause → List JoinClause → Bool
  | [], [] => true
  | ⟨kind, source, condition⟩ :: lefts, right :: rights =>
      kind == right.kind && source.equals right.source
        && Expr.equalOptions condition right.condition && JoinClause.equalAll lefts rights
  | _, _ => false

def SortClause.equalAll : List SortClause → List SortClause → Bool
  | [], [] => true
  | ⟨key, descending⟩ :: lefts, right :: rights =>
      key.equals right.key && descending == right.descending
        && SortClause.equalAll lefts rights
  | _, _ => false

def Select.equals : Select → Select → Bool
  | ⟨distinct, items, source, joins, filter, groupBy, having, orderBy, limit⟩, other =>
      distinct == other.distinct && SelectItem.equalAll items other.items
        && FromItem.equalOptions source other.source && JoinClause.equalAll joins other.joins
        && Expr.equalOptions filter other.filter && Expr.equalAll groupBy other.groupBy
        && Expr.equalOptions having other.having && SortClause.equalAll orderBy other.orderBy
        && limit == other.limit
end

end StreamQuery
