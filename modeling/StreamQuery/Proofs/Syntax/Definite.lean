import StreamQuery.Proofs.Value.Equality
import StreamQuery.Syntax.Equality
namespace StreamQuery

/-! Where every float literal is a number and none is the zero below zero, structural equality is
equality. Of literals without these properties one that is not a number differs from itself, and
the two zeros are taken for one. -/

namespace Binary

variable {format : BinaryFormat} {x y : Binary format}

def isDefinite (x : Binary format) : Bool :=
  !x.isNaN && !(x.isNegative && x.isZero)

theorem equals_iff (definite : x.isDefinite) (otherDefinite : y.isDefinite) :
    x.equals y ↔ x = y := by
  simp only [isDefinite, isZero, Bool.and_eq_true, Bool.not_eq_true', Bool.and_eq_false_iff,
    beq_eq_false_iff_ne] at definite otherDefinite
  constructor
  · intro equal
    have keys : x.orderKey = y.orderKey := by
      simpa [equals, compare?, definite.1, otherDefinite.1] using equal
    have signs : x.isNegative = y.isNegative := by
      cases sign : x.isNegative <;> cases otherSign : y.isNegative <;>
        simp [orderKey, sign, otherSign] at keys definite otherDefinite ⊢ <;> omega
    apply eq_of_magnitude_eq signs
    cases sign : y.isNegative <;> simp [orderKey, signs, sign] at keys <;> omega
  · rintro rfl
    simp [equals, compare?, definite.1]

end Binary

namespace Literal

def isDefinite : Literal → Bool
  | .float value => value.isDefinite
  | _ => true

theorem equals_iff {left right : Literal} (definite : left.isDefinite)
    (otherDefinite : right.isDefinite) : left.equals right ↔ left = right := by
  cases left with
  | float value =>
      cases right with
      | float other => simp [equals, Binary.equals_iff definite otherDefinite]
      | _ => simp [equals]
  | _ => cases right <;> simp [equals]

end Literal

mutual
def Call.isDefinite : Call → Bool
  | ⟨_, arguments, _, _⟩ => Expr.allDefinite arguments

/-- All literals are definite, also those of selects inside of the expression. -/
def Expr.isDefinite : Expr → Bool
  | .literal value => value.isDefinite
  | .column _ => true
  | .call call => call.isDefinite
  | .binary _ left right => left.isDefinite && right.isDefinite
  | .signed _ operand | .cast operand _ => operand.isDefinite
  | .caseWhen subject branches otherwise =>
      Expr.optionDefinite subject && Expr.branchesDefinite branches
        && Expr.optionDefinite otherwise
  | .parenthesis inner | .not inner => inner.isDefinite
  | .subselect query => query.isDefinite
  | .isNull subject _ | .isBoolean subject _ _ => subject.isDefinite
  | .between subject low high _ => subject.isDefinite && low.isDefinite && high.isDefinite
  | .inList subject members _ => subject.isDefinite && Expr.allDefinite members

def Expr.allDefinite : List Expr → Bool
  | [] => true
  | head :: rest => head.isDefinite && Expr.allDefinite rest

def Expr.optionDefinite : Option Expr → Bool
  | none => true
  | some expr => expr.isDefinite

def Expr.branchesDefinite : List (Expr × Expr) → Bool
  | [] => true
  | (condition, result) :: rest =>
      condition.isDefinite && result.isDefinite && Expr.branchesDefinite rest

def SelectItem.allDefinite : List SelectItem → Bool
  | [] => true
  | .wildcard :: rest => SelectItem.allDefinite rest
  | .expression value _ :: rest => value.isDefinite && SelectItem.allDefinite rest

def FromItem.isDefinite : FromItem → Bool
  | .table _ _ => true
  | .query query _ => query.isDefinite

def FromItem.optionDefinite : Option FromItem → Bool
  | none => true
  | some item => item.isDefinite

def JoinClause.allDefinite : List JoinClause → Bool
  | [] => true
  | ⟨_, source, condition⟩ :: rest =>
      source.isDefinite && Expr.optionDefinite condition && JoinClause.allDefinite rest

def SortClause.allDefinite : List SortClause → Bool
  | [] => true
  | ⟨key, _⟩ :: rest => key.isDefinite && SortClause.allDefinite rest

def Select.isDefinite : Select → Bool
  | ⟨_, items, source, joins, filter, groupBy, having, orderBy, _⟩ =>
      SelectItem.allDefinite items && FromItem.optionDefinite source
        && JoinClause.allDefinite joins && Expr.optionDefinite filter && Expr.allDefinite groupBy
        && Expr.optionDefinite having && SortClause.allDefinite orderBy
end

mutual
theorem Call.equals_iff : (left right : Call) → left.isDefinite → right.isDefinite →
    (left.equals right ↔ left = right)
  | ⟨name, arguments, star, distinct⟩, ⟨name', arguments', star', distinct'⟩, definite, other => by
      simp only [Call.isDefinite] at definite other
      simp [Call.equals, Expr.equalAll_iff arguments arguments' definite other, and_assoc]

theorem Expr.equals_iff : (left right : Expr) → left.isDefinite → right.isDefinite →
    (left.equals right ↔ left = right)
  | .literal value, right, definite, other => by
      cases right with
      | literal value' => simp [Expr.equals, Literal.equals_iff definite other]
      | _ => simp [Expr.equals]
  | .column reference, right, _, _ => by
      cases right <;> simp [Expr.equals]
  | .call call, right, definite, other => by
      cases right with
      | call call' => simp [Expr.equals, Call.equals_iff call call' definite other]
      | _ => simp [Expr.equals]
  | .binary operator first second, right, definite, other => by
      cases right with
      | binary operator' first' second' =>
          simp only [Expr.isDefinite, Bool.and_eq_true] at definite other
          simp [Expr.equals, Expr.equals_iff first first' definite.1 other.1,
            Expr.equals_iff second second' definite.2 other.2, and_assoc]
      | _ => simp [Expr.equals]
  | .signed sign operand, right, definite, other => by
      cases right with
      | signed sign' operand' => simp [Expr.equals, Expr.equals_iff operand operand' definite other]
      | _ => simp [Expr.equals]
  | .cast operand target, right, definite, other => by
      cases right with
      | cast operand' target' => simp [Expr.equals, Expr.equals_iff operand operand' definite other]
      | _ => simp [Expr.equals]
  | .caseWhen subject branches otherwise, right, definite, other => by
      cases right with
      | caseWhen subject' branches' otherwise' =>
          simp only [Expr.isDefinite, Bool.and_eq_true] at definite other
          simp [Expr.equals, Expr.equalOptions_iff subject subject' definite.1.1 other.1.1,
            Expr.equalBranches_iff branches branches' definite.1.2 other.1.2,
            Expr.equalOptions_iff otherwise otherwise' definite.2 other.2, and_assoc]
      | _ => simp [Expr.equals]
  | .parenthesis inner, right, definite, other => by
      cases right with
      | parenthesis inner' => simp [Expr.equals, Expr.equals_iff inner inner' definite other]
      | _ => simp [Expr.equals]
  | .subselect query, right, definite, other => by
      cases right with
      | subselect query' => simp [Expr.equals, Select.equals_iff query query' definite other]
      | _ => simp [Expr.equals]
  | .not inner, right, definite, other => by
      cases right with
      | not inner' => simp [Expr.equals, Expr.equals_iff inner inner' definite other]
      | _ => simp [Expr.equals]
  | .isNull subject negated, right, definite, other => by
      cases right with
      | isNull subject' negated' =>
          simp [Expr.equals, Expr.equals_iff subject subject' definite other]
      | _ => simp [Expr.equals]
  | .isBoolean subject value negated, right, definite, other => by
      cases right with
      | isBoolean subject' value' negated' =>
          simp [Expr.equals, Expr.equals_iff subject subject' definite other, and_assoc]
      | _ => simp [Expr.equals]
  | .between subject low high negated, right, definite, other => by
      cases right with
      | between subject' low' high' negated' =>
          simp only [Expr.isDefinite, Bool.and_eq_true] at definite other
          simp [Expr.equals, Expr.equals_iff subject subject' definite.1.1 other.1.1,
            Expr.equals_iff low low' definite.1.2 other.1.2,
            Expr.equals_iff high high' definite.2 other.2, and_assoc]
      | _ => simp [Expr.equals]
  | .inList subject members negated, right, definite, other => by
      cases right with
      | inList subject' members' negated' =>
          simp only [Expr.isDefinite, Bool.and_eq_true] at definite other
          simp [Expr.equals, Expr.equals_iff subject subject' definite.1 other.1,
            Expr.equalAll_iff members members' definite.2 other.2, and_assoc]
      | _ => simp [Expr.equals]

theorem Expr.equalAll_iff : (lefts rights : List Expr) → Expr.allDefinite lefts →
    Expr.allDefinite rights → (Expr.equalAll lefts rights ↔ lefts = rights)
  | [], [], _, _ | [], _ :: _, _, _ | _ :: _, [], _, _ => by simp [Expr.equalAll]
  | left :: lefts, right :: rights, definite, other => by
      simp only [Expr.allDefinite, Bool.and_eq_true] at definite other
      simp [Expr.equalAll, Expr.equals_iff left right definite.1 other.1,
        Expr.equalAll_iff lefts rights definite.2 other.2]

theorem Expr.equalOptions_iff : (left right : Option Expr) → Expr.optionDefinite left →
    Expr.optionDefinite right → (Expr.equalOptions left right ↔ left = right)
  | none, none, _, _ | none, some _, _, _ | some _, none, _, _ => by simp [Expr.equalOptions]
  | some left, some right, definite, other => by
      simp [Expr.equalOptions, Expr.equals_iff left right definite other]

theorem Expr.equalBranches_iff : (lefts rights : List (Expr × Expr)) →
    Expr.branchesDefinite lefts → Expr.branchesDefinite rights →
    (Expr.equalBranches lefts rights ↔ lefts = rights)
  | [], [], _, _ | [], _ :: _, _, _ | _ :: _, [], _, _ => by simp [Expr.equalBranches]
  | (condition, result) :: lefts, (condition', result') :: rights, definite, other => by
      simp only [Expr.branchesDefinite, Bool.and_eq_true] at definite other
      simp [Expr.equalBranches, Expr.equals_iff condition condition' definite.1.1 other.1.1,
        Expr.equals_iff result result' definite.1.2 other.1.2,
        Expr.equalBranches_iff lefts rights definite.2 other.2]

theorem SelectItem.equalAll_iff : (lefts rights : List SelectItem) →
    SelectItem.allDefinite lefts → SelectItem.allDefinite rights →
    (SelectItem.equalAll lefts rights ↔ lefts = rights)
  | [], [], _, _ | [], _ :: _, _, _ | _ :: _, [], _, _ => by simp [SelectItem.equalAll]
  | .wildcard :: lefts, .wildcard :: rights, definite, other => by
      simp [SelectItem.equalAll, SelectItem.equals,
        SelectItem.equalAll_iff lefts rights definite other]
  | .wildcard :: _, .expression _ _ :: _, _, _ | .expression _ _ :: _, .wildcard :: _, _, _ => by
      simp [SelectItem.equalAll, SelectItem.equals]
  | .expression value label :: lefts, .expression value' label' :: rights, definite, other => by
      simp only [SelectItem.allDefinite, Bool.and_eq_true] at definite other
      simp [SelectItem.equalAll, SelectItem.equals,
        Expr.equals_iff value value' definite.1 other.1,
        SelectItem.equalAll_iff lefts rights definite.2 other.2]

theorem FromItem.equals_iff : (left right : FromItem) → left.isDefinite → right.isDefinite →
    (left.equals right ↔ left = right)
  | .table _ _, .table _ _, _, _ | .table _ _, .query _ _, _, _
  | .query _ _, .table _ _, _, _ => by simp [FromItem.equals]
  | .query query label, .query query' label', definite, other => by
      simp [FromItem.equals, Select.equals_iff query query' definite other]

theorem FromItem.equalOptions_iff : (left right : Option FromItem) →
    FromItem.optionDefinite left → FromItem.optionDefinite right →
    (FromItem.equalOptions left right ↔ left = right)
  | none, none, _, _ | none, some _, _, _ | some _, none, _, _ => by
      simp [FromItem.equalOptions]
  | some left, some right, definite, other => by
      simp [FromItem.equalOptions, FromItem.equals_iff left right definite other]

theorem JoinClause.equalAll_iff : (lefts rights : List JoinClause) →
    JoinClause.allDefinite lefts → JoinClause.allDefinite rights →
    (JoinClause.equalAll lefts rights ↔ lefts = rights)
  | [], [], _, _ | [], _ :: _, _, _ | _ :: _, [], _, _ => by simp [JoinClause.equalAll]
  | ⟨kind, source, condition⟩ :: lefts, ⟨kind', source', condition'⟩ :: rights, definite, other => by
      simp only [JoinClause.allDefinite, Bool.and_eq_true] at definite other
      simp [JoinClause.equalAll, FromItem.equals_iff source source' definite.1.1 other.1.1,
        Expr.equalOptions_iff condition condition' definite.1.2 other.1.2,
        JoinClause.equalAll_iff lefts rights definite.2 other.2, and_assoc]

theorem SortClause.equalAll_iff : (lefts rights : List SortClause) →
    SortClause.allDefinite lefts → SortClause.allDefinite rights →
    (SortClause.equalAll lefts rights ↔ lefts = rights)
  | [], [], _, _ | [], _ :: _, _, _ | _ :: _, [], _, _ => by simp [SortClause.equalAll]
  | ⟨key, descending⟩ :: lefts, ⟨key', descending'⟩ :: rights, definite, other => by
      simp only [SortClause.allDefinite, Bool.and_eq_true] at definite other
      simp [SortClause.equalAll, Expr.equals_iff key key' definite.1 other.1,
        SortClause.equalAll_iff lefts rights definite.2 other.2]

theorem Select.equals_iff : (left right : Select) → left.isDefinite → right.isDefinite →
    (left.equals right ↔ left = right)
  | ⟨distinct, items, source, joins, filter, groupBy, having, orderBy, limit⟩,
    ⟨distinct', items', source', joins', filter', groupBy', having', orderBy', limit'⟩,
    definite, other => by
      simp only [Select.isDefinite, Bool.and_eq_true] at definite other
      rcases definite with ⟨⟨⟨⟨⟨⟨items_, source_⟩, joins_⟩, filter_⟩, groups_⟩, having_⟩, order_⟩
      rcases other with ⟨⟨⟨⟨⟨⟨items_', source_'⟩, joins_'⟩, filter_'⟩, groups_'⟩, having_'⟩, order_'⟩
      simp [Select.equals, SelectItem.equalAll_iff items items' items_ items_',
        FromItem.equalOptions_iff source source' source_ source_',
        JoinClause.equalAll_iff joins joins' joins_ joins_',
        Expr.equalOptions_iff filter filter' filter_ filter_',
        Expr.equalAll_iff groupBy groupBy' groups_ groups_',
        Expr.equalOptions_iff having having' having_ having_',
        SortClause.equalAll_iff orderBy orderBy' order_ order_', and_assoc]
end

end StreamQuery
