import StreamQuery.Plan.Feature
import StreamQuery.Syntax.Literal
namespace StreamQuery

/-! The two readings of a node. A condition in value position becomes a boolean, and a value that
stands for a condition holds if it is truthy. Calls and operators are known by their names: a value
looks for a function first and then for a test, a condition the other way round. -/

namespace Node

def byFunction? (metadata : Metadata) (name : String) (expr : Expr) (node : Node) :
    Option (Except QueryError Mapper) :=
  (metadata.valueFeature? name).map fun feature => feature.compile metadata expr node

def byTest? (metadata : Metadata) (name : String) (expr : Expr) (node : Node) :
    Option (Except QueryError Predicate) :=
  (metadata.filterFeature? name).map fun feature => feature.compile expr node

def missing (category : FeatureCategory) (name : String) (expr : Expr) : Except QueryError α :=
  .error (Metadata.missing category name expr.text)

def namedValue (metadata : Metadata) (category : FeatureCategory) (name : String) (expr : Expr)
    (node : Node) : Except QueryError Mapper :=
  match node.byFunction? metadata name expr with
  | some value => value
  | none =>
      match node.byTest? metadata name expr with
      | some predicate => predicate.map Predicate.toMapper
      | none => missing category name expr

def namedPredicate (metadata : Metadata) (category : FeatureCategory) (name : String)
    (expr : Expr) (node : Node) : Except QueryError Predicate :=
  match node.byTest? metadata name expr with
  | some predicate => predicate
  | none =>
      match node.byFunction? metadata name expr with
      | some value => value.map Mapper.toPredicate
      | none => missing category name expr

def requiredValue (metadata : Metadata) (name : String) (expr : Expr) (node : Node) :
    Except QueryError Mapper :=
  (node.byFunction? metadata name expr).getD (missing .valueMap name expr)

def requiredPredicate (metadata : Metadata) (name : String) (expr : Expr) (node : Node) :
    Except QueryError Predicate :=
  (node.byTest? metadata name expr).getD (missing .filter name expr)

def connected (connect : Predicate → Predicate → Predicate) (left right : Compiled) :
    Except QueryError Predicate := do
  .ok (connect (← left.predicate.get) (← right.predicate.get))

def condition? (metadata : Metadata) (expr : Expr) (node : Node) :
    Option (Except QueryError Predicate) :=
  match node with
  | .binary .and left right => some (connected Predicate.and left right)
  | .binary .or left right => some (connected Predicate.or left right)
  | .not inner => some (inner.predicate.get.map Predicate.negate)
  | .isNull .. => some (node.requiredPredicate metadata "is_null" expr)
  | .isBoolean .. => some (node.requiredPredicate metadata "is_boolean" expr)
  | .between .. => some (node.requiredPredicate metadata "between" expr)
  | .inList .. => some (node.requiredPredicate metadata "in" expr)
  | _ => none

def value (metadata : Metadata) (expr : Expr) (node : Node) : Except QueryError Mapper :=
  match node with
  | .literal constant => constant.toValue.map Mapper.constant
  | .column _ => node.requiredValue metadata "property" expr
  | .call application _ => node.namedValue metadata .valueMap application.name expr
  | .binary (.named symbol) _ _ => node.namedValue metadata .filter symbol expr
  | .signed sign operand => operand.value.get.map (Mapper.withSign sign)
  | .cast _ _ => node.requiredValue metadata "cast" expr
  | .caseWhen _ _ _ => node.requiredValue metadata "case-when" expr
  | .parenthesis inner => inner.value.get
  | .subselect _ _ => node.requiredValue metadata "select" expr
  | node =>
      match node.condition? metadata expr with
      | some predicate => predicate.map Predicate.toMapper
      | none => unsupported expr

def predicate (metadata : Metadata) (expr : Expr) (node : Node) : Except QueryError Predicate :=
  match node with
  | .call application _ => node.namedPredicate metadata .valueMap application.name expr
  | .binary (.named symbol) _ _ => node.namedPredicate metadata .filter symbol expr
  | .parenthesis inner => inner.predicate.get
  | node =>
      match node.condition? metadata expr with
      | some predicate => predicate
      | none => (node.value metadata expr).map Mapper.toPredicate

def compile (metadata : Metadata) (expr : Expr) (node : Node) : Compiled where
  value := Thunk.mk fun _ => node.value metadata expr
  predicate := Thunk.mk fun _ => node.predicate metadata expr

end Node

end StreamQuery
