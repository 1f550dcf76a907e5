import StreamQuery.Feature.Metadata
import StreamQuery.Function.Date
import StreamQuery.Plan.Choice
import StreamQuery.Syntax.Equality
namespace StreamQuery

/-! A feature is compiled for the expression that names it. It takes the forms of expression that
it can read, and an error names the others. -/

namespace Node

def operands? : Node → Option (List Compiled)
  | .call _ arguments => some arguments
  | .binary _ left right => some [left, right]
  | _ => none

def unsupported (expr : Expr) : Except QueryError α :=
  .error (.unsupportedExpression expr.text)

def values (parts : List Compiled) : Except QueryError (List Mapper) :=
  parts.mapM fun part => part.value.get

def operands (arity : Arity) (expr : Expr) (node : Node) : Except QueryError (List Mapper) :=
  match node.operands? with
  | none => unsupported expr
  | some parts => do
      arity.check expr parts.length
      values parts

def valueOr (fallback : Mapper) : Option Compiled → Except QueryError Mapper
  | none => .ok fallback
  | some part => part.value.get

end Node

namespace ValueFeature

def compileScalar (function : ScalarFunction) (expr : Expr) (node : Node) :
    Except QueryError Mapper := do
  let operands ← node.operands function.arity expr
  .ok <| Mapper.apply
    (fun values =>
      (function.result? values).getD (.error (function.arity.error expr values.length)))
    operands

def compileNewRecord (expr : Expr) (node : Node) : Except QueryError Mapper :=
  match node.operands? with
  | none => Node.unsupported expr
  | some parts =>
      if parts.length % 2 = 0 then do
        .ok (Mapper.apply (fun values => .ok (Value.newRecord values)) (← Node.values parts))
      else .error (.arity expr.text "an even number" parts.length)

def compileNow (metadata : Metadata) (expr : Expr) (node : Node) : Except QueryError Mapper := do
  let zone ← metadata.zones.chosen metadata.settings
  let operands ← node.operands (.between 0 1) expr
  .ok (Mapper.applyNow (fun time values => Value.formatNow zone time values.head?) operands)

def compileFormatDate (metadata : Metadata) (expr : Expr) (node : Node) :
    Except QueryError Mapper := do
  let zone ← metadata.zones.chosen metadata.settings
  let arity := Arity.between 2 3
  let operands ← node.operands arity expr
  .ok <| Mapper.apply
    (fun values =>
      match values with
      | value :: pattern :: rest => Value.formatDate metadata.zones zone value pattern rest.head?
      | _ => .error (arity.error expr values.length))
    operands

def compileCase (expr : Expr) : Node → Except QueryError Mapper
  | .caseWhen none branches otherwise => do
      let branches ← branches.mapM fun (condition, result) => do
        .ok (← condition.predicate.get, ← result.value.get)
      .ok (Mapper.searchedCase branches (← Node.valueOr (Mapper.constant .null) otherwise))
  | .caseWhen (some subject) branches otherwise => do
      let subject ← subject.value.get
      let branches ← branches.mapM fun (candidate, result) => do
        .ok (← candidate.value.get, ← result.value.get)
      .ok (Mapper.simpleCase subject branches (← Node.valueOr (Mapper.constant .null) otherwise))
  | _ => Node.unsupported expr

def compileCast (metadata : Metadata) (expr : Expr) : Node → Except QueryError Mapper
  | .cast operand target =>
      match metadata.castFeature? target with
      | none => .error (Metadata.missing .cast target expr.text)
      | some feature => do
          let operand ← operand.value.get
          .ok fun context => (operand context).thenCheck feature.apply
  | _ => Node.unsupported expr

def compileSlot (calls : List Call) (expr : Expr) : Node → Except QueryError Mapper
  | .call call _ =>
      match calls.findIdx? fun collected => collected.equals call with
      | some position => .ok fun context => .ok (context.aggregates.getD position .null)
      | none => Node.unsupported expr
  | _ => Node.unsupported expr

def compile (metadata : Metadata) (expr : Expr) (node : Node) :
    ValueFeature → Except QueryError Mapper
  | .property =>
      match node with
      | .column reference => .ok (Mapper.column reference)
      | _ => Node.unsupported expr
  | .subselect =>
      match node with
      | .subselect query plan => plan.get.map fun plan => plan.firstValue query
      | _ => Node.unsupported expr
  | .caseWhen => compileCase expr node
  | .cast => compileCast metadata expr node
  | .scalar function => compileScalar function expr node
  | .newRecord => compileNewRecord expr node
  | .now => compileNow metadata expr node
  | .formatDate => compileFormatDate metadata expr node
  | .slots calls => compileSlot calls expr node
  | .constant value => .ok (Mapper.constant value)
  | .constantFunction arity value => do
      .ok (Mapper.apply (fun _ => .ok value) (← node.operands arity expr))

end ValueFeature

namespace FilterFeature

def sides (expr : Expr) : Node → Except QueryError (Mapper × Mapper)
  | .binary _ left right => do .ok (← left.value.get, ← right.value.get)
  | .call _ [left, right] => do .ok (← left.value.get, ← right.value.get)
  | .call _ arguments => .error (.arity expr.text "2" arguments.length)
  | _ => Node.unsupported expr

def compilePair (test : Value → Value → Bool) (expr : Expr) (node : Node) :
    Except QueryError Predicate :=
  (sides expr node).map fun (left, right) => Predicate.ofPair test left right

def compileIsNull (expr : Expr) : Node → Except QueryError Predicate
  | .isNull subject negated =>
      subject.value.get.map (Predicate.ofValue fun value => value.isNull != negated)
  | .call _ [subject] => subject.value.get.map (Predicate.ofValue Value.isNull)
  | .call _ arguments => .error (.arity expr.text "1" arguments.length)
  | _ => Node.unsupported expr

def compile (expr : Expr) (node : Node) : FilterFeature → Except QueryError Predicate
  | .compare comparison => compilePair comparison.holds expr node
  | .like => compilePair Value.isLike expr node
  | .between =>
      match node with
      | .between subject low high negated => do
          .ok (Predicate.between negated (← subject.value.get) (← low.value.get) (← high.value.get))
      | _ => Node.unsupported expr
  | .inList =>
      match node with
      | .inList subject members negated => do
          .ok (Predicate.inList negated (← subject.value.get) (← Node.values members))
      | _ => Node.unsupported expr
  | .isNull => compileIsNull expr node
  | .isBoolean =>
      match node with
      | .isBoolean subject value negated =>
          subject.value.get.map
            (Predicate.ofValue fun actual => actual.isExactly value != negated)
      | _ => Node.unsupported expr
  | .constant holds => .ok (Predicate.constant holds)

end FilterFeature

end StreamQuery
