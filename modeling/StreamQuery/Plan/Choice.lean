import StreamQuery.Feature.Basic
import StreamQuery.Plan.Basic
import StreamQuery.Text.Pattern
namespace StreamQuery

/-! Tests of evaluated operands. -/

namespace Value

/-- Nothing is like a null, and nothing is a pattern that is null. -/
def isLike (value pattern : Value) : Bool :=
  !value.isNull && !pattern.isNull && Text.like value.toString pattern.toString

/-- A null on any place lies neither inside of the bounds nor outside. -/
def liesBetween (negated : Bool) (value low high : Value) : Bool :=
  if value.isNull || low.isNull || high.isNull then false
  else
    (Comparison.greaterOrEqual.holds value low && Comparison.lessOrEqual.holds value high) != negated

/-- A list is matched if one of its items is. -/
def matchesMember (value : Value) : Value → Bool
  | .list items => items.any value.queryEquals
  | member => value.queryEquals member

def isExactly (wanted : Bool) : Value → Bool
  | .boolean value => value == wanted
  | .string text => boolOfText? text == some wanted
  | _ => false

end Value

/-! Predicates over the values of mappers. -/

namespace Predicate

def ofValue (test : Value → Bool) (subject : Mapper) : Predicate := fun context row =>
  (subject (context.withRow row)).map test

def ofPair (test : Value → Value → Bool) (left right : Mapper) : Predicate := fun context row =>
  let context := context.withRow row
  (Evaluation.both (left context) (right context)).map fun (left, right) => test left right

def between (negated : Bool) (subject low high : Mapper) : Predicate := fun context row =>
  let context := context.withRow row
  (Evaluation.both (subject context) (Evaluation.both (low context) (high context))).map
    fun (value, low, high) => value.liesBetween negated low high

/-- The members are evaluated one after the other, up to the first that matches. -/
def findMember (context : Context) (value : Value) : List Mapper → Evaluation Bool
  | [] => .ok false
  | member :: rest =>
      (member context).andThen fun member =>
        if value.matchesMember member then .ok true else findMember context value rest

/-- A null is neither in a list nor outside. -/
def inList (negated : Bool) (subject : Mapper) (members : List Mapper) : Predicate :=
  fun context row =>
    let context := context.withRow row
    (subject context).andThen fun value =>
      if value.isNull then .ok false
      else (findMember context value members).map (· != negated)

end Predicate

def Mapper.withSign (sign : Sign) (operand : Mapper) : Mapper := fun context =>
  (operand context).thenCheck (Value.withSign sign)

/-! Choices among mappers. Nothing is evaluated before it is known to be needed. -/

namespace Mapper

def firstHolding (context : Context) (otherwise : Mapper) :
    List (Predicate × Mapper) → Evaluation Value
  | [] => otherwise context
  | (condition, result) :: rest =>
      (condition context context.row).andThen fun holds =>
        if holds then result context else firstHolding context otherwise rest

def searchedCase (branches : List (Predicate × Mapper)) (otherwise : Mapper) : Mapper :=
  fun context => (firstHolding context otherwise branches).defer

def firstEqual (context : Context) (value : Value) (otherwise : Mapper) :
    List (Mapper × Mapper) → Evaluation Value
  | [] => otherwise context
  | (candidate, result) :: rest =>
      (candidate context).andThen fun candidate =>
        if value.queryEquals candidate then result context
        else firstEqual context value otherwise rest

def simpleCase (subject : Mapper) (branches : List (Mapper × Mapper)) (otherwise : Mapper) :
    Mapper := fun context =>
  ((subject context).andThen fun value => firstEqual context value otherwise branches).defer

end Mapper

/-! A select in value position gives its first row; if it selects one expression, that column of
it. -/

namespace Select

def column? (query : Select) : Option String :=
  match query.items with
  | [.expression value label] => some (SelectItem.expression value label).outputName
  | _ => none

def valueOfRow (query : Select) (row : Value) : Value :=
  match query.column?, row with
  | some column, .record fields => (Record.get? fields column).getD .null
  | _, row => row

def valueOfFirst (query : Select) : Option (Except QueryError Value) → Except QueryError Value
  | none => .ok .null
  | some item => item.map query.valueOfRow

end Select

def Plan.firstValue (plan : Plan) (query : Select) : Mapper := fun context =>
  (plan.rows true context).map fun stream now => (stream now).first.map query.valueOfFirst

end StreamQuery
