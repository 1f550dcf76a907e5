import StreamQuery.Plan.Context
namespace StreamQuery

/-! A join combines the rows of its two sides. A row on the left is a record that holds, for every
source joined so far, the row of that source under the source's name. -/

def qualify (label : String) (rows : List Value) : List Value :=
  rows.map fun row => .record [(label, row)]

structure JoinInput where
  left : List Value
  /-- The names of the sources on the left. -/
  leftLabels : List String
  right : List Value
  rightLabel : String

namespace JoinInput

def combine (input : JoinInput) (left right : Value) : Value :=
  .record (Record.insert (left.toRecord?.getD Record.empty) input.rightLabel right)

def nullLeft (input : JoinInput) : Value :=
  .record (Record.ofList (input.leftLabels.map fun label => (label, .null)))

end JoinInput

namespace NestedLoop

def accepts (condition : Option Predicate) (context : Context) (pair : Value) : Evaluation Bool :=
  match condition with
  | some predicate => predicate context pair
  | none => .ok true

def acceptedOf (condition : Option Predicate) (context : Context) :
    List Value → Evaluation (List Value)
  | [] => .ok []
  | pair :: rest =>
      (accepts condition context pair).andThen fun accepted =>
        (acceptedOf condition context rest).map fun others =>
          if accepted then pair :: others else others

/-- Takes each row with its partners; `padding` is what a row without a partner becomes. -/
def joinEach (condition : Option Predicate) (context : Context) (pairs : Value → List Value)
    (padding : Value → List Value) : List Value → Evaluation (List Value)
  | [] => .ok []
  | row :: rest =>
      (acceptedOf condition context (pairs row)).andThen fun accepted =>
        (joinEach condition context pairs padding rest).map fun others =>
          (if accepted.isEmpty then padding row else accepted) ++ others

def join (kind : JoinKind) (input : JoinInput) (condition : Option Predicate)
    (context : Context) : Evaluation (List Value) :=
  let fromLeft (left : Value) : List Value := input.right.map (input.combine left)
  let fromRight (right : Value) : List Value := input.left.map fun left => input.combine left right
  match kind with
  | .inner | .cross => joinEach condition context fromLeft (fun _ => []) input.left
  | .left =>
      joinEach condition context fromLeft (fun left => [input.combine left .null]) input.left
  | .right =>
      joinEach condition context fromRight (fun right => [input.combine input.nullLeft right])
        input.right

end NestedLoop

end StreamQuery
