import StreamQuery.Aggregate.Accumulator
import StreamQuery.Aggregate.SlotIndex
namespace StreamQuery

/-! The groups of one window, in the order of their first records, and the index of their keys. -/

structure Group where
  /-- The first record of the group. -/
  sample : Value
  accumulators : List Accumulator

structure GroupRow where
  sample : Value
  aggregates : List Value

def Group.finish (group : Group) : GroupRow :=
  ⟨group.sample, group.accumulators.map Accumulator.finish⟩

structure GroupTable where
  groups : List Group
  /-- The slots of the groups by their keys. -/
  index : SlotIndex

namespace GroupTable

def empty : GroupTable := ⟨[], .empty⟩

def size (table : GroupTable) : Nat :=
  table.groups.length

def contains (table : GroupTable) (key : List Value) : Bool :=
  (table.index.find? key).isSome

/-- Whether a record with this key finds its group or may open one. -/
def admits (table : GroupTable) (maxGroups : Option Nat) (key : List Value) :
    Except QueryError Unit :=
  match maxGroups with
  | some limit =>
      if !table.contains key && limit ≤ table.size then .error (.groupLimit limit) else .ok ()
  | none => .ok ()

/-- One operand for each accumulator; accumulators without one stay as they are. The first operand
that is refused ends the update, and the accumulators before it keep theirs. -/
def updateAll : List Accumulator → List Value → List Accumulator × Except QueryError Unit
  | accumulator :: accumulators, operand :: operands =>
      match accumulator.update operand with
      | .ok updated =>
          let (rest, result) := updateAll accumulators operands
          (updated :: rest, result)
      | .error error => (accumulator :: accumulators, .error error)
  | accumulators, _ => (accumulators, .ok ())

def push (table : GroupTable) (aggregations : List Aggregation) (key : List Value)
    (sample : Value) : GroupTable where
  groups := table.groups ++ [⟨sample, aggregations.map Accumulator.start⟩]
  index := table.index.insert key table.groups.length

def updateSlot (table : GroupTable) (slot : Nat) (operands : List Value) :
    GroupTable × Except QueryError Unit :=
  match table.groups[slot]? with
  | some group =>
      let (accumulators, result) := updateAll group.accumulators operands
      ({ table with groups := table.groups.set slot { group with accumulators } }, result)
  | none => (table, .ok ())

def update (table : GroupTable) (aggregations : List Aggregation) (maxGroups : Option Nat)
    (key : List Value) (sample : Value) (operands : List Value) :
    GroupTable × Except QueryError Unit :=
  match table.index.find? key with
  | some slot => table.updateSlot slot operands
  | none =>
      match table.admits maxGroups key with
      | .error error => (table, .error error)
      | .ok () => (table.push aggregations key sample).updateSlot table.size operands

def finish (table : GroupTable) : List GroupRow :=
  table.groups.map Group.finish

end GroupTable

end StreamQuery
