import StreamQuery.Value.Hash
import StreamQuery.Value.Order
namespace StreamQuery

/-! The index of a table of groups: it finds the slot of a group by its key. The entries are kept in
chains, and a key is looked for in the chain of its hash only. -/

structure SlotIndex where
  chains : List (List (List Value × Nat))
  nonempty : 0 < chains.length

namespace SlotIndex

def width : Nat := 16

def empty : SlotIndex :=
  ⟨List.replicate width [], by decide⟩

def chainOf (index : SlotIndex) (key : List Value) : Nat :=
  Value.keyHash key % index.chains.length

def find? (index : SlotIndex) (key : List Value) : Option Nat :=
  ((index.chains.getD (index.chainOf key) []).find? fun entry =>
    Value.equalItems entry.1 key).map fun (_, slot) => slot

def insert (index : SlotIndex) (key : List Value) (slot : Nat) : SlotIndex where
  chains := index.chains.modify (index.chainOf key) ((key, slot) :: ·)
  nonempty := by
    rw [List.length_modify]
    exact index.nonempty

end SlotIndex

end StreamQuery
