import StreamQuery.Error
import StreamQuery.Value.Basic
namespace StreamQuery

/-! What a data source delivers. Each delivery comes some milliseconds after it is asked for. After
the last one the source ends, or it stays silent for ever. -/

structure Delivery where
  after : Nat
  item : Except QueryError Value

structure Script where
  deliveries : List Delivery
  ends : Bool

namespace Script

def ofValues (values : List Value) : Script :=
  ⟨values.map fun value => ⟨0, .ok value⟩, true⟩

end Script

end StreamQuery
