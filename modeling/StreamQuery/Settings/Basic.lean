import StreamQuery.Error
namespace StreamQuery

/-! What a query is run with, besides its sources. -/

structure Settings where
  errorPolicy : ErrorPolicy
  /-- The groups that one window may hold at a time, if they are bounded. -/
  maxGroups : Option Nat
  /-- The source of a statement that names none. -/
  defaultSource : String
  /-- The name of the zone in which dates are written, if it is not the local one. -/
  timezone : Option String
deriving DecidableEq, Repr

namespace Settings

def default : Settings :=
  ⟨.fail, none, "dual", none⟩

end Settings

end StreamQuery
