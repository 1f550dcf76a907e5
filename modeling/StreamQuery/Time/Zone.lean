import StreamQuery.Time.Calendar
namespace StreamQuery

/-! Time zones: the offset in force at an instant. Which zones there are is not said here. -/

structure Offset where
  seconds : Int
  abbreviation : String
deriving DecidableEq, Repr

structure Zone where
  offsetAt : Int → Offset

/-- The zones that are known, and the one in force where none is chosen. -/
structure Zones where
  usual : Zone
  named? : String → Option Zone

namespace Zone

def fixed (seconds : Int) (abbreviation : String) : Zone :=
  ⟨fun _ => ⟨seconds, abbreviation⟩⟩

def default : Zone :=
  fixed 0 "+00:00"

end Zone

end StreamQuery
