import StreamQuery.Plan.Feature
import StreamQuery.Window.Duration
namespace StreamQuery

/-! Windows split the records of a group by. A time window lasts `size` milliseconds from the start
of the run or from a multiple of `slide` after it, a count window holds `size` records from a
multiple of `skip` on, and a predicate ends one window and starts the next. -/

inductive Window where
  | time (size slide : Nat)
  | count (size skip : Nat)
  | predicate (predicate : Predicate)

namespace Window

/-- The windows that a position lies in: those of number `id` with
`id * step ≤ position < id * step + size`. -/
def covering (position size step : Nat) : List Nat :=
  let last := position / step
  let first := if size ≤ position then (position - size) / step + 1 else 0
  (List.range (last + 1 - first)).map (first + ·)

theorem mem_covering {position size step id : Nat} (positive : 0 < step) :
    id ∈ covering position size step ↔ id * step ≤ position ∧ position < id * step + size := by
  simp only [covering, List.mem_map, List.mem_range]
  have begun : id ≤ position / step ↔ id * step ≤ position := Nat.le_div_iff_mul_le positive
  rw [← begun]
  by_cases full : size ≤ position
  · have unfinished : (position - size) / step < id ↔ position - size < id * step :=
      Nat.div_lt_iff_lt_mul positive
    have shifted : position < id * step + size ↔ position - size < id * step := by omega
    rw [if_pos full, shifted, ← unfinished]
    constructor
    · rintro ⟨offset, bound, rfl⟩
      omega
    · rintro ⟨_, _⟩
      exact ⟨id - ((position - size) / step + 1), by omega, by omega⟩
  · rw [if_neg full]
    constructor
    · rintro ⟨offset, bound, rfl⟩
      omega
    · rintro ⟨_, _⟩
      exact ⟨id, by omega, by omega⟩

/-! Window calls. -/

def positiveDuration (call : Call) (millis : Nat) : Except QueryError Nat :=
  if millis = 0 then .error (.cast call.text "duration") else .ok millis

def duration (call : Call) : Expr → Except QueryError Nat
  | .literal (.string text) => (Duration.ofString text).bind (positiveDuration call)
  | .literal (.integer millis) => positiveDuration call millis.toInt.toNat
  | _ => .error (.cast call.text "duration")

def recordCount (call : Call) (count : Int64) : Except QueryError Nat :=
  if 0 < count.toInt then .ok count.toInt.toNat else .error (.cast call.text "window size")

def tumbling (call : Call) (argument : Expr) : Except QueryError Window :=
  (duration call argument).map fun size => .time size size

def sliding (call : Call) (first second : Expr) : Except QueryError Window := do
  let first ← duration call first
  let second ← duration call second
  .ok (.time (max first second) (min first second))

end Window

namespace GroupFeature

def compileInterval (call : Call) : Except QueryError Window :=
  match call.arguments with
  | [argument] => Window.tumbling call argument
  | arguments => .error (.arity call.text "1" arguments.length)

def compileWindow (call : Call) (arguments : List Compiled) : Except QueryError Window :=
  match call.arguments, arguments with
  | [.literal (.integer size)], _ =>
      (Window.recordCount call size).map fun size => .count size size
  | [.literal (.string text)], _ => Window.tumbling call (.literal (.string text))
  | [_], [argument] => argument.predicate.get.map .predicate
  | [.literal (.integer size), .literal (.integer skip)], _ => do
      .ok (.count (← Window.recordCount call size) (← Window.recordCount call skip))
  | [first, second], _ => Window.sliding call first second
  | arguments, _ => .error (.arity call.text "1..=2" arguments.length)

def compile (call : Call) (arguments : List Compiled) : GroupFeature → Except QueryError Window
  | .interval => compileInterval call
  | .window => compileWindow call arguments

end GroupFeature

end StreamQuery
