import StreamQuery.Stream.Feed
import StreamQuery.Value.Order
namespace StreamQuery

/-! The stages that a stream passes through. -/

structure Limit where
  /-- Rows to drop in front. -/
  offset : Nat
  /-- Items to keep, if they are bounded. -/
  count : Option Nat
deriving DecidableEq, Repr

structure Shaped where
  row : Value
  keys : List Value

namespace Feed

/-- Takes a step with every value; a step may drop it. A step that fails drops the value or ends
the stream, as the policy says; an error among the items is passed on and ends the stream. -/
def process (policy : ErrorPolicy) (step : α → Evaluation (Option β)) : Feed α → Nat → Feed β
  | .finished, _ => .finished
  | .item (.error error) _, _ => .item (.error error) fun _ => .finished
  | .item (.ok value) rest, now =>
      afterTask ((step value).run now) now fun result now =>
        match result with
        | .ok (some output) => .item (.ok output) fun now => process policy step (rest now) now
        | .ok none => process policy step (rest now) now
        | .error error =>
            if policy.skips error then process policy step (rest now) now
            else .item (.error error) fun _ => .finished
  | .waiting deadline resume, _ =>
      .waiting deadline fun now => process policy step (resume now) now
  | .opening name next, now =>
      .opening name fun answer => process policy step (next answer) now
  | .silent, _ => .silent

/-- Drops rows that equal an earlier one after normalization. -/
def distinct (seen : List Value) : Feed Shaped → Nat → Feed Shaped
  | .finished, _ => .finished
  | .item (.error error) rest, _ =>
      .item (.error error) fun now => distinct seen (rest now) now
  | .item (.ok shaped) rest, now =>
      let key := shaped.row.normalized
      if seen.any key.equals then distinct seen (rest now) now
      else .item (.ok shaped) fun now => distinct (key :: seen) (rest now) now
  | .waiting deadline resume, _ => .waiting deadline fun now => distinct seen (resume now) now
  | .opening name next, now => .opening name fun answer => distinct seen (next answer) now
  | .silent, _ => .silent

end Feed

/-! Sorting. Keys are compared one after the other, each in its direction, and rows whose keys are
equal keep their order. -/

namespace Shaped

def compareKeys : List Bool → List Value → List Value → Ordering
  | descending :: rest, left :: lefts, right :: rights =>
      (if descending then right.order left else left.order right).then
        (compareKeys rest lefts rights)
  | _, _, _ => .eq

def sort (descending : List Bool) (rows : List Shaped) : List Shaped :=
  rows.mergeSort fun left right => (compareKeys descending left.keys right.keys).isLE

end Shaped

namespace Feed

/-- All rows in order once the last one has come; an error takes their place. -/
def sort (descending : List Bool) (feed : Feed Shaped) (now : Nat) : Feed Shaped :=
  afterTask (collect [] feed now) now fun result =>
    ofResult (result.map (Shaped.sort descending))

/-- Drops values in front, but no error. -/
def skip : Nat → Feed α → Nat → Feed α
  | _, .finished, _ => .finished
  | offset, .item (.error error) rest, _ =>
      .item (.error error) fun now => skip offset (rest now) now
  | 0, .item (.ok value) rest, _ => .item (.ok value) fun now => skip 0 (rest now) now
  | offset + 1, .item (.ok _) rest, now => skip offset (rest now) now
  | offset, .waiting deadline resume, _ =>
      .waiting deadline fun now => skip offset (resume now) now
  | offset, .opening name next, now => .opening name fun answer => skip offset (next answer) now
  | _, .silent, _ => .silent

/-- Ends after so many further items, one at least. -/
def take (count : Nat) : Feed α → Feed α
  | .finished => .finished
  | .item entry rest =>
      .item entry fun now => if count ≤ 1 then .finished else take (count - 1) (rest now)
  | .waiting deadline resume => .waiting deadline fun now => take count (resume now)
  | .opening name next => .opening name fun answer => take count (next answer)
  | .silent => .silent

end Feed

namespace Limit

def apply (limit : Limit) (stream : Stream α) : Stream α := fun now =>
  match limit.count with
  | none => Feed.skip limit.offset (stream now) now
  | some 0 => .finished
  | some count => Feed.take count (Feed.skip limit.offset (stream now) now)

end Limit

end StreamQuery
