import StreamQuery.Aggregate.GroupTable
import StreamQuery.Plan.Aggregates
import StreamQuery.Window.Basic
namespace StreamQuery

/-! Grouping splits records by window and, inside of a window, by their keys. Every window holds its
own groups. -/

structure Grouping where
  keys : List Mapper
  window : Option Window
  aggregates : List AggregateSpec

abbrev OpenWindows := List (Nat × GroupTable)

namespace OpenWindows

def table (windows : OpenWindows) (id : Nat) : GroupTable :=
  ((windows.find? fun window => window.1 == id).map fun (_, table) => table).getD GroupTable.empty

def insert (id : Nat) (table : GroupTable) : OpenWindows → OpenWindows
  | [] => [(id, table)]
  | window :: rest =>
      if id = window.1 then (id, table) :: rest
      else if id < window.1 then (id, table) :: window :: rest
      else window :: insert id table rest

theorem table_insert (windows : OpenWindows) (id : Nat) (table : GroupTable) (wanted : Nat) :
    (windows.insert id table).table wanted =
      if id = wanted then table else windows.table wanted := by
  simp only [OpenWindows.table]
  induction windows with
  | nil =>
      by_cases same : id = wanted
      · simp only [insert, List.find?_cons, same, beq_self_eq_true, if_true, Option.map_some,
          Option.getD_some]
      · simp only [insert, List.find?_cons, beq_eq_false_iff_ne.2 same, if_neg same]
  | cons window rest induction =>
      by_cases same : id = wanted
      · subst same
        simp only [insert, if_true] at induction ⊢
        split
        · simp only [List.find?_cons, beq_self_eq_true, Option.map_some, Option.getD_some]
        · split
          · simp only [List.find?_cons, beq_self_eq_true, Option.map_some, Option.getD_some]
          · next different _ =>
              simp only [List.find?_cons, beq_eq_false_iff_ne.2 (Ne.symm different), induction]
      · simp only [insert, if_neg same] at induction ⊢
        split
        · next equal =>
            simp only [List.find?_cons, beq_eq_false_iff_ne.2 same, ← equal]
        · split
          · simp only [List.find?_cons, beq_eq_false_iff_ne.2 same]
          · cases found : window.1 == wanted <;>
              simp only [List.find?_cons, found, Option.map_some, Option.getD_some, induction]

def finish (windows : OpenWindows) : List GroupRow :=
  windows.flatMap fun (_, table) => table.finish

end OpenWindows

structure GroupState where
  windows : OpenWindows
  /-- The records accepted so far. -/
  seen : Nat
  /-- The number of the window that a predicate will end. -/
  current : Nat
  /-- Whether the predicate held for the record before. -/
  triggered : Bool

def GroupState.start : GroupState :=
  ⟨[], 0, 0, false⟩

structure Contribution where
  key : List Value
  operands : List Value
  /-- Whether the window predicate holds for it. -/
  triggers : Bool

namespace Grouping

def aggregations (grouping : Grouping) : List Aggregation :=
  grouping.aggregates.map (·.aggregation)

def evaluateInTurn (context : Context) : List Mapper → Evaluation (List Value)
  | [] => .ok []
  | mapper :: rest =>
      (mapper context).andThen fun value =>
        (evaluateInTurn context rest).map fun values => value :: values

def trigger (grouping : Grouping) (context : Context) : Evaluation Bool :=
  match grouping.window with
  | some (.predicate predicate) => predicate context context.row
  | _ => .ok false

def contribution (grouping : Grouping) (context : Context) : Evaluation Contribution :=
  (Mapper.all grouping.keys context).andThen fun key =>
    (evaluateInTurn context (grouping.aggregates.map AggregateSpec.operand)).andThen
      fun operands =>
        (grouping.trigger context).map fun triggers =>
          ⟨key.map Value.normalized, operands, triggers⟩

def windowsOf (grouping : Grouping) (state : GroupState) (elapsed : Nat) : List Nat :=
  match grouping.window with
  | none => [0]
  | some (.predicate _) => [state.current]
  | some (.count size skip) => Window.covering state.seen size skip
  | some (.time size slide) => Window.covering elapsed size slide

def checkOperands : List Aggregation → List Value → Except QueryError Unit
  | aggregation :: aggregations, operand :: operands => do
      aggregation.check operand
      checkOperands aggregations operands
  | _, _ => .ok ()

/-- Whether a record can be added to all of its windows. No aggregate may refuse its operand, and
no window may grow beyond its limit. -/
def admits (grouping : Grouping) (maxGroups : Option Nat) (record : Contribution)
    (windows : OpenWindows) (ids : List Nat) : Except QueryError Unit := do
  checkOperands grouping.aggregations record.operands
  ids.forM fun id => (windows.table id).admits maxGroups record.key

/-- Adds a record to one window after the other. If a table refuses it, what was added before stays,
and the windows after it are left alone. -/
def addToAll (grouping : Grouping) (maxGroups : Option Nat) (row : Value)
    (record : Contribution) : List Nat → OpenWindows → OpenWindows × Except QueryError Unit
  | [], windows => (windows, .ok ())
  | id :: ids, windows =>
      let (table, result) :=
        (windows.table id).update grouping.aggregations maxGroups record.key row record.operands
      let windows := windows.insert id table
      match result with
      | .ok () => addToAll grouping maxGroups row record ids windows
      | .error error => (windows, .error error)

/-- The windows that the latest record has completed, and the state without them. -/
def close (grouping : Grouping) (triggers : Bool) (state : GroupState) :
    OpenWindows × GroupState :=
  match grouping.window with
  | some (.count size skip) =>
      let full := fun window : Nat × GroupTable => window.1 * skip + size ≤ state.seen
      (state.windows.takeWhile full, { state with windows := state.windows.dropWhile full })
  | some (.predicate _) =>
      if triggers && !state.triggered then
        (state.windows.take 1,
          { state with
            windows := state.windows.drop 1, current := state.current + 1, triggered := true })
      else ([], { state with triggered := triggers })
  | _ => ([], state)

/-- Adds a record to its windows and closes the windows that it completes, or refuses it. Whether
all windows admit the record is seen before any of them is touched. -/
def accept (grouping : Grouping) (maxGroups : Option Nat) (elapsed : Nat) (row : Value)
    (record : Contribution) (state : GroupState) : GroupState × Except QueryError OpenWindows :=
  let ids := grouping.windowsOf state elapsed
  match grouping.admits maxGroups record state.windows ids with
  | .error error => (state, .error error)
  | .ok () =>
      match grouping.addToAll maxGroups row record ids state.windows with
      | (windows, .error error) => ({ state with windows }, .error error)
      | (windows, .ok ()) =>
          let (closed, state) :=
            grouping.close record.triggers { state with windows, seen := state.seen + 1 }
          (state, .ok closed)

def emptyRow (grouping : Grouping) : GroupRow :=
  ⟨.null, grouping.aggregations.map fun aggregation => (Accumulator.start aggregation).finish⟩

/-- The rows at the end of the input. Without keys and windows the whole input is one group, also
if it is empty. -/
def complete (grouping : Grouping) (windows : OpenWindows) : List GroupRow :=
  if grouping.keys.isEmpty && !grouping.window.isSome && windows.isEmpty then [grouping.emptyRow]
  else windows.finish

end Grouping

/-! The loop goes by turns. In a turn either the time of a window comes, or the input gives a record
or ends. -/

inductive GroupEvent where
  /-- The time of the oldest window came. -/
  | expired
  /-- A record arrived, and was placed in its windows when it had been evaluated. -/
  | accepted (arrived placed : Nat) (row : Value) (record : Contribution)
  /-- A record arrived that could not be evaluated, or that was refused. -/
  | skipped (arrived : Nat) (row : Value) (error : QueryError)
  /-- The input ended. -/
  | completed

structure GroupTurn where
  event : GroupEvent
  /-- The windows that close in this turn. -/
  closed : OpenWindows
  /-- The state after the turn. -/
  state : GroupState

def GroupTurn.rows (grouping : Grouping) (turn : GroupTurn) : List GroupRow :=
  match turn.event with
  | .completed => grouping.complete turn.closed
  | _ => turn.closed.finish

namespace Grouping

/-! Time windows close when their time has come, whatever the input does. -/

def closing? (grouping : Grouping) (started id : Nat) : Option Nat :=
  match grouping.window with
  | some (.time size slide) => some (started + id * slide + size)
  | _ => none

/-- Goes on at the instant at which the input is ready, which may be never. -/
def await (ready : Option Nat) (next : Stream GroupTurn) : Stream GroupTurn := fun now =>
  match ready with
  | none => .silent
  | some instant => if instant ≤ now then next now else .waiting instant next

/-- Closes windows, the oldest first, until the input is ready. At one instant windows close
first. -/
def attend (grouping : Grouping) (started : Nat) (ready : Option Nat)
    (next : GroupState → Stream GroupTurn) (state : GroupState) :
    OpenWindows → Stream GroupTurn
  | [] => await ready (next { state with windows := [] })
  | (id, table) :: rest => fun now =>
      let open_ := { state with windows := (id, table) :: rest }
      match grouping.closing? started id with
      | none => await ready (next open_) now
      | some closing =>
          let expired : Feed GroupTurn :=
            .item (.ok ⟨.expired, [(id, table)], { state with windows := rest }⟩)
              (attend grouping started ready next state rest)
          if closing ≤ now then expired
          else if ready.any (· ≤ now) then next open_ now
          else
            .waiting ((ready.map (min closing)).getD closing) fun now =>
              if closing ≤ now then expired else next open_ now

end Grouping

namespace Grouping

def refuse (context : Context) (arrived : Nat) (row : Value)
    (onward : GroupState → Stream GroupTurn) (error : QueryError) (state : GroupState) :
    Stream GroupTurn :=
  if context.settings.errorPolicy.skips error then
    Feed.emit [.ok ⟨.skipped arrived row error, [], state⟩] (onward state)
  else Feed.ofItems [.error error]

/-- Takes in a record that has been evaluated. -/
def settle (grouping : Grouping) (context : Context) (started arrived : Nat) (row : Value)
    (onward : GroupState → Stream GroupTurn) (state : GroupState) :
    Except QueryError Contribution → Stream GroupTurn
  | .error error => refuse context arrived row onward error state
  | .ok record => fun now =>
      let placed := now - started
      match grouping.accept context.settings.maxGroups placed row record state with
      | (state, .error error) => refuse context arrived row onward error state now
      | (state, .ok closed) =>
          Feed.emit [.ok ⟨.accepted arrived placed row record, closed, state⟩] (onward state) now

end Grouping

namespace Feed

/-- The turns of the loop over a feed. An error among the records ends it, and so does a record that
fails, unless the policy is to skip it. -/
def turns (grouping : Grouping) (context : Context) (started : Nat) :
    Feed Value → GroupState → Stream GroupTurn
  | .finished, state => ofItems [.ok ⟨.completed, state.windows, { state with windows := [] }⟩]
  | .item (.error error) _, _ => ofItems [.error error]
  | .item (.ok row) rest, state => fun arrived =>
      let onward (state : GroupState) : Stream GroupTurn :=
        grouping.attend started (some 0)
          (fun state now => turns grouping context started (rest now) state now) state
          state.windows
      afterTask ((grouping.contribution (context.withRow row)).run arrived) arrived
        (grouping.settle context started (arrived - started) row onward state)
  | .waiting deadline resume, state =>
      grouping.attend started (some deadline)
        (fun state now => turns grouping context started (resume now) state now) state
        state.windows
  | .opening name next, state => fun now =>
      .opening name fun answer => turns grouping context started (next answer) state now
  | .silent, state => grouping.attend started none (fun _ _ => .silent) state state.windows

def groupRows (grouping : Grouping) : Feed GroupTurn → Nat → Feed GroupRow
  | .finished, _ => .finished
  | .item (.error error) rest, _ =>
      .item (.error error) fun now => groupRows grouping (rest now) now
  | .item (.ok turn) rest, now =>
      emit ((turn.rows grouping).map .ok) (fun now => groupRows grouping (rest now) now) now
  | .waiting deadline resume, _ =>
      .waiting deadline fun now => groupRows grouping (resume now) now
  | .opening name next, now => .opening name fun answer => groupRows grouping (next answer) now
  | .silent, _ => .silent

end Feed

namespace Stream

/-- The turns of the loop over a stream. Time counts from the first request. -/
def turns (grouping : Grouping) (context : Context) (stream : Stream Value) : Stream GroupTurn :=
  fun now => Feed.turns grouping context now (stream now) GroupState.start now

def group (grouping : Grouping) (context : Context) (stream : Stream Value) : Stream GroupRow :=
  fun now => Feed.groupRows grouping (stream.turns grouping context now) now

end Stream

end StreamQuery
