import Mathlib.Data.List.Forall2
import StreamQuery.Proofs.Window.GroupRecords
import StreamQuery.Proofs.Window.Transitions
namespace StreamQuery

/-! Every row that the loop puts out is that of a group of the records that its window has taken. -/

namespace Evaluation

theorem Gives.of_evaluateInTurn {mappers : List Mapper} {values : List Value}
    (gives : (Grouping.evaluateInTurn context mappers).Gives answers (.ok values)) :
    List.Forall₂ (fun mapper value => (mapper context).Gives answers (.ok value)) mappers values := by
  induction mappers generalizing values with
  | nil =>
      rcases gives with ⟨now, gives⟩
      cases gives
      exact .nil
  | cons mapper rest induction =>
      rcases Gives.of_andThen gives with ⟨value, first, gives⟩ | ⟨_, _, same⟩
      · rcases Gives.of_map gives with ⟨others, following, same⟩
        cases others with
        | error error => cases same
        | ok others =>
            cases same
            exact .cons first (induction following)
      · cases same

end Evaluation

/-- What the record contributes is what comes of evaluating it. -/
def Entry.GivenBy (grouping : Grouping) (context : Context) (entry : Entry) : Prop :=
  (grouping.contribution (context.withRow entry.row)).Gives (fun _ => True) (.ok entry.record)

variable {grouping : Grouping} {context : Context}

theorem Entry.GivenBy.operands {entry : Entry} (given : entry.GivenBy grouping context) :
    List.Forall₂ (fun spec operand =>
      (AggregateSpec.operand spec (context.withRow entry.row)).Gives (fun _ => True) (.ok operand))
      grouping.aggregates entry.record.operands := by
  rcases Evaluation.Gives.of_andThen given with ⟨key, _, given⟩ | ⟨_, _, same⟩
  · rcases Evaluation.Gives.of_andThen given with ⟨operands, gives, given⟩ | ⟨_, _, same⟩
    · rcases Evaluation.Gives.of_map given with ⟨triggers, _, same⟩
      cases triggers with
      | error error => cases same
      | ok triggers =>
          rw [Except.ok.inj same]
          exact List.forall₂_map_left_iff.mp (Evaluation.Gives.of_evaluateInTurn gives)
    · cases same
  · cases same

theorem Entry.GivenBy.complete {entry : Entry} (given : entry.GivenBy grouping context) :
    entry.record.operands.length = grouping.aggregations.length := by
  rw [Grouping.aggregations, List.length_map]
  exact given.operands.length_eq.symm

theorem Entry.GivenBy.operand {entry : Entry} {index : Nat} {spec : AggregateSpec}
    (given : entry.GivenBy grouping context)
    (present : grouping.aggregates[index]? = some spec) :
    (spec.operand (context.withRow entry.row)).Gives (fun _ => True)
      (.ok (entry.operand index)) := by
  have operands := List.forall₂_iff_get.mp given.operands
  rcases List.getElem?_eq_some_iff.mp present with ⟨bound, rfl⟩
  have same : index < entry.record.operands.length := operands.1 ▸ bound
  have operand : entry.operand index = entry.record.operands[index] := by
    simp [Entry.operand, same]
  rw [operand]
  exact operands.2 index bound same

/-! A ledger of the loop keeps the records that the windows have taken, where the loop itself keeps
no more than their aggregates. -/

structure Ledger where
  state : GroupState
  /-- The records of every open window. -/
  records : Nat → List Entry

namespace Ledger

def start : Ledger :=
  ⟨.start, fun _ => []⟩

def take (ledger : Ledger) (grouping : Grouping) (turn : GroupTurn) (id : Nat) : List Entry :=
  match turn.event with
  | .accepted _ placed row record =>
      if id ∈ grouping.windowsOf ledger.state placed then ledger.records id ++ [⟨row, record⟩]
      else ledger.records id
  | _ => ledger.records id

def after (grouping : Grouping) (ledger : Ledger) (turn : GroupTurn) : Ledger where
  state := turn.state
  records id := if ∃ window ∈ turn.closed, window.1 = id then [] else ledger.take grouping turn id

end Ledger

/-- The row of a group: of the records that a closed window has taken, those that belong to the group.
Where no window has taken any, the row of no records. -/
inductive GroupRow.From (grouping : Grouping) (closed : OpenWindows) (records : Nat → List Entry) :
    List Entry → GroupRow → Prop
  | group {id : Nat} {table : GroupTable} {slot : Nat} {group : Group} :
      (id, table) ∈ closed → table.Holds grouping.aggregations (records id) →
      table.groups[slot]? = some group →
      GroupRow.From grouping closed records (table.members slot (records id)) group.finish
  | empty : (∀ id, records id = []) → GroupRow.From grouping closed records [] grouping.emptyRow

theorem GroupRow.From.aggregate {closed : OpenWindows} {records : Nat → List Entry}
    {entries : List Entry} {row : GroupRow} {index : Nat} {spec : AggregateSpec}
    (made : row.From grouping closed records entries)
    (present : grouping.aggregates[index]? = some spec) :
    ∃ value, row.aggregates[index]? = some value ∧
      spec.aggregation.over (entries.map (Entry.operand index)) = .ok value := by
  have aggregation : grouping.aggregations[index]? = some spec.aggregation := by
    rw [Grouping.aggregations, List.getElem?_map, present, Option.map_some]
  cases made with
  | group _ table at_ =>
      rcases (table.groups _ _ at_).accumulators index _ aggregation with
        ⟨accumulator, held, folds⟩
      refine ⟨accumulator.finish, ?_, by rw [Aggregation.over, folds]; rfl⟩
      rw [Group.finish, List.getElem?_map, held, Option.map_some]
  | empty =>
      refine ⟨(Accumulator.start spec.aggregation).finish, ?_, rfl⟩
      rw [Grouping.emptyRow, List.getElem?_map, aggregation, Option.map_some]

theorem GroupRow.From.given {closed : OpenWindows} {records : Nat → List Entry}
    {entries : List Entry} {row : GroupRow} (made : row.From grouping closed records entries)
    (given : ∀ id, ∀ entry ∈ records id, entry.GivenBy grouping context) :
    ∀ entry ∈ entries, entry.GivenBy grouping context := by
  cases made with
  | group => exact fun entry member => given _ entry (List.mem_of_mem_filter member)
  | empty => exact List.forall_mem_nil _

namespace Grouping

def ledger (grouping : Grouping) (turns : List GroupTurn) : Ledger :=
  turns.foldl (Ledger.after grouping) .start

theorem ledger_concat (grouping : Grouping) (before : List GroupTurn) (turn : GroupTurn) :
    grouping.ledger (before ++ [turn]) = (grouping.ledger before).after grouping turn := by
  simp [ledger, List.foldl_append]

/-! The windows of the loop have the groups of the records in the ledger. -/

structure Holding (grouping : Grouping) (context : Context) (windows : OpenWindows)
    (records : Nat → List Entry) : Prop where
  ascending : windows.Ascending
  given : ∀ id, ∀ entry ∈ records id, entry.GivenBy grouping context
  holds : windows.Holds grouping.aggregations records

variable {records : Nat → List Entry}

theorem Holding.start : grouping.Holding context [] fun _ => [] where
  ascending := List.Pairwise.nil
  given _ := List.forall_mem_nil _
  holds _ := .empty

theorem Holding.close {closed windows : OpenWindows}
    (holding : grouping.Holding context (closed ++ windows) records) :
    grouping.Holding context windows
      fun id => if ∃ window ∈ closed, window.1 = id then [] else records id where
  ascending := (List.pairwise_append.mp holding.ascending).2.1
  given id := by
    split
    · exact List.forall_mem_nil _
    · exact holding.given id
  holds id := by
    dsimp only
    rw [OpenWindows.table_of_append holding.ascending]
    split
    · exact .empty
    · exact holding.holds id

theorem Holding.accept {state : GroupState}
    (holding : grouping.Holding context state.windows records)
    (given : (grouping.contribution (context.withRow row)).Gives (fun _ => True) (.ok record))
    (accepted : grouping.accept maxGroups placed row record state = (next, .ok closed)) :
    grouping.Holding context (closed ++ next.windows) fun id =>
      if id ∈ grouping.windowsOf state placed then records id ++ [⟨row, record⟩] else records id := by
  let entry : Entry := ⟨row, record⟩
  have entryGiven : entry.GivenBy grouping context := given
  rcases accept_ok accepted with ⟨_, windows, adds, closes⟩
  have nodup := grouping.windowsOf_nodup state placed
  rw [close_windows closes]
  have added : windows.Holds grouping.aggregations fun id =>
      if id ∈ grouping.windowsOf state placed then records id ++ [entry] else records id :=
    holds_addToAll entryGiven.complete nodup holding.holds adds
  refine ⟨(mem_addToAll holding.ascending nodup adds).1, fun id => ?_, added⟩
  split
  · exact List.forall_mem_append.mpr ⟨holding.given id, List.forall_mem_singleton.mpr entryGiven⟩
  · exact holding.given id

theorem Transition.holding {ledger : Ledger} {turn : GroupTurn}
    (transition : grouping.Transition (fun _ => True) context ledger.state turn)
    (regular : ledger.state.windows.Regular grouping.aggregations)
    (holding : grouping.Holding context ledger.state.windows ledger.records) :
    grouping.Holding context (turn.closed ++ turn.state.windows) (ledger.take grouping turn) ∧
      turn.state.windows.Regular grouping.aggregations := by
  cases transition with
  | expired windows =>
      rw [windows] at regular holding
      exact ⟨holding, (List.forall_mem_cons.mp regular).2⟩
  | accepted given accepted => exact ⟨holding.accept given accepted, accept_regular regular accepted⟩
  | unevaluated => exact ⟨holding, regular⟩
  | refused refused =>
      rcases eq_of_accept_error regular refused with ⟨rfl, _⟩
      exact ⟨holding, regular⟩
  | completed =>
      rw [List.append_nil]
      exact ⟨holding, List.forall_mem_nil _⟩

theorem keeps_holding (grouping : Grouping) (context : Context) :
    Keeps (fun _ => True) grouping context (fun _ => True)
      (fun turns state => (grouping.ledger turns).state = state ∧
        state.windows.Regular grouping.aggregations ∧
        grouping.Holding context state.windows (grouping.ledger turns).records)
      fun turns entry => ∀ turn, entry = .ok turn →
        (turn.event = .completed → turn.state.windows = []) ∧
          grouping.Holding context (turn.closed ++ turn.state.windows)
            ((grouping.ledger turns).take grouping turn) where
  step {turns _ turn} kept transition := by
    rcases kept with ⟨rfl, regular, holding⟩
    have next := transition.holding regular holding
    refine ⟨?_, ?_⟩
    · rintro _ ⟨⟩
      refine ⟨?_, next.1⟩
      cases transition <;> first | exact fun _ => rfl | exact fun completed => nomatch completed
    · rw [ledger_concat]
      exact ⟨rfl, next.2, next.1.close⟩
  failed _ _ _ same := nomatch same
  upstream _ _ same := nomatch same

theorem Holding.rows {turn : GroupTurn}
    (holding : grouping.Holding context (turn.closed ++ turn.state.windows) records)
    (completes : turn.event = .completed → turn.state.windows = []) :
    ∀ row ∈ turn.rows grouping, ∃ entries, row.From grouping turn.closed records entries := by
  have finish : ∀ row ∈ turn.closed.finish,
      ∃ entries, row.From grouping turn.closed records entries := by
    intro row member
    rcases List.mem_flatMap.mp member with ⟨⟨id, table⟩, closed, member⟩
    rcases List.mem_map.mp member with ⟨group, among, rfl⟩
    rcases List.getElem?_of_mem among with ⟨position, at_⟩
    have holds := holding.holds.of_mem holding.ascending (List.mem_append_left _ closed)
    exact ⟨_, .group closed holds at_⟩
  cases event : turn.event with
  | completed =>
      simp only [GroupTurn.rows, event, complete]
      split
      · next none =>
          refine List.forall_mem_singleton.mpr ⟨[], .empty fun id => ?_⟩
          have closed := List.isEmpty_iff.mp (Bool.and_eq_true_iff.mp none).2
          have holds := holding.holds id
          rw [closed, completes event] at holds
          exact holds.eq_nil_of_empty
      · exact finish
  | expired | accepted | skipped => simpa only [GroupTurn.rows, event] using finish

/-- In every run, the rows of a turn are those of groups of the records that the windows have taken,
and what the records contribute comes of evaluating them. -/
theorem rows_from_ledger (grouping : Grouping) (context : Context) (stream : Stream Value)
    (started : Nat) (wanted : Option Nat) (world : World)
    (shown : (Feed.run wanted (stream.turns grouping context started) world).items =
      before ++ (instant, .ok turn) :: after) :
    let records := (grouping.ledger (turnsOf before)).take grouping turn
    (∀ id, ∀ entry ∈ records id, entry.GivenBy grouping context) ∧
      ∀ row ∈ turn.rows grouping, ∃ entries, row.From grouping turn.closed records entries := by
  have along : (stream.turns grouping context started).Along (fun _ => True) _ [] :=
    (grouping.keeps_holding context).along_turns (Feed.each_true (stream started)) .start []
      ⟨rfl, List.forall_mem_nil _, .start⟩ started
  have holding := along.run wanted world before instant (.ok turn) after shown turn rfl
  exact ⟨holding.2.given, holding.2.rows holding.1⟩

end Grouping

end StreamQuery
