import StreamQuery.Proofs.Stream.Deliveries
import StreamQuery.Proofs.Window.Placement
namespace StreamQuery

/-! Without windows all records lie in one, and under a predicate one is open at a time. It is there
once a record lies in it. -/

namespace Grouping

def openWindow (grouping : Grouping) (maxGroups : Option Nat) (id : Nat) (opened : List Entry) :
    OpenWindows :=
  if opened.isEmpty then [] else [(id, grouping.tableOf maxGroups opened)]

variable {grouping : Grouping} {context : Context} {maxGroups : Option Nat} {opened : List Entry}

theorem length_openWindow (id : Nat) (opened : List Entry) :
    (grouping.openWindow maxGroups id opened).length ≤ 1 := by
  simp only [openWindow]
  split <;> simp

theorem finish_openWindow (id : Nat) (opened : List Entry) :
    (grouping.openWindow maxGroups id opened).finish =
      (grouping.tableOf maxGroups opened).finish := by
  cases opened with
  | nil => rfl
  | cons => simp [openWindow, OpenWindows.finish]

theorem tableOf_concat (records : List Entry) (entry : Entry) :
    grouping.tableOf maxGroups (records ++ [entry]) =
      grouping.addEntry maxGroups (grouping.tableOf maxGroups records) entry :=
  List.foldl_append

theorem table_openWindow (id : Nat) (opened : List Entry) :
    (grouping.openWindow maxGroups id opened).table id = grouping.tableOf maxGroups opened := by
  cases opened with
  | nil => rfl
  | cons => simp [openWindow, OpenWindows.table]

theorem addToAll_openWindow {id : Nat} {row : Value} {record : Contribution}
    (adds : grouping.addToAll maxGroups row record [id] (grouping.openWindow maxGroups id opened) =
      (added, .ok ())) :
    added = [(id, grouping.tableOf maxGroups (opened ++ [⟨row, record⟩]))] := by
  have insert (grown : GroupTable) :
      (grouping.openWindow maxGroups id opened).insert id grown = [(id, grown)] := by
    cases opened with
    | nil => rfl
    | cons => simp [openWindow, OpenWindows.insert]
  simp only [addToAll, insert] at adds
  split at adds
  · cases adds
    rw [tableOf_concat, ← table_openWindow id]
    rfl
  · cases adds

/-! The loop without windows, over a feed that delivers records which it takes in. -/

variable {answers : String → Except QueryError Script} {started : Nat}

theorem accept_of_windowless (windowless : grouping.window = none) {state : GroupState}
    (regular : state.windows.Regular grouping.aggregations)
    (windows : state.windows = grouping.openWindow none 0 opened) (elapsed : Nat) (row : Value)
    {record : Contribution}
    (accepted : checkOperands grouping.aggregations record.operands = .ok ()) :
    ∃ next, grouping.accept none elapsed row record state = (next, .ok []) ∧
      next.windows.Regular grouping.aggregations ∧
      next.windows = grouping.openWindow none 0 (opened ++ [⟨row, record⟩]) := by
  have ids : grouping.windowsOf state elapsed = [0] := by simp only [windowsOf, windowless]
  have closes (state : GroupState) : grouping.close record.triggers state = ([], state) := by
    simp only [close, windowless]
  rcases addToAll_of_admits none row record regular (List.pairwise_singleton _ 0) accepted
    (fun _ _ => rfl) with ⟨added, adds, addedRegular⟩
  have admits : grouping.admits none record state.windows [0] = .ok () :=
    admits_ok_iff.mpr ⟨accepted, fun _ _ => rfl⟩
  refine ⟨{ state with windows := added, seen := state.seen + 1 }, ?_, addedRegular, ?_⟩
  · simp only [accept, ids, admits, adds, closes]
  · rw [windows] at adds
    rw [addToAll_openWindow adds]
    simp [openWindow]

theorem attend_windowless (windowless : grouping.window = none) (started instant : Nat)
    (next : GroupState → Stream GroupTurn) (state : GroupState) (now : Nat) :
    grouping.attend started (some instant) next state state.windows now =
      if instant ≤ now then next state now else .waiting instant (next state) := by
  cases windows : state.windows with
  | nil => rw [attend, await, ← windows]
  | cons window rest =>
      simp only [attend, closing?, windowless, await, ← windows]

theorem delivers_groupRows_afterTask {task : Task α} {next : α → Stream GroupTurn}
    {rows : List GroupRow} (outcome : task.outcome answers now = some (value, later))
    (delivers : (Feed.groupRows grouping (next value later) later).Delivers answers later rows) :
    (Feed.groupRows grouping (Feed.afterTask task now next) now).Delivers answers now rows := by
  induction task generalizing now with
  | done value =>
      cases outcome
      exact delivers
  | waiting deadline resume induction => exact .waiting deadline (induction _ outcome)
  | opening name answer induction => exact .opening name (induction _ outcome)
  | stuck => cases outcome

theorem delivers_groupRows (windowless : grouping.window = none)
    (unlimited : context.settings.maxGroups = none) {feed : Feed Value} {rows : List Value}
    {contribution : Value → Contribution}
    (contributes : ∀ row ∈ rows, (grouping.contribution (context.withRow row)).Settles answers
      (.ok (contribution row)))
    (accepted : ∀ row ∈ rows,
      checkOperands grouping.aggregations (contribution row).operands = .ok ())
    (delivers : feed.Delivers answers now rows) {state : GroupState}
    (regular : state.windows.Regular grouping.aggregations)
    (windows : state.windows = grouping.openWindow none 0 opened) :
    (Feed.groupRows grouping (feed.turns grouping context started state now) now).Delivers answers
      now (grouping.complete (grouping.openWindow none 0
        (opened ++ rows.map fun row => ⟨row, contribution row⟩))) := by
  -- The window holds the records so far, which the induction is generalized over.
  induction delivers generalizing state opened with
  | finished now =>
      rw [List.map_nil, List.append_nil, ← windows]
      exact Feed.delivers_emit _ (fun now => .finished now) now
  | @item now rest rows row _ induction =>
      have acceptedParts := List.forall_mem_cons.mp accepted
      have parts := List.forall_mem_cons.mp contributes
      rcases parts.1 now with ⟨placed, outcome⟩
      have after := Task.le_of_outcome outcome
      rcases accept_of_windowless windowless regular windows (placed - started) row
        acceptedParts.1 with ⟨next, accept, nextRegular, nextWindows⟩
      refine delivers_groupRows_afterTask outcome ?_
      have going := induction placed after parts.2 acceptedParts.2 nextRegular nextWindows
      rw [List.append_assoc, List.singleton_append] at going
      simp only [settle, unlimited, accept]
      have onward := attend_windowless windowless started 0
        (fun state now => Feed.turns grouping context started (rest now) state now) next placed
      rw [if_pos (Nat.zero_le placed)] at onward
      show (Feed.groupRows grouping (grouping.attend started (some 0) _ next next.windows placed)
        placed).Delivers answers placed _
      rw [onward]
      exact going
  | @waiting resume now rows deadline _ induction =>
      have going := induction contributes accepted regular windows
      simp only [Feed.turns, attend_windowless windowless]
      split
      · next reached =>
          rw [Nat.max_eq_right reached] at going
          exact going
      · exact .waiting deadline going
  | opening name _ induction => exact .opening name (induction contributes accepted regular windows)

/-- What comes of all records together is put out at the end. -/
theorem delivers_group (windowless : grouping.window = none)
    (unlimited : context.settings.maxGroups = none) {records : Stream Value} {rows : List Value}
    {contribution : Value → Contribution}
    (contributes : ∀ row ∈ rows, (grouping.contribution (context.withRow row)).Settles answers
      (.ok (contribution row)))
    (accepted : ∀ row ∈ rows,
      checkOperands grouping.aggregations (contribution row).operands = .ok ())
    (delivers : (records now).Delivers answers now rows) :
    (Stream.group grouping context records now).Delivers answers now (grouping.complete
      (grouping.openWindow none 0 (rows.map fun row => ⟨row, contribution row⟩))) := by
  have regular : GroupState.start.windows.Regular grouping.aggregations :=
    fun _ member => nomatch member
  have windows : GroupState.start.windows = grouping.openWindow none 0 [] := rfl
  exact delivers_groupRows windowless unlimited contributes accepted delivers regular windows

end Grouping

end StreamQuery
