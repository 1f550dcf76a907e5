import StreamQuery.Proofs.Window.CountWindows
import StreamQuery.Proofs.Window.SingleWindow
namespace StreamQuery

/-! Predicate windows. One window is open at a time, and the record on which the predicate begins to
hold is the last one in it. -/

namespace Window

/-- The predicate holds for the record, and did not for the one accepted before. -/
def rises (before : List Entry) (entry : Entry) : Bool :=
  entry.record.triggers && !before.getLast?.any (·.record.triggers)

/-- Records are cut after each on which the predicate rises. What follows the last cut is open. -/
inductive Cut : List Entry → List (List Entry) → List Entry → Prop
  | start : Cut [] [] []
  | ends : Cut records runs opened → rises records entry = true →
      Cut (records ++ [entry]) (runs ++ [opened ++ [entry]]) []
  | goesOn : Cut records runs opened → rises records entry = false →
      Cut (records ++ [entry]) runs (opened ++ [entry])

namespace Cut

theorem flatten_append (cut : Cut records runs opened) : runs.flatten ++ opened = records := by
  induction cut with
  | start => rfl
  | ends _ _ induction => simp [← induction]
  | goesOn _ _ induction => rw [← List.append_assoc, induction]

theorem ne_nil (cut : Cut records runs opened) : ∀ run ∈ runs, run ≠ [] := by
  induction cut with
  | start => exact fun _ member => nomatch member
  | ends _ _ induction =>
      intro run member
      rcases List.mem_append.mp member with member | member
      · exact induction run member
      · rw [List.mem_singleton.mp member]
        exact List.append_ne_nil_of_right_ne_nil _ (List.cons_ne_nil _ [])
  | goesOn _ _ induction => exact induction

end Cut

end Window

namespace Grouping

/-- One window for every run of records. -/
def runWindows (grouping : Grouping) (maxGroups : Option Nat) (runs : List (List Entry)) :
    OpenWindows :=
  runs.zipIdx.map fun (run, id) => (id, grouping.tableOf maxGroups run)

structure Tracks (grouping : Grouping) (maxGroups : Option Nat) (state : GroupState)
    (closed : OpenWindows) (records : List Entry) (runs : List (List Entry))
    (opened : List Entry) : Prop where
  regular : state.windows.Regular grouping.aggregations
  cut : Window.Cut records runs opened
  closed_eq : closed = grouping.runWindows maxGroups runs
  windows_eq : state.windows = grouping.openWindow maxGroups state.current opened
  current_eq : state.current = runs.length
  triggered_eq : state.triggered = records.getLast?.any (·.record.triggers)
  grouped : ∀ run ∈ opened :: runs, grouping.Grouped maxGroups run

variable {grouping : Grouping} {context : Context} {maxGroups : Option Nat}
  {predicate : Predicate} {started : Nat} {closed : OpenWindows} {records opened : List Entry}
  {runs : List (List Entry)}

theorem runWindows_concat (runs : List (List Entry)) (run : List Entry) :
    grouping.runWindows maxGroups (runs ++ [run]) =
      grouping.runWindows maxGroups runs ++ [(runs.length, grouping.tableOf maxGroups run)] := by
  simp [runWindows, List.zipIdx_append]

theorem finish_runWindows (runs : List (List Entry)) :
    (grouping.runWindows maxGroups runs).finish =
      (runs.map fun run => (grouping.tableOf maxGroups run).finish).flatten := by
  rw [runWindows, OpenWindows.finish, List.flatMap_map, ← List.flatMap_def,
    ← List.zipIdx_map_fst 0 runs, List.flatMap_map, List.zipIdx_map_fst]

theorem close_of_predicate (windowed : grouping.window = some (.predicate predicate))
    {state : GroupState} :
    grouping.close triggers state =
      if triggers && !state.triggered then
        (state.windows.take 1,
          { state with
            windows := state.windows.drop 1, current := state.current + 1, triggered := true })
      else ([], { state with triggered := triggers }) := by
  simp only [close, windowed]

theorem accept_of_predicate (windowed : grouping.window = some (.predicate predicate))
    {state : GroupState}
    (accepted : grouping.accept maxGroups elapsed row record state = (next, .ok closing))
    (windows : state.windows = grouping.openWindow maxGroups state.current opened) :
    let table := grouping.tableOf maxGroups (opened ++ [⟨row, record⟩])
    next.triggered = record.triggers ∧
      (checkOperands grouping.aggregations record.operands = .ok () ∧
        (grouping.tableOf maxGroups opened).admits maxGroups record.key = .ok ()) ∧
      if record.triggers && !state.triggered then
        closing = [(state.current, table)] ∧ next.windows = [] ∧ next.current = state.current + 1
      else
        closing = [] ∧ next.windows = [(state.current, table)] ∧ next.current = state.current := by
  intro table
  rcases accept_ok accepted with ⟨admits, added, adds, closes⟩
  simp only [windowsOf, windowed, windows] at admits adds
  have parts := admits_ok_iff.mp admits
  have admitted := parts.2 state.current (List.mem_singleton_self _)
  rw [table_openWindow] at admitted
  cases addToAll_openWindow adds
  rw [close_of_predicate windowed] at closes
  split at closes
  · next rises =>
      cases closes
      rw [if_pos rises]
      exact ⟨(Bool.and_eq_true_iff.mp rises).1.symm, ⟨parts.1, admitted⟩, rfl, rfl, rfl⟩
  · next stays =>
      cases closes
      rw [if_neg stays]
      exact ⟨rfl, ⟨parts.1, admitted⟩, rfl, rfl, rfl⟩

namespace Tracks

theorem start : grouping.Tracks maxGroups GroupState.start [] [] [] [] where
  regular _ member := nomatch member
  cut := .start
  closed_eq := rfl
  windows_eq := rfl
  current_eq := rfl
  triggered_eq := rfl
  grouped := List.forall_mem_singleton.mpr .start

theorem accept (windowed : grouping.window = some (.predicate predicate)) {state : GroupState}
    (tracks : grouping.Tracks maxGroups state closed records runs opened)
    (accepted : grouping.accept maxGroups elapsed row record state = (next, .ok closing)) :
    let entry : Entry := ⟨row, record⟩
    if Window.rises records entry then
      closing = [(runs.length, grouping.tableOf maxGroups (opened ++ [entry]))] ∧
        grouping.Tracks maxGroups next (closed ++ closing) (records ++ [entry])
          (runs ++ [opened ++ [entry]]) []
    else
      closing = [] ∧
        grouping.Tracks maxGroups next (closed ++ closing) (records ++ [entry]) runs
          (opened ++ [entry]) := by
  intro entry
  have regular := accept_regular tracks.regular accepted
  rcases accept_of_predicate windowed accepted tracks.windows_eq with
    ⟨triggered, taken, outcome⟩
  have parts := List.forall_mem_cons.mp tracks.grouped
  have grown : grouping.Grouped maxGroups (opened ++ [entry]) := parts.1.concat taken.1 taken.2
  have latest : next.triggered = (records ++ [entry]).getLast?.any (·.record.triggers) := by
    rw [triggered, List.getLast?_concat]
    rfl
  rw [tracks.triggered_eq, tracks.current_eq] at outcome
  cases rises : Window.rises records entry with
  | true =>
      simp only [Window.rises, entry] at rises
      rw [if_pos rises] at outcome
      rcases outcome with ⟨rfl, windows, current⟩
      refine ⟨rfl, regular, tracks.cut.ends rises, ?_, ?_, ?_, latest, ?_⟩
      · rw [runWindows_concat, tracks.closed_eq]
      · exact windows
      · rw [current, List.length_append, List.length_singleton]
      · refine List.forall_mem_cons.mpr ⟨.start, List.forall_mem_append.mpr ⟨parts.2, ?_⟩⟩
        exact List.forall_mem_singleton.mpr grown
  | false =>
      simp only [Window.rises, entry] at rises
      rw [if_neg (Bool.eq_false_iff.mp rises)] at outcome
      rcases outcome with ⟨rfl, windows, current⟩
      refine ⟨rfl, regular, tracks.cut.goesOn rises, ?_, ?_, current, latest,
        List.forall_mem_cons.mpr ⟨grown, parts.2⟩⟩
      · rw [List.append_nil, tracks.closed_eq]
      · rw [windows, current]
        simp [openWindow, entry]

theorem step (windowed : grouping.window = some (.predicate predicate))
    (step : grouping.Step context started state now taken turn later)
    (tracks : grouping.Tracks context.settings.maxGroups state (closedBy before)
      (acceptedBy before) runs opened) :
    ∃ runs opened, grouping.Tracks context.settings.maxGroups turn.state
      (closedBy (before ++ [turn])) (acceptedBy (before ++ [turn])) runs opened := by
  rw [closedBy_concat, acceptedBy_concat]
  cases step with
  | expired _ closes _ _ => simp [closing?, windowed] at closes
  | accepted _ _ _ accepted =>
      have kept := tracks.accept windowed accepted
      dsimp only at kept
      split at kept
      · exact ⟨_, _, kept.2⟩
      · exact ⟨_, _, kept.2⟩
  | unevaluated => exact ⟨runs, opened, by simpa [GroupTurn.placement?] using tracks⟩
  | refused _ _ refused _ =>
      rw [(eq_of_accept_error tracks.regular refused).1]
      exact ⟨runs, opened, by simpa [GroupTurn.placement?] using tracks⟩

end Tracks

/-- What a run of the loop over predicate windows comes to, told by its turns. -/
structure PredicateWindowed (grouping : Grouping) (maxGroups : Option Nat)
    (turns : List GroupTurn) : Prop where
  /-- Up to the end of the input the closed windows are the runs of the accepted records, and the
  open one holds the records after the last cut. -/
  tracked : ∀ before turn after, turns = before ++ turn :: after → turn.event ≠ .completed →
    ∃ runs opened, Window.Cut (acceptedBy (before ++ [turn])) runs opened ∧
      closedBy (before ++ [turn]) = grouping.runWindows maxGroups runs ∧
      turn.state.windows = grouping.openWindow maxGroups runs.length opened
  /-- A window closes in the turn of a record that the predicate rises on, and in no other before
  the end of the input. -/
  cuts : ∀ before turn after, turns = before ++ turn :: after → turn.event ≠ .completed →
    (turn.closed ≠ [] ↔ ∃ placement, turn.placement? = some placement ∧
      Window.rises (acceptedBy before) placement.2 = true)
  /-- It is the window of the open records, and the record that closes it is the last of them. -/
  closing : ∀ before turn after placement, turns = before ++ turn :: after →
    turn.placement? = some placement → Window.rises (acceptedBy before) placement.2 = true →
    ∃ runs opened, Window.Cut (acceptedBy before) runs opened ∧
      turn.closed = [(runs.length, grouping.tableOf maxGroups (opened ++ [placement.2]))]
  single : ∀ turn ∈ turns, turn.state.windows.length ≤ 1
  /-- In the end every accepted record lies in one window: those of the runs, and then the one of
  the records after the last cut. -/
  emptied : ∃ runs opened, Window.Cut (acceptedBy turns) runs opened ∧
    runs.flatten ++ opened = acceptedBy turns ∧ (∀ run ∈ runs, run ≠ []) ∧
    closedBy turns =
      grouping.runWindows maxGroups runs ++ grouping.openWindow maxGroups runs.length opened ∧
    ∀ run ∈ opened :: runs, grouping.Grouped maxGroups run

theorem Follows.tracks (windowed : grouping.window = some (.predicate predicate))
    (follows : grouping.Follows context started GroupState.start started input shown)
    {before after : List GroupTurn} {turn : GroupTurn}
    (split : turnsOf shown = before ++ turn :: after) :
    ∃ state now, (∃ runs opened, grouping.Tracks context.settings.maxGroups state
        (closedBy before) (acceptedBy before) runs opened) ∧
      ((∃ taken later, grouping.Step context started state now taken turn later) ∨
        turn = ⟨.completed, state.windows, { state with windows := [] }⟩) :=
  follows.invariant
    (fun state _ before => ∃ runs opened, grouping.Tracks context.settings.maxGroups state
      (closedBy before) (acceptedBy before) runs opened)
    (fun step ⟨_, _, tracks⟩ => tracks.step windowed step) ⟨[], [], Tracks.start⟩ before turn after
    split

theorem Follows.tracks_step (windowed : grouping.window = some (.predicate predicate))
    (follows : grouping.Follows context started GroupState.start started input shown)
    {before after : List GroupTurn} {turn : GroupTurn}
    (split : turnsOf shown = before ++ turn :: after) (goes : turn.event ≠ .completed) :
    ∃ state now runs opened taken later,
      grouping.Tracks context.settings.maxGroups state (closedBy before) (acceptedBy before) runs
        opened ∧ grouping.Step context started state now taken turn later := by
  rcases follows.tracks windowed split with
    ⟨state, now, ⟨runs, opened, tracks⟩, ⟨taken, later, step⟩ | rfl⟩
  · exact ⟨state, now, runs, opened, taken, later, tracks, step⟩
  · exact absurd rfl goes

theorem Follows.predicateWindowed (windowed : grouping.window = some (.predicate predicate))
    (follows : grouping.Follows context started GroupState.start started input shown)
    (clean : ∀ entry ∈ shown, ∃ turn, entry.2 = .ok turn) :
    grouping.PredicateWindowed context.settings.maxGroups (turnsOf shown) := by
  constructor
  case tracked =>
    intro before turn after split goes
    rcases follows.tracks_step windowed split goes with
      ⟨state, now, runs, opened, taken, later, tracks, step⟩
    rcases tracks.step windowed step with ⟨runs, opened, after⟩
    exact ⟨runs, opened, after.cut, after.closed_eq, after.current_eq ▸ after.windows_eq⟩
  case cuts =>
    intro before turn after split goes
    rcases follows.tracks_step windowed split goes with
      ⟨state, now, runs, opened, taken, later, tracks, step⟩
    cases step with
    | expired _ closes _ _ => simp [closing?, windowed] at closes
    | accepted _ _ _ accepted =>
        have kept := tracks.accept windowed accepted
        dsimp only at kept
        split at kept
        · next rises => simp [kept.1, GroupTurn.placement?, rises]
        · next stays => simp [kept.1, GroupTurn.placement?, stays]
    | unevaluated => simp [GroupTurn.placement?]
    | refused => simp [GroupTurn.placement?]
  case closing =>
    intro before turn after placement split placed rises
    have goes : turn.event ≠ .completed := by
      intro completes
      simp [GroupTurn.placement?, completes] at placed
    rcases follows.tracks_step windowed split goes with
      ⟨state, now, runs, opened, taken, later, tracks, step⟩
    cases step with
    | expired => cases placed
    | accepted _ _ _ accepted =>
        cases placed
        have kept := tracks.accept windowed accepted
        rw [if_pos rises] at kept
        exact ⟨runs, opened, tracks.cut, kept.1⟩
    | unevaluated => cases placed
    | refused => cases placed
  case single =>
    intro turn member
    rcases List.append_of_mem member with ⟨before, after, split⟩
    rcases follows.tracks windowed split with
      ⟨state, now, ⟨runs, opened, tracks⟩, ⟨taken, later, step⟩ | rfl⟩
    · rcases tracks.step windowed step with ⟨_, _, after⟩
      rw [after.windows_eq]
      exact length_openWindow _ _
    · exact Nat.zero_le 1
  case emptied =>
    rcases follows.last clean with ⟨before, last, same, completes, _⟩
    rcases follows.tracks windowed same with
      ⟨state, now, ⟨runs, opened, tracks⟩, ⟨taken, later, step⟩ | rfl⟩
    · cases step <;> cases completes
    · have accepted : acceptedBy (turnsOf shown) = acceptedBy before := by
        rw [same, acceptedBy_concat]
        exact List.append_nil _
      rw [accepted]
      refine ⟨runs, opened, tracks.cut, tracks.cut.flatten_append, tracks.cut.ne_nil, ?_,
        tracks.grouped⟩
      rw [same, closedBy_concat, tracks.closed_eq, ← tracks.current_eq, ← tracks.windows_eq]

theorem PredicateWindowed.rows {shown : List (Nat × Except QueryError GroupTurn)}
    (holds : grouping.PredicateWindowed maxGroups (turnsOf shown))
    (windowed : grouping.window.isSome) (clean : ∀ entry ∈ shown, ∃ turn, entry.2 = .ok turn) :
    ∃ runs opened rows, Window.Cut (acceptedBy (turnsOf shown)) runs opened ∧
      (runs ++ [opened]).mapM grouping.rowsOver = .ok rows ∧
      grouping.rowsOf shown = rows.flatten.map .ok := by
  rcases holds.emptied with ⟨runs, opened, cut, _, _, closed, grouped⟩
  have parts := List.forall_mem_cons.mp grouped
  have finished : (closedBy (turnsOf shown)).finish =
      ((runs ++ [opened]).map fun run => (grouping.tableOf maxGroups run).finish).flatten := by
    rw [closed, OpenWindows.finish, List.flatMap_append, ← OpenWindows.finish, ← OpenWindows.finish,
      finish_runWindows, finish_openWindow]
    simp
  refine ⟨runs, opened, _, cut, mapM_ok_of_forall₂ (List.forall₂_map_right_iff.mpr
    (List.forall₂_same.mpr fun run member => Grouped.rowsOver_eq (grouped run ?_))),
    by rw [rowsOf_eq windowed clean, finished]⟩
  simpa [or_comm] using member

/-- The flag of a record is what the predicate of the window comes to, asked after the keys and the
operands of the record. -/
theorem triggers_of_yields (windowed : grouping.window = some (.predicate predicate)) {row : Value}
    (yields : ((grouping.contribution (context.withRow row)).run now).Yields now (.ok record)
      later) :
    ∃ asked, now ≤ asked ∧ ((predicate (context.withRow row) row).run asked).Yields asked
      (.ok record.triggers) later := by
  rw [contribution, Evaluation.run_andThen] at yields
  rcases yields.of_bind with ⟨_ | key, keyed, first, yields⟩
  · cases yields
  · dsimp only at yields
    rw [Evaluation.run_andThen] at yields
    rcases yields.of_bind with ⟨_ | operands, asked, second, yields⟩
    · cases yields
    · dsimp only at yields
      rw [Evaluation.map, Evaluation.run_thenCheck, trigger, windowed] at yields
      rcases yields.of_map with ⟨_ | triggers, answered, same⟩
      · cases same
      · cases same
        exact ⟨asked, Nat.le_trans first.le second.le, answered⟩

/-- Over predicate windows, a run without errors puts out the runs of the accepted records that end
where the predicate begins to hold: each in the turn of the record that ends it, and what is left at
the end of the input. In between one window is open at most. The rows of a run are those of the groups
of its records. -/
theorem predicateWindows_runs (windowed : grouping.window = some (.predicate predicate))
    (stream : Stream Value) (started : Nat) :
    (∀ shown, (stream.turns grouping context started).Shows started shown →
      (∀ entry ∈ shown, ∃ turn, entry.2 = .ok turn) →
      (∃ input : List (Nat × Value), (stream started).Shows started
          (input.map fun (instant, row) => (instant, .ok row)) ∧
        input.map (·.2) = (turnsOf shown).filterMap row?) ∧
      (∀ turn ∈ turnsOf shown, ∀ arrived placed row record,
        turn.event = .accepted arrived placed row record →
        ((grouping.contribution (context.withRow row)).run (started + arrived)).Yields
            (started + arrived) (.ok record) (started + placed) ∧
          ∃ asked, started + arrived ≤ asked ∧
            ((predicate (context.withRow row) row).run asked).Yields asked (.ok record.triggers)
              (started + placed)) ∧
      grouping.PredicateWindowed context.settings.maxGroups (turnsOf shown) ∧
      ∃ runs opened rows, Window.Cut (acceptedBy (turnsOf shown)) runs opened ∧
        (runs ++ [opened]).mapM grouping.rowsOver = .ok rows ∧
        grouping.rowsOf shown = rows.flatten.map .ok) ∧
    (∀ rows, (stream.group grouping context started).Shows started rows →
      ∃ shown, (stream.turns grouping context started).Shows started shown ∧
        rows.map (·.2) = grouping.rowsOf shown) := by
  constructor
  · intro shown shows clean
    rcases traced_turns (stream started) GroupState.start (fun _ none => nomatch none) shows with
      ⟨input, follows, reads⟩
    have holds := follows.predicateWindowed windowed clean
    refine ⟨⟨input, reads clean, follows.rows_eq clean⟩, ?_, holds,
      holds.rows (by rw [windowed]; rfl) clean⟩
    intro turn member arrived placed row record event
    have yields := follows.yields (Nat.le_refl started) turn member arrived placed row record event
    exact ⟨yields, triggers_of_yields windowed yields⟩
  · intro rows shows
    exact shows_groupRows grouping (stream.turns grouping context started) shows

/-- Of two records in a row on which the predicate holds the first closes a window, and the record
between the second and the next such one is in its window. -/
theorem predicateWindows_runs_five :
    let grouping := counting (.predicate fun _ row => .ok row.isTruthy)
    let context : Context := ⟨.null, none, [], Settings.default, .still 0⟩
    let stream : Stream Value := Feed.ofScript
      (.ofValues [.null, .boolean true, .boolean true, .null, .boolean true, .null])
    let shown := ((stream.turns grouping context 0).run none (.start (.single ⟨[], true⟩ false))).items
    grouping.PredicateWindowed none (turnsOf shown) ∧
      (acceptedBy (turnsOf shown)).map (·.record.triggers) =
        [false, true, true, false, true, false] ∧
      (turnsOf shown).map (fun turn => turn.closed.map (·.1)) = [[], [0], [], [], [1], [], [2]] ∧
      grouping.rowsOf shown = [.ok ⟨.null, [.int64 2]⟩, .ok ⟨.boolean true, [.int64 3]⟩,
        .ok ⟨.null, [.int64 1]⟩] := by
  intro grouping context stream shown
  subst stream context grouping
  have clean : ∀ entry ∈ shown, ∃ turn, entry.2 = .ok turn := by
    iterate 7 refine List.forall_mem_cons.mpr ⟨⟨_, rfl⟩, ?_⟩
    exact fun _ member => nomatch member
  have shows : Feed.Shows _ 0 shown := Feed.shows_run _ (.start _) rfl
  rcases (predicateWindows_runs rfl _ 0).1 shown shows clean with ⟨_, _, holds, _⟩
  exact ⟨holds, rfl, rfl, rfl⟩

end Grouping

end StreamQuery
