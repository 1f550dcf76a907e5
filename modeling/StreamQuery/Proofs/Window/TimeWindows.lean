import StreamQuery.Proofs.Window.Placement
namespace StreamQuery

/-! Time windows. The windows that are open all end after the present instant when a record is
placed, those that have closed ended by then, and so a record meets exactly the windows that cover
the instant of its arrival. -/

namespace Grouping

def Immediate (grouping : Grouping) (context : Context) : Prop :=
  ∀ row now result later,
    ((grouping.contribution (context.withRow row)).run now).Yields now result later → later = now

structure Timely (grouping : Grouping) (maxGroups : Option Nat) (size slide started now : Nat)
    (closed windows : OpenWindows) (placed : List (Nat × Entry)) : Prop where
  begun : started ≤ now
  regular : windows.Regular grouping.aggregations
  partition : grouping.Placed maxGroups size slide closed windows placed
  due : ∀ window ∈ closed, started + (window.1 * slide + size) ≤ now
  past : ∀ entry ∈ placed, started + entry.1 ≤ now
  ahead : ∀ entry ∈ placed, ∀ window ∈ windows, entry.1 < window.1 * slide + size

variable {grouping : Grouping} {context : Context} {maxGroups : Option Nat}
  {size slide started now : Nat} {closed windows : OpenWindows} {placed : List (Nat × Entry)}

theorem closing?_of_time (windowed : grouping.window = some (.time size slide)) (id : Nat) :
    grouping.closing? started id = some (started + (id * slide + size)) := by
  simp [closing?, windowed, Nat.add_assoc]

theorem OldestStays.all (windowed : grouping.window = some (.time size slide))
    (ascending : windows.Ascending) (stays : grouping.OldestStays started windows now) :
    ∀ window ∈ windows, now < started + (window.1 * slide + size) := by
  cases windows with
  | nil => exact fun _ member => nomatch member
  | cons oldest rest =>
      have first : now < started + (oldest.1 * slide + size) :=
        stays oldest rfl _ (closing?_of_time windowed oldest.1)
      refine List.forall_mem_cons.mpr ⟨first, ?_⟩
      intro window member
      have later := (List.pairwise_cons.mp ascending).1 window member
      have := Nat.mul_le_mul_right slide (Nat.le_of_lt later)
      omega

theorem accept_of_time (windowed : grouping.window = some (.time size slide)) {state : GroupState}
    (accepted : grouping.accept maxGroups elapsed row record state = (next, .ok closed)) :
    closed = [] ∧
      grouping.admits maxGroups record state.windows (Window.covering elapsed size slide) = .ok () ∧
      grouping.addToAll maxGroups row record (Window.covering elapsed size slide) state.windows =
        (next.windows, .ok ()) := by
  rcases accept_ok accepted with ⟨admits, windows, adds, closes⟩
  simp only [close, windowed] at closes
  simp only [windowsOf, windowed] at admits adds
  cases closes
  exact ⟨rfl, admits, adds⟩

namespace Timely

theorem start (started : Nat) : grouping.Timely maxGroups size slide started started [] [] [] where
  begun := Nat.le_refl started
  regular _ member := nomatch member
  partition := .start size slide
  due _ member := nomatch member
  past _ member := nomatch member
  ahead _ member := nomatch member

theorem wait (timely : grouping.Timely maxGroups size slide started now closed windows placed)
    (reached : now ≤ later) :
    grouping.Timely maxGroups size slide started later closed windows placed where
  begun := Nat.le_trans timely.begun reached
  regular := timely.regular
  partition := timely.partition
  due window member := Nat.le_trans (timely.due window member) reached
  past entry member := Nat.le_trans (timely.past entry member) reached
  ahead := timely.ahead

theorem expire
    (timely : grouping.Timely maxGroups size slide started now closed (oldest :: rest) placed)
    (past : started + (oldest.1 * slide + size) ≤ now) :
    grouping.Timely maxGroups size slide started now (closed ++ [oldest]) rest placed where
  begun := timely.begun
  regular window member := timely.regular window (List.mem_cons_of_mem oldest member)
  partition := timely.partition.close
  due window member := by
    rcases List.mem_append.mp member with member | member
    · exact timely.due window member
    · rw [List.mem_singleton.mp member]
      exact past
  past := timely.past
  ahead entry member window later := timely.ahead entry member window (List.mem_cons_of_mem _ later)

theorem add (timely : grouping.Timely maxGroups size slide started now closed windows placed)
    (positive : 0 < slide)
    (stays : ∀ window ∈ windows, now < started + (window.1 * slide + size))
    (regular : OpenWindows.Regular grouping.aggregations added)
    (admits : grouping.admits maxGroups record windows
      (Window.covering (now - started) size slide) = .ok ())
    (adds : grouping.addToAll maxGroups row record (Window.covering (now - started) size slide)
      windows = (added, .ok ())) :
    grouping.Timely maxGroups size slide started now closed added
      (placed ++ [(now - started, ⟨row, record⟩)]) := by
  have begun := timely.begun
  have open_ := (List.pairwise_append.mp timely.partition.ascending).2.1
  rcases mem_addToAll open_ (Window.covering_nodup _ size slide) adds with ⟨_, members⟩
  have later : ∀ window ∈ added, now - started < window.1 * slide + size := by
    rintro ⟨id, table⟩ member
    by_cases covered : id ∈ Window.covering (now - started) size slide
    · exact ((Window.mem_covering positive).mp covered).2
    · have := stays _ (((members id table).2 covered).mp member)
      dsimp only at this ⊢
      omega
  constructor
  case begun => exact begun
  case regular => exact regular
  case partition =>
    refine timely.partition.add positive ?_ admits adds
    intro window member
    have := timely.due window member
    omega
  case due => exact timely.due
  case past =>
    intro entry member
    rcases List.mem_append.mp member with member | member
    · exact timely.past entry member
    · rw [List.mem_singleton.mp member]
      exact Nat.le_of_eq (Nat.add_sub_of_le begun)
  case ahead =>
    intro entry member window opened
    have least := later window opened
    rcases List.mem_append.mp member with member | member
    · have := timely.past entry member
      omega
    · rw [List.mem_singleton.mp member]
      exact least

theorem step (windowed : grouping.window = some (.time size slide)) (positive : 0 < slide)
    (immediate : grouping.Immediate context)
    (step : grouping.Step context started state now taken turn later)
    (timely : grouping.Timely context.settings.maxGroups size slide started now (closedBy before)
      state.windows (placedBy before)) :
    grouping.Timely context.settings.maxGroups size slide started later
      (closedBy (before ++ [turn])) turn.state.windows (placedBy (before ++ [turn])) := by
  have regular := step.regular timely.regular
  have waited := timely.wait step.le
  rw [closedBy_concat, placedBy_concat]
  cases step with
  | expired oldest closes reached past =>
      rw [closing?_of_time windowed] at closes
      cases closes
      rw [oldest] at waited
      simpa [GroupTurn.placement?] using waited.expire past
  | accepted reached stays yields accepted =>
      cases immediate _ _ _ _ yields
      rcases accept_of_time windowed accepted with ⟨rfl, admits, adds⟩
      have ascending := (List.pairwise_append.mp timely.partition.ascending).2.1
      simpa [GroupTurn.placement?] using
        waited.add positive (stays.all windowed ascending) regular admits adds
  | unevaluated _ _ _ => simpa [GroupTurn.placement?] using waited
  | refused _ _ refused _ =>
      rw [(eq_of_accept_error timely.regular refused).1]
      simpa [GroupTurn.placement?] using waited

end Timely

def AllAccepted (shown : List (Nat × Except QueryError GroupTurn)) : Prop :=
  ∀ entry ∈ shown, ∃ turn, entry.2 = .ok turn ∧
    ∀ arrived row error, turn.event ≠ .skipped arrived row error

/-- The input of a run that accepts every record is what the turns have placed, each record at the
instant of its arrival and with what it contributes. -/
theorem Follows.input_eq (immediate : grouping.Immediate context) (begun : started ≤ now)
    (follows : grouping.Follows context started state now input shown)
    (accepted : AllAccepted shown) :
    input = (placedBy (turnsOf shown)).map (fun (position, entry) =>
        (started + position, entry.row)) ∧
      ∀ placement ∈ placedBy (turnsOf shown),
        ((grouping.contribution (context.withRow placement.2.row)).run
          (started + placement.1)).Yields (started + placement.1) (.ok placement.2.record)
          (started + placement.1) := by
  induction follows with
  | failed =>
      rcases accepted _ List.mem_cons_self with ⟨turn, same, _⟩
      cases same
  | completed => exact ⟨rfl, fun _ member => nomatch member⟩
  | turn step follows induction =>
      rcases List.forall_mem_cons.mp accepted with ⟨⟨turn, same, unskipped⟩, others⟩
      cases same
      rcases induction (Nat.le_trans begun step.le) others with ⟨read, yields⟩
      subst read
      cases step with
      | expired => exact ⟨rfl, yields⟩
      | unevaluated => exact absurd rfl (unskipped _ _ _)
      | refused => exact absurd rfl (unskipped _ _ _)
      | accepted reached _ yielded _ =>
          cases immediate _ _ _ _ yielded
          have arrival := Nat.add_sub_of_le (Nat.le_trans begun reached)
          constructor
          · exact congrArg (fun arrived => (arrived, _) :: _) arrival.symm
          · refine List.forall_mem_cons.mpr ⟨?_, yields⟩
            rw [arrival]
            exact yielded

/-- What a run of the loop over time windows comes to, told by its turns. -/
structure TimeWindowed (grouping : Grouping) (maxGroups : Option Nat) (size slide : Nat)
    (turns : List GroupTurn) : Prop where
  /-- After every turn the windows that have closed, and then the open ones, are those in which a
  record lies so far. A window that has closed is never opened again, as each is there once. -/
  partition : ∀ before turn after, turns = before ++ turn :: after →
    grouping.Placed maxGroups size slide (closedBy (before ++ [turn])) turn.state.windows
      (placedBy (before ++ [turn]))
  /-- In the end every window in which a record lies has closed. -/
  emptied : grouping.Placed maxGroups size slide (closedBy turns) [] (placedBy turns)
  /-- A window that closes after a record was placed ends after the arrival of that record. -/
  flushed : ∀ before turn after, turns = before ++ turn :: after →
    ∀ entry ∈ placedBy before, ∀ window ∈ turn.closed, entry.1 < window.1 * slide + size
  /-- A record closes no window itself. -/
  placing : ∀ turn ∈ turns, turn.placement?.isSome → turn.closed = []
  ticking : ∀ turn ∈ turns, turn.event = .expired → turn.closed ≠ []

theorem Step.of_time (windowed : grouping.window = some (.time size slide))
    (step : grouping.Step context started state now taken turn later) :
    (turn.event = .expired ∧ ∃ oldest, turn.closed = [oldest] ∧ oldest ∈ state.windows) ∨
      (turn.event ≠ .expired ∧ turn.closed = []) := by
  cases step with
  | expired oldest => exact .inl ⟨rfl, _, rfl, oldest ▸ List.mem_cons_self⟩
  | accepted _ _ _ accepted =>
      exact .inr ⟨fun same => (nomatch same), (accept_of_time windowed accepted).1⟩
  | unevaluated => exact .inr ⟨fun same => (nomatch same), rfl⟩
  | refused => exact .inr ⟨fun same => (nomatch same), rfl⟩

theorem Follows.timely (windowed : grouping.window = some (.time size slide))
    (positive : 0 < slide) (immediate : grouping.Immediate context)
    (follows : grouping.Follows context started GroupState.start started input shown)
    {before after : List GroupTurn} {turn : GroupTurn}
    (split : turnsOf shown = before ++ turn :: after) :
    ∃ state now, grouping.Timely context.settings.maxGroups size slide started now
        (closedBy before) state.windows (placedBy before) ∧
      ((∃ taken later, grouping.Step context started state now taken turn later) ∨
        turn = ⟨.completed, state.windows, { state with windows := [] }⟩) :=
  follows.invariant
    (fun state now before => grouping.Timely context.settings.maxGroups size slide started now
      (closedBy before) state.windows (placedBy before))
    (Timely.step windowed positive immediate) (Timely.start started) before turn after split

theorem Follows.placed_after (windowed : grouping.window = some (.time size slide))
    (positive : 0 < slide) (immediate : grouping.Immediate context)
    (follows : grouping.Follows context started GroupState.start started input shown)
    {before after : List GroupTurn} {turn : GroupTurn}
    (split : turnsOf shown = before ++ turn :: after) :
    grouping.Placed context.settings.maxGroups size slide (closedBy (before ++ [turn]))
      turn.state.windows (placedBy (before ++ [turn])) := by
  rcases follows.timely windowed positive immediate split with
    ⟨state, now, timely, ⟨taken, later, step⟩ | rfl⟩
  · exact (Timely.step windowed positive immediate step timely).partition
  · rw [closedBy_concat, placedBy_concat]
    apply Placed.close
    simpa [GroupTurn.placement?] using timely.partition

theorem Follows.timeWindowed (windowed : grouping.window = some (.time size slide))
    (positive : 0 < slide) (immediate : grouping.Immediate context)
    (follows : grouping.Follows context started GroupState.start started input shown)
    (clean : ∀ entry ∈ shown, ∃ turn, entry.2 = .ok turn) :
    grouping.TimeWindowed context.settings.maxGroups size slide (turnsOf shown) := by
  constructor
  case partition =>
    intro before turn after split
    exact follows.placed_after windowed positive immediate split
  case emptied =>
    rcases follows.last clean with ⟨before, last, same, _, emptied⟩
    have placed := follows.placed_after windowed positive immediate same
    rwa [emptied, ← same] at placed
  case flushed =>
    intro before turn after split entry member window closes
    rcases follows.timely windowed positive immediate split with
      ⟨state, now, timely, ⟨taken, later, step⟩ | rfl⟩
    · rcases step.of_time windowed with ⟨_, oldest, only, opened⟩ | ⟨_, none⟩
      · rw [only] at closes
        rw [List.mem_singleton.mp closes]
        exact timely.ahead entry member oldest opened
      · rw [none] at closes
        cases closes
    · exact timely.ahead entry member window closes
  case placing =>
    intro turn member placed
    rcases List.append_of_mem member with ⟨before, after, split⟩
    rcases follows.timely windowed positive immediate split with
      ⟨state, now, timely, ⟨taken, later, step⟩ | rfl⟩
    · rcases step.of_time windowed with ⟨event, _⟩ | ⟨_, none⟩
      · simp [GroupTurn.placement?, event] at placed
      · exact none
    · cases placed
  case ticking =>
    intro turn member event
    rcases List.append_of_mem member with ⟨before, after, split⟩
    rcases follows.timely windowed positive immediate split with
      ⟨state, now, timely, ⟨taken, later, step⟩ | rfl⟩
    · rcases step.of_time windowed with ⟨_, oldest, only, _⟩ | ⟨other, _⟩
      · rw [only]
        exact List.cons_ne_nil oldest []
      · exact absurd event other
    · cases event

/-- Over time windows, a run that accepts every record places it, once, in just the windows that
cover the instant of its arrival. Each window with a record is put out once, in ascending order, and
before any record that arrives at its end or later is placed. Its rows are those of the groups of its
records. The loop ends with its input. -/
theorem timeWindows_partition (windowed : grouping.window = some (.time size slide))
    (positive : 0 < slide) (immediate : grouping.Immediate context) (stream : Stream Value)
    (started : Nat) :
    (∀ shown, (stream.turns grouping context started).Shows started shown → AllAccepted shown →
      (stream started).Shows started ((placedBy (turnsOf shown)).map fun (position, entry) =>
        (started + position, .ok entry.row)) ∧
      (∀ placement ∈ placedBy (turnsOf shown),
        ((grouping.contribution (context.withRow placement.2.row)).run
          (started + placement.1)).Yields (started + placement.1) (.ok placement.2.record)
          (started + placement.1)) ∧
      grouping.TimeWindowed context.settings.maxGroups size slide (turnsOf shown) ∧
      ∃ rows : Nat → List GroupRow,
        (∀ id, grouping.rowsOver (Window.within size slide id (placedBy (turnsOf shown))) =
          .ok (rows id)) ∧
        (∀ turn ∈ turnsOf shown, turn.rows grouping = (turn.closed.map (·.1)).flatMap rows) ∧
        grouping.rowsOf shown = (((closedBy (turnsOf shown)).map (·.1)).flatMap rows).map .ok) ∧
    (∀ rows, (stream.group grouping context started).Shows started rows →
      ∃ shown, (stream.turns grouping context started).Shows started shown ∧
        rows.map (·.2) = grouping.rowsOf shown) ∧
    ((stream started).Ends →
      (∀ row now, ((grouping.contribution (context.withRow row)).run now).Ends) →
      (stream.group grouping context started).Ends ∧
        ∀ world, world.sources.End →
          ((stream.group grouping context started).run none world).ended.isSome) := by
  refine ⟨?_, ?_, ?_⟩
  · intro shown shows accepted
    have clean : ∀ entry ∈ shown, ∃ turn, entry.2 = .ok turn := by
      intro entry member
      rcases accepted entry member with ⟨turn, same, _⟩
      exact ⟨turn, same⟩
    rcases traced_turns (stream started) GroupState.start (fun _ none => nomatch none) shows with
      ⟨input, follows, reads⟩
    rcases follows.input_eq immediate (Nat.le_refl started) accepted with ⟨same, yields⟩
    have read := reads clean
    rw [same, List.map_map] at read
    have partition := follows.timeWindowed windowed positive immediate clean
    refine ⟨read, yields, partition, _, fun id => (partition.emptied.grouped id).rowsOver_eq, ?_⟩
    refine rows_of_closed (by rw [windowed]; rfl) clean fun window member => ?_
    have held := (partition.emptied.exact window.1 window.2).mp (List.mem_append_left [] member)
    rw [held.2]
  · intro rows shows
    exact shows_groupRows grouping (stream.turns grouping context started) shows
  · intro ends completes
    have finishes : (stream.group grouping context started).Ends :=
      ends_groupRows _ (ends_turns (stream started) ends completes _ started) started
    exact ⟨finishes, fun world sources => finishes.run world sources⟩

/-- Of records after 3, 7 and 13 milliseconds, the second lies in two windows of ten milliseconds,
five apart. -/
theorem timeWindows_partition_three :
    let grouping := counting (.time 10 5)
    let context : Context := ⟨.null, none, [], Settings.default, .still 0⟩
    let stream : Stream Value :=
      Feed.ofScript ⟨[⟨3, .ok (.boolean true)⟩, ⟨4, .ok .null⟩, ⟨6, .ok .null⟩], true⟩
    let shown := ((stream.turns grouping context 0).run none (.start (.single ⟨[], true⟩ false))).items
    grouping.TimeWindowed none 10 5 (turnsOf shown) ∧
      (closedBy (turnsOf shown)).map (·.1) = [0, 1, 2] ∧
      grouping.rowsOf shown =
        [.ok ⟨.boolean true, [.int64 2]⟩, .ok ⟨.null, [.int64 2]⟩, .ok ⟨.null, [.int64 1]⟩] ∧
      (stream.group grouping context 0).Ends := by
  intro grouping context stream shown
  subst stream context grouping
  have immediate : Immediate (counting (.time 10 5)) ⟨.null, none, [], .default, .still 0⟩ := by
    intro row now result later yields
    cases yields
    rfl
  have accepted : AllAccepted shown := by
    iterate 5 refine List.forall_mem_cons.mpr ⟨⟨_, rfl, fun _ _ _ same => nomatch same⟩, ?_⟩
    exact fun _ member => nomatch member
  rcases timeWindows_partition rfl (by decide) immediate _ 0 with ⟨runs, _, termination⟩
  rcases runs shown (Feed.shows_run _ (.start _) rfl) accepted with ⟨_, _, holds, _⟩
  refine ⟨holds, rfl, rfl, (termination ?_ ?_).1⟩
  · exact fun _ _ _ _ _ _ => trivial
  · exact fun _ _ => trivial

end Grouping

end StreamQuery
