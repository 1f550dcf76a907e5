import StreamQuery.Proofs.Window.Placement
namespace StreamQuery

/-! Count windows. The position of a record is its number among the accepted ones, and a window
closes in the turn of the last record that it takes. -/

namespace Window

def numbered (records : List Entry) : List (Nat × Entry) :=
  records.zipIdx.map Prod.swap

theorem numbered_concat (records : List Entry) (entry : Entry) :
    numbered (records ++ [entry]) = numbered records ++ [(records.length, entry)] := by
  simp [numbered, List.zipIdx_append]

theorem within_numbered (size step id : Nat) (records : List Entry) :
    within size step id (numbered records) = (records.drop (id * step)).take size := by
  -- The first record may have any number.
  suffices general : ∀ first, ((records.zipIdx first).filter fun entry =>
      Covers size step id entry.2).map (·.1) =
        (records.drop (id * step - first)).take (id * step + size - max (id * step) first) by
    have zero := general 0
    simp only [Nat.sub_zero, Nat.max_eq_left (Nat.zero_le _), Nat.add_sub_cancel_left] at zero
    rw [← zero]
    simp [within, numbered, List.filter_map, Function.comp_def]
  induction records with
  | nil => simp
  | cons entry records induction =>
      intro first
      have rest := induction (first + 1)
      rw [List.zipIdx_cons, List.filter_cons]
      by_cases early : first < id * step
      · have outside : ¬Covers size step id first := fun covers =>
          Nat.not_le_of_lt early covers.1
        have ahead : id * step - first = id * step - (first + 1) + 1 := by omega
        have bound : max (id * step) first = max (id * step) (first + 1) := by omega
        rw [if_neg (by simpa using outside), rest, ahead, bound, List.drop_succ_cons]
      · have begun : id * step - first = 0 := by omega
        have begunLater : id * step - (first + 1) = 0 := by omega
        rw [begunLater, List.drop_zero] at rest
        rw [begun, List.drop_zero]
        by_cases full : id * step + size ≤ first
        · have outside : ¬Covers size step id first := fun covers =>
            Nat.not_lt_of_le full covers.2
          have spent : id * step + size - max (id * step) first = 0 := by omega
          have spentLater : id * step + size - max (id * step) (first + 1) = 0 := by omega
          rw [if_neg (by simpa using outside), rest, spent, spentLater, List.take_zero,
            List.take_zero]
        · have covers : Covers size step id first := ⟨by omega, by omega⟩
          have more : id * step + size - max (id * step) first =
              id * step + size - max (id * step) (first + 1) + 1 := by omega
          rw [if_pos (by simpa using covers), List.map_cons, rest, more, List.take_succ_cons]

end Window

theorem OpenWindows.Ascending.not_of_mem_dropWhile {windows : OpenWindows}
    (ascending : windows.Ascending) {full : Nat × GroupTable → Bool}
    (downward : ∀ earlier later : Nat × GroupTable, earlier.1 < later.1 → full later = true →
      full earlier = true) :
    ∀ window ∈ windows.dropWhile full, full window = false := by
  induction windows with
  | nil => exact fun _ member => nomatch member
  | cons first rest induction =>
      have parts := List.pairwise_cons.mp ascending
      rw [List.dropWhile_cons]
      split
      · exact induction parts.2
      · next unfull =>
          refine List.forall_mem_cons.mpr ⟨by simpa using unfull, ?_⟩
          intro window member
          exact Bool.eq_false_iff.mpr fun full =>
            unfull (downward first window (parts.1 window member) full)

namespace Grouping

def acceptedBy (turns : List GroupTurn) : List Entry :=
  (placedBy turns).map (·.2)

theorem acceptedBy_concat (before : List GroupTurn) (turn : GroupTurn) :
    acceptedBy (before ++ [turn]) = acceptedBy before ++ (turn.placement?.map (·.2)).toList := by
  rw [acceptedBy, placedBy_concat, List.map_append, acceptedBy]
  cases turn.placement? <;> rfl

/-- What holds after so many accepted records, with the windows closed so far and the open ones. -/
structure Counted (grouping : Grouping) (maxGroups : Option Nat) (size skip seen : Nat)
    (closed windows : OpenWindows) (records : List Entry) : Prop where
  regular : windows.Regular grouping.aggregations
  counts : seen = records.length
  partition : grouping.Placed maxGroups size skip closed windows (Window.numbered records)
  full : ∀ window ∈ closed, window.1 * skip + size ≤ seen
  unfull : ∀ window ∈ windows, seen < window.1 * skip + size

variable {grouping : Grouping} {context : Context} {maxGroups : Option Nat}
  {size skip seen started : Nat} {closed windows : OpenWindows} {records : List Entry}

theorem accept_of_count (windowed : grouping.window = some (.count size skip)) {state : GroupState}
    (accepted : grouping.accept maxGroups elapsed row record state = (next, .ok closed)) :
    ∃ added,
      grouping.admits maxGroups record state.windows (Window.covering state.seen size skip) =
        .ok () ∧
      grouping.addToAll maxGroups row record (Window.covering state.seen size skip)
        state.windows = (added, .ok ()) ∧
      closed ++ next.windows = added ∧ next.seen = state.seen + 1 ∧
      (∀ window ∈ closed, window.1 * skip + size ≤ state.seen + 1) ∧
      next.windows = added.dropWhile fun window => window.1 * skip + size ≤ state.seen + 1 := by
  rcases accept_ok accepted with ⟨admits, added, adds, closes⟩
  have windows := close_windows closes
  simp only [close, windowed] at closes
  simp only [windowsOf, windowed] at admits adds
  cases closes
  refine ⟨added, admits, adds, windows, rfl, ?_, rfl⟩
  intro window member
  simpa using List.all_eq_true.mp List.all_takeWhile window member

namespace Counted

theorem start : grouping.Counted maxGroups size skip 0 [] [] [] where
  regular _ member := nomatch member
  counts := rfl
  partition := .start size skip
  full _ member := nomatch member
  unfull _ member := nomatch member

theorem add (counted : grouping.Counted maxGroups size skip seen closed windows records)
    (positive : 0 < skip)
    (admits : grouping.admits maxGroups record windows (Window.covering seen size skip) = .ok ())
    (adds : grouping.addToAll maxGroups row record (Window.covering seen size skip) windows =
      (closing ++ rest, .ok ()))
    (full : ∀ window ∈ closing, window.1 * skip + size ≤ seen + 1)
    (remain : rest = (closing ++ rest).dropWhile fun window => window.1 * skip + size ≤ seen + 1)
    (regular : OpenWindows.Regular grouping.aggregations rest) :
    grouping.Counted maxGroups size skip (seen + 1) (closed ++ closing) rest
        (records ++ [⟨row, record⟩]) ∧
      ∀ window ∈ closing, window.1 * skip + size = seen + 1 := by
  have placed := counted.partition.add positive counted.full admits adds
  have open_ := (List.pairwise_append.mp counted.partition.ascending).2.1
  rcases mem_addToAll open_ (Window.covering_nodup seen size skip) adds with ⟨ascending, members⟩
  have later : ∀ window ∈ closing ++ rest, seen < window.1 * skip + size := by
    rintro ⟨id, table⟩ member
    by_cases covered : id ∈ Window.covering seen size skip
    · exact ((Window.mem_covering positive).mp covered).2
    · exact counted.unfull _ (((members id table).2 covered).mp member)
  constructor
  · constructor
    case regular => exact regular
    case counts => rw [List.length_append, List.length_singleton, counted.counts]
    case partition =>
      rw [Window.numbered_concat, ← counted.counts]
      exact placed.close
    case full =>
      intro window member
      rcases List.mem_append.mp member with member | member
      · exact Nat.le_succ_of_le (counted.full window member)
      · exact full window member
    case unfull =>
      intro window member
      rw [remain] at member
      have unfull := ascending.not_of_mem_dropWhile (fun earlier later less ends => ?_) window member
      · simpa using unfull
      · have := Nat.mul_le_mul_right skip (Nat.le_of_lt less)
        simp only [decide_eq_true_eq] at ends ⊢
        omega
  · intro window member
    exact Nat.le_antisymm (full window member) (later window (List.mem_append_left rest member))

theorem accept (windowed : grouping.window = some (.count size skip)) (positive : 0 < skip)
    {state : GroupState}
    (counted : grouping.Counted maxGroups size skip state.seen closed state.windows records)
    (accepted : grouping.accept maxGroups elapsed row record state = (next, .ok closing)) :
    grouping.Counted maxGroups size skip next.seen (closed ++ closing) next.windows
        (records ++ [⟨row, record⟩]) ∧
      ∀ window ∈ closing, window.1 * skip + size = next.seen := by
  rcases accept_of_count windowed accepted with ⟨added, admits, adds, rfl, seen, full, remain⟩
  rw [seen]
  exact counted.add positive admits adds full remain (accept_regular counted.regular accepted)

theorem step (windowed : grouping.window = some (.count size skip)) (positive : 0 < skip)
    (step : grouping.Step context started state now taken turn later)
    (counted : grouping.Counted context.settings.maxGroups size skip state.seen (closedBy before)
      state.windows (acceptedBy before)) :
    grouping.Counted context.settings.maxGroups size skip turn.state.seen
      (closedBy (before ++ [turn])) turn.state.windows (acceptedBy (before ++ [turn])) := by
  rw [closedBy_concat, acceptedBy_concat]
  cases step with
  | expired _ closes _ _ => simp [closing?, windowed] at closes
  | accepted _ _ _ accepted => exact (counted.accept windowed positive accepted).1
  | unevaluated _ _ _ => simpa [GroupTurn.placement?] using counted
  | refused _ _ refused _ =>
      rw [(eq_of_accept_error counted.regular refused).1]
      simpa [GroupTurn.placement?] using counted

end Counted

/-- The window of a number over accepted records: the segment of its size. -/
def segment (grouping : Grouping) (maxGroups : Option Nat) (size skip : Nat) (records : List Entry)
    (id : Nat) : Nat × GroupTable :=
  (id, grouping.tableOf maxGroups ((records.drop (id * skip)).take size))

def segments (grouping : Grouping) (maxGroups : Option Nat) (size skip : Nat)
    (records : List Entry) : OpenWindows :=
  ((List.range records.length).filter (· * skip < records.length)).map
    (grouping.segment maxGroups size skip records)

theorem segments_ascending (size skip : Nat) :
    (grouping.segments maxGroups size skip records).Ascending :=
  List.Pairwise.map _ (fun _ _ less => less) (List.pairwise_lt_range.filter _)

theorem mem_segments (positive : 0 < skip) (window : Nat × GroupTable) :
    window ∈ grouping.segments maxGroups size skip records ↔
      window = grouping.segment maxGroups size skip records window.1 ∧
        window.1 * skip < records.length := by
  simp only [segments, List.mem_map, List.mem_filter, List.mem_range, decide_eq_true_eq]
  constructor
  · rintro ⟨id, ⟨_, begun⟩, rfl⟩
    exact ⟨rfl, begun⟩
  · rintro ⟨same, begun⟩
    have less := Nat.lt_of_le_of_lt (Nat.le_mul_of_pos_right window.1 positive) begun
    exact ⟨window.1, ⟨less, begun⟩, same.symm⟩

/-- What a run of the loop over count windows comes to, told by its turns. -/
structure CountWindowed (grouping : Grouping) (maxGroups : Option Nat) (size skip : Nat)
    (turns : List GroupTurn) : Prop where
  /-- A window closes in the turn of the last record that it takes. -/
  filled : ∀ before turn after, turns = before ++ turn :: after → turn.placement?.isSome →
    ∀ window, window ∈ turn.closed ↔
      window = grouping.segment maxGroups size skip (acceptedBy (before ++ [turn])) window.1 ∧
        window.1 * skip + size = (acceptedBy (before ++ [turn])).length
  /-- After an accepted record the windows that hold a record and are not full are open. -/
  opened : ∀ before turn after, turns = before ++ turn :: after → turn.placement?.isSome →
    turn.state.windows.Ascending ∧ ∀ window, window ∈ turn.state.windows ↔
      window = grouping.segment maxGroups size skip (acceptedBy (before ++ [turn])) window.1 ∧
        window.1 * skip < (acceptedBy (before ++ [turn])).length ∧
        (acceptedBy (before ++ [turn])).length < window.1 * skip + size
  /-- In the end every window in which a record lies has closed, in the order of their numbers. -/
  emptied : closedBy turns = grouping.segments maxGroups size skip (acceptedBy turns)
  /-- All records of a window were taken into its groups. -/
  grouped : ∀ id, grouping.Grouped maxGroups (((acceptedBy turns).drop (id * skip)).take size)

theorem Placed.mem_iff (sized : 0 < size)
    (placed : grouping.Placed maxGroups size skip closed windows (Window.numbered records))
    (window : Nat × GroupTable) :
    window ∈ closed ++ windows ↔
      window = grouping.segment maxGroups size skip records window.1 ∧
        window.1 * skip < records.length := by
  rcases window with ⟨id, table⟩
  rw [placed.exact, Window.within_numbered]
  have held : (records.drop (id * skip)).take size ≠ [] ↔ id * skip < records.length := by
    rw [← List.length_pos_iff, List.length_take, List.length_drop]
    omega
  rw [held, segment, Prod.mk.injEq]
  exact ⟨fun both => ⟨⟨rfl, both.2⟩, both.1⟩, fun both => ⟨both.2, both.1.2⟩⟩

theorem Counted.mem_closing_iff (sized : 0 < size)
    (counted : grouping.Counted maxGroups size skip (seen + 1) (closed ++ closing) windows records)
    (earlier : ∀ window ∈ closed, window.1 * skip + size ≤ seen)
    (ends : ∀ window ∈ closing, window.1 * skip + size = seen + 1) (window : Nat × GroupTable) :
    window ∈ closing ↔
      window = grouping.segment maxGroups size skip records window.1 ∧
        window.1 * skip + size = records.length := by
  have members := counted.partition.mem_iff sized window
  rw [← counted.counts] at members ⊢
  constructor
  · intro closes
    have held := members.mp (List.mem_append_left _ (List.mem_append_right _ closes))
    exact ⟨held.1, ends window closes⟩
  · rintro ⟨same, full⟩
    have held := members.mpr ⟨same, by omega⟩
    rcases List.mem_append.mp held with past | open_
    · rcases List.mem_append.mp past with past | closes
      · have := earlier window past
        omega
      · exact closes
    · have := counted.unfull window open_
      omega

theorem Counted.mem_open_iff (sized : 0 < size)
    (counted : grouping.Counted maxGroups size skip seen closed windows records)
    (window : Nat × GroupTable) :
    window ∈ windows ↔
      window = grouping.segment maxGroups size skip records window.1 ∧
        window.1 * skip < records.length ∧ records.length < window.1 * skip + size := by
  have members := counted.partition.mem_iff sized window
  rw [← counted.counts] at members ⊢
  constructor
  · intro open_
    have held := members.mp (List.mem_append_right _ open_)
    exact ⟨held.1, held.2, counted.unfull window open_⟩
  · rintro ⟨same, begun, unfull⟩
    rcases List.mem_append.mp (members.mpr ⟨same, begun⟩) with past | open_
    · have := counted.full window past
      omega
    · exact open_

/-- The windows that have closed, and then the open ones, are the segments. -/
theorem Counted.eq_segments (sized : 0 < size) (positive : 0 < skip)
    (counted : grouping.Counted maxGroups size skip seen closed windows records) :
    closed ++ windows = grouping.segments maxGroups size skip records := by
  apply counted.partition.ascending.eq_of_mem_iff (segments_ascending _ _)
  intro window
  rw [counted.partition.mem_iff sized, mem_segments positive]

theorem Follows.counted (windowed : grouping.window = some (.count size skip))
    (positive : 0 < skip)
    (follows : grouping.Follows context started GroupState.start started input shown)
    {before after : List GroupTurn} {turn : GroupTurn}
    (split : turnsOf shown = before ++ turn :: after) :
    ∃ state now, grouping.Counted context.settings.maxGroups size skip state.seen
        (closedBy before) state.windows (acceptedBy before) ∧
      ((∃ taken later, grouping.Step context started state now taken turn later) ∨
        turn = ⟨.completed, state.windows, { state with windows := [] }⟩) :=
  follows.invariant
    (fun state _ before => grouping.Counted context.settings.maxGroups size skip state.seen
      (closedBy before) state.windows (acceptedBy before))
    (Counted.step windowed positive) Counted.start before turn after split

theorem Follows.counted_of_placed (windowed : grouping.window = some (.count size skip))
    (positive : 0 < skip)
    (follows : grouping.Follows context started GroupState.start started input shown)
    {before after : List GroupTurn} {turn : GroupTurn}
    (split : turnsOf shown = before ++ turn :: after) (placed : turn.placement?.isSome) :
    ∃ seen, grouping.Counted context.settings.maxGroups size skip (seen + 1)
        (closedBy before ++ turn.closed) turn.state.windows (acceptedBy (before ++ [turn])) ∧
      (∀ window ∈ closedBy before, window.1 * skip + size ≤ seen) ∧
      ∀ window ∈ turn.closed, window.1 * skip + size = seen + 1 := by
  rcases follows.counted windowed positive split with
    ⟨state, now, counted, ⟨taken, later, step⟩ | rfl⟩
  · cases step with
    | expired => cases placed
    | unevaluated => cases placed
    | refused => cases placed
    | accepted _ _ _ accepted =>
        have same := (accept_of_count windowed accepted).choose_spec.2.2.2.1
        have after := counted.accept windowed positive accepted
        rw [same] at after
        refine ⟨state.seen, ?_, counted.full, after.2⟩
        rw [acceptedBy_concat]
        exact after.1
  · cases placed

theorem Follows.countWindowed (windowed : grouping.window = some (.count size skip))
    (sized : 0 < size) (positive : 0 < skip)
    (follows : grouping.Follows context started GroupState.start started input shown)
    (clean : ∀ entry ∈ shown, ∃ turn, entry.2 = .ok turn) :
    grouping.CountWindowed context.settings.maxGroups size skip (turnsOf shown) := by
  constructor
  case filled =>
    intro before turn after split placed
    rcases follows.counted_of_placed windowed positive split placed with
      ⟨seen, counted, earlier, ends⟩
    exact counted.mem_closing_iff sized earlier ends
  case opened =>
    intro before turn after split placed
    rcases follows.counted_of_placed windowed positive split placed with ⟨seen, counted, _, _⟩
    exact ⟨(List.pairwise_append.mp counted.partition.ascending).2.1, counted.mem_open_iff sized⟩
  case emptied =>
    rcases follows.last clean with ⟨before, last, same, completes, _⟩
    rcases follows.counted windowed positive same with
      ⟨state, now, counted, ⟨taken, later, step⟩ | rfl⟩
    · cases step <;> cases completes
    · rw [same, closedBy_concat, acceptedBy_concat]
      simp only [GroupTurn.placement?, Option.map_none, Option.toList_none, List.append_nil]
      exact counted.eq_segments sized positive
  case grouped =>
    intro id
    rcases follows.last clean with ⟨before, last, same, completes, _⟩
    rcases follows.counted windowed positive same with
      ⟨state, now, counted, ⟨taken, later, step⟩ | rfl⟩
    · cases step <;> cases completes
    · have grouped := counted.partition.grouped id
      rw [Window.within_numbered] at grouped
      rw [same, acceptedBy_concat]
      simpa [GroupTurn.placement?] using grouped

end Grouping

end StreamQuery
