import StreamQuery.Proofs.Stream.Timeline
import StreamQuery.Window.Grouping
namespace StreamQuery

/-! What the loop that groups records can do in one turn, and in a run to its end. -/

namespace Grouping

def OldestStays (grouping : Grouping) (started : Nat) (windows : OpenWindows) (now : Nat) : Prop :=
  ∀ window ∈ windows.head?, ∀ closing ∈ grouping.closing? started window.1, now < closing

/-- From a state at an instant, a turn comes at a later one. It may have read a record, with the
instant of its arrival. -/
inductive Step (grouping : Grouping) (context : Context) (started : Nat) :
    GroupState → Nat → List (Nat × Value) → GroupTurn → Nat → Prop
  | expired : state.windows = oldest :: rest →
      grouping.closing? started oldest.1 = some closing → now ≤ later → closing ≤ later →
      Step grouping context started state now []
        ⟨.expired, [oldest], { state with windows := rest }⟩ later
  | accepted : now ≤ arrived → grouping.OldestStays started state.windows arrived →
      ((grouping.contribution (context.withRow row)).run arrived).Yields arrived (.ok record) placed →
      grouping.accept context.settings.maxGroups (placed - started) row record state =
        (next, .ok closed) →
      Step grouping context started state now [(arrived, row)]
        ⟨.accepted (arrived - started) (placed - started) row record, closed, next⟩ placed
  | unevaluated : now ≤ arrived →
      ((grouping.contribution (context.withRow row)).run arrived).Yields arrived (.error error)
        later →
      context.settings.errorPolicy.skips error →
      Step grouping context started state now [(arrived, row)]
        ⟨.skipped (arrived - started) row error, [], state⟩ later
  | refused : now ≤ arrived →
      ((grouping.contribution (context.withRow row)).run arrived).Yields arrived (.ok record) placed →
      grouping.accept context.settings.maxGroups (placed - started) row record state =
        (next, .error error) →
      context.settings.errorPolicy.skips error →
      Step grouping context started state now [(arrived, row)]
        ⟨.skipped (arrived - started) row error, [], next⟩ placed

/-- A run of the loop: turns, and then the end of the input or an error, after which the input is
not read. -/
inductive Follows (grouping : Grouping) (context : Context) (started : Nat) :
    GroupState → Nat → List (Nat × Value) → List (Nat × Except QueryError GroupTurn) → Prop
  | failed : now ≤ later →
      Follows grouping context started state now input [(later, .error error)]
  | completed : now ≤ later →
      Follows grouping context started state now []
        [(later, .ok ⟨.completed, state.windows, { state with windows := [] }⟩)]
  | turn : grouping.Step context started state now taken turn later →
      Follows grouping context started turn.state later input following →
      Follows grouping context started state now (taken ++ input) ((later, .ok turn) :: following)

variable {grouping : Grouping} {context : Context} {started : Nat}

theorem Step.of_le (step : grouping.Step context started state now taken turn later)
    (before : first ≤ now) : grouping.Step context started state first taken turn later := by
  cases step with
  | expired oldest closing reached due =>
      exact .expired oldest closing (Nat.le_trans before reached) due
  | accepted reached stays yields accept =>
      exact .accepted (Nat.le_trans before reached) stays yields accept
  | unevaluated reached yields skips =>
      exact .unevaluated (Nat.le_trans before reached) yields skips
  | refused reached yields accept skips =>
      exact .refused (Nat.le_trans before reached) yields accept skips

theorem Step.le (step : grouping.Step context started state now taken turn later) :
    now ≤ later := by
  cases step with
  | expired _ _ reached _ => exact reached
  | accepted reached _ yields _ => exact Nat.le_trans reached yields.le
  | unevaluated reached yields _ => exact Nat.le_trans reached yields.le
  | refused reached yields _ _ => exact Nat.le_trans reached yields.le

theorem Follows.of_le (follows : grouping.Follows context started state now input shown)
    (before : first ≤ now) : grouping.Follows context started state first input shown := by
  cases follows with
  | failed reached => exact .failed (Nat.le_trans before reached)
  | completed reached => exact .completed (Nat.le_trans before reached)
  | turn step follows => exact .turn (step.of_le before) follows

/-- The items are a run of the loop, and if there is no error among them, an input of this kind was
read for it. -/
def Traced (grouping : Grouping) (context : Context) (started : Nat)
    (reads : List (Nat × Value) → Prop) (state : GroupState) (now : Nat)
    (shown : List (Nat × Except QueryError GroupTurn)) : Prop :=
  ∃ input, grouping.Follows context started state now input shown ∧
    ((∀ entry ∈ shown, ∃ turn, entry.2 = .ok turn) → reads input)

theorem Traced.imp {reads others : List (Nat × Value) → Prop}
    (traced : grouping.Traced context started reads state now shown) (before : first ≤ now)
    (weaker : ∀ input, reads input → others input) :
    grouping.Traced context started others state first shown := by
  rcases traced with ⟨input, follows, read⟩
  exact ⟨input, follows.of_le before, fun clean => weaker input (read clean)⟩

theorem Traced.cons {reads others : List (Nat × Value) → Prop}
    (step : grouping.Step context started state now taken turn later)
    (traced : grouping.Traced context started reads turn.state later following)
    (weaker : ∀ input, reads input → others (taken ++ input)) :
    grouping.Traced context started others state now ((later, .ok turn) :: following) := by
  rcases traced with ⟨input, follows, reading⟩
  exact ⟨taken ++ input, .turn step follows,
    fun clean => weaker input (reading (List.forall_mem_cons.mp clean).2)⟩

theorem traced_failed (reads : List (Nat × Value) → Prop) (reached : now ≤ later) :
    grouping.Traced context started reads state now [(later, .error error)] :=
  ⟨[], .failed reached, fun clean => by
    rcases clean _ List.mem_cons_self with ⟨turn, same⟩
    cases same⟩

/-- The input is read from an instant on at which it is ready. -/
def ReadsFrom (ready : Option Nat) (reads : Nat → List (Nat × Value) → Prop) (now : Nat)
    (input : List (Nat × Value)) : Prop :=
  ∃ resumed, now ≤ resumed ∧ (∀ instant ∈ ready, instant ≤ resumed) ∧ reads resumed input

theorem Traced.resume {ready : Option Nat} {reads : Nat → List (Nat × Value) → Prop}
    (traced : grouping.Traced context started (reads now) state now shown) (before : first ≤ now)
    (isReady : ∀ instant ∈ ready, instant ≤ now) :
    grouping.Traced context started (ReadsFrom ready reads first) state first shown := by
  apply traced.imp before
  intro input read
  exact ⟨now, before, isReady, read⟩

theorem oldestStays_of_none (closes : grouping.closing? started oldest.1 = none) (now : Nat) :
    grouping.OldestStays started (oldest :: rest) now := by
  intro window first closing found
  cases first
  cases closes.symm.trans found

theorem oldestStays_of_early (closes : grouping.closing? started oldest.1 = some closing)
    (early : ¬closing ≤ now) : grouping.OldestStays started (oldest :: rest) now := by
  intro window first other found
  cases first
  cases closes.symm.trans found
  exact Nat.lt_of_not_le early

theorem traced_await {ready : Option Nat} {next : Stream GroupTurn}
    {reads : Nat → List (Nat × Value) → Prop}
    (continues : ∀ now shown, (next now).Shows now shown →
      grouping.Traced context started (reads now) state now shown)
    (shows : (await ready next now).Shows now shown) :
    grouping.Traced context started (ReadsFrom ready reads now) state now shown := by
  cases ready with
  | none => cases shows
  | some instant =>
      simp only [await] at shows
      split at shows
      · next reached =>
          apply (continues now shown shows).resume (Nat.le_refl now)
          intro other same
          cases same
          exact reached
      · cases shows with
        | waiting reached before shows =>
            apply (continues _ shown shows).resume before
            intro other same
            cases same
            exact reached

theorem traced_expired {ready : Option Nat} {following : Stream GroupTurn}
    {reads : Nat → List (Nat × Value) → Prop} (windows : state.windows = oldest :: rest)
    (closes : grouping.closing? started oldest.1 = some closing) (before : first ≤ now)
    (due : closing ≤ now)
    (continues : ∀ later shown, (following later).Shows later shown →
      grouping.Traced context started (ReadsFrom ready reads later) { state with windows := rest }
        later shown)
    (shows : (Feed.item (.ok ⟨.expired, [oldest], { state with windows := rest }⟩)
      following).Shows now shown) :
    grouping.Traced context started (ReadsFrom ready reads first) state first shown := by
  cases shows with
  | item reached shows =>
      refine .cons (.expired windows closes before due)
        ((continues _ _ shows).imp reached fun _ read => read) ?_
      rintro input ⟨resumed, later, isReady, read⟩
      exact ⟨resumed, Nat.le_trans before (Nat.le_trans reached later), isReady, read⟩

theorem traced_attend {ready : Option Nat} {next : GroupState → Stream GroupTurn}
    {reads : Nat → List (Nat × Value) → Prop}
    (continues : ∀ state now shown, grouping.OldestStays started state.windows now →
      (next state now).Shows now shown →
      grouping.Traced context started (reads now) state now shown)
    (state : GroupState) (windows : OpenWindows)
    (shows : (grouping.attend started ready next state windows now).Shows now shown) :
    grouping.Traced context started (ReadsFrom ready reads now) { state with windows } now shown := by
  induction windows generalizing now shown with
  | nil =>
      apply traced_await (fun now shown shows => continues _ now shown ?_ shows) shows
      exact fun _ none => nomatch none
  | cons oldest rest induction =>
      simp only [attend] at shows
      cases closes : grouping.closing? started oldest.1 with
      | none =>
          simp only [closes] at shows
          apply traced_await (fun now shown shows => continues _ now shown ?_ shows) shows
          exact oldestStays_of_none closes now
      | some closing =>
          simp only [closes] at shows
          split at shows
          · next due =>
              exact traced_expired rfl closes (Nat.le_refl now) due (fun _ _ => induction) shows
          · next early =>
              split at shows
              · next isReady =>
                  apply (continues _ now shown (oldestStays_of_early closes early) shows).resume
                    (Nat.le_refl now)
                  rintro instant rfl
                  simpa using isReady
              · cases shows with
                | waiting reached before shows =>
                    dsimp only at shows
                    split at shows
                    · next due =>
                        exact traced_expired rfl closes before due (fun _ _ => induction) shows
                    · next early =>
                        apply (continues _ _ shown (oldestStays_of_early closes early)
                          shows).resume before
                        rintro instant rfl
                        simp only [Option.map_some, Option.getD_some] at reached
                        omega

theorem traced_settle {onward : GroupState → Stream GroupTurn}
    {reads : Nat → List (Nat × Value) → Prop} {result : Except QueryError Contribution}
    (continues : ∀ state now shown, (onward state now).Shows now shown →
      grouping.Traced context started (reads now) state now shown)
    (stays : grouping.OldestStays started state.windows arrived)
    (yields : ((grouping.contribution (context.withRow row)).run arrived).Yields arrived result
      placed)
    (settled : (grouping.settle context started (arrived - started) row onward state result
      placed).Shows placed shown) :
    grouping.Traced context started
      (fun input => ∃ rest later, input = (arrived, row) :: rest ∧ placed ≤ later ∧
        reads later rest)
      state arrived shown := by
  have taken (turn : GroupTurn)
      (step : grouping.Step context started state arrived [(arrived, row)] turn placed)
      (shows : (Feed.item (.ok turn) (onward turn.state)).Shows placed shown) :
      grouping.Traced context started
        (fun input => ∃ rest later, input = (arrived, row) :: rest ∧ placed ≤ later ∧
          reads later rest)
        state arrived shown := by
    cases shows with
    | item reached shows =>
        refine .cons step ((continues _ _ _ shows).imp reached fun _ read => read) ?_
        intro rest read
        exact ⟨rest, _, rfl, reached, read⟩
  have refused (error : QueryError) (next : GroupState)
      (step : context.settings.errorPolicy.skips error →
        grouping.Step context started state arrived [(arrived, row)]
          ⟨.skipped (arrived - started) row error, [], next⟩ placed)
      (shows : (refuse context (arrived - started) row onward error next placed).Shows placed
        shown) :
      grouping.Traced context started
        (fun input => ∃ rest later, input = (arrived, row) :: rest ∧ placed ≤ later ∧
          reads later rest)
        state arrived shown := by
    simp only [refuse] at shows
    split at shows
    · next skips => exact taken _ (step skips) shows
    · cases shows with
      | item _ following =>
          cases following
          exact traced_failed _ yields.le
  cases result with
  | error error => exact refused error state (.unevaluated (Nat.le_refl _) yields) settled
  | ok record =>
      cases accepts : grouping.accept context.settings.maxGroups (placed - started) row record
        state with
      | mk next outcome =>
          simp only [settle, accepts] at settled
          cases outcome with
          | error error =>
              exact refused error next (.refused (Nat.le_refl _) yields accepts) settled
          | ok closed => exact taken _ (.accepted (Nat.le_refl _) stays yields accepts) settled

/-- What the loop shows over a feed is a run of it over what the feed shows. -/
theorem traced_turns (feed : Feed Value) (state : GroupState)
    (stays : grouping.OldestStays started state.windows now)
    (shows : (feed.turns grouping context started state now).Shows now shown) :
    grouping.Traced context started
      (fun input => feed.Shows now (input.map fun (instant, row) => (instant, .ok row)))
      state now shown := by
  induction feed generalizing state now shown with
  | finished =>
      cases shows with
      | item reached shows =>
          cases shows
          exact ⟨[], .completed (Nat.le_refl _), fun _ => .finished now⟩
  | item entry rest induction =>
      cases entry with
      | error error =>
          cases shows with
          | item reached shows =>
              cases shows
              exact traced_failed _ (Nat.le_refl _)
      | ok row =>
          rcases Feed.Shows.of_afterTask shows with ⟨result, placed, yields, shows⟩
          apply (traced_settle (fun state now shown shows => traced_attend
            (fun state now shown stays => induction now state stays) state state.windows shows)
            stays yields shows).imp (Nat.le_refl now)
          rintro _ ⟨input, settled, rfl, reached, resumed, later, _, read⟩
          exact .item (Nat.le_trans yields.le (Nat.le_trans reached later)) read
  | waiting deadline resume induction =>
      apply (traced_attend (fun state now shown stays => induction now state stays) state
        state.windows shows).imp (Nat.le_refl _)
      rintro input ⟨resumed, before, isReady, read⟩
      exact .waiting (isReady deadline rfl) before read
  | opening name next induction =>
      cases shows with
      | opening answer shows =>
          exact (induction answer state stays shows).imp (Nat.le_refl _)
            fun _ read => .opening answer read
  | silent =>
      have never (state : GroupState) (now : Nat) (shown : List (Nat × Except QueryError GroupTurn))
          (_ : grouping.OldestStays started state.windows now)
          (shows : Feed.silent.Shows now shown) :
          grouping.Traced context started (fun _ => False) state now shown := by
        cases shows
      apply (traced_attend never state state.windows shows).imp (Nat.le_refl _)
      rintro _ ⟨_, _, _, read⟩
      exact read.elim

def turnsOf (shown : List (Nat × Except QueryError GroupTurn)) : List GroupTurn :=
  shown.filterMap fun entry => entry.2.toOption

def closedBy (turns : List GroupTurn) : OpenWindows :=
  turns.flatMap (·.closed)

theorem closedBy_concat (before : List GroupTurn) (turn : GroupTurn) :
    closedBy (before ++ [turn]) = closedBy before ++ turn.closed := by
  simp [closedBy]

/-- What holds at first and is kept by every step holds before every turn of a run, and the turn is
a step from there or the end. -/
theorem Follows.invariant (Holds : GroupState → Nat → List GroupTurn → Prop)
    (kept : ∀ {state now taken turn later before},
      grouping.Step context started state now taken turn later → Holds state now before →
      Holds turn.state later (before ++ [turn]))
    (follows : grouping.Follows context started state now input shown)
    (first : Holds state now []) (before : List GroupTurn) (turn : GroupTurn)
    (after : List GroupTurn) (split : turnsOf shown = before ++ turn :: after) :
    ∃ state now, Holds state now before ∧
      ((∃ taken later, grouping.Step context started state now taken turn later) ∨
        turn = ⟨.completed, state.windows, { state with windows := [] }⟩) := by
  -- The turns that a run begins with go to those before it.
  suffices general : ∀ earlier, Holds state now earlier →
      ∃ state now, Holds state now (earlier ++ before) ∧
        ((∃ taken later, grouping.Step context started state now taken turn later) ∨
          turn = ⟨.completed, state.windows, { state with windows := [] }⟩) from
    general [] first
  clear first
  induction follows generalizing before with
  | failed => simp [turnsOf, Except.toOption] at split
  | completed reached =>
      cases before with
      | nil =>
          cases split
          intro earlier holds
          exact ⟨_, _, (List.append_nil earlier).symm ▸ holds, .inr rfl⟩
      | cons other before => simp [turnsOf, Except.toOption] at split
  | turn step follows induction =>
      cases before with
      | nil =>
          cases split
          intro earlier holds
          exact ⟨_, _, (List.append_nil earlier).symm ▸ holds, .inl ⟨_, _, step⟩⟩
      | cons other before =>
          injection split with same split
          subst same
          intro earlier holds
          have reached := induction before split _ (kept step holds)
          rwa [List.append_assoc] at reached

theorem Follows.last (follows : grouping.Follows context started state now input shown)
    (clean : ∀ entry ∈ shown, ∃ turn, entry.2 = .ok turn) :
    ∃ before turn, turnsOf shown = before ++ [turn] ∧ turn.event = .completed ∧
      turn.state.windows = [] := by
  induction follows with
  | failed =>
      rcases clean _ List.mem_cons_self with ⟨turn, same⟩
      cases same
  | completed => exact ⟨[], _, rfl, rfl, rfl⟩
  | turn step follows induction =>
      rcases induction (List.forall_mem_cons.mp clean).2 with ⟨before, last, same, completes⟩
      exact ⟨_ :: before, last, congrArg (List.cons _) same, completes⟩

def row? (turn : GroupTurn) : Option Value :=
  match turn.event with
  | .accepted _ _ row _ | .skipped _ row _ => some row
  | _ => none

theorem Follows.rows_eq (follows : grouping.Follows context started state now input shown)
    (clean : ∀ entry ∈ shown, ∃ turn, entry.2 = .ok turn) :
    input.map (·.2) = (turnsOf shown).filterMap row? := by
  induction follows with
  | failed =>
      rcases clean _ List.mem_cons_self with ⟨turn, same⟩
      cases same
  | completed => rfl
  | turn step follows induction =>
      have read := induction (List.forall_mem_cons.mp clean).2
      cases step with
      | expired => exact read
      | accepted => exact congrArg (List.cons _) read
      | unevaluated => exact congrArg (List.cons _) read
      | refused => exact congrArg (List.cons _) read

theorem Follows.yields (follows : grouping.Follows context started state now input shown)
    (begun : started ≤ now) :
    ∀ turn ∈ turnsOf shown, ∀ arrived placed row record,
      turn.event = .accepted arrived placed row record →
      ((grouping.contribution (context.withRow row)).run (started + arrived)).Yields
        (started + arrived) (.ok record) (started + placed) := by
  induction follows with
  | failed => exact fun _ member => nomatch member
  | completed =>
      intro turn member arrived placed row record event
      rw [List.mem_singleton.mp member] at event
      cases event
  | turn step follows induction =>
      refine List.forall_mem_cons.mpr ⟨?_, induction (Nat.le_trans begun step.le)⟩
      intro arrived placed row record event
      cases step with
      | expired => cases event
      | unevaluated => cases event
      | refused => cases event
      | accepted reached _ yields _ =>
          cases event
          have before := Nat.le_trans begun reached
          rwa [Nat.add_sub_of_le before, Nat.add_sub_of_le (Nat.le_trans before yields.le)]

/-- What a run of the loop puts out. -/
def rowsOf (grouping : Grouping) (shown : List (Nat × Except QueryError GroupTurn)) :
    List (Except QueryError GroupRow) :=
  shown.flatMap fun (_, entry) =>
    match entry with
    | .ok turn => (turn.rows grouping).map .ok
    | .error error => [.error error]

theorem rows_eq_finish (windowed : grouping.window.isSome) (turn : GroupTurn) :
    turn.rows grouping = turn.closed.finish := by
  have some := Option.isSome_iff_ne_none.mp windowed
  cases event : turn.event with
  | completed => simp [GroupTurn.rows, event, complete, some]
  | expired => simp [GroupTurn.rows, event]
  | accepted => simp [GroupTurn.rows, event]
  | skipped => simp [GroupTurn.rows, event]

theorem rowsOf_eq {shown : List (Nat × Except QueryError GroupTurn)}
    (windowed : grouping.window.isSome) (clean : ∀ entry ∈ shown, ∃ turn, entry.2 = .ok turn) :
    grouping.rowsOf shown = (closedBy (turnsOf shown)).finish.map .ok := by
  induction shown with
  | nil => rfl
  | cons entry shown induction =>
      rcases entry with ⟨now, item⟩
      rcases List.forall_mem_cons.mp clean with ⟨⟨turn, same⟩, others⟩
      cases same
      calc grouping.rowsOf ((now, .ok turn) :: shown)
          = (turn.rows grouping).map .ok ++ grouping.rowsOf shown := rfl
        _ = (turn.closed.finish ++ (closedBy (turnsOf shown)).finish).map .ok := by
            rw [rows_eq_finish windowed, induction others, List.map_append]
        _ = (turn.closed ++ closedBy (turnsOf shown)).finish.map .ok := by
            simp only [OpenWindows.finish, List.flatMap_append]

theorem finish_of_rows {windows : OpenWindows} {rows : Nat → List GroupRow}
    (finished : ∀ window ∈ windows, window.2.finish = rows window.1) :
    windows.finish = (windows.map (·.1)).flatMap rows := by
  rw [OpenWindows.finish, List.flatMap_map, List.flatMap_def, List.map_congr_left finished,
    List.flatMap_def]

/-- Where the rows of the windows that close are known by the numbers of the windows, so are the rows
of every turn and of the whole run. -/
theorem rows_of_closed {shown : List (Nat × Except QueryError GroupTurn)} {rows : Nat → List GroupRow}
    (windowed : grouping.window.isSome) (clean : ∀ entry ∈ shown, ∃ turn, entry.2 = .ok turn)
    (finished : ∀ window ∈ closedBy (turnsOf shown), window.2.finish = rows window.1) :
    (∀ turn ∈ turnsOf shown, turn.rows grouping = (turn.closed.map (·.1)).flatMap rows) ∧
      grouping.rowsOf shown = (((closedBy (turnsOf shown)).map (·.1)).flatMap rows).map .ok := by
  refine ⟨fun turn member => ?_, by rw [rowsOf_eq windowed clean, finish_of_rows finished]⟩
  rw [rows_eq_finish windowed]
  exact finish_of_rows fun window closed =>
    finished window (List.mem_flatMap.mpr ⟨turn, member, closed⟩)

theorem shows_groupRows (grouping : Grouping) (feed : Feed GroupTurn)
    (shows : (feed.groupRows grouping now).Shows now rows) :
    ∃ shown, feed.Shows now shown ∧ rows.map (·.2) = grouping.rowsOf shown := by
  induction feed generalizing now rows with
  | finished =>
      cases shows
      exact ⟨[], .finished now, rfl⟩
  | item entry rest induction =>
      cases entry with
      | error error =>
          cases shows with
          | item reached shows =>
              rcases induction _ shows with ⟨shown, shows, same⟩
              exact ⟨_, .item reached shows, by simp [rowsOf, same]⟩
      | ok turn =>
          rcases Feed.Shows.of_emit shows with
            ⟨first, later, following, rfl, emitted, reached, shows⟩
          rcases induction _ shows with ⟨shown, shows, same⟩
          refine ⟨_, .item reached shows, ?_⟩
          rw [List.map_append, emitted, same]
          rfl
  | waiting deadline resume induction =>
      cases shows with
      | waiting reached before shows =>
          rcases induction _ shows with ⟨shown, shows, same⟩
          exact ⟨shown, .waiting reached before shows, same⟩
  | opening name next induction =>
      cases shows with
      | opening answer shows =>
          rcases induction _ shows with ⟨shown, shows, same⟩
          exact ⟨shown, .opening answer shows, same⟩
  | silent => cases shows

/-! The loop ends with its input. No turn keeps it waiting for ever: a wait is for the input or for
the time of a window, and a window whose time has come is closed. -/

theorem ends_attend {instant : Nat} {next : GroupState → Stream GroupTurn}
    (ends : ∀ state now, (next state now).Ends) (state : GroupState) (windows : OpenWindows)
    (now : Nat) : (grouping.attend started (some instant) next state windows now).Ends := by
  have awaited (state : GroupState) (now : Nat) : (await (some instant) (next state) now).Ends := by
    simp only [await]
    split
    · exact ends state now
    · intro now
      exact ends state now
  induction windows generalizing now with
  | nil => exact awaited _ now
  | cons window rest induction =>
      simp only [attend]
      cases grouping.closing? started window.1 with
      | none => exact awaited _ now
      | some closing =>
          dsimp only
          split
          · exact induction
          · split
            · exact ends _ now
            · intro now
              dsimp only
              split
              · exact induction
              · exact ends _ now

theorem ends_settle {onward : GroupState → Stream GroupTurn}
    (ends : ∀ state now, (onward state now).Ends) (state : GroupState)
    (result : Except QueryError Contribution) (now : Nat) :
    (grouping.settle context started arrived row onward state result now).Ends := by
  have refused (error : QueryError) (state : GroupState) :
      (refuse context arrived row onward error state now).Ends := by
    simp only [refuse]
    split
    · intro now
      exact ends state now
    · exact fun _ => trivial
  cases result with
  | error error => exact refused error state
  | ok record =>
      simp only [settle]
      split
      · exact refused _ _
      · intro now
        exact ends _ now

theorem ends_turns (feed : Feed Value) (ends : feed.Ends)
    (completes : ∀ row now, ((grouping.contribution (context.withRow row)).run now).Ends)
    (state : GroupState) (now : Nat) : (feed.turns grouping context started state now).Ends := by
  induction feed generalizing state now with
  | finished => exact fun _ => trivial
  | item entry rest induction =>
      cases entry with
      | error error => exact fun _ => trivial
      | ok row =>
          refine Feed.ends_afterTask (completes row now) ?_ now
          intro result placed
          exact ends_settle (fun state now => ends_attend (fun state now =>
            induction now (ends now) state now) state state.windows now) state result placed
  | waiting deadline resume induction =>
      exact ends_attend (fun state now => induction now (ends now) state now) state state.windows now
  | opening name next induction =>
      intro answer answers
      exact induction answer (ends answer answers) state now
  | silent => exact ends.elim

theorem ends_groupRows (feed : Feed GroupTurn) (ends : feed.Ends) (now : Nat) :
    (feed.groupRows grouping now).Ends := by
  induction feed generalizing now with
  | finished => trivial
  | item entry rest induction =>
      cases entry with
      | error error => exact fun now => induction now (ends now) now
      | ok turn => exact Feed.ends_emit _ (fun now => induction now (ends now) now) now
  | waiting deadline resume induction => exact fun now => induction now (ends now) now
  | opening name next induction =>
      intro answer answers
      exact induction answer (ends answer answers) now
  | silent => exact ends.elim

end Grouping

end StreamQuery
