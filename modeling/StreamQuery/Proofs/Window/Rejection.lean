import StreamQuery.Proofs.Stream.Answers
import StreamQuery.Proofs.Window.Admission
namespace StreamQuery

/-! Under the policy to skip, a rejected record is as good as no record at all. -/

namespace Feed

/-- Leaves records out, by their rows and the instants of their arrival. The others arrive when they
did. -/
def without (rejected : Value → Nat → Bool) : Feed Value → Nat → Feed Value
  | .finished, _ => .finished
  | .item (.error error) rest, _ =>
      .item (.error error) fun now => without rejected (rest now) now
  | .item (.ok row) rest, now =>
      if rejected row now then without rejected (rest now) now
      else .item (.ok row) fun now => without rejected (rest now) now
  | .waiting deadline resume, _ =>
      .waiting deadline fun now => without rejected (resume now) now
  | .opening name next, now => .opening name fun answer => without rejected (next answer) now
  | .silent, _ => .silent

end Feed

def Stream.without (stream : Stream Value) (rejected : Value → Nat → Bool) : Stream Value :=
  fun now => (stream now).without rejected now

namespace Grouping

/-- A record is rejected if it cannot be evaluated, for a reason that can be skipped, or if an
aggregate refuses its operand. -/
def rejects (grouping : Grouping) : Except QueryError Contribution → Bool
  | .error error => !error.isFatal
  | .ok record =>
      match checkOperands grouping.aggregations record.operands with
      | .error _ => true
      | .ok () => false

variable {grouping : Grouping} {context : Context} {started : Nat}
  {answers : String → Except QueryError Script}

def shownRows (grouping : Grouping) (answers : String → Except QueryError Script)
    (turns : Stream GroupTurn) (now : Nat) : Feed GroupRow :=
  ((turns now).groupRows grouping now).answered answers

theorem attend_of_stays {state : GroupState} {next : GroupState → Stream GroupTurn}
    (stays : grouping.OldestStays started state.windows now) :
    grouping.attend started (some 0) next state state.windows now = next state now := by
  have ready : 0 ≤ now := Nat.zero_le now
  rcases state with ⟨windows, seen, current, triggered⟩
  cases windows with
  | nil => simp [attend, await]
  | cons window rest =>
      simp only [attend]
      cases closes : grouping.closing? started window.1 with
      | none => simp [await]
      | some closing =>
          have early : now < closing := stays window rfl closing closes
          simp [Nat.not_le_of_lt early]

theorem shownRows_await {ready : Option Nat} {next other : Stream GroupTurn}
    (same : ∀ now, grouping.shownRows answers next now = grouping.shownRows answers other now)
    (now : Nat) :
    grouping.shownRows answers (await ready next) now =
      grouping.shownRows answers (await ready other) now := by
  cases ready with
  | none => rfl
  | some instant =>
      simp only [shownRows, await]
      split
      · exact same now
      · exact congrArg (Feed.waiting instant) (funext same)

theorem shownRows_turn {turn : GroupTurn} {rest other : Stream GroupTurn}
    (same : ∀ now, grouping.shownRows answers rest now = grouping.shownRows answers other now)
    (now : Nat) :
    grouping.shownRows answers (Feed.emit [.ok turn] rest) now =
      grouping.shownRows answers (Feed.emit [.ok turn] other) now := by
  change (Feed.emit _ _ now).answered answers = (Feed.emit _ _ now).answered answers
  rw [Feed.answered_emit, Feed.answered_emit]
  exact congrArg (fun rest => Feed.emit _ rest now) (funext same)

theorem shownRows_attend {ready : Option Nat} {next other : GroupState → Stream GroupTurn}
    {aggregations : List Aggregation}
    (same : ∀ state now, grouping.OldestStays started state.windows now →
      state.windows.Regular aggregations →
      grouping.shownRows answers (next state) now = grouping.shownRows answers (other state) now)
    (state : GroupState) (windows : OpenWindows) (regular : windows.Regular aggregations)
    (now : Nat) :
    grouping.shownRows answers (grouping.attend started ready next state windows) now =
      grouping.shownRows answers (grouping.attend started ready other state windows) now := by
  induction windows generalizing now with
  | nil =>
      apply shownRows_await
      intro now
      exact same { state with windows := [] } now (fun _ none => nomatch none) regular
  | cons oldest rest induction =>
      have parts := List.forall_mem_cons.mp regular
      cases closes : grouping.closing? started oldest.1 with
      | none =>
          simp only [shownRows, attend, closes]
          apply shownRows_await
          intro now
          exact same { state with windows := oldest :: rest } now (oldestStays_of_none closes now)
            regular
      | some closing =>
          have expires := @shownRows_turn grouping answers
            ⟨.expired, [oldest], { state with windows := rest }⟩ _ _ (induction parts.2)
          simp only [shownRows, attend, closes]
          split
          · exact expires now
          · next early =>
              split
              · exact same _ now (oldestStays_of_early closes early) regular
              · apply congrArg (Feed.waiting _)
                funext now
                dsimp only
                split
                · exact expires now
                · next early => exact same _ now (oldestStays_of_early closes early) regular

theorem accept_of_refused {maxGroups : Option Nat} {state : GroupState}
    (refused : checkOperands grouping.aggregations record.operands = .error error) :
    grouping.accept maxGroups elapsed row record state = (state, .error error) := by
  have admits : grouping.admits maxGroups record state.windows
      (grouping.windowsOf state elapsed) = .error error := by
    simp only [admits]
    rw [refused]
    rfl
  simp only [accept, admits]

theorem shownRows_afterTask {task : Task α} {next : α → Stream GroupTurn}
    (done : task.answered answers = .done value) :
    grouping.shownRows answers (fun now => Feed.afterTask task now next) now =
      grouping.shownRows answers (next value) now := by
  induction task with
  | done =>
      cases done
      rfl
  | waiting => cases done
  | opening name answer induction => exact induction (answers name) done
  | stuck => cases done

theorem shownRows_settle_of_rejects {onward : GroupState → Stream GroupTurn}
    {result : Except QueryError Contribution} (skipping : context.settings.errorPolicy = .skip)
    (rejected : grouping.rejects result) (state : GroupState) (now : Nat) :
    grouping.shownRows answers (grouping.settle context started arrived row onward state result)
      now = grouping.shownRows answers (onward state) now := by
  have skipped {error : QueryError} (harmless : error.isFatal = false) :
      grouping.shownRows answers (refuse context arrived row onward error state) now =
        grouping.shownRows answers (onward state) now := by
    have skips : context.settings.errorPolicy.skips error = true := by
      simp [ErrorPolicy.skips, skipping, harmless]
    simp only [refuse]
    rw [if_pos skips]
    rfl
  cases result with
  | error error => exact skipped (by simpa [rejects] using rejected)
  | ok record =>
      cases refused : checkOperands grouping.aggregations record.operands with
      | ok _ => simp [rejects, refused] at rejected
      | error error =>
          simp only [shownRows, settle, accept_of_refused refused]
          exact skipped (isFatal_of_checkOperands refused)

theorem shownRows_settle {onward other : GroupState → Stream GroupTurn}
    (same : ∀ state, state.windows.Regular grouping.aggregations → ∀ now,
      grouping.shownRows answers (onward state) now = grouping.shownRows answers (other state) now)
    {state : GroupState} (regular : state.windows.Regular grouping.aggregations)
    (result : Except QueryError Contribution) (now : Nat) :
    grouping.shownRows answers (grouping.settle context started arrived row onward state result)
      now = grouping.shownRows answers
        (grouping.settle context started arrived row other state result) now := by
  have refused (error : QueryError) :
      grouping.shownRows answers (refuse context arrived row onward error state) now =
        grouping.shownRows answers (refuse context arrived row other error state) now := by
    simp only [refuse]
    split
    · exact shownRows_turn (same state regular) now
    · rfl
  cases result with
  | error error => exact refused error
  | ok record =>
      unfold shownRows settle
      cases accepted : grouping.accept context.settings.maxGroups (now - started) row record state
        with
      | mk next outcome =>
          simp only [accepted]
          cases outcome with
          | error error =>
              rw [(eq_of_accept_error regular accepted).1]
              exact refused error
          | ok closed => exact shownRows_turn (same next (accept_regular regular accepted)) now

/-- Without the rejected records the loop puts out the same rows at the same instants, from any
state that it can be in. -/
theorem shownRows_without {outcome : Value → Nat → Except QueryError Contribution}
    (skipping : context.settings.errorPolicy = .skip)
    (evaluates : ∀ row now, ((grouping.contribution (context.withRow row)).run now).answered
      answers = .done (outcome row now))
    (feed : Feed Value) (state : GroupState) (now : Nat)
    (stays : grouping.OldestStays started state.windows now)
    (regular : state.windows.Regular grouping.aggregations) :
    grouping.shownRows answers (feed.turns grouping context started state) now =
      grouping.shownRows answers
        ((feed.without (fun row now => grouping.rejects (outcome row now)) now).turns grouping
          context started state) now := by
  induction feed generalizing state now with
  | finished => rfl
  | item entry rest induction =>
      cases entry with
      | error error => rfl
      | ok row =>
          simp only [Feed.without]
          apply (shownRows_afterTask (evaluates row now)).trans
          split
          · next rejected =>
              rw [shownRows_settle_of_rejects skipping rejected]
              refine Eq.trans ?_ (induction now state now stays regular)
              exact congrArg (fun turns => (turns.groupRows grouping now).answered answers)
                (attend_of_stays stays)
          · refine Eq.trans ?_ (shownRows_afterTask (evaluates row now)).symm
            refine shownRows_settle ?_ regular (outcome row now) now
            intro state regular
            exact shownRows_attend (fun state now stays regular =>
              induction now state now stays regular) state state.windows regular
  | waiting deadline resume induction =>
      exact shownRows_attend (fun state now stays regular => induction now state now stays regular)
        state state.windows regular now
  | opening name next induction => exact induction (answers name) state now stays regular
  | silent => rfl

/-- The state after turns that the loop began with. -/
def stateAfter (before : List GroupTurn) : GroupState :=
  (before.getLast?.map (·.state)).getD GroupState.start

theorem stateAfter_concat (before : List GroupTurn) (turn : GroupTurn) :
    stateAfter (before ++ [turn]) = turn.state := by
  simp [stateAfter]

theorem Follows.regular {before after : List GroupTurn} {turn : GroupTurn}
    (follows : grouping.Follows context started GroupState.start started input shown)
    (split : turnsOf shown = before ++ turn :: after) :
    (stateAfter before).windows.Regular grouping.aggregations ∧
      ((∃ now taken later,
          grouping.Step context started (stateAfter before) now taken turn later) ∨
        turn.event = .completed) := by
  have start : GroupState.start.windows.Regular grouping.aggregations :=
    fun _ member => nomatch member
  rcases follows.invariant
      (fun state _ before =>
      state.windows.Regular grouping.aggregations ∧ state = stateAfter before)
      (fun step holds => ⟨step.regular holds.1, (stateAfter_concat _ _).symm⟩)
      ⟨start, rfl⟩ before turn after split with
    ⟨state, now, ⟨regular, rfl⟩, cases⟩
  refine ⟨regular, ?_⟩
  rcases cases with ⟨taken, later, step⟩ | rfl
  · exact .inl ⟨now, taken, later, step⟩
  · exact .inr rfl

/-- Under the policy to skip, the rows are those of the input without the rejected records, and a
record that is skipped leaves the state as it was. -/
theorem group_without_rejected {outcome : Value → Nat → Except QueryError Contribution}
    (skipping : context.settings.errorPolicy = .skip)
    (evaluates : ∀ row now, ((grouping.contribution (context.withRow row)).run now).answered
      answers = .done (outcome row now))
    (stream : Stream Value) (started : Nat) :
    let rest := stream.without fun row now => grouping.rejects (outcome row now)
    (stream.group grouping context started).answered answers =
        (rest.group grouping context started).answered answers ∧
      (∀ wanted world, world.AnswersBy answers →
        (Feed.run wanted (stream.group grouping context started) world).items =
            (Feed.run wanted (rest.group grouping context started) world).items ∧
          (Feed.run wanted (stream.group grouping context started) world).ended =
            (Feed.run wanted (rest.group grouping context started) world).ended) ∧
      ∀ shown, (stream.turns grouping context started).Shows started shown →
        ∀ before turn after, turnsOf shown = before ++ turn :: after →
          (∀ arrived row error, turn.event = .skipped arrived row error →
            turn.closed = [] ∧ turn.state = stateAfter before) ∧
          (∀ arrived placed row record, turn.event = .accepted arrived placed row record →
            grouping.rejects (.ok record) = false) := by
  intro rest
  have same : (stream.group grouping context started).answered answers =
      (rest.group grouping context started).answered answers :=
    shownRows_without skipping evaluates (stream started) GroupState.start started
      (fun _ none => nomatch none) (fun _ member => nomatch member)
  refine ⟨same, ?_, ?_⟩
  · intro wanted world answersBy
    have whole := Feed.run_answered (stream.group grouping context started) wanted world []
      answersBy
    have reduced := Feed.run_answered (rest.group grouping context started) wanted world [] answersBy
    rw [same] at whole
    exact ⟨whole.1.trans reduced.1.symm, whole.2.trans reduced.2.symm⟩
  · intro shown shows before turn after split
    rcases traced_turns (stream started) GroupState.start (fun _ none => nomatch none) shows with
      ⟨input, follows, _⟩
    rcases follows.regular split with ⟨regular, ⟨now, taken, later, step⟩ | completes⟩
    · refine ⟨fun arrived row error skipped => step.of_skipped regular skipped, ?_⟩
      intro arrived placed row record event
      cases step with
      | expired => cases event
      | unevaluated => cases event
      | refused => cases event
      | accepted _ _ _ accepted =>
          cases event
          have checked := (admits_ok_iff.mp (accept_ok accepted).1).1
          simp [rejects, checked]
    · rw [completes]
      exact ⟨fun _ _ _ skipped => (nomatch skipped), fun _ _ _ _ accepted => (nomatch accepted)⟩

/-- A sum refuses what is not a number: of three records the second leaves no trace. -/
theorem group_without_rejected_second :
    let grouping : Grouping :=
      ⟨[], some (.count 2 1), [⟨some fun context => .ok context.row, .sum⟩]⟩
    let context : Context := ⟨.null, none, [], { Settings.default with errorPolicy := .skip }, .still 0⟩
    let stream : Stream Value := Feed.ofScript (.ofValues [.null, .boolean true, .null])
    let others : Stream Value := Feed.ofScript (.ofValues [.null, .null])
    (Feed.run none (stream.group grouping context 0) (.start (.named [] []))).items =
      (Feed.run none (others.group grouping context 0) (.start (.named [] []))).items := by
  intro grouping context stream others
  have evaluates (row : Value) (now : Nat) :
      ((grouping.contribution (context.withRow row)).run now).answered
        (Sources.findNamed [] []) = .done (.ok ⟨[], [row], false⟩) := rfl
  exact ((group_without_rejected rfl evaluates stream 0).2.1 none _ fun _ => rfl).1

end Grouping

end StreamQuery
