import StreamQuery.Proofs.Stream.Progress
import StreamQuery.Proofs.Stream.SameItems
import StreamQuery.Proofs.Window.DelayedGroups
namespace StreamQuery

/-! Groups of feeds with the same items. If the feeds keep time, windows close on both sides at the
same instants. If they are free, no window may go by time. -/

namespace Grouping

variable {answers : String → Except QueryError Script} {free : Prop} {grouping : Grouping}
  {context : Context} {started begun now later : Nat}

/-- The windows do not go by time. -/
def Untimed (grouping : Grouping) : Prop :=
  ∀ size slide, grouping.window ≠ some (.time size slide)

/-- The turns put out the same rows. The instants that they tell may differ. -/
def SameRows (grouping : Grouping) (turn other : GroupTurn) : Prop :=
  turn.rows grouping = other.rows grouping

theorem Untimed.closing? (untimed : grouping.Untimed) (started id : Nat) :
    grouping.closing? started id = none := by
  simp only [Grouping.closing?]
  split
  · next size slide timed => exact absurd timed (untimed size slide)
  · rfl

theorem Untimed.attend (untimed : grouping.Untimed) (ready : Option Nat)
    (next : GroupState → Stream GroupTurn) (state : GroupState) (now : Nat) :
    grouping.attend started ready next state state.windows now = await ready (next state) now := by
  cases windows : state.windows with
  | nil => simp only [Grouping.attend, ← windows]
  | cons window rest => simp only [Grouping.attend, untimed.closing?, ← windows]

theorem Untimed.accept (untimed : grouping.Untimed) (maxGroups : Option Nat) (elapsed other : Nat)
    (row : Value) (record : Contribution) (state : GroupState) :
    grouping.accept maxGroups elapsed row record state =
      grouping.accept maxGroups other row record state := by
  have windows : grouping.windowsOf state elapsed = grouping.windowsOf state other := by
    simp only [windowsOf]
    split
    · rfl
    · rfl
    · rfl
    · next size slide timed => exact absurd timed (untimed size slide)
  simp only [Grouping.accept, windows]

theorem matches_awaitLeft {deadline : Nat} {next : Stream GroupTurn} {other : Feed GroupTurn}
    {same : GroupTurn → GroupTurn → Prop} (isFree : free)
    (pair : Feed.Matches answers free same (next (max deadline now)) (max deadline now) other
      later) :
    Feed.Matches answers free same (await (some deadline) next now) now other later := by
  simp only [await]
  split
  · next ready =>
      rw [Nat.max_eq_right ready] at pair
      exact pair
  · exact .waitingLeft isFree pair

section
variable {ready : Option Nat} {same : GroupTurn → GroupTurn → Prop}
  {next other : GroupState → Stream GroupTurn}

theorem matches_await_together
    (onward : ∀ state instant, (∀ deadline ∈ ready, deadline ≤ instant) →
      Feed.Matches answers free same (next state instant) instant (other state instant) instant)
    (state : GroupState) (now : Nat) :
    Feed.Matches answers free same (await ready (next state) now) now
      (await ready (other state) now) now := by
  simp only [await]
  cases ready with
  | none => exact .silent
  | some deadline =>
      dsimp only
      split
      · next there => exact onward state now (by simpa using there)
      · exact .waiting fun instant there => onward state instant (by simpa using there)

theorem matches_attend_together (keeps : ¬free) (reflexive : ∀ turn, same turn turn)
    (onward : ∀ state instant, (∀ deadline ∈ ready, deadline ≤ instant) →
      Feed.Matches answers free same (next state instant) instant (other state instant) instant)
    (state : GroupState) (windows : OpenWindows) (now : Nat) :
    Feed.Matches answers free same (grouping.attend started ready next state windows now) now
      (grouping.attend started ready other state windows now) now := by
  induction windows generalizing now with
  | nil => exact matches_await_together onward _ now
  | cons window rest induction =>
      simp only [attend]
      cases grouping.closing? started window.1 with
      | none => exact matches_await_together onward _ now
      | some closing =>
          have expires (now : Nat) : Feed.Matches answers free same
              (.item (.ok ⟨.expired, [window], { state with windows := rest }⟩)
                (grouping.attend started ready next state rest)) now
              (.item (.ok ⟨.expired, [window], { state with windows := rest }⟩)
                (grouping.attend started ready other state rest)) now := by
            refine .item (.ok (reflexive _)) ?_
            rintro instant following (isFree | rfl)
            · exact absurd isFree keeps
            · exact induction instant
          dsimp only
          split
          · exact expires now
          · split
            · next there =>
                refine onward _ now ?_
                rintro deadline rfl
                exact of_decide_eq_true there
            · refine .waiting fun instant waited => ?_
              split
              · exact expires instant
              · next early =>
                  -- It is not the window that was waited for, so the input is there.
                  refine onward _ instant ?_
                  cases ready with
                  | none => exact absurd waited early
                  | some deadline =>
                      simp only [Option.map_some, Option.getD_some] at waited
                      simp only [Option.mem_some_iff, forall_eq']
                      omega

theorem matches_attend (windows : free → grouping.Untimed) (begins : InTime free started begun)
    (inTime : InTime free now later) (reflexive : ∀ turn, same turn turn)
    (onward : ∀ state instant following, InTime free instant following →
      (∀ deadline ∈ ready, deadline ≤ instant ∧ deadline ≤ following) →
      Feed.Matches answers free same (next state instant) instant (other state following) following)
    (state : GroupState) :
    Feed.Matches answers free same
      (grouping.attend started ready next state state.windows now) now
      (grouping.attend begun ready other state state.windows later) later := by
  by_cases isFree : free
  · -- No window closes by itself, and each side waits for its own input.
    rw [(windows isFree).attend, (windows isFree).attend]
    cases ready with
    | none => exact .silent
    | some deadline =>
        have arrived (instant : Nat) : deadline ≤ max deadline instant := Nat.le_max_left _ _
        refine matches_awaitLeft isFree (Feed.Matches.symm (matches_awaitLeft isFree ?_))
        refine (onward state _ _ (.inl isFree) ?_).symm
        rintro deadline ⟨⟩
        exact ⟨arrived now, arrived later⟩
  · obtain rfl := begins.resolve_left isFree
    obtain rfl := inTime.resolve_left isFree
    refine matches_attend_together isFree reflexive (fun state instant there => ?_) state _ now
    exact onward state instant instant (.refl _ _) fun deadline member =>
      ⟨there deadline member, there deadline member⟩

end

/-! The loop. -/

theorem matches_emit_turn {turn changed : GroupTurn} (same : grouping.SameRows turn changed)
    {onward other : Stream GroupTurn}
    (goes : ∀ instant following, InTime free instant following →
      Feed.Matches answers free grouping.SameRows (onward instant) instant (other following)
        following) :
    Feed.Matches answers free grouping.SameRows (Feed.emit [.ok turn] onward now) now
      (Feed.emit [.ok changed] other later) later :=
  .item (.ok same) goes

section
variable {onward other : GroupState → Stream GroupTurn} (arrived reached : Nat) (row : Value)
  (goes : ∀ state instant following, InTime free instant following →
    Feed.Matches answers free grouping.SameRows (onward state instant) instant
      (other state following) following)

include goes

theorem matches_refuse (error : QueryError) (state : GroupState) :
    Feed.Matches answers free grouping.SameRows
      (refuse context arrived row onward error state now) now
      (refuse context reached row other error state later) later := by
  simp only [refuse]
  split
  · refine matches_emit_turn ?_ (goes state)
    rfl
  · exact .item (.error error) fun _ _ _ => .finished

theorem matches_settle (windows : free → grouping.Untimed) (begins : InTime free started begun)
    (inTime : InTime free now later) (state : GroupState)
    (result : Except QueryError Contribution) :
    Feed.Matches answers free grouping.SameRows
      (grouping.settle context started arrived row onward state result now) now
      (grouping.settle context begun reached row other state result later) later := by
  cases result with
  | error error => exact matches_refuse arrived reached row goes error state
  | ok record =>
      have accepts : grouping.accept context.settings.maxGroups (now - started) row record state =
          grouping.accept context.settings.maxGroups (later - begun) row record state := by
        by_cases isFree : free
        · exact (windows isFree).accept _ _ _ row record state
        · rw [begins.resolve_left isFree, inTime.resolve_left isFree]
      simp only [settle, accepts]
      split
      · exact matches_refuse arrived reached row goes _ _
      · refine matches_emit_turn ?_ (goes _)
        rfl

end

theorem matches_turns (windows : free → grouping.Untimed)
    (timeless : ∀ row, (grouping.contribution (context.withRow row)).Timeless free)
    {feed other : Feed Value} (pair : Feed.Matches answers free Eq feed now other later)
    (inTime : InTime free now later) (begins : InTime free started begun) (state : GroupState) :
    Feed.Matches answers free grouping.SameRows
      (feed.turns grouping context started state now) now
      (other.turns grouping context begun state later) later := by
  have reflexive (turn : GroupTurn) : grouping.SameRows turn turn := rfl
  induction pair generalizing state with
  | finished => exact matches_emit_turn rfl fun _ _ _ => .finished
  | silent => exact matches_attend windows begins inTime reflexive (fun _ _ _ _ _ => .silent) state
  | item entries _ induction =>
      obtain rfl := entries.eq
      cases entries with
      | error error => exact .item (.error error) fun _ _ _ => .finished
      | ok =>
          simp only [Feed.turns]
          refine Feed.matches_run (timeless _) inTime ?_
          intro result instant coming inTime
          refine matches_settle _ _ _ ?_ windows begins inTime state result
          intro state instant following inTime
          refine matches_attend windows begins inTime reflexive ?_ state
          exact fun state instant following inTime _ =>
            induction instant following inTime inTime state
  | @waiting deadline _ _ _ _ induction =>
      have onward (state : GroupState) (instant : Nat)
          (there : ∀ ready ∈ some deadline, ready ≤ instant) :=
        induction instant (there deadline rfl) (.refl free instant) state
      simp only [Feed.turns]
      -- The feeds wait together here, also those that are free.
      by_cases isFree : free
      · rw [(windows isFree).attend, (windows isFree).attend]
        exact matches_await_together onward state _
      · obtain rfl := begins.resolve_left isFree
        exact matches_attend_together isFree reflexive onward state _ _
  | waitingLeft isFree _ induction =>
      simp only [Feed.turns]
      rw [(windows isFree).attend]
      exact matches_awaitLeft isFree (induction (.inl isFree) state)
  | waitingRight isFree _ induction =>
      simp only [Feed.turns]
      rw [(windows isFree).attend]
      refine Feed.Matches.symm (matches_awaitLeft isFree ?_)
      exact (induction (.inl isFree) state).symm
  | openingLeft _ induction => exact .openingLeft (induction inTime state)
  | openingRight _ induction => exact .openingRight (induction inTime state)

theorem matches_groupRows {feed other : Feed GroupTurn}
    (pair : Feed.Matches answers free grouping.SameRows feed now other later)
    (inTime : InTime free now later) :
    Feed.Matches answers free Eq (feed.groupRows grouping now) now
      (other.groupRows grouping later) later := by
  induction pair with
  | finished => exact .finished
  | silent => exact .silent
  | item entries _ induction =>
      have onward := fun instant following inTime => induction instant following inTime inTime
      cases entries with
      | error error => exact .item (.error error) onward
      | ok same =>
          simp only [Feed.groupRows, show _ = _ from same]
          exact Feed.matches_emit inTime onward
  | waiting _ induction => exact .waiting fun instant after => induction instant after (.refl _ _)
  | waitingLeft free _ induction => exact .waitingLeft free (induction (.inl free))
  | waitingRight free _ induction => exact .waitingRight free (induction (.inl free))
  | openingLeft _ induction => exact .openingLeft (induction inTime)
  | openingRight _ induction => exact .openingRight (induction inTime)

theorem leads_turns {feed other : Feed Value} {world after : World}
    (leads : feed.Leads world other after) (started : Nat) :
    (feed.turns grouping context started .start world.now).Leads world
      (other.turns grouping context started .start after.now) after := by
  induction leads with
  | here => exact .here
  | @waiting resume _ _ deadline world _ induction =>
      have waits : (Feed.waiting deadline resume).turns grouping context started .start world.now =
          await (some deadline) (fun now => (resume now).turns grouping context started .start now)
            world.now := rfl
      rw [waits, await]
      split
      · next there =>
          have same : world.advance deadline = world := by
            rw [World.advance, Nat.max_eq_right there]
          rw [same] at induction
          exact induction
      · exact .waiting induction
  | opening _ induction => exact .opening induction

theorem leads_groupRows {feed other : Feed GroupTurn} {world after : World}
    (leads : feed.Leads world other after) :
    (feed.groupRows grouping world.now).Leads world (other.groupRows grouping after.now) after := by
  induction leads with
  | here => exact .here
  | waiting _ induction => exact .waiting induction
  | opening _ induction => exact .opening induction

end Grouping

end StreamQuery
