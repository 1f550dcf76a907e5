import StreamQuery.Proofs.Stream.Items
import StreamQuery.Window.Grouping
namespace StreamQuery

/-! What the loop that groups records can do in one turn, whatever the clock shows. What every turn
keeps holds of all turns, also of a loop that never ends. -/

namespace Grouping

inductive Transition (answers : Except QueryError Script → Prop) (grouping : Grouping)
    (context : Context) : GroupState → GroupTurn → Prop
  | expired : state.windows = oldest :: rest →
      Transition answers grouping context state
        ⟨.expired, [oldest], { state with windows := rest }⟩
  | accepted : (grouping.contribution (context.withRow row)).Gives answers (.ok record) →
      grouping.accept context.settings.maxGroups placed row record state = (next, .ok closed) →
      Transition answers grouping context state ⟨.accepted arrived placed row record, closed, next⟩
  | unevaluated : context.settings.errorPolicy.skips error →
      Transition answers grouping context state ⟨.skipped arrived row error, [], state⟩
  | refused : grouping.accept context.settings.maxGroups placed row record state =
        (next, .error error) →
      context.settings.errorPolicy.skips error →
      Transition answers grouping context state ⟨.skipped arrived row error, [], next⟩
  | completed : Transition answers grouping context state
      ⟨.completed, state.windows, { state with windows := [] }⟩

/-- The errors that keep a record out of the groups: it cannot be evaluated, or it is refused. -/
inductive Refuses (answers : Except QueryError Script → Prop) (grouping : Grouping)
    (context : Context) : QueryError → Prop
  | unevaluated : (grouping.contribution (context.withRow row)).Gives answers (.error error) →
      Refuses answers grouping context error
  | refused : grouping.accept context.settings.maxGroups placed row record state =
        (next, .error error) → Refuses answers grouping context error

/-- What is claimed of the turns is kept by an invariant of the states, and claimed of the errors
that can end the loop: those of records that the policy does not pass over, and of the input. -/
structure Keeps (answers : Except QueryError Script → Prop) (grouping : Grouping)
    (context : Context) (input : Except QueryError Value → Prop)
    (invariant : List GroupTurn → GroupState → Prop)
    (follows : List GroupTurn → Except QueryError GroupTurn → Prop) : Prop where
  step : ∀ {before state turn}, invariant before state →
    grouping.Transition answers context state turn →
    follows before (.ok turn) ∧ invariant (before ++ [turn]) turn.state
  failed : ∀ {before error}, grouping.Refuses answers context error →
    ¬context.settings.errorPolicy.skips error → follows before (.error error)
  upstream : ∀ {before error}, input (.error error) → follows before (.error error)

variable {answers : Except QueryError Script → Prop} {grouping : Grouping} {context : Context}
  {started : Nat} {input : Except QueryError Value → Prop}
  {invariant : List GroupTurn → GroupState → Prop}
  {follows : List GroupTurn → Except QueryError GroupTurn → Prop}

theorem along_await {ready : Option Nat} {next : Stream GroupTurn}
    (continues : ∀ now, (next now).Along answers follows before) (now : Nat) :
    (await ready next now).Along answers follows before := by
  cases ready with
  | none => exact .silent
  | some instant =>
      simp only [await]
      split
      · exact continues now
      · exact .waiting continues

namespace Keeps

variable (keeps : Keeps answers grouping context input invariant follows)
include keeps

theorem along_turn (holds : invariant before state)
    (transition : grouping.Transition answers context state turn) {rest : Stream GroupTurn}
    (continues : ∀ before now, invariant before turn.state →
      (rest now).Along answers follows before) :
    (Feed.item (.ok turn) rest).Along answers follows before :=
  have kept := keeps.step holds transition
  .value kept.1 fun now => continues _ now kept.2

theorem along_attend {ready : Option Nat} {next : GroupState → Stream GroupTurn}
    (continues : ∀ before state now, invariant before state →
      (next state now).Along answers follows before)
    (state : GroupState) (windows : OpenWindows) (before : List GroupTurn)
    (holds : invariant before { state with windows }) (now : Nat) :
    (grouping.attend started ready next state windows now).Along answers follows before := by
  induction windows generalizing before now with
  | nil => exact along_await (fun now => continues _ _ now holds) now
  | cons oldest rest induction =>
      have expired : (Feed.item (.ok ⟨.expired, [oldest], { state with windows := rest }⟩)
          (grouping.attend started ready next state rest)).Along answers follows before :=
        keeps.along_turn holds (.expired rfl) fun before now holds => induction before holds now
      simp only [attend]
      cases grouping.closing? started oldest.1 with
      | none => exact along_await (fun now => continues _ _ now holds) now
      | some closing =>
          dsimp only
          split
          · exact expired
          · split
            · exact continues _ _ now holds
            · refine .waiting ?_
              intro now
              split
              · exact expired
              · exact continues _ _ now holds

theorem along_refuse {onward : GroupState → Stream GroupTurn}
    (continues : ∀ before state now, invariant before state →
      (onward state now).Along answers follows before)
    (holds : invariant before state) (refuses : grouping.Refuses answers context error)
    (transition : context.settings.errorPolicy.skips error →
      grouping.Transition answers context state ⟨.skipped arrived row error, [], next⟩)
    (now : Nat) :
    (refuse context arrived row onward error next now).Along answers follows before := by
  simp only [refuse]
  split
  · next skips =>
      exact keeps.along_turn holds (transition skips) fun before now holds =>
        continues before _ now holds
  · next ends => exact .error (keeps.failed refuses ends) fun _ => .finished

theorem along_settle {onward : GroupState → Stream GroupTurn}
    (continues : ∀ before state now, invariant before state →
      (onward state now).Along answers follows before)
    (holds : invariant before state) (record : Except QueryError Contribution)
    (gives : (grouping.contribution (context.withRow row)).Gives answers record) (now : Nat) :
    (grouping.settle context started arrived row onward state record now).Along answers follows
      before := by
  cases record with
  | error error =>
      exact keeps.along_refuse continues holds (.unevaluated gives) .unevaluated now
  | ok record =>
      simp only [settle]
      split
      · next refused =>
          exact keeps.along_refuse continues holds (.refused refused)
            (fun skips => .refused refused skips) now
      · next accepted =>
          exact keeps.along_turn holds (.accepted gives accepted) fun before now holds =>
            continues before _ now holds

theorem along_turns {feed : Feed Value} (each : feed.Each answers input) (state : GroupState)
    (before : List GroupTurn) (holds : invariant before state) (now : Nat) :
    (feed.turns grouping context started state now).Along answers follows before := by
  induction each generalizing state before now with
  | finished =>
      exact keeps.along_turn holds .completed fun _ _ _ => .finished
  | @item entry rest valid _ induction =>
      cases entry with
      | error error => exact .error (keeps.upstream valid) fun _ => .finished
      | ok row =>
          refine Feed.along_afterTask (fun record placed gives => ?_) now
          refine keeps.along_settle (fun before state now holds => ?_) holds record ⟨now, gives⟩ placed
          exact keeps.along_attend (fun before state later holds =>
            induction later state before holds later) state state.windows before holds now
  | waiting _ induction =>
      exact keeps.along_attend (fun before state now holds => induction now state before holds now)
        state state.windows before holds now
  | opening _ induction =>
      exact .opening fun answer answered => induction answer answered state before holds now
  | silent =>
      exact keeps.along_attend (fun _ _ _ _ => .silent) state state.windows before holds now

end Keeps

end Grouping

end StreamQuery
