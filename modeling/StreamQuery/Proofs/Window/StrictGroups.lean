import StreamQuery.Proofs.Stream.StrictFeeds
import StreamQuery.Window.Grouping
namespace StreamQuery

/-! Under the policy to fail, the loop that groups records goes on as under the policy to skip until
a record fails. -/

def Context.withPolicy (context : Context) (policy : ErrorPolicy) : Context :=
  { context with settings := { context.settings with errorPolicy := policy } }

namespace Grouping

variable {grouping : Grouping} {context : Context} {started : Nat}

theorem stricter_await {ready : Option Nat} {next other : Stream GroupTurn}
    (stricter : next.Stricter other) : Stream.Stricter (await ready next) (await ready other) := by
  intro now
  cases ready with
  | none => exact .silent
  | some instant =>
      simp only [await]
      split
      · exact stricter now
      · exact .waiting stricter

theorem stricter_attend {ready : Option Nat} {next other : GroupState → Stream GroupTurn}
    (stricter : ∀ state, (next state).Stricter (other state)) (state : GroupState)
    (windows : OpenWindows) :
    Stream.Stricter (grouping.attend started ready next state windows)
      (grouping.attend started ready other state windows) := by
  induction windows with
  | nil => exact stricter_await (stricter _)
  | cons window rest induction =>
      intro now
      simp only [attend]
      cases grouping.closing? started window.1 with
      | none => exact stricter_await (stricter _) now
      | some closing =>
          dsimp only
          split
          · exact .item _ induction
          · split
            · exact stricter _ now
            · refine .waiting ?_
              intro now
              split
              · exact .item _ induction
              · exact stricter _ now

theorem stricter_settle {onward other : GroupState → Stream GroupTurn}
    (stricter : ∀ state, (onward state).Stricter (other state)) (state : GroupState)
    (record : Contribution) (now : Nat) :
    (grouping.settle (context.withPolicy .fail) started arrived row onward state (.ok record)
      now).Stricter
    (grouping.settle (context.withPolicy .skip) started arrived row other state (.ok record)
      now) := by
  have limit (policy : ErrorPolicy) :
      (context.withPolicy policy).settings.maxGroups = context.settings.maxGroups := rfl
  cases accepted : grouping.accept context.settings.maxGroups (now - started) row record state with
  | mk next result =>
      simp only [settle, limit, accepted]
      cases result with
      | error error => exact Feed.stricter_error error _ now
      | ok closed => exact .item _ (stricter next)

theorem stricter_turns
    (stricter : ∀ row, (grouping.contribution ((context.withPolicy .fail).withRow row)).Stricter
      (grouping.contribution ((context.withPolicy .skip).withRow row)))
    {feed other : Feed Value} (feeds : feed.Stricter other) (state : GroupState) :
    Stream.Stricter (feed.turns grouping (context.withPolicy .fail) started state)
      (other.turns grouping (context.withPolicy .skip) started state) := by
  induction feeds generalizing state with
  | finished => exact fun _ => .refl _
  | item entry _ induction =>
      cases entry with
      | error error => exact fun _ => .refl _
      | ok row =>
          intro now
          simp only [Feed.turns]
          refine Feed.stricter_afterTask ((stricter row).run now) ?_
            (fun error placed other => Feed.stricter_error error other placed) now
          intro record placed
          exact stricter_settle (fun state => stricter_attend (fun state now =>
            induction now state now) state state.windows) state record placed
  | failed error other _ => exact fun now => Feed.stricter_error error _ now
  | waiting _ induction =>
      exact stricter_attend (fun state now => induction now state now) state state.windows
  | opening _ induction => exact fun now => .opening fun answer => induction answer state now
  | silent => exact stricter_attend (fun _ _ => .silent) state state.windows

theorem stricter_groupRows {feed other : Feed GroupTurn} (stricter : feed.Stricter other)
    (now : Nat) : (feed.groupRows grouping now).Stricter (other.groupRows grouping now) := by
  induction stricter generalizing now with
  | finished => exact .finished
  | item entry _ induction =>
      cases entry with
      | error error => exact .item _ fun now => induction now now
      | ok turn => exact Feed.stricter_emit _ (fun now => induction now now) now
  | failed error other finishes =>
      refine .failed error _ ?_
      intro now
      rw [finishes now]
      rfl
  | waiting _ induction => exact .waiting fun now => induction now now
  | opening _ induction => exact .opening fun answer => induction answer now
  | silent => exact .silent

theorem stricter_group
    (stricter : ∀ row, (grouping.contribution ((context.withPolicy .fail).withRow row)).Stricter
      (grouping.contribution ((context.withPolicy .skip).withRow row)))
    {records other : Stream Value} (streams : records.Stricter other) :
    Stream.Stricter (records.group grouping (context.withPolicy .fail))
      (other.group grouping (context.withPolicy .skip)) := fun now =>
  stricter_groupRows (stricter_turns stricter (streams now) GroupState.start now) now

end Grouping

end StreamQuery
