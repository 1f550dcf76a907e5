import StreamQuery.Proofs.Aggregate.Acceptance
import StreamQuery.Proofs.Stream.Failures
import StreamQuery.Proofs.Window.Transitions
namespace StreamQuery

/-! The loop that groups records shows the errors of its input, and of the records that the policy
does not pass over. -/

/-! A record that cannot be added is refused for an operand or for the limit. -/

/-- The errors that arise while records flow. -/
def QueryError.arises : QueryError → Bool
  | .cast .. | .source .. | .groupLimit _ => true
  | _ => false

theorem QueryError.arises_of_isCast {error : QueryError} (cast : error.isCast) : error.arises := by
  cases error <;> first | rfl | cases cast

abbrev FailsInFlow (result : Except QueryError α) : Prop :=
  FailsOnly (·.arises) result

theorem FailsOnly.inFlow {result : Except QueryError α} (fails : FailsAsCast result) :
    FailsInFlow result :=
  fails.mono fun _ => QueryError.arises_of_isCast

namespace GroupTable

theorem admits_fails (table : GroupTable) (maxGroups : Option Nat) (key : List Value) :
    FailsInFlow (table.admits maxGroups key) := by
  simp only [admits]
  split
  · split
    · exact failsOnly_error rfl
    · exact failsOnly_ok ()
  · exact failsOnly_ok ()

theorem updateAll_fails (accumulators : List Accumulator) (operands : List Value) :
    FailsAsCast (updateAll accumulators operands).2 := by
  induction accumulators generalizing operands with
  | nil => exact failsOnly_ok ()
  | cons accumulator accumulators induction =>
      cases operands with
      | nil => exact failsOnly_ok ()
      | cons operand operands =>
          have update := accumulator.update_fails operand
          simp only [updateAll]
          split
          · exact induction operands
          · next refused => exact failsOnly_error (update _ refused)

theorem updateSlot_fails (table : GroupTable) (slot : Nat) (operands : List Value) :
    FailsAsCast (table.updateSlot slot operands).2 := by
  simp only [updateSlot]
  split
  · exact updateAll_fails _ operands
  · exact failsOnly_ok ()

theorem update_fails (table : GroupTable) (aggregations : List Aggregation)
    (maxGroups : Option Nat) (key : List Value) (sample : Value) (operands : List Value) :
    FailsInFlow (table.update aggregations maxGroups key sample operands).2 := by
  have admits := table.admits_fails maxGroups key
  simp only [update]
  split
  · exact (updateSlot_fails table _ operands).inFlow
  · split
    · next refused => exact failsOnly_error (admits _ refused)
    · exact (updateSlot_fails _ _ operands).inFlow

end GroupTable

namespace Grouping

variable {allowed : QueryError → Prop} {grouping : Grouping} {context : Context}

theorem admits_fails (grouping : Grouping) (maxGroups : Option Nat) (record : Contribution)
    (windows : OpenWindows) (ids : List Nat) :
    FailsInFlow (grouping.admits maxGroups record windows ids) := by
  refine (checkOperands_fails grouping.aggregations record.operands).inFlow.bind fun _ => ?_
  induction ids with
  | nil => exact failsOnly_ok ()
  | cons id ids induction =>
      exact ((windows.table id).admits_fails maxGroups record.key).bind fun _ => induction

theorem addToAll_fails (grouping : Grouping) (maxGroups : Option Nat) (row : Value)
    (record : Contribution) (ids : List Nat) (windows : OpenWindows) :
    FailsInFlow (grouping.addToAll maxGroups row record ids windows).2 := by
  induction ids generalizing windows with
  | nil => exact failsOnly_ok ()
  | cons id ids induction =>
      have update := (windows.table id).update_fails grouping.aggregations maxGroups record.key row
        record.operands
      simp only [addToAll]
      split
      · exact induction _
      · next refused => exact failsOnly_error (update _ refused)

theorem accept_fails (grouping : Grouping) (maxGroups : Option Nat) (elapsed : Nat) (row : Value)
    (record : Contribution) (state : GroupState) :
    FailsInFlow (grouping.accept maxGroups elapsed row record state).2 := by
  have admits := grouping.admits_fails maxGroups record state.windows
    (grouping.windowsOf state elapsed)
  have adds := grouping.addToAll_fails maxGroups row record (grouping.windowsOf state elapsed)
    state.windows
  simp only [accept]
  split
  · next refused => exact failsOnly_error (admits _ refused)
  · split
    · next refused => exact failsOnly_error (adds _ (congrArg Prod.snd refused))
    · exact failsOnly_ok _

theorem Refuses.isAllowed (refuses : grouping.Refuses Script.FailsAsSource context error)
    (contributions : ∀ row : Value,
      (grouping.contribution (context.withRow row)).FailsOnly allowed)
    (arises : ∀ error : QueryError, error.arises → allowed error) : allowed error := by
  cases refuses with
  | @unevaluated row _ gives => exact contributions row error gives
  | refused refused =>
      exact arises error (grouping.accept_fails _ _ _ _ _ error (congrArg Prod.snd refused))

/-! The loop. -/

theorem keeps_failsOnly
    (failures : ∀ error, grouping.Refuses Script.FailsAsSource context error →
      ¬context.settings.errorPolicy.skips error → allowed error) :
    Keeps Script.FailsAsSource grouping context (FailsOnly allowed) (fun _ _ => True)
      fun _ entry => FailsOnly allowed entry where
  step _ _ := ⟨failsOnly_ok _, trivial⟩
  failed refuses ends := failsOnly_error (failures _ refuses ends)
  upstream fails := failsOnly_error fails.of_error

theorem failsOnly_groupRows {feed : Feed GroupTurn} (fails : feed.FailsOnly allowed) (now : Nat) :
    (feed.groupRows grouping now).FailsOnly allowed := by
  induction fails generalizing now with
  | finished => exact .finished
  | @item entry rest entryFails _ induction =>
      cases entry with
      | error error =>
          exact .item (failsOnly_error entryFails.of_error) fun now => induction now now
      | ok turn => exact Feed.failsOnly_values _ (fun now => induction now now) now
  | waiting _ induction => exact .waiting fun now => induction now now
  | opening _ induction => exact .opening fun answer asSource => induction answer asSource now
  | silent => exact .silent

theorem failsOnly_group
    (failures : ∀ error, grouping.Refuses Script.FailsAsSource context error →
      ¬context.settings.errorPolicy.skips error → allowed error) {records : Stream Value}
    (fails : records.FailsOnly allowed) :
    Stream.FailsOnly allowed (records.group grouping context) := fun now =>
  have turns := (keeps_failsOnly failures).along_turns (fails now) .start [] trivial now
  failsOnly_groupRows (turns.each fun _ _ fails => fails) now

/-- Under the policy to skip, no record ends the loop but by a failure of the run as a whole. -/
theorem failsOnly_group_skip (skips : context.settings.errorPolicy = .skip)
    (fatal : ∀ error : QueryError, error.isFatal → allowed error) {records : Stream Value}
    (fails : records.FailsOnly allowed) :
    Stream.FailsOnly allowed (records.group grouping context) :=
  failsOnly_group
    (fun error _ ends => fatal error (Feed.isFatal_of_not_skips (skips ▸ ends))) fails

end Grouping

end StreamQuery
