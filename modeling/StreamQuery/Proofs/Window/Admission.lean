import StreamQuery.Proofs.Aggregate.Acceptance
import StreamQuery.Proofs.Window.OpenWindows
import StreamQuery.Proofs.Window.Turns
namespace StreamQuery

/-! Whether a record can be added is seen before any window is touched: what admits it adds it. -/

/-- Every group has one accumulator for each aggregate. -/
def GroupTable.Regular (aggregations : List Aggregation) (table : GroupTable) : Prop :=
  ∀ group ∈ table.groups, group.accumulators.map Accumulator.aggregation = aggregations

def OpenWindows.Regular (aggregations : List Aggregation) (windows : OpenWindows) : Prop :=
  ∀ window ∈ windows, window.2.Regular aggregations

namespace GroupTable

variable {aggregations : List Aggregation} {operands : List Value}

theorem empty_regular : empty.Regular aggregations := fun _ member => nomatch member

theorem updateAll_of_check {accumulators : List Accumulator}
    (kinds : accumulators.map Accumulator.aggregation = aggregations)
    (checked : Grouping.checkOperands aggregations operands = .ok ()) :
    ∃ updated, updateAll accumulators operands = (updated, .ok ()) ∧
      updated.map Accumulator.aggregation = aggregations := by
  induction accumulators generalizing aggregations operands with
  | nil => exact ⟨[], rfl, kinds⟩
  | cons accumulator accumulators induction =>
      subst kinds
      cases operands with
      | nil => exact ⟨accumulator :: accumulators, rfl, rfl⟩
      | cons operand operands =>
          have accepts := accumulator.accepts_update operand
          simp only [List.map_cons, Grouping.checkOperands] at checked
          cases check : accumulator.check operand with
          | error error =>
              rw [Accumulator.check] at check
              simp [check, bind, Except.bind] at checked
          | ok =>
              rw [check] at accepts
              rcases accepts with ⟨next, update, kind⟩
              rw [Accumulator.check] at check
              simp only [check, bind, Except.bind] at checked
              rcases induction rfl checked with ⟨updated, rest, kinds⟩
              exact ⟨next :: updated, by simp only [updateAll, update, rest],
                by rw [List.map_cons, kinds, kind, List.map_cons]⟩

theorem updateSlot_of_check {table : GroupTable} (regular : table.Regular aggregations)
    (slot : Nat) (checked : Grouping.checkOperands aggregations operands = .ok ()) :
    ∃ next, table.updateSlot slot operands = (next, .ok ()) ∧ next.Regular aggregations := by
  cases present : table.groups[slot]? with
  | none => exact ⟨table, by simp only [updateSlot, present], regular⟩
  | some group =>
      have kinds := regular group (List.mem_of_getElem? present)
      rcases updateAll_of_check kinds checked with ⟨updated, update, kinds⟩
      refine ⟨_, by simp only [updateSlot, present, update]; rfl, ?_⟩
      intro other member
      rcases List.mem_or_eq_of_mem_set member with member | rfl
      · exact regular other member
      · exact kinds

theorem push_regular {table : GroupTable} (regular : table.Regular aggregations)
    (key : List Value) (sample : Value) : (table.push aggregations key sample).Regular aggregations :=
  List.forall_mem_append.mpr ⟨regular, List.forall_mem_singleton.mpr
    (by simp [Function.comp_def, Accumulator.start_aggregation])⟩

theorem update_of_admits {table : GroupTable} (regular : table.Regular aggregations)
    (maxGroups : Option Nat) (key : List Value) (sample : Value)
    (checked : Grouping.checkOperands aggregations operands = .ok ())
    (admits : table.admits maxGroups key = .ok ()) :
    ∃ next, table.update aggregations maxGroups key sample operands = (next, .ok ()) ∧
      next.Regular aggregations := by
  simp only [update]
  split
  · next slot _ => exact updateSlot_of_check regular slot checked
  · simp only [admits]
    exact updateSlot_of_check (push_regular regular key sample) table.size checked

end GroupTable

namespace OpenWindows

theorem Regular.table {aggregations : List Aggregation} {windows : OpenWindows}
    (regular : windows.Regular aggregations) (id : Nat) :
    (windows.table id).Regular aggregations := by
  simp only [OpenWindows.table]
  cases found : windows.find? fun window => window.1 == id with
  | none => exact GroupTable.empty_regular
  | some window => exact regular window (List.mem_of_find?_eq_some found)

theorem eq_or_mem_of_mem_insert {windows : OpenWindows} {id : Nat} {groups : GroupTable}
    (member : window ∈ windows.insert id groups) : window = (id, groups) ∨ window ∈ windows := by
  induction windows with
  | nil => exact .inl (List.mem_singleton.mp member)
  | cons first rest induction =>
      simp only [insert] at member
      split at member
      · exact (List.mem_cons.mp member).imp_right (List.mem_cons_of_mem first)
      · split at member
        · exact List.mem_cons.mp member
        · rcases List.mem_cons.mp member with equal | member
          · exact .inr (List.mem_cons.mpr (.inl equal))
          · exact (induction member).imp_right (List.mem_cons_of_mem first)

theorem Regular.insert {aggregations : List Aggregation} {windows : OpenWindows}
    (regular : windows.Regular aggregations) (id : Nat) {groups : GroupTable}
    (added : groups.Regular aggregations) : (windows.insert id groups).Regular aggregations := by
  intro window member
  rcases eq_or_mem_of_mem_insert member with equal | member
  · exact equal ▸ added
  · exact regular window member

end OpenWindows

namespace Grouping

variable {grouping : Grouping}

theorem isFatal_of_checkOperands {aggregations : List Aggregation} {operands : List Value}
    (refused : checkOperands aggregations operands = .error error) : error.isFatal = false :=
  QueryError.isFatal_of_isCast (checkOperands_fails aggregations operands error refused)

theorem addToAll_of_admits (maxGroups : Option Nat) (row : Value) (record : Contribution)
    {ids : List Nat} {windows : OpenWindows} (regular : windows.Regular grouping.aggregations)
    (nodup : ids.Nodup)
    (checked : checkOperands grouping.aggregations record.operands = .ok ())
    (admits : ∀ id ∈ ids, (windows.table id).admits maxGroups record.key = .ok ()) :
    ∃ added, grouping.addToAll maxGroups row record ids windows = (added, .ok ()) ∧
      added.Regular grouping.aggregations := by
  induction ids generalizing windows with
  | nil => exact ⟨windows, rfl, regular⟩
  | cons id ids induction =>
      have parts := List.nodup_cons.mp nodup
      rcases GroupTable.update_of_admits (regular.table id)
          maxGroups record.key row checked (admits id List.mem_cons_self) with
        ⟨table, update, tableRegular⟩
      have untouched : ∀ other ∈ ids,
          ((windows.insert id table).table other).admits maxGroups record.key = .ok () := by
        intro other member
        have different : id ≠ other := fun same => parts.1 (same ▸ member)
        rw [OpenWindows.table_insert, if_neg different]
        exact admits other (List.mem_cons_of_mem id member)
      rcases induction (regular.insert id tableRegular) parts.2 untouched with
        ⟨added, rest, addedRegular⟩
      exact ⟨added, by simp only [addToAll, update, rest], addedRegular⟩

theorem forM_ok_iff {values : List α} {step : α → Except QueryError Unit} :
    values.forM step = .ok () ↔ ∀ value ∈ values, step value = .ok () := by
  induction values with
  | nil => exact ⟨fun _ _ member => (nomatch member), fun _ => rfl⟩
  | cons value values induction =>
      rw [List.forall_mem_cons, ← induction]
      show (step value >>= fun _ => values.forM step) = .ok () ↔ _
      cases step value with
      | error error => exact ⟨fun failed => (nomatch failed), fun both => (nomatch both.1)⟩
      | ok _ => exact ⟨fun rest => ⟨rfl, rest⟩, And.right⟩

theorem admits_ok_iff {maxGroups : Option Nat} {record : Contribution} {windows : OpenWindows}
    {ids : List Nat} :
    grouping.admits maxGroups record windows ids = .ok () ↔
      checkOperands grouping.aggregations record.operands = .ok () ∧
        ∀ id ∈ ids, (windows.table id).admits maxGroups record.key = .ok () := by
  simp only [admits]
  rw [← forM_ok_iff]
  cases checkOperands grouping.aggregations record.operands with
  | error error => exact ⟨fun failed => (nomatch failed), fun both => (nomatch both.1)⟩
  | ok _ => exact ⟨fun rest => ⟨rfl, rest⟩, And.right⟩

theorem eq_of_accept_error {maxGroups : Option Nat} {state : GroupState}
    (regular : state.windows.Regular grouping.aggregations)
    (refused : grouping.accept maxGroups elapsed row record state = (next, .error error)) :
    next = state ∧
      grouping.admits maxGroups record state.windows (grouping.windowsOf state elapsed) =
        .error error := by
  simp only [accept] at refused
  cases admits : grouping.admits maxGroups record state.windows
      (grouping.windowsOf state elapsed) with
  | error _ =>
      simp only [admits] at refused
      cases refused
      exact ⟨rfl, rfl⟩
  | ok _ =>
      have parts := admits_ok_iff.mp admits
      rcases addToAll_of_admits maxGroups row record regular
          (grouping.windowsOf_nodup state elapsed) parts.1 parts.2 with
        ⟨added, result, _⟩
      simp only [admits, result] at refused
      cases refused

/-- An accepted record is admitted by its windows, added to them, and then windows close. -/
theorem accept_ok {maxGroups : Option Nat} {state : GroupState}
    (accepted : grouping.accept maxGroups elapsed row record state = (next, .ok closed)) :
    grouping.admits maxGroups record state.windows (grouping.windowsOf state elapsed) = .ok () ∧
      ∃ windows, grouping.addToAll maxGroups row record (grouping.windowsOf state elapsed)
        state.windows = (windows, .ok ()) ∧
        grouping.close record.triggers { state with windows, seen := state.seen + 1 } =
          (closed, next) := by
  simp only [accept] at accepted
  split at accepted
  · cases accepted
  · next admits =>
      split at accepted
      · cases accepted
      · next windows added =>
          cases accepted
          exact ⟨admits, windows, added, rfl⟩

theorem close_windows {state : GroupState}
    (closes : grouping.close triggers state = (closed, next)) :
    closed ++ next.windows = state.windows := by
  simp only [close] at closes
  split at closes
  · cases closes
    exact List.takeWhile_append_dropWhile
  · split at closes
    · cases closes
      exact List.take_append_drop 1 state.windows
    · cases closes
      rfl
  · cases closes
    rfl

theorem accept_regular {maxGroups : Option Nat} {state : GroupState}
    (regular : state.windows.Regular grouping.aggregations)
    (accepted : grouping.accept maxGroups elapsed row record state = (next, .ok closed)) :
    next.windows.Regular grouping.aggregations := by
  rcases accept_ok accepted with ⟨admits, windows, added, closes⟩
  have parts := admits_ok_iff.mp admits
  rcases addToAll_of_admits maxGroups row record regular
      (grouping.windowsOf_nodup state elapsed) parts.1 parts.2 with
    ⟨same, result, addedRegular⟩
  cases added.symm.trans result
  intro window member
  have before : closed ++ next.windows = windows := close_windows closes
  exact addedRegular window (before ▸ List.mem_append_right closed member)

variable {context : Context} {started : Nat}

theorem Step.regular (step : grouping.Step context started state now taken turn later)
    (regular : state.windows.Regular grouping.aggregations) :
    turn.state.windows.Regular grouping.aggregations := by
  cases step with
  | expired oldest _ _ _ =>
      intro window member
      exact regular window (oldest ▸ List.mem_cons_of_mem _ member)
  | accepted _ _ _ accepted => exact accept_regular regular accepted
  | unevaluated _ _ _ => exact regular
  | refused _ _ refused _ =>
      rw [(eq_of_accept_error regular refused).1]
      exact regular

theorem Step.of_skipped (step : grouping.Step context started state now taken turn later)
    (regular : state.windows.Regular grouping.aggregations)
    (skipped : turn.event = .skipped arrived row error) :
    turn.closed = [] ∧ turn.state = state := by
  cases step with
  | expired => cases skipped
  | accepted => cases skipped
  | unevaluated => exact ⟨rfl, rfl⟩
  | refused _ _ refused _ => exact ⟨rfl, (eq_of_accept_error regular refused).1⟩

end Grouping

end StreamQuery
