import StreamQuery.Proofs.Aggregate.Duplicates
import StreamQuery.Plan.Pipeline
import StreamQuery.Proofs.Window.SingleWindow
namespace StreamQuery

/-! Selecting the distinct values of an expression, grouping by what is selected, and counting the
distinct values. -/

namespace Expr

/-- The output row for a value of the expression. The record itself passes through. -/
def rowOf (value : Expr) (result : Value) : Value :=
  if value.isThis then result else .record [(value.text, result)]

def firstRows (value : Expr) (results : Value → Value) (records : List Value) : List Value :=
  (firstsBy results records).map fun row => value.rowOf (results row)

theorem rowOf_alike (value : Expr) (first second : Value) :
    (value.rowOf first).normalized.equals (value.rowOf second).normalized =
      first.normalized.equals second.normalized := by
  simp only [rowOf]
  split
  · rfl
  · simp [Value.normalized, Value.normalizedFields, Value.equals, Value.equalFields]

end Expr

variable {answers : String → Except QueryError Script} {value : Expr} {mapper : Mapper}
  {context : Context} {result : Value}

/-! One record. -/

theorem Projection.settles_apply
    (settles : (mapper context).Settles answers (.ok result))
    (passes : value.isThis → context.row = result) :
    (Projection.apply ⟨value.isThis, [.named value.text mapper]⟩ context).Settles answers
      (.ok (value.rowOf result)) := by
  simp only [apply, Expr.rowOf]
  split
  · next this =>
      rw [passes this]
      exact Evaluation.settles_ok result
  · exact (settles.map _).all_singleton.map _

theorem Pipeline.settles_shape {pipeline : Pipeline} {row : Value}
    (unconditional : pipeline.having = none) (unsorted : pipeline.orderKeys = [])
    (settles : (pipeline.projection.apply context).Settles answers (.ok row)) :
    (pipeline.shape context).Settles answers (.ok (some ⟨row, []⟩)) := by
  refine settles.andThen ?_
  rw [unconditional, unsorted]
  exact (Evaluation.settles_ok true).andThen ((Evaluation.settles_ok []).map _)

namespace Grouping

theorem settles_contribution_key (settles : (mapper context).Settles answers (.ok result)) :
    (contribution ⟨[mapper], none, []⟩ context).Settles answers
      (.ok ⟨[result.normalized], [], false⟩) :=
  settles.all_singleton.andThen
    ((Evaluation.settles_ok []).andThen ((Evaluation.settles_ok false).map _))

theorem settles_contribution_operand (settles : (mapper context).Settles answers (.ok result))
    (aggregation : Aggregation) :
    (contribution ⟨[], none, [⟨some mapper, aggregation⟩]⟩ context).Settles answers
      (.ok ⟨[], [result], false⟩) :=
  (Evaluation.settles_ok []).andThen
    ((settles.andThen ((Evaluation.settles_ok []).map _)).andThen
      ((Evaluation.settles_ok false).map _))

end Grouping

/-! All records. -/

theorem Feed.Delivers.distinct {feed : Feed Shaped} {rows : List Shaped}
    (delivers : feed.Delivers answers now rows) (kept : List Shaped) :
    (feed.distinct (kept.map (·.row.normalized)) now).Delivers answers now
      (unseen (fun first second => first.row.normalized.equals second.row.normalized) kept
        rows) := by
  induction delivers generalizing kept with
  | finished now => exact .finished now
  | @item now _ _ shaped _ induction =>
      simp only [Feed.distinct, unseen, List.any_map, Function.comp_def]
      split
      · exact induction now (Nat.le_refl now) kept
      · exact .item shaped fun later after => induction later after (shaped :: kept)
  | waiting deadline _ induction => exact .waiting deadline (induction kept)
  | opening name _ induction => exact .opening name (induction kept)

namespace Grouping

variable {records : List Value} {results : Value → Value}

theorem tableOf_eq_addAll (grouping : Grouping) (entries : List Entry) :
    grouping.tableOf none entries = GroupTable.addAll grouping.aggregations none
      (entries.map fun entry => ⟨entry.record.key, entry.row, entry.record.operands⟩) := by
  rw [tableOf, GroupTable.addAll, List.foldl_map]
  rfl

theorem complete_keys (mapper : Mapper) (records : List Value) (results : Value → Value) :
    let grouping : Grouping := ⟨[mapper], none, []⟩
    grouping.complete (grouping.openWindow none 0 (records.map fun row =>
        ⟨row, ⟨[(results row).normalized], [], false⟩⟩)) =
      (firstsBy results records).map fun row => ⟨row, []⟩ := by
  intro grouping
  let addition (row : Value) : Addition := ⟨[(results row).normalized], row, []⟩
  have alike : (fun first second => (addition first).sameKey (addition second)) =
      fun first second => (results first).normalized.equals (results second).normalized := by
    funext first second
    simp [addition, Addition.sameKey, Value.equalItems]
  have firsts : Addition.firsts (records.map addition) =
      (firstsBy results records).map addition := by
    rw [Addition.firsts, eraseDupsBy_eq_unseen, firstsBy, ← alike]
    exact unseen_map _ addition [] records
  calc grouping.complete _ = (grouping.openWindow none 0 _).finish := rfl
    _ = (GroupTable.addAll [] none (records.map addition)).finish := by
        rw [finish_openWindow, tableOf_eq_addAll, List.map_map]
        rfl
    _ = (firstsBy results records).map fun row => ⟨row, []⟩ := by
        rw [GroupTable.finish_addAll_keys, firsts, List.map_map]
        rfl

theorem checkOperands_countDistinct (value : Value) :
    checkOperands [.countDistinct] [value] = .ok () := by
  cases value <;> rfl

theorem complete_countDistinct (mapper : Mapper) (records : List Value)
    (results : Value → Value) :
    let grouping : Grouping := ⟨[], none, [⟨some mapper, .countDistinct⟩]⟩
    ∃ sample, grouping.complete (grouping.openWindow none 0 (records.map fun row =>
        ⟨row, ⟨[], [results row], false⟩⟩)) =
      [⟨sample, [.int64 (Int64.ofNat
        (firstsBy results (records.filter fun row => !(results row).isNull)).length)]⟩] := by
  intro grouping
  cases records with
  | nil => exact ⟨.null, rfl⟩
  | cons first rest =>
      let addition (row : Value) : Addition := ⟨[], row, [results row]⟩
      have keyless : ∀ next ∈ (first :: rest).map addition, next.key = [] := by
        intro next member
        rcases List.mem_map.mp member with ⟨row, _, rfl⟩
        rfl
      have accepted : ∀ next ∈ (first :: rest).map addition,
          checkOperands [.countDistinct] next.operands = .ok () := by
        intro next member
        rcases List.mem_map.mp member with ⟨row, _, rfl⟩
        exact checkOperands_countDistinct (results row)
      have operands : (((first :: rest).map addition).filterMap (·.operands[0]?)).filter
            (!·.isNull) =
          ((first :: rest).filter fun row => !(results row).isNull).map results := by
        have taken : ((first :: rest).map addition).filterMap (·.operands[0]?) =
            (first :: rest).map results := by
          rw [List.filterMap_map]
          exact congrFun List.filterMap_eq_map (first :: rest)
        rw [taken, List.filter_map]
        rfl
      refine ⟨first, ?_⟩
      calc grouping.complete _ = (grouping.openWindow none 0 _).finish := rfl
        _ = (GroupTable.addAll [.countDistinct] none ((first :: rest).map addition)).finish := by
            rw [finish_openWindow, tableOf_eq_addAll, List.map_map]
            rfl
        _ = _ := by
            rw [List.map_cons] at keyless accepted operands ⊢
            rw [GroupTable.finish_addAll_countDistinct keyless accepted, operands, firstsBy_map,
              List.length_map]
            rfl

theorem delivers_keys {stream : Stream Value} (unlimited : context.settings.maxGroups = none)
    (settles : ∀ row ∈ records, (mapper (context.withRow row)).Settles answers (.ok (results row)))
    (delivers : (stream now).Delivers answers now records) :
    (Stream.group ⟨[mapper], none, []⟩ context stream now).Delivers answers now
      ((firstsBy results records).map fun row => ⟨row, []⟩) := by
  let grouping : Grouping := ⟨[mapper], none, []⟩
  have delivered := grouping.delivers_group rfl unlimited
    (fun row member => settles_contribution_key (settles row member)) (fun _ _ => rfl) delivers
  rw [complete_keys mapper records results] at delivered
  exact delivered

theorem delivers_countDistinct {stream : Stream Value}
    (unlimited : context.settings.maxGroups = none)
    (settles : ∀ row ∈ records, (mapper (context.withRow row)).Settles answers (.ok (results row)))
    (delivers : (stream now).Delivers answers now records) :
    ∃ sample, (Stream.group ⟨[], none, [⟨some mapper, .countDistinct⟩]⟩ context stream now).Delivers
      answers now [⟨sample, [.int64 (Int64.ofNat
        (firstsBy results (records.filter fun row => !(results row).isNull)).length)]⟩] := by
  let grouping : Grouping := ⟨[], none, [⟨some mapper, .countDistinct⟩]⟩
  rcases complete_countDistinct mapper records results with ⟨sample, complete⟩
  have delivered := grouping.delivers_group rfl unlimited
    (fun row member => settles_contribution_operand (settles row member) .countDistinct)
    (fun row _ => checkOperands_countDistinct (results row)) delivers
  rw [complete] at delivered
  exact ⟨sample, delivered⟩

end Grouping

/-! Statements with one item and one table. -/

/-- In this environment the expression has these values on the records, and that is also where it is
the record itself. -/
structure Expr.Reads (answers : String → Except QueryError Script) (context : Context)
    (value : Expr) (mapper : Mapper) (records : List Value) (results : Value → Value) : Prop where
  settles : ∀ row ∈ records, (mapper (context.withRow row)).Settles answers (.ok (results row))
  passes : value.isThis → ∀ row ∈ records, results row = row

namespace Pipeline

def ofItem (value : Expr) (mapper : Mapper) (source : Source) (filter : Option Predicate)
    (grouping : Option Grouping) (distinct : Bool) : Pipeline where
  source := .single source
  filter := filter
  grouping := grouping
  projection := ⟨value.isThis, [.named value.text mapper]⟩
  having := none
  orderKeys := []
  descending := []
  distinct := distinct
  limit := none

variable {source : Source} {filter : Option Predicate} {records : Stream Value}
  {rows : List Value} {results : Value → Value}

theorem settles_shape_ofItem {grouping : Option Grouping} {distinct : Bool}
    (settles : (mapper context).Settles answers (.ok result))
    (passes : value.isThis → context.row = result) :
    ((ofItem value mapper source filter grouping distinct).shape context).Settles answers
      (.ok (some ⟨value.rowOf result, []⟩)) :=
  settles_shape rfl rfl (Projection.settles_apply settles passes)

theorem delivers_shaped {distinct : Bool} (reads : value.Reads answers context mapper rows results)
    (delivers : (records now).Delivers answers now rows) :
    ((ofItem value mapper source none none distinct).shaped context records now).Delivers answers
      now (rows.map fun row => ⟨value.rowOf (results row), []⟩) :=
  delivers.process_all fun row member => settles_shape_ofItem (reads.settles row member)
    fun this => (reads.passes this row member).symm

theorem delivers_distinct (reads : value.Reads answers context mapper rows results)
    (delivers : (records now).Delivers answers now rows) :
    ((ofItem value mapper source none none true).stages context records now).Delivers answers now
      (value.firstRows results rows) := by
  let shaped (row : Value) : Shaped := ⟨value.rowOf (results row), []⟩
  have firsts : unseen (fun first second => first.row.normalized.equals second.row.normalized) []
      (rows.map shaped) = (firstsBy results rows).map shaped := by
    have mapped := unseen_map
      (fun first second => first.row.normalized.equals second.row.normalized) shaped [] rows
    simp only [shaped, Expr.rowOf_alike] at mapped
    exact mapped
  have shapes : ((ofItem value mapper source none none true).shaped context records now).Delivers
      answers now (rows.map shaped) := delivers_shaped reads delivers
  have distinct := (shapes.distinct []).map Shaped.row
  rw [firsts, List.map_map] at distinct
  exact distinct

theorem delivers_grouped (topmost : context.aggregates = [])
    (unlimited : context.settings.maxGroups = none)
    (reads : value.Reads answers context mapper rows results)
    (delivers : (records now).Delivers answers now rows) :
    ((ofItem value mapper source none (some ⟨[mapper], none, []⟩) false).stages context records
        now).Delivers answers now
      (value.firstRows results rows) := by
  let grouping : Grouping := ⟨[mapper], none, []⟩
  have groups : (Stream.group grouping context records now).Delivers answers now
      ((firstsBy results rows).map fun row => ⟨row, []⟩) :=
    Grouping.delivers_keys unlimited reads.settles delivers
  have shapes : ∀ group ∈ (firstsBy results rows).map fun row => (⟨row, []⟩ : GroupRow),
      ((ofItem value mapper source none (some grouping) false).shape
        (context.withGroup group.sample group.aggregates)).Settles answers
        (.ok (some ⟨value.rowOf (results group.sample), []⟩)) := by
    intro group member
    rcases List.mem_map.mp member with ⟨row, first, rfl⟩
    -- On the record that a group stands for the expression is evaluated once more.
    have among : row ∈ rows := (unseen_sublist _ _ _).subset first
    have same : context.withGroup row [] = context.withRow row := by
      rw [Context.withGroup, ← topmost]
      rfl
    rw [same]
    exact settles_shape_ofItem (reads.settles row among) fun this =>
      (reads.passes this row among).symm
  have grouped : ((ofItem value mapper source none (some grouping) false).stages context records
      now).Delivers answers now _ := (groups.process_all shapes).map Shaped.row
  rw [List.map_map, List.map_map] at grouped
  exact grouped

theorem delivers_filtered (test : Value → Bool)
    (reads : value.Reads answers context mapper rows results)
    (delivers : (records now).Delivers answers now rows) :
    ((ofItem value mapper source (some (Predicate.ofValue test mapper)) none true).stages context
        records now).Delivers answers now
      (value.firstRows results (rows.filter fun row => test (results row))) := by
  let pipeline : Pipeline :=
    ofItem value mapper source (some (Predicate.ofValue test mapper)) none true
  let kept (row : Value) : Option Value := if test (results row) then some row else none
  have steps : ∀ row ∈ rows, ((Predicate.ofValue test mapper context row).map fun holds =>
      if holds then some row else none).Settles answers (.ok (kept row)) :=
    fun row member => ((reads.settles row member).map test).map _
  have filtered : (pipeline.filtered context records now).Delivers answers now
      (rows.filterMap kept) := delivers.process steps
  have same : rows.filterMap kept = rows.filter fun row => test (results row) := by
    rw [← List.filterMap_eq_filter]
    rfl
  rw [same] at filtered
  have remaining : value.Reads answers context mapper
      (rows.filter fun row => test (results row)) results :=
    ⟨fun row member => reads.settles row (List.mem_filter.mp member).1,
      fun this row member => reads.passes this row (List.mem_filter.mp member).1⟩
  have distinct : ((ofItem value mapper source none none true).stages context
      (pipeline.filtered context records) now).Delivers answers now _ :=
    delivers_distinct remaining filtered
  exact distinct

theorem delivers_count (unlimited : context.settings.maxGroups = none) {call : Expr}
    (ordinary : call.isThis = false) {slot : Mapper}
    (reads : ∀ context : Context, slot context = .ok (context.aggregates.getD 0 .null))
    (settles : ∀ row ∈ rows, (mapper (context.withRow row)).Settles answers (.ok (results row)))
    (delivers : (records now).Delivers answers now rows) :
    ((ofItem call slot source none (some ⟨[], none, [⟨some mapper, .countDistinct⟩]⟩)
        false).stages context records now).Delivers answers now
      [.record [(call.text, .int64 (Int64.ofNat
        (firstsBy results (rows.filter fun row => !(results row).isNull)).length))]] := by
  let grouping : Grouping := ⟨[], none, [⟨some mapper, .countDistinct⟩]⟩
  let count : Value := .int64 (Int64.ofNat
    (firstsBy results (rows.filter fun row => !(results row).isNull)).length)
  rcases Grouping.delivers_countDistinct unlimited settles delivers with ⟨sample, group⟩
  have shapes : ∀ group ∈ [(⟨sample, [count]⟩ : GroupRow)],
      ((ofItem call slot source none (some grouping) false).shape
        (context.withGroup group.sample group.aggregates)).Settles answers
        (.ok (some ⟨call.rowOf count, []⟩)) := by
    intro group member
    cases List.mem_singleton.mp member
    refine settles_shape_ofItem ?_ fun this => nomatch ordinary.symm.trans this
    rw [reads]
    exact Evaluation.settles_ok count
  have counted : ((ofItem call slot source none (some grouping) false).stages context records
      now).Delivers answers now _ := (group.process_all shapes).map Shaped.row
  simp only [List.map_singleton, Expr.rowOf, ordinary] at counted
  exact counted

end Pipeline

end StreamQuery
