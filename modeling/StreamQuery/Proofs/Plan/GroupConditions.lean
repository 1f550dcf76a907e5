import StreamQuery.Proofs.Plan.AggregateSlots
import StreamQuery.Proofs.Plan.Overlays
import StreamQuery.Proofs.Plan.Parts
import StreamQuery.Proofs.Plan.Statements
import StreamQuery.Proofs.Plan.Wrapping
namespace StreamQuery

/-! A condition on the groups of a statement is asked of the projected row laid over the first
record of the group, where the aggregates are finished. Asked of the projected row alone, as the
filter of a statement around, it decides alike as long as it goes by output columns. -/

/-- Contexts in which the same is found under some names, and evaluations that are the same. -/
def Likeness.ofColumns (visible : String → Prop) : Likeness where
  contexts context other := context.wallClock = other.wallClock ∧
    ∀ name, visible name → context.row.getPath? name = other.row.getPath? name
  evaluations := Eq
  reading alike _ := by rw [alike.1]
  ok _ := rfl
  thenCheck same _ := by rw [same]
  andThen same follows := by rw [same, funext follows]
  both same sameSecond := by rw [same, sameSecond]
  defer same := by rw [same]

theorem Mapper.column_respects_ofColumns {visible : String → Prop} {reference : ColumnRef}
    (unqualified : reference.table = none) (named : reference.name ≠ "this")
    (among : visible reference.name) :
    (column reference).Respects (.ofColumns visible) := by
  rintro context other ⟨_, same⟩
  have found (context : Context) :
      context.findColumn? reference = context.row.getPath? reference.name := by
    simp only [Context.findColumn?, unqualified, beq_eq_false_iff_ne.mpr named, Bool.false_eq_true,
      if_false]
  simp only [column, Context.resolve, found, same _ among]
  exact Eq.refl _

/-! Stages. -/

namespace Pipeline

def ofGroups (source : SourcePlan) (filter : Option Predicate) (grouping : Grouping)
    (projection : Projection) (having : Option Predicate) : Pipeline where
  source := source
  filter := filter
  grouping := some grouping
  projection := projection
  having := having
  orderKeys := []
  descending := []
  distinct := false
  limit := none

variable {source : SourcePlan} {filter : Option Predicate} {grouping : Grouping}
  {projection : Projection} {condition : Predicate}

theorem shape_ofGroups (context : Context) :
    (ofGroups source filter grouping projection none).shape context =
      (projection.apply context).map fun row => some ⟨row, []⟩ :=
  (projection.apply context).andThen_ok fun row => some (⟨row, []⟩ : Shaped)

theorem shape_ofGroups_having (context : Context) :
    (ofGroups source filter grouping projection (some condition)).shape context =
      (projection.apply context).andThen fun row =>
        (condition (context.withRow (context.row.overlay row)) (context.row.overlay row)).map
          fun kept => if kept then some ⟨row, []⟩ else none := by
  apply congrArg (Evaluation.andThen _)
  funext row
  apply Eq.trans ?_ (Evaluation.andThen_ok _ _)
  apply congrArg (Evaluation.andThen _)
  funext kept
  cases kept <;> rfl

/-- The condition decides of a projected row by itself as over the row that it was made of. -/
def Decides (projection : Projection) (condition : Predicate) : Prop :=
  ∀ (context outer : Context) (projected : Value), outer.wallClock = context.wallClock →
    (projection.apply context).Gives (fun _ => True) (.ok projected) →
    condition (context.withRow (context.row.overlay projected)) (context.row.overlay projected) =
      condition outer projected

theorem inTurn_shape (decides : Decides projection condition) {context outer : Context}
    (clock : outer.wallClock = context.wallClock) :
    Feed.inTurn (fun group : GroupRow => ((ofGroups source filter grouping projection none).shape
        (context.withGroup group.sample group.aggregates)).map (Option.map Shaped.row))
      (condition.keep outer) =
      fun group => ((ofGroups source filter grouping projection (some condition)).shape
        (context.withGroup group.sample group.aggregates)).map (Option.map Shaped.row) := by
  funext group
  simp only [Feed.inTurn]
  rw [shape_ofGroups, Evaluation.map_map, Evaluation.map_andThen, shape_ofGroups_having,
    Evaluation.andThen_map]
  apply Evaluation.andThen_congr
  intro projected gives
  simp only [Option.map_some, Predicate.keep, Evaluation.map_map]
  rw [decides (context.withGroup group.sample group.aggregates) outer projected clock gives]
  apply congrArg (Evaluation.map · _)
  funext kept
  cases kept <;> rfl

theorem stages_ofGroups (having : Option Predicate) (context : Context) (records : Stream Value)
    (now : Nat) :
    (ofGroups source filter grouping projection having).stages context records now =
      (Stream.group grouping context
        ((ofGroups source filter grouping projection having).filtered context records) now).process
        context.settings.errorPolicy
        (fun group => ((ofGroups source filter grouping projection having).shape
          (context.withGroup group.sample group.aggregates)).map (Option.map Shaped.row)) now :=
  Feed.map_process _ _ _ _ _

/-- The condition may as well filter the rows of the groups from outside. -/
theorem process_stages_ofGroups (decides : Decides projection condition) {context outer : Context}
    (clock : outer.wallClock = context.wallClock) (settings : outer.settings = context.settings)
    (records : Stream Value) (now : Nat) :
    ((ofGroups source filter grouping projection none).stages context records now).process
        outer.settings.errorPolicy (condition.keep outer) now =
      (ofGroups source filter grouping projection (some condition)).stages context records now := by
  rw [stages_ofGroups, stages_ofGroups, settings, Feed.process_process, inTurn_shape decides clock]
  rfl

theorem rows_ofGroups_having {plan : Plan} {label : String}
    (decides : Decides projection condition)
    (inner : plan.rows = (ofGroups source filter grouping projection none).rows) :
    (passing (.single (.ofPlan plan label)) (some condition)).rows =
      (ofGroups source filter grouping projection (some condition)).rows := by
  funext nested context
  let outer := context.withLabel (some label)
  have settings : outer.settings = (source.context context).settings := by cases source <;> rfl
  have clock : outer.wallClock = (source.context context).wallClock := by cases source <;> rfl
  have passed (records : Stream Value) :=
    @stages_passing (.single (.ofPlan plan label)) (some condition) outer records
      fun now => Feed.failsLast_process _ _ _ now
  change (plan.rows nested context).map _ = (source.rows nested context).map _
  rw [inner]
  change ((source.rows nested context).map _).map _ = _
  rw [Opening.map_map]
  congr 1
  funext records now
  exact (congrFun (passed _) now).trans (process_stages_ofGroups decides clock settings records now)

end Pipeline

/-! Conditions that go by output columns. -/

namespace Select

/-- Rows of the statement have a column of that name, or all columns of a record. -/
def Shows (query : Select) (name : String) : Prop :=
  Projection.passes query.items ∨ .wildcard ∈ query.items ∨
    ∃ value label, .expression value label ∈ query.items ∧ label.getD value.text = name

structure EndsInGroups (metadata : Metadata) (query : Select) : Prop where
  grouped : query.groupBy ≠ [] ∨ SelectItem.aggregates metadata query.items ≠ []
  distinct : query.distinct = false
  having : query.having = none
  orderBy : query.orderBy = []
  limit : query.limit = none

end Select

/-- The expression by itself asks for output columns of the statement alone. Its function is not
hidden in a statement that reads the results of its aggregate calls under their names. -/
structure Expr.AsksOutput (metadata : Metadata) (query : Select) (expr : Expr) : Prop where
  noSelect : ∀ inner, expr ≠ .subselect inner
  noAggregate : expr.isAggregate metadata = false
  column : ∀ reference, expr = .column reference →
    reference.table = none ∧ reference.name ≠ "this" ∧ query.Shows reference.name
  function : ∀ name ∈ (expr.node metadata).function?,
    ∀ found ∈ SelectItem.aggregates metadata query.items,
      FeatureId.of .valueMap found.call.name ≠ FeatureId.of .valueMap name

theorem Metadata.ofSettings_slotless (settings : Settings) (zones : Zones) (name : String)
    (calls : List Call) : (ofSettings settings zones).valueFeature? name ≠ some (.slots calls) := by
  intro reads
  simp only [valueFeature?, find?_ofSettings] at reads
  split at reads
  · next feature found =>
      cases reads
      cases Registry.readsResults_of_defaults found
  · cases reads

namespace AggregateSet

variable {metadata : Metadata} {set : AggregateSet}

theorem install_eq (set : AggregateSet) (metadata : Metadata) :
    set.install metadata =
      { metadata with statementFeatures := (set.install metadata).statementFeatures } := by
  suffices general : ∀ calls : List Call,
      let installed := calls.foldl (fun metadata call =>
        metadata.withStatementFeature (.of .valueMap call.name) (.valueMap (.slots set.calls)))
        metadata
      installed = { metadata with statementFeatures := installed.statementFeatures } from
    general set.calls
  intro calls
  induction calls generalizing metadata with
  | nil => rfl
  | cons first rest induction => exact induction _

theorem install_differs (set : AggregateSet) (metadata : Metadata) :
    metadata.DiffersInFunctions (set.install metadata) where
  tests name := by
    simp [Metadata.filterFeature?, find?_install, FeatureId.of]
  casts target := by
    simp [Metadata.castFeature?, find?_install, FeatureId.of]
  settings := congrArg (·.settings) (set.install_eq metadata)
  zones := congrArg (·.zones) (set.install_eq metadata)

theorem foldl_addCall_ne_nil {calls found : List AggregateCall} (some : found ≠ []) :
    calls.foldl addCall found ≠ [] := by
  induction calls generalizing found with
  | nil => exact some
  | cons next calls induction =>
      apply induction
      simp only [addCall]
      split
      · exact some
      · exact List.append_ne_nil_of_right_ne_nil _ (List.cons_ne_nil _ _)

theorem not_isEmpty_of_ofCalls {calls : List AggregateCall} (some : calls ≠ [])
    (collects : ofCalls calls = .ok set) : set.isEmpty = false := by
  cases calls with
  | nil => exact absurd rfl some
  | cons first rest =>
      have kept : (first :: rest).foldl addCall [] ≠ [] :=
        @foldl_addCall_ne_nil rest [first] (List.cons_ne_nil _ _)
      rw [isEmpty, (ofCalls_ok collects).1, List.isEmpty_eq_false_iff]
      exact mt List.map_eq_nil_iff.mp kept

end AggregateSet

namespace Expr

variable {metadata : Metadata} {query : Select} {condition : Expr}

theorem All.aggregates_eq_nil (all : condition.All fun part => part.isAggregate metadata = false) :
    condition.aggregates metadata = [] := by
  induction all with
  | intro other _ induction =>
      rw [aggregates_of_other other]
      exact List.flatMap_eq_nil_iff.mpr induction

theorem All.compile_install {set : AggregateSet} (all : condition.All (AsksOutput metadata query))
    (collects : AggregateSet.ofCalls (SelectItem.aggregates metadata query.items) = .ok set) :
    condition.compile (set.install metadata) = condition.compile metadata := by
  apply All.compile_eq (set.install_differs metadata)
  apply all.imp
  intro part asks
  refine ⟨asks.noSelect, fun name among => ?_⟩
  apply AggregateSet.valueFeature?_install_other
  intro call member
  rw [(AggregateSet.ofCalls_ok collects).1] at member
  rcases List.mem_map.mp member with ⟨found, kept, rfl⟩
  rcases AggregateSet.mem_of_mem_foldl_addCall kept with nothing | found
  · cases nothing
  · exact asks.function name among _ found

/-- A condition that goes by the output columns decides of the projected row alone. -/
theorem All.decides {projection : Projection}
    (slotless : ∀ name calls, metadata.valueFeature? name ≠ some (.slots calls))
    (all : condition.All (AsksOutput metadata query))
    (shows : ∀ name, query.Shows name → projection.Shows name) :
    Ensures (condition.compile metadata).predicate.get (Pipeline.Decides projection) := by
  have known : metadata.Respects (.ofColumns query.Shows) := fun name calls found =>
    absurd found (slotless name calls)
  have keeps (part : Expr) (asks : part.AsksOutput metadata query) :
      part.Keeps (.ofColumns query.Shows) := by
    cases part with
    | column reference =>
        rcases asks.column reference rfl with ⟨unqualified, named, shown⟩
        exact Mapper.column_respects_ofColumns unqualified named shown
    | subselect inner => exact absurd rfl (asks.noSelect inner)
    | _ => trivial
  intro predicate compiles context outer projected clock gives
  have respects := (All.compile_respects known (all.imp keeps)).predicate predicate compiles
  apply respects
  exact ⟨clock.symm, fun name shown => Projection.getPath?_overlay (shows name shown) gives⟩

end Expr

theorem SelectItem.ensures_columns (metadata : Metadata) (items : List SelectItem) :
    Ensures (SelectItem.columns metadata items) fun columns =>
      (.wildcard ∈ items → .wildcard ∈ columns) ∧
        ∀ value label, .expression value label ∈ items →
          ∃ mapper, .named (label.getD value.text) mapper ∈ columns := by
  rw [columns_eq]
  intro columns compiles
  have each := forall₂_of_mapM_ok compiles
  constructor
  · intro member
    rcases exists_mem_of_forall₂ each member with ⟨_, among, same⟩
    cases same
    exact among
  · intro value label member
    rcases exists_mem_of_forall₂ each member with ⟨_, among, reads⟩
    rcases exists_of_map_ok reads with ⟨mapper, _, rfl⟩
    exact ⟨mapper, among⟩

namespace Select

variable {metadata : Metadata} {query : Select}

theorem Shows.projection {columns : List Column} {shaping : Metadata}
    (compiles : SelectItem.columns shaping query.items = .ok columns) {name : String}
    (shows : query.Shows name) :
    Projection.Shows ⟨Projection.passes query.items, columns⟩ name := by
  have has := SelectItem.ensures_columns shaping query.items columns compiles
  rcases shows with passes | all | ⟨value, label, member, rfl⟩
  · exact .inl passes
  · exact .inr (.inl (has.1 all))
  · exact .inr (.inr (has.2 value label member))

theorem clauses_ofGroups (ends : query.EndsInGroups metadata) {having : Option Expr}
    (asks : ∀ condition ∈ having, condition.All (Expr.AsksOutput metadata query)) :
    { query with having := having }.clauses metadata = (do
      let set ← AggregateSet.ofCalls (SelectItem.aggregates metadata query.items)
      let clause ← GroupClause.compile metadata (Expr.nodes metadata query.groupBy)
      let columns ← SelectItem.columns (set.install metadata) query.items
      let condition ← (Expr.compileOption metadata having).mapM fun part => part.predicate.get
      .ok (Pipeline.ofGroups .implicit none ⟨clause.keys, clause.window, set.specs⟩
        ⟨Projection.passes query.items, columns⟩ condition)) := by
  have noAggregates : Expr.aggregatesOfOption metadata having = [] := by
    cases having with
    | none => rfl
    | some condition =>
        exact ((asks condition rfl).imp fun part asks => asks.noAggregate).aggregates_eq_nil
  simp only [clauses, ends.orderBy, ends.distinct, ends.limit, noAggregates, SortClause.aggregates,
    SortClause.keys, List.append_nil, List.map_nil]
  cases collects : AggregateSet.ofCalls (SelectItem.aggregates metadata query.items) with
  | error error => rfl
  | ok set =>
      have grouped : (!query.groupBy.isEmpty || having.isSome || !set.isEmpty) = true := by
        rcases ends.grouped with groups | calls
        · simp [groups]
        · simp [AggregateSet.not_isEmpty_of_ofCalls calls collects]
      have compiled :
          Expr.compileOption (set.install metadata) having =
            Expr.compileOption metadata having := by
        cases having with
        | none => rfl
        | some condition => exact congrArg some ((asks condition rfl).compile_install collects)
      change (do
        let clause ← GroupClause.compile metadata (Expr.nodes metadata query.groupBy)
        _) = _
      simp only [grouped, if_true, compiled]
      rfl

theorem clauses_ofGroups_plain (ends : query.EndsInGroups metadata) :
    query.clauses metadata = (do
      let set ← AggregateSet.ofCalls (SelectItem.aggregates metadata query.items)
      let clause ← GroupClause.compile metadata (Expr.nodes metadata query.groupBy)
      let columns ← SelectItem.columns (set.install metadata) query.items
      .ok (Pipeline.ofGroups .implicit none ⟨clause.keys, clause.window, set.specs⟩
        ⟨Projection.passes query.items, columns⟩ none)) := by
  have same : { query with having := none } = query := by
    cases query
    cases ends.having
    rfl
  have plain := @clauses_ofGroups metadata query ends none nofun
  rw [same] at plain
  exact plain

theorem ensures_ofGroups (ends : query.EndsInGroups metadata) :
    Ensures (query.clauses metadata) fun rest => ∃ grouping shaping columns,
      SelectItem.columns shaping query.items = .ok columns ∧
        rest = Pipeline.ofGroups .implicit none grouping ⟨Projection.passes query.items, columns⟩
          none := by
  rw [clauses_ofGroups_plain ends]
  exact (ensures_true _).bind fun set _ => (ensures_true _).bind fun clause _ =>
    (ensures_self _).bind fun columns compiled => ensures_ok ⟨_, _, columns, compiled, rfl⟩

theorem clauses_having (ends : query.EndsInGroups metadata) {condition : Expr}
    (asks : condition.All (Expr.AsksOutput metadata query)) :
    { query with having := some condition }.clauses metadata = (do
      let rest ← query.clauses metadata
      let having ← (condition.compile metadata).predicate.get
      .ok { rest with having := some having }) := by
  rw [clauses_ofGroups_plain ends, @clauses_ofGroups metadata query ends (some condition)
    fun _ found => Option.some.inj found ▸ asks]
  simp only [condition_some, bind_assoc]
  apply bind_congr fun set => bind_congr fun clause => bind_congr fun columns => ?_
  cases (condition.compile metadata).predicate.get <;> rfl

theorem ensures_joins (metadata : Metadata) (statement other : Unit → String) (position : Nat)
    (joins : List JoinClause) :
    Ensures (JoinClause.compileAll metadata statement position joins) fun steps =>
      JoinClause.compileAll metadata other position joins = .ok steps := by
  induction joins generalizing position with
  | nil => exact ensures_ok rfl
  | cons join rest induction =>
      rcases join with ⟨kind, source, condition⟩
      simp only [JoinClause.compileAll]
      split
      · exact ensures_error _
      · refine (ensures_self _).bind fun first opened =>
          (ensures_self _).bind fun predicate asked =>
          (induction (position + 1)).bind fun steps same => ensures_ok ?_
        rw [opened, asked, same]
        rfl

theorem ensures_source (metadata : Metadata) (statement other : Unit → String)
    (joins : List JoinClause) (source : Option FromItem) :
    Ensures (FromItem.compileClause metadata
        (fun _ => JoinClause.compileAll metadata statement 1 joins) source) fun plan =>
      FromItem.compileClause metadata
        (fun _ => JoinClause.compileAll metadata other 1 joins) source = .ok plan := by
  cases source with
  | none => exact ensures_ok rfl
  | some source =>
      simp only [FromItem.compileClause]
      refine (ensures_self _).bind fun first opened =>
        (ensures_joins metadata statement other 1 joins).bind fun steps same => ?_
      rw [opened]
      simp only [same]
      exact ensures_self _

end Select

end StreamQuery
