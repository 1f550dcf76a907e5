import StreamQuery.Proofs.Plan.Endings
import StreamQuery.Proofs.Plan.Readings
import StreamQuery.Proofs.Stream.Composition
namespace StreamQuery

/-! A statement that selects everything from another one. It opens what the inner statement opens,
and its own stages leave every item in its place. -/

def Select.allFrom (source : FromItem) (filter : Option Expr) : Select :=
  ⟨false, [.wildcard], some source, [], filter, [], none, [], none⟩

/-- Either both compile, to plans that go together, or neither does, for errors that do. -/
def CompileAlike (errors : QueryError → QueryError → Prop) (plans : Plan → Plan → Prop) :
    Except QueryError Plan → Except QueryError Plan → Prop
  | .ok plan, .ok other => plans plan other
  | .error error, .error other => errors error other
  | _, _ => False

def SamePlans (errors : QueryError → QueryError → Prop) :
    Except QueryError Plan → Except QueryError Plan → Prop :=
  CompileAlike errors fun plan other => other.settings = plan.settings ∧ other.rows = plan.rows

namespace Pipeline

def ofRows (source : SourcePlan) (filter : Option Predicate) (projection : Projection)
    (distinct : Bool) (limit : Option Limit) : Pipeline where
  source := source
  filter := filter
  grouping := none
  projection := projection
  having := none
  orderKeys := []
  descending := []
  distinct := distinct
  limit := limit

def passing (source : SourcePlan) (filter : Option Predicate) : Pipeline :=
  ofRows source filter ⟨true, [.wildcard]⟩ false none

variable {source : SourcePlan} {filter : Option Predicate} {context : Context}
  {records : Stream Value}

theorem stages_passing (last : ((passing source filter).filtered context records).FailsLast) :
    (passing source filter).stages context records =
      (passing source filter).filtered context records := by
  funext now
  have shaped : (passing source filter).shaped context
      ((passing source filter).filtered context records) now =
        ((passing source filter).filtered context records now).map fun row => ⟨row, []⟩ :=
    (last now).process_renaming context.settings.errorPolicy (fun row => (⟨row, []⟩ : Shaped)) now
  change Feed.map Shaped.row ((passing source filter).shaped context _ now) = _
  rw [shaped, Feed.map_map, Feed.map_id]

end Pipeline

theorem Opening.Always.map_congr {holds : α → Prop} {opening : Opening α}
    {transform other : α → β} (always : opening.Always (fun _ => True) holds)
    (same : ∀ value, holds value → transform value = other value) :
    opening.map transform = opening.map other := by
  induction always with
  | done valid => exact congrArg Opening.done (same _ valid)
  | opening _ induction =>
      exact congrArg (Opening.opening _) (funext fun answer => induction answer trivial)

theorem Metadata.nested_of_unscoped {metadata : Metadata}
    (unscoped : metadata.statementFeatures = .empty) : metadata.nested = metadata := by
  simp only [Metadata.nested, ← unscoped]

namespace Select

theorem condition_some (metadata : Metadata) (filter : Expr) :
    ((Expr.compileOption metadata (some filter)).mapM fun part => part.predicate.get) =
      (filter.compile metadata).predicate.get.map some := by
  change ((filter.compile metadata).predicate.get >>= fun condition => pure (some condition)) = _
  cases (filter.compile metadata).predicate.get <;> rfl

theorem compile_allFrom (metadata : Metadata) (source : FromItem) (filter : Option Expr) :
    compile metadata (allFrom source filter) = (do
      let first ← source.compile metadata 0
      let condition ← (Expr.compileOption metadata filter).mapM fun part => part.predicate.get
      .ok ⟨(allFrom source filter).text, false, metadata.settings,
        (Pipeline.passing (.single first) condition).rows⟩) := by
  rw [compile_eq]
  cases compiles : source.compile metadata 0 with
  | error error =>
      simp only [allFrom, FromItem.compileClause, compiles]
      rfl
  | ok first =>
      simp only [allFrom, FromItem.compileClause, compiles]
      rfl

theorem ensures_settings (metadata : Metadata) (query : Select) :
    Ensures (compile metadata query) fun plan => plan.settings = metadata.settings := by
  rw [compile_eq]
  exact (ensures_true _).bind fun _ _ => (ensures_true _).bind fun _ _ =>
    (ensures_true _).bind fun _ _ => ensures_ok rfl

/-- A statement that selects everything shows what the statement inside comes to where it stands. -/
theorem compile_allFrom_query (metadata : Metadata) (query : Select) (label : Option String) :
    SamePlans Eq (compile metadata.nested query)
      (compile metadata (allFrom (.query query label) none)) := by
  rw [compile_allFrom]
  simp only [FromItem.compile]
  cases compiles : compile metadata.nested query with
  | error error => rfl
  | ok plan =>
      obtain ⟨pipeline, same⟩ := ensures_pipeline metadata.nested query plan compiles
      refine ⟨(ensures_settings metadata.nested query plan compiles).symm, ?_⟩
      funext nested context
      have last := same ▸ pipeline.failsLast_rows nested context
      have through := last.map_congr fun records failsLast =>
        @Pipeline.stages_passing (.single (.ofPlan plan (label.getD "_0"))) none
          (context.withLabel (some (label.getD "_0"))) records failsLast
      exact through.trans (Opening.map_id _)

/-- Where a statement sees the same features as a select inside, it can be wrapped without a trace:
its settings and its rows stay what they are, at the top and around a record. -/
theorem select_from_query_transparent (metadata : Metadata) (query : Select)
    (unscoped : metadata.statementFeatures = .empty) :
    SamePlans Eq (compile metadata query)
      (compile metadata (allFrom (.query query none) none)) := by
  have same := compile_allFrom_query metadata query none
  rwa [Metadata.nested_of_unscoped unscoped] at same

/-- `SELECT * LIMIT 1` around nothing and around a record. -/
theorem select_from_query_transparent_implicit :
    let metadata := Metadata.ofSettings Settings.default
    let query : Select := ⟨false, [.wildcard], none, [], none, [], none, [], some ⟨0, some 1⟩⟩
    let context : Context := ⟨.int64 3, none, [], metadata.settings, .still 0⟩
    let world := World.start (.single (.ofValues [.int64 1, .int64 2]) false)
    metadata.statementFeatures = .empty ∧
      SamePlans Eq (compile metadata query) (compile metadata (allFrom (.query query none) none)) ∧
      ∃ outer, compile metadata (allFrom (.query query none) none) = .ok outer ∧
        (Stream.run none (outer.rows false context) world).items = [(0, .ok (.int64 1))] ∧
        (Stream.run none (outer.rows true context) world).items = [(0, .ok (.int64 3))] := by
  intro metadata query context world
  have transparent := select_from_query_transparent metadata query rfl
  exact ⟨rfl, transparent, _, rfl, by cbv, by cbv⟩

def withSource (query : Select) (source : FromItem) (filter : Expr) : Select :=
  { query with source := some source, joins := [], filter := some filter }

theorem compile_withSource (metadata : Metadata) (query : Select) (source : FromItem) (filter : Expr) :
    compile metadata (query.withSource source filter) = (do
      let first ← source.compile metadata 0
      let condition ← (filter.compile metadata).predicate.get
      let rest ← query.clauses metadata
      .ok ⟨(query.withSource source filter).text, rest.grouping.isSome, metadata.settings,
        { rest with source := .single first, filter := some condition }.rows⟩) := by
  rw [compile_eq]
  cases compiles : source.compile metadata 0 with
  | error error =>
      simp only [withSource, FromItem.compileClause, compiles]
      rfl
  | ok first =>
      simp only [withSource, FromItem.compileClause, compiles, condition_some]
      cases (filter.compile metadata).predicate.get <;> rfl

end Select

/-! Filters in a row. -/

namespace Predicate

def keep (predicate : Predicate) (context : Context) (row : Value) : Evaluation (Option Value) :=
  (predicate context row).map fun kept => if kept then some row else none

theorem inTurn_keep {first second : Predicate} (ignores : first.IgnoresRow)
    (secondIgnores : second.IgnoresRow) (context : Context) :
    Feed.inTurn (first.keep context) (second.keep context) = (first.and second).keep context := by
  funext row
  simp only [Feed.inTurn, keep, Predicate.and, Evaluation.map_andThen, Evaluation.andThen_map]
  rw [ignores context row row]
  congr 1
  funext kept
  cases kept with
  | false => rfl
  | true => exact congrArg (Evaluation.map _) (secondIgnores context row row).symm

end Predicate

namespace Pipeline

variable {rest : Pipeline} {first second : Predicate}

theorem stages_filter_and {source other : SourcePlan} (ignores : first.IgnoresRow)
    (secondIgnores : second.IgnoresRow) (context : Context) (records : Stream Value) :
    { rest with source := source, filter := some (first.and second) }.stages context records =
      { rest with source := other, filter := some second }.stages context
        (records.process context.settings.errorPolicy (first.keep context)) := by
  have filtered : records.process context.settings.errorPolicy ((first.and second).keep context) =
      (records.process context.settings.errorPolicy (first.keep context)).process
        context.settings.errorPolicy (second.keep context) := by
    funext now
    simp only [Stream.process]
    rw [Feed.process_process, Predicate.inTurn_keep ignores secondIgnores]
  exact congrArg ({ rest with source := other, filter := none }.stages context) filtered

theorem rows_filter_and {opened : Source} {plan : Plan} (ignores : first.IgnoresRow)
    (secondIgnores : second.IgnoresRow)
    (inner : plan.rows = (passing (.single opened) (some first)).rows) :
    { rest with
      source := .single (.ofPlan plan opened.label), filter := some second }.rows =
      { rest with source := .single opened, filter := some (first.and second) }.rows := by
  funext nested context
  have passed (records : Stream Value) := @stages_passing (.single opened) (some first)
    (context.withLabel (some opened.label)) records fun now => Feed.failsLast_process _ _ _ now
  change (plan.rows nested context).map _ = (opened.rows nested context).map _
  rw [inner]
  change ((opened.rows nested context).map _).map _ = _
  rw [Opening.map_map]
  congr 1
  funext records
  exact (congrArg _ (passed records)).trans
    (stages_filter_and ignores secondIgnores (context.withLabel (some opened.label)) records).symm

end Pipeline

namespace Select

theorem ensures_label (metadata : Metadata) (source : FromItem) :
    Ensures (source.compile metadata 0) fun first => first.label = source.labelAt 0 := by
  cases source with
  | table name label => exact ensures_ok rfl
  | query query label => exact (ensures_true _).bind fun _ _ => ensures_ok rfl

end Select

end StreamQuery
