import StreamQuery.Proofs.Plan.Correspondence
namespace StreamQuery

/-! A pipeline of parts that respect a correspondence puts out rows that correspond. -/

variable {relation : Correspondence} {context other : Context}

/-! Sources and joins. -/

def Plan.Respects (relation : Correspondence) (plan : Plan) : Prop :=
  ∀ (nested : Bool) ⦃context other : Context⦄, relation.contexts context other →
    relation.openings (plan.rows nested context) (plan.rows nested other)

theorem Plan.Respects.firstValue {plan : Plan} (respects : plan.Respects relation)
    (query : Select) (grouped : Bool) :
    (plan.firstValue query).Respects (relation.likeness grouped) := fun _ _ alike =>
  relation.firstValue query (respects true (relation.contexts_of_grouped grouped alike))

def Source.Respects (relation : Correspondence) (source : Source) : Prop :=
  ∀ (nested : Bool) ⦃context other : Context⦄, relation.contexts context other →
    relation.openings (source.rows nested context) (source.rows nested other)

structure JoinStep.Respects (relation : Correspondence) (step : JoinStep) : Prop where
  source : step.source.Respects relation
  condition : ∀ predicate ∈ step.condition, predicate.Respects relation

namespace Source

theorem ofTable_respects (name label : String) : (ofTable name label).Respects relation :=
  fun _ _ _ _ => relation.request name

theorem ofPlan_respects {plan : Plan} (respects : plan.Respects relation) (label : String) :
    (ofPlan plan label).Respects relation :=
  respects

theorem Respects.materialize {source : Source} (respects : source.Respects relation)
    (nested : Bool) (alike : relation.contexts context other) :
    relation.evaluations (source.materialize nested context) (source.materialize nested other) :=
  relation.collect (respects nested alike)

end Source

namespace NestedLoop

variable {condition : Option Predicate}

theorem acceptedOf_respects (respects : ∀ predicate ∈ condition, predicate.Respects relation)
    (alike : relation.contexts context other) (pairs : List Value) :
    relation.evaluations (acceptedOf condition context pairs)
      (acceptedOf condition other pairs) := by
  induction pairs with
  | nil => exact relation.ok []
  | cons pair rest induction =>
      have accepts : relation.evaluations (accepts condition context pair)
          (accepts condition other pair) := by
        cases condition with
        | none => exact relation.ok true
        | some predicate => exact respects predicate rfl (alike.withRow pair)
      exact relation.andThen accepts fun _ => relation.map induction _

theorem joinEach_respects (respects : ∀ predicate ∈ condition, predicate.Respects relation)
    (alike : relation.contexts context other) (pairs padding : Value → List Value)
    (rows : List Value) :
    relation.evaluations (joinEach condition context pairs padding rows)
      (joinEach condition other pairs padding rows) := by
  induction rows with
  | nil => exact relation.ok []
  | cons row rest induction =>
      have accepted := acceptedOf_respects respects alike (pairs row)
      exact relation.andThen accepted fun _ => relation.map induction _

theorem join_respects (respects : ∀ predicate ∈ condition, predicate.Respects relation)
    (kind : JoinKind) (input : JoinInput) (alike : relation.contexts context other) :
    relation.evaluations (join kind input condition context) (join kind input condition other) := by
  cases kind <;> exact joinEach_respects respects alike _ _ _

end NestedLoop

namespace SourcePlan

def Respects (relation : Correspondence) : SourcePlan → Prop
  | .implicit => True
  | .single source => source.Respects relation
  | .joined first steps => first.Respects relation ∧ ∀ step ∈ steps, step.Respects relation

theorem joinSteps_respects {steps : List JoinStep}
    (respects : ∀ step ∈ steps, step.Respects relation) (nested : Bool)
    (alike : relation.contexts context other) (left : List Value) (labels : List String) :
    relation.evaluations (joinSteps nested context steps left labels)
      (joinSteps nested other steps left labels) := by
  induction steps generalizing left labels with
  | nil => exact relation.ok left
  | cons step rest induction =>
      have parts := List.forall_mem_cons.mp respects
      apply relation.andThen (parts.1.source.materialize nested alike)
      intro right
      refine relation.andThen ?_ fun joined => induction parts.2 joined _
      cases step.feature with
      | nestedLoop kind => exact NestedLoop.join_respects parts.1.condition kind _ alike

theorem joinAll_respects {first : Source} {steps : List JoinStep}
    (firstRespects : first.Respects relation) (respects : ∀ step ∈ steps, step.Respects relation)
    (nested : Bool) (alike : relation.contexts context other) :
    relation.evaluations (joinAll nested context first steps) (joinAll nested other first steps) :=
  relation.andThen (firstRespects.materialize nested alike) fun _ =>
    joinSteps_respects respects nested alike _ _

theorem contexts_context (plan : SourcePlan) (alike : relation.contexts context other) :
    relation.contexts (plan.context context) (plan.context other) := by
  cases plan with
  | implicit => exact alike
  | single source => exact alike.withLabel _
  | joined first steps => exact alike.withLabel _

theorem Respects.rows {plan : SourcePlan} (respects : plan.Respects relation) (nested : Bool)
    (alike : relation.contexts context other) :
    relation.openings (plan.rows nested context) (plan.rows nested other) := by
  cases plan with
  | implicit =>
      cases nested with
      | true =>
          simp only [SourcePlan.rows, if_true, alike.row]
          exact relation.opened (relation.single other.row)
      | false =>
          rcases alike.settings with ⟨base, first, second⟩
          have same := relation.defaultSource base
          simp only [SourcePlan.rows, Bool.false_eq_true, if_false, first, second, same]
          exact relation.request _
  | single source => exact respects nested alike
  | joined first steps =>
      have joined := joinAll_respects respects.1 respects.2 nested (alike.withLabel none)
      exact relation.opened (relation.joined joined)

end SourcePlan

/-! Groups. -/

def AggregateSpec.Respects (relation : Correspondence) (spec : AggregateSpec) : Prop :=
  ∀ mapper ∈ spec.argument, mapper.Respects relation

def Window.Respects (relation : Correspondence) : Window → Prop
  | .predicate condition => condition.Respects relation
  | .time _ _ | .count _ _ => True

structure Grouping.Respects (relation : Correspondence) (grouping : Grouping) : Prop where
  keys : ∀ key ∈ grouping.keys, key.Respects relation
  window : ∀ window ∈ grouping.window, window.Respects relation
  aggregates : ∀ spec ∈ grouping.aggregates, spec.Respects relation

namespace Grouping

theorem evaluateInTurn_respects {mappers : List Mapper}
    (respects : ∀ mapper ∈ mappers, mapper.Respects relation)
    (alike : relation.contexts context other) :
    relation.evaluations (evaluateInTurn context mappers) (evaluateInTurn other mappers) := by
  induction mappers with
  | nil => exact relation.ok []
  | cons mapper rest induction =>
      have parts := List.forall_mem_cons.mp respects
      exact relation.andThen (parts.1 alike) fun _ =>
        relation.map (induction parts.2) _

variable {grouping : Grouping}

theorem Respects.operands (respects : grouping.Respects relation) :
    ∀ mapper ∈ grouping.aggregates.map AggregateSpec.operand, mapper.Respects relation := by
  intro mapper member
  rcases List.mem_map.mp member with ⟨⟨argument, aggregation⟩, among, rfl⟩
  cases argument with
  | none => exact Mapper.constant_respects .null
  | some mapper => exact respects.aggregates _ among mapper rfl

theorem Respects.trigger (respects : grouping.Respects relation)
    (alike : relation.contexts context other) :
    relation.evaluations (grouping.trigger context) (grouping.trigger other) := by
  simp only [Grouping.trigger, alike.row]
  split
  · next predicate windowed => exact respects.window _ windowed (alike.withRow other.row)
  · exact relation.ok false

theorem Respects.contribution (respects : grouping.Respects relation)
    (alike : relation.contexts context other) :
    relation.evaluations (grouping.contribution context) (grouping.contribution other) :=
  relation.andThen (Mapper.all_respects respects.keys alike) fun _ =>
    relation.andThen (evaluateInTurn_respects respects.operands alike) fun _ =>
      relation.map (respects.trigger alike) _

end Grouping

/-! Output rows. -/

def Column.Respects (relation : Likeness) : Column → Prop
  | .wildcard => True
  | .named _ mapper => mapper.Respects relation

theorem Projection.apply_respects {relation : Likeness} {projection : Projection}
    (respects : ∀ column ∈ projection.columns, column.Respects relation) {context other : Context}
    (alike : relation.contexts context other) (row : context.row = other.row) :
    relation.evaluations (projection.apply context) (projection.apply other) := by
  simp only [Projection.apply, row]
  split
  · exact relation.ok other.row
  · refine relation.map (relation.all ?_) _
    intro column member
    have columnRespects := respects column member
    cases column with
    | wildcard =>
        simp only [Column.fields, row]
        exact relation.ok _
    | named name mapper => exact relation.map (columnRespects alike) _

/-- What the output rows of groups are made of is asked about groups. -/
structure Pipeline.Respects (relation : Correspondence) (pipeline : Pipeline) : Prop where
  source : pipeline.source.Respects relation
  filter : ∀ predicate ∈ pipeline.filter, predicate.Respects relation
  grouping : ∀ grouping ∈ pipeline.grouping, grouping.Respects relation
  columns : ∀ column ∈ pipeline.projection.columns,
    column.Respects (relation.likeness pipeline.grouping.isSome)
  having : ∀ predicate ∈ pipeline.having,
    predicate.Respects (relation.likeness pipeline.grouping.isSome)
  orderKeys : ∀ key ∈ pipeline.orderKeys,
    key.Respects (relation.likeness pipeline.grouping.isSome)

namespace Pipeline

variable {pipeline : Pipeline} {records others : Stream Value} {output otherOutput : Stream Shaped}

theorem contexts_view (pipeline : Pipeline) {grouped : Bool}
    (alike : (relation.likeness grouped).contexts context other) (projected : Value) :
    (relation.likeness grouped).contexts (pipeline.view context projected)
      (pipeline.view other projected) := by
  simp only [view, alike.row]
  split
  · exact alike.withRow _
  · exact alike

theorem Respects.shape (respects : pipeline.Respects relation)
    (alike : (relation.likeness pipeline.grouping.isSome).contexts context other) :
    relation.evaluations (pipeline.shape context) (pipeline.shape other) := by
  apply relation.andThen (Projection.apply_respects respects.columns alike alike.row)
  intro row
  have viewed := contexts_view pipeline alike row
  apply relation.andThen
  · simp only [holds]
    split
    · exact relation.ok true
    · next predicate found =>
        rw [viewed.row]
        exact respects.having predicate found (viewed.withRow _)
  · intro kept
    split
    · exact relation.map (Mapper.all_respects respects.orderKeys viewed) _
    · exact relation.ok none

theorem process_respects (alike : relation.contexts context other) {stream following : Stream α}
    {step otherStep : α → Evaluation (Option β)} (related : relation.streams stream following)
    (steps : ∀ value, relation.evaluations (step value) (otherStep value)) :
    relation.streams (stream.process context.settings.errorPolicy step)
      (following.process other.settings.errorPolicy otherStep) := by
  rcases alike.settings with ⟨base, first, second⟩
  rw [first, second]
  exact relation.process base related steps

theorem Respects.filtered (respects : pipeline.Respects relation)
    (alike : relation.contexts context other) (related : relation.streams records others) :
    relation.streams (pipeline.filtered context records) (pipeline.filtered other others) := by
  simp only [Pipeline.filtered]
  split
  · exact related
  · next predicate found =>
      exact process_respects alike related fun row =>
        relation.map (respects.filter predicate found (alike.withRow row)) _

theorem Respects.shaped (respects : pipeline.Respects relation)
    (alike : relation.contexts context other) (related : relation.streams records others) :
    relation.streams (pipeline.shaped context records) (pipeline.shaped other others) := by
  simp only [Pipeline.shaped]
  split
  · next single =>
      exact process_respects alike related fun row => respects.shape (by
        rw [single]
        exact alike.withRow row)
  · next grouping found =>
      have contributions (row : Value) :=
        (respects.grouping grouping found).contribution (alike.withRow row)
      have groups := relation.group (alike.mono .inr) contributions related
      refine process_respects alike groups fun group => ?_
      exact respects.shape ((alike.withGroup group.sample group.aggregates).mono fun _ => trivial)

theorem distinctRows_respects (related : relation.streams output otherOutput) :
    relation.streams (pipeline.distinctRows output) (pipeline.distinctRows otherOutput) := by
  simp only [distinctRows]
  split
  · exact relation.distinct related
  · exact related

theorem sorted_respects (related : relation.streams output otherOutput) :
    relation.streams (pipeline.sorted output) (pipeline.sorted otherOutput) := by
  simp only [sorted]
  split
  · exact related
  · exact relation.sort pipeline.descending related

theorem limited_respects (related : relation.streams output otherOutput) :
    relation.streams (pipeline.limited output) (pipeline.limited otherOutput) := by
  simp only [limited]
  split
  · exact relation.row related
  · exact relation.limit _ (relation.row related)

theorem Respects.stages (respects : pipeline.Respects relation)
    (alike : relation.contexts context other) (related : relation.streams records others) :
    relation.streams (pipeline.stages context records) (pipeline.stages other others) :=
  limited_respects <| sorted_respects <| distinctRows_respects <|
    respects.shaped alike (respects.filtered alike related)

theorem Respects.rows (respects : pipeline.Respects relation) (nested : Bool)
    (alike : relation.contexts context other) :
    relation.openings (pipeline.rows nested context) (pipeline.rows nested other) :=
  relation.mapOpened (respects.source.rows nested alike) fun _ _ related =>
    respects.stages (pipeline.source.contexts_context alike) related

end Pipeline

end StreamQuery
