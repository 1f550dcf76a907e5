import StreamQuery.Proofs.Plan.Clauses
import StreamQuery.Proofs.Results
import StreamQuery.Proofs.Window.GroupFailures
namespace StreamQuery

/-! The errors that a statement shows under the policy to skip. A stage passes over a record that
fails. A join does not: the first pair whose condition fails ends it, and the error of the pair
comes out as though a source had failed. -/

variable {allowed : QueryError → Prop}

/-- Under the policy to skip, the condition can fail with the error. -/
def Predicate.CanFail (predicate : Predicate) (error : QueryError) : Prop :=
  ∃ context row, context.settings.errorPolicy = .skip ∧ (predicate context row).CanFail error

def Predicate.FailsOnly (allowed : QueryError → Prop) (predicate : Predicate) : Prop :=
  ∀ context row, context.settings.errorPolicy = .skip → (predicate context row).FailsOnly allowed

/-! Sources and joins. -/

def Source.FailsOnly (allowed : QueryError → Prop) (source : Source) : Prop :=
  ∀ nested context, context.settings.errorPolicy = .skip →
    (source.rows nested context).Always Script.FailsAsSource (Stream.FailsOnly allowed)

structure JoinStep.FailsOnly (allowed : QueryError → Prop) (step : JoinStep) : Prop where
  source : step.source.FailsOnly allowed
  condition : ∀ predicate ∈ step.condition, predicate.FailsOnly allowed

variable {context : Context} (skips : context.settings.errorPolicy = .skip)
  (fatal : ∀ error : QueryError, error.isFatal → allowed error)

namespace Source

include fatal

theorem failsOnly_ofDeliveries {deliveries : List Delivery}
    (fails : ∀ delivery ∈ deliveries, StreamQuery.FailsOnly (·.isSource) delivery.item)
    (ends : Bool) : Stream.FailsOnly allowed (Feed.ofDeliveries ends deliveries) := by
  induction deliveries with
  | nil =>
      intro now
      simp only [Feed.ofDeliveries]
      split
      · exact .finished
      · exact .silent
  | cons delivery rest induction =>
      have both := List.forall_mem_cons.mp fails
      have item : StreamQuery.FailsOnly allowed delivery.item := fun error failed =>
        fatal error (QueryError.isFatal_of_isSource (both.1 error failed))
      intro now
      simp only [Feed.ofDeliveries]
      split
      · exact .item item (induction both.2)
      · exact .waiting fun _ => .item item (induction both.2)

theorem failsOnly_request (name : String) :
    (request name).Always Script.FailsAsSource (Stream.FailsOnly allowed) := by
  refine .opening fun answer asSource => .done ?_
  cases answer with
  | ok script => exact failsOnly_ofDeliveries fatal asSource script.ends
  | error error =>
      have whole := fatal error (QueryError.isFatal_of_isSource asSource)
      exact Feed.failsOnly_ofItems (List.forall_mem_singleton.mpr (failsOnly_error whole))

theorem failsOnly_ofTable (name label : String) : (ofTable name label).FailsOnly allowed :=
  fun _ _ _ => failsOnly_request fatal name

omit fatal in
include skips in
theorem FailsOnly.materialize {source : Source} (fails : source.FailsOnly allowed)
    (nested : Bool) : (source.materialize nested context).FailsOnly allowed :=
  (fails nested context skips).failsOnly fun _ fails now => (fails now).collect [] now

end Source

namespace NestedLoop

variable {condition : Option Predicate}
  (fails : ∀ predicate ∈ condition, predicate.FailsOnly allowed)
include skips fails

theorem failsOnly_acceptedOf (pairs : List Value) :
    (acceptedOf condition context pairs).FailsOnly allowed := by
  induction pairs with
  | nil => exact Evaluation.failsOnly_ok []
  | cons pair rest induction =>
      have accepts : (accepts condition context pair).FailsOnly allowed := by
        cases condition with
        | none => exact Evaluation.failsOnly_ok true
        | some predicate => exact fails predicate rfl context pair skips
      exact accepts.andThen fun _ => induction.map _

theorem failsOnly_joinEach (pairs padding : Value → List Value) (rows : List Value) :
    (joinEach condition context pairs padding rows).FailsOnly allowed := by
  induction rows with
  | nil => exact Evaluation.failsOnly_ok []
  | cons row rest induction =>
      exact (failsOnly_acceptedOf skips fails (pairs row)).andThen fun _ => induction.map _

theorem failsOnly_join (kind : JoinKind) (input : JoinInput) :
    (join kind input condition context).FailsOnly allowed := by
  cases kind <;> exact failsOnly_joinEach skips fails _ _ _

end NestedLoop

namespace SourcePlan

def FailsOnly (allowed : QueryError → Prop) : SourcePlan → Prop
  | .implicit => True
  | .single source => source.FailsOnly allowed
  | .joined first steps => first.FailsOnly allowed ∧ ∀ step ∈ steps, step.FailsOnly allowed

include skips

theorem failsOnly_joinSteps {steps : List JoinStep}
    (fails : ∀ step ∈ steps, step.FailsOnly allowed) (nested : Bool) (left : List Value)
    (labels : List String) : (joinSteps nested context steps left labels).FailsOnly allowed := by
  induction steps generalizing left labels with
  | nil => exact Evaluation.failsOnly_ok left
  | cons step rest induction =>
      have parts := List.forall_mem_cons.mp fails
      apply (parts.1.source.materialize skips nested).andThen
      intro right
      refine Evaluation.FailsOnly.andThen ?_ fun joined => induction parts.2 joined _
      cases step.feature with
      | nestedLoop kind => exact NestedLoop.failsOnly_join skips parts.1.condition kind _

include fatal

theorem FailsOnly.rows {plan : SourcePlan} (fails : plan.FailsOnly allowed) (nested : Bool) :
    (plan.rows nested context).Always Script.FailsAsSource (Stream.FailsOnly allowed) := by
  cases plan with
  | implicit =>
      cases nested with
      | true =>
          exact .done (Feed.failsOnly_ofItems (List.forall_mem_singleton.mpr (failsOnly_ok _)))
      | false => exact Source.failsOnly_request fatal _
  | single source => exact fails nested context skips
  | joined first steps =>
      have within : (context.withLabel none).settings.errorPolicy = .skip := skips
      have joined := (fails.1.materialize within nested).andThen fun rows =>
        failsOnly_joinSteps within fails.2 nested (qualify first.label rows) [first.label]
      exact .done fun now => Feed.each_afterTask
        (fun result later gives => Feed.failsOnly_ofResult (joined.run now result gives) later) now

end SourcePlan

/-! The stages after the sources show no errors of their own but those of the run as a whole. -/

namespace Pipeline

variable (pipeline : Pipeline) {records : Stream Value} {rows : Stream Shaped}

section
include skips fatal

theorem failsOnly_filtered (fails : records.FailsOnly allowed) :
    Stream.FailsOnly allowed (pipeline.filtered context records) := by
  simp only [filtered, skips]
  split
  · exact fails
  · exact fun now => (fails now).process_skip fatal now

theorem failsOnly_shaped (fails : records.FailsOnly allowed) :
    Stream.FailsOnly allowed (pipeline.shaped context records) := by
  simp only [shaped, skips]
  split
  · exact fun now => (fails now).process_skip fatal now
  · exact fun now => (Grouping.failsOnly_group_skip skips fatal fails now).process_skip fatal now

end

theorem failsOnly_distinctRows (fails : rows.FailsOnly allowed) :
    Stream.FailsOnly allowed (pipeline.distinctRows rows) := by
  simp only [distinctRows]
  split
  · exact fun now => (fails now).distinct [] now
  · exact fails

theorem failsOnly_sorted (fails : rows.FailsOnly allowed) :
    Stream.FailsOnly allowed (pipeline.sorted rows) := by
  simp only [sorted]
  split
  · exact fails
  · exact fun now => (fails now).sort _ now

theorem failsOnly_limited (fails : rows.FailsOnly allowed) :
    Stream.FailsOnly allowed (pipeline.limited rows) := by
  have values : Stream.FailsOnly allowed fun now => (rows now).map Shaped.row :=
    fun now => (fails now).map Shaped.row
  simp only [limited]
  split
  · exact values
  · next limit _ => exact limit.failsOnly_apply values

theorem context_settings (plan : SourcePlan) (context : Context) :
    (plan.context context).settings = context.settings := by
  cases plan <;> rfl

include skips fatal

theorem failsOnly_rows (fails : pipeline.source.FailsOnly allowed) (nested : Bool) :
    (pipeline.rows nested context).Always Script.FailsAsSource (Stream.FailsOnly allowed) := by
  have within : (pipeline.source.context context).settings.errorPolicy = .skip := by
    rw [context_settings, skips]
  refine Opening.Always.map (fails.rows skips fatal nested) fun records recordsFail => ?_
  exact pipeline.failsOnly_limited (pipeline.failsOnly_sorted (pipeline.failsOnly_distinctRows
    (pipeline.failsOnly_shaped within fatal (pipeline.failsOnly_filtered within fatal
      recordsFail))))

end Pipeline

/-! Statements. -/

mutual
/-- The predicate is the condition of a join of the statement, or of a select that it reads from. -/
inductive Select.JoinsOn : Metadata → Select → Predicate → Prop
  | condition : clause ∈ query.joins → clause.condition = some expr →
      (expr.compile metadata).predicate.get = .ok predicate →
      Select.JoinsOn metadata query predicate
  | first : query.source = some item → item.JoinsOn metadata predicate →
      Select.JoinsOn metadata query predicate
  | joined : clause ∈ query.joins → clause.source.JoinsOn metadata predicate →
      Select.JoinsOn metadata query predicate

inductive FromItem.JoinsOn : Metadata → FromItem → Predicate → Prop
  | query : Select.JoinsOn metadata.nested subquery predicate →
      FromItem.JoinsOn metadata (.query subquery label) predicate
end

def Plan.FailsOnly (allowed : QueryError → Prop) (plan : Plan) : Prop :=
  ∀ nested context, context.settings.errorPolicy = .skip →
    (plan.rows nested context).Always Script.FailsAsSource (Stream.FailsOnly allowed)

theorem ensures_joinPredicate {metadata : Metadata} {condition : Option Expr}
    (fails : ∀ expr ∈ condition, ∀ predicate,
      (expr.compile metadata).predicate.get = .ok predicate → predicate.FailsOnly allowed) :
    Ensures ((Expr.compileOption metadata condition).mapM fun part => part.predicate.get)
      fun condition => ∀ predicate ∈ condition, predicate.FailsOnly allowed := by
  cases condition with
  | none => exact ensures_ok fun _ none => nomatch none
  | some expr =>
      have compiled : Ensures (expr.compile metadata).predicate.get (Predicate.FailsOnly allowed) :=
        fails expr rfl
      exact compiled.bind fun predicate holds =>
        ensures_ok fun _ same => Option.some.inj same ▸ holds

mutual
theorem FromItem.compile_failsOnly
    (fatal : ∀ error : QueryError, error.isFatal → allowed error) (metadata : Metadata)
    (position : Nat) : (item : FromItem) →
      (∀ predicate, item.JoinsOn metadata predicate → predicate.FailsOnly allowed) →
      Ensures (item.compile metadata position) (Source.FailsOnly allowed)
  | .table _ _, _ => ensures_ok (Source.failsOnly_ofTable fatal _ _)
  | .query query _, fails =>
      (Select.compile_failsOnly fatal metadata.nested query fun predicate joins =>
        fails predicate (.query joins)).bind fun _ planFails => ensures_ok planFails

theorem JoinClause.compileAll_failsOnly
    (fatal : ∀ error : QueryError, error.isFatal → allowed error) (metadata : Metadata)
    (statement : Unit → String) (position : Nat) : (clauses : List JoinClause) →
      (∀ clause ∈ clauses, (∀ expr ∈ clause.condition, ∀ predicate,
        (expr.compile metadata).predicate.get = .ok predicate → predicate.FailsOnly allowed) ∧
        ∀ predicate, clause.source.JoinsOn metadata predicate → predicate.FailsOnly allowed) →
      Ensures (JoinClause.compileAll metadata statement position clauses) fun steps =>
        ∀ step ∈ steps, step.FailsOnly allowed
  | [], _ => ensures_ok fun _ member => nomatch member
  | ⟨kind, source, condition⟩ :: rest, fails => by
      have parts := List.forall_mem_cons.mp fails
      have sourceFails := FromItem.compile_failsOnly fatal metadata position source parts.1.2
      have others :=
        JoinClause.compileAll_failsOnly fatal metadata statement (position + 1) rest parts.2
      simp only [JoinClause.compileAll]
      split
      · exact ensures_error _
      · refine sourceFails.bind fun _ source => (ensures_joinPredicate parts.1.1).bind
          fun _ condition => others.bind ?_
        intro _ steps
        exact ensures_ok (List.forall_mem_cons.mpr ⟨⟨source, condition⟩, steps⟩)

theorem FromItem.compileClause_failsOnly
    (fatal : ∀ error : QueryError, error.isFatal → allowed error) (metadata : Metadata)
    {joins : Unit → Except QueryError (List JoinStep)}
    (joinsFail : Ensures (joins ()) fun steps => ∀ step ∈ steps, step.FailsOnly allowed) :
    (item : Option FromItem) →
      (∀ first, item = some first → ∀ predicate, first.JoinsOn metadata predicate →
        predicate.FailsOnly allowed) →
      Ensures (FromItem.compileClause metadata joins item) (SourcePlan.FailsOnly allowed)
  | none, _ => ensures_ok trivial
  | some item, fails => by
      have sourceFails := FromItem.compile_failsOnly fatal metadata 0 item (fails item rfl)
      simp only [FromItem.compileClause]
      refine sourceFails.bind fun _ first => joinsFail.bind ?_
      intro steps fails
      split
      · exact ensures_ok first
      · exact ensures_ok ⟨first, fails⟩

theorem Select.compile_failsOnly
    (fatal : ∀ error : QueryError, error.isFatal → allowed error) (metadata : Metadata) :
    (query : Select) →
      (∀ predicate, query.JoinsOn metadata predicate → predicate.FailsOnly allowed) →
      Ensures (Select.compile metadata query) (Plan.FailsOnly allowed)
  | ⟨distinct, items, source, joins, filter, groupBy, having, orderBy, limit⟩, fails => by
      have steps (statement : Unit → String) :=
        JoinClause.compileAll_failsOnly fatal metadata statement 1 joins fun clause member =>
          ⟨fun expr some predicate compiles => fails predicate (.condition member some compiles),
            fun predicate joined => fails predicate (.joined member joined)⟩
      have first (item : FromItem) (same : source = some item) (predicate : Predicate)
          (joins : item.JoinsOn metadata predicate) : predicate.FailsOnly allowed :=
        fails predicate (.first same joins)
      rw [Select.compile_eq]
      refine (FromItem.compileClause_failsOnly fatal metadata (steps _) source first).bind
        fun source sourceFails => ?_
      refine (ensures_true _).bind fun filter _ => ?_
      refine (ensures_true _).bind fun rest _ => ?_
      refine ensures_ok fun nested context skips => ?_
      exact Pipeline.failsOnly_rows skips fatal _ sourceFails nested
end

/-- Under the policy to skip, over sources that fail as sources only, a statement shows no error
but those of the run as a whole and those in which the condition of a join has failed. -/
theorem rows_under_skip_errors (metadata : Metadata) (query : Select) {plan : Plan}
    (compiles : Select.compile metadata query = .ok plan) (nested : Bool) {context : Context}
    (skips : context.settings.errorPolicy = .skip) (wanted : Option Nat) {world : World}
    (sources : world.sources.FailAsSources) :
    ∀ instant error,
      (instant, .error error) ∈ (Stream.run wanted (plan.rows nested context) world).items →
        error.isFatal ∨ ∃ predicate, query.JoinsOn metadata predicate ∧ predicate.CanFail error := by
  intro instant error shown
  have fails : Plan.FailsOnly (fun error => error.isFatal ∨
      ∃ predicate, query.JoinsOn metadata predicate ∧ predicate.CanFail error) plan := by
    refine Select.compile_failsOnly (fun _ => .inl) metadata query ?_ plan compiles
    intro predicate joins context row skips
    exact fun error canFail => .inr ⟨predicate, joins, context, row, skips, canFail⟩
  exact Stream.failsOnly_run (fails nested context skips) wanted world sources _ shown error rfl

/-- `SELECT * FROM a INNER JOIN b ON cast(a as int) = b`. -/
def Select.joinedOnCast : Select :=
  let condition : Expr :=
    .binary (.named "=") (.cast (.column ⟨none, "a"⟩) "int") (.column ⟨none, "b"⟩)
  ⟨false, [.wildcard], some (.table "a" none), [⟨.inner, .table "b" none, some condition⟩], none, [],
    none, [], none⟩

/-- The condition is such a one: it fails over a text that is no number. -/
theorem rows_under_skip_errors_joinedOnCast :
    let metadata := Metadata.ofSettings { Settings.default with errorPolicy := .skip }
    ∃ predicate, Select.joinedOnCast.JoinsOn metadata predicate ∧
      predicate.CanFail (.cast "x" "int") := by
  intro metadata
  let context : Context := ⟨.null, none, [], metadata.settings, .still 0⟩
  let world := World.start (.named [] [("a", [.string "x", .string "1"]), ("b", [.int64 1])])
  have skips : context.settings.errorPolicy = .skip := rfl
  have sources : world.sources.FailAsSources := fun _ member => nomatch member
  have fails := rows_under_skip_errors metadata .joinedOnCast rfl false skips none sources
    0 (.cast "x" "int") List.mem_cons_self
  exact fails.resolve_left (by decide)

/-- One pair that cannot be compared ends the run, and the pair after it, which is one to accept,
does not show. -/
theorem skip_joinedOnCast_fails :
    let settings : Settings := { Settings.default with errorPolicy := .skip }
    let context : Context := ⟨.null, none, [], settings, .still 0⟩
    let world := World.start (.named [] [("a", [.string "x", .string "1"]), ("b", [.int64 1])])
    ∃ plan, Select.compile (Metadata.ofSettings settings) .joinedOnCast = .ok plan ∧
      (Stream.run none (plan.rows false context) world).items = [(0, .error (.cast "x" "int"))] ∧
      (QueryError.cast "x" "int").isFatal = false :=
  ⟨_, rfl, rfl, rfl⟩

end StreamQuery
