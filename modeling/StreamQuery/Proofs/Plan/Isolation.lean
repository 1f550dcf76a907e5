import StreamQuery.Proofs.Plan.AggregateSlots
import StreamQuery.Proofs.Plan.Readings
import StreamQuery.Proofs.Plan.Statements
import StreamQuery.Proofs.Stream.Worlds
namespace StreamQuery

/-! A statement inside of others is isolated from them. It finds the features of the whole query and
none of those of a statement around it, and where a statement around it has finished the aggregates
of a group, it does not see these. -/

namespace Metadata

/-- Metadata that parts are compiled with inside of what is compiled with the outer metadata. Here and
there a statement adds features of its own, and each statement inside drops those around it. -/
inductive Encloses (outer : Metadata) : Metadata → Prop
  | here : Encloses outer outer
  | added {inner : Metadata} (id : FeatureId) (feature : Feature) :
      Encloses outer inner → Encloses outer (inner.withStatementFeature id feature)
  | nested {inner : Metadata} : Encloses outer inner → Encloses outer inner.nested

variable {outer inner : Metadata}

theorem Encloses.nested_eq (encloses : outer.Encloses inner) : inner.nested = outer.nested := by
  induction encloses with
  | here => rfl
  | added _ _ _ induction => exact induction
  | nested _ induction => exact induction

theorem Encloses.install (encloses : outer.Encloses inner) (set : AggregateSet) :
    outer.Encloses (set.install inner) := by
  rw [AggregateSet.install]
  generalize Feature.valueMap (.slots set.calls) = slots
  induction set.calls generalizing inner with
  | nil => exact encloses
  | cons call calls induction => exact induction (.added _ _ encloses)

theorem find?_nested (metadata : Metadata) (id : FeatureId) :
    metadata.nested.find? id =
      (metadata.queryFeatures.find? id).or (Registry.defaults.find? id) := rfl

theorem find?_nested_withFeature (metadata : Metadata) (id : FeatureId) (feature : Feature) :
    (metadata.withFeature id feature).nested.find? id = some feature := by
  simp only [find?_nested, withFeature, Registry.find?_insert, if_true, Option.some_or]

def ReadsNoResults (metadata : Metadata) : Prop :=
  ∀ id feature, metadata.queryFeatures.find? id = some feature → feature.readsResults = false

theorem readsNoResults_ofSettings (settings : Settings) (zones : Zones) :
    (ofSettings settings zones).ReadsNoResults :=
  nofun

theorem ReadsNoResults.respects (reads : outer.ReadsNoResults) (relation : Likeness) :
    outer.nested.Respects relation := by
  intro name calls found
  simp only [valueFeature?, find?_nested] at found
  split at found
  · next feature known =>
    cases found
    rcases Option.or_eq_some_iff.mp known with query | ⟨_, default⟩
    · cases reads _ _ query
    · cases Registry.readsResults_of_defaults default
  · cases found

end Metadata

/-! What a statement inside of another is compiled to. -/

variable {one other : Metadata}

theorem FromItem.compile_query_congr (same : other.nested = one.nested) (position : Nat)
    (query : Select) (label : Option String) :
    (FromItem.query query label).compile other position =
      (FromItem.query query label).compile one position := by
  simp only [FromItem.compile, same]

/-- Of its metadata a feature reads the settings and the zones alone, apart from casts. -/
theorem ValueFeature.compile_subselect_congr (settings : other.settings = one.settings)
    (zones : other.zones = one.zones)
    (feature : ValueFeature) (expr : Expr) (query : Select)
    (plan : Thunk (Except QueryError Plan)) :
    feature.compile other expr (.subselect query plan) =
      feature.compile one expr (.subselect query plan) := by
  cases feature <;>
    simp only [compile, compileCast, compileNow, compileFormatDate, settings, zones]

theorem Expr.compile_subselect_congr (same : other.nested = one.nested)
    (feature : other.valueFeature? "select" = one.valueFeature? "select") (query : Select) :
    (Expr.subselect query).compile other = (Expr.subselect query).compile one := by
  have settings : other.settings = one.settings := congrArg (·.settings) same
  have zones : other.zones = one.zones := congrArg (·.zones) same
  have value (plan : Thunk (Except QueryError Plan)) :
      (Node.subselect query plan).value other (.subselect query) =
        (Node.subselect query plan).value one (.subselect query) := by
    simp only [Node.value, Node.requiredValue, Node.byFunction?, feature,
      ValueFeature.compile_subselect_congr settings zones]
  simp only [Expr.compile, Expr.node, same, Node.compile, Node.predicate, Node.condition?, value]

/-! What it comes to. -/

section Groups

variable {grouping : Grouping} {context other : Context}

theorem Feed.turns_congr (settings : context.settings = other.settings)
    (contributions : ∀ row, grouping.contribution (context.withRow row) =
      grouping.contribution (other.withRow row)) (started : Nat) (feed : Feed Value)
    (state : GroupState) :
    Feed.turns grouping context started feed state =
      Feed.turns grouping other started feed state := by
  have settle : grouping.settle context = grouping.settle other := by
    funext started arrived row onward state result
    cases result <;> simp only [Grouping.settle, Grouping.refuse, settings]
  induction feed generalizing state with
  | finished => rfl
  | item entry rest induction =>
    cases entry with
    | error error => rfl
    | ok row => simp only [Feed.turns, contributions, settle, induction]
  | waiting deadline resume induction => simp only [Feed.turns, induction]
  | opening name next induction => simp only [Feed.turns, induction]
  | silent => rfl

theorem Stream.group_congr (settings : context.settings = other.settings)
    (contributions : ∀ row, grouping.contribution (context.withRow row) =
      grouping.contribution (other.withRow row)) (records : Stream Value) :
    Stream.group grouping context records = Stream.group grouping other records := by
  funext now
  simp only [Stream.group, Stream.turns, Feed.turns_congr settings contributions]

end Groups

namespace Correspondence

/-- The same, whatever has been finished outside of groups. -/
def ofResults : Correspondence where
  left := id
  right := id
  clocks := Eq
  sharing := False
  evaluations evaluation other := other = evaluation
  streams := Eq
  openings := Eq
  reading same _ := by rw [same]
  ok value := (id_eq (Evaluation.ok value) :)
  thenCheck same _ := by rw [same]
  andThen same steps := by rw [same, funext steps]
  both first second := by rw [first, second]
  defer same := by rw [same]
  firstValue _ same := by rw [same]
  collect same := by rw [same]
  request _ := rfl
  defaultSource settings := (congrArg Settings.defaultSource (id_eq settings) :)
  opened same := by rw [same]
  mapOpened same maps := by rw [same, funext fun stream => maps stream stream rfl]
  single _ := rfl
  joined same := by rw [same]
  process _ same steps := by rw [same, funext steps, id_eq]
  group alike contributions same := by
    rcases alike.settings with ⟨base, first, second⟩
    rw [same, Stream.group_congr (first.trans second.symm) fun row => (contributions row).symm]
  distinct same := by rw [same]
  sort _ same := by rw [same]
  row same := by rw [same]
  limit _ same := by rw [same]

end Correspondence

theorem ValueFeature.compile_subselect_respects {relation : Likeness} {query : Select}
    {plan : Thunk (Except QueryError Plan)} (metadata : Metadata) (feature : ValueFeature)
    (expr : Expr) (respects : (Node.subselect query plan).Respects relation) :
    Ensures (feature.compile metadata expr (.subselect query plan)) (Mapper.Respects relation) := by
  by_cases slots : ∃ calls, feature = .slots calls
  · rcases slots with ⟨calls, rfl⟩
    exact Node.ensures_unsupported
  · exact compile_respects_of_noSlot respects feature fun calls same => slots ⟨calls, same⟩

section Results

variable {metadata : Metadata} {relation : Correspondence}

theorem Expr.subselect_respects (inside : metadata.nested.Suits relation false) (query : Select) :
    Ensures ((Expr.subselect query).compile metadata).value.get (Mapper.Respects relation) := by
  have node : (Node.subselect query (Thunk.mk fun _ =>
      Select.compile metadata.nested query)).Respects relation :=
    (Select.compile_respects inside query).imp fun _ plan => plan.firstValue query false
  change Ensures (Node.requiredValue metadata "select" _ _) _
  simp only [Node.requiredValue, Node.byFunction?]
  cases metadata.valueFeature? "select" with
  | none => exact ensures_error _
  | some feature => exact feature.compile_subselect_respects metadata _ node

theorem FromItem.query_respects (inside : metadata.nested.Suits relation false) (position : Nat)
    (query : Select) (label : Option String) :
    Ensures ((FromItem.query query label).compile metadata position) (Source.Respects relation) :=
  (Select.compile_respects inside query).bind fun _ plan =>
    ensures_ok (Source.ofPlan_respects plan _)

end Results

theorem Context.alike_withAggregates (context : Context) (results : List Value) :
    Correspondence.ofResults.contexts { context with aggregates := results } context :=
  ⟨rfl, rfl, rfl, ⟨context.settings, rfl, rfl⟩, fun shares => (shares.elim nofun id).elim⟩

namespace Select

open Metadata (Encloses)

/-- A statement inside of others, wherever the features of these put it, compiles to what the
features of the whole query make of it. -/
theorem isolated {outer one other : Metadata} (first : outer.Encloses one)
    (second : outer.Encloses other) (query : Select) :
    (∀ position label, (FromItem.query query label).compile other position =
      (FromItem.query query label).compile one position) ∧
    (other.valueFeature? "select" = one.valueFeature? "select" →
      (Expr.subselect query).compile other = (Expr.subselect query).compile one) ∧
    (outer.ReadsNoResults → ∀ (context : Context) (results : List Value),
      (∀ position label source, (FromItem.query query label).compile one position = .ok source →
        ∀ nested, source.rows nested { context with aggregates := results } =
          source.rows nested context) ∧
      ∀ mapper, ((Expr.subselect query).compile one).value.get = .ok mapper →
        mapper { context with aggregates := results } = mapper context) ∧
    ∀ id feature inner, (outer.withFeature id feature).Encloses inner →
      inner.nested.find? id = some feature := by
  have same : other.nested = one.nested := second.nested_eq.trans first.nested_eq.symm
  refine ⟨fun position label => FromItem.compile_query_congr same position query label,
    fun feature => Expr.compile_subselect_congr same feature query,
    fun reads context results => ?_, fun id feature inner encloses => ?_⟩
  · have slotless : one.nested.Respects Correspondence.ofResults := by
      rw [first.nested_eq]
      exact reads.respects _
    have inside : one.nested.Suits .ofResults false := ⟨slotless, slotless⟩
    have alike := context.alike_withAggregates results
    exact ⟨fun position label source compiles nested =>
        FromItem.query_respects inside position query label source compiles nested alike,
      fun mapper compiles => (Expr.subselect_respects inside query mapper compiles alike).symm⟩
  · rw [encloses.nested_eq]
    exact outer.find?_nested_withFeature id feature

def valueOfT (value : Expr) : Select :=
  ⟨false, [.expression value none], some (.table "t" none), [], none, [], none, [], none⟩

/-- `(SELECT count(*) FROM t)` counts the records of the table, also where the statement around it
has counted its own with the same call. -/
theorem isolated_countTwice :
    let outer := Metadata.ofSettings .default
    let call : Call := ⟨"count", [], true, false⟩
    let counted : AggregateSet := ⟨[call], [⟨none, .countRows⟩]⟩
    let other := counted.install outer
    let query := valueOfT (.call call)
    let context : Context := ⟨.null, none, [], .default, .still 0⟩
    let world := World.start (.named [] [("t", [.int64 10, .int64 20])])
    let five : Feature := .valueMap (.constant (.int64 5))
    outer.Encloses outer ∧ outer.Encloses other ∧ outer.ReadsNoResults ∧
      other.valueFeature? "count" = some (.slots [call]) ∧
      (Expr.subselect query).compile other = (Expr.subselect query).compile outer ∧
      (∃ mapper, ((Expr.subselect query).compile outer).value.get = .ok mapper ∧
        (((mapper context).run 0).run world).1.map (·.map Value.toString) = some (.ok "2") ∧
        mapper { context with aggregates := [.int64 7] } = mapper context) ∧
      (counted.install (outer.withFeature (.of .valueMap "five") five)).nested.find?
        (.of .valueMap "five") = some five := by
  intro outer call counted other query context world five
  have first : outer.Encloses outer := .here
  have second : outer.Encloses other := .install .here counted
  have reads : outer.ReadsNoResults := Metadata.readsNoResults_ofSettings _ _
  have isolated := isolated first second query
  have select : other.valueFeature? "select" = outer.valueFeature? "select" :=
    AggregateSet.valueFeature?_install_other (List.forall_mem_singleton.mpr (by decide +kernel))
  have counts : (((Expr.subselect query).compile outer).value.get.map fun mapper =>
      (((mapper context).run 0).run world).1.map (·.map Value.toString)) =
        .ok (some (.ok "2")) := by
    decide +kernel
  obtain ⟨mapper, compiles, counts⟩ := exists_of_map_ok counts
  have slots : other.valueFeature? "count" = some (.slots [call]) :=
    @AggregateSet.valueFeature?_install outer counted call (List.mem_singleton_self call)
  have inner := isolated.2.2.2 (.of .valueMap "five") five _ (.install .here counted)
  exact ⟨first, second, reads, slots, isolated.2.1 select,
    ⟨mapper, compiles, counts, (isolated.2.2.1 reads context [.int64 7]).2 mapper compiles⟩, inner⟩

/-- A feature of one statement named `select` takes the place of a select inside, and a feature of
the whole query that reads results reads those of a group around the select. -/
theorem isolated_fails :
    let outer := Metadata.ofSettings .default
    let world := World.start (.named [] [("t", [.int64 0])])
    let shown (metadata : Metadata) (query : Select) (results : List Value) :=
      ((Expr.subselect query).compile metadata).value.get.map fun mapper =>
        (((mapper ⟨.null, none, results, .default, .still 0⟩).run 0).run world).1.map
          (·.map Value.toString)
    let seven := outer.withStatementFeature (.of .valueMap "select")
      (.valueMap (.constant (.int64 7)))
    let one := valueOfT (.literal (.integer 1))
    let call : Call := ⟨"f", [], false, false⟩
    let reading := outer.withFeature (.of .valueMap "f") (.valueMap (.slots [call]))
    shown outer one [] = .ok (some (.ok "1")) ∧ shown seven one [] = .ok (some (.ok "7")) ∧
      shown reading (valueOfT (.call call)) [.int64 2] = .ok (some (.ok "2")) ∧
      shown reading (valueOfT (.call call)) [.int64 3] = .ok (some (.ok "3")) := by
  decide +kernel

end Select

end StreamQuery
