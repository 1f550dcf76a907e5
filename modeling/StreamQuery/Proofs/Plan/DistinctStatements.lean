import StreamQuery.Proofs.Plan.AggregateSlots
import StreamQuery.Proofs.Plan.DistinctRows
namespace StreamQuery

/-! Selecting the distinct values of an expression, grouping by them and counting them, as
statements. -/

structure Metadata.Standard (metadata : Metadata) : Prop where
  property : metadata.valueFeature? "property" = some .property
  count : metadata.aggregateFeature? "count" = some .count
  isNull : metadata.filterFeature? "is_null" = some .isNull

theorem Metadata.standard_ofSettings (settings : Settings) (zones : Zones) :
    (Metadata.ofSettings settings zones).Standard :=
  ⟨rfl, rfl, rfl⟩

namespace Select

def ofValue (distinct : Bool) (value : Expr) (source : FromItem) (filter : Option Expr)
    (groupBy : List Expr) : Select where
  distinct := distinct
  items := [.expression value none]
  source := some source
  joins := []
  filter := filter
  groupBy := groupBy
  having := none
  orderBy := []
  limit := none

/-- As in `select distinct value from source`. -/
def distinctValues (value : Expr) (source : FromItem) : Select :=
  ofValue true value source none []

/-- As in `select value from source group by value`. -/
def groupedValues (value : Expr) (source : FromItem) : Select :=
  ofValue false value source none [value]

/-- As in `select distinct value from source where value is not null`. -/
def presentValues (value : Expr) (source : FromItem) : Select :=
  ofValue true value source (some (.isNull value true)) []

def countOf (value : Expr) : Call :=
  ⟨"count", [value], false, true⟩

/-- As in `select count(distinct value) from source`. -/
def countedValues (value : Expr) (source : FromItem) : Select :=
  ofValue false (.call (countOf value)) source none []

variable {metadata : Metadata} {value : Expr} {mapper : Mapper} {table : String}
  {label : Option String}

section

variable {distinct : Bool} {filter : Option Expr} {groupBy : List Expr}
  {predicate : Option Predicate} {set : AggregateSet} {keys : List Mapper} {grouped : Bool}
  {shaping : Metadata}
  (filters : (Expr.compileOption metadata filter).mapM (fun part => part.predicate.get) =
    .ok predicate)
  (collects : AggregateSet.ofCalls (value.aggregates metadata) = .ok set)
  (groups : GroupClause.compile metadata (Expr.nodes metadata groupBy) = .ok ⟨keys, none⟩)
  (groupedWhen : (!groupBy.isEmpty || !set.isEmpty) = grouped)
  (shapes : (if grouped then set.install metadata else metadata) = shaping)
include filters collects groups groupedWhen shapes

theorem compile_ofValue :
    Select.compile metadata (ofValue distinct value (.table table label) filter groupBy) =
      ((value.node shaping).value shaping value).map fun mapper =>
        { text := (ofValue distinct value (.table table label) filter groupBy).text
          grouped := grouped
          settings := metadata.settings
          rows := (Pipeline.ofItem value mapper (.ofTable table (label.getD table)) predicate
            (if grouped then some ⟨keys, none, set.specs⟩ else none) distinct).rows } := by
  subst groupedWhen
  simp only [Select.compile, ofValue, FromItem.compileClause, FromItem.compile,
    JoinClause.compileAll, SelectItem.aggregates, Expr.aggregatesOfOption, SortClause.aggregates,
    List.append_nil, bind, Except.bind, filters, collects, groups, SelectItem.columns,
    Option.isSome_none, Bool.or_false, shapes]
  generalize (value.node shaping).value shaping value = result
  cases result <;> rfl

theorem compile_ofValue_ok (reads : (value.node shaping).value shaping value = .ok mapper) :
    ∃ plan, Select.compile metadata (ofValue distinct value (.table table label) filter groupBy) =
        .ok plan ∧
      plan.rows = (Pipeline.ofItem value mapper (.ofTable table (label.getD table)) predicate
        (if grouped then some ⟨keys, none, set.specs⟩ else none) distinct).rows := by
  rw [compile_ofValue filters collects groups groupedWhen shapes, reads]
  exact ⟨_, rfl, rfl⟩

end

theorem collects_nothing (unaggregated : value.aggregates metadata = []) :
    AggregateSet.ofCalls (value.aggregates metadata) = .ok ⟨[], []⟩ := by
  rw [unaggregated]
  rfl

theorem value_countOf (metadata : Metadata) (value : Expr) (spec : AggregateSpec) :
    let set : AggregateSet := ⟨[countOf value], [spec]⟩
    ((Expr.call (countOf value)).node (set.install metadata)).value (set.install metadata)
        (.call (countOf value)) =
      if value.equals value then .ok (AggregateSet.slot 0)
      else .error (.unsupportedExpression (Expr.call (countOf value)).text) := by
  intro set
  have member : countOf value ∈ set.calls := List.mem_cons_self
  have same : (countOf value).equals (countOf value) = value.equals value := by
    simp [countOf, Call.equals, Expr.equalAll]
  have reads := @AggregateSet.compile_install metadata set _ member
  rw [List.findIdx?_cons, same] at reads
  refine reads.trans ?_
  cases value.equals value <;> rfl

/-! The statements compile, if the expression does. -/

variable (compiles : (value.node metadata).value metadata value = .ok mapper)
include compiles

theorem compile_distinctValues (unaggregated : value.aggregates metadata = []) :
    ∃ plan, Select.compile metadata (distinctValues value (.table table label)) = .ok plan ∧
      plan.rows = (Pipeline.ofItem value mapper (.ofTable table (label.getD table)) none none
        true).rows := by
  exact compile_ofValue_ok rfl (collects_nothing unaggregated) rfl rfl rfl compiles

theorem compile_presentValues (standard : metadata.Standard)
    (unaggregated : value.aggregates metadata = []) :
    ∃ plan, Select.compile metadata (presentValues value (.table table label)) = .ok plan ∧
      plan.rows = (Pipeline.ofItem value mapper (.ofTable table (label.getD table))
        (some (Predicate.ofValue (!·.isNull) mapper)) none true).rows := by
  have filters : ((Expr.isNull value true).node metadata).predicate metadata (.isNull value true) =
      .ok (Predicate.ofValue (!·.isNull) mapper) := by
    simp only [Expr.node, Node.predicate, Node.condition?, Node.requiredPredicate, Node.byTest?,
      standard.isNull, Option.map_some, Option.getD_some, FilterFeature.compile,
      FilterFeature.compileIsNull, Bool.bne_true]
    exact congrArg (Except.map _) compiles
  have filter : (Expr.compileOption metadata (some (.isNull value true))).mapM
      (fun part => part.predicate.get) =
        .ok (some (Predicate.ofValue (!·.isNull) mapper)) :=
    congrArg (Except.map some) filters
  exact compile_ofValue_ok filter (collects_nothing unaggregated) rfl rfl rfl compiles

theorem compile_groupedValues (unaggregated : value.aggregates metadata = [])
    (windowless : GroupClause.window? metadata (value.node metadata) = none) :
    ∃ plan, Select.compile metadata (groupedValues value (.table table label)) = .ok plan ∧
      plan.rows = (Pipeline.ofItem value mapper (.ofTable table (label.getD table)) none
        (some ⟨[mapper], none, []⟩) false).rows := by
  have groups : GroupClause.compile metadata (Expr.nodes metadata [value]) =
      .ok ⟨[mapper], none⟩ := by
    simp only [GroupClause.compile, Expr.nodes, List.foldlM_cons, List.foldlM_nil, GroupClause.add,
      windowless, compiles]
    rfl
  exact compile_ofValue_ok rfl (collects_nothing unaggregated) groups rfl rfl compiles

theorem collects_countOf (standard : metadata.Standard) :
    AggregateSet.ofCalls ((Expr.call (countOf value)).aggregates metadata) =
      .ok ⟨[countOf value], [⟨some mapper, .countDistinct⟩]⟩ := by
  have compiled : AggregateFeature.compileCount (countOf value)
      (Expr.compileAll metadata [value]) = .ok ⟨some mapper, .countDistinct⟩ := by
    simp only [AggregateFeature.compileCount, AggregateFeature.argument, countOf, Expr.compileAll,
      Bool.false_eq_true, if_false, if_true, bind, Except.bind, Node.compile, Thunk.get, compiles]
  have known : metadata.aggregateFeature? (countOf value).name = some .count := standard.count
  rw [Expr.aggregates_of_some known]
  exact AggregateSet.ofCalls_singleton compiled

/-- The count finds its slot if the expression is equal to itself, as it is unless a float literal
in it is not a number. -/
theorem compile_countedValues (standard : metadata.Standard) (itself : value.equals value) :
    ∃ plan, Select.compile metadata (countedValues value (.table table label)) = .ok plan ∧
      plan.rows = (Pipeline.ofItem (.call (countOf value)) (AggregateSet.slot 0)
        (.ofTable table (label.getD table)) none
        (some ⟨[], none, [⟨some mapper, .countDistinct⟩]⟩) false).rows := by
  refine compile_ofValue_ok rfl (collects_countOf compiles standard) rfl rfl rfl ?_
  exact (value_countOf metadata value _).trans (if_pos itself)

theorem compile_countedValues_missing (standard : metadata.Standard)
    (differs : value.equals value = false) :
    Select.compile metadata (countedValues value (.table table label)) =
      .error (.unsupportedExpression (Expr.call (countOf value)).text) := by
  rw [countedValues, compile_ofValue rfl (collects_countOf compiles standard) rfl rfl rfl]
  have reads := (value_countOf metadata value ⟨some mapper, .countDistinct⟩).trans
    (if_neg (Bool.eq_false_iff.mp differs))
  exact congrArg (Except.map _) reads

end Select

/-! Runs of the statements. -/

theorem World.answersBy_of_request (world : World) (name : String) :
    (world.request name).2.AnswersBy fun other => ((world.request name).2.request other).1 := by
  rcases world with ⟨now, _ | ⟨script, taken⟩, opened⟩
  · exact fun other => rfl
  · cases taken <;> exact fun other => rfl

/-- Run in this context and this world, the plan shows these rows, no error, and then ends. -/
structure Plan.Shows (plan : Plan) (context : Context) (world : World) (rows : List Value) :
    Prop where
  items : (Stream.run none (plan.rows false context) world).items.map (·.2) = rows.map .ok
  ends : (Stream.run none (plan.rows false context) world).ended.isSome

/-- The table delivers these records and ends, and on each of them the expression has its result,
whenever it is asked for. -/
structure Expr.EvaluatedOver (value : Expr) (mapper : Mapper) (context : Context) (world : World)
    (table : String) (records : List Value) (results : Value → Value) : Prop where
  delivers : ∃ deliveries, (world.request table).1 = .ok ⟨deliveries, true⟩ ∧
    deliveries.map (·.item) = records.map .ok
  evaluates : ∀ row ∈ records, (mapper (context.withRow row)).Settles
    (fun other => ((world.request table).2.request other).1) (.ok (results row))

namespace Expr.EvaluatedOver

variable {metadata : Metadata} {value : Expr} {mapper : Mapper} {context : Context} {world : World}
  {table : String} {records : List Value} {results : Value → Value}

theorem reads (evaluated : value.EvaluatedOver mapper context world table records results)
    (standard : metadata.Standard)
    (compiles : (value.node metadata).value metadata value = .ok mapper) :
    value.Reads (fun other => ((world.request table).2.request other).1) context mapper records
      results := by
  refine ⟨evaluated.evaluates, ?_⟩
  intro this row member
  rcases evaluated.evaluates row member world.now with ⟨later, outcome⟩
  obtain rfl : value = .column ⟨none, "this"⟩ := by
    simp only [isThis] at this
    split at this
    · next name => rw [beq_iff_eq.mp this]
    · cases this
  simp only [node, Node.value, Node.requiredValue, Node.byFunction?, standard.property,
    Option.map_some, Option.getD_some, ValueFeature.compile] at compiles
  cases compiles
  exact (Except.ok.inj (Prod.mk.inj (Option.some.inj outcome)).1).symm

theorem shows {plan : Plan} {label : String}
    (evaluated : value.EvaluatedOver mapper (context.withLabel (some label)) world table records
      results) {pipeline : Pipeline} (source : pipeline.source = .single (.ofTable table label))
    (same : plan.rows = pipeline.rows)
    (delivers : ∀ (stream : Stream Value) (now : Nat),
      (stream now).Delivers (fun other => ((world.request table).2.request other).1) now records →
      (pipeline.stages (context.withLabel (some label)) stream now).Delivers
        (fun other => ((world.request table).2.request other).1) now rows) :
    plan.Shows context world rows := by
  rcases evaluated.delivers with ⟨deliveries, answer, items⟩
  have run : Stream.run none (plan.rows false context) world =
      Feed.run none (pipeline.stages (context.withLabel (some label))
        (Source.ofAnswer (.ok ⟨deliveries, true⟩)) (world.request table).2.now)
        (world.request table).2 := by
    rw [same, Pipeline.rows, source, ← answer]
    rfl
  have shown := (delivers _ _ (Feed.delivers_ofDeliveries items _)).run
    (world.answersBy_of_request table)
  exact ⟨run ▸ shown.1, run ▸ shown.2⟩

end Expr.EvaluatedOver

namespace Select

/-- The distinct values of an expression are shown in the order in which its groups are, and those
that are not null are as many as are counted. -/
theorem distinct_grouped_counted {metadata : Metadata} (standard : metadata.Standard) {value : Expr}
    (unaggregated : value.aggregates metadata = [])
    (windowless : GroupClause.window? metadata (value.node metadata) = none) {mapper : Mapper}
    (compiles : (value.node metadata).value metadata value = .ok mapper) {context : Context}
    (topmost : context.aggregates = []) (unlimited : context.settings.maxGroups = none)
    {world : World} {table : String} {label : Option String} {records : List Value}
    {results : Value → Value}
    (evaluated : value.EvaluatedOver mapper (context.withLabel (some (label.getD table))) world
      table records results) :
    let present := records.filter fun row => !(results row).isNull
    ∃ distinct grouped distinctPresent,
      Select.compile metadata (distinctValues value (.table table label)) = .ok distinct ∧
      Select.compile metadata (groupedValues value (.table table label)) = .ok grouped ∧
      Select.compile metadata (presentValues value (.table table label)) = .ok distinctPresent ∧
      distinct.Shows context world (value.firstRows results records) ∧
      grouped.Shows context world (value.firstRows results records) ∧
      distinctPresent.Shows context world (value.firstRows results present) ∧
      (value.equals value → ∃ counted,
        Select.compile metadata (countedValues value (.table table label)) = .ok counted ∧
        counted.Shows context world [.record [((Expr.call (countOf value)).text,
          .int64 (Int64.ofNat (value.firstRows results present).length))]]) := by
  intro present
  have reads := evaluated.reads standard compiles
  have unlimitedHere : (context.withLabel (some (label.getD table))).settings.maxGroups = none :=
    unlimited
  rcases compile_distinctValues compiles unaggregated with
    ⟨distinct, compilesDistinct, distinctRows⟩
  rcases compile_groupedValues compiles unaggregated windowless with
    ⟨grouped, compilesGrouped, groupedRows⟩
  rcases compile_presentValues compiles standard unaggregated with
    ⟨distinctPresent, compilesPresent, presentRows⟩
  refine ⟨distinct, grouped, distinctPresent, compilesDistinct, compilesGrouped, compilesPresent,
    ?distinct, ?grouped, ?present, fun itself => ?counted⟩
  case distinct =>
    exact evaluated.shows rfl distinctRows fun _ _ delivers =>
      Pipeline.delivers_distinct reads delivers
  case grouped =>
    exact evaluated.shows rfl groupedRows fun _ _ delivers =>
      Pipeline.delivers_grouped topmost unlimitedHere reads delivers
  case present =>
    exact evaluated.shows rfl presentRows fun _ _ delivers =>
      Pipeline.delivers_filtered (!·.isNull) reads delivers
  case counted =>
    rcases compile_countedValues compiles standard itself with
      ⟨counted, compilesCounted, countedRows⟩
    rw [Expr.firstRows, List.length_map]
    exact ⟨counted, compilesCounted, evaluated.shows rfl countedRows fun _ _ delivers =>
      Pipeline.delivers_count unlimitedHere rfl (fun _ => rfl) reads.settles delivers⟩

/-- Of the four records one is null, and two are one number in different types. -/
theorem distinct_grouped_counted_mixed :
    let metadata := Metadata.ofSettings .default
    let context : Context := ⟨.null, none, [], .default, .still 0⟩
    let this : Expr := .column ⟨none, "this"⟩
    let source : FromItem := .table "t" none
    let records : List Value := [.int64 1, .null, .int32 1, .int64 2]
    let world := World.start (.named [] [("t", records)])
    metadata.Standard ∧ this.aggregates metadata = [] ∧
      GroupClause.window? metadata (this.node metadata) = none ∧
      (this.node metadata).value metadata this = .ok (Mapper.column ⟨none, "this"⟩) ∧
      context.aggregates = [] ∧ context.settings.maxGroups = none ∧
      this.EvaluatedOver (Mapper.column ⟨none, "this"⟩) (context.withLabel (some "t")) world "t"
        records id ∧
      ∃ distinct grouped present counted,
        Select.compile metadata (distinctValues this source) = .ok distinct ∧
        Select.compile metadata (groupedValues this source) = .ok grouped ∧
        Select.compile metadata (presentValues this source) = .ok present ∧
        Select.compile metadata (countedValues this source) = .ok counted ∧
        distinct.Shows context world [.int64 1, .null, .int64 2] ∧
        grouped.Shows context world [.int64 1, .null, .int64 2] ∧
        present.Shows context world [.int64 1, .int64 2] ∧
        counted.Shows context world [.record [("count(distinct this)", .int64 2)]] := by
  intro metadata context this source records world
  have standard : metadata.Standard := Metadata.standard_ofSettings .default .common
  have evaluated : this.EvaluatedOver (Mapper.column ⟨none, "this"⟩)
      (context.withLabel (some "t")) world "t" records id :=
    ⟨⟨_, rfl, rfl⟩, fun row _ => Evaluation.settles_ok row⟩
  have itself : this.equals this := by decide +kernel
  rcases @distinct_grouped_counted metadata standard this rfl rfl _ rfl context rfl rfl world "t" none
    records id evaluated with ⟨distinct, grouped, present, compilesDistinct, compilesGrouped,
      compilesPresent, distinctShown, groupedShown, presentShown, counts⟩
  rcases counts itself with ⟨counted, compilesCounted, countedShown⟩
  have rows : this.firstRows id records = [.int64 1, .null, .int64 2] := by
    -- `this` is the record itself.
    change this.firstRows (fun row => row) records = _
    cbv
  have remaining : this.firstRows id (records.filter fun row => !(id row).isNull) =
      [.int64 1, .int64 2] := by
    change this.firstRows (fun row => row) (records.filter fun row => !row.isNull) = _
    cbv
  rw [rows] at distinctShown groupedShown
  rw [remaining] at presentShown countedShown
  exact ⟨standard, rfl, rfl, rfl, rfl, rfl, evaluated, distinct, grouped, present, counted,
    compilesDistinct, compilesGrouped, compilesPresent, compilesCounted, distinctShown, groupedShown,
    presentShown, countedShown⟩

/-- What the source delivers before it fails, or while it never ends, is distinct already, but not
yet a group. An item that goes by the clock is taken of a record when it comes, and of a group when
the source has ended. A literal that is not a number is counted nowhere. -/
theorem distinct_grouped_counted_fails :
    let metadata := Metadata.ofSettings .default
    let context : Context := ⟨.null, none, [], .default, ⟨Int64.ofNat⟩⟩
    let this : Expr := .column ⟨none, "this"⟩
    let time : Expr := .call ⟨"now", [], false, false⟩
    let failure : QueryError := .source "t" "unavailable"
    let failing := World.start
      (.named [("t", ⟨[⟨0, .ok (.int64 1)⟩, ⟨0, .error failure⟩], true⟩)] [])
    let endless := World.start (.named [("t", ⟨[⟨0, .ok (.int64 1)⟩], false⟩)] [])
    let slow := World.start
      (.named [("t", ⟨[⟨10, .ok (.int64 1)⟩, ⟨10, .ok (.int64 2)⟩], true⟩)] [])
    let row (time : Int64) : Except QueryError Value := .ok (.record [("now()", .dateTime time)])
    let shown (plan : Plan) (world : World) :=
      (Stream.run none (plan.rows false context) world).items.map (·.2)
    (∃ distinct grouped,
      Select.compile metadata (distinctValues this (.table "t" none)) = .ok distinct ∧
      Select.compile metadata (groupedValues this (.table "t" none)) = .ok grouped ∧
      shown distinct failing = [.ok (.int64 1), .error failure] ∧
      shown grouped failing = [.error failure] ∧
      shown distinct endless = [.ok (.int64 1)] ∧ shown grouped endless = []) ∧
    (∃ distinct grouped,
      Select.compile metadata (distinctValues time (.table "t" none)) = .ok distinct ∧
      Select.compile metadata (groupedValues time (.table "t" none)) = .ok grouped ∧
      shown distinct slow = [row 10, row 20] ∧ shown grouped slow = [row 20, row 20]) ∧
    Select.compile metadata
        (countedValues (.literal (.float (Binary.nan false))) (.table "t" none)) =
      .error (.unsupportedExpression "count(distinct NaN)") := by
  intro metadata context this time failure failing endless slow row shown
  have compiles : (this.node metadata).value metadata this =
      .ok (Mapper.column ⟨none, "this"⟩) := rfl
  rcases @compile_distinctValues metadata this _ "t" none compiles rfl with
    ⟨distinct, compilesDistinct, distinctRows⟩
  rcases @compile_groupedValues metadata this _ "t" none compiles rfl rfl with
    ⟨grouped, compilesGrouped, groupedRows⟩
  have timeCompiles : (time.node metadata).value metadata time = .ok
      (.applyNow (fun time values => Value.formatNow .default time values.head?) []) := rfl
  rcases @compile_distinctValues metadata time _ "t" none timeCompiles rfl with
    ⟨times, compilesTimes, timesRows⟩
  rcases @compile_groupedValues metadata time _ "t" none timeCompiles rfl rfl with
    ⟨timeGroups, compilesTimeGroups, timeGroupsRows⟩
  refine ⟨⟨distinct, grouped, compilesDistinct, compilesGrouped, ?_, ?_, ?_, ?_⟩,
    ⟨times, timeGroups, compilesTimes, compilesTimeGroups, ?_, ?_⟩, ?_⟩
  · have items : (Stream.run none (distinct.rows false context) failing).items =
        [(0, .ok (.int64 1)), (0, .error failure)] := by
      simp only [distinctRows]
      cbv
    exact congrArg (List.map (·.2)) items
  · have items : (Stream.run none (grouped.rows false context) failing).items =
        [(0, .error failure)] := by
      simp only [groupedRows]
      cbv
    exact congrArg (List.map (·.2)) items
  · have items : (Stream.run none (distinct.rows false context) endless).items =
        [(0, .ok (.int64 1))] := by
      simp only [distinctRows]
      cbv
    exact congrArg (List.map (·.2)) items
  · have items : (Stream.run none (grouped.rows false context) endless).items = [] := by
      simp only [groupedRows]
      cbv
    exact congrArg (List.map (·.2)) items
  · have items : (Stream.run none (times.rows false context) slow).items =
        [(10, row 10), (20, row 20)] := by
      simp only [timesRows]
      cbv
    exact congrArg (List.map (·.2)) items
  · have items : (Stream.run none (timeGroups.rows false context) slow).items =
        [(20, row 20), (20, row 20)] := by
      simp only [timeGroupsRows]
      cbv
    exact congrArg (List.map (·.2)) items
  · exact compile_countedValues_missing rfl (Metadata.standard_ofSettings _ _) (by decide +kernel)

end Select

end StreamQuery
