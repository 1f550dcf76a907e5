import StreamQuery.Proofs.Plan.AggregateSlots
import StreamQuery.Proofs.Plan.DistinctRows
import StreamQuery.Proofs.Plan.Endings
import StreamQuery.Proofs.Stream.Arrivals
namespace StreamQuery

/-! What a select of one item comes to in value position. -/

namespace SelectItem

/-- The output row for a value of the item. -/
def rowOf (value : Expr) : Option String → Value → Value
  | none, result => value.rowOf result
  | some name, result => .record [(name, result)]

def found (value : Expr) : Option String → Value → Value
  | none, .record fields =>
      if value.isThis then (Record.get? fields value.text).getD .null else .record fields
  | _, result => result

end SelectItem

theorem Select.valueOfRow_rowOf {query : Select} {value : Expr} {label : Option String}
    (single : query.items = [.expression value label]) (result : Value) :
    query.valueOfRow (SelectItem.rowOf value label result) =
      SelectItem.found value label result := by
  have named : query.column? = some (label.getD value.text) := by
    rw [column?, single]
    rfl
  cases label with
  | some name => simp [valueOfRow, named, SelectItem.rowOf, SelectItem.found, Record.get?]
  | none =>
      by_cases this : value.isThis
      · cases result <;>
          simp [valueOfRow, named, SelectItem.rowOf, Expr.rowOf, SelectItem.found, this]
      · cases result <;>
          simp [valueOfRow, named, SelectItem.rowOf, Expr.rowOf, SelectItem.found, this,
            Record.get?]

/-! The item is read on the records, or on the groups, that the rows stand for. -/

namespace Pipeline

def Sees (pipeline : Pipeline) (context seen : Context) : Prop :=
  match pipeline.grouping with
  | none => ∃ record, seen = context.withRow record
  | some _ => ∃ sample aggregates, seen = context.withGroup sample aggregates

variable {pipeline : Pipeline} {context : Context} {world : World} {rows : Stream Shaped}

theorem brings_of_limited {row : Value}
    (brings : (pipeline.limited rows world.now).Brings row world) :
    ∃ shaped, (rows world.now).Brings shaped world ∧ shaped.row = row := by
  simp only [limited] at brings
  cases bounds : pipeline.limit with
  | none =>
      rw [bounds] at brings
      exact brings.of_map
  | some limit =>
      rw [bounds] at brings
      exact (Limit.brings_of_apply brings).of_map

theorem brings_of_sorted {shaped : Shaped}
    (brings : (pipeline.sorted rows world.now).Brings shaped world) :
    (rows world.now).Brings shaped world := by
  simp only [sorted] at brings
  split at brings
  · exact brings
  · exact brings.of_sort

theorem brings_of_distinctRows {shaped : Shaped}
    (brings : (pipeline.distinctRows rows world.now).Brings shaped world) :
    (rows world.now).Brings shaped world := by
  simp only [distinctRows] at brings
  split at brings
  · exact brings.of_distinct
  · exact brings

theorem brings_shaped {records : Stream Value} {shaped : Shaped}
    (brings : (pipeline.shaped context records world.now).Brings shaped world) :
    ∃ seen before after, pipeline.Sees context seen ∧
      (pipeline.shape seen).ComesTo before (.ok (some shaped)) after := by
  simp only [Pipeline.shaped] at brings
  cases grouped : pipeline.grouping with
  | none =>
      rw [grouped] at brings
      rcases brings.of_process with ⟨record, before, after, comes⟩
      refine ⟨_, before, after, ?_, comes⟩
      rw [Sees, grouped]
      exact ⟨record, rfl⟩
  | some grouping =>
      rw [grouped] at brings
      rcases brings.of_process with ⟨group, before, after, comes⟩
      refine ⟨_, before, after, ?_, comes⟩
      rw [Sees, grouped]
      exact ⟨group.sample, group.aggregates, rfl⟩

theorem shaped_of_mem_run {nested : Bool} {wanted : Option Nat} {row : Value}
    (shown : (instant, .ok row) ∈
      (Stream.run wanted (pipeline.rows nested context) world).items) :
    ∃ seen before after shaped, pipeline.Sees (pipeline.source.context context) seen ∧
      (pipeline.shape seen).ComesTo before (.ok (some shaped)) after ∧ shaped.row = row := by
  simp only [Stream.run, rows, Opening.run_map] at shown
  generalize (pipeline.source.rows nested context).run world = opened at shown
  have brings : (pipeline.stages (pipeline.source.context context) opened.1 opened.2.now).Brings
      row opened.2 := by
    split at shown
    · cases shown
    · exact Feed.brings_of_mem_run shown
  rcases brings_of_limited brings with ⟨shaped, brings, same⟩
  rcases brings_shaped (brings_of_distinctRows (brings_of_sorted brings)) with
    ⟨seen, before, after, sees, comes⟩
  exact ⟨seen, before, after, shaped, sees, comes, same⟩

theorem comesTo_projection {shaped : Shaped} {before after : World}
    (comes : (pipeline.shape context).ComesTo before (.ok (some shaped)) after) :
    ∃ between, (pipeline.projection.apply context).ComesTo before (.ok shaped.row) between := by
  rcases Evaluation.comesTo_andThen.mp comes with ⟨row, between, applied, comes⟩
  rcases Evaluation.comesTo_andThen.mp comes with ⟨kept, _, _, comes⟩
  cases kept with
  | false => cases (Evaluation.comesTo_ok.mp comes).1
  | true =>
      rcases Evaluation.comesTo_map.mp comes with ⟨keys, _, same⟩
      cases same
      exact ⟨between, applied⟩

end Pipeline

theorem Projection.comesTo_named {name : String} {item : Mapper} {context : Context} {row : Value}
    {before after : World}
    (comes : (Projection.apply ⟨false, [.named name item]⟩ context).ComesTo before (.ok row)
      after) :
    ∃ result, (item context).ComesTo before (.ok result) after ∧
      row = .record [(name, result)] := by
  simp only [apply, Bool.false_eq_true, if_false, List.map_cons, List.map_nil, Evaluation.all,
    Evaluation.both_ok] at comes
  rcases Evaluation.comesTo_map.mp comes with ⟨_, listed, row⟩
  rcases Evaluation.comesTo_map.mp listed with ⟨_, paired, rfl⟩
  rcases Evaluation.comesTo_map.mp paired with ⟨_, column, rfl⟩
  rcases Evaluation.comesTo_map.mp column with ⟨result, evaluated, rfl⟩
  exact ⟨result, evaluated, row.symm⟩

/-! Compiled statements. -/

namespace Select

def shaping (metadata : Metadata) (set : AggregateSet) (grouped : Bool) : Metadata :=
  if grouped then set.install metadata else metadata

theorem ensures_projection (metadata : Metadata) (query : Select) :
    Ensures (compile metadata query) fun plan =>
      ∃ (pipeline : Pipeline) (set : AggregateSet), plan.rows = pipeline.rows ∧
        pipeline.projection.passesThrough = Projection.passes query.items ∧
        SelectItem.columns (shaping metadata set pipeline.grouping.isSome) query.items =
          .ok pipeline.projection.columns := by
  obtain ⟨distinct, items, source, joins, filter, groupBy, having, orderBy, limit⟩ := query
  simp only [compile]
  refine (ensures_true _).bind fun source _ => ?_
  refine (ensures_true _).bind fun filter _ => ?_
  refine (ensures_true _).bind fun set _ => ?_
  refine (ensures_true _).bind fun clause _ => ?_
  refine (ensures_self _).bind fun columns compiled => ?_
  refine (ensures_true _).bind fun _ _ => ?_
  refine (ensures_true _).bind fun _ _ => ?_
  refine ensures_ok ⟨_, set, rfl, rfl, ?_⟩
  rw [shaping, ← compiled]
  congr 2
  split <;> simp_all

theorem plan_of_subselect {outer : Metadata}
    (select : outer.valueFeature? "select" = some .subselect) {query : Select} {mapper : Mapper}
    (compiles : ((Expr.subselect query).node outer).value outer (.subselect query) = .ok mapper) :
    ∃ plan, compile outer.nested query = .ok plan ∧ mapper = plan.firstValue query := by
  simp only [Expr.node, Node.value, Node.requiredValue, Node.byFunction?, select,
    Option.map_some, Option.getD_some, ValueFeature.compile, Thunk.get] at compiles
  cases compiled : compile outer.nested query with
  | error error =>
      rw [compiled] at compiles
      cases compiles
  | ok plan =>
      rw [compiled] at compiles
      exact ⟨plan, rfl, (Except.ok.inj compiles).symm⟩

theorem columns_singleton {metadata : Metadata} {value : Expr} {label : Option String}
    {columns : List Column}
    (listed : SelectItem.columns metadata [.expression value label] = .ok columns) :
    ∃ item, (value.node metadata).value metadata value = .ok item ∧
      columns = [.named (label.getD value.text) item] := by
  rw [SelectItem.columns, SelectItem.columns] at listed
  cases reads : (value.node metadata).value metadata value with
  | error error =>
      rw [reads] at listed
      cases listed
  | ok item =>
      rw [reads] at listed
      exact ⟨item, rfl, (Except.ok.inj listed).symm⟩

theorem property_shaping {metadata : Metadata}
    (property : metadata.valueFeature? "property" = some .property) (set : AggregateSet)
    (grouped : Bool) :
    (shaping metadata set grouped).valueFeature? "property" = some .property ∨
      (shaping metadata set grouped).valueFeature? "property" = some (.slots set.calls) := by
  cases grouped with
  | false => exact .inl property
  | true =>
      have found := set.find?_install metadata (.of .valueMap "property")
      simp only [shaping, if_true, Metadata.valueFeature?, found]
      by_cases named : ∃ call ∈ set.calls,
          FeatureId.of .valueMap call.name = .of .valueMap "property"
      · exact .inr (by rw [if_pos named])
      · rw [if_neg named]
        exact .inl property

theorem mapper_of_isThis {metadata : Metadata}
    (property : metadata.valueFeature? "property" = some .property) {set : AggregateSet}
    {grouped : Bool} {value : Expr} (this : value.isThis) {item : Mapper}
    (compiles : (value.node (shaping metadata set grouped)).value (shaping metadata set grouped)
      value = .ok item) : item = Mapper.column ⟨none, "this"⟩ := by
  obtain rfl : value = .column ⟨none, "this"⟩ := by
    simp only [Expr.isThis] at this
    split at this
    · next name => rw [beq_iff_eq.mp this]
    · cases this
  simp only [Expr.node, Node.value, Node.requiredValue, Node.byFunction?] at compiles
  rcases property_shaping property set grouped with known | known
  · rw [known] at compiles
    exact (Except.ok.inj compiles).symm
  · rw [known] at compiles
    cases compiles

end Select

theorem Projection.comesTo_item {projection : Projection} {value : Expr} {label : Option String}
    {item : Mapper} (passes : projection.passesThrough = passes [.expression value label])
    (columns : projection.columns = [.named (label.getD value.text) item])
    (this : value.isThis → item = Mapper.column ⟨none, "this"⟩) {seen : Context} {row : Value}
    {before after : World} (comes : (projection.apply seen).ComesTo before (.ok row) after) :
    ∃ result, (item seen).ComesTo before (.ok result) after ∧
      row = SelectItem.rowOf value label result := by
  obtain ⟨passesThrough, _⟩ := projection
  obtain rfl : _ = _ := columns
  obtain rfl : passesThrough = _ := passes
  cases label with
  | some name => exact comesTo_named comes
  | none =>
      simp only [SelectItem.rowOf, Expr.rowOf]
      cases itself : value.isThis with
      | false =>
          have named : Projection.passes [.expression value none] = false := itself
          rw [named] at comes
          exact comesTo_named comes
      | true =>
          have through : Projection.passes [.expression value none] = true := itself
          rw [through] at comes
          obtain ⟨rfl, rfl⟩ : row = seen.row ∧ after = before := by
            rcases Evaluation.comesTo_ok.mp comes with ⟨same, kept⟩
            exact ⟨Except.ok.inj same, kept⟩
          rw [this itself]
          exact ⟨seen.row, Evaluation.comesTo_ok.mpr ⟨rfl, rfl⟩, rfl⟩

theorem Feed.length_items_run_one (feed : Feed α) (world : World) :
    (Feed.run (some 1) feed world).items.length ≤ 1 := by
  induction feed generalizing world with
  | finished => exact Nat.zero_le 1
  | item entry rest => exact Nat.le_refl 1
  | waiting deadline resume induction => exact induction _ _
  | opening name next induction => exact induction _ _
  | silent => exact Nat.zero_le 1

/-- In value position a select of one item comes to what the first item that it emits is: to the
value of the item if that is a row, to its error if it is one, and to null if there is none. Only a
record that passes through as it is gives the value of a field in place of itself. -/
theorem Select.first_value_of_item {outer : Metadata}
    (select : outer.valueFeature? "select" = some .subselect)
    (property : outer.nested.valueFeature? "property" = some .property) {query : Select}
    {value : Expr} {label : Option String} (single : query.items = [.expression value label])
    {mapper : Mapper}
    (compiles : ((Expr.subselect query).node outer).value outer (.subselect query) = .ok mapper) :
    ∃ (plan : Plan) (pipeline : Pipeline) (set : AggregateSet) (item : Mapper),
      Select.compile outer.nested query = .ok plan ∧ plan.rows = pipeline.rows ∧
      (let metadata := shaping outer.nested set pipeline.grouping.isSome
       (value.node metadata).value metadata value = .ok item) ∧
      ∀ (context : Context) (world : World),
        let run := Stream.run (some 1) (plan.rows true context) world
        let comesTo result := (mapper context).ComesTo world result run.world
        run.items.length ≤ 1 ∧
        (run.items = [] → run.ended.isSome → comesTo (.ok .null)) ∧
        (run.items = [] → run.ended = none →
          ((mapper context).run world.now).run world = (none, run.world)) ∧
        (∀ instant error, run.items = [(instant, .error error)] → comesTo (.error error)) ∧
        (∀ instant row, run.items = [(instant, .ok row)] →
          ∃ seen before after result, pipeline.Sees (pipeline.source.context context) seen ∧
            (item seen).ComesTo before (.ok result) after ∧
            row = SelectItem.rowOf value label result ∧
            comesTo (.ok (SelectItem.found value label result))) := by
  obtain ⟨plan, compiled, rfl⟩ := plan_of_subselect select compiles
  rcases ensures_projection _ _ plan compiled with ⟨pipeline, set, rows, passes, listed⟩
  generalize shaped : shaping outer.nested set pipeline.grouping.isSome = metadata at listed
  rw [single] at passes listed
  obtain ⟨item, reads, columns⟩ := columns_singleton listed
  subst shaped
  refine ⟨plan, pipeline, set, item, compiled, rows, reads, fun context world => ?_⟩
  intro run comesTo
  have first : ((plan.firstValue query context).run world.now).run world =
      (run.first?.map query.valueOfFirst, run.world) :=
    Stream.run_firstOf (plan.rows true context) query.valueOfFirst world
  have told {found : Option (Except QueryError Value)} (shown : run.first? = some found) :
      comesTo (query.valueOfFirst found) := by
    rw [shown] at first
    exact first
  refine ⟨Feed.length_items_run_one _ _, ?none, ?silent, ?fails, ?row⟩
  case none =>
    intro empty ended
    rcases Option.isSome_iff_exists.mp ended with ⟨instant, ended⟩
    have nothing : run.first? = some none := by rw [Run.first?, empty, ended, Option.map_some]
    exact told nothing
  case silent =>
    intro empty silent
    rw [first, Run.first?, empty, silent]
    rfl
  case fails =>
    intro instant error shown
    have failed : run.first? = some (some (.error error)) := by rw [Run.first?, shown]
    exact told failed
  case row =>
    intro instant row shown
    have member : (instant, .ok row) ∈
        (Stream.run (some 1) (pipeline.rows true context) world).items := by
      rw [← rows]
      exact shown ▸ List.mem_singleton_self _
    rcases Pipeline.shaped_of_mem_run member with ⟨seen, before, _, shaped, sees, comes, rfl⟩
    rcases Pipeline.comesTo_projection comes with ⟨after, comes⟩
    rcases Projection.comesTo_item passes columns
      (fun this => mapper_of_isThis property this reads) comes with ⟨result, evaluated, same⟩
    refine ⟨seen, before, after, result, sees, evaluated, same, ?_⟩
    rw [← valueOfRow_rowOf single, ← same]
    have came : run.first? = some (some (.ok shaped.row)) := by rw [Run.first?, shown]
    exact told came

namespace Select

/-- `SELECT value AS label FROM t`, or without the label. -/
def itemOfT (value : Expr) (label : Option String) : Select :=
  ⟨false, [.expression value label], some (.table "t" none), [], none, [], none, [], none⟩

/-- `(SELECT a AS b FROM t)` is the field of the first record. -/
theorem first_value_of_item_labelled :
    let outer := Metadata.ofSettings .default
    let context : Context := ⟨.null, none, [], .default, .still 0⟩
    let world := World.start (.named [] [("t", [.record [("a", .int64 1)], .null])])
    let value : Expr := .column ⟨none, "a"⟩
    let query := itemOfT value (some "b")
    outer.valueFeature? "select" = some .subselect ∧
      outer.nested.valueFeature? "property" = some .property ∧
      query.items = [.expression value (some "b")] ∧
      ∃ plan, Select.compile outer.nested query = .ok plan ∧
        ((Expr.subselect query).node outer).value outer (.subselect query) =
          .ok (plan.firstValue query) ∧
        let run := Stream.run (some 1) (plan.rows true context) world
        run.items = [(0, .ok (.record [("b", .int64 1)]))] ∧
          (plan.firstValue query context).ComesTo world (.ok (.int64 1)) run.world := by
  intro outer context world value query
  refine ⟨rfl, rfl, rfl, _, rfl, rfl, by cbv, ?_⟩
  rcases @first_value_of_item outer rfl rfl query value (some "b") rfl _ rfl with
    ⟨plan, _, _, _, compiles, _, _, values⟩
  cases compiles
  rcases (values context world).2.2.2.2 0 (.record [("b", .int64 1)]) (by cbv) with
    ⟨_, _, _, result, _, _, row, comes⟩
  cases row
  exact comes

/-- `(SELECT this FROM t)` loses a record: it is not what the first row is, but its field named
`this`, and that is not there. -/
theorem first_value_of_this_lost :
    let outer := Metadata.ofSettings .default
    let context : Context := ⟨.null, none, [], .default, .still 0⟩
    let record : Value := .record [("a", .int64 1)]
    let world := World.start (.named [] [("t", [record])])
    let query := itemOfT (.column ⟨none, "this"⟩) none
    ∃ plan, Select.compile outer.nested query = .ok plan ∧
      ((Expr.subselect query).node outer).value outer (.subselect query) =
        .ok (plan.firstValue query) ∧
      let run := Stream.run (some 1) (plan.rows true context) world
      run.items = [(0, .ok record)] ∧
        (∀ later, ¬(plan.firstValue query context).ComesTo world (.ok record) later) ∧
        (plan.firstValue query context).ComesTo world (.ok .null) run.world := by
  intro outer context record world query
  refine ⟨_, rfl, rfl, by cbv, ?_, by cbv⟩
  intro later
  cbv
  simp [record]

end Select

end StreamQuery
