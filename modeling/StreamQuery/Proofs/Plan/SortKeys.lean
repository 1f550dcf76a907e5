import StreamQuery.Proofs.Plan.GroupConditions
import StreamQuery.Proofs.Plan.LimitedRows
import StreamQuery.Proofs.Value.Fields
namespace StreamQuery

/-! The keys that rows are sorted by. They are worked out over the projected columns laid over the
row, and an expression that refers to none of the columns has the value that it has on the row
itself. -/

/-! Keys of a row that a reference asks for. -/

namespace Path

/-- The whole path, and what stands in front of its first dot. -/
def keys (path : String) : List String :=
  [path, String.ofList ((segments path.toList).headD [])]

end Path

theorem Value.getPath?_congr_keys {value other : Value} {path : String}
    (same : ∀ key ∈ Path.keys path, value.field? key = other.field? key) :
    value.getPath? path = other.getPath? path := by
  have joined := Path.join_segments path.toList
  rw [String.ofList_toList] at joined
  have whole := same path (.head _)
  have first := same _ (.tail _ (.head _))
  simp only [getPath?]
  cases segments : Path.segments path.toList with
  | nil => rfl
  | cons head rest =>
      rw [segments] at joined first
      simp only [List.headD_cons] at first
      simp only [getSegments?, joined, whole, first]

/-- Behind the qualifiers for the row, which are its label and `this`, the name alone counts. -/
def ColumnRef.keys (label : Option String) (reference : ColumnRef) : List String :=
  match reference.table with
  | none => Path.keys reference.name
  | some table =>
      if table == "this" then Path.keys reference.name
      else if label == some table then table :: Path.keys reference.name
      else table :: Path.keys (table ++ "." ++ reference.name)

def ColumnRef.this : ColumnRef := ⟨none, "this"⟩

theorem Context.resolve_congr {context other : Context} {reference : ColumnRef}
    (label : context.label = other.label) (part : reference ≠ .this)
    (same : ∀ key ∈ reference.keys context.label,
      context.row.field? key = other.row.field? key) :
    context.resolve reference = other.resolve reference := by
  rcases reference with ⟨_ | table, name⟩
  · have inside : (name == "this") = false := by
      apply Bool.eq_false_iff.mpr
      intro whole
      rw [beq_iff_eq.mp whole] at part
      exact part rfl
    simp only [resolve, findColumn?, inside, Bool.false_eq_true, if_false]
    rw [Value.getPath?_congr_keys same]
  · simp only [ColumnRef.keys] at same
    simp only [resolve, findColumn?, ← label]
    split at same
    · next itself => rw [if_pos itself, if_pos itself, Value.getPath?_congr_keys same]
    · next named =>
        -- A joined record of that name goes first, and both rows have the same one.
        rw [if_neg named, if_neg named]
        split at same
        · next own =>
            have path := Value.getPath?_congr_keys fun key member => same key (.tail _ member)
            simp only [same table (.head _), own, if_true, path]
        · next foreign =>
            have path := Value.getPath?_congr_keys fun key member => same key (.tail _ member)
            simp only [same table (.head _), foreign, Bool.false_eq_true, if_false, path]

/-! A row with projected columns laid over it. -/

namespace Record

variable {record : Record} {key : String}

theorem insert_of_mem (ascending : record.Ascending) {value : Value}
    (member : (key, value) ∈ record) : record.insert key value = record := by
  induction record with
  | nil => cases member
  | cons field rest induction =>
      have parts := List.pairwise_cons.mp ascending
      rw [insert]
      rcases List.mem_cons.mp member with rfl | later
      · exact if_pos rfl
      · have behind : field.1 < key := parts.1 key (List.mem_map_of_mem later)
        rw [if_neg (String.ne_of_lt behind).symm, if_neg (String.lt_asymm behind),
          induction parts.2 later]

theorem merge_of_subset {other : Record} (ascending : record.Ascending)
    (within : ∀ field ∈ other, field ∈ record) : record.merge other = record := by
  induction other with
  | nil => rfl
  | cons field rest induction =>
      have parts := List.forall_mem_cons.mp within
      rw [merge, List.foldr_cons]
      change (record.merge rest).insert field.1 field.2 = record
      rw [induction parts.2]
      exact insert_of_mem ascending parts.1

theorem get?_foldl_merge_shared {found : Option Value} {parts : List Record}
    (first : record.get? key = none ∨ record.get? key = found)
    (others : ∀ part ∈ parts, part.get? key = none ∨ part.get? key = found) :
    (parts.foldl merge record).get? key = none ∨ (parts.foldl merge record).get? key = found := by
  rw [get?_foldl_merge]
  cases last : (parts.filterMap fun part => part.get? key).getLast? with
  | none => exact first
  | some value =>
      rcases List.mem_filterMap.mp (List.mem_of_getLast? last) with ⟨part, among, present⟩
      rcases others part among with nothing | shared
      · cases present.symm.trans nothing
      · exact .inr (present.symm.trans shared)

end Record

def Value.Ascending : Value → Prop
  | .record fields => Record.Ascending fields
  | _ => True

theorem Value.overlay_self {row : Value} (ascending : row.Ascending) : row.overlay row = row := by
  cases row with
  | record fields => exact congrArg Value.record (Record.merge_of_subset ascending fun _ => id)
  | _ => rfl

/-! Names of output columns. -/

def Column.name? : Column → Option String
  | .wildcard => none
  | .named name _ => some name

def SelectItem.name? : SelectItem → Option String
  | .wildcard => none
  | .expression value label => some (label.getD value.text)

theorem SelectItem.names_of_columns {metadata : Metadata} (items : List SelectItem) :
    Ensures (columns metadata items) fun columns =>
      columns.filterMap Column.name? = items.filterMap name? := by
  induction items with
  | nil => exact ensures_ok rfl
  | cons item rest induction =>
      cases item with
      | wildcard => exact induction.bind fun _ same => ensures_ok same
      | expression value label =>
          exact (ensures_true _).bind fun mapper _ => induction.bind fun columns same =>
            ensures_ok (congrArg (label.getD value.text :: ·) same)

namespace Projection

variable {projection : Projection} {context : Context} {projected : Value} {key : String}

theorem get?_fields {column : Column} {part : Record}
    (gives : (column.fields context).Gives (fun _ => True) (.ok part))
    (other : column.name? ≠ some key) :
    part.get? key = none ∨ part.get? key = context.row.field? key := by
  cases column with
  | wildcard =>
      cases Except.ok.inj gives.of_ok
      rw [Value.field?]
      cases context.row.toRecord? with
      | none => exact .inl rfl
      | some fields => exact .inr rfl
  | named name mapper =>
      rcases gives.of_map with ⟨value | value, _, same⟩ <;> cases same
      have different : name ≠ key := fun same => other (congrArg some same)
      exact .inl (if_neg different)

theorem get?_parts {columns : List Column} {parts : List Record}
    (each : List.Forall₂ (fun column part => (Column.fields context column).Gives (fun _ => True)
      (.ok part)) columns parts) (other : ∀ column ∈ columns, column.name? ≠ some key) :
    ∀ part ∈ parts, Record.get? part key = none ∨ part.get? key = context.row.field? key := by
  induction each with
  | nil => exact nofun
  | cons gives _ induction =>
      have names := List.forall_mem_cons.mp other
      exact List.forall_mem_cons.mpr ⟨get?_fields gives names.1, induction names.2⟩

/-- Under a key that is no name of a column the row shows through. -/
theorem field?_overlay_other
    (gives : (projection.apply context).Gives (fun _ => True) (.ok projected))
    (other : key ∉ projection.columns.filterMap Column.name?) :
    (context.row.overlay projected).field? key = context.row.field? key := by
  cases selects : projection.passesThrough with
  | true =>
      simp only [apply, selects, if_true] at gives
      cases Except.ok.inj gives.of_ok
      exact field?_overlay_self context.row key
  | false =>
      simp only [apply, selects, Bool.false_eq_true, if_false] at gives
      rcases gives.of_map with ⟨parts | parts, gathered, same⟩ <;> cases same
      have names : ∀ column ∈ projection.columns, column.name? ≠ some key := by
        intro column among same
        exact other (List.mem_filterMap.mpr ⟨column, among, same⟩)
      have each := get?_parts (List.forall₂_map_left_iff.mp gathered.of_all) names
      rw [Value.field?_overlay]
      have none_yet : Record.empty.get? key = none := rfl
      rcases Record.get?_foldl_merge_shared (.inl none_yet) each with nothing | found
      · rw [nothing, Option.none_or]
        rfl
      · rw [found]
        exact Option.or_self

end Projection

/-! Expressions that see the row alone. -/

/-- Contexts in which the references that count are resolved alike, also as to the finished
aggregates. The same comes of evaluations in both, as where columns are told by their names. -/
def Likeness.ofReferences (counts : ColumnRef → Prop) : Likeness :=
  { Likeness.ofColumns fun _ => True with
    contexts := fun context other => context.wallClock = other.wallClock ∧
      context.aggregates = other.aggregates ∧
      ∀ reference, counts reference → context.resolve reference = other.resolve reference
    reading := fun alike _ => congrArg _ (funext fun now => by rw [alike.1]) }

theorem Metadata.respects_ofReferences (metadata : Metadata) (counts : ColumnRef → Prop) :
    metadata.Respects (.ofReferences counts) :=
  fun _ _ _ _ _ alike => alike.2.1

/-- The reference finds the same in the row and in the row with projected columns over it: it asks
for none of them, and not for the row as a whole, unless that is what the select list shows. -/
def ColumnRef.SeesRow (items : List SelectItem) (label : Option String) (reference : ColumnRef) :
    Prop :=
  Projection.passes items ∨
    reference ≠ .this ∧ ∀ key ∈ reference.keys label, key ∉ items.filterMap SelectItem.name?

/-- There is no select in the expression, and its references see the row. -/
def Expr.SeesRow (items : List SelectItem) (label : Option String) (expr : Expr) : Prop :=
  expr.All fun part =>
    match part with
    | .column reference => reference.SeesRow items label
    | .subselect _ => False
    | _ => True

namespace Expr

variable {items : List SelectItem} {label : Option String} {expr : Expr}

theorem SeesRow.selectless (sees : expr.SeesRow items label) : expr.Selectless := by
  apply All.imp sees
  rintro _ holds query rfl
  exact holds

theorem SeesRow.compile_respects (sees : expr.SeesRow items label) (metadata : Metadata) :
    (expr.compile metadata).Respects (.ofReferences (ColumnRef.SeesRow items label)) := by
  apply All.compile_respects (metadata.respects_ofReferences _)
  apply All.imp sees
  intro part holds
  cases part with
  | column reference =>
      intro context other alike
      exact congrArg Evaluation.ok (alike.2.2 reference holds)
  | subselect query => exact holds
  | _ => trivial

end Expr

/-! Statements. -/

theorem exists_getElem?_of_forall₂ {relation : α → β → Prop} {parts : List α} {others : List β}
    (each : List.Forall₂ relation parts others) {position : Nat} {part : α}
    (found : parts[position]? = some part) :
    ∃ other, others[position]? = some other ∧ relation part other := by
  induction each generalizing position with
  | nil => cases found
  | cons first _ induction =>
      cases position with
      | zero =>
          cases found
          exact ⟨_, rfl, first⟩
      | succ position => exact induction found

theorem Evaluation.AtOnce.run_eq {free : Prop} {evaluation : Evaluation α} {now : Nat}
    {result : Except QueryError α} {answers : Except QueryError Script → Prop}
    (atOnce : evaluation.AtOnce free) (gives : (evaluation.run now).Gives answers result) :
    evaluation.run now = .done result := by
  rcases atOnce.run now with ⟨value, done⟩
  rw [done now (.refl free now)] at gives ⊢
  rw [gives.of_done]

namespace Pipeline

/-- The mapper is worked out as on the row itself, wherever the projected columns are laid over it,
and its value there is the key that the row gets at the position. What goes by the clock has its
value at the instant at which the keys are asked for. -/
structure KeysByRow (pipeline : Pipeline) (position : Nat) (mapper : Mapper) (context : Context) :
    Prop where
  view : ∀ projected, (pipeline.projection.apply context).Gives (fun _ => True) (.ok projected) →
    mapper (pipeline.view context projected) = mapper context
  key : ∀ before after shaped, (pipeline.shape context).ComesTo before (.ok (some shaped)) after →
    ∃ instant key, before.now ≤ instant ∧ instant ≤ after.now ∧
      (mapper context).run instant = .done (.ok key) ∧ shaped.keys[position]? = some key

variable {pipeline : Pipeline} {context : Context} {items : List SelectItem} {projected : Value}

theorem view_alike (passes : pipeline.projection.passesThrough = Projection.passes items)
    (names : pipeline.projection.columns.filterMap Column.name? = items.filterMap SelectItem.name?)
    (ascending : context.row.Ascending)
    (gives : (pipeline.projection.apply context).Gives (fun _ => True) (.ok projected)) :
    (Likeness.ofReferences (ColumnRef.SeesRow items context.label)).contexts
      (pipeline.view context projected) context := by
  rw [view]
  split
  · refine ⟨rfl, rfl, ?_⟩
    rintro reference (itself | ⟨part, others⟩)
    · -- A row that is passed through lies over itself.
      simp only [Projection.apply, passes, itself, if_true] at gives
      cases Except.ok.inj gives.of_ok
      rw [Value.overlay_self ascending]
      rfl
    · have label : (context.withRow (context.row.overlay projected)).label = context.label := rfl
      apply Context.resolve_congr label part
      intro key asked
      apply Projection.field?_overlay_other gives
      rw [names]
      exact others key asked
  · exact ⟨rfl, rfl, fun _ _ => rfl⟩

/-- A row comes with the values that the sort expressions have in its view, all of them asked for at
one instant. -/
theorem gives_of_shape {shaped : Shaped} {before after : World}
    (comes : (pipeline.shape context).ComesTo before (.ok (some shaped)) after) :
    (pipeline.projection.apply context).Gives (fun _ => True) (.ok shaped.row) ∧
      ∃ instant, before.now ≤ instant ∧ instant ≤ after.now ∧
        List.Forall₂ (fun mapper key =>
          ((mapper (pipeline.view context shaped.row)).run instant).Gives (fun _ => True) (.ok key))
          pipeline.orderKeys shaped.keys := by
  rcases Evaluation.comesTo_andThen.mp comes with ⟨row, between, applied, comes⟩
  rcases Evaluation.comesTo_andThen.mp comes with ⟨kept, asked, tested, comes⟩
  cases kept with
  | false => cases (Evaluation.comesTo_ok.mp comes).1
  | true =>
      rcases Evaluation.comesTo_map.mp comes with ⟨keys, evaluated, same⟩
      cases same
      have each := Evaluation.gives_run_all (Task.gives_of_run evaluated)
      exact ⟨applied.gives, asked.now, Nat.le_trans applied.now_le tested.now_le, evaluated.now_le,
        List.forall₂_map_left_iff.mp each⟩

theorem keysByRow (passes : pipeline.projection.passesThrough = Projection.passes items)
    (names : pipeline.projection.columns.filterMap Column.name? = items.filterMap SelectItem.name?)
    (ascending : context.row.Ascending) {expr : Expr} (sees : expr.SeesRow items context.label)
    {metadata : Metadata} {mapper : Mapper} {position : Nat}
    (compiles : (expr.compile metadata).value.get = .ok mapper)
    (sorts : pipeline.orderKeys[position]? = some mapper) :
    pipeline.KeysByRow position mapper context := by
  have view : ∀ projected,
      (pipeline.projection.apply context).Gives (fun _ => True) (.ok projected) →
      mapper (pipeline.view context projected) = mapper context := by
    intro projected gives
    apply (sees.compile_respects metadata).value mapper compiles
    exact view_alike passes names ascending gives
  refine ⟨view, ?_⟩
  intro before after shaped comes
  rcases gives_of_shape comes with ⟨gives, instant, sinceBefore, untilAfter, each⟩
  rcases exists_getElem?_of_forall₂ each sorts with ⟨key, present, evaluated⟩
  rw [view shaped.row gives] at evaluated
  have atOnce : (mapper context).AtOnce False :=
    (sees.selectless.compile_respects metadata).value mapper compiles ⟨rfl, False.elim⟩
  exact ⟨instant, key, sinceBefore, untilAfter, atOnce.run_eq evaluated, present⟩

end Pipeline

namespace Select

theorem ensures_clauses_ungrouped (metadata : Metadata) (query : Select) :
    Ensures (query.clauses metadata) fun pipeline => pipeline.grouping = none →
      pipeline.projection.passesThrough = Projection.passes query.items ∧
      SelectItem.columns metadata query.items = .ok pipeline.projection.columns ∧
      SortClause.keys metadata query.orderBy = .ok pipeline.orderKeys := by
  simp only [clauses]
  refine (ensures_true _).bind fun set _ => (ensures_true _).bind fun clause _ => ?_
  cases grouped : !query.groupBy.isEmpty || query.having.isSome || !set.isEmpty with
  | true =>
      refine (ensures_true _).bind fun _ _ => (ensures_true _).bind fun _ _ =>
        (ensures_true _).bind fun _ _ => ensures_ok ?_
      intro ungrouped
      cases ungrouped
  | false =>
      exact (ensures_self _).bind fun columns listed => (ensures_true _).bind fun _ _ =>
        (ensures_self _).bind fun keys sorted => ensures_ok fun _ => ⟨rfl, listed, sorted⟩

theorem ensures_stages (metadata : Metadata) (query : Select) :
    Ensures (compile metadata query) fun plan => ∃ pipeline source filter,
      query.clauses metadata = .ok pipeline ∧
        plan.rows = { pipeline with source := source, filter := filter }.rows ∧
        plan.grouped = pipeline.grouping.isSome := by
  rw [compile_eq]
  refine (ensures_true _).bind fun source _ => (ensures_true _).bind fun filter _ =>
    (ensures_self _).bind fun pipeline same => ensures_ok ?_
  exact ⟨pipeline, source, filter, same, rfl, rfl⟩

/-- The key of a row for a sort expression that sees the row alone is the value that the expression
has on the row itself. -/
theorem sort_keys_of_row {metadata : Metadata} {query : Select} {plan : Plan}
    (compiles : compile metadata query = .ok plan) (ungrouped : plan.grouped = false) :
    ∃ pipeline source filter, query.clauses metadata = .ok pipeline ∧
      plan.rows = { pipeline with source := source, filter := filter }.rows ∧
      pipeline.grouping = none ∧
      ∀ (position : Nat) (clause : SortClause), query.orderBy[position]? = some clause →
        ∃ mapper, (clause.key.compile metadata).value.get = .ok mapper ∧
          ∀ context : Context, context.row.Ascending →
            clause.key.SeesRow query.items context.label →
            pipeline.KeysByRow position mapper context := by
  rcases ensures_stages metadata query plan compiles with
    ⟨pipeline, source, filter, stages, rows, grouped⟩
  have grouping : pipeline.grouping = none := by
    apply Option.isNone_iff_eq_none.mp
    apply Option.isSome_eq_false_iff.mp
    exact grouped.symm.trans ungrouped
  refine ⟨pipeline, source, filter, stages, rows, grouping, ?_⟩
  rcases ensures_clauses_ungrouped metadata query pipeline stages grouping with
    ⟨passes, listed, sorted⟩
  intro position clause found
  rw [SortClause.keys_eq] at sorted
  rcases exists_getElem?_of_forall₂ (forall₂_of_mapM_ok sorted) found with
    ⟨mapper, sorts, reads⟩
  refine ⟨mapper, reads, ?_⟩
  intro context ascending sees
  have names := SelectItem.names_of_columns query.items pipeline.projection.columns listed
  exact Pipeline.keysByRow passes names ascending sees reads sorts

/-- `SELECT items FROM t ORDER BY keys` -/
def sortedOfT (items : List SelectItem) (keys : List Expr) : Select :=
  ⟨false, items, some (.table "t" none), [], none, [], none, keys.map (⟨·, false⟩), none⟩

/-- `SELECT *, -a AS b FROM t ORDER BY t.a + c.d` -/
theorem sort_keys_of_row_paths :
    let metadata := Metadata.ofSettings .default
    let key : Expr := .binary (.named "+") (.column ⟨some "t", "a"⟩) (.column ⟨some "c", "d"⟩)
    let query := sortedOfT
      [.wildcard, .expression (.signed .minus (.column ⟨none, "a"⟩)) (some "b")] [key]
    let row : Value :=
      .record [("a", .int64 1), ("b", .int64 5), ("c", .record [("d", .int64 7)])]
    let context : Context := ⟨row, some "t", [], .default, .still 0⟩
    let world := World.start (.named [] [])
    let shaped : Shaped :=
      ⟨.record [("a", .int64 1), ("b", .int64 (-1)), ("c", .record [("d", .int64 7)])], [.int64 8]⟩
    row.Ascending ∧ key.SeesRow query.items (some "t") ∧
      ∃ plan pipeline mapper, compile metadata query = .ok plan ∧ plan.grouped = false ∧
        query.clauses metadata = .ok pipeline ∧
        (pipeline.shape context).ComesTo world (.ok (some shaped)) world ∧
        (key.compile metadata).value.get = .ok mapper ∧
        (mapper context).run 0 = .done (.ok (.int64 8)) := by
  intro metadata key query row context world shaped
  have ascending : row.Ascending := by
    change ["a", "b", "c"].Pairwise (· < ·)
    decide +kernel
  have sees : key.SeesRow query.items (some "t") := by
    refine .intro trivial (List.forall_mem_cons.mpr ⟨?_, List.forall_mem_singleton.mpr ?_⟩)
    · exact .intro (.inr ⟨by decide, by decide +kernel⟩) nofun
    · exact .intro (.inr ⟨by decide, by decide +kernel⟩) nofun
  have shapes : (query.clauses metadata).map
      (fun pipeline => ((pipeline.shape context).run world.now).run world) =
        .ok (some (.ok (some shaped)), world) := by
    rfl
  rcases exists_of_map_ok shapes with ⟨pipeline, stages, comes⟩
  rcases @sort_keys_of_row metadata query _ rfl rfl with ⟨_, _, _, same, _, _, keys⟩
  cases Except.ok.inj (stages.symm.trans same)
  rcases keys 0 ⟨key, false⟩ rfl with ⟨mapper, reads, onRow⟩
  have keyed := onRow context ascending sees
  rcases keyed.key world world shaped comes with ⟨instant, value, _, untilNow, evaluated, same⟩
  cases same
  obtain rfl : instant = 0 := Nat.le_zero.mp untilNow
  exact ⟨ascending, sees, _, pipeline, mapper, rfl, rfl, stages, comes, reads, evaluated⟩

/-- `SELECT -this AS v FROM t ORDER BY this`, and `SELECT -a AS x FROM t ORDER BY t.x, this.x`. None
of the references is the name of an output column, neither as a whole nor in front of its dot, and
the rows have other keys than the values on them. -/
theorem sort_keys_of_row_fails :
    let metadata := Metadata.ofSettings .default
    let world := World.start (.named [] [])
    let negated (value : ColumnRef) (label : String) : List SelectItem :=
      [.expression (.signed .minus (.column value)) (some label)]
    let keyedBy (query : Select) (context : Context) (shaped : Shaped) : Prop :=
      ∃ plan pipeline, compile metadata query = .ok plan ∧ plan.grouped = false ∧
        query.clauses metadata = .ok pipeline ∧
        (pipeline.shape context).ComesTo world (.ok (some shaped)) world
    let number : Context := ⟨.int64 1, some "t", [], .default, .still 0⟩
    let record : Context :=
      ⟨.record [("a", .int64 1), ("x", .int64 1)], some "t", [], .default, .still 0⟩
    ("this" ∉ (negated .this "v").filterMap SelectItem.name? ∧
      Mapper.column .this number = .ok (.int64 1) ∧
      keyedBy (sortedOfT (negated .this "v") [.column .this]) number
        ⟨.record [("v", .int64 (-1))], [.record [("v", .int64 (-1))]]⟩) ∧
    ((∀ key ∈ ["t", "t.x", "this", "this.x"],
        key ∉ (negated ⟨none, "a"⟩ "x").filterMap SelectItem.name?) ∧
      Mapper.column ⟨some "t", "x"⟩ record = .ok (.int64 1) ∧
      Mapper.column ⟨some "this", "x"⟩ record = .ok (.int64 1) ∧
      keyedBy (sortedOfT (negated ⟨none, "a"⟩ "x")
        [.column ⟨some "t", "x"⟩, .column ⟨some "this", "x"⟩]) record
        ⟨.record [("x", .int64 (-1))], [.int64 (-1), .int64 (-1)]⟩) := by
  intro metadata world negated keyedBy number record
  refine ⟨⟨by decide, rfl, ?_⟩, by decide, rfl, rfl, ?_⟩
  · exact ⟨_, _, rfl, rfl, rfl, rfl⟩
  · exact ⟨_, _, rfl, rfl, rfl, rfl⟩

end Select

end StreamQuery
