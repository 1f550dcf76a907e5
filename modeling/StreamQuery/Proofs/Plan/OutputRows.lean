import StreamQuery.Proofs.Plan.SortKeys
import StreamQuery.Proofs.Stream.Composition
namespace StreamQuery

/-! Output rows. The items of a select list put their fields into the row one after the other, so
what the last of them puts under a name is found there. The values of the expressions are worked out
apart, and each goes to its own item, wherever stars stand between them. -/

namespace Record

theorem get?_isSome_iff {record : Record} {key : String} :
    (record.get? key).isSome ↔ key ∈ record.keys := by
  induction record with
  | nil => simp [get?, keys]
  | cons field rest induction =>
      simp only [keys] at induction
      by_cases same : field.1 = key
      · simp [get?, keys, same]
      · simp [get?, keys, same, induction, Ne.symm same]

theorem Ascending.merge {record : Record} (ascending : record.Ascending) (other : Record) :
    (record.merge other).Ascending := by
  induction other with
  | nil => exact ascending
  | cons field rest induction => exact induction.insert field.1 field.2

theorem Ascending.foldl_merge {record : Record} (ascending : record.Ascending)
    (parts : List Record) : (parts.foldl Record.merge record).Ascending := by
  induction parts generalizing record with
  | nil => exact ascending
  | cons part parts induction => exact induction (ascending.merge part)

end Record

/-! Items and the columns that they are compiled to. -/

def Column.mapper? : Column → Option Mapper
  | .wildcard => none
  | .named _ mapper => some mapper

namespace SelectItem

def expression? : SelectItem → Option Expr
  | .wildcard => none
  | .expression value _ => some value

def expressions (items : List SelectItem) : List Expr :=
  items.filterMap expression?

/-- What the item puts into the row: a star the fields that the row has, and every other item the
next of the values, under its name. -/
def part (row : Value) (values : List Value) : SelectItem → Record
  | .wildcard => row.toRecord?.getD Record.empty
  | .expression value label => [(label.getD value.text, values.headD .null)]

def remaining (values : List Value) : SelectItem → List Value
  | .wildcard => values
  | .expression _ _ => values.tail

def parts (row : Value) : List SelectItem → List Value → List Record
  | [], _ => []
  | item :: items, values => item.part row values :: parts row items (item.remaining values)

theorem mappers_of_columns {metadata : Metadata} {items : List SelectItem} {columns : List Column}
    (compiled : List.Forall₂ (fun item column => item.column metadata = .ok column) items columns) :
    (expressions items).mapM (fun value => (value.compile metadata).value.get) =
      .ok (columns.filterMap Column.mapper?) := by
  induction compiled with
  | nil => rfl
  | @cons item column items columns first _ induction =>
      cases item with
      | wildcard =>
          cases first
          exact induction
      | expression value label =>
          rcases exists_of_map_ok first with ⟨mapper, reads, rfl⟩
          change (value :: expressions items).mapM _ = _
          rw [List.mapM_cons, reads, induction]
          rfl

/-- It is the same to work out every item for itself, and to work out the expressions and deal
their values out. -/
theorem all_fields_eq {metadata : Metadata} {items : List SelectItem} {columns : List Column}
    (compiled : List.Forall₂ (fun item column => item.column metadata = .ok column) items columns)
    (context : Context) : Evaluation.all (columns.map (Column.fields context)) =
      (Mapper.all (columns.filterMap Column.mapper?) context).map (parts context.row items) := by
  induction compiled with
  | nil => rfl
  | @cons item column items columns first _ induction =>
      rw [List.map_cons, Evaluation.all, induction]
      cases item with
      | wildcard =>
          cases first
          rw [Column.fields, Evaluation.ok_both, Evaluation.map_map, Evaluation.map_map]
          rfl
      | expression value label =>
          rcases exists_of_map_ok first with ⟨mapper, _, rfl⟩
          -- The next value goes to this item, and the others to the items behind.
          rw [Column.fields, Evaluation.both_map, Evaluation.map_map]
          change _ = (Evaluation.map _ (Evaluation.both _ _)).map _
          rw [Evaluation.map_map]
          rfl

/-! The last item that provides a field. -/

def Provides (row : Value) (key : String) : SelectItem → Prop
  | .wildcard => (row.field? key).isSome
  | .expression value label => label.getD value.text = key

instance (row : Value) (key : String) : (item : SelectItem) → Decidable (item.Provides row key)
  | .wildcard => inferInstanceAs (Decidable ((row.field? key).isSome = true))
  | .expression value label => inferInstanceAs (Decidable (label.getD value.text = key))

/-- What an item that provides the field puts there, if so many expressions stand in front of it. -/
def given? (row : Value) (values : List Value) (position : Nat) (key : String) :
    SelectItem → Option Value
  | .wildcard => row.field? key
  | .expression _ _ => values[position]?

/-- The last item that provides the field gives the value. -/
def LastGives (row : Value) (items : List SelectItem) (values : List Value) (key : String)
    (value : Value) : Prop :=
  ∃ before item after, items = before ++ item :: after ∧ item.Provides row key ∧
    (∀ other ∈ after, ¬other.Provides row key) ∧
    item.given? row values (expressions before).length key = some value

variable {row : Value} {items before after : List SelectItem} {item : SelectItem}
  {values : List Value} {key : String}

theorem parts_append : parts row (before ++ after) values =
    parts row before values ++ parts row after (values.drop (expressions before).length) := by
  induction before generalizing values with
  | nil => rfl
  | cons item before induction =>
      have next : (item.remaining values).drop (expressions before).length =
          values.drop (expressions (item :: before)).length := by
        cases item with
        | wildcard => rfl
        | expression value label => exact List.drop_tail
      rw [List.cons_append, parts, induction, next]
      rfl

theorem isSome_get?_part :
    ((item.part row values).get? key).isSome ↔ item.Provides row key := by
  cases item with
  | wildcard =>
      rw [part, Provides, Value.field?]
      cases row.toRecord? <;> rfl
  | expression value label =>
      by_cases named : label.getD value.text = key
      · simp [part, Provides, Record.get?, named]
      · simp [part, Provides, Record.get?, named]

theorem get?_part_of_provides (provides : item.Provides row key)
    (enough : (expressions [item]).length ≤ values.length) :
    (item.part row values).get? key = item.given? row values 0 key := by
  cases item with
  | wildcard =>
      rw [part, given?, Value.field?]
      cases row.toRecord? <;> rfl
  | expression value label =>
      cases values with
      | nil => cases enough
      | cons next values => exact if_pos provides

theorem isSome_get?_parts :
    (∃ part ∈ parts row items values, (part.get? key).isSome) ↔
      ∃ item ∈ items, item.Provides row key := by
  induction items generalizing values with
  | nil => simp only [parts, List.not_mem_nil, false_and, exists_false]
  | cons item items induction =>
      simp only [parts, List.mem_cons, exists_eq_or_imp, isSome_get?_part, induction]

theorem get?_parts_of_none (others : ∀ item ∈ items, ¬item.Provides row key) :
    (parts row items values).filterMap (fun part => part.get? key) = [] := by
  apply List.filterMap_eq_nil_iff.mpr
  intro part among
  apply Option.not_isSome_iff_eq_none.mp
  intro present
  rcases isSome_get?_parts.mp ⟨part, among, present⟩ with ⟨item, member, provides⟩
  exact others item member provides

theorem given?_drop {position : Nat} :
    item.given? row (values.drop position) 0 key = item.given? row values position key := by
  cases item with
  | wildcard => rfl
  | expression value label => exact List.getElem?_drop

theorem get?_merged_of_last (provides : item.Provides row key)
    (others : ∀ other ∈ after, ¬other.Provides row key)
    (enough : (expressions (before ++ item :: after)).length ≤ values.length) :
    ((parts row (before ++ item :: after) values).foldl Record.merge Record.empty).get? key =
      item.given? row values (expressions before).length key := by
  have here : (expressions [item]).length ≤ (values.drop (expressions before).length).length := by
    rw [List.append_cons, expressions, List.filterMap_append, List.filterMap_append,
      List.length_append, List.length_append] at enough
    rw [List.length_drop]
    simp only [expressions]
    omega
  have given := (get?_part_of_provides provides here).trans given?_drop
  rcases Option.isSome_iff_exists.mp (isSome_get?_part.mpr provides) with ⟨value, present⟩
  -- Of all parts that have the key, that of the item is the last.
  rw [Record.get?_foldl_merge, parts_append, parts, List.filterMap_append, List.filterMap_cons,
    present, get?_parts_of_none others, List.getLast?_concat, ← given, present]
  rfl

theorem exists_last_of_provides (provided : ∃ item ∈ items, item.Provides row key) :
    ∃ before item after, items = before ++ item :: after ∧ item.Provides row key ∧
      ∀ other ∈ after, ¬other.Provides row key := by
  induction items with
  | nil =>
      rcases provided with ⟨_, member, _⟩
      cases member
  | cons first items induction =>
      by_cases later : ∃ item ∈ items, item.Provides row key
      · rcases induction later with ⟨before, item, after, rfl, last⟩
        exact ⟨first :: before, item, after, rfl, last⟩
      · rcases provided with ⟨item, member, provides⟩
        rcases List.mem_cons.mp member with rfl | member
        · refine ⟨[], item, items, rfl, provides, ?_⟩
          intro other among found
          exact later ⟨other, among, found⟩
        · exact absurd ⟨item, member, provides⟩ later

theorem get?_merged_iff {value : Value} (enough : (expressions items).length ≤ values.length) :
    ((parts row items values).foldl Record.merge Record.empty).get? key = some value ↔
      LastGives row items values key value := by
  constructor
  · intro found
    have present : ∃ part ∈ parts row items values, (part.get? key).isSome := by
      apply Or.resolve_left (Record.isSome_get?_foldl_merge.mp (Option.isSome_of_eq_some found))
      exact Bool.false_ne_true
    rcases exists_last_of_provides (isSome_get?_parts.mp present) with
      ⟨before, item, after, rfl, provides, others⟩
    refine ⟨before, item, after, rfl, provides, others, ?_⟩
    exact (get?_merged_of_last provides others enough).symm.trans found
  · rintro ⟨before, item, after, rfl, provides, others, gives⟩
    exact (get?_merged_of_last provides others enough).trans gives

theorem exists_provides_iff : (∃ item ∈ items, item.Provides row key) ↔
    key ∈ items.filterMap name? ∨
      .wildcard ∈ items ∧ ∃ fields, row = .record fields ∧ key ∈ Record.keys fields := by
  have own : (row.field? key).isSome ↔
      ∃ fields, row = .record fields ∧ key ∈ Record.keys fields := by
    cases row with
    | record fields => simp [Value.field?, Value.toRecord?, Record.get?_isSome_iff]
    | _ => simp [Value.field?, Value.toRecord?]
  rw [← own, List.mem_filterMap]
  constructor
  · rintro ⟨item, member, provides⟩
    cases item with
    | wildcard => exact .inr ⟨member, provides⟩
    | expression value label => exact .inl ⟨_, member, congrArg some provides⟩
  · rintro (⟨item, member, named⟩ | ⟨member, provides⟩)
    · cases item with
      | wildcard => cases named
      | expression value label => exact ⟨_, member, Option.some.inj named⟩
    · exact ⟨.wildcard, member, provides⟩

end SelectItem

namespace Projection

theorem apply_eq {metadata : Metadata} {items : List SelectItem} {columns : List Column}
    (compiled : List.Forall₂ (fun item column => item.column metadata = .ok column) items columns)
    (selects : passes items = false) (context : Context) :
    apply ⟨passes items, columns⟩ context =
      (Mapper.all (columns.filterMap Column.mapper?) context).map fun values =>
        .record ((SelectItem.parts context.row items values).foldl Record.merge Record.empty) := by
  rw [apply, selects, SelectItem.all_fields_eq compiled, Evaluation.map_map]
  rfl

/-- The projected record has the fields that the items of the select list provide, and under every
name what the last of them gives. -/
theorem last_provider_counts {metadata : Metadata} {items : List SelectItem}
    {columns : List Column} (compiles : SelectItem.columns metadata items = .ok columns)
    (selects : passes items = false) :
    ∃ mappers, (SelectItem.expressions items).mapM
        (fun value => (value.compile metadata).value.get) = .ok mappers ∧
      ∀ (context : Context) (world later : World) (values : List Value),
        (Mapper.all mappers context).ComesTo world (.ok values) later →
          ∃ record : Record,
            (apply ⟨passes items, columns⟩ context).ComesTo world (.ok (.record record)) later ∧
            record.Ascending ∧
            (∀ key, key ∈ record.keys ↔ key ∈ items.filterMap SelectItem.name? ∨
              .wildcard ∈ items ∧
                ∃ fields, context.row = .record fields ∧ key ∈ Record.keys fields) ∧
            ∀ key value, record.get? key = some value ↔
              SelectItem.LastGives context.row items values key value := by
  rw [SelectItem.columns_eq] at compiles
  have compiled := forall₂_of_mapM_ok compiles
  have reads := SelectItem.mappers_of_columns compiled
  refine ⟨columns.filterMap Column.mapper?, reads, ?_⟩
  intro context world later values evaluated
  have count : values.length = (SelectItem.expressions items).length := by
    rw [evaluated.gives.length_of_all, List.length_map]
    exact (forall₂_of_mapM_ok reads).length_eq.symm
  let record := (SelectItem.parts context.row items values).foldl Record.merge Record.empty
  refine ⟨record, ?_, ?_, ?_, ?_⟩
  · rw [apply_eq compiled selects]
    exact Evaluation.comesTo_map.mpr ⟨values, evaluated, rfl⟩
  · have empty : Record.Ascending Record.empty := List.Pairwise.nil
    exact empty.foldl_merge _
  · intro key
    rw [← Record.get?_isSome_iff, Record.isSome_get?_foldl_merge,
      SelectItem.isSome_get?_parts, SelectItem.exists_provides_iff]
    exact or_iff_right Bool.false_ne_true
  · intro key value
    exact SelectItem.get?_merged_iff (Nat.le_of_eq count.symm)

/-- `SELECT -a AS a, *, 7 AS b, *, -b AS c, 8 AS b` of `{a: 1, b: 2}`: the second star takes both
fields back, and the last item goes over one of them again. -/
theorem last_provider_counts_stars :
    let metadata := Metadata.ofSettings .default
    let negated (name : String) : Expr := .signed .minus (.column ⟨none, name⟩)
    let number (value : Int64) : Expr := .literal (.integer value)
    let items : List SelectItem :=
      [.expression (negated "a") (some "a"), .wildcard, .expression (number 7) (some "b"),
        .wildcard, .expression (negated "b") (some "c"), .expression (number 8) (some "b")]
    let row : Value := .record [("a", .int64 1), ("b", .int64 2)]
    let context : Context := ⟨row, none, [], .default, .still 0⟩
    let world := World.start (.named [] [])
    passes items = false ∧ ∃ columns mappers, SelectItem.columns metadata items = .ok columns ∧
      (SelectItem.expressions items).mapM (fun value => (value.compile metadata).value.get) =
        .ok mappers ∧
      (Mapper.all mappers context).ComesTo world
        (.ok [.int64 (-1), .int64 7, .int64 (-2), .int64 8]) world ∧
      ∃ record : Record,
        (apply ⟨passes items, columns⟩ context).ComesTo world (.ok (.record record)) world ∧
        record.get? "a" = some (.int64 1) ∧ record.get? "b" = some (.int64 8) ∧
        record.get? "c" = some (.int64 (-2)) ∧ "d" ∉ record.keys := by
  intro metadata negated number items row context world
  have evaluates : ((SelectItem.expressions items).mapM
      (fun value : Expr => (value.compile metadata).value.get)).map
        (fun mappers => ((Mapper.all mappers context).run world.now).run world) =
      .ok (some (.ok [.int64 (-1), .int64 7, .int64 (-2), .int64 8]), world) := by
    rfl
  rcases exists_of_map_ok evaluates with ⟨mappers, reads, comes⟩
  rcases @last_provider_counts metadata items _ rfl rfl with ⟨_, same, projects⟩
  cases Except.ok.inj (reads.symm.trans same)
  rcases projects context world world _ comes with ⟨record, projected, _, names, values⟩
  have one := (values "a" (.int64 1)).mpr
    ⟨items.take 3, .wildcard, items.drop 4, rfl, rfl, by decide, rfl⟩
  have eight := (values "b" (.int64 8)).mpr
    ⟨items.take 5, .expression (number 8) (some "b"), [], rfl, rfl, nofun, rfl⟩
  have two := (values "c" (.int64 (-2))).mpr
    ⟨items.take 4, .expression (negated "b") (some "c"), items.drop 5, rfl, rfl, by decide, rfl⟩
  refine ⟨rfl, _, mappers, rfl, reads, comes, record, projected, one, eight, two, ?_⟩
  intro present
  rcases (names "d").mp present with named | ⟨_, fields, same, own⟩
  · exact absurd named (by decide)
  · cases same
    exact absurd own (by decide)

end Projection

end StreamQuery
