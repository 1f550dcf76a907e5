import Mathlib.Order.Compare
import StreamQuery.Plan.Choice
import StreamQuery.Proofs.Join.Blocks
import StreamQuery.Proofs.Value.Fields
namespace StreamQuery

/-! A from clause joins its sources one after the other. Whatever the kinds of the joins, a row holds
one field for every source that has been joined so far. -/

/-- The fields are named as the sources are, each once, and a field holds a row of its source or
null. -/
structure Record.Joins (record : Record) (sources : List (String × List Value)) : Prop where
  ascending : record.Ascending
  keys_perm : record.keys.Perm (sources.map (·.1))
  holds : ∀ source ∈ sources, ∃ value, record.get? source.1 = some value ∧
    (value = .null ∨ value ∈ source.2)

def Value.Joins (row : Value) (sources : List (String × List Value)) : Prop :=
  ∃ record : Record, row = .record record ∧ record.Joins sources

namespace Record

variable {record : Record} {sources : List (String × List Value)}

theorem empty_joins : Record.empty.Joins [] :=
  ⟨.nil, .refl _, fun _ member => nomatch member⟩

theorem Joins.insert (joins : record.Joins sources) {label : String}
    (absent : label ∉ sources.map (·.1)) {value : Value} {rows : List Value}
    (taken : value = .null ∨ value ∈ rows) :
    (record.insert label value).Joins (sources ++ [(label, rows)]) := by
  have fresh : label ∉ record.keys := fun member => absent (joins.keys_perm.mem_iff.mp member)
  refine ⟨joins.ascending.insert label value, ?_, ?_⟩
  · calc (record.insert label value).keys.Perm (label :: record.keys) :=
          keys_insert_perm fresh value
      _ |>.Perm (label :: sources.map (·.1)) := joins.keys_perm.cons label
      _ |>.Perm ((sources ++ [(label, rows)]).map (·.1)) := by
          rw [List.map_append]
          exact (List.perm_append_singleton _ _).symm
  · intro source member
    rw [get?_insert]
    rcases List.mem_append.mp member with member | member
    · have other : label ≠ source.1 := fun same => absent (same ▸ List.mem_map_of_mem member)
      rw [if_neg other]
      exact joins.holds source member
    · cases List.mem_singleton.mp member
      rw [if_pos rfl]
      exact ⟨value, rfl, taken⟩

theorem Joins.insert_nulls (joins : record.Joins sources) (more : List (String × List Value))
    (distinct : ((sources ++ more).map (·.1)).Nodup) :
    ((more.map fun source => (source.1, Value.null)).foldl
      (fun record field => record.insert field.1 field.2) record).Joins (sources ++ more) := by
  induction more generalizing record sources with
  | nil => rwa [List.append_nil]
  | cons source more induction =>
      have absent : source.1 ∉ sources.map (·.1) := by
        rw [List.map_append] at distinct
        exact fun member => (List.nodup_append.mp distinct).2.2 _ member _ List.mem_cons_self rfl
      have added : (record.insert source.1 .null).Joins (sources ++ [source]) :=
        joins.insert absent (.inl rfl)
      rw [← List.singleton_append, ← List.append_assoc] at distinct ⊢
      exact induction added distinct

end Record

namespace JoinInput

variable {input : JoinInput} {sources : List (String × List Value)}

theorem combine_joins (absent : input.rightLabel ∉ sources.map (·.1)) {left right : Value}
    (joins : left.Joins sources) (taken : right = .null ∨ right ∈ input.right) :
    (input.combine left right).Joins (sources ++ [(input.rightLabel, input.right)]) := by
  rcases joins with ⟨record, rfl, joins⟩
  exact ⟨_, rfl, joins.insert absent taken⟩

theorem nullLeft_joins (labels : input.leftLabels = sources.map (·.1))
    (distinct : (sources.map (·.1)).Nodup) : input.nullLeft.Joins sources := by
  refine ⟨_, rfl, ?_⟩
  rw [labels, List.map_map]
  exact Record.empty_joins.insert_nulls sources distinct

end JoinInput

namespace NestedLoop

variable {condition : Option Predicate} {context : Context} {world later : World}
  {input : JoinInput} {sources : List (String × List Value)}

theorem Selects.subset {candidates matched : List Value}
    (selects : Selects condition context world candidates matched later) :
    matched ⊆ candidates := by
  induction selects with
  | nil => exact List.Subset.refl _
  | accepted _ _ induction => exact List.cons_subset_cons _ induction
  | rejected _ _ induction => exact List.subset_cons_of_subset _ induction

theorem Blocks.subset {pairs : Value → List Value} {blocks : List (Value × List Value)}
    (taken : Blocks condition context pairs world blocks later) :
    ∀ block ∈ blocks, block.2 ⊆ pairs block.1 := by
  induction taken with
  | nil => exact fun _ member => nomatch member
  | cons selects _ induction => exact List.forall_mem_cons.mpr ⟨selects.subset, induction⟩

theorem Emits.joins {kind : JoinKind} {joined : List Value}
    (emits : Emits condition context input world later kind joined)
    (labels : input.leftLabels = sources.map (·.1)) (distinct : (sources.map (·.1)).Nodup)
    (absent : input.rightLabel ∉ sources.map (·.1)) (left : ∀ row ∈ input.left, row.Joins sources) :
    ∀ row ∈ joined, row.Joins (sources ++ [(input.rightLabel, input.right)]) := by
  let Holds (row : Value) : Prop := row.Joins (sources ++ [(input.rightLabel, input.right)])
  have pair {row partner : Value} (member : row ∈ input.left) (other : partner ∈ input.right) :
      Holds (input.combine row partner) :=
    input.combine_joins absent (left row member) (.inr other)
  -- The accepted pairs of a row on the left.
  have fromLeft {blocks : List (Value × List Value)} (rows : blocks.map (·.1) = input.left)
      (taken : Blocks condition context (fun row => input.right.map (input.combine row)) world
        blocks later) : ∀ block ∈ blocks, block.1 ∈ input.left ∧ ∀ row ∈ block.2, Holds row := by
    intro block member
    have kept : block.1 ∈ input.left := rows ▸ List.mem_map_of_mem member
    refine ⟨kept, ?_⟩
    intro row matched
    rcases List.mem_map.mp (taken.subset block member matched) with ⟨partner, other, rfl⟩
    exact pair kept other
  have unpadded {blocks : List (Value × List Value)} (rows : blocks.map (·.1) = input.left)
      (taken : Blocks condition context (fun row => input.right.map (input.combine row)) world
        blocks later) : ∀ row ∈ blocks.flatMap (·.2), Holds row := by
    intro row member
    rcases List.mem_flatMap.mp member with ⟨block, among, matched⟩
    exact (fromLeft rows taken block among).2 row matched
  cases emits with
  | inner rows taken _ => exact unpadded rows taken
  | cross rows taken => exact unpadded rows taken
  | left rows taken =>
      intro row member
      rcases List.mem_flatMap.mp member with ⟨block, among, placed⟩
      have parts := fromLeft rows taken block among
      simp only [JoinInput.leftBlock] at placed
      split at placed
      · cases List.mem_singleton.mp placed
        exact input.combine_joins absent (left _ parts.1) (.inl rfl)
      · exact parts.2 row placed
  | right rows taken =>
      intro row member
      rcases List.mem_flatMap.mp member with ⟨block, among, placed⟩
      have kept : block.1 ∈ input.right := rows ▸ List.mem_map_of_mem among
      simp only [JoinInput.rightBlock] at placed
      split at placed
      · cases List.mem_singleton.mp placed
        exact input.combine_joins absent (input.nullLeft_joins labels distinct) (.inr kept)
      · rcases List.mem_map.mp (taken.subset block among placed) with ⟨partner, other, rfl⟩
        exact pair other kept

end NestedLoop

/-- How the rows of a from clause come about: the sources that have been read with their rows, the
rows on the left, and for every further step the rows of its source and what it makes of the two
sides. -/
inductive JoinChain (nested : Bool) (context : Context) :
    List (String × List Value) → List Value → World → List JoinStep → List Value → World → Prop
  | done : (∀ row ∈ rows, row.Joins sources) →
      JoinChain nested context sources rows world [] rows world
  | step {step : JoinStep} {read : World} : (∀ row ∈ left, row.Joins sources) →
      (step.source.materialize nested context).ComesTo world (.ok right) read →
      step.feature = .nestedLoop kind →
      NestedLoop.Emits step.condition context
        ⟨left, sources.map (·.1), right, step.source.label⟩ read between kind joined →
      JoinChain nested context (sources ++ [(step.source.label, right)]) joined between rest rows
        later →
      JoinChain nested context sources left world (step :: rest) rows later

namespace SourcePlan

variable {nested : Bool} {context : Context}

theorem chain_joinSteps {steps : List JoinStep} {sources : List (String × List Value)}
    {left rows : List Value} {world later : World}
    (distinct : (sources.map (·.1) ++ steps.map (·.source.label)).Nodup)
    (joins : ∀ row ∈ left, row.Joins sources)
    (comes : (joinSteps nested context steps left (sources.map (·.1))).ComesTo world (.ok rows)
      later) :
    JoinChain nested context sources left world steps rows later := by
  induction steps generalizing sources left world with
  | nil =>
      rcases Evaluation.comesTo_ok.mp comes with ⟨same, rfl⟩
      cases same
      exact .done joins
  | cons step rest induction =>
      rcases Evaluation.comesTo_andThen.mp comes with ⟨right, read, materialized, comes⟩
      rcases Evaluation.comesTo_andThen.mp comes with ⟨joined, between, emitted, comes⟩
      rcases kind : step.feature with ⟨kind⟩
      rw [kind] at emitted
      have emits := NestedLoop.join_emits emitted
      have parts := List.nodup_append.mp distinct
      have absent : step.source.label ∉ sources.map (·.1) :=
        fun member => parts.2.2 _ member _ List.mem_cons_self rfl
      have more := emits.joins rfl parts.1 absent joins
      have shift : (sources ++ [(step.source.label, right)]).map (·.1) =
          sources.map (·.1) ++ [step.source.label] := List.map_append
      refine .step joins materialized kind emits (induction ?_ more (shift ▸ comes))
      rw [shift, List.append_assoc]
      exact distinct

theorem qualify_joins (label : String) (table : List Value) :
    ∀ row ∈ qualify label table, row.Joins [(label, table)] := by
  intro row member
  rcases List.mem_map.mp member with ⟨value, taken, rfl⟩
  exact ⟨_, rfl, Record.empty_joins.insert List.not_mem_nil (.inr taken)⟩

/-- The rows that a from clause with joins shows are those of a chain of joins. -/
theorem joined_rows_chain {first : Source} {steps : List JoinStep} {rows : List Value}
    {world later : World} (distinct : (first.label :: steps.map (·.source.label)).Nodup)
    (comes : (joinAll nested (context.withLabel none) first steps).ComesTo world (.ok rows) later) :
    (Stream.run none ((joined first steps).rows nested context) world).items =
        rows.map (fun row => (later.now, .ok row)) ∧
      ∃ table read,
        (first.materialize nested (context.withLabel none)).ComesTo world (.ok table) read ∧
        JoinChain nested (context.withLabel none) [(first.label, table)]
          (qualify first.label table) read steps rows later := by
  constructor
  · calc (Stream.run none ((joined first steps).rows nested context) world).items
        = (Feed.run none (Feed.ofItems (rows.map .ok) later.now) later).items :=
          congrArg Run.items (Feed.run_afterTask comes none Feed.ofResult)
      _ = rows.map fun row => (later.now, .ok row) := by
          rw [Feed.run_ofItems, List.map_map]
          rfl
  · rcases Evaluation.comesTo_andThen.mp comes with ⟨table, read, materialized, comes⟩
    exact ⟨table, read, materialized,
      chain_joinSteps distinct (qualify_joins first.label table) comes⟩

/-- A left join pads the first of two rows, and a right join the two sources before it. -/
theorem joined_rows_chain_padded :
    let alike (left right : String) : Predicate :=
      Predicate.ofPair Comparison.equal.holds (.column ⟨none, left⟩) (.column ⟨none, right⟩)
    let context : Context := ⟨.null, none, [], Settings.default, .still 0⟩
    let first := Source.ofTable "a" "a"
    let steps : List JoinStep :=
      [⟨.ofTable "b" "b", .nestedLoop .left, some (alike "a" "b")⟩,
        ⟨.ofTable "c" "c", .nestedLoop .right, some (alike "b" "c")⟩]
    let world := World.start (.named [] [("a", [.int64 1, .int64 2]), ("b", [.int64 2]),
      ("c", [.int64 9, .int64 2])])
    let rows : List Value := [.record [("a", .null), ("b", .null), ("c", .int64 9)],
      .record [("a", .int64 2), ("b", .int64 2), ("c", .int64 2)]]
    let later := { world with opened := ["c", "b", "a"] }
    (first.label :: steps.map (·.source.label)).Nodup ∧
      (joinAll false (context.withLabel none) first steps).ComesTo world (.ok rows) later ∧
      ∃ table read,
        (first.materialize false (context.withLabel none)).ComesTo world (.ok table) read ∧
        JoinChain false (context.withLabel none) [(first.label, table)]
          (qualify first.label table) read steps rows later := by
  intro alike context first steps world rows later
  have distinct : (first.label :: steps.map (·.source.label)).Nodup := by decide
  have comes : (joinAll false (context.withLabel none) first steps).ComesTo world (.ok rows)
      later := by cbv
  exact ⟨distinct, comes, (joined_rows_chain distinct comes).2⟩

end SourcePlan

end StreamQuery
