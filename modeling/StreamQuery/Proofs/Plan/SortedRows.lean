import StreamQuery.Proofs.Stream.SideBySide
import StreamQuery.Proofs.Plan.FirstValues
import StreamQuery.Proofs.Stream.Sorting
namespace StreamQuery

/-! Rows in order. The rows of a statement have a key for each of its sort expressions, so it is
enough that the order is transitive among them. -/

namespace Pipeline

variable {pipeline : Pipeline} {context : Context}

theorem length_keys_of_shape {shaped : Shaped} {before after : World}
    (comes : (pipeline.shape context).ComesTo before (.ok (some shaped)) after) :
    shaped.keys.length = pipeline.orderKeys.length := by
  rcases Evaluation.comesTo_andThen.mp comes with ⟨row, _, _, comes⟩
  rcases Evaluation.comesTo_andThen.mp comes with ⟨kept, _, _, comes⟩
  cases kept with
  | false => cases (Evaluation.comesTo_ok.mp comes).1
  | true =>
      rcases Evaluation.comesTo_map.mp comes with ⟨keys, evaluated, same⟩
      cases same
      exact evaluated.gives.length_of_all.trans (List.length_map _)

variable {records : Stream Value} {world : World} {rows : List Shaped} {instant : Nat}

theorem length_keys_of_completes {row : Shaped}
    (completes : (pipeline.distinctRows (pipeline.shaped context records) world.now).Completes
      world rows instant) (member : row ∈ rows) :
    row.keys.length = pipeline.orderKeys.length := by
  have among : .ok row ∈ rows.map (Except.ok (ε := QueryError)) := List.mem_map_of_mem member
  rw [← completes.shown] at among
  obtain ⟨⟨instant, item⟩, came, rfl⟩ := List.mem_map.mp among
  have brings := brings_of_distinctRows (Feed.brings_of_mem_run came)
  obtain ⟨seen, before, after, _, comes⟩ := brings_shaped brings
  exact length_keys_of_shape comes

end Pipeline

/-- A stream of rows that comes to its end without an error, and among whose keys the order is
transitive, is sorted when it ends: all rows come, none behind one whose keys exceed its own, and
those that tie as they came. This is so for rows that have as many keys as each other, as those of
every statement have. -/
theorem Shaped.sorts_stably :
    (∀ (descending : List Bool) (feed : Feed Shaped) (world : World) (rows : List Shaped)
      (instant : Nat), feed.Completes world rows instant →
      (∀ row ∈ rows, ∀ other ∈ rows, row.keys.length = other.keys.length) →
      Value.TransitiveAmong (keyValues rows) →
      ∃ sorted, SortedFrom descending rows sorted ∧
        Feed.run none (feed.sort descending world.now) world =
          ⟨sorted.map fun row => (instant, .ok row), some instant,
            (Feed.run none feed world).world⟩) ∧
    ∀ (pipeline : Pipeline) (context : Context) (records : Stream Value) (world : World)
      (rows : List Shaped) (instant : Nat),
      let shaped := pipeline.distinctRows (pipeline.shaped context records)
      (shaped world.now).Completes world rows instant →
      Value.TransitiveAmong (keyValues rows) →
      ∃ sorted, SortedFrom pipeline.descending rows sorted ∧
        (pipeline.sorted shaped world.now).Completes world sorted instant := by
  constructor
  · intro descending feed world rows instant completes uniform transitive
    exact ⟨_, sortedFrom_sort descending uniform transitive, completes.run_sort descending⟩
  · intro pipeline context records world rows instant shaped completes transitive
    have uniform : ∀ row ∈ rows, ∀ other ∈ rows, row.keys.length = other.keys.length := by
      intro row member other present
      rw [Pipeline.length_keys_of_completes completes member,
        Pipeline.length_keys_of_completes completes present]
    refine ⟨_, sortedFrom_sort pipeline.descending uniform transitive, ?_⟩
    simp only [Pipeline.sorted]
    split
    · next none =>
        rw [List.isEmpty_iff.mp none, sort_nil]
        exact completes
    · have run := completes.run_sort pipeline.descending
      exact ⟨by rw [run, List.map_map]; rfl, by rw [run]⟩

/-- The first key sorts upward and the second downward. Two rows tie, with a number in two types. -/
theorem Shaped.sorts_stably_two_keys :
    let key (name : String) : Mapper := fun context => .ok ((context.row.field? name).getD .null)
    let pipeline : Pipeline := ⟨.implicit, none, none, ⟨true, [.wildcard]⟩, none,
      [key "a", key "b"], [false, true], false, none⟩
    let records : List Value := [.record [("a", .int64 2)],
      .record [("a", .int64 1), ("b", .int64 7)], .record [("a", .int32 2)],
      .record [("a", .int64 1), ("b", .int64 9)]]
    let context : Context := ⟨.null, none, [], .default, .still 0⟩
    let world := World.start (.named [] [])
    let shaped := pipeline.distinctRows (pipeline.shaped context (Feed.ofItems (records.map .ok)))
    let keys : List (List Value) := [[.int64 2, .null], [.int64 1, .int64 7], [.int32 2, .null],
      [.int64 1, .int64 9]]
    let rows := List.zipWith Shaped.mk records keys
    (shaped 0).Completes world rows 0 ∧
      (∀ row ∈ rows, ∀ other ∈ rows, row.keys.length = other.keys.length) ∧
      Value.TransitiveAmong (keyValues rows) ∧
      (∃ sorted, SortedFrom [false, true] rows sorted ∧
        Feed.run none ((shaped 0).sort [false, true] 0) world =
          ⟨sorted.map fun row => (0, .ok row), some 0,
            (Feed.run none (shaped 0) world).world⟩) ∧
      ∃ sorted, SortedFrom [false, true] rows sorted ∧
        (pipeline.sorted shaped 0).Completes world sorted 0 := by
  intro key pipeline records context world shaped keys rows
  have completes : (shaped 0).Completes world rows 0 := by
    have items : (Feed.run none (shaped 0) world).items = rows.map fun row => (0, .ok row) := by
      dsimp +zetaDelta only
      cbv
    constructor
    · rw [items]
      rfl
    · dsimp +zetaDelta only
      cbv
  have uniform : ∀ row ∈ rows, ∀ other ∈ rows, row.keys.length = other.keys.length := by decide
  have transitive : Value.TransitiveAmong (keyValues rows) := by
    simp only [Value.TransitiveAmong]
    decide +kernel
  exact ⟨completes, uniform, transitive,
    sorts_stably.1 [false, true] (shaped 0) world rows 0 completes uniform transitive,
    sorts_stably.2 pipeline context (Feed.ofItems (records.map .ok)) world rows 0 completes
      transitive⟩

end StreamQuery
