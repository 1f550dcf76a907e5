import StreamQuery.Proofs.Plan.Clauses
import StreamQuery.Proofs.Results
import StreamQuery.Proofs.Stream.Endings
namespace StreamQuery

/-! How the rows of a statement end. Whatever its clauses are, its records pass through the stage that
shapes the rows, and no stage after it adds an item behind an error. -/

namespace Pipeline

variable (pipeline : Pipeline) {rows : Stream Shaped}

theorem failsLast_shaped (context : Context) (records : Stream Value) :
    (pipeline.shaped context records).FailsLast := by
  simp only [shaped]
  split
  · exact fun now => Feed.failsLast_process _ _ _ now
  · exact fun now => Feed.failsLast_process _ _ _ now

theorem failsLast_distinctRows (last : rows.FailsLast) :
    (pipeline.distinctRows rows).FailsLast := by
  simp only [distinctRows]
  split
  · exact fun now => (last now).distinct [] now
  · exact last

theorem failsLast_sorted (last : rows.FailsLast) : (pipeline.sorted rows).FailsLast := by
  simp only [sorted]
  split
  · exact last
  · exact fun now => Feed.failsLast_sort _ _ now

theorem failsLast_limited (last : rows.FailsLast) : (pipeline.limited rows).FailsLast := by
  have values : Stream.FailsLast fun now => (rows now).map Shaped.row :=
    fun now => (last now).map Shaped.row
  simp only [limited]
  split
  · exact values
  · next limit _ => exact limit.failsLast_apply values

theorem failsLast_stages (context : Context) (records : Stream Value) :
    (pipeline.stages context records).FailsLast :=
  pipeline.failsLast_limited <| pipeline.failsLast_sorted <| pipeline.failsLast_distinctRows <|
    pipeline.failsLast_shaped context (pipeline.filtered context records)

theorem failsLast_rows (nested : Bool) (context : Context) :
    (pipeline.rows nested context).Always (fun _ => True) Stream.FailsLast :=
  (Opening.always_true (pipeline.source.rows nested context)).map fun records _ =>
    pipeline.failsLast_stages (pipeline.source.context context) records

end Pipeline

theorem Select.ensures_pipeline (metadata : Metadata) (query : Select) :
    Ensures (Select.compile metadata query) fun plan =>
      ∃ pipeline : Pipeline, plan.rows = pipeline.rows := by
  rw [Select.compile_eq]
  refine (ensures_true _).bind fun _ _ => ?_
  refine (ensures_true _).bind fun _ _ => ?_
  exact (ensures_true _).bind fun _ _ => ensures_ok ⟨_, rfl⟩

/-- The items of a run are rows, then at most one error, and then the end. -/
theorem rows_then_one_error (metadata : Metadata) (query : Select) {plan : Plan}
    (compiles : Select.compile metadata query = .ok plan) (nested : Bool) (context : Context)
    (wanted : Option Nat) (world : World) :
    let run := Stream.run wanted (plan.rows nested context) world
    ∃ rows : List (Nat × Value), run.items = Run.shown rows ∨
      ∃ instant error, run.items = Run.shown rows ++ [(instant, .error error)] ∧
        (run.ended = some instant ∨ wanted = some run.items.length) := by
  intro run
  obtain ⟨pipeline, same⟩ := Select.ensures_pipeline metadata query plan compiles
  have last : run.FailsLast wanted :=
    Stream.run_failsLast (same ▸ pipeline.failsLast_rows nested context) wanted world
  cases last with
  | succeeded rows items => exact ⟨rows, .inl items⟩
  | failed rows instant error items ends => exact ⟨rows, .inr ⟨instant, error, items, ends⟩⟩

def Select.allOfA : Select :=
  ⟨false, [.wildcard], some (.table "a" none), [], none, [], none, [], none⟩

/-- A source that delivers a record, fails, and delivers another. -/
theorem rows_then_one_error_resumed :
    let metadata := Metadata.ofSettings Settings.default
    let context : Context := ⟨.null, none, [], metadata.settings, .still 0⟩
    let script : Script :=
      ⟨[⟨0, .ok (.int64 1)⟩, ⟨5, .error (.source "a" "lost")⟩, ⟨0, .ok (.int64 2)⟩], true⟩
    ∃ plan, Select.compile metadata .allOfA = .ok plan ∧
      let run := Stream.run none (plan.rows false context) (.start (.named [("a", script)] []))
      run.items = [(0, .ok (.int64 1)), (5, .error (.source "a" "lost"))] ∧ run.ended = some 5 ∧
      ∃ rows : List (Nat × Value), run.items = Run.shown rows ∨
        ∃ instant error, run.items = Run.shown rows ++ [(instant, .error error)] ∧
          (run.ended = some instant ∨ (none : Option Nat) = some run.items.length) := by
  intro metadata context script
  refine ⟨_, rfl, by cbv, by cbv, ?_⟩
  exact rows_then_one_error metadata .allOfA rfl false context none _

end StreamQuery
