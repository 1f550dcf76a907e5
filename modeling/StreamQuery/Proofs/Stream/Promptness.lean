import StreamQuery.Proofs.Stream.SameItems
namespace StreamQuery

/-! Work that comes to the same result whenever it is begun. Work that keeps time does so without a
wait, free work when it is ready. -/

variable {answers : String → Except QueryError Script} {free : Prop}

namespace Task

inductive Reaches (answers : String → Except QueryError Script) (free : Prop) :
    Task α → Nat → α → Nat → Prop
  | done : Reaches answers free (.done value) now value now
  | waiting : free →
      Reaches answers free (resume (max deadline now)) (max deadline now) value later →
      Reaches answers free (.waiting deadline resume) now value later
  | opening : Reaches answers free (next (answers name)) now value later →
      Reaches answers free (.opening name next) now value later

variable {now later : Nat}

theorem reaches_of_eq {task : Task α} {value : α} (same : task = .done value) :
    task.Reaches answers free now value now :=
  same ▸ .done

theorem Reaches.inTime {task : Task α} {value : α}
    (reaches : task.Reaches answers free now value later) : InTime free now later := by
  induction reaches with
  | done => exact .refl _ _
  | waiting isFree => exact .inl isFree
  | opening _ induction => exact induction

theorem Reaches.bind {task : Task α} {value : α} {between : Nat} {next : α → Nat → Task β}
    {result : β} (reaches : task.Reaches answers free now value between)
    (continues : (next value between).Reaches answers free between result later) :
    (task.bind now next).Reaches answers free now result later := by
  induction reaches with
  | done => exact continues
  | waiting isFree _ induction => exact .waiting isFree (induction continues)
  | opening _ induction => exact .opening (induction continues)

theorem Reaches.map {task : Task α} {value : α}
    (reaches : task.Reaches answers free now value later) (transform : α → β) :
    (task.map transform).Reaches answers free now (transform value) later := by
  induction reaches with
  | done => exact .done
  | waiting isFree _ induction => exact .waiting isFree induction
  | opening _ induction => exact .opening induction

end Task

namespace Feed

theorem Matches.afterTask {now later reached : Nat} {same : α → β → Prop} {task : Task γ}
    {value : γ} {next : γ → Stream α} {other : Feed β}
    (reaches : task.Reaches answers free now value reached)
    (pair : Matches answers free same (next value reached) reached other later) :
    Matches answers free same (Feed.afterTask task now next) now other later := by
  induction reaches with
  | done => exact pair
  | waiting isFree _ induction => exact .waitingLeft isFree (induction pair)
  | opening _ induction => exact .openingLeft (induction pair)

end Feed

namespace Evaluation

variable {evaluation : Evaluation α}

/-- Whenever the evaluation is asked for and run, this is the result. -/
def Arrives (answers : String → Except QueryError Script) (free : Prop) (evaluation : Evaluation α)
    (result : Except QueryError α) : Prop :=
  ∀ now, ∃ later, (evaluation.run now).Reaches answers free now result later

theorem arrives_ok (value : α) : (ok value).Arrives answers free (.ok value) :=
  fun now => ⟨now, .done⟩

theorem Arrives.map {value : α} (arrives : evaluation.Arrives answers free (.ok value))
    (transform : α → β) :
    (evaluation.map transform).Arrives answers free (.ok (transform value)) := by
  intro now
  rcases arrives now with ⟨later, reaches⟩
  refine ⟨later, ?_⟩
  rw [Evaluation.map, run_thenCheck]
  exact reaches.map _

theorem Arrives.andThen {value : α} {next : α → Evaluation β} {result : Except QueryError β}
    (arrives : evaluation.Arrives answers free (.ok value))
    (continues : (next value).Arrives answers free result) :
    (evaluation.andThen next).Arrives answers free result := by
  intro now
  rcases arrives now with ⟨between, reaches⟩
  rcases continues between with ⟨later, rest⟩
  refine ⟨later, ?_⟩
  rw [run_andThen]
  exact reaches.bind rest

end Evaluation

end StreamQuery
