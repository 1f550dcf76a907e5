import StreamQuery.Proofs.Stream.Items
namespace StreamQuery

/-! What work comes to in a world. A piece of work takes up the world as the work before it has left
it. -/

namespace Task

theorem run_map (task : Task α) (transform : α → β) (world : World) :
    (task.map transform).run world =
      ((task.run world).1.map transform, (task.run world).2) := by
  induction task generalizing world with
  | done value => rfl
  | waiting deadline resume induction => exact induction _ _
  | opening name next induction => exact induction _ _
  | stuck => rfl

theorem run_bind (task : Task α) (next : α → Nat → Task β) (world : World) :
    (task.bind world.now next).run world =
      match task.run world with
      | (some value, later) => (next value later.now).run later
      | (none, later) => (none, later) := by
  induction task generalizing world with
  | done value => rfl
  | waiting deadline resume induction => exact induction _ (world.advance deadline)
  | opening name answer induction =>
      exact induction (world.request name).1 (world.request name).2
  | stuck => rfl

theorem gives_of_run {task : Task α} {world later : World} {value : α}
    (comes : task.run world = (some value, later)) : task.Gives (fun _ => True) value := by
  induction task generalizing world with
  | done result =>
      cases comes
      exact .done
  | waiting deadline resume induction => exact .waiting _ (induction _ comes)
  | opening name next induction =>
      exact .opening trivial (@induction _ (world.request name).2 comes)
  | stuck => cases comes

theorem now_le_run (task : Task α) (world : World) : world.now ≤ (task.run world).2.now := by
  induction task generalizing world with
  | done value | stuck => exact Nat.le_refl _
  | waiting deadline resume induction =>
      exact Nat.le_trans (Nat.le_max_right deadline world.now) (induction _ (world.advance deadline))
  | opening name next induction => exact induction _ (world.request name).2

end Task

namespace Evaluation

variable {evaluation : Evaluation α} {world later : World}

/-- Asked for and run in the world, the evaluation has this result, and leaves the world so. -/
def ComesTo (evaluation : Evaluation α) (world : World) (result : Except QueryError α)
    (later : World) : Prop :=
  (evaluation.run world.now).run world = (some result, later)

theorem ComesTo.gives {result : Except QueryError α}
    (comes : evaluation.ComesTo world result later) :
    evaluation.Gives (fun _ => True) result :=
  ⟨world.now, Task.gives_of_run comes⟩

theorem ComesTo.now_le {result : Except QueryError α}
    (comes : evaluation.ComesTo world result later) : world.now ≤ later.now := by
  have onward := (evaluation.run world.now).now_le_run world
  rw [comes] at onward
  exact onward

theorem comesTo_ok {value : α} {result : Except QueryError α} :
    (ok value).ComesTo world result later ↔ result = .ok value ∧ later = world := by
  simp only [ComesTo, ok, ofExcept, run, Opening.toTask, Task.run, Prod.mk.injEq, Option.some.injEq,
    eq_comm]

theorem comesTo_thenCheck {next : α → Except QueryError β} {result : Except QueryError β} :
    (evaluation.thenCheck next).ComesTo world result later ↔
      ∃ first, evaluation.ComesTo world first later ∧ first.bind next = result := by
  simp only [ComesTo, run_thenCheck, Task.run_map, Option.map_eq_some_iff,
    Prod.ext_iff]
  grind

theorem comesTo_map_iff {transform : α → β} {result : Except QueryError β} :
    (evaluation.map transform).ComesTo world result later ↔
      ∃ first, evaluation.ComesTo world first later ∧ first.map transform = result := by
  have same (first : Except QueryError α) :
      (first.bind fun value => .ok (transform value)) = first.map transform := by
    cases first <;> rfl
  simp only [map, comesTo_thenCheck, same]

theorem comesTo_map {transform : α → β} {value : β} :
    (evaluation.map transform).ComesTo world (.ok value) later ↔
      ∃ first, evaluation.ComesTo world (.ok first) later ∧ transform first = value := by
  rw [comesTo_map_iff]
  constructor
  · rintro ⟨first, comes, same⟩
    cases first with
    | error error => cases same
    | ok first => exact ⟨first, comes, Except.ok.inj same⟩
  · rintro ⟨first, comes, same⟩
    exact ⟨.ok first, comes, congrArg Except.ok same⟩

theorem comesTo_andThen_iff {next : α → Evaluation β} {result : Except QueryError β} :
    (evaluation.andThen next).ComesTo world result later ↔
      (∃ error, evaluation.ComesTo world (.error error) later ∧ result = .error error) ∨
        ∃ first between, evaluation.ComesTo world (.ok first) between ∧
          (next first).ComesTo between result later := by
  simp only [ComesTo, run_andThen, Task.run_bind]
  generalize (evaluation.run world.now).run world = outcome
  rcases outcome with ⟨_ | error | first, between⟩
  · simp
  · simp only [Task.run, Prod.mk.injEq, Option.some.injEq, Except.error.injEq]
    grind
  · simp only [Prod.mk.injEq, Option.some.injEq, Except.ok.injEq]
    grind

theorem comesTo_andThen {next : α → Evaluation β} {value : β} :
    (evaluation.andThen next).ComesTo world (.ok value) later ↔
      ∃ first between, evaluation.ComesTo world (.ok first) between ∧
        (next first).ComesTo between (.ok value) later := by
  simp only [comesTo_andThen_iff, reduceCtorEq, and_false, exists_false, false_or]

end Evaluation

namespace Feed

theorem run_afterTask {task : Task α} {world later : World} {value : α}
    (comes : task.run world = (some value, later)) (wanted : Option Nat) (next : α → Stream β) :
    Feed.run wanted (afterTask task world.now next) world =
      Feed.run wanted (next value later.now) later := by
  induction task generalizing world with
  | done value =>
      cases comes
      rfl
  | waiting deadline resume induction => exact @induction _ (world.advance deadline) comes
  | opening name answer induction =>
      exact @induction (world.request name).1 (world.request name).2 comes
  | stuck => cases comes

theorem run_ofItems (items : List (Except QueryError α)) (world : World) :
    Feed.run none (ofItems items world.now) world =
      ⟨items.map fun item => (world.now, item), some world.now, world⟩ := by
  induction items with
  | nil => rfl
  | cons item items induction => exact congrArg (Run.cons world.now item) induction

end Feed

end StreamQuery
