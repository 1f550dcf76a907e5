import StreamQuery.Proofs.Stream.StrictRuns
namespace StreamQuery

/-! What a limit leaves of the items that come without it. Rows are dropped in front, errors are
not, and the run is over with the last item that is wanted. -/

/-- The items without so many rows in front. -/
def dropRows : Nat → List (Nat × Except QueryError α) → List (Nat × Except QueryError α)
  | _, [] => []
  | offset, (now, .error error) :: items => (now, .error error) :: dropRows offset items
  | 0, (now, .ok value) :: items => (now, .ok value) :: dropRows 0 items
  | offset + 1, (_, .ok _) :: items => dropRows offset items

theorem length_dropRows (offset : Nat) (run : Run α) :
    run.successes.length ≤ offset + (dropRows offset run.items).length := by
  rcases run with ⟨items, ended, world⟩
  simp only [Run.successes]
  induction items generalizing offset with
  | nil => exact Nat.zero_le _
  | cons entry items induction =>
      rcases entry with ⟨now, error | value⟩
      · exact Nat.le_succ_of_le (induction offset)
      · cases offset with
        | zero => exact Nat.succ_le_succ (induction 0)
        | succ offset =>
            rw [Nat.add_right_comm]
            exact Nat.succ_le_succ (induction offset)

def Limit.cut (limit : Limit) (items : List (Nat × Except QueryError α)) :
    List (Nat × Except QueryError α) :=
  match limit.count with
  | none => dropRows limit.offset items
  | some count => (dropRows limit.offset items).take count

namespace Feed

theorem run_skip (offset : Nat) (feed : Feed α) (world : World) :
    Feed.run none (feed.skip offset world.now) world =
      { Feed.run none feed world with
        items := dropRows offset (Feed.run none feed world).items } := by
  induction feed generalizing offset world with
  | finished | silent => cases offset <;> rfl
  | item entry rest induction =>
      cases entry with
      | error error =>
          cases offset <;> exact congrArg (Run.cons world.now (.error error)) (induction _ _ world)
      | ok value =>
          cases offset with
          | zero => exact congrArg (Run.cons world.now (.ok value)) (induction _ 0 world)
          | succ offset => exact induction world.now offset world
  | waiting deadline resume induction =>
      cases offset <;> exact induction _ _ (world.advance deadline)
  | opening name next induction =>
      cases offset <;> exact induction _ _ (world.request name).2

theorem items_take (count : Nat) (feed : Feed α) (world : World) :
    (Feed.run none (feed.take (count + 1)) world).items =
      (Feed.run none feed world).items.take (count + 1) := by
  induction feed generalizing count world with
  | finished | silent => rfl
  | item entry rest induction =>
      apply congrArg (List.cons (world.now, entry))
      cases count with
      | zero => rfl
      | succ count => exact induction world.now count world
  | waiting deadline resume induction => exact induction _ count (world.advance deadline)
  | opening name next induction => exact induction _ count (world.request name).2

theorem ended_take {count : Nat} {feed : Feed α} {world : World}
    (enough : count + 1 ≤ (Feed.run none feed world).items.length) :
    (Feed.run none (feed.take (count + 1)) world).ended.isSome := by
  induction feed generalizing count world with
  | finished | silent => cases enough
  | item entry rest induction =>
      cases count with
      | zero => rfl
      | succ count =>
          exact @induction world.now count world (Nat.le_of_succ_le_succ enough)
  | waiting deadline resume induction => exact @induction _ count (world.advance deadline) enough
  | opening name next induction => exact @induction _ count (world.request name).2 enough

end Feed

namespace Limit

theorem items_apply (limit : Limit) (stream : Stream α) (world : World) :
    (Feed.run none (limit.apply stream world.now) world).items =
      limit.cut (Feed.run none (stream world.now) world).items := by
  rcases limit with ⟨offset, _ | _ | count⟩
  · simp only [apply, cut, Feed.run_skip]
  · rfl
  · simp only [apply, cut, Feed.items_take, Feed.run_skip]

theorem ended_apply {offset count : Nat} {stream : Stream α} {world : World}
    (enough : offset + count ≤ (Feed.run none (stream world.now) world).successes.length) :
    (Feed.run none (apply ⟨offset, some count⟩ stream world.now) world).ended.isSome := by
  have left := length_dropRows offset (Feed.run none (stream world.now) world)
  cases count with
  | zero => rfl
  | succ count =>
      apply Feed.ended_take
      rw [Feed.run_skip]
      exact Nat.le_of_add_le_add_left (Nat.le_trans enough left)

end Limit

end StreamQuery
