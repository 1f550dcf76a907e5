import StreamQuery.Stream.Run
namespace StreamQuery

/-! Work and feeds in an environment that always gives the same answer when a source of one name is
opened. -/

namespace Task

def answered (answers : String → Except QueryError Script) : Task α → Task α
  | .done value => .done value
  | .waiting deadline resume => .waiting deadline fun now => (resume now).answered answers
  | .opening name next => (next (answers name)).answered answers
  | .stuck => .stuck

end Task

namespace Feed

variable {answers : String → Except QueryError Script}

def answered (answers : String → Except QueryError Script) : Feed α → Feed α
  | .finished => .finished
  | .item entry rest => .item entry fun now => (rest now).answered answers
  | .waiting deadline resume => .waiting deadline fun now => (resume now).answered answers
  | .opening name next => (next (answers name)).answered answers
  | .silent => .silent

theorem answered_emit (entries : List (Except QueryError α)) (rest : Stream α) (now : Nat) :
    (emit entries rest now).answered answers =
      emit entries (fun now => (rest now).answered answers) now := by
  induction entries generalizing now with
  | nil => rfl
  | cons entry entries induction => exact congrArg (Feed.item entry) (funext induction)

end Feed

/-- The sources of the world answer in this way, and stay as they are. -/
def World.AnswersBy (world : World) (answers : String → Except QueryError Script) : Prop :=
  ∀ name, world.sources.request name = (answers name, world.sources)

theorem Feed.run_answered {answers : String → Except QueryError Script} (feed : Feed α)
    (wanted : Option Nat) (world : World) (opened : List String) (same : world.AnswersBy answers) :
    (Feed.run wanted feed world).items =
        (Feed.run wanted (feed.answered answers) { world with opened }).items ∧
      (Feed.run wanted feed world).ended =
        (Feed.run wanted (feed.answered answers) { world with opened }).ended := by
  induction feed generalizing wanted world opened with
  | finished => exact ⟨rfl, rfl⟩
  | item entry rest induction =>
      simp only [answered, Feed.run]
      split
      · next count =>
          have later := induction world.now (some (count + 1)) world opened same
          exact ⟨congrArg (List.cons (world.now, entry)) later.1, later.2⟩
      · exact ⟨rfl, rfl⟩
      · have later := induction world.now none world opened same
        exact ⟨congrArg (List.cons (world.now, entry)) later.1, later.2⟩
  | waiting deadline resume induction =>
      exact induction _ wanted (world.advance deadline) opened same
  | opening name next induction =>
      have later := induction (answers name) wanted
        { world with opened := name :: world.opened } opened same
      have requested : world.request name =
          (answers name, { world with opened := name :: world.opened }) := by
        simp only [World.request, same name]
      simp only [Feed.run, requested, answered]
      exact later
  | silent => exact ⟨rfl, rfl⟩

end StreamQuery
