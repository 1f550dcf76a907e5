import StreamQuery.Proofs.Stream.Endings
namespace StreamQuery

/-! Stages in a row. Two steps that are taken one after the other are one step, and a step that
keeps every value is none. Of work side by side, one step can be taken in both parts. -/

/-! Results that are changed twice, or not at all. -/

namespace Task

theorem map_map (first : α → β) (second : β → γ) (task : Task α) :
    (task.map first).map second = task.map fun value => second (first value) := by
  induction task with
  | done value => rfl
  | waiting deadline resume induction =>
      simp only [map, waiting.injEq, true_and]
      exact funext induction
  | opening name next induction =>
      simp only [map, opening.injEq, true_and]
      exact funext induction
  | stuck => rfl

theorem map_id (task : Task α) : task.map (fun value => value) = task := by
  induction task with
  | done value => rfl
  | waiting deadline resume induction =>
      simp only [map, waiting.injEq, true_and]
      exact funext induction
  | opening name next induction =>
      simp only [map, opening.injEq, true_and]
      exact funext induction
  | stuck => rfl

end Task

namespace Opening

theorem map_map (first : α → β) (second : β → γ) (opening : Opening α) :
    (opening.map first).map second = opening.map fun value => second (first value) := by
  induction opening with
  | done value => rfl
  | opening name next induction =>
      simp only [map, opening.injEq, true_and]
      exact funext induction

theorem map_id (opening : Opening α) : opening.map (fun value => value) = opening := by
  induction opening with
  | done value => rfl
  | opening name next induction =>
      simp only [map, opening.injEq, true_and]
      exact funext induction

end Opening

namespace Evaluation

theorem map_map (first : α → β) (second : β → γ) (evaluation : Evaluation α) :
    (evaluation.map first).map second = evaluation.map fun value => second (first value) := by
  have results (result : Except QueryError α) :
      ((result.bind fun value => .ok (first value)).bind fun value => .ok (second value)) =
        result.bind fun value => .ok (second (first value)) := by
    cases result <;> rfl
  simp only [map, thenCheck, Opening.map_map, Task.map_map, results]

theorem map_id (evaluation : Evaluation α) : evaluation.map (fun value => value) = evaluation := by
  have results (result : Except QueryError α) : (result.bind fun value => .ok value) = result := by
    cases result <;> rfl
  simp only [map, thenCheck, results, Task.map_id, Opening.map_id]

end Evaluation

namespace Task

theorem bind_map (task : Task α) (now : Nat) (next : α → Nat → Task β) (transform : β → γ) :
    (task.bind now next).map transform =
      task.bind now fun value now => (next value now).map transform := by
  induction task generalizing now with
  | done value => rfl
  | waiting deadline resume induction =>
      simp only [bind, map, waiting.injEq, true_and]
      exact funext fun now => induction now now
  | opening name answer induction =>
      simp only [bind, map, opening.injEq, true_and]
      exact funext fun script => induction script now
  | stuck => rfl

theorem map_bind (task : Task α) (transform : α → β) (now : Nat) (next : β → Nat → Task γ) :
    (task.map transform).bind now next = task.bind now fun value => next (transform value) := by
  induction task generalizing now with
  | done value => rfl
  | waiting deadline resume induction =>
      simp only [bind, map, waiting.injEq, true_and]
      exact funext fun now => induction now now
  | opening name answer induction =>
      simp only [bind, map, opening.injEq, true_and]
      exact funext fun script => induction script now
  | stuck => rfl

theorem bind_done (task : Task α) (now : Nat) (transform : α → β) :
    (task.bind now fun value _ => .done (transform value)) = task.map transform := by
  induction task generalizing now with
  | done value => rfl
  | waiting deadline resume induction =>
      simp only [bind, map, waiting.injEq, true_and]
      exact funext fun now => induction now now
  | opening name answer induction =>
      simp only [bind, map, opening.injEq, true_and]
      exact funext fun script => induction script now
  | stuck => rfl

theorem bind_congr {task : Task α} {next following : α → Nat → Task β}
    (same : ∀ value, task.Gives (fun _ => True) value → next value = following value) (now : Nat) :
    task.bind now next = task.bind now following := by
  induction task generalizing now with
  | done value => exact congrFun (same value .done) now
  | waiting deadline resume induction =>
      simp only [bind, waiting.injEq, true_and]
      exact funext fun now => induction now (fun value gives => same value (.waiting now gives)) now
  | opening name answer induction =>
      simp only [bind, opening.injEq, true_and]
      exact funext fun script =>
        induction script (fun value gives => same value (.opening trivial gives)) now
  | stuck => rfl

end Task

namespace Evaluation

theorem map_andThen (evaluation : Evaluation α) (transform : α → β) (next : β → Evaluation γ) :
    (evaluation.map transform).andThen next =
      evaluation.andThen fun value => next (transform value) := by
  simp only [map, thenCheck, andThen, Opening.map_map, Task.map_bind]
  congr 1
  funext work now
  congr 1
  funext result now
  cases result <;> rfl

theorem andThen_map (evaluation : Evaluation α) (next : α → Evaluation β) (transform : β → γ) :
    (evaluation.andThen next).map transform =
      evaluation.andThen fun value => (next value).map transform := by
  simp only [map, thenCheck, andThen, Opening.map_map, Task.bind_map]
  congr 1
  funext work now
  congr 1
  funext result now
  cases result with
  | ok value => exact (run_thenCheck (next value) _ now).symm
  | error error => rfl

theorem andThen_ofExcept (evaluation : Evaluation α) (next : α → Except QueryError β) :
    (evaluation.andThen fun value => .ofExcept (next value)) = evaluation.thenCheck next := by
  simp only [andThen, thenCheck]
  congr 1
  funext work now
  refine Eq.trans ?_ ((work now).bind_done now _)
  congr 1
  funext result now
  cases result <;> rfl

theorem andThen_ok (evaluation : Evaluation α) (transform : α → β) :
    (evaluation.andThen fun value => .ok (transform value)) = evaluation.map transform :=
  evaluation.andThen_ofExcept fun value => .ok (transform value)

theorem andThen_congr {evaluation : Evaluation α} {next following : α → Evaluation β}
    (same : ∀ value, evaluation.Gives (fun _ => True) (.ok value) → next value = following value) :
    evaluation.andThen next = evaluation.andThen following := by
  induction evaluation with
  | done work =>
      refine congrArg Opening.done (funext fun now => Task.bind_congr ?_ now)
      intro result gives
      cases result with
      | ok value => simp only [same value ⟨now, gives⟩]
      | error error => rfl
  | opening name answer induction =>
      refine congrArg (Opening.opening name) (funext fun script => induction script ?_)
      rintro value ⟨now, gives⟩
      exact same value ⟨now, .opening trivial gives⟩

end Evaluation

namespace Feed

theorem map_map (first : α → β) (second : β → γ) (feed : Feed α) :
    (feed.map first).map second = feed.map fun value => second (first value) := by
  induction feed with
  | item entry rest induction =>
      cases entry <;> exact congrArg _ (funext induction)
  | waiting deadline resume induction => exact congrArg _ (funext induction)
  | opening name next induction => exact congrArg _ (funext induction)
  | finished | silent => rfl

theorem map_id (feed : Feed α) : feed.map (fun value => value) = feed := by
  induction feed with
  | item entry rest induction =>
      cases entry <;> exact congrArg _ (funext induction)
  | waiting deadline resume induction => exact congrArg _ (funext induction)
  | opening name next induction => exact congrArg _ (funext induction)
  | finished | silent => rfl

/-! Work in front of a feed. -/

theorem afterTask_bind (task : Task α) (now : Nat) (next : α → Nat → Task β)
    (following : β → Stream γ) :
    afterTask (task.bind now next) now following =
      afterTask task now fun value now => afterTask (next value now) now following := by
  induction task generalizing now with
  | waiting deadline resume induction =>
      exact congrArg (Feed.waiting deadline) (funext fun now => induction now now)
  | opening name answer induction =>
      exact congrArg (Feed.opening name) (funext fun script => induction script now)
  | done _ | stuck => rfl

theorem process_afterTask (policy : ErrorPolicy) (step : β → Evaluation (Option γ)) (task : Task α)
    (now : Nat) (next : α → Stream β) :
    (afterTask task now next).process policy step now =
      afterTask task now fun value now => (next value now).process policy step now := by
  induction task generalizing now with
  | waiting deadline resume induction =>
      exact congrArg (Feed.waiting deadline) (funext fun now => induction now now)
  | opening name answer induction =>
      exact congrArg (Feed.opening name) (funext fun script => induction script now)
  | done _ | stuck => rfl

/-! Steps. -/

theorem FailsLast.process_renaming {feed : Feed α} (last : feed.FailsLast) (policy : ErrorPolicy)
    (rename : α → β) (now : Nat) :
    feed.process policy (fun value => .ok (some (rename value))) now = feed.map rename := by
  induction last generalizing now with
  | @value _ value _ induction =>
      simp only [Feed.process]
      exact congrArg (Feed.item (.ok (rename value))) (funext fun now => induction now now)
  | error finishes =>
      apply congrArg (Feed.item _)
      funext now
      rw [finishes]
      rfl
  | waiting _ induction => exact congrArg (Feed.waiting _) (funext fun now => induction now now)
  | opening _ induction =>
      exact congrArg (Feed.opening _) (funext fun answer => induction answer now)
  | finished | silent => rfl

theorem map_afterTask (task : Task α) (now : Nat) (next : α → Stream β) (transform : β → γ) :
    (afterTask task now next).map transform =
      afterTask task now fun value now => (next value now).map transform := by
  induction task generalizing now with
  | waiting deadline resume induction =>
      exact congrArg (Feed.waiting deadline) (funext fun now => induction now now)
  | opening name answer induction =>
      exact congrArg (Feed.opening name) (funext fun script => induction script now)
  | done _ | stuck => rfl

theorem afterTask_map (task : Task α) (now : Nat) (transform : α → β) (next : β → Stream γ) :
    afterTask (task.map transform) now next =
      afterTask task now fun value => next (transform value) := by
  induction task generalizing now with
  | waiting deadline resume induction =>
      exact congrArg (Feed.waiting deadline) (funext fun now => induction now now)
  | opening name answer induction =>
      exact congrArg (Feed.opening name) (funext fun script => induction script now)
  | done _ | stuck => rfl

theorem map_process (policy : ErrorPolicy) (step : α → Evaluation (Option β)) (transform : β → γ)
    (feed : Feed α) (now : Nat) :
    (feed.process policy step now).map transform =
      feed.process policy (fun value => (step value).map (Option.map transform)) now := by
  induction feed generalizing now with
  | item entry rest induction =>
      cases entry with
      | error error => rfl
      | ok value =>
          simp only [Feed.process]
          rw [map_afterTask, Evaluation.map, Evaluation.run_thenCheck, afterTask_map]
          congr 1
          funext result now
          rcases result with error | _ | output
          · by_cases skipped : policy.skips error
            · simp only [skipped, if_true, Except.bind]
              exact induction now now
            · simp [skipped, Feed.map, Except.bind, Except.map]
          · exact induction now now
          · exact congrArg (Feed.item _) (funext fun now => induction now now)
  | waiting deadline resume induction =>
      exact congrArg (Feed.waiting deadline) (funext fun now => induction now now)
  | opening name next induction =>
      exact congrArg (Feed.opening name) (funext fun answer => induction answer now)
  | finished | silent => rfl

def inTurn (first : α → Evaluation (Option β)) (second : β → Evaluation (Option γ)) (value : α) :
    Evaluation (Option γ) :=
  (first value).andThen fun kept =>
    match kept with
    | some kept => second kept
    | none => .ok none

/-- The first error of either step is met in the same place, and both stages take it alike. -/
theorem process_process (policy : ErrorPolicy) (first : α → Evaluation (Option β))
    (second : β → Evaluation (Option γ)) (feed : Feed α) (now : Nat) :
    (feed.process policy first now).process policy second now =
      feed.process policy (inTurn first second) now := by
  induction feed generalizing now with
  | item entry rest induction =>
      cases entry with
      | error error => rfl
      | ok value =>
          simp only [Feed.process, inTurn]
          rw [process_afterTask, Evaluation.run_andThen, afterTask_bind]
          congr 1
          funext result now
          rcases result with error | _ | kept
          · by_cases skipped : policy.skips error
            · simp only [afterTask, skipped, if_true]
              exact induction now now
            · simp [afterTask, skipped, Feed.process]
          · exact induction now now
          · simp only [Feed.process]
            congr 1
            funext result now
            rcases result with error | _ | output
            · simp only [induction]
            · exact induction now now
            · exact congrArg (Feed.item _) (funext fun now => induction now now)
  | waiting deadline resume induction =>
      exact congrArg (Feed.waiting deadline) (funext fun now => induction now now)
  | opening name next induction =>
      exact congrArg (Feed.opening name) (funext fun answer => induction answer now)
  | finished | silent => rfl

end Feed

/-! Work side by side of which each part is changed. -/

namespace Task

theorem failure_map (task : Task (Except ε α)) (transform : α → β) :
    ((task.map (·.map transform)).failure : Task (Except ε γ)) = task.failure := by
  induction task with
  | done result => cases result <;> rfl
  | waiting deadline resume induction => exact congrArg (Task.waiting deadline) (funext induction)
  | opening name next induction => exact congrArg (Task.opening name) (funext induction)
  | stuck => rfl

theorem map_failure (task : Task (Except ε α)) (transform : β → γ) :
    (task.failure : Task (Except ε β)).map (·.map transform) = task.failure := by
  induction task with
  | done result => cases result <;> rfl
  | waiting deadline resume induction => exact congrArg (Task.waiting deadline) (funext induction)
  | opening name next induction => exact congrArg (Task.opening name) (funext induction)
  | stuck => rfl

theorem alongside_map {resume : Nat → Task (Except ε β) → Task (Except ε (α × β))}
    {resumed : Nat → Task (Except ε δ) → Task (Except ε (γ × δ))} {onFirst : α → γ}
    {onSecond : β → δ}
    (resumes : ∀ now second, resumed now (second.map (·.map onSecond)) =
      (resume now second).map (·.map (Prod.map onFirst onSecond)))
    (deadline : Nat) (second : Task (Except ε β)) :
    alongside deadline resumed (second.map (·.map onSecond)) =
      (alongside deadline resume second).map (·.map (Prod.map onFirst onSecond)) := by
  induction second with
  | done result =>
      cases result with
      | error error => rfl
      | ok value =>
          have goesOn (now : Nat) := resumes now (.done (.ok value))
          exact congrArg (Task.waiting deadline) (funext goesOn)
  | waiting other next induction =>
      refine congrArg (Task.waiting (min deadline other)) (funext fun now => ?_)
      by_cases due : deadline ≤ now
      · by_cases ready : other ≤ now
        · simp only [due, ready, if_true]
          exact resumes now _
        · simp only [due, ready, if_true, if_false]
          exact resumes now (.waiting other next)
      · simp only [due, if_false]
        exact induction now
  | opening name next induction => exact congrArg (Task.opening name) (funext induction)
  | stuck => exact congrArg (Task.waiting deadline) (funext fun now => resumes now .stuck)

theorem both_map (first : Task (Except ε α)) (second : Task (Except ε β)) (onFirst : α → γ)
    (onSecond : β → δ) : (first.map (·.map onFirst)).both (second.map (·.map onSecond)) =
      (first.both second).map (·.map (Prod.map onFirst onSecond)) := by
  induction first generalizing second with
  | done result =>
      cases result with
      | error error => rfl
      | ok value =>
          have results (result : Except ε β) :
              (result.map onSecond).map (fun other => (onFirst value, other)) =
                (result.map fun other => (value, other)).map (Prod.map onFirst onSecond) := by
            cases result <;> rfl
          change ((second.map (·.map onSecond)).map (·.map fun other => (onFirst value, other))) =
            (second.map (·.map fun other => (value, other))).map (·.map (Prod.map onFirst onSecond))
          rw [map_map, map_map]
          exact congrArg (fun transform => second.map transform) (funext results)
  | waiting deadline resume induction => exact alongside_map induction deadline second
  | opening name next induction =>
      exact congrArg (Task.opening name) (funext fun script => induction script second)
  | stuck => exact (second.failure_map onSecond).trans (second.map_failure _).symm

end Task

namespace Opening

theorem map_bind (opening : Opening α) (transform : α → β) (next : β → Opening γ) :
    (opening.map transform).bind next = opening.bind fun value => next (transform value) := by
  induction opening with
  | done value => rfl
  | opening name answer induction => exact congrArg (Opening.opening name) (funext induction)

theorem bind_map (opening : Opening α) (next : α → Opening β) (transform : β → γ) :
    (opening.bind next).map transform = opening.bind fun value => (next value).map transform := by
  induction opening with
  | done value => rfl
  | opening name answer induction => exact congrArg (Opening.opening name) (funext induction)

end Opening

namespace Evaluation

theorem map_eq (evaluation : Evaluation α) (transform : α → β) : evaluation.map transform =
    Opening.map (fun work now => (work now).map (·.map transform)) evaluation := by
  have results (result : Except QueryError α) :
      (result.bind fun value => .ok (transform value)) = result.map transform := by
    cases result <;> rfl
  simp only [map, thenCheck, results]

theorem both_map (first : Evaluation α) (second : Evaluation β) (onFirst : α → γ)
    (onSecond : β → δ) : (first.map onFirst).both (second.map onSecond) =
      (first.both second).map (Prod.map onFirst onSecond) := by
  simp only [map_eq, both, Opening.map_bind, Opening.bind_map, Opening.map_map, Task.both_map]

theorem ok_both (value : α) (evaluation : Evaluation β) :
    (ok value).both evaluation = evaluation.map fun other => (value, other) :=
  (evaluation.map_eq _).symm

end Evaluation

end StreamQuery
