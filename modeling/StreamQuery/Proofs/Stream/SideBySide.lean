import StreamQuery.Proofs.Results
import StreamQuery.Proofs.Stream.Items
namespace StreamQuery

/-! What can come of work that goes on side by side. It completes with what both parts can come to,
and it fails as one of them can. -/

variable {answers : Except QueryError Script → Prop}

namespace Task

theorem Gives.mono {others : Except QueryError Script → Prop} {task : Task α}
    (gives : task.Gives answers value) (weaker : ∀ answer, answers answer → others answer) :
    task.Gives others value := by
  induction gives with
  | done => exact .done
  | waiting now _ induction => exact .waiting now induction
  | opening answered _ induction => exact .opening (weaker _ answered) induction

inductive GivesBoth (answers : Except QueryError Script → Prop)
    (first : Task (Except QueryError α)) (second : Task (Except QueryError β)) :
    Except QueryError (α × β) → Prop
  | ok : first.Gives answers (.ok value) → second.Gives answers (.ok other) →
      GivesBoth answers first second (.ok (value, other))
  | first : first.Gives answers (.error error) → GivesBoth answers first second (.error error)
  | second : second.Gives answers (.error error) → GivesBoth answers first second (.error error)

variable {first earlier : Task (Except QueryError α)} {second sooner : Task (Except QueryError β)}
  {result : Except QueryError (α × β)}

theorem GivesBoth.imp (gives : GivesBoth answers first second result)
    (before : ∀ value, first.Gives answers value → earlier.Gives answers value)
    (beforeSecond : ∀ value, second.Gives answers value → sooner.Gives answers value) :
    GivesBoth answers earlier sooner result := by
  cases gives with
  | ok value other => exact .ok (before _ value) (beforeSecond _ other)
  | first failed => exact .first (before _ failed)
  | second failed => exact .second (beforeSecond _ failed)

theorem Gives.of_failure (gives : (second.failure : Task (Except QueryError α)).Gives answers value) :
    ∃ error, value = .error error ∧ second.Gives answers (.error error) := by
  induction second with
  | done result =>
      cases result with
      | ok value => cases gives
      | error error =>
          cases gives
          exact ⟨error, rfl, .done⟩
  | waiting deadline resume induction =>
      cases gives with
      | waiting now gives =>
          rcases induction now gives with ⟨error, same, failed⟩
          exact ⟨error, same, .waiting now failed⟩
  | opening name next induction =>
      cases gives with
      | opening answered gives =>
          rcases induction _ gives with ⟨error, same, failed⟩
          exact ⟨error, same, .opening answered failed⟩
  | stuck => cases gives

theorem Gives.of_alongside {resume : Nat → Task (Except QueryError α)}
    (gives : (alongside deadline (fun now second => (resume now).both second) second).Gives answers
      result)
    (splits : ∀ now second, ((resume now).both second).Gives answers result →
      GivesBoth answers (resume now) second result) :
    GivesBoth answers (.waiting deadline resume) second result := by
  have later (now : Nat) (value : Except QueryError α) (gives : (resume now).Gives answers value) :
      (Task.waiting deadline resume).Gives answers value := .waiting now gives
  induction second with
  | done value =>
      cases value with
      | error error =>
          cases gives
          exact .second .done
      | ok value =>
          cases gives with
          | waiting now gives => exact (splits now _ gives).imp (later now) fun _ => id
  | waiting other next induction =>
      cases gives with
      | waiting now gives =>
          have soon (value : Except QueryError β) (gives : (next now).Gives answers value) :
              (Task.waiting other next).Gives answers value := .waiting now gives
          dsimp only at gives
          split at gives
          · refine (splits now _ gives).imp (later now) fun value gives => ?_
            split at gives
            · exact soon value gives
            · exact gives
          · exact (induction now gives).imp (fun _ => id) soon
  | opening name next induction =>
      cases gives with
      | opening answered gives =>
          exact (induction _ gives).imp (fun _ => id) fun _ gives => .opening answered gives
  | stuck =>
      cases gives with
      | waiting now gives => exact (splits now _ gives).imp (later now) fun _ => id

theorem Gives.of_both (gives : (first.both second).Gives answers result) :
    GivesBoth answers first second result := by
  induction first generalizing second with
  | done value =>
      cases value with
      | error error =>
          cases gives
          exact .first .done
      | ok value =>
          rcases Gives.of_map gives with ⟨other, reached, rfl⟩
          cases other with
          | ok other => exact .ok .done reached
          | error error => exact .second reached
  | waiting deadline resume induction =>
      exact Gives.of_alongside gives fun now second => induction now
  | opening name next induction =>
      cases gives with
      | opening answered gives =>
          exact (induction _ gives).imp (fun _ gives => .opening answered gives) fun _ => id
  | stuck =>
      rcases Gives.of_failure gives with ⟨error, rfl, failed⟩
      exact .second failed

end Task

namespace Opening

inductive Gives (answers : Except QueryError Script → Prop) (value : α) : Opening α → Prop
  | done : Gives answers value (.done value)
  | opening : answers answer → Gives answers value (next answer) →
      Gives answers value (.opening name next)

theorem toTask_bind_opening (opening : Opening α) (next : α → Opening β) (following : β → Task γ) :
    (opening.bind next).toTask following =
      opening.toTask fun value => (next value).toTask following := by
  induction opening with
  | done value => rfl
  | opening name answer induction => exact congrArg (Task.opening name) (funext induction)

theorem gives_of_toTask {opening : Opening α} {next : α → Task β}
    (gives : (opening.toTask next).Gives answers result) :
    ∃ value, opening.Gives answers value ∧ (next value).Gives answers result := by
  induction opening with
  | done value => exact ⟨value, .done, gives⟩
  | opening name answer induction =>
      cases gives with
      | opening answered gives =>
          rcases induction _ gives with ⟨value, opens, gives⟩
          exact ⟨value, .opening answered opens, gives⟩

theorem Gives.toTask {opening : Opening α} {next : α → Task β} (gives : opening.Gives answers value)
    (following : (next value).Gives answers result) :
    (opening.toTask next).Gives answers result := by
  induction gives with
  | done => exact following
  | opening answered _ induction => exact .opening answered induction

end Opening

namespace Evaluation

variable {evaluation first : Evaluation α} {second : Evaluation β}

theorem Gives.mono {others : Except QueryError Script → Prop}
    (gives : evaluation.Gives answers result)
    (weaker : ∀ answer, answers answer → others answer) : evaluation.Gives others result :=
  gives.imp fun _ gives => gives.mono weaker

/-- Evaluations that run side by side begin at one instant. -/
theorem gives_run_both {now : Nat} {result : Except QueryError (α × β)}
    (gives : ((first.both second).run now).Gives answers result) :
    Task.GivesBoth answers (first.run now) (second.run now) result := by
  simp only [run, both, Opening.toTask_bind_opening, Opening.toTask_map] at gives ⊢
  rcases Opening.gives_of_toTask gives with ⟨work, opens, gives⟩
  rcases Opening.gives_of_toTask gives with ⟨other, opensSecond, gives⟩
  exact gives.of_both.imp (fun _ gives => opens.toTask gives) fun _ gives =>
    opensSecond.toTask gives

theorem Gives.of_both {result : Except QueryError (α × β)}
    (gives : (first.both second).Gives answers result) :
    (∃ value other, result = .ok (value, other) ∧ first.Gives answers (.ok value) ∧
      second.Gives answers (.ok other)) ∨
      ∃ error, result = .error error ∧
        (first.Gives answers (.error error) ∨ second.Gives answers (.error error)) := by
  rcases gives with ⟨now, gives⟩
  cases gives_run_both gives with
  | ok value other => exact .inl ⟨_, _, rfl, ⟨now, value⟩, ⟨now, other⟩⟩
  | first failed => exact .inr ⟨_, rfl, .inl ⟨now, failed⟩⟩
  | second failed => exact .inr ⟨_, rfl, .inr ⟨now, failed⟩⟩

theorem gives_run_all {now : Nat} {evaluations : List (Evaluation α)} {values : List α}
    (gives : ((all evaluations).run now).Gives answers (.ok values)) :
    List.Forall₂ (fun evaluation value => (evaluation.run now).Gives answers (.ok value))
      evaluations values := by
  induction evaluations generalizing values with
  | nil =>
      cases gives
      exact .nil
  | cons evaluation evaluations induction =>
      rw [all, map, run_thenCheck] at gives
      rcases gives.of_map with ⟨error | pair, both, same⟩ <;> cases same
      cases gives_run_both both with
      | ok first rest => exact .cons first (induction rest)

theorem Gives.of_all {evaluations : List (Evaluation α)} {values : List α}
    (gives : (all evaluations).Gives answers (.ok values)) :
    List.Forall₂ (fun evaluation value => evaluation.Gives answers (.ok value)) evaluations
      values := by
  rcases gives with ⟨now, gives⟩
  exact (gives_run_all gives).imp fun _ _ gives => ⟨now, gives⟩

theorem Gives.exists_of_all {evaluations : List (Evaluation α)} {values : List α}
    {evaluation : Evaluation α} (gives : (all evaluations).Gives answers (.ok values))
    (member : evaluation ∈ evaluations) :
    ∃ value ∈ values, evaluation.Gives answers (.ok value) :=
  exists_mem_of_forall₂ gives.of_all member

theorem Gives.length_of_all {evaluations : List (Evaluation α)} {values : List α}
    (gives : (all evaluations).Gives answers (.ok values)) :
    values.length = evaluations.length :=
  gives.of_all.length_eq.symm

end Evaluation

end StreamQuery
