import StreamQuery.Stream.Run
namespace StreamQuery

/-! What can come of work and of feeds, whatever the clock shows, when the sources that they open
give answers of some kind. -/

variable {answers : Except QueryError Script → Prop}

namespace Task

inductive Gives (answers : Except QueryError Script → Prop) (value : α) : Task α → Prop
  | done : Gives answers value (.done value)
  | waiting (now : Nat) : Gives answers value (resume now) →
      Gives answers value (.waiting deadline resume)
  | opening : answers answer → Gives answers value (next answer) →
      Gives answers value (.opening name next)

theorem Gives.of_done {value result : α} (gives : (Task.done value).Gives answers result) :
    result = value := by
  cases gives
  rfl

theorem Gives.of_bind {task : Task α} {next : α → Nat → Task β}
    (gives : (task.bind now next).Gives answers result) :
    ∃ value later, task.Gives answers value ∧ (next value later).Gives answers result := by
  induction task generalizing now with
  | done value => exact ⟨value, now, .done, gives⟩
  | waiting deadline resume induction =>
      cases gives with
      | waiting resumed gives =>
          rcases induction _ gives with ⟨value, later, first, gives⟩
          exact ⟨value, later, .waiting resumed first, gives⟩
  | opening name next induction =>
      cases gives with
      | opening answered gives =>
          rcases induction _ gives with ⟨value, later, first, gives⟩
          exact ⟨value, later, .opening answered first, gives⟩
  | stuck => cases gives

theorem Gives.of_map {task : Task α} {transform : α → β}
    (gives : (task.map transform).Gives answers result) :
    ∃ value, task.Gives answers value ∧ transform value = result := by
  induction task with
  | done value =>
      cases gives
      exact ⟨value, .done, rfl⟩
  | waiting deadline resume induction =>
      cases gives with
      | waiting resumed gives =>
          rcases induction _ gives with ⟨value, gives, same⟩
          exact ⟨value, .waiting resumed gives, same⟩
  | opening name next induction =>
      cases gives with
      | opening answered gives =>
          rcases induction _ gives with ⟨value, gives, same⟩
          exact ⟨value, .opening answered gives, same⟩
  | stuck => cases gives

end Task

namespace Opening

inductive Always (answers : Except QueryError Script → Prop) (holds : α → Prop) : Opening α → Prop
  | done : holds value → Always answers holds (.done value)
  | opening : (∀ answer, answers answer → Always answers holds (next answer)) →
      Always answers holds (.opening name next)

theorem Always.map {holds : α → Prop} {after : β → Prop} {opening : Opening α}
    {transform : α → β} (always : opening.Always answers holds)
    (maps : ∀ value, holds value → after (transform value)) :
    (opening.map transform).Always answers after := by
  induction always with
  | done valid => exact .done (maps _ valid)
  | opening _ induction => exact .opening induction

theorem always_true (opening : Opening α) : opening.Always answers fun _ => True := by
  induction opening with
  | done value => exact .done trivial
  | opening name next induction => exact .opening fun answer _ => induction answer

theorem Always.of_toTask {holds : α → Prop} {opening : Opening α} {next : α → Task β}
    (always : opening.Always answers holds) (gives : (opening.toTask next).Gives answers result) :
    ∃ value, holds value ∧ (next value).Gives answers result := by
  induction always with
  | done valid => exact ⟨_, valid, gives⟩
  | opening _ induction =>
      cases gives with
      | opening answered gives => exact induction _ answered gives

end Opening

/-! Asking for an evaluation and running it at once is work. -/

theorem Opening.toTask_map (opening : Opening α) (transform : α → β) (next : β → Task γ) :
    (opening.map transform).toTask next = opening.toTask fun value => next (transform value) := by
  induction opening with
  | done value => rfl
  | opening name answer induction => exact congrArg (Task.opening name) (funext induction)

theorem Opening.toTask_bind (opening : Opening α) (now : Nat) (next : α → Task β)
    (following : β → Nat → Task γ) :
    (opening.toTask next).bind now following =
      opening.toTask fun value => (next value).bind now following := by
  induction opening with
  | done value => rfl
  | opening name answer induction => exact congrArg (Task.opening name) (funext induction)

theorem Opening.map_toTask (opening : Opening α) (next : α → Task β) (transform : β → γ) :
    (opening.toTask next).map transform = opening.toTask fun value => (next value).map transform := by
  induction opening with
  | done value => rfl
  | opening name answer induction => exact congrArg (Task.opening name) (funext induction)

namespace Evaluation

variable {evaluation : Evaluation α}

theorem run_thenCheck (evaluation : Evaluation α) (next : α → Except QueryError β) (now : Nat) :
    (evaluation.thenCheck next).run now =
      (evaluation.run now).map fun result => result.bind next := by
  simp only [run, thenCheck, Opening.toTask_map, Opening.map_toTask]

theorem run_andThen (evaluation : Evaluation α) (next : α → Evaluation β) (now : Nat) :
    (evaluation.andThen next).run now =
      (evaluation.run now).bind now fun result now =>
        match result with
        | .ok value => (next value).run now
        | .error error => .done (.error error) :=
  (evaluation.toTask_map _ _).trans (evaluation.toTask_bind now _ _).symm

def Gives (answers : Except QueryError Script → Prop) (evaluation : Evaluation α)
    (result : Except QueryError α) : Prop :=
  ∃ now, (evaluation.run now).Gives answers result

theorem Gives.of_ok {value : α} {result : Except QueryError α}
    (gives : (ok value).Gives answers result) : result = .ok value := by
  rcases gives with ⟨now, gives⟩
  exact gives.of_done

theorem Gives.of_thenCheck {next : α → Except QueryError β}
    (gives : (evaluation.thenCheck next).Gives answers result) :
    ∃ value, evaluation.Gives answers value ∧ result = value.bind next := by
  rcases gives with ⟨now, gives⟩
  rw [run_thenCheck] at gives
  rcases gives.of_map with ⟨value, gives, same⟩
  exact ⟨value, ⟨now, gives⟩, same.symm⟩

theorem Gives.of_map {transform : α → β} (gives : (evaluation.map transform).Gives answers result) :
    ∃ first, evaluation.Gives answers first ∧ result = first.map transform := by
  rcases Gives.of_thenCheck gives with ⟨first, gives, same⟩
  refine ⟨first, gives, same.trans ?_⟩
  cases first <;> rfl

theorem Gives.of_andThen {next : α → Evaluation β}
    (gives : (evaluation.andThen next).Gives answers result) :
    (∃ value, evaluation.Gives answers (.ok value) ∧ (next value).Gives answers result) ∨
      ∃ error, evaluation.Gives answers (.error error) ∧ result = .error error := by
  rcases gives with ⟨now, gives⟩
  rw [run_andThen] at gives
  rcases gives.of_bind with ⟨first, later, before, following⟩
  cases first with
  | ok value => exact .inl ⟨value, ⟨now, before⟩, ⟨later, following⟩⟩
  | error error =>
      cases following
      exact .inr ⟨error, ⟨now, before⟩, rfl⟩

end Evaluation

namespace Feed

variable {holds : Except QueryError α → Prop} {follows : List α → Except QueryError α → Prop}

inductive Each (answers : Except QueryError Script → Prop) (holds : Except QueryError α → Prop) :
    Feed α → Prop
  | finished : Each answers holds .finished
  | item : holds entry → (∀ now, Each answers holds (rest now)) →
      Each answers holds (.item entry rest)
  | waiting : (∀ now, Each answers holds (resume now)) →
      Each answers holds (.waiting deadline resume)
  | opening : (∀ answer, answers answer → Each answers holds (next answer)) →
      Each answers holds (.opening name next)
  | silent : Each answers holds .silent

/-- Every item is of a kind that goes by the values before it. -/
inductive Along (answers : Except QueryError Script → Prop)
    (follows : List α → Except QueryError α → Prop) : List α → Feed α → Prop
  | finished : Along answers follows before .finished
  | value : follows before (.ok value) →
      (∀ now, Along answers follows (before ++ [value]) (rest now)) →
      Along answers follows before (.item (.ok value) rest)
  | error : follows before (.error error) → (∀ now, Along answers follows before (rest now)) →
      Along answers follows before (.item (.error error) rest)
  | waiting : (∀ now, Along answers follows before (resume now)) →
      Along answers follows before (.waiting deadline resume)
  | opening : (∀ answer, answers answer → Along answers follows before (next answer)) →
      Along answers follows before (.opening name next)
  | silent : Along answers follows before .silent

theorem each_true (feed : Feed α) : feed.Each answers fun _ => True := by
  induction feed with
  | finished => exact .finished
  | item entry rest induction => exact .item trivial induction
  | waiting deadline resume induction => exact .waiting induction
  | opening name next induction => exact .opening fun answer _ => induction answer
  | silent => exact .silent

theorem Along.each {feed : Feed α} (along : feed.Along answers follows before)
    (every : ∀ before entry, follows before entry → holds entry) : feed.Each answers holds := by
  induction along with
  | finished => exact .finished
  | value valid _ induction => exact .item (every _ _ valid) induction
  | error valid _ induction => exact .item (every _ _ valid) induction
  | waiting _ induction => exact .waiting induction
  | opening _ induction => exact .opening induction
  | silent => exact .silent

/-- What is claimed of the items holds in every run, also in one that is given up early. -/
theorem Along.run {feed : Feed α} (along : feed.Along (fun _ => True) follows history)
    (wanted : Option Nat) (world : World) :
    ∀ before instant entry after,
      (Feed.run wanted feed world).items = before ++ (instant, entry) :: after →
        follows (history ++ before.filterMap (·.2.toOption)) entry := by
  -- The first item of the run is one of those before, or the one that is asked about.
  have shift {history : List α} {entry : Except QueryError α} {taken : List α}
      {now : Nat} {later : List (Nat × Except QueryError α)} (valid : follows history entry)
      (same : entry.toOption.toList = taken)
      (others : ∀ before instant next after, later = before ++ (instant, next) :: after →
        follows (history ++ taken ++ before.filterMap (·.2.toOption)) next) :
      ∀ before instant next after, (now, entry) :: later = before ++ (instant, next) :: after →
        follows (history ++ before.filterMap (·.2.toOption)) next := by
    intro before instant next after split
    cases before with
    | nil =>
        cases split
        simpa using valid
    | cons first before =>
        cases split
        have rest := others before instant next after rfl
        subst same
        cases entry <;> simpa [Except.toOption] using rest
  induction along generalizing wanted world with
  | finished => exact fun before _ _ _ split => absurd split (by simp [Feed.run])
  | @value history value rest valid _ induction =>
      simp only [Feed.run]
      split
      · exact shift valid rfl (induction _ _ _)
      · exact shift valid rfl fun before _ _ _ split => absurd split (by simp)
      · exact shift valid rfl (induction _ _ _)
  | @error history error rest valid _ induction =>
      have more (wanted : Option Nat) := induction world.now wanted world
      rw [← List.append_nil history] at more
      simp only [Feed.run]
      split
      · exact shift valid rfl (more _)
      · exact shift valid rfl fun before _ _ _ split => absurd split (by simp)
      · exact shift valid rfl (more _)
  | waiting _ induction => exact induction _ wanted _
  | opening _ induction => exact induction _ trivial wanted _
  | silent => exact fun before _ _ _ split => absurd split (by simp [Feed.run])

theorem each_emit {entries : List (Except QueryError α)} {rest : Stream α}
    (every : ∀ entry ∈ entries, holds entry) (continues : ∀ now, (rest now).Each answers holds)
    (now : Nat) : (emit entries rest now).Each answers holds := by
  induction entries generalizing now with
  | nil => exact continues now
  | cons entry entries induction =>
      have both := List.forall_mem_cons.mp every
      exact .item both.1 (induction both.2)

/-- Whatever work comes first, only what the feed does with its result matters, for a property that
waiting and opening keep. -/
theorem afterTask_induction {task : Task α} {next : α → Stream β} {holds : Feed β → Prop}
    (waiting : ∀ deadline resume, (∀ now, holds (resume now)) → holds (.waiting deadline resume))
    (opening : ∀ name next, (∀ answer, answers answer → holds (next answer)) →
      holds (.opening name next)) (silent : holds .silent)
    (continues : ∀ value now, task.Gives answers value → holds (next value now)) (now : Nat) :
    holds (afterTask task now next) := by
  induction task generalizing now with
  | done value => exact continues value now .done
  | waiting deadline resume induction =>
      exact waiting _ _ fun now => induction now
        (fun value later gives => continues value later (.waiting now gives)) now
  | opening name answer induction =>
      exact opening _ _ fun script answered => induction script
        (fun value later gives => continues value later (.opening answered gives)) now
  | stuck => exact silent

theorem each_afterTask {task : Task α} {next : α → Stream β} {holds : Except QueryError β → Prop}
    (continues : ∀ value now, task.Gives answers value → (next value now).Each answers holds)
    (now : Nat) : (afterTask task now next).Each answers holds :=
  afterTask_induction (fun _ _ => .waiting) (fun _ _ => .opening) .silent continues now

theorem along_afterTask {task : Task α} {next : α → Stream β}
    {follows : List β → Except QueryError β → Prop}
    (continues : ∀ value now, task.Gives answers value →
      (next value now).Along answers follows before) (now : Nat) :
    (afterTask task now next).Along answers follows before :=
  afterTask_induction (fun _ _ => .waiting) (fun _ _ => .opening) .silent continues now

end Feed

end StreamQuery
