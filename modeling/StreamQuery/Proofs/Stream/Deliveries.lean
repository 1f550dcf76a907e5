import StreamQuery.Proofs.Stream.Answers
import StreamQuery.Proofs.Stream.Worlds
import StreamQuery.Stream.Stage
namespace StreamQuery

/-! What comes to pass when sources are always answered in the same way, and no wait is longer than
it has to be. -/

variable {answers : String → Except QueryError Script}

theorem World.AnswersBy.request {world : World} (same : world.AnswersBy answers) (name : String) :
    world.request name = (answers name, { world with opened := name :: world.opened }) := by
  simp only [World.request, same name]

namespace Task

/-- The value of the work, and the instant at which it is there. -/
def outcome (answers : String → Except QueryError Script) : Task α → Nat → Option (α × Nat)
  | .done value, now => some (value, now)
  | .waiting deadline resume, now =>
      (resume (max deadline now)).outcome answers (max deadline now)
  | .opening name next, now => (next (answers name)).outcome answers now
  | .stuck, _ => none

theorem outcome_map (task : Task α) (transform : α → β) (now : Nat) :
    (task.map transform).outcome answers now =
      (task.outcome answers now).map fun (value, later) => (transform value, later) := by
  induction task generalizing now with
  | done value => rfl
  | waiting deadline resume induction => exact induction _ _
  | opening name next induction => exact induction _ now
  | stuck => rfl

theorem outcome_bind (task : Task α) (next : α → Nat → Task β) (now : Nat) :
    (task.bind now next).outcome answers now =
      (task.outcome answers now).bind fun (value, later) =>
        (next value later).outcome answers later := by
  induction task generalizing now with
  | done value => rfl
  | waiting deadline resume induction => exact induction _ _
  | opening name answer induction => exact induction _ now
  | stuck => rfl

theorem le_of_outcome {task : Task α} (outcome : task.outcome answers now = some (value, later)) :
    now ≤ later := by
  induction task generalizing now with
  | done value =>
      cases outcome
      exact Nat.le_refl _
  | waiting deadline resume induction =>
      exact Nat.le_trans (Nat.le_max_right deadline now) (induction _ outcome)
  | opening name next induction => exact induction _ outcome
  | stuck => cases outcome

theorem both_done_ok (task : Task (Except ε α)) (other : β) :
    task.both (.done (.ok other)) =
      task.map fun result => result.map fun value => (value, other) := by
  induction task with
  | done result => cases result <;> rfl
  | waiting deadline resume induction => exact congrArg (Task.waiting deadline) (funext induction)
  | opening name next induction => exact congrArg (Task.opening name) (funext induction)
  | stuck => rfl

theorem outcome_alongside {resume : Nat → Task (Except ε α)} {second : Task (Except ε β)}
    {value : α} {other : β} {deadline now ended finished : Nat}
    (resumes : ∀ (rest : Task (Except ε β)) (finished : Nat),
      rest.outcome answers (max deadline now) = some (.ok other, finished) →
        ((resume (max deadline now)).both rest).outcome answers (max deadline now) =
          some (.ok (value, other), max ended finished))
    (reached : max deadline now ≤ ended)
    (comes : second.outcome answers now = some (.ok other, finished)) :
    (alongside deadline (fun now second => (resume now).both second) second).outcome answers now =
      some (.ok (value, other), max ended finished) := by
  induction second generalizing now with
  | done result =>
      cases comes
      have alone := resumes (.done (.ok other)) (max deadline finished) rfl
      rw [Nat.max_eq_left reached] at alone
      rw [Nat.max_eq_left (Nat.le_trans (Nat.le_max_right deadline finished) reached)]
      exact alone
  | waiting due next induction =>
      have comes :
          (next (max due now)).outcome answers (max due now) = some (.ok other, finished) := comes
      simp only [alongside, outcome]
      by_cases first : deadline ≤ max (min deadline due) now
      · rw [if_pos first]
        obtain same : max (min deadline due) now = max deadline now := by omega
        rw [same]
        apply resumes
        split
        · next overdue =>
            obtain together : max due now = max deadline now := by omega
            rwa [together] at comes
        · next later =>
            obtain unchanged : max due (max deadline now) = max due now := by omega
            simp only [outcome, unchanged]
            exact comes
      · rw [if_neg first]
        obtain same : max (min deadline due) now = max due now := by omega
        obtain unchanged : max deadline (max due now) = max deadline now := by omega
        rw [same]
        exact induction (max due now) (unchanged ▸ resumes) (unchanged ▸ reached) comes
  | opening name next induction => exact induction (answers name) resumes reached comes
  | stuck => cases comes

/-- Side by side, two pieces of work are done when the slower one is. -/
theorem outcome_both {first : Task (Except ε α)} {second : Task (Except ε β)} {value : α}
    {other : β} {now ended finished : Nat}
    (comes : first.outcome answers now = some (.ok value, ended))
    (beside : second.outcome answers now = some (.ok other, finished)) :
    (first.both second).outcome answers now = some (.ok (value, other), max ended finished) := by
  induction first generalizing second now finished with
  | done result =>
      cases comes
      rw [both, outcome_map, beside, Nat.max_eq_right (le_of_outcome beside)]
      rfl
  | waiting deadline resume induction =>
      exact outcome_alongside (fun rest finished => induction _ comes) (le_of_outcome comes) beside
  | opening name next induction => exact induction (answers name) comes beside
  | stuck => cases comes

end Task

namespace Opening

def answered (answers : String → Except QueryError Script) : Opening α → α
  | .done value => value
  | .opening name next => (next (answers name)).answered answers

theorem answered_map (opening : Opening α) (transform : α → β) :
    (opening.map transform).answered answers = transform (opening.answered answers) := by
  induction opening with
  | done value => rfl
  | opening name next induction => exact induction _

theorem answered_bind (opening : Opening α) (next : α → Opening β) :
    (opening.bind next).answered answers = (next (opening.answered answers)).answered answers := by
  induction opening with
  | done value => rfl
  | opening name answer induction => exact induction _

theorem outcome_toTask (opening : Opening α) (next : α → Task β) (now : Nat) :
    (opening.toTask next).outcome answers now =
      (next (opening.answered answers)).outcome answers now := by
  induction opening with
  | done value => rfl
  | opening name answer induction => exact induction _

end Opening

namespace Evaluation

variable {evaluation : Evaluation α} {result : Except QueryError α}

/-- Whenever the evaluation is asked for and run, this is the result. -/
def Settles (answers : String → Except QueryError Script) (evaluation : Evaluation α)
    (result : Except QueryError α) : Prop :=
  ∀ now, ∃ later, (evaluation.run now).outcome answers now = some (result, later)

theorem settles_ok (value : α) : (ok value).Settles answers (.ok value) :=
  fun now => ⟨now, rfl⟩

theorem Settles.map_result (settles : evaluation.Settles answers result) (transform : α → β) :
    (evaluation.map transform).Settles answers (result.map transform) := by
  intro now
  rcases settles now with ⟨later, outcome⟩
  refine ⟨later, ?_⟩
  rw [Evaluation.map, run_thenCheck, Task.outcome_map, outcome]
  cases result <;> rfl

theorem Settles.map {value : α} (settles : evaluation.Settles answers (.ok value))
    (transform : α → β) : (evaluation.map transform).Settles answers (.ok (transform value)) :=
  settles.map_result transform

theorem Settles.andThen {value : α} {next : α → Evaluation β} {following : Except QueryError β}
    (settles : evaluation.Settles answers (.ok value))
    (continues : (next value).Settles answers following) :
    (evaluation.andThen next).Settles answers following := by
  intro now
  rcases settles now with ⟨between, outcome⟩
  rcases continues between with ⟨later, rest⟩
  refine ⟨later, ?_⟩
  rw [run_andThen, Task.outcome_bind, outcome]
  exact rest

theorem Settles.both {other : Evaluation β} {value : α} {beside : β}
    (settles : evaluation.Settles answers (.ok value))
    (also : other.Settles answers (.ok beside)) :
    (evaluation.both other).Settles answers (.ok (value, beside)) := by
  intro now
  rcases settles now with ⟨ended, comes⟩
  rcases also now with ⟨finished, follows⟩
  simp only [run, Opening.outcome_toTask] at comes follows
  refine ⟨max ended finished, ?_⟩
  simp only [run, Evaluation.both, Opening.outcome_toTask, Opening.answered_bind,
    Opening.answered_map]
  exact Task.outcome_both comes follows

theorem both_ok (evaluation : Evaluation α) (other : β) :
    evaluation.both (ok other) = evaluation.map fun value => (value, other) := by
  induction evaluation with
  | done work => exact congrArg Opening.done (funext fun now => (work now).both_done_ok other)
  | opening name next induction => exact congrArg (Opening.opening name) (funext induction)

theorem Settles.all_singleton {value : α} (settles : evaluation.Settles answers (.ok value)) :
    (all [evaluation]).Settles answers (.ok [value]) := by
  rw [all, all, both_ok]
  exact (settles.map _).map _

end Evaluation

namespace Feed

/-- Asked now, the feed gives these values and ends, however late each further one is asked for. -/
inductive Delivers (answers : String → Except QueryError Script) : Feed α → Nat → List α → Prop
  | finished (now : Nat) : Delivers answers .finished now []
  | item (value : α) : (∀ later, now ≤ later → Delivers answers (rest later) later values) →
      Delivers answers (.item (.ok value) rest) now (value :: values)
  | waiting (deadline : Nat) :
      Delivers answers (resume (max deadline now)) (max deadline now) values →
      Delivers answers (.waiting deadline resume) now values
  | opening (name : String) : Delivers answers (next (answers name)) now values →
      Delivers answers (.opening name next) now values

theorem Delivers.run {feed : Feed α} {values : List α} {world : World}
    (delivers : feed.Delivers answers world.now values) (same : world.AnswersBy answers) :
    (Feed.run none feed world).items.map (·.2) = values.map .ok ∧
      (Feed.run none feed world).ended.isSome := by
  generalize equal : world.now = now at delivers
  induction delivers generalizing world with
  | finished => exact ⟨rfl, rfl⟩
  | item value _ induction =>
      subst equal
      have rest := induction _ (Nat.le_refl _) same rfl
      exact ⟨congrArg (List.cons _) rest.1, rest.2⟩
  | waiting deadline _ induction =>
      subst equal
      exact @induction (world.advance deadline) same rfl
  | opening name _ induction =>
      simp only [Feed.run, same.request name]
      exact @induction { world with opened := name :: world.opened } same equal

theorem delivers_ofDeliveries {deliveries : List Delivery} {values : List Value}
    (items : deliveries.map (·.item) = values.map .ok) (now : Nat) :
    (ofDeliveries true deliveries now).Delivers answers now values := by
  induction deliveries generalizing values now with
  | nil =>
      cases List.map_eq_nil_iff.mp items.symm
      exact .finished now
  | cons delivery deliveries induction =>
      cases values with
      | nil => cases items
      | cons value values =>
          have parts := List.cons.inj items
          have first : delivery.item = .ok value := parts.1
          have rest (now : Nat) : Delivers answers
              (.item (.ok value) (ofDeliveries true deliveries)) now (value :: values) :=
            .item value fun later _ => induction parts.2 later
          simp only [ofDeliveries, first]
          split
          · exact rest now
          · exact .waiting _ (rest _)

theorem delivers_emit (values : List α) {rest : Stream α}
    (finishes : ∀ now, (rest now).Delivers answers now []) (now : Nat) :
    (emit (values.map .ok) rest now).Delivers answers now values := by
  induction values generalizing now with
  | nil => exact finishes now
  | cons value values induction => exact .item value fun later _ => induction later

theorem delivers_afterTask {task : Task α} {next : α → Stream β} {values : List β}
    (outcome : task.outcome answers now = some (value, later))
    (delivers : (next value later).Delivers answers later values) :
    (afterTask task now next).Delivers answers now values := by
  induction task generalizing now with
  | done value =>
      cases outcome
      exact delivers
  | waiting deadline resume induction => exact .waiting deadline (induction _ outcome)
  | opening name answer induction => exact .opening name (induction _ outcome)
  | stuck => cases outcome

namespace Delivers

variable {now : Nat}

theorem map {feed : Feed α} {values : List α} (delivers : feed.Delivers answers now values)
    (transform : α → β) : (feed.map transform).Delivers answers now (values.map transform) := by
  induction delivers with
  | finished now => exact .finished now
  | item value _ induction => exact .item _ induction
  | waiting deadline _ induction => exact .waiting deadline induction
  | opening name _ induction => exact .opening name induction

theorem process {feed : Feed α} {values : List α} {policy : ErrorPolicy}
    {step : α → Evaluation (Option β)} {output : α → Option β}
    (steps : ∀ value ∈ values, (step value).Settles answers (.ok (output value)))
    (delivers : feed.Delivers answers now values) :
    (feed.process policy step now).Delivers answers now (values.filterMap output) := by
  induction delivers with
  | finished now => exact .finished now
  | @item now rest values value _ induction =>
      have parts := List.forall_mem_cons.mp steps
      rcases parts.1 now with ⟨later, outcome⟩
      have after := Task.le_of_outcome outcome
      simp only [Feed.process]
      refine delivers_afterTask outcome ?_
      cases given : output value with
      | none =>
          rw [List.filterMap_cons_none given]
          exact induction later after parts.2
      | some output =>
          rw [List.filterMap_cons_some given]
          exact .item _ fun asked reached => induction asked (Nat.le_trans after reached) parts.2
  | waiting deadline _ induction => exact .waiting deadline (induction steps)
  | opening name _ induction => exact .opening name (induction steps)

theorem process_all {feed : Feed α} {values : List α} {policy : ErrorPolicy}
    {step : α → Evaluation (Option β)} {output : α → β}
    (steps : ∀ value ∈ values, (step value).Settles answers (.ok (some (output value))))
    (delivers : feed.Delivers answers now values) :
    (feed.process policy step now).Delivers answers now (values.map output) := by
  rw [← List.filterMap_eq_map]
  exact delivers.process steps

end Delivers

end Feed

end StreamQuery
