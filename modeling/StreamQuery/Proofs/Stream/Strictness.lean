import StreamQuery.Stream.Run
namespace StreamQuery

/-! Work that is done more strictly goes on like the other until it fails. Then it is over, whatever
becomes of the other. -/

namespace Task

inductive Stricter : Task (Except QueryError α) → Task (Except QueryError α) → Prop
  | done (result : Except QueryError α) : Stricter (.done result) (.done result)
  | failed (error : QueryError) (other : Task (Except QueryError α)) :
      Stricter (.done (.error error)) other
  | waiting : (∀ now, Stricter (resume now) (other now)) →
      Stricter (.waiting deadline resume) (.waiting deadline other)
  | opening : (∀ answer, Stricter (next answer) (other answer)) →
      Stricter (.opening name next) (.opening name other)
  | stuck : Stricter .stuck .stuck

theorem Stricter.refl (task : Task (Except QueryError α)) : task.Stricter task := by
  induction task with
  | done result => exact .done result
  | waiting deadline resume induction => exact .waiting induction
  | opening name next induction => exact .opening induction
  | stuck => exact .stuck

theorem Stricter.bind {task other : Task (Except QueryError α)}
    {next following : Except QueryError α → Nat → Task (Except QueryError β)}
    (stricter : task.Stricter other)
    (continues : ∀ value now, (next (.ok value) now).Stricter (following (.ok value) now))
    (fails : ∀ error now, ∃ failure, next (.error error) now = .done (.error failure)) (now : Nat) :
    (task.bind now next).Stricter (other.bind now following) := by
  have failed (error : QueryError) (now : Nat) (other : Task (Except QueryError β)) :
      (next (.error error) now).Stricter other := by
    rcases fails error now with ⟨failure, same⟩
    rw [same]
    exact .failed failure other
  induction stricter generalizing now with
  | done result =>
      cases result with
      | ok value => exact continues value now
      | error error => exact failed error now _
  | failed error other => exact failed error now _
  | waiting _ induction => exact .waiting fun now => induction now now
  | opening _ induction => exact .opening fun answer => induction answer now
  | stuck => exact .stuck

theorem Stricter.map {task other : Task (Except QueryError α)} (stricter : task.Stricter other)
    (next : α → Except QueryError β) :
    (task.map fun result => result.bind next).Stricter (other.map fun result => result.bind next) := by
  induction stricter with
  | done result => exact .done _
  | failed error other => exact .failed error _
  | waiting _ induction => exact .waiting induction
  | opening _ induction => exact .opening induction
  | stuck => exact .stuck

theorem Stricter.failure {task other : Task (Except QueryError α)} (stricter : task.Stricter other) :
    (task.failure : Task (Except QueryError β)).Stricter other.failure := by
  induction stricter with
  | done result => exact .refl _
  | failed error other => exact .failed error _
  | waiting _ induction => exact .waiting induction
  | opening _ induction => exact .opening induction
  | stuck => exact .stuck

theorem Stricter.alongside {second other : Task (Except QueryError β)}
    {resume resumed : Nat → Task (Except QueryError β) → Task (Except QueryError (α × β))}
    (stricter : second.Stricter other)
    (resumes : ∀ now second other, second.Stricter other →
      (resume now second).Stricter (resumed now other)) :
    (second.alongside deadline resume).Stricter (other.alongside deadline resumed) := by
  induction stricter with
  | done result =>
      cases result with
      | ok value => exact .waiting fun now => resumes now _ _ (.done (.ok value))
      | error error => exact .failed error _
  | failed error other => exact .failed error _
  | waiting going induction =>
      refine .waiting ?_
      intro now
      split
      · apply resumes now _ _
        split
        · exact going now
        · exact .waiting going
      · exact induction now
  | opening _ induction => exact .opening induction
  | stuck => exact .waiting fun now => resumes now _ _ .stuck

theorem Stricter.both {first firstOther : Task (Except QueryError α)}
    {second secondOther : Task (Except QueryError β)} (firstStricter : first.Stricter firstOther)
    (secondStricter : second.Stricter secondOther) :
    (first.both second).Stricter (firstOther.both secondOther) := by
  induction firstStricter generalizing second secondOther with
  | done result =>
      cases result with
      | ok value => exact secondStricter.map fun other => .ok (value, other)
      | error error => exact .failed error _
  | failed error other => exact .failed error _
  | waiting _ induction =>
      exact secondStricter.alongside fun now _ _ stricter => induction now stricter
  | opening _ induction => exact .opening fun answer => induction answer secondStricter
  | stuck => exact secondStricter.failure

end Task

namespace Opening

inductive Related (relation : α → β → Prop) : Opening α → Opening β → Prop
  | done : relation value other → Related relation (.done value) (.done other)
  | opening : (∀ answer, Related relation (next answer) (other answer)) →
      Related relation (.opening name next) (.opening name other)

variable {relation : α → β → Prop} {opening : Opening α} {other : Opening β}

theorem Related.map {image : γ → δ → Prop} {transform : α → γ} {otherTransform : β → δ}
    (related : opening.Related relation other)
    (maps : ∀ value other, relation value other → image (transform value) (otherTransform other)) :
    (opening.map transform).Related image (other.map otherTransform) := by
  induction related with
  | done holds => exact .done (maps _ _ holds)
  | opening _ induction => exact .opening induction

theorem Related.bind {image : γ → δ → Prop} {next : α → Opening γ} {otherNext : β → Opening δ}
    (related : opening.Related relation other)
    (continues : ∀ value other, relation value other →
      (next value).Related image (otherNext other)) :
    (opening.bind next).Related image (other.bind otherNext) := by
  induction related with
  | done holds => exact continues _ _ holds
  | opening _ induction => exact .opening induction

theorem Related.toTask {next : α → Task (Except QueryError γ)}
    {otherNext : β → Task (Except QueryError γ)} (related : opening.Related relation other)
    (continues : ∀ value other, relation value other → (next value).Stricter (otherNext other)) :
    (opening.toTask next).Stricter (other.toTask otherNext) := by
  induction related with
  | done holds => exact continues _ _ holds
  | opening _ induction => exact .opening induction

end Opening

namespace Evaluation

def Stricter (evaluation other : Evaluation α) : Prop :=
  Opening.Related (fun work other => ∀ now, (work now).Stricter (other now)) evaluation other

theorem stricter_ofExcept (result : Except QueryError α) :
    (ofExcept result).Stricter (ofExcept result) :=
  .done fun _ => .done result

theorem stricter_reading (read : Nat → Except QueryError α) :
    (reading read).Stricter (reading read) :=
  .done fun now => .done (read now)

theorem stricter_ok (value : α) : (ok value).Stricter (ok value) :=
  stricter_ofExcept (.ok value)

variable {evaluation other : Evaluation α}

theorem Stricter.run (stricter : evaluation.Stricter other) (now : Nat) :
    (evaluation.run now).Stricter (other.run now) :=
  Opening.Related.toTask stricter fun _ _ holds => holds now

theorem Stricter.defer (stricter : evaluation.Stricter other) :
    evaluation.defer.Stricter other.defer :=
  .done stricter.run

theorem Stricter.thenCheck (stricter : evaluation.Stricter other)
    (next : α → Except QueryError β) :
    (evaluation.thenCheck next).Stricter (other.thenCheck next) :=
  Opening.Related.map stricter fun _ _ holds now => (holds now).map next

theorem Stricter.andThen {next following : α → Evaluation β} (stricter : evaluation.Stricter other)
    (continues : ∀ value, (next value).Stricter (following value)) :
    (evaluation.andThen next).Stricter (other.andThen following) :=
  Opening.Related.map stricter fun _ _ holds now =>
    (holds now).bind (fun value now => (continues value).run now) (fun error _ => ⟨error, rfl⟩) now

theorem Stricter.both {second secondOther : Evaluation β} (first : evaluation.Stricter other)
    (secondStricter : second.Stricter secondOther) :
    (evaluation.both second).Stricter (other.both secondOther) :=
  Opening.Related.bind first fun _ _ holds =>
    Opening.Related.map secondStricter fun _ _ secondHolds now => (holds now).both (secondHolds now)

end Evaluation

end StreamQuery
