import StreamQuery.Proofs.Stream.Strictness
import StreamQuery.Stream.Stage
namespace StreamQuery

/-! A stricter feed shows what the other shows until it fails. Its error is the last that it shows,
whatever the other goes on to show. -/

namespace Feed

inductive Stricter : Feed α → Feed α → Prop
  | finished : Stricter .finished .finished
  | item (entry : Except QueryError α) : (∀ now, Stricter (rest now) (other now)) →
      Stricter (.item entry rest) (.item entry other)
  | failed (error : QueryError) (other : Feed α) : (∀ now, rest now = .finished) →
      Stricter (.item (.error error) rest) other
  | waiting : (∀ now, Stricter (resume now) (other now)) →
      Stricter (.waiting deadline resume) (.waiting deadline other)
  | opening : (∀ answer, Stricter (next answer) (other answer)) →
      Stricter (.opening name next) (.opening name other)
  | silent : Stricter .silent .silent

theorem Stricter.refl (feed : Feed α) : feed.Stricter feed := by
  induction feed with
  | finished => exact .finished
  | item entry rest induction => exact .item entry induction
  | waiting deadline resume induction => exact .waiting induction
  | opening name next induction => exact .opening induction
  | silent => exact .silent

theorem stricter_error (error : QueryError) (other : Feed α) (now : Nat) :
    (ofItems [.error error] now).Stricter other :=
  .failed error other fun _ => rfl

theorem stricter_emit (entries : List (Except QueryError α)) {rest other : Stream α}
    (stricter : ∀ now, (rest now).Stricter (other now)) (now : Nat) :
    (emit entries rest now).Stricter (emit entries other now) := by
  induction entries generalizing now with
  | nil => exact stricter now
  | cons entry entries induction => exact .item entry induction

theorem stricter_afterTask {task other : Task (Except QueryError α)}
    {next following : Except QueryError α → Stream β} (stricter : task.Stricter other)
    (continues : ∀ value now, (next (.ok value) now).Stricter (following (.ok value) now))
    (fails : ∀ error now other, (next (.error error) now).Stricter other) (now : Nat) :
    (afterTask task now next).Stricter (afterTask other now following) := by
  induction stricter generalizing now with
  | done result =>
      cases result with
      | ok value => exact continues value now
      | error error => exact fails error now _
  | failed error other => exact fails error now _
  | waiting _ induction => exact .waiting fun now => induction now now
  | opening _ induction => exact .opening fun answer => induction answer now
  | stuck => exact .silent

theorem Stricter.map {feed other : Feed α} (stricter : feed.Stricter other) (transform : α → β) :
    (feed.map transform).Stricter (other.map transform) := by
  induction stricter with
  | finished => exact .finished
  | item entry _ induction => exact .item _ induction
  | failed error other finishes =>
      refine .failed error _ ?_
      intro now
      rw [finishes now]
      rfl
  | waiting _ induction => exact .waiting induction
  | opening _ induction => exact .opening induction
  | silent => exact .silent

/-! Work that reads a feed. -/

theorem Stricter.first {feed other : Feed α} (stricter : feed.Stricter other)
    {next : Option (Except QueryError α) → Except QueryError β}
    (fails : ∀ error, ∃ failure, next (some (.error error)) = .error failure) :
    (feed.first.map next).Stricter (other.first.map next) := by
  induction stricter with
  | finished => exact .refl _
  | item entry _ _ => exact .refl _
  | failed error other _ =>
      rcases fails error with ⟨failure, same⟩
      simp only [Feed.first, Task.map]
      rw [same]
      exact .failed failure _
  | waiting _ induction => exact .waiting induction
  | opening _ induction => exact .opening induction
  | silent => exact .stuck

theorem Stricter.collect {feed other : Feed α} (stricter : feed.Stricter other)
    (collected : List α) (now : Nat) :
    (feed.collect collected now).Stricter (other.collect collected now) := by
  induction stricter generalizing collected now with
  | finished => exact .refl _
  | item entry _ induction =>
      cases entry with
      | ok value => exact induction now _ now
      | error error => exact .refl _
  | failed error other _ => exact .failed error _
  | waiting _ induction => exact .waiting fun now => induction now collected now
  | opening _ induction => exact .opening fun answer => induction answer collected now
  | silent => exact .stuck

/-! Stages. -/

/-- Steps under the policy to fail, and their less strict forms under the policy to skip. -/
theorem Stricter.process {step following : α → Evaluation (Option β)}
    (steps : ∀ value, (step value).Stricter (following value)) {feed other : Feed α}
    (stricter : feed.Stricter other) (now : Nat) :
    (feed.process .fail step now).Stricter (other.process .skip following now) := by
  induction stricter generalizing now with
  | finished => exact .finished
  | item entry _ induction =>
      cases entry with
      | error error => exact .failed error _ fun _ => rfl
      | ok value =>
          simp only [Feed.process]
          refine stricter_afterTask ((steps value).run now) ?_ ?_ now
          · intro output now
            cases output with
            | some output => exact .item _ fun now => induction now now
            | none => exact induction now now
          · intro error now other
            exact .failed error other fun _ => rfl
  | failed error other _ => exact .failed error _ fun _ => rfl
  | waiting _ induction => exact .waiting fun now => induction now now
  | opening _ induction => exact .opening fun answer => induction answer now
  | silent => exact .silent

theorem Stricter.distinct {feed other : Feed Shaped} (stricter : feed.Stricter other)
    (seen : List Value) (now : Nat) :
    (feed.distinct seen now).Stricter (other.distinct seen now) := by
  induction stricter generalizing seen now with
  | finished => exact .finished
  | item entry _ induction =>
      cases entry with
      | error error => exact .item _ fun now => induction now seen now
      | ok shaped =>
          simp only [Feed.distinct]
          split
          · exact induction now seen now
          · exact .item _ fun now => induction now _ now
  | failed error other finishes =>
      refine .failed error _ ?_
      intro now
      rw [finishes now]
      rfl
  | waiting _ induction => exact .waiting fun now => induction now seen now
  | opening _ induction => exact .opening fun answer => induction answer seen now
  | silent => exact .silent

theorem Stricter.sort {feed other : Feed Shaped} (stricter : feed.Stricter other)
    (descending : List Bool) (now : Nat) :
    (feed.sort descending now).Stricter (other.sort descending now) :=
  stricter_afterTask (stricter.collect [] now) (fun _ _ => .refl _)
    (fun error now other => stricter_error error other now) now

theorem Stricter.skip {feed other : Feed α} (stricter : feed.Stricter other) (offset now : Nat) :
    (feed.skip offset now).Stricter (other.skip offset now) := by
  induction stricter generalizing offset now with
  | finished => cases offset <;> exact .finished
  | item entry _ induction =>
      cases entry with
      | error error =>
          cases offset <;> exact .item _ fun now => induction now _ now
      | ok value =>
          cases offset with
          | zero => exact .item _ fun now => induction now 0 now
          | succ offset => exact induction now offset now
  | failed error other finishes =>
      cases offset <;>
        refine .failed error _ fun now => ?_ <;>
        rw [finishes now] <;> rfl
  | waiting _ induction =>
      cases offset <;> exact .waiting fun now => induction now _ now
  | opening _ induction =>
      cases offset <;> exact .opening fun answer => induction answer _ now
  | silent => cases offset <;> exact .silent

theorem Stricter.take {feed other : Feed α} (stricter : feed.Stricter other) (count : Nat) :
    (feed.take count).Stricter (other.take count) := by
  induction stricter generalizing count with
  | finished => exact .finished
  | item entry _ induction =>
      refine .item _ ?_
      intro now
      split
      · exact .finished
      · exact induction now _
  | failed error other finishes =>
      refine .failed error _ ?_
      intro now
      rw [finishes now]
      split <;> rfl
  | waiting _ induction => exact .waiting fun now => induction now count
  | opening _ induction => exact .opening fun answer => induction answer count
  | silent => exact .silent

end Feed

namespace Stream

def Stricter (stream other : Stream α) : Prop :=
  ∀ now, (stream now).Stricter (other now)

end Stream

theorem Limit.stricter_apply {stream other : Stream α} (stricter : stream.Stricter other)
    (limit : Limit) : Stream.Stricter (limit.apply stream) (limit.apply other) := by
  intro now
  simp only [Limit.apply]
  split
  · exact (stricter now).skip limit.offset now
  · exact .finished
  · exact ((stricter now).skip limit.offset now).take _

end StreamQuery
