import StreamQuery.Proofs.Stream.Strictness
import StreamQuery.Stream.Stage
namespace StreamQuery

/-! Work that is begun later does the same, and every wait ends later by as much. What it comes to
does not depend on the instant at which it is begun. -/

namespace Task

inductive Delayed (delay : Nat) : Task α → Task α → Prop
  | done (value : α) : Delayed delay (.done value) (.done value)
  | waiting : (∀ now, Delayed delay (resume now) (other (now + delay))) →
      Delayed delay (.waiting deadline resume) (.waiting (deadline + delay) other)
  | opening : (∀ answer, Delayed delay (next answer) (other answer)) →
      Delayed delay (.opening name next) (.opening name other)
  | stuck : Delayed delay .stuck .stuck

variable {delay : Nat}

theorem Delayed.bind {task other : Task α} {next following : α → Nat → Task β}
    (delayed : task.Delayed delay other)
    (continues : ∀ value now, (next value now).Delayed delay (following value (now + delay)))
    (now : Nat) : (task.bind now next).Delayed delay (other.bind (now + delay) following) := by
  induction delayed generalizing now with
  | done value => exact continues value now
  | waiting _ induction => exact .waiting fun now => induction now now
  | opening _ induction => exact .opening fun answer => induction answer now
  | stuck => exact .stuck

theorem Delayed.map {task other : Task α} (delayed : task.Delayed delay other)
    (transform : α → β) : (task.map transform).Delayed delay (other.map transform) := by
  induction delayed with
  | done value => exact .done _
  | waiting _ induction => exact .waiting induction
  | opening _ induction => exact .opening induction
  | stuck => exact .stuck

theorem Delayed.failure {task other : Task (Except ε α)} (delayed : task.Delayed delay other) :
    (task.failure : Task (Except ε β)).Delayed delay other.failure := by
  induction delayed with
  | done result =>
      cases result with
      | ok value => exact .stuck
      | error error => exact .done _
  | waiting _ induction => exact .waiting induction
  | opening _ induction => exact .opening induction
  | stuck => exact .stuck

theorem Delayed.alongside {second other : Task (Except ε β)}
    {resume resumed : Nat → Task (Except ε β) → Task (Except ε (α × β))}
    (delayed : second.Delayed delay other)
    (resumes : ∀ now second other, second.Delayed delay other →
      (resume now second).Delayed delay (resumed (now + delay) other)) :
    (second.alongside deadline resume).Delayed delay
      (other.alongside (deadline + delay) resumed) := by
  induction delayed with
  | done result =>
      cases result with
      | ok value => exact .waiting fun now => resumes now _ _ (.done _)
      | error error => exact .done _
  | waiting going induction =>
      simp only [Task.alongside, Nat.add_min_add_right]
      refine .waiting ?_
      intro now
      simp only [Nat.add_le_add_iff_right]
      split
      · apply resumes now _ _
        split
        · exact going now
        · exact .waiting going
      · exact induction now
  | opening _ induction => exact .opening induction
  | stuck => exact .waiting fun now => resumes now _ _ .stuck

theorem Delayed.both {first firstOther : Task (Except ε α)} {second secondOther : Task (Except ε β)}
    (firstDelayed : first.Delayed delay firstOther)
    (secondDelayed : second.Delayed delay secondOther) :
    (first.both second).Delayed delay (firstOther.both secondOther) := by
  induction firstDelayed generalizing second secondOther with
  | done result =>
      cases result with
      | ok value => exact secondDelayed.map _
      | error error => exact .done _
  | waiting _ induction =>
      exact secondDelayed.alongside fun now _ _ delayed => induction now delayed
  | opening _ induction => exact .opening fun answer => induction answer secondDelayed
  | stuck => exact secondDelayed.failure

end Task

namespace Evaluation

variable {delay : Nat}

/-- Asked for later by so much, the evaluation opens the same and then runs later by as much. -/
def Delayed (delay : Nat) (evaluation other : Evaluation α) : Prop :=
  Opening.Related (fun work other => ∀ now, (work now).Delayed delay (other (now + delay)))
    evaluation other

theorem delayed_reading {read later : Nat → Except QueryError α}
    (same : ∀ now, later (now + delay) = read now) :
    (reading read).Delayed delay (reading later) := by
  refine .done fun now => ?_
  rw [same]
  exact .done (read now)

theorem delayed_ok (value : α) : (ok value).Delayed delay (ok value) :=
  delayed_reading fun _ => rfl

variable {evaluation other : Evaluation α}

theorem Delayed.run (delayed : evaluation.Delayed delay other) (now : Nat) :
    (evaluation.run now).Delayed delay (other.run (now + delay)) := by
  induction delayed with
  | done holds => exact holds now
  | opening _ induction => exact .opening induction

theorem Delayed.defer (delayed : evaluation.Delayed delay other) :
    evaluation.defer.Delayed delay other.defer :=
  .done delayed.run

theorem Delayed.thenCheck (delayed : evaluation.Delayed delay other)
    (next : α → Except QueryError β) :
    (evaluation.thenCheck next).Delayed delay (other.thenCheck next) :=
  Opening.Related.map delayed fun _ _ holds now => (holds now).map _

theorem Delayed.andThen {next following : α → Evaluation β}
    (delayed : evaluation.Delayed delay other)
    (continues : ∀ value, (next value).Delayed delay (following value)) :
    (evaluation.andThen next).Delayed delay (other.andThen following) := by
  refine Opening.Related.map delayed fun _ _ holds now => (holds now).bind ?_ now
  intro result now
  cases result with
  | ok value => exact (continues value).run now
  | error error => exact .done _

theorem Delayed.both {second secondOther : Evaluation β} (first : evaluation.Delayed delay other)
    (secondDelayed : second.Delayed delay secondOther) :
    (evaluation.both second).Delayed delay (other.both secondOther) :=
  Opening.Related.bind first fun _ _ holds =>
    Opening.Related.map secondDelayed fun _ _ secondHolds now => (holds now).both (secondHolds now)

end Evaluation

/-! Feeds. -/

namespace Feed

inductive Delayed (delay : Nat) : Feed α → Feed α → Prop
  | finished : Delayed delay .finished .finished
  | item (entry : Except QueryError α) :
      (∀ now, Delayed delay (rest now) (other (now + delay))) →
      Delayed delay (.item entry rest) (.item entry other)
  | waiting : (∀ now, Delayed delay (resume now) (other (now + delay))) →
      Delayed delay (.waiting deadline resume) (.waiting (deadline + delay) other)
  | opening : (∀ answer, Delayed delay (next answer) (other answer)) →
      Delayed delay (.opening name next) (.opening name other)
  | silent : Delayed delay .silent .silent

end Feed

namespace Stream

/-- Begun later by so much, the second stream shows what the first does, each item as much later. -/
def Delayed (delay : Nat) (stream other : Stream α) : Prop :=
  ∀ now, (stream now).Delayed delay (other (now + delay))

end Stream

namespace Feed

variable {delay : Nat}

theorem delayed_emit (entries : List (Except QueryError α)) {rest other : Stream α}
    (delayed : rest.Delayed delay other) :
    (emit entries rest).Delayed delay (emit entries other) := by
  induction entries with
  | nil => exact delayed
  | cons entry entries induction => exact fun _ => .item entry induction

theorem delayed_ofItems (entries : List (Except QueryError α)) :
    (ofItems entries).Delayed delay (ofItems entries) :=
  delayed_emit entries fun _ => .finished

theorem delayed_ofResult (result : Except QueryError (List α)) :
    (ofResult result).Delayed delay (ofResult result) := by
  cases result <;> exact delayed_ofItems _

theorem delayed_ofDeliveries (ends : Bool) (deliveries : List Delivery) :
    (ofDeliveries ends deliveries).Delayed delay (ofDeliveries ends deliveries) := by
  induction deliveries with
  | nil =>
      intro now
      cases ends with
      | true => exact .finished
      | false => exact .silent
  | cons delivery deliveries induction =>
      intro now
      simp only [ofDeliveries]
      split
      · exact .item _ induction
      · rw [Nat.add_right_comm]
        exact .waiting fun _ => .item _ induction

theorem delayed_afterTask {task other : Task α} {next following : α → Stream β}
    (delayed : task.Delayed delay other)
    (continues : ∀ value, (next value).Delayed delay (following value)) (now : Nat) :
    (afterTask task now next).Delayed delay (afterTask other (now + delay) following) := by
  induction delayed generalizing now with
  | done value => exact continues value now
  | waiting _ induction => exact .waiting fun now => induction now now
  | opening _ induction => exact .opening fun answer => induction answer now
  | stuck => exact .silent

namespace Delayed

theorem map {feed other : Feed α} (delayed : feed.Delayed delay other) (transform : α → β) :
    (feed.map transform).Delayed delay (other.map transform) := by
  induction delayed with
  | finished => exact .finished
  | item entry _ induction => exact .item _ induction
  | waiting _ induction => exact .waiting induction
  | opening _ induction => exact .opening induction
  | silent => exact .silent

theorem first {feed other : Feed α} (delayed : feed.Delayed delay other) :
    feed.first.Delayed delay other.first := by
  induction delayed with
  | finished => exact .done _
  | item entry _ _ => exact .done _
  | waiting _ induction => exact .waiting induction
  | opening _ induction => exact .opening induction
  | silent => exact .stuck

theorem collect {feed other : Feed α} (delayed : feed.Delayed delay other) (collected : List α)
    (now : Nat) :
    (feed.collect collected now).Delayed delay (other.collect collected (now + delay)) := by
  induction delayed generalizing collected now with
  | finished => exact .done _
  | item entry _ induction =>
      cases entry with
      | ok value => exact induction now _ now
      | error error => exact .done _
  | waiting _ induction => exact .waiting fun now => induction now collected now
  | opening _ induction => exact .opening fun answer => induction answer collected now
  | silent => exact .stuck

theorem process {policy : ErrorPolicy} {step following : α → Evaluation (Option β)}
    (steps : ∀ value, (step value).Delayed delay (following value)) {feed other : Feed α}
    (delayed : feed.Delayed delay other) (now : Nat) :
    (feed.process policy step now).Delayed delay
      (other.process policy following (now + delay)) := by
  induction delayed generalizing now with
  | finished => exact .finished
  | item entry _ induction =>
      cases entry with
      | error error => exact .item _ fun _ => .finished
      | ok value =>
          simp only [Feed.process]
          refine delayed_afterTask ((steps value).run now) ?_ now
          intro result now
          cases result with
          | ok output =>
              cases output with
              | some output => exact .item _ fun now => induction now now
              | none => exact induction now now
          | error error =>
              dsimp only
              split
              · exact induction now now
              · exact .item _ fun _ => .finished
  | waiting _ induction => exact .waiting fun now => induction now now
  | opening _ induction => exact .opening fun answer => induction answer now
  | silent => exact .silent

theorem distinct {feed other : Feed Shaped} (delayed : feed.Delayed delay other)
    (seen : List Value) (now : Nat) :
    (feed.distinct seen now).Delayed delay (other.distinct seen (now + delay)) := by
  induction delayed generalizing seen now with
  | finished => exact .finished
  | item entry _ induction =>
      cases entry with
      | error error => exact .item _ fun now => induction now seen now
      | ok shaped =>
          simp only [Feed.distinct]
          split
          · exact induction now seen now
          · exact .item _ fun now => induction now _ now
  | waiting _ induction => exact .waiting fun now => induction now seen now
  | opening _ induction => exact .opening fun answer => induction answer seen now
  | silent => exact .silent

theorem sort {feed other : Feed Shaped} (delayed : feed.Delayed delay other)
    (descending : List Bool) (now : Nat) :
    (feed.sort descending now).Delayed delay (other.sort descending (now + delay)) :=
  delayed_afterTask (delayed.collect [] now) (fun _ => delayed_ofResult _) now

theorem skip {feed other : Feed α} (delayed : feed.Delayed delay other) (offset now : Nat) :
    (feed.skip offset now).Delayed delay (other.skip offset (now + delay)) := by
  induction delayed generalizing offset now with
  | finished => cases offset <;> exact .finished
  | item entry _ induction =>
      cases entry with
      | error error => cases offset <;> exact .item _ fun now => induction now _ now
      | ok value =>
          cases offset with
          | zero => exact .item _ fun now => induction now 0 now
          | succ offset => exact induction now offset now
  | waiting _ induction => cases offset <;> exact .waiting fun now => induction now _ now
  | opening _ induction => cases offset <;> exact .opening fun answer => induction answer _ now
  | silent => cases offset <;> exact .silent

theorem take {feed other : Feed α} (delayed : feed.Delayed delay other) (count : Nat) :
    (feed.take count).Delayed delay (other.take count) := by
  induction delayed generalizing count with
  | finished => exact .finished
  | item entry _ induction =>
      refine .item _ ?_
      intro now
      split
      · exact .finished
      · exact induction now _
  | waiting _ induction => exact .waiting fun now => induction now count
  | opening _ induction => exact .opening fun answer => induction answer count
  | silent => exact .silent

end Delayed

end Feed

theorem Limit.delayed_apply {delay : Nat} {stream other : Stream α}
    (delayed : stream.Delayed delay other) (limit : Limit) :
    Stream.Delayed delay (limit.apply stream) (limit.apply other) := by
  intro now
  simp only [Limit.apply]
  split
  · exact (delayed now).skip limit.offset now
  · exact .finished
  · exact ((delayed now).skip limit.offset now).take _

end StreamQuery
