import StreamQuery.Proofs.Results
import StreamQuery.Proofs.Stream.SameItems
namespace StreamQuery

/-! A feed of which only the beginning is there. Stages that take no time themselves make of it the
beginning of what they make of the whole. -/

variable {free : Prop}

/-- The evaluation opens nothing and takes no time. What it comes to may go by the instant, unless
it is free to run at any. -/
def Evaluation.AtOnce (free : Prop) (evaluation : Evaluation α) : Prop :=
  ∃ work, evaluation = .done work ∧ ∀ now, ∃ result, ∀ later, InTime free now later →
    work later = .done result

namespace Evaluation.AtOnce

variable {evaluation : Evaluation α}

theorem ok (value : α) : (Evaluation.ok value).AtOnce free :=
  ⟨_, rfl, fun _ => ⟨.ok value, fun _ _ => rfl⟩⟩

theorem run (atOnce : evaluation.AtOnce free) (now : Nat) :
    ∃ result, ∀ later, InTime free now later → evaluation.run later = .done result := by
  rcases atOnce with ⟨work, rfl, results⟩
  exact results now

theorem thenCheck (atOnce : evaluation.AtOnce free) (next : α → Except QueryError β) :
    (evaluation.thenCheck next).AtOnce free := by
  rcases atOnce with ⟨work, rfl, results⟩
  refine ⟨_, rfl, fun now => ?_⟩
  rcases results now with ⟨result, same⟩
  refine ⟨result.bind next, fun later inTime => ?_⟩
  simp only [same later inTime]
  rfl

theorem map (atOnce : evaluation.AtOnce free) (transform : α → β) :
    (evaluation.map transform).AtOnce free :=
  atOnce.thenCheck _

theorem andThen {next : α → Evaluation β} (atOnce : evaluation.AtOnce free)
    (follows : ∀ value, (next value).AtOnce free) : (evaluation.andThen next).AtOnce free := by
  rcases atOnce with ⟨work, rfl, results⟩
  refine ⟨_, rfl, fun now => ?_⟩
  rcases results now with ⟨error | value, same⟩
  · refine ⟨.error error, fun later inTime => ?_⟩
    simp only [same later inTime]
    rfl
  · rcases (follows value).run now with ⟨result, onward⟩
    refine ⟨result, fun later inTime => ?_⟩
    simp only [same later inTime]
    exact onward later inTime

theorem both {second : Evaluation β} (atOnce : evaluation.AtOnce free)
    (other : second.AtOnce free) : (evaluation.both second).AtOnce free := by
  rcases atOnce with ⟨work, rfl, results⟩
  rcases other with ⟨otherWork, rfl, others⟩
  refine ⟨_, rfl, fun now => ?_⟩
  rcases results now with ⟨result, same⟩
  rcases others now with ⟨other, alsoSame⟩
  refine ⟨result.bind fun value => other.map fun other => (value, other), fun later inTime => ?_⟩
  simp only [same later inTime, alsoSame later inTime]
  cases result <;> rfl

theorem defer (atOnce : evaluation.AtOnce free) : evaluation.defer.AtOnce free :=
  ⟨_, rfl, atOnce.run⟩

end Evaluation.AtOnce

namespace Feed

/-- The items of the first feed are those that the other one begins with. Where the first falls
silent the other may go on. Feeds that keep time wait together; feeds that are free wait on their
own. -/
inductive Begins (free : Prop) : Feed α → Feed α → Prop
  | silent : Begins free .silent feed
  | finished : Begins free .finished .finished
  | item : (∀ now later, InTime free now later → Begins free (rest now) (others later)) →
      Begins free (.item entry rest) (.item entry others)
  | waiting : (∀ now later, InTime free now later → Begins free (resume now) (other later)) →
      Begins free (.waiting deadline resume) (.waiting deadline other)
  | waitingLeft : free → (∀ now, Begins free (resume now) feed) →
      Begins free (.waiting deadline resume) feed
  | waitingRight : free → (∀ now, Begins free feed (resume now)) →
      Begins free feed (.waiting deadline resume)

namespace Begins

variable {now later : Nat}

theorem run {feed other : Feed α} (begins : feed.Begins free other) {world different : World}
    (inTime : InTime free world.now different.now)
    (ends : (Feed.run none feed world).ended.isSome) :
    (Feed.run none other different).items.map (·.2) = (Feed.run none feed world).items.map (·.2) ∧
      (Feed.run none other different).ended.isSome := by
  induction begins generalizing world different with
  | silent => cases ends
  | finished => exact ⟨rfl, rfl⟩
  | @item _ _ entry _ induction =>
      have onward := @induction world.now different.now inTime world different inTime ends
      exact ⟨congrArg (List.cons entry) onward.1, onward.2⟩
  | @waiting _ _ deadline _ induction =>
      have together : InTime free (world.advance deadline).now (different.advance deadline).now :=
        inTime.imp_right (congrArg (max deadline))
      exact @induction _ _ together (world.advance deadline) _ together ends
  | @waitingLeft _ _ deadline isFree _ induction =>
      exact @induction _ (world.advance deadline) _ (.inl isFree) ends
  | waitingRight isFree _ induction => exact induction _ (.inl isFree) ends

theorem map {feed other : Feed α} (begins : feed.Begins free other) (transform : α → β) :
    (feed.map transform).Begins free (other.map transform) := by
  induction begins with
  | silent => exact .silent
  | finished => exact .finished
  | item _ induction => exact .item induction
  | waiting _ induction => exact .waiting induction
  | waitingLeft isFree _ induction => exact .waitingLeft isFree induction
  | waitingRight isFree _ induction => exact .waitingRight isFree induction

theorem process {policy : ErrorPolicy} {step : α → Evaluation (Option β)}
    (atOnce : ∀ value, (step value).AtOnce free) {feed other : Feed α}
    (begins : feed.Begins free other) (inTime : InTime free now later) :
    (feed.process policy step now).Begins free (other.process policy step later) := by
  induction begins generalizing now later with
  | silent => exact .silent
  | finished => exact .finished
  | @item _ _ entry _ induction =>
      cases entry with
      | error error => exact .item fun _ _ _ => .finished
      | ok value =>
          rcases (atOnce value).run now with ⟨result, done⟩
          simp only [Feed.process, done now (.refl free now), done later inTime, afterTask]
          rcases result with error | _ | output
          · dsimp only
            split
            · exact induction _ _ inTime inTime
            · exact .item fun _ _ _ => .finished
          · exact induction _ _ inTime inTime
          · exact .item fun now later inTime => induction _ _ inTime inTime
  | waiting _ induction =>
      exact .waiting fun now later inTime => induction now later inTime inTime
  | waitingLeft isFree _ induction =>
      exact .waitingLeft isFree fun now => induction now (.inl isFree)
  | waitingRight isFree _ induction =>
      exact .waitingRight isFree fun later => induction later (.inl isFree)

theorem distinct {feed other : Feed Shaped} (begins : feed.Begins free other)
    (inTime : InTime free now later) (seen : List Value) :
    (feed.distinct seen now).Begins free (other.distinct seen later) := by
  induction begins generalizing seen now later with
  | silent => exact .silent
  | finished => exact .finished
  | @item _ _ entry _ induction =>
      cases entry with
      | error error => exact .item fun now later inTime => induction _ _ inTime inTime seen
      | ok shaped =>
          simp only [Feed.distinct]
          split
          · exact induction _ _ inTime inTime seen
          · exact .item fun now later inTime => induction _ _ inTime inTime _
  | waiting _ induction =>
      exact .waiting fun now later inTime => induction now later inTime inTime seen
  | waitingLeft isFree _ induction =>
      exact .waitingLeft isFree fun now => induction now (.inl isFree) seen
  | waitingRight isFree _ induction =>
      exact .waitingRight isFree fun later => induction later (.inl isFree) seen

theorem skip {feed other : Feed α} (begins : feed.Begins free other)
    (inTime : InTime free now later) (offset : Nat) :
    (feed.skip offset now).Begins free (other.skip offset later) := by
  induction begins generalizing offset now later with
  | silent => cases offset <;> exact .silent
  | finished => cases offset <;> exact .finished
  | @item _ _ entry _ induction =>
      cases entry with
      | error error =>
          cases offset <;> exact .item fun now later inTime => induction _ _ inTime inTime _
      | ok value =>
          cases offset with
          | zero => exact .item fun now later inTime => induction _ _ inTime inTime 0
          | succ offset => exact induction _ _ inTime inTime offset
  | waiting _ induction =>
      cases offset <;>
        exact .waiting fun now later inTime => induction now later inTime inTime _
  | waitingLeft isFree _ induction =>
      cases offset <;> exact .waitingLeft isFree fun now => induction now (.inl isFree) _
  | waitingRight isFree _ induction =>
      cases offset <;> exact .waitingRight isFree fun later => induction later (.inl isFree) _

theorem take {feed other : Feed α} (begins : feed.Begins free other) (count : Nat) :
    (feed.take count).Begins free (other.take count) := by
  induction begins generalizing count with
  | silent => exact .silent
  | finished => exact .finished
  | item _ induction =>
      apply Begins.item
      intro now later inTime
      split
      · exact .finished
      · exact induction now later inTime (count - 1)
  | waiting _ induction =>
      exact .waiting fun now later inTime => induction now later inTime count
  | waitingLeft isFree _ induction => exact .waitingLeft isFree fun now => induction now count
  | waitingRight isFree _ induction =>
      exact .waitingRight isFree fun later => induction later count

end Begins

end Feed

/-- The two bring the same, and after the same time unless they are free. -/
structure Delivery.Alike (free : Prop) (delivery other : Delivery) : Prop where
  item : delivery.item = other.item
  after : InTime free delivery.after other.after

theorem Feed.begins_ofDeliveries {first front others : List Delivery}
    (alike : List.Forall₂ (Delivery.Alike free) first front) (within : front <+: others)
    (ends : Bool) {now later : Nat} (inTime : InTime free now later) :
    (ofDeliveries false first now).Begins free (ofDeliveries ends others later) := by
  induction alike generalizing others now later with
  | nil => exact .silent
  | @cons delivery other first front same _ induction =>
      rcases within with ⟨behind, rfl⟩
      have items : (Feed.item delivery.item (ofDeliveries false first)).Begins free
          (.item other.item (ofDeliveries ends (front ++ behind))) := by
        rw [same.item]
        exact .item fun now later inTime => induction (List.prefix_append front behind) inTime
      simp only [List.cons_append, ofDeliveries]
      rcases same.after with isFree | after
      · split <;> split
        · exact items
        · exact .waitingRight isFree fun _ => items
        · exact .waitingLeft isFree fun _ => items
        · exact .waitingLeft isFree fun _ => .waitingRight isFree fun _ => items
      · rw [after]
        split
        · exact items
        · rcases inTime with isFree | rfl
          · exact .waitingLeft isFree fun _ => .waitingRight isFree fun _ => items
          · exact .waiting fun _ _ _ => items

end StreamQuery
