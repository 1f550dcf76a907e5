import StreamQuery.Proofs.Stream.Delays
import StreamQuery.Proofs.Stream.Deliveries
namespace StreamQuery

/-! Two feeds with the same items. Each may open sources where the other opens none, which are
always answered alike. Feeds that keep time wait together and go on at the same instant; feeds that
are free wait on their own. -/

variable {answers : String → Except QueryError Script} {free : Prop}

/-- The instants at which the two feeds are asked. -/
def InTime (free : Prop) (now later : Nat) : Prop :=
  free ∨ now = later

theorem InTime.refl (free : Prop) (now : Nat) : InTime free now now :=
  .inr rfl

theorem InTime.symm {now later : Nat} (inTime : InTime free now later) : InTime free later now :=
  inTime.imp_right Eq.symm

/-- Whatever the evaluation opens and waits for, it does the same where it is free to begin at
another instant. -/
def Evaluation.Timeless (free : Prop) (evaluation : Evaluation α) : Prop :=
  ∀ delay, free ∨ delay = 0 → evaluation.Delayed delay evaluation

namespace Feed

inductive SameEntry (same : α → β → Prop) : Except QueryError α → Except QueryError β → Prop
  | ok : same value other → SameEntry same (.ok value) (.ok other)
  | error (error : QueryError) : SameEntry same (.error error) (.error error)

theorem SameEntry.symm {same : α → β → Prop} {entry : Except QueryError α}
    {other : Except QueryError β} (entries : SameEntry same entry other) :
    SameEntry (flip same) other entry := by
  cases entries with
  | ok values => exact .ok values
  | error error => exact .error error

theorem SameEntry.eq {entry other : Except QueryError α} (entries : SameEntry Eq entry other) :
    entry = other := by
  cases entries with
  | ok values => exact congrArg Except.ok values
  | error error => rfl

/-- The items of the feed asked at `now` are those of the other one asked at `later`. -/
inductive Matches (answers : String → Except QueryError Script) (free : Prop)
    (same : α → β → Prop) : Feed α → Nat → Feed β → Nat → Prop
  | finished : Matches answers free same .finished now .finished later
  | silent : Matches answers free same .silent now .silent later
  | item : SameEntry same entry other →
      (∀ instant following, InTime free instant following →
        Matches answers free same (rest instant) instant (others following) following) →
      Matches answers free same (.item entry rest) now (.item other others) later
  | waiting : (∀ instant, deadline ≤ instant →
        Matches answers free same (resume instant) instant (other instant) instant) →
      Matches answers free same (.waiting deadline resume) now (.waiting deadline other) now
  | waitingLeft : free →
      Matches answers free same (resume (max deadline now)) (max deadline now) feed later →
      Matches answers free same (.waiting deadline resume) now feed later
  | waitingRight : free →
      Matches answers free same feed now (resume (max deadline later)) (max deadline later) →
      Matches answers free same feed now (.waiting deadline resume) later
  | openingLeft : Matches answers free same (next (answers name)) now feed later →
      Matches answers free same (.opening name next) now feed later
  | openingRight : Matches answers free same feed now (next (answers name)) later →
      Matches answers free same feed now (.opening name next) later

variable {same : α → β → Prop} {now later : Nat}

theorem Matches.symm {feed : Feed α} {other : Feed β}
    (pair : Matches answers free same feed now other later) :
    Matches answers free (flip same) other later feed now := by
  induction pair with
  | finished => exact .finished
  | silent => exact .silent
  | item entries _ induction =>
      exact .item entries.symm fun instant following inTime =>
        induction following instant inTime.symm
  | waiting _ induction => exact .waiting induction
  | waitingLeft free _ induction => exact .waitingRight free induction
  | waitingRight free _ induction => exact .waitingLeft free induction
  | openingLeft _ induction => exact .openingRight induction
  | openingRight _ induction => exact .openingLeft induction

/-- In worlds that answer so, runs of the two feeds show the same items. -/
theorem Matches.run {feed other : Feed α} (pair : Matches answers free Eq feed now other later)
    {world different : World} (first : world.now = now) (second : different.now = later)
    (inTime : InTime free now later) (same : world.AnswersBy answers)
    (alike : different.AnswersBy answers) (wanted : Option Nat) :
    (Feed.run wanted feed world).items.map (·.2) =
      (Feed.run wanted other different).items.map (·.2) := by
  induction pair generalizing world different wanted with
  | finished => rfl
  | silent => rfl
  | item entries _ induction =>
      subst first second
      have onward (wanted : Option Nat) := induction _ _ inTime rfl rfl inTime same alike wanted
      obtain rfl := entries.eq
      rcases wanted with _ | _ | _ | count
      · exact congrArg (List.cons _) (onward none)
      · rfl
      · rfl
      · exact congrArg (List.cons _) (onward (some (count + 1)))
  | @waiting deadline _ _ now _ induction =>
      -- The two worlds wake up at one instant.
      have together : (world.advance deadline).now = max deadline now := by
        rw [← first]
        rfl
      have alsoTogether : (different.advance deadline).now = max deadline now := by
        rw [← second]
        rfl
      simp only [Feed.run, together, alsoTogether]
      exact induction _ (Nat.le_max_left _ _) together alsoTogether (.refl _ _) same alike wanted
  | @waitingLeft _ deadline _ _ _ free _ induction =>
      subst first
      exact @induction (world.advance deadline) different rfl second (.inl free) same alike wanted
  | @waitingRight _ _ _ deadline _ free _ induction =>
      subst second
      exact @induction world (different.advance deadline) first rfl (.inl free) same alike wanted
  | openingLeft _ induction =>
      simp only [Feed.run, same.request]
      refine induction ?_ second inTime ?_ alike wanted
      · exact first
      · exact same
  | openingRight _ induction =>
      simp only [Feed.run, alike.request]
      refine induction first ?_ inTime same ?_ wanted
      · exact second
      · exact alike

/-! Feeds that are put together from the same work. -/

theorem matches_emit {entries : List (Except QueryError α)} {rest other : Stream α}
    (inTime : InTime free now later)
    (onward : ∀ instant following, InTime free instant following →
      Matches answers free Eq (rest instant) instant (other following) following) :
    Matches answers free Eq (emit entries rest now) now (emit entries other later) later := by
  induction entries generalizing now later with
  | nil => exact onward now later inTime
  | cons entry entries induction =>
      have same : SameEntry Eq entry entry := by
        cases entry with
        | ok value => exact .ok rfl
        | error error => exact .error error
      exact .item same fun _ _ inTime => induction inTime

theorem matches_ofItems (items : List (Except QueryError α)) (inTime : InTime free now later) :
    Matches answers free Eq (ofItems items now) now (ofItems items later) later :=
  matches_emit inTime fun _ _ _ => .finished

theorem matches_ofResult (result : Except QueryError (List α)) (inTime : InTime free now later) :
    Matches answers free Eq (ofResult result now) now (ofResult result later) later := by
  cases result <;> exact matches_ofItems _ inTime

section
variable {work : Type} {next : work → Stream α} {following : work → Stream β}

theorem matches_delayed {task other : Task work} {delay : Nat} (delayed : task.Delayed delay other)
    (together : free ∨ delay = 0)
    (onward : ∀ value instant coming, InTime free instant coming →
      Matches answers free same (next value instant) instant (following value coming) coming)
    (now : Nat) :
    Matches answers free same (afterTask task now next) now
      (afterTask other (now + delay) following) (now + delay) := by
  have inTime (now : Nat) : InTime free now (now + delay) :=
    together.imp_right fun none => by rw [none, Nat.add_zero]
  induction delayed generalizing now with
  | done value => exact onward value now _ (inTime now)
  | @waiting _ _ deadline _ induction =>
      rcases together with free | rfl
      · refine .waitingLeft free (.waitingRight free ?_)
        rw [Nat.add_max_add_right]
        exact induction _ _
      · exact .waiting fun instant _ => induction instant instant
  | opening _ induction => exact .openingLeft (.openingRight (induction _ now))
  | stuck => exact .silent

theorem matches_run {evaluation : Evaluation work} (timeless : evaluation.Timeless free)
    (inTime : InTime free now later) {next : Except QueryError work → Stream α}
    {following : Except QueryError work → Stream β}
    (onward : ∀ result instant coming, InTime free instant coming →
      Matches answers free same (next result instant) instant (following result coming) coming) :
    Matches answers free same (afterTask (evaluation.run now) now next) now
      (afterTask (evaluation.run later) later following) later := by
  rcases inTime with isFree | rfl
  · -- The one that begins later is the other one delayed.
    rcases Nat.le_total now later with before | after
    · rcases Nat.exists_eq_add_of_le before with ⟨delay, rfl⟩
      exact matches_delayed ((timeless delay (.inl isFree)).run now) (.inl isFree) onward now
    · rcases Nat.exists_eq_add_of_le after with ⟨delay, rfl⟩
      exact (matches_delayed ((timeless delay (.inl isFree)).run later) (.inl isFree)
        (fun result instant coming inTime => (onward result coming instant inTime.symm).symm)
        later).symm
  · exact matches_delayed ((timeless 0 (.inr rfl)).run now) (.inr rfl) onward now

end

/-! Stages. -/

namespace Matches

theorem map {feed other : Feed α} (pair : Matches answers free Eq feed now other later)
    (transform : α → β) :
    Matches answers free Eq (feed.map transform) now (other.map transform) later := by
  induction pair with
  | finished => exact .finished
  | silent => exact .silent
  | item entries _ induction =>
      obtain rfl := entries.eq
      refine .item ?_ induction
      cases entries with
      | ok => exact .ok rfl
      | error error => exact .error error
  | waiting _ induction => exact .waiting induction
  | waitingLeft free _ induction => exact .waitingLeft free induction
  | waitingRight free _ induction => exact .waitingRight free induction
  | openingLeft _ induction => exact .openingLeft induction
  | openingRight _ induction => exact .openingRight induction

theorem process {policy : ErrorPolicy} {step : α → Evaluation (Option β)}
    (timeless : ∀ value, (step value).Timeless free) {feed other : Feed α}
    (pair : Matches answers free Eq feed now other later) (inTime : InTime free now later) :
    Matches answers free Eq (feed.process policy step now) now (other.process policy step later)
      later := by
  induction pair with
  | finished => exact .finished
  | silent => exact .silent
  | item entries _ induction =>
      obtain rfl := entries.eq
      cases entries with
      | error error => exact .item (.error error) fun _ _ _ => .finished
      | @ok value =>
          simp only [Feed.process]
          refine matches_run (timeless value) inTime ?_
          intro result instant coming inTime
          cases result with
          | ok output =>
              cases output with
              | some output =>
                  exact .item (.ok rfl) fun instant following inTime =>
                    induction instant following inTime inTime
              | none => exact induction instant coming inTime inTime
          | error error =>
              dsimp only
              split
              · exact induction instant coming inTime inTime
              · exact .item (.error error) fun _ _ _ => .finished
  | waiting _ induction => exact .waiting fun instant after => induction instant after (.refl _ _)
  | waitingLeft free _ induction => exact .waitingLeft free (induction (.inl free))
  | waitingRight free _ induction => exact .waitingRight free (induction (.inl free))
  | openingLeft _ induction => exact .openingLeft (induction inTime)
  | openingRight _ induction => exact .openingRight (induction inTime)

theorem distinct {feed other : Feed Shaped} (pair : Matches answers free Eq feed now other later)
    (inTime : InTime free now later) (seen : List Value) :
    Matches answers free Eq (feed.distinct seen now) now (other.distinct seen later) later := by
  induction pair generalizing seen with
  | finished => exact .finished
  | silent => exact .silent
  | item entries _ induction =>
      obtain rfl := entries.eq
      cases entries with
      | error error =>
          exact .item (.error error) fun instant following inTime =>
            induction instant following inTime inTime seen
      | ok =>
          simp only [Feed.distinct]
          split
          · exact induction _ _ inTime inTime seen
          · exact .item (.ok rfl) fun instant following inTime =>
              induction instant following inTime inTime _
  | waiting _ induction =>
      exact .waiting fun instant after => induction instant after (.refl _ _) seen
  | waitingLeft free _ induction => exact .waitingLeft free (induction (.inl free) seen)
  | waitingRight free _ induction => exact .waitingRight free (induction (.inl free) seen)
  | openingLeft _ induction => exact .openingLeft (induction inTime seen)
  | openingRight _ induction => exact .openingRight (induction inTime seen)

theorem collect {feed other : Feed α} {next : Except QueryError (List α) → Stream β}
    (pair : Matches answers free Eq feed now other later) (inTime : InTime free now later)
    (onward : ∀ result instant coming, InTime free instant coming →
      Matches answers free Eq (next result instant) instant (next result coming) coming)
    (collected : List α) :
    Matches answers free Eq (afterTask (feed.collect collected now) now next) now
      (afterTask (other.collect collected later) later next) later := by
  induction pair generalizing collected with
  | finished => exact onward _ _ _ inTime
  | silent => exact .silent
  | item entries _ induction =>
      obtain rfl := entries.eq
      cases entries with
      | error error => exact onward _ _ _ inTime
      | ok => exact induction _ _ inTime inTime _
  | waiting _ induction =>
      exact .waiting fun instant after => induction instant after (.refl _ _) collected
  | waitingLeft free _ induction => exact .waitingLeft free (induction (.inl free) collected)
  | waitingRight free _ induction => exact .waitingRight free (induction (.inl free) collected)
  | openingLeft _ induction => exact .openingLeft (induction inTime collected)
  | openingRight _ induction => exact .openingRight (induction inTime collected)

theorem sort {feed other : Feed Shaped} (pair : Matches answers free Eq feed now other later)
    (inTime : InTime free now later) (descending : List Bool) :
    Matches answers free Eq (feed.sort descending now) now (other.sort descending later) later :=
  pair.collect inTime
    (fun result _ _ inTime => matches_ofResult (result.map (Shaped.sort descending)) inTime) []

theorem skip {feed other : Feed α} (pair : Matches answers free Eq feed now other later)
    (inTime : InTime free now later) (offset : Nat) :
    Matches answers free Eq (feed.skip offset now) now (other.skip offset later) later := by
  induction pair generalizing offset with
  | finished => cases offset <;> exact .finished
  | silent => cases offset <;> exact .silent
  | item entries _ induction =>
      obtain rfl := entries.eq
      cases entries with
      | error error =>
          cases offset <;>
            exact .item (.error error) fun instant following inTime =>
              induction instant following inTime inTime _
      | ok =>
          cases offset with
          | zero =>
              exact .item (.ok rfl) fun instant following inTime =>
                induction instant following inTime inTime 0
          | succ offset => exact induction _ _ inTime inTime offset
  | waiting _ induction =>
      cases offset <;> exact .waiting fun instant after => induction instant after (.refl _ _) _
  | waitingLeft free _ induction =>
      cases offset <;> exact .waitingLeft free (induction (.inl free) _)
  | waitingRight free _ induction =>
      cases offset <;> exact .waitingRight free (induction (.inl free) _)
  | openingLeft _ induction => cases offset <;> exact .openingLeft (induction inTime _)
  | openingRight _ induction => cases offset <;> exact .openingRight (induction inTime _)

theorem take {feed other : Feed α} (pair : Matches answers free Eq feed now other later)
    (count : Nat) : Matches answers free Eq (feed.take count) now (other.take count) later := by
  induction pair generalizing count with
  | finished => exact .finished
  | silent => exact .silent
  | item entries _ induction =>
      refine .item entries ?_
      intro instant following inTime
      split
      · exact .finished
      · exact induction instant following inTime _
  | waiting _ induction => exact .waiting fun instant after => induction instant after count
  | waitingLeft free _ induction => exact .waitingLeft free (induction count)
  | waitingRight free _ induction => exact .waitingRight free (induction count)
  | openingLeft _ induction => exact .openingLeft (induction count)
  | openingRight _ induction => exact .openingRight (induction count)

end Matches

end Feed

end StreamQuery
