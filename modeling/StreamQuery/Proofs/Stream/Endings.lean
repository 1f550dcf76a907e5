import StreamQuery.Proofs.Stream.Items
import StreamQuery.Stream.Stage
namespace StreamQuery

/-! How feeds and runs end. A source may go on after an error. A stage does not: the first error that
it passes on or raises is the last of its items. -/

namespace Feed

/-- Nothing follows an error. -/
inductive FailsLast {α : Type} : Feed α → Prop
  | finished : FailsLast .finished
  | value : (∀ now, FailsLast (rest now)) → FailsLast (.item (.ok value) rest)
  | error : (∀ now, rest now = .finished) → FailsLast (.item (.error error) rest)
  | waiting : (∀ now, FailsLast (resume now)) → FailsLast (.waiting deadline resume)
  | opening : (∀ answer, FailsLast (next answer)) → FailsLast (.opening name next)
  | silent : FailsLast .silent

theorem failsLast_afterTask {task : Task α} {next : α → Stream β}
    (continues : ∀ value now, (next value now).FailsLast) (now : Nat) :
    (afterTask task now next).FailsLast := by
  induction task generalizing now with
  | done value => exact continues value now
  | waiting deadline resume induction => exact .waiting fun now => induction now now
  | opening name answer induction => exact .opening fun script => induction script now
  | stuck => exact .silent

theorem failsLast_values (values : List α) (now : Nat) :
    (ofItems (values.map .ok) now).FailsLast := by
  induction values generalizing now with
  | nil => exact .finished
  | cons value values induction => exact .value induction

theorem failsLast_ofResult (result : Except QueryError (List α)) (now : Nat) :
    (ofResult result now).FailsLast := by
  cases result with
  | ok values => exact failsLast_values values now
  | error error => exact .error fun _ => rfl

/-! Steps and sorting stop at the first error of any feed, whatever comes after it there. -/

theorem failsLast_process (policy : ErrorPolicy) (step : α → Evaluation (Option β))
    (feed : Feed α) (now : Nat) : (feed.process policy step now).FailsLast := by
  induction feed generalizing now with
  | finished => exact .finished
  | item entry rest induction =>
      cases entry with
      | error error => exact .error fun _ => rfl
      | ok value =>
          simp only [Feed.process]
          refine failsLast_afterTask (fun result later => ?_) now
          split
          · exact .value fun now => induction now now
          · exact induction later later
          · split
            · exact induction later later
            · exact .error fun _ => rfl
  | waiting deadline resume induction => exact .waiting fun now => induction now now
  | opening name next induction => exact .opening fun answer => induction answer now
  | silent => exact .silent

theorem failsLast_sort (descending : List Bool) (feed : Feed Shaped) (now : Nat) :
    (feed.sort descending now).FailsLast :=
  failsLast_afterTask (fun _ later => failsLast_ofResult _ later) now

/-! The other stages add nothing after the last item. -/

namespace FailsLast

theorem map {feed : Feed α} (last : feed.FailsLast) (transform : α → β) :
    (feed.map transform).FailsLast := by
  induction last with
  | finished => exact .finished
  | value _ induction => exact .value induction
  | error finishes => exact .error fun now => by rw [finishes]; rfl
  | waiting _ induction => exact .waiting induction
  | opening _ induction => exact .opening induction
  | silent => exact .silent

theorem distinct {feed : Feed Shaped} (last : feed.FailsLast) (seen : List Value) (now : Nat) :
    (feed.distinct seen now).FailsLast := by
  induction last generalizing seen now with
  | finished => exact .finished
  | value _ induction =>
      simp only [Feed.distinct]
      split
      · exact induction now seen now
      · exact .value fun now => induction now _ now
  | error finishes => exact .error fun now => by rw [finishes]; rfl
  | waiting _ induction => exact .waiting fun now => induction now seen now
  | opening _ induction => exact .opening fun answer => induction answer seen now
  | silent => exact .silent

theorem skip {feed : Feed α} (last : feed.FailsLast) (offset now : Nat) :
    (Feed.skip offset feed now).FailsLast := by
  induction last generalizing offset now with
  | finished =>
      simp only [Feed.skip]
      exact .finished
  | value _ induction =>
      cases offset with
      | zero => exact .value fun now => induction now 0 now
      | succ offset => exact induction now offset now
  | error finishes =>
      simp only [Feed.skip]
      exact .error fun now => by rw [finishes, Feed.skip]
  | waiting _ induction =>
      simp only [Feed.skip]
      exact .waiting fun now => induction now offset now
  | opening _ induction =>
      simp only [Feed.skip]
      exact .opening fun answer => induction answer offset now
  | silent =>
      simp only [Feed.skip]
      exact .silent

theorem take {feed : Feed α} (last : feed.FailsLast) (count : Nat) :
    (feed.take count).FailsLast := by
  induction last generalizing count with
  | finished => exact .finished
  | value _ induction =>
      refine .value fun now => ?_
      split
      · exact .finished
      · exact induction now _
  | error finishes => exact .error fun now => by rw [finishes]; exact ite_self _
  | waiting _ induction => exact .waiting fun now => induction now count
  | opening _ induction => exact .opening fun answer => induction answer count
  | silent => exact .silent

end FailsLast

end Feed

namespace Stream

def FailsLast (stream : Stream α) : Prop :=
  ∀ now, (stream now).FailsLast

end Stream

theorem Limit.failsLast_apply {stream : Stream α} (last : stream.FailsLast) (limit : Limit) :
    (limit.apply stream).FailsLast := by
  intro now
  simp only [Limit.apply]
  split
  · exact (last now).skip _ now
  · exact .finished
  · exact ((last now).skip _ now).take _

/-! Runs. -/

namespace Run

def shown (values : List (Nat × α)) : List (Nat × Except QueryError α) :=
  values.map fun (instant, value) => (instant, .ok value)

/-- The run shows values and then one error at most. At an error it ends, unless no more items were
wanted. -/
inductive FailsLast (wanted : Option Nat) (run : Run α) : Prop
  | succeeded (values : List (Nat × α)) : run.items = shown values → FailsLast wanted run
  | failed (values : List (Nat × α)) (instant : Nat) (error : QueryError) :
      run.items = shown values ++ [(instant, .error error)] →
      run.ended = some instant ∨ wanted = some run.items.length → FailsLast wanted run

theorem FailsLast.cons {run : Run α} {wanted : Option Nat} (last : run.FailsLast wanted)
    (now : Nat) (value : α) :
    (run.cons now (.ok value)).FailsLast (wanted.map (· + 1)) := by
  have items {others : List (Nat × Except QueryError α)} (same : run.items = others) :
      (run.cons now (.ok value)).items = (now, .ok value) :: others :=
    congrArg ((now, Except.ok value) :: ·) same
  cases last with
  | succeeded values all => exact .succeeded ((now, value) :: values) (items all)
  | failed values instant error all ends =>
      refine .failed ((now, value) :: values) instant error (items all) ?_
      exact ends.imp_right (congrArg (Option.map (· + 1)))

end Run

theorem Feed.FailsLast.run {feed : Feed α} (last : feed.FailsLast) {wanted : Option Nat}
    (asked : wanted ≠ some 0) (world : World) : (Feed.run wanted feed world).FailsLast wanted := by
  induction last generalizing wanted world with
  | finished => exact .succeeded [] rfl
  | @value rest value _ induction =>
      simp only [Feed.run]
      split
      · next count =>
          have more : some (count + 1) ≠ some 0 := by simp
          exact (induction world.now more world).cons world.now value
      · exact .succeeded [(world.now, value)] rfl
      · exact (induction world.now asked world).cons world.now value
  | @error rest error finishes =>
      simp only [Feed.run, finishes]
      split
      · exact .failed [] world.now error rfl (.inl rfl)
      · next count more =>
          have one : count = 1 := by
            rcases count with _ | _ | count
            · exact absurd rfl asked
            · rfl
            · exact absurd rfl (more count)
          exact .failed [] world.now error rfl (.inr (congrArg some one))
      · exact .failed [] world.now error rfl (.inl rfl)
  | waiting _ induction => exact induction _ asked _
  | opening _ induction => exact induction _ asked _
  | silent => exact .succeeded [] rfl

theorem Opening.Always.run {holds : α → Prop} {opening : Opening α}
    (always : opening.Always (fun _ => True) holds) (world : World) :
    holds (opening.run world).1 := by
  induction always generalizing world with
  | done valid => exact valid
  | opening _ induction => exact induction _ trivial _

theorem Stream.run_failsLast {opening : Opening (Stream α)}
    (last : opening.Always (fun _ => True) Stream.FailsLast) (wanted : Option Nat)
    (world : World) : (Stream.run wanted opening world).FailsLast wanted := by
  simp only [Stream.run]
  split
  · exact .succeeded [] rfl
  · next asked => exact (last.run world _).run asked _

end StreamQuery
