import Mathlib.Data.List.Basic
import StreamQuery.Aggregate.InPlace
import StreamQuery.Proofs.Aggregate.Runs
namespace StreamQuery

/-! Operands that an accumulator refuses. The check of a fresh accumulator tells of every operand
whether it will be taken in, and one that is refused leaves no trace. -/

namespace Accumulator

/-! In place an accumulator becomes what an update makes of it. -/

def Carries (accumulator : Accumulator) (work : InPlace Unit)
    (updated : Except QueryError Accumulator) : Prop :=
  work.run accumulator =
    match updated with
    | .ok next => .ok () next
    | .error error => .error error accumulator

theorem carries_require {accumulator : Accumulator} (result : Except QueryError α)
    {work : α → InPlace Unit} {updated : α → Except QueryError Accumulator}
    (continues : ∀ value, accumulator.Carries (work value) (updated value)) :
    accumulator.Carries (require result >>= work) (result >>= updated) := by
  cases result with
  | error error => rfl
  | ok value => exact continues value

theorem carries_updateInPlace (accumulator : Accumulator) (operand : Value) :
    accumulator.Carries (updateInPlace operand) (accumulator.update operand) := by
  cases null : operand.isNull with
  | true =>
      -- Every kind but one passes over a null, and a row is counted whatever the operand.
      obtain rfl := Value.eq_null_of_isNull null
      cases accumulator <;> rfl
  | false =>
      rw [accumulator.update_of_present null]
      unfold Carries updateInPlace
      simp only [null]
      cases accumulator with
      | countRows | count | countDistinct | minimum | maximum => rfl
      | sum total =>
          apply carries_require (Aggregation.sum.numericOperand operand)
          intro number
          cases total <;> rfl
      | average total operands =>
          exact carries_require (Aggregation.average.numericOperand operand) fun _ => rfl
      | deviation operands mean squares =>
          exact carries_require (Aggregation.deviation.numericOperand operand) fun _ => rfl
      | geometricMean operands logarithms =>
          exact carries_require (Aggregation.positiveOperand operand) fun _ => rfl

/-! One request. -/

variable {accumulator : Accumulator} {operand : Value}

theorem perform_check (accumulator : Accumulator) (operand : Value) :
    accumulator.perform (.check operand) = (accumulator.check operand, accumulator) := by
  have ran : (checkInPlace operand).run accumulator =
      (require (accumulator.check operand)).run accumulator := rfl
  simp only [perform, Request.run, ran]
  cases accumulator.check operand <;> rfl

theorem perform_update_accepted (accepted : accumulator.check operand = .ok ()) :
    ∃ next, accumulator.update operand = .ok next ∧
      next.aggregation = accumulator.aggregation ∧
      accumulator.perform (.update operand) = (.ok (), next) := by
  have accepts := accumulator.accepts_update operand
  rw [accepted] at accepts
  rcases accepts with ⟨next, updates, kind⟩
  have carries := accumulator.carries_updateInPlace operand
  rw [updates] at carries
  refine ⟨next, updates, kind, ?_⟩
  simp only [perform, Request.run, show (updateInPlace operand).run accumulator = _ from carries]

theorem perform_update_refused {error : QueryError}
    (refused : accumulator.check operand = .error error) :
    accumulator.perform (.update operand) = (.error error, accumulator) := by
  have accepts := accumulator.accepts_update operand
  rw [refused] at accepts
  have carries := accumulator.carries_updateInPlace operand
  rw [show accumulator.update operand = .error error from accepts] at carries
  simp only [perform, Request.run, show (updateInPlace operand).run accumulator = _ from carries]

/-- What a request comes to goes by the kind of aggregate and by the operand alone. -/
def Request.expected (aggregation : Aggregation) : Request → Except QueryError Unit
  | .check operand | .update operand => aggregation.check operand

theorem perform_kind (accumulator : Accumulator) (request : Request) :
    (accumulator.perform request).1 = request.expected accumulator.aggregation ∧
      (accumulator.perform request).2.aggregation = accumulator.aggregation := by
  cases request with
  | check operand =>
      rw [perform_check]
      exact ⟨rfl, rfl⟩
  | update operand =>
      cases checked : accumulator.check operand with
      | ok =>
          rcases perform_update_accepted checked with ⟨_, _, kind, performs⟩
          rw [performs]
          exact ⟨checked.symm, kind⟩
      | error error =>
          rw [perform_update_refused checked]
          exact ⟨checked.symm, rfl⟩

/-! Several requests. -/

theorem after_cons (accumulator : Accumulator) (request : Request) (rest : List Request) :
    accumulator.after (request :: rest) = (accumulator.perform request).2.after rest := rfl

theorem after_kind (accumulator : Accumulator) (requests : List Request) :
    (accumulator.after requests).aggregation = accumulator.aggregation := by
  induction requests generalizing accumulator with
  | nil => rfl
  | cons request rest induction =>
      rw [after_cons, induction]
      exact (accumulator.perform_kind request).2

theorem replies_append (earlier later : List Request) (accumulator : Accumulator) :
    replies (earlier ++ later) accumulator =
      replies earlier accumulator ++ replies later (accumulator.after earlier) := by
  induction earlier generalizing accumulator with
  | nil => rfl
  | cons request rest induction => exact congrArg (List.cons _) (induction _)

theorem length_replies (requests : List Request) (accumulator : Accumulator) :
    (replies requests accumulator).length = requests.length := by
  induction requests generalizing accumulator with
  | nil => rfl
  | cons request rest induction => exact congrArg (· + 1) (induction _)

/-- A request that leaves the accumulator as it is adds its own reply and changes no other. -/
theorem replies_without {request : Request} {earlier : List Request}
    (leaves : ((accumulator.after earlier).perform request).2 = accumulator.after earlier)
    (later : List Request) :
    (replies (earlier ++ request :: later) accumulator).eraseIdx earlier.length =
      replies (earlier ++ later) accumulator := by
  have own : replies (request :: later) (accumulator.after earlier) =
      ⟨((accumulator.after earlier).perform request).1, (accumulator.after earlier).finish⟩ ::
        replies later (accumulator.after earlier) := by
    simp only [replies, leaves]
  rw [replies_append, replies_append, own,
    List.eraseIdx_append_of_length_le (Nat.le_of_eq (length_replies earlier accumulator)),
    length_replies, Nat.sub_self, List.eraseIdx_cons_zero]

end Accumulator

/-- Of the operands that are to be taken in, those that pass the check. -/
def Aggregation.accepted (aggregation : Aggregation) : List Accumulator.Request → List Value
  | [] => []
  | .check _ :: rest => aggregation.accepted rest
  | .update operand :: rest =>
      match aggregation.check operand with
      | .ok () => operand :: aggregation.accepted rest
      | .error _ => aggregation.accepted rest

namespace Accumulator

theorem foldlM_accepted (accumulator : Accumulator) (requests : List Request) :
    (accumulator.aggregation.accepted requests).foldlM update accumulator =
      .ok (accumulator.after requests) := by
  induction requests generalizing accumulator with
  | nil => rfl
  | cons request rest induction =>
      rw [after_cons]
      cases request with
      | check operand =>
          rw [perform_check, Aggregation.accepted]
          exact induction accumulator
      | update operand =>
          rw [Aggregation.accepted]
          cases checked : accumulator.aggregation.check operand with
          | ok =>
              rcases perform_update_accepted checked with ⟨next, updates, kind, performs⟩
              rw [performs, List.foldlM_cons, updates, ← kind]
              exact induction next
          | error error =>
              rw [perform_update_refused checked]
              exact induction accumulator

/-- Whatever has been asked before: a check and an update have one result, which a fresh accumulator
tells as well, a check changes nothing, and neither does an update that is refused. The aggregate is
that of the operands that were accepted, and all other replies are as without the refused update. -/
theorem check_tells_update (aggregation : Aggregation) (earlier : List Request) (operand : Value) :
    let fresh := start aggregation
    let reached := fresh.after earlier
    (reached.perform (.check operand)).1 = (reached.perform (.update operand)).1 ∧
      (fresh.perform (.check operand)).1 = (reached.perform (.check operand)).1 ∧
      (fresh.perform (.update operand)).1 = (reached.perform (.update operand)).1 ∧
      (reached.perform (.check operand)).2 = reached ∧
      aggregation.over (aggregation.accepted earlier) = .ok reached.finish ∧
      ∀ error, (reached.perform (.update operand)).1 = .error error →
        (reached.perform (.update operand)).2 = reached ∧
        ∀ later, (replies (earlier ++ .update operand :: later) fresh).eraseIdx earlier.length =
          replies (earlier ++ later) fresh := by
  intro fresh reached
  have kind : reached.aggregation = fresh.aggregation := fresh.after_kind earlier
  have alike (request : Request) : (fresh.perform request).1 = (reached.perform request).1 := by
    rw [(fresh.perform_kind request).1, (reached.perform_kind request).1, kind]
  have together : (reached.perform (.check operand)).1 = (reached.perform (.update operand)).1 :=
    (reached.perform_kind _).1.trans (reached.perform_kind (.update operand)).1.symm
  refine ⟨together, alike _, alike _, ?_, ?_, ?_⟩
  · rw [perform_check]
  · have all := fresh.foldlM_accepted earlier
    rw [start_aggregation] at all
    rw [Aggregation.over, all]
    rfl
  · intro error fails
    have refused : reached.check operand = .error error :=
      (reached.perform_kind (.update operand)).1.symm.trans fails
    have leaves : (reached.perform (.update operand)).2 = reached := by
      rw [perform_update_refused refused]
    exact ⟨leaves, replies_without leaves⟩

/-- A zero has no geometric mean with others, and is refused between two and eight. -/
theorem check_tells_update_zero :
    let fresh := start .geometricMean
    let earlier : List Request := [.update (.int64 2), .update (.string "x"), .check .null]
    let refused : Request := .update (.int64 0)
    ((fresh.after earlier).perform refused).1 =
        .error (.cast "0" "positive number (geomean)") ∧
      Aggregation.geometricMean.over [.int64 2] = .ok (fresh.after earlier).finish ∧
      (replies (earlier ++ refused :: [.update (.int64 8)]) fresh).eraseIdx 3 =
        replies (earlier ++ [.update (.int64 8)]) fresh := by
  intro fresh earlier refused
  have fails : ((fresh.after earlier).perform refused).1 =
      .error (.cast "0" "positive number (geomean)") := rfl
  rcases check_tells_update .geometricMean earlier (.int64 0) with
    ⟨_, _, _, _, accepted, traceless⟩
  exact ⟨fails, accepted, (traceless _ fails).2 _⟩

end Accumulator

end StreamQuery
