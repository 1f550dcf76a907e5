import StreamQuery.Plan.Source
import StreamQuery.Proofs.Stream.Progress
import StreamQuery.Proofs.Stream.Promptness
namespace StreamQuery

/-! A condition of a join and a filter behind it. The join tries the condition on all pairs before
it puts out the first one, the filter on one pair after the other as they are asked for. -/

variable {answers : String → Except QueryError Script} {free : Prop}

/-- All pairs of a row on the left and one on the right. -/
def JoinInput.pairs (input : JoinInput) : List Value :=
  input.left.flatMap fun left => input.right.map (input.combine left)

namespace NestedLoop

variable {context : Context} {predicate : Predicate} {verdict : Value → Bool}

theorem acceptedOf_none (context : Context) (pairs : List Value) :
    acceptedOf none context pairs = .ok pairs := by
  induction pairs with
  | nil => rfl
  | cons pair rest induction =>
      rw [acceptedOf, induction]
      rfl

theorem joinEach_none (context : Context) (pairs : Value → List Value) (rows : List Value) :
    joinEach none context pairs (fun _ => []) rows = .ok (rows.flatMap pairs) := by
  induction rows with
  | nil => rfl
  | cons row rest induction =>
      rw [joinEach, acceptedOf_none, induction, List.flatMap_cons]
      cases pairs row <;> rfl

theorem joinEach_nil (condition : Option Predicate) (context : Context) {pairs : Value → List Value}
    {rows : List Value} (empty : rows.flatMap pairs = []) :
    joinEach condition context pairs (fun _ => []) rows = .ok [] := by
  induction rows with
  | nil => rfl
  | cons row rest induction =>
      rw [List.flatMap_cons] at empty
      have parts := List.append_eq_nil_iff.mp empty
      rw [joinEach, parts.1, induction parts.2]
      rfl

theorem acceptedOf_arrives {pairs : List Value}
    (arrives : ∀ pair ∈ pairs, (predicate context pair).Arrives answers free (.ok (verdict pair))) :
    (acceptedOf (some predicate) context pairs).Arrives answers free
      (.ok (pairs.filter verdict)) := by
  induction pairs with
  | nil => exact Evaluation.arrives_ok []
  | cons pair rest induction =>
      have parts := List.forall_mem_cons.mp arrives
      rw [List.filter_cons]
      exact parts.1.andThen ((induction parts.2).map _)

theorem joinEach_arrives {pairs : Value → List Value} {rows : List Value}
    (arrives : ∀ pair ∈ rows.flatMap pairs,
      (predicate context pair).Arrives answers free (.ok (verdict pair))) :
    (joinEach (some predicate) context pairs (fun _ => []) rows).Arrives answers free
      (.ok ((rows.flatMap pairs).filter verdict)) := by
  induction rows with
  | nil => exact Evaluation.arrives_ok []
  | cons row rest induction =>
      rw [List.flatMap_cons] at arrives
      have parts := List.forall_mem_append.mp arrives
      rw [List.flatMap_cons, List.filter_append]
      have kept (matched : List Value) : (if matched.isEmpty then [] else matched) = matched := by
        cases matched <;> rfl
      simp only [joinEach, kept]
      exact (acceptedOf_arrives parts.1).andThen ((induction parts.2).map _)

end NestedLoop

namespace Feed

theorem matches_filtered (policy : ErrorPolicy) {pairs : List Value}
    {evaluate : Value → Evaluation Bool} {verdict : Value → Bool} {now later : Nat}
    (arrives : ∀ pair ∈ pairs, (evaluate pair).Arrives answers free (.ok (verdict pair)))
    (inTime : InTime free now later) :
    Matches answers free Eq
      ((ofItems (pairs.map .ok) now).process policy
        (fun pair => (evaluate pair).map fun kept => if kept then some pair else none) now) now
      (ofItems ((pairs.filter verdict).map .ok) later) later := by
  induction pairs generalizing now later with
  | nil => exact .finished
  | cons pair rest induction =>
      have parts := List.forall_mem_cons.mp arrives
      rcases (parts.1.map fun kept => if kept then some pair else none) now with ⟨reached, reaches⟩
      -- A condition that keeps time has not moved the clock.
      have together : InTime free reached later := by
        rcases reaches.inTime with isFree | rfl
        · exact .inl isFree
        · exact inTime
      simp only [List.map_cons, ofItems, emit, Feed.process]
      refine Matches.afterTask reaches ?_
      rw [List.filter_cons]
      cases verdict pair with
      | true => exact .item (.ok rfl) fun instant following inTime => induction parts.2 inTime
      | false => exact induction parts.2 together

end Feed

/-! Two sources. -/

namespace JoinStep

def crossing (source : Source) : JoinStep :=
  ⟨source, .nestedLoop .cross, none⟩

def joining (source : Source) (condition : Predicate) : JoinStep :=
  ⟨source, .nestedLoop .inner, some condition⟩

end JoinStep

namespace SourcePlan

variable {nested : Bool} {context : Context} {first second : Source} {world read later : World}
  {rows others : List Value} {now : Nat}

/-- What a source and a further one show, asked for now. -/
def joinedFeed (nested : Bool) (context : Context) (first : Source) (step : JoinStep) :
    Stream Value := fun now =>
  Feed.afterTask ((joinAll nested context first [step]).run now) now Feed.ofResult

def sides (first second : Source) (rows others : List Value) : JoinInput :=
  ⟨qualify first.label rows, [first.label], others, second.label⟩

theorem leads_joinedFeed {step : JoinStep}
    (takes : (first.materialize nested context).ComesTo world (.ok rows) read)
    (takesOther : (step.source.materialize nested context).ComesTo read (.ok others) later) :
    (joinedFeed nested context first step world.now).Leads world
      (Feed.afterTask (((step.feature.join (sides first step.source rows others) step.condition
        context).andThen .ok).run later.now) later.now Feed.ofResult) later :=
  (Feed.leads_andThen_ok takes).trans (Feed.leads_andThen_ok takesOther)

theorem leads_crossing
    (takes : (first.materialize nested context).ComesTo world (.ok rows) read)
    (takesOther : (second.materialize nested context).ComesTo read (.ok others) later) :
    (joinedFeed nested context first (.crossing second) world.now).Leads world
      (Feed.ofItems ((sides first second rows others).pairs.map .ok) later.now) later := by
  have joined : NestedLoop.join .cross (sides first second rows others) none context =
      .ok (sides first second rows others).pairs := NestedLoop.joinEach_none context _ _
  have leads := @leads_joinedFeed nested context first world read later rows others
    (.crossing second) takes takesOther
  simp only [JoinStep.crossing, JoinFeature.join, joined] at leads
  exact leads

/-- The join tries the condition on the pairs. -/
def tried (predicate : Predicate) (context : Context) (input : JoinInput) :
    Evaluation (List Value) :=
  (NestedLoop.join .inner input (some predicate) context).andThen .ok

theorem leads_joining {predicate : Predicate}
    (takes : (first.materialize nested context).ComesTo world (.ok rows) read)
    (takesOther : (second.materialize nested context).ComesTo read (.ok others) later) :
    (joinedFeed nested context first (.joining second predicate) world.now).Leads world
      (Feed.afterTask ((tried predicate context (sides first second rows others)).run later.now)
        later.now Feed.ofResult) later :=
  @leads_joinedFeed nested context first world read later rows others (.joining second predicate)
    takes takesOther

theorem tried_arrives {predicate : Predicate} {input : JoinInput} {verdict : Value → Bool}
    (arrives : ∀ pair ∈ input.pairs,
      (predicate context pair).Arrives answers free (.ok (verdict pair))) :
    (tried predicate context input).Arrives answers free (.ok (input.pairs.filter verdict)) :=
  (NestedLoop.joinEach_arrives arrives).andThen (Evaluation.arrives_ok _)

theorem tried_nil {predicate : Predicate} {input : JoinInput} (empty : input.pairs = []) :
    (tried predicate context input).run now = .done (.ok []) := by
  have joined : NestedLoop.join .inner input (some predicate) context = .ok [] :=
    NestedLoop.joinEach_nil _ context empty
  rw [tried, joined]
  rfl

theorem joinedFeed_cases (nested : Bool) (context : Context) (first second : Source)
    (world : World) :
    (∃ rows read others later,
      (first.materialize nested context).ComesTo world (.ok rows) read ∧
      (second.materialize nested context).ComesTo read (.ok others) later) ∨
    ∃ feed later, (feed = .silent ∨ ∃ error, feed = Feed.ofItems [.error error] later.now) ∧
      ∀ step : JoinStep, step.source = second →
        (joinedFeed nested context first step world.now).Leads world feed later := by
  rcases outcome : ((first.materialize nested context).run world.now).run world with
    ⟨_ | error | rows, read⟩
  · exact .inr ⟨_, _, .inl rfl, fun step _ => Feed.leads_andThen_stuck outcome⟩
  · exact .inr ⟨_, _, .inr ⟨error, rfl⟩, fun step _ => Feed.leads_andThen_error outcome⟩
  · rcases other : ((second.materialize nested context).run read.now).run read with
      ⟨_ | error | others, later⟩
    · refine .inr ⟨.silent, later, .inl rfl, ?_⟩
      rintro step rfl
      exact (Feed.leads_andThen_ok outcome).trans (Feed.leads_andThen_stuck other)
    · refine .inr ⟨_, later, .inr ⟨error, rfl⟩, ?_⟩
      rintro step rfl
      exact (Feed.leads_andThen_ok outcome).trans (Feed.leads_andThen_error other)
    · exact .inl ⟨rows, read, others, later, outcome, other⟩

end SourcePlan

end StreamQuery
