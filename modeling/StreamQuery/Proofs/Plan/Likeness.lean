import StreamQuery.Plan.Choice
import StreamQuery.Proofs.Function.Casts
import StreamQuery.Proofs.Stream.SideBySide
namespace StreamQuery

/-! Expressions put evaluations together in a fixed set of ways. A relation that all of them keep
holds between what one expression comes to in two contexts. A relation that says nothing of its
second side tells the kind of evaluations that every expression comes to. -/

/-- Contexts that are alike, and a relation of evaluations with the ways of putting them together
that keep it. -/
structure Likeness where
  contexts : Context → Context → Prop
  evaluations {α : Type} : Evaluation α → Evaluation α → Prop
  /-- What an expression makes of the time, each in its own context. -/
  reading {α : Type} {context other : Context} {read : Int64 → Except QueryError α} :
    contexts context other → (∀ time, FailsAsCast (read time)) →
    evaluations (.reading fun now => read (context.wallClock.reading now))
      (.reading fun now => read (other.wallClock.reading now))
  ok {α : Type} (value : α) : evaluations (.ok value) (.ok value)
  /-- A function that fails as a cast on what it can be given. -/
  thenCheck {α β : Type} {evaluation other : Evaluation α} {next : α → Except QueryError β} :
    evaluations evaluation other →
    (∀ value, evaluation.Gives (fun _ => True) (.ok value) → FailsAsCast (next value)) →
    evaluations (evaluation.thenCheck next) (other.thenCheck next)
  andThen {α β : Type} {evaluation other : Evaluation α} {next following : α → Evaluation β} :
    evaluations evaluation other → (∀ value, evaluations (next value) (following value)) →
    evaluations (evaluation.andThen next) (other.andThen following)
  both {α β : Type} {evaluation other : Evaluation α} {second secondOther : Evaluation β} :
    evaluations evaluation other → evaluations second secondOther →
    evaluations (evaluation.both second) (other.both secondOther)
  defer {α : Type} {evaluation other : Evaluation α} :
    evaluations evaluation other → evaluations evaluation.defer other.defer

variable {relation : Likeness}

namespace Likeness

theorem map (relation : Likeness) {evaluation other : Evaluation α}
    (related : relation.evaluations evaluation other) (transform : α → β) :
    relation.evaluations (evaluation.map transform) (other.map transform) :=
  relation.thenCheck related fun _ _ => failsOnly_ok _

theorem all (relation : Likeness) {form otherForm : α → Evaluation β} {parts : List α}
    (related : ∀ part ∈ parts, relation.evaluations (form part) (otherForm part)) :
    relation.evaluations (Evaluation.all (parts.map form))
      (Evaluation.all (parts.map otherForm)) := by
  induction parts with
  | nil => exact relation.ok []
  | cons part parts induction =>
      have both := List.forall_mem_cons.mp related
      exact relation.map (relation.both both.1 (induction both.2)) _

def SharesAggregates (relation : Likeness) : Prop :=
  ∀ ⦃context other : Context⦄, relation.contexts context other →
    context.aggregates = other.aggregates

end Likeness

def Mapper.Respects (relation : Likeness) (mapper : Mapper) : Prop :=
  ∀ ⦃context other : Context⦄, relation.contexts context other →
    relation.evaluations (mapper context) (mapper other)

/-- A predicate is asked about records that make the contexts alike. -/
def Predicate.Respects (relation : Likeness) (predicate : Predicate) : Prop :=
  ∀ ⦃context other : Context⦄ ⦃row otherRow : Value⦄,
    relation.contexts (context.withRow row) (other.withRow otherRow) →
    relation.evaluations (predicate context row) (predicate other otherRow)

namespace Mapper

theorem constant_respects (value : Value) : (constant value).Respects relation := fun _ _ _ =>
  relation.ok value

theorem Respects.toPredicate {mapper : Mapper} (respects : mapper.Respects relation) :
    mapper.toPredicate.Respects relation := fun _ _ _ _ alike =>
  relation.map (respects alike) Value.isTruthy

theorem all_respects {mappers : List Mapper}
    (respects : ∀ mapper ∈ mappers, mapper.Respects relation) {context other : Context}
    (alike : relation.contexts context other) :
    relation.evaluations (all mappers context) (all mappers other) :=
  relation.all fun mapper member => respects mapper member alike

theorem apply_respects {operands : List Mapper}
    (respects : ∀ mapper ∈ operands, mapper.Respects relation)
    {function : List Value → Except QueryError Value}
    (fails : ∀ values : List Value, values.length = operands.length →
      FailsAsCast (function values)) :
    (apply function operands).Respects relation := by
  intro context other alike
  refine relation.thenCheck (all_respects respects alike) fun values gives => fails values ?_
  rw [gives.length_of_all, List.length_map]

theorem applyNow_respects {operands : List Mapper}
    (respects : ∀ mapper ∈ operands, mapper.Respects relation)
    {function : Int64 → List Value → Except QueryError Value}
    (fails : ∀ time values, FailsAsCast (function time values)) :
    (applyNow function operands).Respects relation := by
  intro context other alike
  apply relation.andThen (all_respects respects alike)
  intro values
  exact relation.reading alike fun time => fails time values

theorem Respects.check {operand : Mapper} (respects : operand.Respects relation)
    {function : Value → Except QueryError Value} (fails : ∀ value, FailsAsCast (function value)) :
    Mapper.Respects relation fun context => (operand context).thenCheck function := fun _ _ alike =>
  relation.thenCheck (respects alike) fun value _ => fails value

theorem Respects.withSign {operand : Mapper} (respects : operand.Respects relation) (sign : Sign) :
    (operand.withSign sign).Respects relation :=
  respects.check (Value.withSign_fails sign)

theorem searchedCase_respects {branches : List (Predicate × Mapper)} {otherwise : Mapper}
    (respects : ∀ branch ∈ branches, branch.1.Respects relation ∧ branch.2.Respects relation)
    (last : otherwise.Respects relation) : (searchedCase branches otherwise).Respects relation := by
  intro context other alike
  apply relation.defer
  induction branches with
  | nil => exact last alike
  | cons branch branches induction =>
      have parts := List.forall_mem_cons.mp respects
      apply relation.andThen (parts.1.1 alike)
      intro holds
      split
      · exact parts.1.2 alike
      · exact induction parts.2

theorem simpleCase_respects {subject : Mapper} {branches : List (Mapper × Mapper)}
    {otherwise : Mapper} (first : subject.Respects relation)
    (respects : ∀ branch ∈ branches, branch.1.Respects relation ∧ branch.2.Respects relation)
    (last : otherwise.Respects relation) :
    (simpleCase subject branches otherwise).Respects relation := by
  intro context other alike
  apply relation.defer
  apply relation.andThen (first alike)
  intro value
  induction branches with
  | nil => exact last alike
  | cons branch branches induction =>
      have parts := List.forall_mem_cons.mp respects
      apply relation.andThen (parts.1.1 alike)
      intro candidate
      split
      · exact parts.1.2 alike
      · exact induction parts.2

end Mapper

namespace Predicate

theorem constant_respects (holds : Bool) : (constant holds).Respects relation := fun _ _ _ _ _ =>
  relation.ok holds

theorem Respects.toMapper {predicate : Predicate} (respects : predicate.Respects relation) :
    predicate.toMapper.Respects relation := fun _ _ alike =>
  relation.map (respects alike) Value.boolean

theorem Respects.negate {predicate : Predicate} (respects : predicate.Respects relation) :
    predicate.negate.Respects relation := fun _ _ _ _ alike =>
  relation.map (respects alike) (!·)

theorem Respects.and {left right : Predicate} (leftRespects : left.Respects relation)
    (rightRespects : right.Respects relation) : (left.and right).Respects relation := by
  intro context other row otherRow alike
  apply relation.andThen (@leftRespects (context.withRow row) (other.withRow otherRow) _ _ alike)
  intro holds
  split
  · exact rightRespects alike
  · exact relation.ok false

theorem Respects.or {left right : Predicate} (leftRespects : left.Respects relation)
    (rightRespects : right.Respects relation) : (left.or right).Respects relation := by
  intro context other row otherRow alike
  apply relation.andThen (@leftRespects (context.withRow row) (other.withRow otherRow) _ _ alike)
  intro holds
  split
  · exact relation.ok true
  · exact rightRespects alike

theorem ofValue_respects {subject : Mapper} (respects : subject.Respects relation)
    (test : Value → Bool) : (ofValue test subject).Respects relation := fun _ _ _ _ alike =>
  relation.map (respects alike) test

theorem ofPair_respects {left right : Mapper} (leftRespects : left.Respects relation)
    (rightRespects : right.Respects relation) (test : Value → Value → Bool) :
    (ofPair test left right).Respects relation := fun _ _ _ _ alike =>
  relation.map (relation.both (leftRespects alike) (rightRespects alike)) _

theorem between_respects {subject low high : Mapper} (subjectRespects : subject.Respects relation)
    (lowRespects : low.Respects relation) (highRespects : high.Respects relation)
    (negated : Bool) : (between negated subject low high).Respects relation := fun _ _ _ _ alike =>
  relation.map (relation.both (subjectRespects alike)
    (relation.both (lowRespects alike) (highRespects alike))) _

theorem inList_respects {subject : Mapper} {members : List Mapper}
    (respects : subject.Respects relation)
    (membersRespect : ∀ member ∈ members, member.Respects relation) (negated : Bool) :
    (inList negated subject members).Respects relation := by
  intro context other row otherRow alike
  apply relation.andThen (respects alike)
  intro value
  split
  · exact relation.ok false
  · refine relation.map ?_ _
    induction members with
    | nil => exact relation.ok false
    | cons member members induction =>
        have parts := List.forall_mem_cons.mp membersRespect
        apply relation.andThen (parts.1 alike)
        intro member
        split
        · exact relation.ok true
        · exact induction parts.2

end Predicate

end StreamQuery
