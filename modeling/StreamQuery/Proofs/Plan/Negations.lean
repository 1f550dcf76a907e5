import Mathlib.Logic.Basic
import StreamQuery.Plan.Compile
import StreamQuery.Proofs.Stream.Composition
import StreamQuery.Proofs.Stream.Worlds
namespace StreamQuery

/-! Negations of conditions. A negation can be moved inward as far as the tests that a condition is
built of: what is negated is the same, and so is when it is tested. -/

inductive Condition (α : Type) where
  | leaf (test : α)
  | parenthesis (inner : Condition α)
  | not (inner : Condition α)
  | and (left right : Condition α)
  | or (left right : Condition α)

namespace Condition

variable {α : Type}

def expr (tests : α → Expr) : Condition α → Expr
  | leaf test => tests test
  | parenthesis inner => .parenthesis (inner.expr tests)
  | not inner => .not (inner.expr tests)
  | and left right => .binary .and (left.expr tests) (right.expr tests)
  | or left right => .binary .or (left.expr tests) (right.expr tests)

def predicate (tests : α → Predicate) : Condition α → Predicate
  | leaf test => tests test
  | parenthesis inner => inner.predicate tests
  | not inner => .negate (inner.predicate tests)
  | and left right => .and (left.predicate tests) (right.predicate tests)
  | or left right => .or (left.predicate tests) (right.predicate tests)

/-- The condition, or its opposite, with the negations moved inward by the laws of De Morgan. -/
def pushed (negated : Bool) : Condition α → Condition α
  | leaf test => if negated then not (leaf test) else leaf test
  | parenthesis inner => parenthesis (inner.pushed negated)
  | not inner => inner.pushed !negated
  | and left right =>
      if negated then or (left.pushed true) (right.pushed true)
      else and (left.pushed false) (right.pushed false)
  | or left right =>
      if negated then and (left.pushed true) (right.pushed true)
      else or (left.pushed false) (right.pushed false)

inductive Normal : Condition α → Prop
  | leaf : Normal (leaf test)
  | negated : Normal (not (.leaf test))
  | parenthesis {inner : Condition α} : Normal inner → Normal (parenthesis inner)
  | and : Normal left → Normal right → Normal (and left right)
  | or : Normal left → Normal right → Normal (or left right)

theorem normal_pushed (condition : Condition α) (negated : Bool) :
    (condition.pushed negated).Normal := by
  induction condition generalizing negated with
  | leaf test => cases negated <;> constructor
  | parenthesis inner induction => exact .parenthesis (induction negated)
  | not inner induction => exact induction !negated
  | and left right first second =>
      cases negated with
      | false => exact .and (first false) (second false)
      | true => exact .or (first true) (second true)
  | or left right first second =>
      cases negated with
      | false => exact .or (first false) (second false)
      | true => exact .and (first true) (second true)

example : (not (and (leaf 1) (not (or (leaf 2) (not (leaf 3)))))).pushed false =
    or (not (leaf 1)) (or (leaf 2) (not (leaf 3))) := rfl

end Condition

/-! The laws of De Morgan hold of predicates that take time and can fail. -/

namespace Predicate

theorem negate_negate (predicate : Predicate) : predicate.negate.negate = predicate := by
  funext context row
  simp only [negate, Evaluation.map_map, Bool.not_not, Evaluation.map_id]

theorem negate_and (left right : Predicate) :
    (left.and right).negate = left.negate.or right.negate := by
  funext context row
  simp only [negate, and, or, Evaluation.andThen_map, Evaluation.map_andThen]
  congr 1
  funext holds
  cases holds <;> rfl

theorem negate_or (left right : Predicate) :
    (left.or right).negate = left.negate.and right.negate := by
  funext context row
  simp only [negate, and, or, Evaluation.andThen_map, Evaluation.map_andThen]
  congr 1
  funext holds
  cases holds <;> rfl

def turned (negated : Bool) (predicate : Predicate) : Predicate :=
  if negated then predicate.negate else predicate

theorem turned_negate (negated : Bool) (predicate : Predicate) :
    predicate.negate.turned negated = predicate.turned !negated := by
  cases negated with
  | false => rfl
  | true => exact negate_negate predicate

end Predicate

namespace Condition

variable {α : Type}

/-! What a condition compiles to, given what its tests do. -/

def connect (connective : Predicate → Predicate → Predicate)
    (left right : Except QueryError Predicate) : Except QueryError Predicate := do
  .ok (connective (← left) (← right))

theorem map_connect {connective opposite : Predicate → Predicate → Predicate}
    {transform : Predicate → Predicate}
    (law : ∀ left right, transform (connective left right) =
      opposite (transform left) (transform right)) (left right : Except QueryError Predicate) :
    (connect connective left right).map transform =
      connect opposite (left.map transform) (right.map transform) := by
  cases left with
  | error error => rfl
  | ok left =>
      cases right with
      | error error => rfl
      | ok right => exact congrArg Except.ok (law left right)

def compiled (tests : α → Except QueryError Predicate) :
    Condition α → Except QueryError Predicate
  | leaf test => tests test
  | parenthesis inner => inner.compiled tests
  | not inner => (inner.compiled tests).map .negate
  | and left right => connect .and (left.compiled tests) (right.compiled tests)
  | or left right => connect .or (left.compiled tests) (right.compiled tests)

theorem compile_expr (metadata : Metadata) (tests : α → Expr) (condition : Condition α) :
    ((condition.expr tests).compile metadata).predicate.get =
      condition.compiled fun test => ((tests test).compile metadata).predicate.get := by
  induction condition with
  | leaf test => rfl
  | parenthesis inner induction => exact induction
  | not inner induction => exact congrArg (Except.map Predicate.negate) induction
  | and left right first second => exact congrArg₂ (connect .and) first second
  | or left right first second => exact congrArg₂ (connect .or) first second

theorem compiled_ok (tests : α → Predicate) (condition : Condition α) :
    (condition.compiled fun test => .ok (tests test)) = .ok (condition.predicate tests) := by
  induction condition with
  | leaf test => rfl
  | parenthesis inner induction => exact induction
  | not inner induction => exact congrArg (Except.map Predicate.negate) induction
  | and left right first second => exact congrArg₂ (connect .and) first second
  | or left right first second => exact congrArg₂ (connect .or) first second

theorem compiled_pushed (tests : α → Except QueryError Predicate) (condition : Condition α)
    (negated : Bool) :
    (condition.pushed negated).compiled tests =
      (condition.compiled tests).map (.turned negated) := by
  induction condition generalizing negated with
  | leaf test =>
      cases negated with
      | false =>
          change tests test = (tests test).map fun predicate => predicate
          cases tests test <;> rfl
      | true => rfl
  | parenthesis inner induction => exact induction negated
  | not inner induction =>
      refine (induction !negated).trans ?_
      rw [compiled]
      cases inner.compiled tests with
      | error error => rfl
      | ok predicate => exact congrArg Except.ok (predicate.turned_negate negated).symm
  | and left right first second =>
      cases negated with
      | false =>
          refine (congrArg₂ (connect .and) (first false) (second false)).trans ?_
          exact (map_connect (fun _ _ => rfl) _ _).symm
      | true =>
          refine (congrArg₂ (connect .or) (first true) (second true)).trans ?_
          exact (map_connect Predicate.negate_and _ _).symm
  | or left right first second =>
      cases negated with
      | false =>
          refine (congrArg₂ (connect .or) (first false) (second false)).trans ?_
          exact (map_connect (fun _ _ => rfl) _ _).symm
      | true =>
          refine (congrArg₂ (connect .and) (first true) (second true)).trans ?_
          exact (map_connect Predicate.negate_or _ _).symm

theorem predicate_pushed (tests : α → Predicate) (condition : Condition α) (negated : Bool) :
    (condition.pushed negated).predicate tests = (condition.predicate tests).turned negated := by
  have same := condition.compiled_pushed (fun test => .ok (tests test)) negated
  rw [compiled_ok, compiled_ok] at same
  exact Except.ok.inj same

/-! Which tests are made. A conjunction is decided by its left part unless that holds, and a
disjunction unless that fails to hold. -/

/-- Asked about the row in a world, the condition makes these tests, one after the other, comes to
this result, and leaves the world so. -/
inductive Decides (tests : α → Predicate) (row : Value) :
    Condition α → Context → World → List α → Except QueryError Bool → World → Prop
  | leaf : (tests test context row).ComesTo before result after →
      Decides tests row (leaf test) context before [test] result after
  | parenthesis {inner : Condition α} : Decides tests row inner context before log result after →
      Decides tests row (parenthesis inner) context before log result after
  | not {inner : Condition α} : Decides tests row inner context before log result after →
      Decides tests row (not inner) context before log (result.map Bool.not) after
  | andLeft : Decides tests row left (context.withRow row) before log result after →
      result ≠ .ok true → Decides tests row (and left right) context before log result after
  | andRight : Decides tests row left (context.withRow row) before first (.ok true) between →
      Decides tests row right (context.withRow row) between second result after →
      Decides tests row (and left right) context before (first ++ second) result after
  | orLeft : Decides tests row left (context.withRow row) before log result after →
      result ≠ .ok false → Decides tests row (or left right) context before log result after
  | orRight : Decides tests row left (context.withRow row) before first (.ok false) between →
      Decides tests row right (context.withRow row) between second result after →
      Decides tests row (or left right) context before (first ++ second) result after

section

variable {tests : α → Predicate} {row : Value} {condition left right : Condition α}
  {context : Context} {before after : World} {log : List α} {result : Except QueryError Bool}

theorem comesTo_shortcut (decisive : Bool) {first second : Evaluation Bool}
    {next : Bool → Evaluation Bool} (stops : next decisive = .ok decisive)
    (continues : next (!decisive) = second) :
    (first.andThen next).ComesTo before result after ↔
      (first.ComesTo before result after ∧ result ≠ .ok !decisive) ∨
        ∃ between, first.ComesTo before (.ok !decisive) between ∧
          second.ComesTo between result after := by
  rw [Evaluation.comesTo_andThen_iff]
  constructor
  · rintro (⟨error, comes, rfl⟩ | ⟨holds, between, comes, follows⟩)
    · exact .inl ⟨comes, nofun⟩
    · by_cases same : holds = decisive
      · rw [same, stops] at follows
        obtain ⟨rfl, rfl⟩ := Evaluation.comesTo_ok.mp follows
        rw [same] at comes
        exact .inl ⟨comes, by simp⟩
      · obtain rfl : holds = !decisive := Bool.eq_not.mpr same
        exact .inr ⟨between, comes, continues ▸ follows⟩
  · rintro (⟨comes, differs⟩ | ⟨between, comes, follows⟩)
    · cases result with
      | error error => exact .inl ⟨error, comes, rfl⟩
      | ok holds =>
          obtain rfl : holds = decisive := by simpa using differs
          exact .inr ⟨holds, after, comes, stops ▸ Evaluation.comesTo_ok.mpr ⟨rfl, rfl⟩⟩
    · exact .inr ⟨!decisive, between, comes, continues ▸ follows⟩

theorem comesTo_and : ((left.and right).predicate tests context row).ComesTo before result after ↔
    ((left.predicate tests (context.withRow row) row).ComesTo before result after ∧
        result ≠ .ok true) ∨
      ∃ between,
        (left.predicate tests (context.withRow row) row).ComesTo before (.ok true) between ∧
        (right.predicate tests (context.withRow row) row).ComesTo between result after :=
  comesTo_shortcut false rfl rfl

theorem comesTo_or : ((left.or right).predicate tests context row).ComesTo before result after ↔
    ((left.predicate tests (context.withRow row) row).ComesTo before result after ∧
        result ≠ .ok false) ∨
      ∃ between,
        (left.predicate tests (context.withRow row) row).ComesTo before (.ok false) between ∧
        (right.predicate tests (context.withRow row) row).ComesTo between result after :=
  comesTo_shortcut true rfl rfl

theorem comesTo_predicate_iff :
    (condition.predicate tests context row).ComesTo before result after ↔
      ∃ log, Decides tests row condition context before log result after := by
  constructor
  · intro comes
    induction condition generalizing context before result after with
    | leaf test => exact ⟨[test], .leaf comes⟩
    | parenthesis inner induction =>
        obtain ⟨log, decides⟩ := induction comes
        exact ⟨log, .parenthesis decides⟩
    | not inner induction =>
        obtain ⟨plain, inside, rfl⟩ := Evaluation.comesTo_map_iff.mp comes
        obtain ⟨log, decides⟩ := induction inside
        exact ⟨log, .not decides⟩
    | and left right first second =>
        rcases comesTo_and.mp comes with ⟨comes, stops⟩ | ⟨between, comes, next⟩
        · obtain ⟨log, decides⟩ := first comes
          exact ⟨log, .andLeft decides stops⟩
        · obtain ⟨log, decides⟩ := first comes
          obtain ⟨further, follows⟩ := second next
          exact ⟨log ++ further, .andRight decides follows⟩
    | or left right first second =>
        rcases comesTo_or.mp comes with ⟨comes, stops⟩ | ⟨between, comes, next⟩
        · obtain ⟨log, decides⟩ := first comes
          exact ⟨log, .orLeft decides stops⟩
        · obtain ⟨log, decides⟩ := first comes
          obtain ⟨further, follows⟩ := second next
          exact ⟨log ++ further, .orRight decides follows⟩
  · rintro ⟨log, decides⟩
    induction decides with
    | leaf comes => exact comes
    | parenthesis _ induction => exact induction
    | not _ induction => exact Evaluation.comesTo_map_iff.mpr ⟨_, induction, rfl⟩
    | andLeft _ stops induction => exact comesTo_and.mpr (.inl ⟨induction, stops⟩)
    | andRight _ _ first second => exact comesTo_and.mpr (.inr ⟨_, first, second⟩)
    | orLeft _ stops induction => exact comesTo_or.mpr (.inl ⟨induction, stops⟩)
    | orRight _ _ first second => exact comesTo_or.mpr (.inr ⟨_, first, second⟩)

theorem Decides.unique {afterwards : World} {logged : List α} {outcome : Except QueryError Bool}
    (decides : Decides tests row condition context before log result after)
    (also : Decides tests row condition context before logged outcome afterwards) :
    log = logged ∧ result = outcome ∧ after = afterwards := by
  induction decides generalizing logged outcome afterwards with
  | leaf comes =>
      cases also with
      | leaf other => exact ⟨rfl, by simpa using comes.symm.trans other⟩
  | parenthesis _ induction =>
      cases also with
      | parenthesis other => exact induction other
  | not _ induction =>
      cases also with
      | not other =>
          obtain ⟨rfl, rfl, rfl⟩ := induction other
          exact ⟨rfl, rfl, rfl⟩
  | andLeft _ stops induction =>
      cases also with
      | andLeft other _ => exact induction other
      | andRight other _ => exact absurd (induction other).2.1 stops
  | andRight _ _ first second =>
      cases also with
      | andLeft other stops => exact absurd (first other).2.1.symm stops
      | andRight other further =>
          obtain ⟨rfl, _, rfl⟩ := first other
          obtain ⟨rfl, rfl, rfl⟩ := second further
          exact ⟨rfl, rfl, rfl⟩
  | orLeft _ stops induction =>
      cases also with
      | orLeft other _ => exact induction other
      | orRight other _ => exact absurd (induction other).2.1 stops
  | orRight _ _ first second =>
      cases also with
      | orLeft other stops => exact absurd (first other).2.1.symm stops
      | orRight other further =>
          obtain ⟨rfl, _, rfl⟩ := first other
          obtain ⟨rfl, rfl, rfl⟩ := second further
          exact ⟨rfl, rfl, rfl⟩

/-! A result and its opposite. -/

theorem map_bne_false (result : Except QueryError Bool) : result.map (· != false) = result := by
  rcases result with _ | _ | _ <;> rfl

theorem map_bne_true (result : Except QueryError Bool) :
    result.map (· != true) = result.map Bool.not := by
  rcases result with _ | _ | _ <;> rfl

theorem map_bne_not (negated : Bool) (result : Except QueryError Bool) :
    (result.map Bool.not).map (· != negated) = result.map (· != !negated) := by
  rcases result with _ | _ | _ <;> cases negated <;> rfl

theorem map_bne_ne {negated wanted : Bool} (differs : result ≠ .ok wanted) :
    result.map (· != negated) ≠ .ok (wanted != negated) := by
  rcases result with _ | _ | _ <;> cases negated <;> cases wanted <;> simp_all [Except.map]

/-- With its negations moved inward a condition makes the same tests. -/
theorem Decides.pushed (decides : Decides tests row condition context before log result after)
    (negated : Bool) :
    Decides tests row (condition.pushed negated) context before log (result.map (· != negated))
      after := by
  induction decides generalizing negated with
  | leaf comes =>
      cases negated with
      | false =>
          rw [map_bne_false]
          exact .leaf comes
      | true =>
          rw [map_bne_true]
          exact .not (.leaf comes)
  | parenthesis _ induction => exact .parenthesis (induction negated)
  | not _ induction =>
      rw [map_bne_not]
      exact induction !negated
  | andLeft _ stops induction =>
      cases negated with
      | false => exact .andLeft (induction false) (map_bne_ne stops)
      | true => exact .orLeft (induction true) (map_bne_ne stops)
  | andRight _ _ first second =>
      cases negated with
      | false => exact .andRight (first false) (second false)
      | true => exact .orRight (first true) (second true)
  | orLeft _ stops induction =>
      cases negated with
      | false => exact .orLeft (induction false) (map_bne_ne stops)
      | true => exact .andLeft (induction true) (map_bne_ne stops)
  | orRight _ _ first second =>
      cases negated with
      | false => exact .orRight (first false) (second false)
      | true => exact .andRight (first true) (second true)

end

/-- A condition whose negations have been moved inward compiles as before, errors included. It
comes to the same result in every world, makes the same tests in the same order, and passes over
the same ones. -/
theorem pushed_alike (condition : Condition α) :
    (condition.pushed false).Normal ∧
      (∀ (metadata : Metadata) (tests : α → Expr),
        (((condition.pushed false).expr tests).compile metadata).predicate.get =
          ((condition.expr tests).compile metadata).predicate.get) ∧
      ∀ (tests : α → Predicate) (context : Context) (row : Value),
        (condition.pushed false).predicate tests context row =
            condition.predicate tests context row ∧
          ∀ before result after,
            ((condition.predicate tests context row).ComesTo before result after ↔
                ∃ log, Decides tests row condition context before log result after) ∧
              ∀ log, Decides tests row (condition.pushed false) context before log result after ↔
                Decides tests row condition context before log result after := by
  have alike (tests : α → Predicate) :
      (condition.pushed false).predicate tests = condition.predicate tests :=
    condition.predicate_pushed tests false
  refine ⟨condition.normal_pushed false, ?compiled, fun tests context row => ⟨?result, ?made⟩⟩
  case compiled =>
    intro metadata tests
    rw [compile_expr, compile_expr, compiled_pushed]
    cases condition.compiled fun test => ((tests test).compile metadata).predicate.get <;> rfl
  case result => rw [alike]
  case made =>
    intro before result after
    refine ⟨comesTo_predicate_iff, fun log => ?_⟩
    have pushed {made : List α}
        (decides : Decides tests row condition context before made result after) :
        Decides tests row (condition.pushed false) context before made result after := by
      rw [← map_bne_false result]
      exact decides.pushed false
    refine ⟨fun decides => ?_, pushed⟩
    -- The condition comes to the same result, by tests that the world decides.
    have comes := comesTo_predicate_iff.mpr ⟨log, decides⟩
    rw [alike] at comes
    obtain ⟨made, plain⟩ := comesTo_predicate_iff.mp comes
    rwa [(decides.unique (pushed plain)).1]

end Condition

end StreamQuery
