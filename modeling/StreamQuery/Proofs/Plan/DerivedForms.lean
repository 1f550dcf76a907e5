import Mathlib.Data.List.Forall2
import StreamQuery.Proofs.Plan.Parts
import StreamQuery.Proofs.Stream.Deliveries
import StreamQuery.Proofs.Value.Comparisons
import StreamQuery.Proofs.Value.Operands
namespace StreamQuery

/-! Expressions that could be written with others: `between` with two comparisons, `in` with
comparisons of equality, and a case on a subject with a case on conditions. -/

variable {metadata : Metadata} {answers : String → Except QueryError Script} {context : Context}

namespace Expr

/-- This is what the expression comes to as a value, whenever it is asked for. -/
def Evaluates (metadata : Metadata) (answers : String → Except QueryError Script)
    (context : Context) (expr : Expr) (result : Except QueryError Value) : Prop :=
  ∃ mapper, (expr.compile metadata).value.get = .ok mapper ∧
    (mapper context).Settles answers result

structure Means (metadata : Metadata) (answers : String → Except QueryError Script)
    (context : Context) (expr : Expr) (result : Except QueryError Value) : Prop where
  value : expr.Evaluates metadata answers context result
  condition : ∃ predicate, (expr.compile metadata).predicate.get = .ok predicate ∧
    ∀ row, (predicate (context.withRow row) context.row).Settles answers
      (result.map Value.isTruthy)

theorem means_of_predicate {expr : Expr} {predicate : Predicate} {holds : Bool}
    (reads : (expr.compile metadata).value.get =
      (expr.compile metadata).predicate.get.map Predicate.toMapper)
    (compiled : (expr.compile metadata).predicate.get = .ok predicate)
    (settles : ∀ row, (predicate (context.withRow row) context.row).Settles answers (.ok holds)) :
    expr.Means metadata answers context (.ok (.boolean holds)) where
  value := ⟨predicate.toMapper, by rw [reads, compiled]; rfl,
    (settles context.row).map Value.boolean⟩
  condition := ⟨predicate, compiled, settles⟩

theorem means_of_mapper {expr : Expr} {mapper : Mapper} {result : Except QueryError Value}
    (reads : (expr.compile metadata).predicate.get =
      (expr.compile metadata).value.get.map Mapper.toPredicate)
    (compiled : (expr.compile metadata).value.get = .ok mapper)
    (settles : (mapper context).Settles answers result) :
    expr.Means metadata answers context result where
  value := ⟨mapper, compiled, settles⟩
  condition := ⟨mapper.toPredicate, by rw [reads, compiled]; rfl,
    fun _ => settles.map_result Value.isTruthy⟩

/-! Conjunctions and disjunctions. -/

theorem connected_eq_ok (connective : Predicate → Predicate → Predicate) {left right : Compiled}
    {predicate other : Predicate} (first : left.predicate.get = .ok predicate)
    (second : right.predicate.get = .ok other) :
    Node.connected connective left right = .ok (connective predicate other) := by
  rw [Node.connected, first, second]
  rfl

theorem Means.and {left right : Expr} {holds also : Bool}
    (first : left.Means metadata answers context (.ok (.boolean holds)))
    (second : right.Means metadata answers context (.ok (.boolean also))) :
    (binary .and left right).Means metadata answers context (.ok (.boolean (holds && also))) := by
  obtain ⟨predicate, compiled, settles⟩ := first.condition
  obtain ⟨other, compiles, continues⟩ := second.condition
  have connected : ((binary .and left right).compile metadata).predicate.get =
      .ok (predicate.and other) := connected_eq_ok Predicate.and compiled compiles
  refine means_of_predicate rfl connected fun row => (settles context.row).andThen ?_
  cases holds with
  | false => exact Evaluation.settles_ok false
  | true => exact continues context.row

theorem Means.or {left right : Expr} {holds also : Bool}
    (first : left.Means metadata answers context (.ok (.boolean holds)))
    (second : right.Means metadata answers context (.ok (.boolean also))) :
    (binary .or left right).Means metadata answers context (.ok (.boolean (holds || also))) := by
  obtain ⟨predicate, compiled, settles⟩ := first.condition
  obtain ⟨other, compiles, continues⟩ := second.condition
  have connected : ((binary .or left right).compile metadata).predicate.get =
      .ok (predicate.or other) := connected_eq_ok Predicate.or compiled compiles
  refine means_of_predicate rfl connected fun row => (settles context.row).andThen ?_
  cases holds with
  | false => exact continues context.row
  | true => exact Evaluation.settles_ok true

end Expr

/-! The features of the derived forms. -/

namespace Value

/-- What a value of a list stands for: its items, or itself. -/
def members : Value → List Value
  | .list items => items
  | value => [value]

theorem queryEquals_eq_holds (left right : Value) :
    left.queryEquals right = Comparison.equal.holds left right := by
  unfold queryEquals Comparison.holds
  cases left.compare? right <;> rfl

theorem matchesMember_eq_any (value element : Value) :
    value.matchesMember element = element.members.any (Comparison.equal.holds value) := by
  have same : value.queryEquals = Comparison.equal.holds value :=
    funext (queryEquals_eq_holds value)
  unfold matchesMember members
  rw [← same]
  split <;> simp

theorem holds_of_nulls {value low high : Value}
    (nulls : (value.isNull || low.isNull || high.isNull) = true) :
    (Comparison.greaterOrEqual.holds value low && Comparison.lessOrEqual.holds value high) =
      false := by
  rw [Bool.or_eq_true, Bool.or_eq_true] at nulls
  rcases nulls with (null | null) | null
  · rw [eq_null_of_isNull null, holds_null_left, Bool.false_and]
  · rw [eq_null_of_isNull null, holds_null_right, Bool.false_and]
  · rw [eq_null_of_isNull null, holds_null_right, Bool.and_false]

theorem liesBetween_false (value low high : Value) :
    value.liesBetween false low high =
      (Comparison.greaterOrEqual.holds value low && Comparison.lessOrEqual.holds value high) := by
  unfold liesBetween
  cases nulls : value.isNull || low.isNull || high.isNull with
  | false => exact Bool.bne_false _
  | true => exact (holds_of_nulls nulls).symm

theorem liesBetween_true (value low high : Value) :
    value.liesBetween true low high =
      (!(Comparison.greaterOrEqual.holds value low && Comparison.lessOrEqual.holds value high) &&
        !(value.isNull || low.isNull || high.isNull)) := by
  unfold liesBetween
  cases nulls : value.isNull || low.isNull || high.isNull with
  | false => exact (Bool.bne_true _).trans (Bool.and_true _).symm
  | true => exact (Bool.and_false _).symm

theorem any_matchesMember_of_isNull {value : Value} (null : value.isNull)
    (elements : List Value) : elements.any value.matchesMember = false := by
  simp [eq_null_of_isNull null, matchesMember_eq_any, holds_null_left]

theorem isFound_false (value : Value) (elements : List Value) :
    (!value.isNull && (elements.any value.matchesMember != false)) =
      elements.any value.matchesMember := by
  cases null : value.isNull with
  | false => simp
  | true => exact (any_matchesMember_of_isNull null elements).symm

end Value

namespace Metadata

structure Compares (metadata : Metadata) (symbol : String) (comparison : Comparison) : Prop where
  test : metadata.filterFeature? symbol = some (.compare comparison)
  noFunction : metadata.valueFeature? symbol = none

/-- The derived forms, and the comparisons that they stand for, are the built-in ones. -/
structure DerivesForms (metadata : Metadata) : Prop where
  equal : metadata.Compares "=" .equal
  lessOrEqual : metadata.Compares "<=" .lessOrEqual
  greaterOrEqual : metadata.Compares ">=" .greaterOrEqual
  between : metadata.filterFeature? "between" = some .between
  inList : metadata.filterFeature? "in" = some .inList
  caseWhen : metadata.valueFeature? "case-when" = some .caseWhen

theorem derivesForms_ofSettings (settings : Settings) (zones : Zones) :
    (ofSettings settings zones).DerivesForms :=
  ⟨⟨rfl, rfl⟩, ⟨rfl, rfl⟩, ⟨rfl, rfl⟩, rfl, rfl, rfl⟩

end Metadata

namespace Expr

theorem means_comparison {symbol : String} {comparison : Comparison} {left right : Expr}
    {first second : Value} (compares : metadata.Compares symbol comparison)
    (evaluates : left.Evaluates metadata answers context (.ok first))
    (also : right.Evaluates metadata answers context (.ok second)) :
    (binary (.named symbol) left right).Means metadata answers context
      (.ok (.boolean (comparison.holds first second))) := by
  obtain ⟨mapper, compiled, settles⟩ := evaluates
  obtain ⟨other, compiles, follows⟩ := also
  have test : ((binary (.named symbol) left right).compile metadata).predicate.get =
      FilterFeature.compilePair comparison.holds (binary (.named symbol) left right)
        (.binary (.named symbol) (left.compile metadata) (right.compile metadata)) := by
    change Node.namedPredicate metadata .filter symbol _ _ = _
    simp only [Node.namedPredicate, Node.byTest?, compares.test]
    rfl
  have paired : ((binary (.named symbol) left right).compile metadata).predicate.get =
      .ok (.ofPair comparison.holds mapper other) := by
    rw [test, FilterFeature.compilePair, FilterFeature.sides, compiled, compiles]
    rfl
  refine means_of_predicate ?_ paired fun row => (settles.both follows).map _
  change Node.namedValue metadata .filter symbol _ _ = _
  simp only [Node.namedValue, Node.byTest?, Node.byFunction?, compares.test, compares.noFunction]
  rw [test]
  rfl

/-! Ranges. -/

/-- `x >= l and x <= h` -/
def bounded (subject low high : Expr) : Expr :=
  binary .and (binary (.named ">=") subject low) (binary (.named "<=") subject high)

section

variable {subject : Expr} {value : Value} (standard : metadata.DerivesForms)
  (evaluates : subject.Evaluates metadata answers context (.ok value))
include standard evaluates

section

variable {low high : Expr} {lower upper : Value}
  (least : low.Evaluates metadata answers context (.ok lower))
  (greatest : high.Evaluates metadata answers context (.ok upper))
include least greatest

theorem means_between (negated : Bool) :
    (between subject low high negated).Means metadata answers context
      (.ok (.boolean (value.liesBetween negated lower upper))) := by
  obtain ⟨mapper, compiled, settles⟩ := evaluates
  obtain ⟨first, compiledFirst, settlesFirst⟩ := least
  obtain ⟨second, compiledSecond, settlesSecond⟩ := greatest
  have test : ((between subject low high negated).compile metadata).predicate.get =
      .ok (.between negated mapper first second) := by
    change Node.requiredPredicate metadata "between" _ _ = _
    simp only [Node.requiredPredicate, Node.byTest?, standard.between]
    change (do .ok (Predicate.between negated (← (subject.compile metadata).value.get)
      (← (low.compile metadata).value.get) (← (high.compile metadata).value.get))) = _
    rw [compiled, compiledFirst, compiledSecond]
    rfl
  exact means_of_predicate rfl test fun _ =>
    (settles.both (settlesFirst.both settlesSecond)).map _

theorem means_bounded :
    (subject.bounded low high).Means metadata answers context
      (.ok (.boolean (Comparison.greaterOrEqual.holds value lower &&
        Comparison.lessOrEqual.holds value upper))) :=
  (means_comparison standard.greaterOrEqual evaluates least).and
    (means_comparison standard.lessOrEqual evaluates greatest)

end

/-! Lists. -/

/-- `x = m1 or x = m2 or ..` -/
def equalsAny (subject : Expr) : List Expr → Expr
  | [] => literal (.boolean false)
  | member :: rest =>
      rest.foldl (fun found member => binary .or found (binary (.named "=") subject member))
        (binary (.named "=") subject member)

omit standard evaluates in
theorem settles_findMember {mappers : List Mapper} {elements : List Value}
    (settle : List.Forall₂ (fun mapper element =>
      (mapper context).Settles answers (.ok element)) mappers elements) :
    (Predicate.findMember context value mappers).Settles answers
      (.ok (elements.any value.matchesMember)) := by
  induction settle with
  | nil => exact Evaluation.settles_ok false
  | @cons mapper element mappers elements first _ induction =>
      refine first.andThen ?_
      rw [List.any_cons]
      cases value.matchesMember element with
      | true => exact Evaluation.settles_ok true
      | false => exact induction

section

variable {members : List Expr} {elements : List Value}
  (evaluate : List.Forall₂ (fun member element =>
    member.Evaluates metadata answers context (.ok element)) members elements)
include evaluate

theorem means_inList (negated : Bool) :
    (inList subject members negated).Means metadata answers context
      (.ok (.boolean (!value.isNull && (elements.any value.matchesMember != negated)))) := by
  obtain ⟨mapper, compiled, settles⟩ := evaluates
  obtain ⟨mappers, compiledAll, settleAll⟩ := exists_mapM_of_forall₂ evaluate
  have values : Node.values (compileAll metadata members) = .ok mappers := by
    rw [Node.values, compileAll_eq, List.mapM_map]
    exact compiledAll
  have test : ((inList subject members negated).compile metadata).predicate.get =
      .ok (.inList negated mapper mappers) := by
    change Node.requiredPredicate metadata "in" _ _ = _
    simp only [Node.requiredPredicate, Node.byTest?, standard.inList]
    change (do .ok (Predicate.inList negated (← (subject.compile metadata).value.get)
      (← Node.values (compileAll metadata members)))) = _
    rw [compiled, values]
    rfl
  refine means_of_predicate rfl test fun row => settles.andThen ?_
  cases value.isNull with
  | true => exact Evaluation.settles_ok false
  | false => exact (settles_findMember settleAll).map _

theorem means_equalsAny :
    (subject.equalsAny members).Means metadata answers context
      (.ok (.boolean (elements.any (Comparison.equal.holds value)))) := by
  have disjunction {found : Expr} {holds : Bool} {rest : List Expr} {others : List Value}
      (means : found.Means metadata answers context (.ok (.boolean holds)))
      (evaluate : List.Forall₂ (fun member element =>
        member.Evaluates metadata answers context (.ok element)) rest others) :
      (rest.foldl (fun found member => binary .or found (binary (.named "=") subject member))
        found).Means metadata answers context
          (.ok (.boolean (holds || others.any (Comparison.equal.holds value)))) := by
    induction evaluate generalizing found holds with
    | nil =>
        rw [List.any_nil, Bool.or_false]
        exact means
    | cons first _ induction =>
        rw [List.any_cons, ← Bool.or_assoc]
        exact induction (means.or (means_comparison standard.equal evaluates first))
  cases evaluate with
  | nil => exact means_of_mapper rfl rfl (Evaluation.settles_ok _)
  | cons first rest => exact disjunction (means_comparison standard.equal evaluates first) rest

end

end

/-! Cases. -/

/-- `case when x = v1 then r1 .. else d end` -/
def caseEqual (subject : Expr) (branches : List (Expr × Expr)) (otherwise : Option Expr) : Expr :=
  caseWhen none
    (branches.map fun branch => (binary (.named "=") subject branch.1, branch.2)) otherwise

def chosen (value : Value) (fallback : Except QueryError Value) :
    List (Value × Except QueryError Value) → Except QueryError Value
  | [] => fallback
  | (candidate, result) :: rest =>
      if Comparison.equal.holds value candidate then result else chosen value fallback rest

def EvaluatesElse (metadata : Metadata) (answers : String → Except QueryError Script)
    (context : Context) : Option Expr → Except QueryError Value → Prop
  | none, result => result = .ok .null
  | some expr, result => expr.Evaluates metadata answers context result

theorem EvaluatesElse.compiles {otherwise : Option Expr} {fallback : Except QueryError Value}
    (evaluates : EvaluatesElse metadata answers context otherwise fallback) :
    ∃ mapper, Node.valueOr (Mapper.constant .null) (compileOption metadata otherwise) = .ok mapper ∧
      (mapper context).Settles answers fallback := by
  cases otherwise with
  | none =>
      cases evaluates
      exact ⟨_, rfl, Evaluation.settles_ok Value.null⟩
  | some expr => exact evaluates

section

variable {value : Value} {otherwise : Mapper} {fallback : Except QueryError Value}
  {outcomes : List (Value × Except QueryError Value)}
  (settles : (otherwise context).Settles answers fallback)
include settles

theorem settles_firstEqual {branches : List (Mapper × Mapper)}
    (settle : List.Forall₂ (fun branch outcome =>
      (branch.1 context).Settles answers (.ok outcome.1) ∧
        (branch.2 context).Settles answers outcome.2) branches outcomes) :
    (Mapper.firstEqual context value otherwise branches).Settles answers
      (chosen value fallback outcomes) := by
  induction settle with
  | nil => exact settles
  | @cons branch outcome branches outcomes first _ induction =>
      refine first.1.andThen ?_
      rw [chosen, ← Value.queryEquals_eq_holds]
      cases value.queryEquals outcome.1 with
      | true => exact first.2
      | false => exact induction

theorem settles_firstHolding {branches : List (Predicate × Mapper)}
    (settle : List.Forall₂ (fun branch outcome =>
      (branch.1 context context.row).Settles answers
          (.ok (Comparison.equal.holds value outcome.1)) ∧
        (branch.2 context).Settles answers outcome.2) branches outcomes) :
    (Mapper.firstHolding context otherwise branches).Settles answers
      (chosen value fallback outcomes) := by
  induction settle with
  | nil => exact settles
  | @cons branch outcome branches outcomes first _ induction =>
      refine first.1.andThen ?_
      rw [chosen]
      cases Comparison.equal.holds value outcome.1 with
      | true => exact first.2
      | false => exact induction

end

theorem exists_compileBranches (first : Compiled → Except QueryError γ)
    (holds : γ → Value × Except QueryError Value → Prop) {branches : List (Expr × Expr)}
    {outcomes : List (Value × Except QueryError Value)}
    (evaluate : List.Forall₂ (fun branch outcome =>
      (∃ part, first (branch.1.compile metadata) = .ok part ∧ holds part outcome) ∧
        branch.2.Evaluates metadata answers context outcome.2) branches outcomes) :
    ∃ pairs, ((compileBranches metadata branches).mapM fun (part, result) => do
        .ok (← first part, ← result.value.get)) = .ok pairs ∧
      List.Forall₂ (fun branch outcome => holds branch.1 outcome ∧
        (branch.2 context).Settles answers outcome.2) pairs outcomes := by
  rw [compileBranches_eq, List.mapM_map]
  refine exists_mapM_of_forall₂ (evaluate.imp fun branch outcome parts => ?_)
  obtain ⟨⟨part, compiled, valid⟩, mapper, compiles, settles⟩ := parts
  refine ⟨(part, mapper), ?_, valid, settles⟩
  change (do .ok (← first (branch.1.compile metadata), ← (branch.2.compile metadata).value.get)) = _
  rw [compiled, compiles]
  rfl

theorem compile_caseWhen (standard : metadata.DerivesForms) (subject : Option Expr)
    (branches : List (Expr × Expr)) (otherwise : Option Expr) :
    ((caseWhen subject branches otherwise).compile metadata).value.get =
      ValueFeature.compileCase (caseWhen subject branches otherwise)
        (.caseWhen (compileOption metadata subject) (compileBranches metadata branches)
          (compileOption metadata otherwise)) := by
  change Node.requiredValue metadata "case-when" _ _ = _
  simp only [Node.requiredValue, Node.byFunction?, standard.caseWhen]
  rfl

section

variable {subject : Expr} {value : Value} (standard : metadata.DerivesForms)
  (evaluates : subject.Evaluates metadata answers context (.ok value))
  {branches : List (Expr × Expr)} {outcomes : List (Value × Except QueryError Value)}
  (evaluate : List.Forall₂ (fun branch outcome =>
    branch.1.Evaluates metadata answers context (.ok outcome.1) ∧
      branch.2.Evaluates metadata answers context outcome.2) branches outcomes)
  {otherwise : Option Expr} {fallback : Except QueryError Value}
  (evaluatesElse : EvaluatesElse metadata answers context otherwise fallback)
include standard evaluates evaluate evaluatesElse

theorem means_simpleCase :
    (caseWhen (some subject) branches otherwise).Means metadata answers context
      (chosen value fallback outcomes) := by
  obtain ⟨mapper, compiled, settles⟩ := evaluates
  obtain ⟨last, compiledLast, settlesLast⟩ := evaluatesElse.compiles
  obtain ⟨pairs, compiledPairs, settlePairs⟩ := exists_compileBranches
    (fun part => part.value.get)
    (fun mapper outcome => (mapper context).Settles answers (.ok outcome.1)) evaluate
  have choice : ((caseWhen (some subject) branches otherwise).compile metadata).value.get =
      .ok (.simpleCase mapper pairs last) := by
    rw [compile_caseWhen standard, compileOption, ValueFeature.compileCase, compiledPairs,
      compiledLast]
    change (do .ok (Mapper.simpleCase (← (subject.compile metadata).value.get) pairs last)) = _
    rw [compiled]
    rfl
  exact means_of_mapper rfl choice (settles.andThen (settles_firstEqual settlesLast settlePairs))

theorem means_caseEqual :
    (subject.caseEqual branches otherwise).Means metadata answers context
      (chosen value fallback outcomes) := by
  obtain ⟨last, compiledLast, settlesLast⟩ := evaluatesElse.compiles
  have conditions : List.Forall₂ (fun branch outcome =>
      (∃ predicate, (branch.1.compile metadata).predicate.get = .ok predicate ∧
        (predicate context context.row).Settles answers
          (.ok (Comparison.equal.holds value outcome.1))) ∧
        branch.2.Evaluates metadata answers context outcome.2)
      (branches.map fun branch => (binary (.named "=") subject branch.1, branch.2)) outcomes := by
    refine List.forall₂_map_left_iff.mpr (evaluate.imp fun branch outcome parts => ?_)
    obtain ⟨predicate, compiled, settles⟩ :=
      (means_comparison standard.equal evaluates parts.1).condition
    exact ⟨⟨predicate, compiled, settles context.row⟩, parts.2⟩
  obtain ⟨pairs, compiledPairs, settlePairs⟩ := exists_compileBranches
    (fun part => part.predicate.get)
    (fun predicate outcome => (predicate context context.row).Settles answers
      (.ok (Comparison.equal.holds value outcome.1))) conditions
  have choice : ((subject.caseEqual branches otherwise).compile metadata).value.get =
      .ok (.searchedCase pairs last) := by
    rw [caseEqual, compile_caseWhen standard, compileOption, ValueFeature.compileCase,
      compiledPairs, compiledLast]
    rfl
  exact means_of_mapper rfl choice (settles_firstHolding settlesLast settlePairs)

end

end Expr

end StreamQuery
