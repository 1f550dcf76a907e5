import StreamQuery.Plan.Compile
import StreamQuery.Proofs.Results
import StreamQuery.Proofs.Stream.Composition
namespace StreamQuery

/-! An expression is read as a value or as a condition, and each reading is compiled on its own.
Both come to the same: the condition holds of a record if the value for that record is truthy. -/

/-! A predicate goes by the record that it is asked about alone. Then it can be turned into a mapper
and back. -/

namespace Predicate

def IgnoresRow (predicate : Predicate) : Prop :=
  ∀ (context : Context) (row other : Value),
    predicate (context.withRow other) row = predicate context row

theorem IgnoresRow.toMapper_toPredicate {predicate : Predicate} (ignores : predicate.IgnoresRow) :
    predicate.toMapper.toPredicate = predicate := by
  funext context row
  have truthy : ((predicate (context.withRow row) row).map Value.boolean).map Value.isTruthy =
      predicate (context.withRow row) row :=
    (Evaluation.map_map _ _ _).trans (Evaluation.map_id _)
  exact truthy.trans (ignores context row row)

theorem IgnoresRow.negate {predicate : Predicate} (ignores : predicate.IgnoresRow) :
    predicate.negate.IgnoresRow := fun context row other =>
  congrArg (Evaluation.map (!·)) (ignores context row other)

theorem ignoresRow_toPredicate (mapper : Mapper) : mapper.toPredicate.IgnoresRow :=
  fun _ _ _ => rfl

theorem ignoresRow_and (left right : Predicate) : (left.and right).IgnoresRow :=
  fun _ _ _ => rfl

theorem ignoresRow_or (left right : Predicate) : (left.or right).IgnoresRow :=
  fun _ _ _ => rfl

end Predicate

/-! Every test puts the record that it is asked about in the place of the record of the context. -/

namespace FilterFeature

variable {expr : Expr} {node : Node}

theorem compilePair_ignoresRow (test : Value → Value → Bool) :
    Ensures (compilePair test expr node) Predicate.IgnoresRow :=
  (ensures_true _).map fun _ _ _ _ _ => rfl

theorem compileIsNull_ignoresRow : Ensures (compileIsNull expr node) Predicate.IgnoresRow := by
  simp only [compileIsNull]
  split
  · exact (ensures_true _).map fun _ _ _ _ _ => rfl
  · exact (ensures_true _).map fun _ _ _ _ _ => rfl
  · exact ensures_error _
  · exact ensures_error _

theorem compile_ignoresRow (feature : FilterFeature) :
    Ensures (feature.compile expr node) Predicate.IgnoresRow := by
  cases feature with
  | compare comparison => exact compilePair_ignoresRow _
  | like => exact compilePair_ignoresRow _
  | between =>
      cases node with
      | between subject low high negated =>
          exact (ensures_true _).bind fun _ _ => (ensures_true _).bind fun _ _ =>
            (ensures_true _).bind fun _ _ => ensures_ok fun _ _ _ => rfl
      | _ => exact ensures_error _
  | inList =>
      cases node with
      | inList subject members negated =>
          exact (ensures_true _).bind fun _ _ => (ensures_true _).bind fun _ _ =>
            ensures_ok fun _ _ _ => rfl
      | _ => exact ensures_error _
  | isNull => exact compileIsNull_ignoresRow
  | isBoolean =>
      cases node with
      | isBoolean subject value negated => exact (ensures_true _).map fun _ _ _ _ _ => rfl
      | _ => exact ensures_error _
  | constant holds => exact ensures_ok fun _ _ _ => rfl

end FilterFeature

/-! A name that stands for a function as well as for a test would be read as the one in value
position and as the other in a condition. No name of the defaults does. -/

namespace Metadata

def Separates (metadata : Metadata) : Prop :=
  ∀ name : String, metadata.valueFeature? name = none ∨ metadata.filterFeature? name = none

end Metadata

def Feature.readsResults : Feature → Bool
  | .valueMap (.slots _) => true
  | _ => false

namespace Registry

theorem defaults_separate :
    ∀ function ∈ defaults.entries, function.1.category = .valueMap →
      ∀ test ∈ defaults.entries, test.1.category = .filter →
        function.1.name ≠ test.1.name := by
  decide +kernel

theorem mem_of_find? {registry : Registry} {id : FeatureId} {feature : Feature}
    (found : registry.find? id = some feature) : (id, feature) ∈ registry.entries := by
  rcases Option.map_eq_some_iff.mp found with ⟨⟨key, value⟩, among, rfl⟩
  have matched := List.find?_some among
  rw [← eq_of_beq matched]
  exact List.mem_of_find?_eq_some among

theorem readsResults_of_defaults {id : FeatureId} {feature : Feature}
    (found : defaults.find? id = some feature) : feature.readsResults = false := by
  have noneReads : defaults.entries.all (fun entry => !entry.2.readsResults) := by
    decide +kernel
  have other := List.all_eq_true.mp noneReads _ (mem_of_find? found)
  simpa using other

end Registry

namespace Metadata

theorem find?_ofSettings (settings : Settings) (zones : Zones) (id : FeatureId) :
    (ofSettings settings zones).find? id = Registry.defaults.find? id := rfl

theorem ofSettings_separates (settings : Settings) (zones : Zones) :
    (ofSettings settings zones).Separates := by
  intro name
  cases function : Registry.defaults.find? (.of .valueMap name) with
  | none => exact .inl (by simp only [valueFeature?, find?_ofSettings, function])
  | some _ =>
      cases test : Registry.defaults.find? (.of .filter name) with
      | none => exact .inr (by simp only [filterFeature?, find?_ofSettings, test])
      | some _ =>
          have different := Registry.defaults_separate _ (Registry.mem_of_find? function) rfl _
            (Registry.mem_of_find? test) rfl
          exact absurd rfl different

end Metadata

/-! The two readings of a node agree if those of the part that it hands on to do. -/

namespace Compiled

/-- The condition is that the value is truthy, and neither compiles without the other. -/
def Agrees (compiled : Compiled) : Prop :=
  compiled.predicate.get = compiled.value.get.map Mapper.toPredicate

theorem Agrees.ignoresRow {compiled : Compiled} (agrees : compiled.Agrees) :
    Ensures compiled.predicate.get Predicate.IgnoresRow := by
  rw [agrees]
  exact (ensures_true _).map fun _ _ => Predicate.ignoresRow_toPredicate _

end Compiled

theorem Ensures.map_toMapper_toPredicate {result : Except QueryError Predicate}
    (ensures : Ensures result Predicate.IgnoresRow) :
    (result.map Predicate.toMapper).map Mapper.toPredicate = result := by
  cases result with
  | error error => rfl
  | ok predicate => exact congrArg Except.ok (ensures predicate rfl).toMapper_toPredicate

namespace Node

/-- The part whose predicate a node takes over, as it is or negated, agrees with its value. -/
def Agrees : Node → Prop
  | .parenthesis inner | .not inner => inner.Agrees
  | _ => True

variable {metadata : Metadata} {expr : Expr} {node : Node}

theorem byTest?_ignoresRow (name : String) :
    ∀ result ∈ node.byTest? metadata name expr, Ensures result Predicate.IgnoresRow := by
  intro result found
  rcases Option.map_eq_some_iff.mp found with ⟨feature, _, rfl⟩
  exact feature.compile_ignoresRow

theorem condition?_ignoresRow
    (negated : ∀ inner, node = .not inner → Ensures inner.predicate.get Predicate.IgnoresRow) :
    ∀ result ∈ node.condition? metadata expr, Ensures result Predicate.IgnoresRow := by
  have required (name : String) :
      Ensures (node.requiredPredicate metadata name expr) Predicate.IgnoresRow := by
    simp only [requiredPredicate]
    cases found : node.byTest? metadata name expr with
    | none => exact ensures_error _
    | some result => exact byTest?_ignoresRow name result found
  intro result found
  simp only [condition?] at found
  split at found <;> cases found
  · exact (ensures_true _).bind fun _ _ => (ensures_true _).bind fun _ _ =>
      ensures_ok (Predicate.ignoresRow_and _ _)
  · exact (ensures_true _).bind fun _ _ => (ensures_true _).bind fun _ _ =>
      ensures_ok (Predicate.ignoresRow_or _ _)
  · exact (negated _ rfl).map fun _ ignores => ignores.negate
  · exact required "is_null"
  · exact required "is_boolean"
  · exact required "between"
  · exact required "in"

theorem named_agree (separates : metadata.Separates) (category : FeatureCategory) (name : String) :
    node.namedPredicate metadata category name expr =
      (node.namedValue metadata category name expr).map Mapper.toPredicate := by
  simp only [namedPredicate, namedValue]
  rcases separates name with absent | absent
  · have byFunction : node.byFunction? metadata name expr = none := by
      simp only [byFunction?, absent, Option.map_none]
    rw [byFunction]
    cases found : node.byTest? metadata name expr with
    | none => rfl
    | some result => exact (byTest?_ignoresRow name result found).map_toMapper_toPredicate.symm
  · have byTest : node.byTest? metadata name expr = none := by
      simp only [byTest?, absent, Option.map_none]
    rw [byTest]
    cases node.byFunction? metadata name expr <;> rfl

theorem compile_agrees (separates : metadata.Separates) (agrees : node.Agrees) :
    (node.compile metadata expr).Agrees := by
  change node.predicate metadata expr = (node.value metadata expr).map Mapper.toPredicate
  have negated (inner : Compiled) (same : node = .not inner) :
      Ensures inner.predicate.get Predicate.IgnoresRow := by
    subst same
    exact Compiled.Agrees.ignoresRow agrees
  have condition {result : Except QueryError Predicate}
      (found : node.condition? metadata expr = some result) :
      (result.map Predicate.toMapper).map Mapper.toPredicate = result :=
    (condition?_ignoresRow negated result found).map_toMapper_toPredicate
  cases node with
  | literal _ | column _ | signed _ _ | cast _ _ | caseWhen _ _ _ | subselect _ _ => rfl
  | call application _ => exact named_agree separates .valueMap application.name
  | binary operator _ _ =>
      cases operator with
      | named symbol => exact named_agree separates .filter symbol
      | and | or => exact (condition rfl).symm
  | parenthesis inner => exact agrees
  | not _ | isNull _ _ | isBoolean _ _ _ | between _ _ _ _ | inList _ _ _ =>
      exact (condition rfl).symm

end Node

/-- The induction follows the parts that hand on their reading. -/
theorem Expr.compile_agrees {metadata : Metadata} (separates : metadata.Separates) :
    (expr : Expr) → (expr.compile metadata).Agrees
  | .parenthesis inner | .not inner =>
      Node.compile_agrees separates (Expr.compile_agrees separates inner)
  | .literal _ | .column _ | .call ⟨_, _, _, _⟩ | .binary _ _ _ | .signed _ _ | .cast _ _
  | .caseWhen _ _ _ | .subselect _ | .isNull _ _ | .isBoolean _ _ _ | .between _ _ _ _ | .inList _ _ _ =>
      Node.compile_agrees separates trivial

theorem Node.namedPredicate_ignoresRow {metadata : Metadata} {expr : Expr} (node : Node)
    (category : FeatureCategory) (name : String) :
    Ensures (node.namedPredicate metadata category name expr) Predicate.IgnoresRow := by
  simp only [namedPredicate]
  split
  · next found => exact byTest?_ignoresRow name _ found
  · split
    · exact (ensures_true _).map fun _ _ => Predicate.ignoresRow_toPredicate _
    · exact ensures_error _

theorem Node.predicate_ignoresRow {metadata : Metadata} {expr : Expr} {node : Node}
    (part : ∀ inner, node = .parenthesis inner ∨ node = .not inner →
      Ensures inner.predicate.get Predicate.IgnoresRow) :
    Ensures (node.predicate metadata expr) Predicate.IgnoresRow := by
  simp only [predicate]
  split
  · exact namedPredicate_ignoresRow _ _ _
  · exact namedPredicate_ignoresRow _ _ _
  · exact part _ (.inl rfl)
  · split
    · next found => exact condition?_ignoresRow (fun inner same => part inner (.inr same)) _ found
    · exact (ensures_true _).map fun _ _ => Predicate.ignoresRow_toPredicate _

/-- Also where the two readings differ, a condition goes by the record that it is asked about. -/
theorem Expr.predicate_ignoresRow (metadata : Metadata) (expr : Expr) :
    Ensures (expr.compile metadata).predicate.get Predicate.IgnoresRow := by
  apply Node.predicate_ignoresRow
  intro inner same
  cases expr with
  | parenthesis part | not part =>
      rcases same with same | same <;> cases same
      exact Expr.predicate_ignoresRow metadata part
  | call application =>
      rcases application with ⟨name, arguments, star, distinct⟩
      rcases same with same | same <;> cases same
  | _ => rcases same with same | same <;> cases same

/-- With the features that every query has, an expression compiles as a condition if it does as a
value, and with the same error if not; the condition holds of a record if the value for that record
is truthy. -/
theorem Expr.predicate_eq_truthiness (settings : Settings) (zones : Zones) (expr : Expr) :
    match (expr.compile (.ofSettings settings zones)).value.get,
        (expr.compile (.ofSettings settings zones)).predicate.get with
    | .ok mapper, .ok predicate => ∀ (context : Context) (row : Value),
        predicate context row = (mapper (context.withRow row)).map Value.isTruthy ∧
          ∀ other : Value, predicate (context.withRow other) row = predicate context row
    | .error error, .error other => other = error
    | _, _ => False := by
  have agrees : (expr.compile (.ofSettings settings zones)).Agrees :=
    Expr.compile_agrees (Metadata.ofSettings_separates settings zones) expr
  rw [agrees]
  cases (expr.compile (.ofSettings settings zones)).value.get with
  | error error => rfl
  | ok mapper => exact fun context row => ⟨rfl, fun other => rfl⟩

end StreamQuery
