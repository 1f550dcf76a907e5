import StreamQuery.Proofs.Plan.Tightening
import StreamQuery.Proofs.Stream.StrictRuns
namespace StreamQuery

/-! The policy makes no difference to what a statement compiles to, but for the settings that the
plan comes with. -/

namespace Metadata

def withPolicy (metadata : Metadata) (policy : ErrorPolicy) : Metadata :=
  { metadata with settings := { metadata.settings with errorPolicy := policy } }

end Metadata

def Plan.withPolicy (policy : ErrorPolicy) (plan : Plan) : Plan :=
  { plan with settings := { plan.settings with errorPolicy := policy } }

def Node.withPolicy (policy : ErrorPolicy) : Node → Node
  | .subselect query plan =>
      .subselect query (Thunk.mk fun _ => plan.get.map (Plan.withPolicy policy))
  | node => node

variable {metadata : Metadata} {policy : ErrorPolicy}

theorem ValueFeature.compile_withPolicy (feature : ValueFeature) (expr : Expr) (node : Node) :
    feature.compile (metadata.withPolicy policy) expr (node.withPolicy policy) =
      feature.compile metadata expr node := by
  cases node with
  | subselect query plan =>
      cases feature with
      | subselect =>
          show (plan.get.map _).map _ = plan.get.map _
          cases plan.get <;> rfl
      | _ => rfl
  | _ => cases feature <;> rfl

theorem FilterFeature.compile_withPolicy (feature : FilterFeature) (expr : Expr) (node : Node) :
    feature.compile expr (node.withPolicy policy) = feature.compile expr node := by
  cases node with
  | subselect query plan => cases feature <;> rfl
  | _ => rfl

namespace Node

theorem byFunction?_withPolicy (name : String) (expr : Expr) (node : Node) :
    (node.withPolicy policy).byFunction? (metadata.withPolicy policy) name expr =
      node.byFunction? metadata name expr := by
  simp only [byFunction?, ValueFeature.compile_withPolicy]
  rfl

theorem byTest?_withPolicy (name : String) (expr : Expr) (node : Node) :
    (node.withPolicy policy).byTest? (metadata.withPolicy policy) name expr =
      node.byTest? metadata name expr := by
  simp only [byTest?, FilterFeature.compile_withPolicy]
  rfl

theorem namedValue_withPolicy (category : FeatureCategory) (name : String) (expr : Expr)
    (node : Node) :
    (node.withPolicy policy).namedValue (metadata.withPolicy policy) category name expr =
      node.namedValue metadata category name expr := by
  simp only [namedValue]
  rw [byFunction?_withPolicy, byTest?_withPolicy]

theorem namedPredicate_withPolicy (category : FeatureCategory) (name : String) (expr : Expr)
    (node : Node) :
    (node.withPolicy policy).namedPredicate (metadata.withPolicy policy) category name expr =
      node.namedPredicate metadata category name expr := by
  simp only [namedPredicate]
  rw [byFunction?_withPolicy, byTest?_withPolicy]

theorem requiredValue_withPolicy (name : String) (expr : Expr) (node : Node) :
    (node.withPolicy policy).requiredValue (metadata.withPolicy policy) name expr =
      node.requiredValue metadata name expr := by
  simp only [requiredValue]
  rw [byFunction?_withPolicy]

theorem requiredPredicate_withPolicy (name : String) (expr : Expr) (node : Node) :
    (node.withPolicy policy).requiredPredicate (metadata.withPolicy policy) name expr =
      node.requiredPredicate metadata name expr := by
  simp only [requiredPredicate]
  rw [byTest?_withPolicy]

theorem value_withPolicy (expr : Expr) (node : Node) :
    (node.withPolicy policy).value (metadata.withPolicy policy) expr = node.value metadata expr := by
  cases node with
  | literal | signed | parenthesis => rfl
  | column | cast | caseWhen | subselect => exact requiredValue_withPolicy _ expr _
  | call => exact namedValue_withPolicy _ _ expr _
  | binary operator left right =>
      cases operator with
      | named symbol => exact namedValue_withPolicy _ _ expr (.binary (.named symbol) left right)
      | and | or => rfl
  | not inner => rfl
  | isNull | isBoolean | between | inList =>
      exact congrArg (Except.map Predicate.toMapper) (requiredPredicate_withPolicy _ expr _)

theorem predicate_withPolicy (expr : Expr) (node : Node) :
    (node.withPolicy policy).predicate (metadata.withPolicy policy) expr =
      node.predicate metadata expr := by
  have fromValue := congrArg (Except.map Mapper.toPredicate)
    (@value_withPolicy metadata policy expr node)
  cases node with
  | call => exact namedPredicate_withPolicy _ _ expr _
  | binary operator left right =>
      cases operator with
      | named symbol =>
          exact namedPredicate_withPolicy _ _ expr (.binary (.named symbol) left right)
      | and | or => rfl
  | parenthesis | not => rfl
  | isNull | isBoolean | between | inList => exact requiredPredicate_withPolicy _ expr _
  | _ => exact fromValue

theorem compile_withPolicy (expr : Expr) (node : Node) :
    (node.withPolicy policy).compile (metadata.withPolicy policy) expr =
      node.compile metadata expr := by
  simp only [compile, value_withPolicy, predicate_withPolicy]

end Node

namespace GroupClause

theorem add_withPolicy (clause : GroupClause) (expr : Expr) (node : Node) :
    clause.add (metadata.withPolicy policy) expr (node.withPolicy policy) =
      clause.add metadata expr node := by
  have window : window? (metadata.withPolicy policy) (node.withPolicy policy) =
      window? metadata node := by
    cases node <;> rfl
  simp only [add]
  rw [window, Node.value_withPolicy]

theorem compile_withPolicy (parts : List (Expr × Node)) :
    compile (metadata.withPolicy policy)
        (parts.map fun part => (part.1, part.2.withPolicy policy)) =
      compile metadata parts := by
  simp only [compile]
  rw [List.foldlM_map]
  simp only [add_withPolicy]

end GroupClause

theorem AggregateSet.install_withPolicy (set : AggregateSet) :
    set.install (metadata.withPolicy policy) = (set.install metadata).withPolicy policy := by
  simp only [install]
  exact List.foldl_hom (Metadata.withPolicy · policy) fun _ _ => rfl

theorem bind_eq_map {result : Except QueryError α} {next other : α → Except QueryError β}
    {transform : β → β} (same : ∀ value, next value = (other value).map transform) :
    (result >>= next) = (result >>= other).map transform := by
  cases result with
  | error error => rfl
  | ok value => exact same value

mutual
theorem Expr.node_withPolicy (metadata : Metadata) (policy : ErrorPolicy) :
    (expr : Expr) → expr.node (metadata.withPolicy policy) = (expr.node metadata).withPolicy policy
  | .literal _ | .column _ => rfl
  | .call ⟨name, arguments, star, distinct⟩ =>
      congrArg (Node.call ⟨name, arguments, star, distinct⟩)
        (Expr.compileAll_withPolicy metadata policy arguments)
  | .binary operator left right => by
      simp only [Expr.node]
      rw [left.node_withPolicy, right.node_withPolicy, Node.compile_withPolicy,
        Node.compile_withPolicy]
      rfl
  | .signed sign operand => by
      simp only [Expr.node]
      rw [operand.node_withPolicy, Node.compile_withPolicy]
      rfl
  | .cast operand target => by
      simp only [Expr.node]
      rw [operand.node_withPolicy, Node.compile_withPolicy]
      rfl
  | .caseWhen subject branches otherwise => by
      simp only [Expr.node]
      rw [Expr.compileOption_withPolicy metadata policy subject,
        Expr.compileOption_withPolicy metadata policy otherwise,
        Expr.compileBranches_withPolicy metadata policy branches]
      rfl
  | .parenthesis inner => by
      simp only [Expr.node]
      rw [inner.node_withPolicy, Node.compile_withPolicy]
      rfl
  | .subselect query => by
      simp only [Expr.node]
      have nested : Select.compile (metadata.withPolicy policy).nested query = _ :=
        Select.compile_withPolicy metadata.nested policy query
      rw [nested]
      rfl
  | .not inner => by
      simp only [Expr.node]
      rw [inner.node_withPolicy, Node.compile_withPolicy]
      rfl
  | .isNull subject negated => by
      simp only [Expr.node]
      rw [subject.node_withPolicy, Node.compile_withPolicy]
      rfl
  | .isBoolean subject value negated => by
      simp only [Expr.node]
      rw [subject.node_withPolicy, Node.compile_withPolicy]
      rfl
  | .between subject low high negated => by
      simp only [Expr.node]
      rw [subject.node_withPolicy, low.node_withPolicy, high.node_withPolicy,
        Node.compile_withPolicy, Node.compile_withPolicy, Node.compile_withPolicy]
      rfl
  | .inList subject members negated => by
      simp only [Expr.node]
      rw [subject.node_withPolicy, Node.compile_withPolicy,
        Expr.compileAll_withPolicy metadata policy members]
      rfl

theorem Expr.compileAll_withPolicy (metadata : Metadata) (policy : ErrorPolicy) :
    (exprs : List Expr) →
      Expr.compileAll (metadata.withPolicy policy) exprs = Expr.compileAll metadata exprs
  | [] => rfl
  | head :: rest => by
      simp only [Expr.compileAll]
      rw [head.node_withPolicy, Node.compile_withPolicy,
        Expr.compileAll_withPolicy metadata policy rest]

theorem Expr.compileOption_withPolicy (metadata : Metadata) (policy : ErrorPolicy) :
    (expr : Option Expr) →
      Expr.compileOption (metadata.withPolicy policy) expr = Expr.compileOption metadata expr
  | none => rfl
  | some expr => by
      simp only [Expr.compileOption]
      rw [expr.node_withPolicy, Node.compile_withPolicy]

theorem Expr.compileBranches_withPolicy (metadata : Metadata) (policy : ErrorPolicy) :
    (branches : List (Expr × Expr)) →
      Expr.compileBranches (metadata.withPolicy policy) branches =
        Expr.compileBranches metadata branches
  | [] => rfl
  | (condition, result) :: rest => by
      simp only [Expr.compileBranches]
      rw [condition.node_withPolicy, result.node_withPolicy, Node.compile_withPolicy,
        Node.compile_withPolicy, Expr.compileBranches_withPolicy metadata policy rest]

theorem Expr.nodes_withPolicy (metadata : Metadata) (policy : ErrorPolicy) :
    (exprs : List Expr) → Expr.nodes (metadata.withPolicy policy) exprs =
      (Expr.nodes metadata exprs).map fun part => (part.1, part.2.withPolicy policy)
  | [] => rfl
  | head :: rest => by
      simp only [Expr.nodes]
      rw [head.node_withPolicy, Expr.nodes_withPolicy metadata policy rest]
      rfl

theorem Expr.aggregates_withPolicy (metadata : Metadata) (policy : ErrorPolicy) :
    (expr : Expr) → expr.aggregates (metadata.withPolicy policy) = expr.aggregates metadata
  | .literal _ | .column _ | .subselect _ => rfl
  | .call ⟨name, arguments, star, distinct⟩ => by
      have feature : (metadata.withPolicy policy).aggregateFeature? name =
          metadata.aggregateFeature? name := rfl
      simp only [Expr.aggregates]
      rw [feature, Expr.compileAll_withPolicy metadata policy arguments,
        Expr.aggregatesOfAll_withPolicy metadata policy arguments]
  | .binary _ left right => by
      simp only [Expr.aggregates]
      rw [left.aggregates_withPolicy, right.aggregates_withPolicy]
  | .signed _ operand => operand.aggregates_withPolicy metadata policy
  | .cast operand _ => operand.aggregates_withPolicy metadata policy
  | .caseWhen subject branches otherwise => by
      simp only [Expr.aggregates]
      rw [Expr.aggregatesOfOption_withPolicy metadata policy subject,
        Expr.aggregatesOfBranches_withPolicy metadata policy branches,
        Expr.aggregatesOfOption_withPolicy metadata policy otherwise]
  | .parenthesis inner => inner.aggregates_withPolicy metadata policy
  | .not inner => inner.aggregates_withPolicy metadata policy
  | .isNull subject _ => subject.aggregates_withPolicy metadata policy
  | .isBoolean subject _ _ => subject.aggregates_withPolicy metadata policy
  | .between subject low high _ => by
      simp only [Expr.aggregates]
      rw [subject.aggregates_withPolicy, low.aggregates_withPolicy, high.aggregates_withPolicy]
  | .inList subject members _ => by
      simp only [Expr.aggregates]
      rw [subject.aggregates_withPolicy, Expr.aggregatesOfAll_withPolicy metadata policy members]

theorem Expr.aggregatesOfAll_withPolicy (metadata : Metadata) (policy : ErrorPolicy) :
    (exprs : List Expr) →
      Expr.aggregatesOfAll (metadata.withPolicy policy) exprs = Expr.aggregatesOfAll metadata exprs
  | [] => rfl
  | head :: rest => by
      simp only [Expr.aggregatesOfAll]
      rw [head.aggregates_withPolicy, Expr.aggregatesOfAll_withPolicy metadata policy rest]

theorem Expr.aggregatesOfOption_withPolicy (metadata : Metadata) (policy : ErrorPolicy) :
    (expr : Option Expr) → Expr.aggregatesOfOption (metadata.withPolicy policy) expr =
      Expr.aggregatesOfOption metadata expr
  | none => rfl
  | some expr => expr.aggregates_withPolicy metadata policy

theorem Expr.aggregatesOfBranches_withPolicy (metadata : Metadata) (policy : ErrorPolicy) :
    (branches : List (Expr × Expr)) →
      Expr.aggregatesOfBranches (metadata.withPolicy policy) branches =
        Expr.aggregatesOfBranches metadata branches
  | [] => rfl
  | (condition, result) :: rest => by
      simp only [Expr.aggregatesOfBranches]
      rw [condition.aggregates_withPolicy, result.aggregates_withPolicy,
        Expr.aggregatesOfBranches_withPolicy metadata policy rest]

theorem SelectItem.aggregates_withPolicy (metadata : Metadata) (policy : ErrorPolicy) :
    (items : List SelectItem) → SelectItem.aggregates (metadata.withPolicy policy) items =
      SelectItem.aggregates metadata items
  | [] => rfl
  | .wildcard :: rest => SelectItem.aggregates_withPolicy metadata policy rest
  | .expression value _ :: rest => by
      simp only [SelectItem.aggregates]
      rw [value.aggregates_withPolicy, SelectItem.aggregates_withPolicy metadata policy rest]

theorem SelectItem.columns_withPolicy (metadata : Metadata) (policy : ErrorPolicy) :
    (items : List SelectItem) → SelectItem.columns (metadata.withPolicy policy) items =
      SelectItem.columns metadata items
  | [] => rfl
  | .wildcard :: rest => by
      simp only [SelectItem.columns]
      rw [SelectItem.columns_withPolicy metadata policy rest]
  | .expression value _ :: rest => by
      simp only [SelectItem.columns]
      rw [value.node_withPolicy, Node.value_withPolicy,
        SelectItem.columns_withPolicy metadata policy rest]

theorem SortClause.aggregates_withPolicy (metadata : Metadata) (policy : ErrorPolicy) :
    (clauses : List SortClause) → SortClause.aggregates (metadata.withPolicy policy) clauses =
      SortClause.aggregates metadata clauses
  | [] => rfl
  | ⟨key, _⟩ :: rest => by
      simp only [SortClause.aggregates]
      rw [key.aggregates_withPolicy, SortClause.aggregates_withPolicy metadata policy rest]

theorem SortClause.keys_withPolicy (metadata : Metadata) (policy : ErrorPolicy) :
    (clauses : List SortClause) → SortClause.keys (metadata.withPolicy policy) clauses =
      SortClause.keys metadata clauses
  | [] => rfl
  | ⟨key, _⟩ :: rest => by
      simp only [SortClause.keys]
      rw [key.node_withPolicy, Node.value_withPolicy,
        SortClause.keys_withPolicy metadata policy rest]

theorem FromItem.compile_withPolicy (metadata : Metadata) (policy : ErrorPolicy) (position : Nat) :
    (item : FromItem) → item.compile (metadata.withPolicy policy) position =
      item.compile metadata position
  | .table _ _ => rfl
  | .query query _ => by
      have nested : Select.compile (metadata.withPolicy policy).nested query = _ :=
        Select.compile_withPolicy metadata.nested policy query
      simp only [FromItem.compile]
      rw [nested]
      cases Select.compile metadata.nested query <;> rfl

theorem JoinClause.compileAll_withPolicy (metadata : Metadata) (policy : ErrorPolicy)
    (statement : Unit → String) (position : Nat) : (clauses : List JoinClause) →
      JoinClause.compileAll (metadata.withPolicy policy) statement position clauses =
        JoinClause.compileAll metadata statement position clauses
  | [] => rfl
  | ⟨kind, source, condition⟩ :: rest => by
      have feature (kind : JoinKind) : (metadata.withPolicy policy).joinFeature? kind =
          metadata.joinFeature? kind := rfl
      simp only [JoinClause.compileAll]
      simp only [feature, FromItem.compile_withPolicy metadata policy position source,
        Expr.compileOption_withPolicy metadata policy condition,
        JoinClause.compileAll_withPolicy metadata policy statement (position + 1) rest]

theorem FromItem.compileClause_withPolicy (metadata : Metadata) (policy : ErrorPolicy)
    (joins : Unit → Except QueryError (List JoinStep)) : (item : Option FromItem) →
      FromItem.compileClause (metadata.withPolicy policy) joins item =
        FromItem.compileClause metadata joins item
  | none => rfl
  | some item => by
      simp only [FromItem.compileClause]
      rw [FromItem.compile_withPolicy metadata policy 0 item]

theorem Select.compile_withPolicy (metadata : Metadata) (policy : ErrorPolicy) :
    (query : Select) → Select.compile (metadata.withPolicy policy) query =
      (Select.compile metadata query).map (Plan.withPolicy policy)
  | ⟨distinct, items, source, joins, filter, groupBy, having, orderBy, limit⟩ => by
      have steps (statement : Unit → String) :=
        JoinClause.compileAll_withPolicy metadata policy statement 1 joins
      have shaping (grouped : Bool) (aggregates : AggregateSet) :
          (if grouped then aggregates.install (metadata.withPolicy policy)
            else metadata.withPolicy policy) =
          (if grouped then aggregates.install metadata else metadata).withPolicy policy := by
        rw [AggregateSet.install_withPolicy]
        split <;> rfl
      simp only [Select.compile, steps, FromItem.compileClause_withPolicy metadata policy _ source,
        Expr.compileOption_withPolicy metadata policy filter,
        SelectItem.aggregates_withPolicy metadata policy items,
        Expr.aggregatesOfOption_withPolicy metadata policy having,
        SortClause.aggregates_withPolicy metadata policy orderBy,
        Expr.nodes_withPolicy metadata policy groupBy, GroupClause.compile_withPolicy, shaping,
        fun metadata => SelectItem.columns_withPolicy metadata policy items,
        fun metadata => Expr.compileOption_withPolicy metadata policy having,
        fun metadata => SortClause.keys_withPolicy metadata policy orderBy]
      iterate 7 refine bind_eq_map fun _ => ?_
      rfl
end

/-- What a statement puts out under the policy to fail begins what it puts out under the policy to
skip, over the same sources, and if no error shows, both are the same. -/
theorem rows_under_fail_prefix (metadata : Metadata) (query : Select) {failing : Plan}
    (compiles : Select.compile (metadata.withPolicy .fail) query = .ok failing) :
    ∃ skipping, Select.compile (metadata.withPolicy .skip) query = .ok skipping ∧
      ∀ (nested : Bool) (context : Context) (wanted : Option Nat) (world : World),
        let failed := Stream.run wanted (failing.rows nested (context.withPolicy .fail)) world
        let skipped := Stream.run wanted (skipping.rows nested (context.withPolicy .skip)) world
        failed.successes <+: skipped.successes ∧ (failed.Clean → failed = skipped) := by
  rw [Select.compile_withPolicy] at compiles ⊢
  have tightens := Select.compile_tightens metadata query
  cases compiled : Select.compile metadata query with
  | error error =>
      rw [compiled] at compiles
      cases compiles
  | ok plan =>
      rw [compiled] at compiles
      cases compiles
      exact ⟨plan.withPolicy .skip, rfl, fun nested context wanted world =>
        Stream.run_precedes (tightens plan compiled nested context) wanted world⟩

/-- `SELECT * WHERE -this` over two numbers with a truth value between them, which has no sign. -/
theorem rows_under_fail_prefix_negated :
    let query : Select :=
      ⟨false, [.wildcard], none, [], some (.signed .minus (.column ⟨none, "this"⟩)), [], none, [], none⟩
    let metadata := Metadata.ofSettings Settings.default
    let context : Context := ⟨.null, none, [], Settings.default, .still 0⟩
    let world := World.start (.single (.ofValues [.int64 1, .boolean true, .int64 2]) false)
    ∃ failing skipping, Select.compile (metadata.withPolicy .fail) query = .ok failing ∧
      Select.compile (metadata.withPolicy .skip) query = .ok skipping ∧
      let failed := Stream.run none (failing.rows false (context.withPolicy .fail)) world
      let skipped := Stream.run none (skipping.rows false (context.withPolicy .skip)) world
      failed.successes <+: skipped.successes ∧
        failed.successes.length = 1 ∧ skipped.successes.length = 2 := by
  intro query metadata context world
  refine ⟨_, _, rfl, rfl, ?_, ?_, ?_⟩
  · rcases rows_under_fail_prefix metadata query rfl with ⟨skipping, compiles, agree⟩
    cases compiles
    exact (agree false context none world).1
  · decide +kernel
  · decide +kernel

end StreamQuery
