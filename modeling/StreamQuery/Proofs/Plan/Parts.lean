import StreamQuery.Proofs.Plan.AggregateCalls
import StreamQuery.Proofs.Plan.Nodes
namespace StreamQuery

/-! Properties of an expression that hold because they hold of its root and of all parts down to the
leaves, as long as there is no select inside. -/

namespace Expr

/-- The property holds of the expression and of its parts, of their parts, and so on. -/
inductive All (holds : Expr → Prop) : Expr → Prop
  | intro : holds expr → (∀ part ∈ expr.parts, All holds part) → All holds expr

theorem All.imp {holds weaker : Expr → Prop} {expr : Expr} (all : expr.All holds)
    (imp : ∀ part, holds part → weaker part) : expr.All weaker := by
  induction all with
  | intro root _ induction => exact .intro (imp _ root) induction

variable {metadata : Metadata}

theorem compileAll_eq (metadata : Metadata) (exprs : List Expr) :
    compileAll metadata exprs = exprs.map (compile metadata) := by
  induction exprs with
  | nil => rfl
  | cons head rest induction => exact congrArg (_ :: ·) induction

theorem compileOption_eq (metadata : Metadata) (expr : Option Expr) :
    compileOption metadata expr = expr.map (compile metadata) := by
  cases expr <;> rfl

theorem compileBranches_eq (metadata : Metadata) (branches : List (Expr × Expr)) :
    compileBranches metadata branches =
      branches.map fun branch => (branch.1.compile metadata, branch.2.compile metadata) := by
  induction branches with
  | nil => rfl
  | cons branch rest induction => exact congrArg (_ :: ·) induction

theorem forall_mem_caseWhen {subject otherwise : Option Expr} {branches : List (Expr × Expr)}
    {holds : Expr → Prop}
    (parts : ∀ part ∈ (caseWhen subject branches otherwise).parts, holds part) :
    (∀ part ∈ subject, holds part) ∧ (∀ branch ∈ branches, holds branch.1 ∧ holds branch.2) ∧
      ∀ part ∈ otherwise, holds part := by
  simp only [Expr.parts, List.mem_append, Option.mem_toList, List.mem_flatMap, List.mem_cons,
    List.not_mem_nil, or_false] at parts
  refine ⟨fun part member => parts part (.inl (.inl member)), fun branch member => ?_,
    fun part member => parts part (.inr member)⟩
  exact ⟨parts _ (.inl (.inr ⟨branch, member, .inl rfl⟩)),
    parts _ (.inl (.inr ⟨branch, member, .inr rfl⟩))⟩

/-- The expression by itself keeps the likeness: it is a column that does, or has only parts. -/
def Keeps (relation : Likeness) : Expr → Prop
  | .column reference => (Mapper.column reference).Respects relation
  | .subselect _ => False
  | _ => True

theorem Keeps.node_respects {relation : Likeness} {expr : Expr} (keeps : expr.Keeps relation)
    (parts : ∀ part ∈ expr.parts, (part.compile metadata).Respects relation) :
    (expr.node metadata).Respects relation := by
  cases expr with
  | literal value => trivial
  | column reference => exact keeps
  | call application =>
      rcases application with ⟨name, arguments, star, distinct⟩
      simp only [node, compileAll_eq]
      exact List.forall_mem_map.mpr parts
  | binary operator left right =>
      exact ⟨parts left (by simp [Expr.parts]), parts right (by simp [Expr.parts])⟩
  | caseWhen subject branches otherwise =>
      have each := forall_mem_caseWhen parts
      have optional {chosen : Option Expr}
          (each : ∀ part ∈ chosen, (part.compile metadata).Respects relation) :
          ∀ compiled ∈ chosen.map (compile metadata), compiled.Respects relation := by
        intro compiled member
        rcases Option.map_eq_some_iff.mp member with ⟨part, among, rfl⟩
        exact each part among
      simp only [node, compileOption_eq, compileBranches_eq]
      exact ⟨optional each.1, List.forall_mem_map.mpr each.2.1, optional each.2.2⟩
  | subselect query => exact keeps.elim
  | signed _ operand | cast operand _ | parenthesis operand | not operand | isNull operand _
  | isBoolean operand _ _ => exact parts operand (List.mem_singleton_self operand)
  | between subject low high negated =>
      exact ⟨parts subject (by simp [Expr.parts]), parts low (by simp [Expr.parts]),
        parts high (by simp [Expr.parts])⟩
  | inList subject members negated =>
      have each := List.forall_mem_cons.mp parts
      simp only [node, compileAll_eq]
      exact ⟨each.1, List.forall_mem_map.mpr each.2⟩

theorem All.compile_respects {relation : Likeness} (known : metadata.Respects relation)
    {expr : Expr} (all : expr.All (Keeps relation)) :
    (expr.compile metadata).Respects relation := by
  induction all with
  | intro keeps _ induction => exact Node.compile_respects known (keeps.node_respects induction)

end Expr

/-! Metadata that agree on the names that an expression looks up. -/

def Node.function? : Node → Option String
  | .column _ => some "property"
  | .call application _ => some application.name
  | .binary (.named symbol) _ _ => some symbol
  | .cast _ _ => some "cast"
  | .caseWhen _ _ _ => some "case-when"
  | .subselect _ _ => some "select"
  | _ => none

structure Metadata.DiffersInFunctions (metadata other : Metadata) : Prop where
  tests : ∀ name, other.filterFeature? name = metadata.filterFeature? name
  casts : ∀ target, other.castFeature? target = metadata.castFeature? target
  settings : other.settings = metadata.settings
  zones : other.zones = metadata.zones

namespace Metadata.DiffersInFunctions

variable {metadata other : Metadata} (differs : metadata.DiffersInFunctions other) {expr : Expr}
  {node : Node}

include differs

theorem compile_eq (feature : ValueFeature) :
    feature.compile other expr node = feature.compile metadata expr node := by
  cases feature with
  | cast =>
      cases node with
      | cast operand target =>
          simp only [ValueFeature.compile, ValueFeature.compileCast, differs.casts target]
      | _ => rfl
  | now | formatDate =>
      simp only [ValueFeature.compile, ValueFeature.compileNow, ValueFeature.compileFormatDate,
        differs.settings, differs.zones]
  | _ => rfl

theorem byFunction?_eq {name : String}
    (same : other.valueFeature? name = metadata.valueFeature? name) :
    node.byFunction? other name expr = node.byFunction? metadata name expr := by
  simp only [Node.byFunction?, same, differs.compile_eq]

theorem byTest?_eq (name : String) :
    node.byTest? other name expr = node.byTest? metadata name expr := by
  simp only [Node.byTest?, differs.tests name]

theorem condition?_eq : node.condition? other expr = node.condition? metadata expr := by
  simp only [Node.condition?, Node.requiredPredicate, differs.byTest?_eq]

theorem value_eq
    (same : ∀ name ∈ node.function?, other.valueFeature? name = metadata.valueFeature? name) :
    node.value other expr = node.value metadata expr := by
  have required (name : String) (among : name ∈ node.function?) :
      node.requiredValue other name expr = node.requiredValue metadata name expr := by
    simp only [Node.requiredValue, differs.byFunction?_eq (same name among)]
  have named (category : FeatureCategory) (name : String) (among : name ∈ node.function?) :
      node.namedValue other category name expr = node.namedValue metadata category name expr := by
    simp only [Node.namedValue, differs.byFunction?_eq (same name among), differs.byTest?_eq]
  cases node with
  | literal | signed | parenthesis => rfl
  | column | cast | caseWhen | subselect => exact required _ rfl
  | call application arguments => exact named .valueMap application.name rfl
  | binary operator left right =>
      cases operator with
      | named symbol => exact named .filter symbol rfl
      | and | or => rfl
  | not | isNull | isBoolean | between | inList => simp only [Node.value, differs.condition?_eq]

theorem predicate_eq
    (same : ∀ name ∈ node.function?, other.valueFeature? name = metadata.valueFeature? name) :
    node.predicate other expr = node.predicate metadata expr := by
  have named (category : FeatureCategory) (name : String) (among : name ∈ node.function?) :
      node.namedPredicate other category name expr =
        node.namedPredicate metadata category name expr := by
    simp only [Node.namedPredicate, differs.byFunction?_eq (same name among), differs.byTest?_eq]
  have value : node.value other expr = node.value metadata expr := differs.value_eq same
  cases node with
  | parenthesis => rfl
  | call application arguments => exact named .valueMap application.name rfl
  | binary operator left right =>
      cases operator with
      | named symbol => exact named .filter symbol rfl
      | and | or => rfl
  | literal | column | signed | cast | caseWhen | subselect | not | isNull | isBoolean | between
  | inList => simp only [Node.predicate, differs.condition?_eq, value]

theorem compile_node_eq
    (same : ∀ name ∈ node.function?, other.valueFeature? name = metadata.valueFeature? name) :
    node.compile other expr = node.compile metadata expr := by
  simp only [Node.compile, differs.value_eq same, differs.predicate_eq same]

end Metadata.DiffersInFunctions

namespace Expr

variable {metadata other : Metadata} {expr : Expr}

/-- The expression by itself is no select, and looks up the same function. -/
def Agrees (metadata other : Metadata) (expr : Expr) : Prop :=
  (∀ query, expr ≠ .subselect query) ∧
    ∀ name ∈ (expr.node metadata).function?, other.valueFeature? name = metadata.valueFeature? name

theorem Agrees.node_eq (agrees : expr.Agrees metadata other)
    (parts : ∀ part ∈ expr.parts, part.compile other = part.compile metadata) :
    expr.node other = expr.node metadata := by
  cases expr with
  | literal | column => rfl
  | call application =>
      rcases application with ⟨name, arguments, star, distinct⟩
      have same : arguments.map (compile other) = arguments.map (compile metadata) :=
        List.map_congr_left parts
      simp only [node, compileAll_eq, same]
  | binary operator left right =>
      have first := parts left (by simp [Expr.parts])
      have second := parts right (by simp [Expr.parts])
      simp only [compile] at first second
      simp only [node, first, second]
  | caseWhen subject branches otherwise =>
      have each := forall_mem_caseWhen parts
      have pairs : branches.map (fun branch => (branch.1.compile other, branch.2.compile other)) =
          branches.map fun branch => (branch.1.compile metadata, branch.2.compile metadata) :=
        List.map_congr_left fun branch member =>
          Prod.ext (each.2.1 branch member).1 (each.2.1 branch member).2
      simp only [node, compileOption_eq, compileBranches_eq, pairs,
        Option.map_congr each.1, Option.map_congr each.2.2]
  | subselect query => exact absurd rfl (agrees.1 query)
  | signed _ operand | cast operand _ | parenthesis operand | not operand | isNull operand _
  | isBoolean operand _ _ =>
      have only := parts operand (List.mem_singleton_self operand)
      simp only [compile] at only
      simp only [node, only]
  | between subject low high negated =>
      have each := parts
      simp only [Expr.parts, List.mem_cons, List.not_mem_nil, or_false, forall_eq_or_imp, forall_eq,
        compile] at each
      simp only [node, each.1, each.2.1, each.2.2]
  | inList subject members negated =>
      have each := List.forall_mem_cons.mp parts
      have first := each.1
      simp only [compile] at first
      simp only [node, compileAll_eq, first, List.map_congr_left each.2]

theorem All.compile_eq (differs : metadata.DiffersInFunctions other)
    (all : expr.All (Agrees metadata other)) : expr.compile other = expr.compile metadata := by
  induction all with
  | intro agrees _ induction =>
      simp only [compile, agrees.node_eq induction]
      exact differs.compile_node_eq agrees.2

end Expr

end StreamQuery
