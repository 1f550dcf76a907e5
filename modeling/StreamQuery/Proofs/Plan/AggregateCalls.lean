import Mathlib.Data.List.Induction
import Mathlib.Data.List.Nodup
import StreamQuery.Plan.Compile
import StreamQuery.Proofs.Results
import StreamQuery.Proofs.Syntax.Definite
namespace StreamQuery

/-! The aggregate calls that a set is made of are those that stand in the expressions, each once if
calls that are taken for equal are equal. -/

namespace Expr

/-- The parts that an expression is made of. A select inside of it is a statement of its own. -/
def parts : Expr → List Expr
  | .literal _ | .column _ | .subselect _ => []
  | .call application => application.arguments
  | .binary _ left right => [left, right]
  | .signed _ operand | .cast operand _ => [operand]
  | .caseWhen subject branches otherwise =>
      subject.toList ++ branches.flatMap (fun (condition, result) => [condition, result])
        ++ otherwise.toList
  | .parenthesis inner | .not inner => [inner]
  | .isNull subject _ | .isBoolean subject _ _ => [subject]
  | .between subject low high _ => [subject, low, high]
  | .inList subject members _ => subject :: members

def isAggregate (metadata : Metadata) : Expr → Bool
  | .call application => (metadata.aggregateFeature? application.name).isSome
  | _ => false

/-- The aggregate call stands in the expression, but not in a select inside of it, nor in an
argument of another aggregate call. -/
inductive HasAggregate (metadata : Metadata) : Expr → Call → Prop
  | call : (Expr.call application).isAggregate metadata →
      HasAggregate metadata (.call application) application
  | part : expr.isAggregate metadata = false → part ∈ expr.parts →
      HasAggregate metadata part application → HasAggregate metadata expr application

variable {metadata : Metadata} {expr part : Expr}

theorem sizeOf_lt_of_mem_parts (member : part ∈ expr.parts) : sizeOf part < sizeOf expr := by
  cases expr with
  | call application =>
      rcases application with ⟨name, arguments, star, distinct⟩
      have less := List.sizeOf_lt_of_mem (show part ∈ arguments from member)
      simp only [Expr.call.sizeOf_spec, Call.mk.sizeOf_spec]
      omega
  | caseWhen subject branches otherwise =>
      simp only [parts, List.mem_append, Option.mem_toList, List.mem_flatMap, List.mem_cons,
        List.not_mem_nil, or_false] at member
      rcases member with (rfl | ⟨⟨condition, result⟩, among, chosen⟩) | rfl
      · simp only [Expr.caseWhen.sizeOf_spec, Option.some.sizeOf_spec]
        omega
      · have less := List.sizeOf_lt_of_mem among
        simp only [Prod.mk.sizeOf_spec] at less
        simp only [Expr.caseWhen.sizeOf_spec]
        rcases chosen with rfl | rfl <;> omega
      · simp only [Expr.caseWhen.sizeOf_spec, Option.some.sizeOf_spec]
        omega
  | inList subject members negated =>
      simp only [Expr.inList.sizeOf_spec]
      rcases List.mem_cons.mp member with rfl | member
      · omega
      · have less := List.sizeOf_lt_of_mem member
        omega
  | between subject low high negated =>
      simp only [parts, List.mem_cons, List.not_mem_nil, or_false] at member
      simp only [Expr.between.sizeOf_spec]
      rcases member with rfl | rfl | rfl <;> omega
  | binary operator left right =>
      simp only [parts, List.mem_cons, List.not_mem_nil, or_false] at member
      simp only [Expr.binary.sizeOf_spec]
      rcases member with rfl | rfl <;> omega
  | literal | column | subselect => cases member
  | signed | cast | parenthesis | not | isNull | isBoolean =>
      rw [List.mem_singleton.mp member]
      simp +arith

theorem aggregatesOfAll_eq (metadata : Metadata) (exprs : List Expr) :
    aggregatesOfAll metadata exprs = exprs.flatMap (aggregates metadata) := by
  induction exprs with
  | nil => rfl
  | cons head rest induction => simp [aggregatesOfAll, induction]

theorem aggregatesOfOption_eq (metadata : Metadata) (expr : Option Expr) :
    aggregatesOfOption metadata expr = expr.toList.flatMap (aggregates metadata) := by
  cases expr <;> simp [aggregatesOfOption]

theorem aggregatesOfBranches_eq (metadata : Metadata) (branches : List (Expr × Expr)) :
    aggregatesOfBranches metadata branches =
      (branches.flatMap fun (condition, result) => [condition, result]).flatMap
        (aggregates metadata) := by
  induction branches with
  | nil => rfl
  | cons branch rest induction => simp [aggregatesOfBranches, induction]

theorem aggregates_of_some {application : Call}
    (known : metadata.aggregateFeature? application.name = some feature) :
    (Expr.call application).aggregates metadata =
      [⟨application, Thunk.mk fun _ =>
        feature.compile application (compileAll metadata application.arguments)⟩] := by
  rcases application with ⟨name, arguments, star, distinct⟩
  dsimp only at known
  simp only [aggregates, known]

theorem aggregates_of_other (other : expr.isAggregate metadata = false) :
    expr.aggregates metadata = expr.parts.flatMap (aggregates metadata) := by
  cases expr with
  | call application =>
      rcases application with ⟨name, arguments, star, distinct⟩
      have unknown : metadata.aggregateFeature? name = none := by
        simpa [isAggregate] using other
      simp only [aggregates, unknown, aggregatesOfAll_eq, parts]
  | _ => simp [aggregates, parts, aggregatesOfAll_eq, aggregatesOfOption_eq, aggregatesOfBranches_eq]

end Expr

def AggregateCall.Compiles (metadata : Metadata) (found : AggregateCall) : Prop :=
  ∃ feature, metadata.aggregateFeature? found.call.name = some feature ∧
    found.spec.get = feature.compile found.call (Expr.compileAll metadata found.call.arguments)

namespace Expr

variable {metadata : Metadata}

theorem aggregates_of_aggregate {application : Call}
    (aggregate : (Expr.call application).isAggregate metadata) :
    ∃ found, (Expr.call application).aggregates metadata = [found] ∧ found.call = application ∧
      found.Compiles metadata := by
  rcases Option.isSome_iff_exists.mp aggregate with ⟨feature, known⟩
  exact ⟨_, aggregates_of_some known, rfl, feature, known, rfl⟩

theorem compiles_of_mem (expr : Expr) {found : AggregateCall}
    (member : found ∈ expr.aggregates metadata) :
    found.Compiles metadata ∧ expr.HasAggregate metadata found.call := by
  cases aggregate : expr.isAggregate metadata with
  | false =>
      rw [aggregates_of_other aggregate, List.mem_flatMap] at member
      rcases member with ⟨part, among, member⟩
      rcases compiles_of_mem part member with ⟨compiles, has⟩
      exact ⟨compiles, .part aggregate among has⟩
  | true =>
      cases expr with
      | call application =>
          rcases aggregates_of_aggregate aggregate with ⟨only, same, rfl, compiles⟩
          rw [same, List.mem_singleton] at member
          subst member
          exact ⟨compiles, .call aggregate⟩
      | _ => cases aggregate
termination_by sizeOf expr
decreasing_by exact sizeOf_lt_of_mem_parts among

theorem HasAggregate.exists_mem {expr : Expr} (has : expr.HasAggregate metadata application) :
    ∃ found ∈ expr.aggregates metadata, found.call = application := by
  induction has with
  | call aggregate =>
      rcases aggregates_of_aggregate aggregate with ⟨only, same, is, _⟩
      exact ⟨only, same ▸ List.mem_singleton_self only, is⟩
  | part other among _ induction =>
      rcases induction with ⟨found, member, same⟩
      exact ⟨found, aggregates_of_other other ▸ List.mem_flatMap_of_mem among member, same⟩

end Expr

/-! Where all literals of an expression are definite, so are those of its calls. -/

namespace Expr

theorem allDefinite_iff (exprs : List Expr) : allDefinite exprs ↔ ∀ expr ∈ exprs, expr.isDefinite := by
  induction exprs with
  | nil => simp [allDefinite]
  | cons head rest induction => simp [allDefinite, induction]

theorem optionDefinite_iff (expr : Option Expr) :
    optionDefinite expr ↔ ∀ part ∈ expr.toList, part.isDefinite := by
  cases expr <;> simp [optionDefinite]

theorem branchesDefinite_iff (branches : List (Expr × Expr)) : branchesDefinite branches ↔
    ∀ part ∈ branches.flatMap fun (condition, result) => [condition, result], part.isDefinite := by
  induction branches with
  | nil => simp [branchesDefinite]
  | cons branch rest induction => simp [branchesDefinite, induction, or_imp, forall_and, and_assoc]

theorem isDefinite_of_mem_parts {expr part : Expr} (definite : expr.isDefinite)
    (member : part ∈ expr.parts) : part.isDefinite := by
  suffices all : ∀ part ∈ expr.parts, part.isDefinite from all part member
  cases expr with
  | call application =>
      rcases application with ⟨name, arguments, star, distinct⟩
      exact (allDefinite_iff arguments).mp definite
  | caseWhen subject branches otherwise =>
      simp only [isDefinite, Bool.and_eq_true, optionDefinite_iff, branchesDefinite_iff] at definite
      exact List.forall_mem_append.mpr
        ⟨List.forall_mem_append.mpr ⟨definite.1.1, definite.1.2⟩, definite.2⟩
  | inList subject members negated =>
      simp only [isDefinite, Bool.and_eq_true, allDefinite_iff] at definite
      exact List.forall_mem_cons.mpr definite
  | _ => simp_all [parts, isDefinite]

theorem HasAggregate.isDefinite {metadata : Metadata} {expr : Expr}
    (has : expr.HasAggregate metadata application) (definite : expr.isDefinite) :
    application.isDefinite := by
  induction has with
  | call => exact definite
  | part _ among _ induction => exact induction (isDefinite_of_mem_parts definite among)

end Expr

/-! Of the calls that are found, those that are taken for an earlier one are left out. -/

namespace AggregateSet

/-- Where calls that are taken for equal are equal, every call is kept once. -/
structure KeepsOnce (calls kept : List AggregateCall) : Prop where
  nodup : (kept.map (·.call)).Nodup
  subset : kept ⊆ calls
  covers : ∀ next ∈ calls, next.call ∈ kept.map (·.call)

theorem KeepsOnce.addCall {calls kept : List AggregateCall} {next : AggregateCall}
    (keeps : KeepsOnce calls kept)
    (definite : ∀ earlier ∈ calls ++ [next], earlier.call.isDefinite) :
    KeepsOnce (calls ++ [next]) (addCall kept next) := by
  have same {earlier : AggregateCall} (among : earlier ∈ kept) :
      earlier.call.equals next.call ↔ earlier.call = next.call :=
    Call.equals_iff _ _ (definite _ (List.mem_append_left _ (keeps.subset among)))
      (definite _ (List.mem_append_right _ (List.mem_singleton_self next)))
  simp only [AggregateSet.addCall]
  split
  · next known =>
      rcases List.any_eq_true.mp known with ⟨earlier, among, equal⟩
      refine ⟨keeps.nodup, fun _ member => List.mem_append_left _ (keeps.subset member), ?_⟩
      refine List.forall_mem_append.mpr ⟨keeps.covers, List.forall_mem_singleton.mpr ?_⟩
      exact List.mem_map.mpr ⟨earlier, among, (same among).mp equal⟩
  · next new =>
      constructor
      · rw [List.map_append, List.nodup_append]
        refine ⟨keeps.nodup, List.nodup_singleton _, ?_⟩
        simp only [List.map_cons, List.map_nil, List.mem_singleton]
        rintro call member _ rfl rfl
        rcases List.mem_map.mp member with ⟨earlier, among, equal⟩
        exact new (List.any_eq_true.mpr ⟨earlier, among, (same among).mpr equal⟩)
      · exact List.append_subset.mpr ⟨fun _ member => List.mem_append_left _ (keeps.subset member),
          List.subset_append_right _ _⟩
      · rw [List.map_append]
        refine List.forall_mem_append.mpr ⟨?_, List.forall_mem_singleton.mpr ?_⟩
        · exact fun earlier member => List.mem_append_left _ (keeps.covers earlier member)
        · exact List.mem_append_right _ (List.mem_singleton_self _)

theorem keepsOnce_foldl {calls : List AggregateCall}
    (definite : ∀ next ∈ calls, next.call.isDefinite) :
    KeepsOnce calls (calls.foldl AggregateSet.addCall []) := by
  induction calls using List.reverseRecOn with
  | nil => exact ⟨List.nodup_nil, List.Subset.refl _, fun _ member => nomatch member⟩
  | append_singleton calls next induction =>
      rw [List.foldl_append]
      exact (induction fun earlier member =>
        definite earlier (List.mem_append_left _ member)).addCall definite

end AggregateSet

end StreamQuery
