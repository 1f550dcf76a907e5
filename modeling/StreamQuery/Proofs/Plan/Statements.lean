import StreamQuery.Proofs.Plan.Clauses
import StreamQuery.Proofs.Plan.Nodes
import StreamQuery.Proofs.Plan.Pipelines
namespace StreamQuery

/-! Every statement that compiles comes to a plan that respects a correspondence, with all
statements inside of it. -/

variable {relation : Correspondence} {grouped : Bool} {metadata : Metadata}

theorem AggregateSet.nested_install (set : AggregateSet) (metadata : Metadata) :
    (set.install metadata).nested = metadata.nested := by
  rw [install]
  generalize Feature.valueMap (.slots set.calls) = slots
  induction set.calls generalizing metadata with
  | nil => rfl
  | cons call calls induction => exact induction _

/-- Slots are found only in what is asked about groups, unless both sides share the aggregates. The
statements inside do not find those that are installed for the statement around them. -/
structure Metadata.Suits (relation : Correspondence) (grouped : Bool) (metadata : Metadata) :
    Prop where
  here : metadata.Respects (relation.likeness grouped)
  inside : metadata.nested.Respects relation

namespace Metadata.Suits

theorem of_sharing (shares : relation.sharing) : metadata.Suits relation grouped where
  here _ _ _ := relation.sharesAggregates_of_sharing shares grouped
  inside _ _ _ := relation.sharesAggregates_of_sharing shares false

theorem nested (suits : metadata.Suits relation grouped) :
    metadata.nested.Suits relation false :=
  ⟨suits.inside, suits.inside⟩

theorem install (suits : metadata.Suits relation false) (set : AggregateSet) :
    (set.install metadata).Suits relation true where
  here _ _ _ := relation.sharesAggregates_of_grouped
  inside := set.nested_install metadata ▸ suits.inside

variable {expr : Expr} {node : Node}

theorem value_respects (suits : metadata.Suits relation grouped)
    (respects : node.Respects (relation.likeness grouped)) :
    Ensures (node.value metadata expr) (Mapper.Respects (relation.likeness grouped)) :=
  Node.value_respects suits.here respects

theorem compile_respects (suits : metadata.Suits relation grouped)
    (respects : node.Respects (relation.likeness grouped)) :
    (node.compile metadata expr).Respects (relation.likeness grouped) :=
  Node.compile_respects suits.here respects

end Metadata.Suits

namespace AggregateFeature

theorem argument_respects {arguments : List Compiled} (call : Call)
    (respects : ∀ part ∈ arguments, part.Respects relation) :
    Ensures (argument call arguments) (Compiled.Respects relation) := by
  simp only [argument]
  split
  · split
    · exact ensures_error _
    · exact ensures_ok (List.forall_mem_singleton.mp respects)
  · exact ensures_error _

theorem unary_respects {mapper : Mapper} (respects : mapper.Respects relation)
    (aggregation : Aggregation) : AggregateSpec.Respects relation ⟨some mapper, aggregation⟩ := by
  intro argument same
  cases same
  exact respects

theorem rows_respects : AggregateSpec.Respects relation ⟨none, .countRows⟩ :=
  fun _ none => nomatch none

theorem compile_respects {arguments : List Compiled} (call : Call)
    (respects : ∀ part ∈ arguments, part.Respects relation) (feature : AggregateFeature) :
    Ensures (feature.compile call arguments) (AggregateSpec.Respects relation) := by
  have argument := argument_respects call respects
  have unary (aggregation : Aggregation) {part : Compiled} (partRespects : part.Respects relation) :
      Ensures (do .ok (⟨some (← part.value.get), aggregation⟩ : AggregateSpec))
        (AggregateSpec.Respects relation) :=
    partRespects.value.bind fun _ mapper => ensures_ok (unary_respects mapper aggregation)
  cases feature with
  | count =>
      simp only [compile, compileCount]
      split
      · exact ensures_ok rows_respects
      · refine argument.bind ?_
        intro part partRespects
        split
        · exact unary _ partRespects
        · split
          · exact ensures_ok rows_respects
          · exact unary _ partRespects
  | single name aggregation =>
      simp only [compile]
      split
      · exact ensures_error _
      · exact argument.bind fun _ => unary aggregation

end AggregateFeature

def AggregateCall.Respects (relation : Correspondence) (call : AggregateCall) : Prop :=
  Ensures call.spec.get (AggregateSpec.Respects relation)

namespace AggregateSet

theorem mem_of_mem_foldl_addCall {calls found : List AggregateCall} {call : AggregateCall}
    (member : call ∈ calls.foldl addCall found) : call ∈ found ∨ call ∈ calls := by
  induction calls generalizing found with
  | nil => exact .inl member
  | cons next calls induction =>
      rcases induction member with among | later
      · simp only [addCall] at among
        split at among
        · exact .inl among
        · rcases List.mem_append.mp among with before | equal
          · exact .inl before
          · exact .inr (List.mem_cons.mpr (.inl (List.mem_singleton.mp equal)))
      · exact .inr (List.mem_cons_of_mem next later)

theorem ofCalls_respects {calls : List AggregateCall}
    (respects : ∀ call ∈ calls, call.Respects relation) :
    Ensures (ofCalls calls) fun set => ∀ spec ∈ set.specs, spec.Respects relation := by
  have found : ∀ call ∈ calls.foldl addCall [], call.Respects relation := by
    intro call member
    rcases mem_of_mem_foldl_addCall member with nothing | member
    · cases nothing
    · exact respects call member
  exact (ensures_mapM found).bind fun _ specs => ensures_ok specs

end AggregateSet

namespace GroupFeature

theorem compile_respects {arguments : List Compiled} (call : Call)
    (respects : ∀ part ∈ arguments, part.Respects relation) (feature : GroupFeature) :
    Ensures (feature.compile call arguments) (Window.Respects relation) := by
  have tumbling (argument : Expr) :
      Ensures (Window.tumbling call argument) (Window.Respects relation) :=
    (ensures_true _).map fun _ _ => trivial
  cases feature with
  | interval =>
      show Ensures (compileInterval call) _
      simp only [compileInterval]
      split
      · exact tumbling _
      · exact ensures_error _
  | window =>
      show Ensures (compileWindow call arguments) _
      simp only [compileWindow]
      split
      · exact (ensures_true _).map fun _ _ => trivial
      · exact tumbling _
      · exact (List.forall_mem_singleton.mp respects).predicate.map fun _ holds => holds
      · exact (ensures_true _).bind fun _ _ => (ensures_true _).bind fun _ _ => ensures_ok trivial
      · exact (ensures_true _).bind fun _ _ => (ensures_true _).bind fun _ _ => ensures_ok trivial
      · exact ensures_error _

end GroupFeature

structure GroupClause.Respects (relation : Correspondence) (clause : GroupClause) : Prop where
  keys : ∀ key ∈ clause.keys, key.Respects relation
  window : ∀ window ∈ clause.window, window.Respects relation

namespace GroupClause

theorem window?_respects {node : Node} (respects : node.Respects relation) :
    ∀ result ∈ window? metadata node, Ensures result (Window.Respects relation) := by
  intro result found
  simp only [window?] at found
  split at found
  · rcases Option.map_eq_some_iff.mp found with ⟨feature, _, rfl⟩
    exact feature.compile_respects _ respects
  · cases found

theorem add_respects (suits : metadata.Suits relation false) {clause : GroupClause} {node : Node}
    (clauseRespects : clause.Respects relation) (respects : node.Respects relation) (expr : Expr) :
    Ensures (clause.add metadata expr node) (GroupClause.Respects relation) := by
  simp only [add]
  split
  · next found =>
      split
      · exact ensures_error _
      · refine (window?_respects respects _ found).map fun window holds => ?_
        exact ⟨clauseRespects.keys, fun _ same => Option.some.inj same ▸ holds⟩
  · refine (suits.value_respects respects).map fun key holds => ⟨?_,
      clauseRespects.window⟩
    intro mapper member
    rcases List.mem_append.mp member with before | equal
    · exact clauseRespects.keys mapper before
    · rw [List.mem_singleton.mp equal]
      exact holds

theorem compile_respects (suits : metadata.Suits relation false) {parts : List (Expr × Node)}
    (respects : ∀ part ∈ parts, part.2.Respects relation) :
    Ensures (compile metadata parts) (GroupClause.Respects relation) :=
  ensures_foldlM
    (fun part member _ clauseRespects =>
      add_respects suits clauseRespects (respects part member) part.1)
    ⟨fun _ member => (nomatch member), fun _ none => (nomatch none)⟩

end GroupClause

theorem ensures_predicate {relation : Likeness} {part : Option Compiled}
    (respects : ∀ compiled ∈ part, compiled.Respects relation) :
    Ensures (part.mapM fun part => part.predicate.get) fun condition =>
      ∀ predicate ∈ condition, predicate.Respects relation := by
  cases part with
  | none => exact ensures_ok fun _ none => nomatch none
  | some part =>
      exact (respects part rfl).predicate.bind fun predicate holds =>
        ensures_ok fun _ same => Option.some.inj same ▸ holds

theorem Select.clauses_respects_of {query : Select} (suits : metadata.Suits relation false)
    (calls : ∀ call ∈ SelectItem.aggregates metadata query.items ++
      Expr.aggregatesOfOption metadata query.having ++
      SortClause.aggregates metadata query.orderBy, call.Respects relation)
    (nodes : ∀ part ∈ Expr.nodes metadata query.groupBy, part.2.Respects relation)
    (columns : ∀ ⦃grouped shaping⦄, shaping.Suits relation grouped →
      Ensures (SelectItem.columns shaping query.items) fun columns =>
        ∀ column ∈ columns, column.Respects (relation.likeness grouped))
    (having : ∀ ⦃grouped shaping⦄, shaping.Suits relation grouped →
      ∀ part ∈ Expr.compileOption shaping query.having, part.Respects (relation.likeness grouped))
    (orderKeys : ∀ ⦃grouped shaping⦄, shaping.Suits relation grouped →
      Ensures (SortClause.keys shaping query.orderBy) fun keys =>
        ∀ key ∈ keys, key.Respects (relation.likeness grouped)) :
    Ensures (query.clauses metadata) (Pipeline.Respects relation) := by
  refine (AggregateSet.ofCalls_respects calls).bind fun aggregates specs => ?_
  dsimp only
  generalize (!query.groupBy.isEmpty || query.having.isSome || !aggregates.isEmpty) = grouped
  have shaping : (if grouped then aggregates.install metadata else metadata).Suits relation
      grouped := by
    cases grouped with
    | false => exact suits
    | true => exact suits.install aggregates
  refine (GroupClause.compile_respects suits nodes).bind fun clause clauseRespects => ?_
  refine (columns shaping).bind fun _ columns => ?_
  refine (ensures_predicate (having shaping)).bind fun _ having => ?_
  refine (orderKeys shaping).bind fun _ orderKeys => ?_
  cases grouped with
  | false => exact ensures_ok ⟨trivial, nofun, nofun, columns, having, orderKeys⟩
  | true =>
    refine ensures_ok ⟨trivial, nofun, fun grouping same => ?_, columns, having, orderKeys⟩
    cases same
    exact ⟨clauseRespects.keys, clauseRespects.window, specs⟩

/-! The induction is on the statement, as the compilation is. -/

mutual
theorem Expr.node_respects {grouped : Bool} {metadata : Metadata}
    (suits : metadata.Suits relation grouped) :
    (expr : Expr) → (expr.node metadata).Respects (relation.likeness grouped)
  | .literal _ => trivial
  | .column reference => relation.column_respects grouped reference
  | .call ⟨_, arguments, _, _⟩ => Expr.compileAll_respects suits arguments
  | .binary _ left right =>
      ⟨suits.compile_respects (left.node_respects suits),
        suits.compile_respects (right.node_respects suits)⟩
  | .signed _ operand | .cast operand _ =>
      suits.compile_respects (operand.node_respects suits)
  | .caseWhen subject branches otherwise =>
      ⟨Expr.compileOption_respects suits subject,
        Expr.compileBranches_respects suits branches,
        Expr.compileOption_respects suits otherwise⟩
  | .parenthesis inner | .not inner => suits.compile_respects (inner.node_respects suits)
  | .subselect query =>
      (Select.compile_respects suits.nested query).imp fun _ plan => plan.firstValue query grouped
  | .isNull subject _ | .isBoolean subject _ _ =>
      suits.compile_respects (subject.node_respects suits)
  | .between subject low high _ =>
      ⟨suits.compile_respects (subject.node_respects suits),
        suits.compile_respects (low.node_respects suits),
        suits.compile_respects (high.node_respects suits)⟩
  | .inList subject members _ =>
      ⟨suits.compile_respects (subject.node_respects suits),
        Expr.compileAll_respects suits members⟩

theorem Expr.compileAll_respects {grouped : Bool} {metadata : Metadata}
    (suits : metadata.Suits relation grouped) :
    (exprs : List Expr) → ∀ part ∈ Expr.compileAll metadata exprs,
      part.Respects (relation.likeness grouped)
  | [] => fun _ member => nomatch member
  | head :: rest =>
      List.forall_mem_cons.mpr ⟨suits.compile_respects (head.node_respects suits),
        Expr.compileAll_respects suits rest⟩

theorem Expr.compileOption_respects {grouped : Bool} {metadata : Metadata}
    (suits : metadata.Suits relation grouped) :
    (expr : Option Expr) → ∀ part ∈ Expr.compileOption metadata expr,
      part.Respects (relation.likeness grouped)
  | none => fun _ member => nomatch member
  | some expr => fun _ same =>
      Option.some.inj same ▸ suits.compile_respects (expr.node_respects suits)

theorem Expr.compileBranches_respects {grouped : Bool} {metadata : Metadata}
    (suits : metadata.Suits relation grouped) :
    (branches : List (Expr × Expr)) → ∀ branch ∈ Expr.compileBranches metadata branches,
      branch.1.Respects (relation.likeness grouped) ∧ branch.2.Respects (relation.likeness grouped)
  | [] => fun _ member => nomatch member
  | (condition, result) :: rest =>
      List.forall_mem_cons.mpr ⟨⟨suits.compile_respects (condition.node_respects suits),
        suits.compile_respects (result.node_respects suits)⟩,
        Expr.compileBranches_respects suits rest⟩

theorem Expr.nodes_respects {metadata : Metadata} (suits : metadata.Suits relation false) :
    (exprs : List Expr) → ∀ part ∈ Expr.nodes metadata exprs, part.2.Respects relation
  | [] => fun _ member => nomatch member
  | head :: rest =>
      List.forall_mem_cons.mpr ⟨head.node_respects suits, Expr.nodes_respects suits rest⟩

theorem Expr.aggregates_respects {metadata : Metadata} (suits : metadata.Suits relation false) :
    (expr : Expr) → ∀ call ∈ expr.aggregates metadata, call.Respects relation
  | .literal _ | .column _ | .subselect _ => fun _ member => nomatch member
  | .call ⟨_, arguments, _, _⟩ => by
      have compiled := Expr.compileAll_respects suits arguments
      have nested := Expr.aggregatesOfAll_respects suits arguments
      simp only [Expr.aggregates]
      split
      · next feature _ =>
          exact List.forall_mem_singleton.mpr (feature.compile_respects _ compiled)
      · exact nested
  | .binary _ left right =>
      List.forall_mem_append.mpr ⟨left.aggregates_respects suits,
        right.aggregates_respects suits⟩
  | .signed _ operand | .cast operand _ => operand.aggregates_respects suits
  | .caseWhen subject branches otherwise =>
      List.forall_mem_append.mpr ⟨List.forall_mem_append.mpr
        ⟨Expr.aggregatesOfOption_respects suits subject,
          Expr.aggregatesOfBranches_respects suits branches⟩,
        Expr.aggregatesOfOption_respects suits otherwise⟩
  | .parenthesis inner | .not inner => inner.aggregates_respects suits
  | .isNull subject _ | .isBoolean subject _ _ => subject.aggregates_respects suits
  | .between subject low high _ =>
      List.forall_mem_append.mpr ⟨List.forall_mem_append.mpr
        ⟨subject.aggregates_respects suits, low.aggregates_respects suits⟩,
        high.aggregates_respects suits⟩
  | .inList subject members _ =>
      List.forall_mem_append.mpr ⟨subject.aggregates_respects suits,
        Expr.aggregatesOfAll_respects suits members⟩

theorem Expr.aggregatesOfAll_respects {metadata : Metadata}
    (suits : metadata.Suits relation false) :
    (exprs : List Expr) → ∀ call ∈ Expr.aggregatesOfAll metadata exprs, call.Respects relation
  | [] => fun _ member => nomatch member
  | head :: rest =>
      List.forall_mem_append.mpr ⟨head.aggregates_respects suits,
        Expr.aggregatesOfAll_respects suits rest⟩

theorem Expr.aggregatesOfOption_respects {metadata : Metadata}
    (suits : metadata.Suits relation false) :
    (expr : Option Expr) → ∀ call ∈ Expr.aggregatesOfOption metadata expr, call.Respects relation
  | none => fun _ member => nomatch member
  | some expr => expr.aggregates_respects suits

theorem Expr.aggregatesOfBranches_respects {metadata : Metadata}
    (suits : metadata.Suits relation false) :
    (branches : List (Expr × Expr)) →
      ∀ call ∈ Expr.aggregatesOfBranches metadata branches, call.Respects relation
  | [] => fun _ member => nomatch member
  | (condition, result) :: rest =>
      List.forall_mem_append.mpr ⟨List.forall_mem_append.mpr
        ⟨condition.aggregates_respects suits, result.aggregates_respects suits⟩,
        Expr.aggregatesOfBranches_respects suits rest⟩

theorem SelectItem.aggregates_respects {metadata : Metadata}
    (suits : metadata.Suits relation false) :
    (items : List SelectItem) →
      ∀ call ∈ SelectItem.aggregates metadata items, call.Respects relation
  | [] => fun _ member => nomatch member
  | .wildcard :: rest => SelectItem.aggregates_respects suits rest
  | .expression value _ :: rest =>
      List.forall_mem_append.mpr ⟨value.aggregates_respects suits,
        SelectItem.aggregates_respects suits rest⟩

theorem SelectItem.columns_respects {grouped : Bool} {metadata : Metadata}
    (suits : metadata.Suits relation grouped) :
    (items : List SelectItem) → Ensures (SelectItem.columns metadata items) fun columns =>
      ∀ column ∈ columns, column.Respects (relation.likeness grouped)
  | [] => ensures_ok fun _ member => nomatch member
  | .wildcard :: rest =>
      (SelectItem.columns_respects suits rest).bind fun _ others =>
        ensures_ok (List.forall_mem_cons.mpr ⟨trivial, others⟩)
  | .expression value _ :: rest =>
      (suits.value_respects (value.node_respects suits)).bind fun _ mapper =>
        (SelectItem.columns_respects suits rest).bind fun _ others =>
          ensures_ok (List.forall_mem_cons.mpr ⟨mapper, others⟩)

theorem SortClause.aggregates_respects {metadata : Metadata}
    (suits : metadata.Suits relation false) :
    (clauses : List SortClause) →
      ∀ call ∈ SortClause.aggregates metadata clauses, call.Respects relation
  | [] => fun _ member => nomatch member
  | ⟨key, _⟩ :: rest =>
      List.forall_mem_append.mpr ⟨key.aggregates_respects suits,
        SortClause.aggregates_respects suits rest⟩

theorem SortClause.keys_respects {grouped : Bool} {metadata : Metadata}
    (suits : metadata.Suits relation grouped) :
    (clauses : List SortClause) → Ensures (SortClause.keys metadata clauses) fun keys =>
      ∀ key ∈ keys, key.Respects (relation.likeness grouped)
  | [] => ensures_ok fun _ member => nomatch member
  | ⟨key, _⟩ :: rest =>
      (suits.value_respects (key.node_respects suits)).bind fun _ mapper =>
        (SortClause.keys_respects suits rest).bind fun _ others =>
          ensures_ok (List.forall_mem_cons.mpr ⟨mapper, others⟩)

theorem FromItem.compile_respects {metadata : Metadata}
    (suits : metadata.Suits relation false) (position : Nat) :
    (item : FromItem) → Ensures (item.compile metadata position) (Source.Respects relation)
  | .table _ _ => ensures_ok (Source.ofTable_respects _ _)
  | .query query _ =>
      (Select.compile_respects suits.nested query).bind fun _ plan =>
        ensures_ok (Source.ofPlan_respects plan _)

theorem JoinClause.compileAll_respects {metadata : Metadata}
    (suits : metadata.Suits relation false) (statement : Unit → String)
    (position : Nat) : (clauses : List JoinClause) →
      Ensures (JoinClause.compileAll metadata statement position clauses) fun steps =>
        ∀ step ∈ steps, step.Respects relation
  | [] => ensures_ok fun _ member => nomatch member
  | ⟨_, source, condition⟩ :: rest => by
      have sourceRespects := FromItem.compile_respects suits position source
      have parts := Expr.compileOption_respects suits condition
      have others := JoinClause.compileAll_respects suits statement (position + 1) rest
      simp only [JoinClause.compileAll]
      split
      · exact ensures_error _
      · refine sourceRespects.bind fun _ source => (ensures_predicate parts).bind
          fun _ condition => others.bind ?_
        intro _ steps
        exact ensures_ok (List.forall_mem_cons.mpr ⟨⟨source, condition⟩, steps⟩)

theorem FromItem.compileClause_respects {metadata : Metadata}
    (suits : metadata.Suits relation false)
    {joins : Unit → Except QueryError (List JoinStep)}
    (joinsRespect : Ensures (joins ()) fun steps => ∀ step ∈ steps, step.Respects relation) :
    (item : Option FromItem) →
      Ensures (FromItem.compileClause metadata joins item) (SourcePlan.Respects relation)
  | none => ensures_ok trivial
  | some item => by
      have sourceRespects := FromItem.compile_respects suits 0 item
      simp only [FromItem.compileClause]
      refine sourceRespects.bind fun _ first => joinsRespect.bind ?_
      intro steps respects
      split
      · exact ensures_ok first
      · exact ensures_ok ⟨first, respects⟩

theorem Select.compile_respects {metadata : Metadata} (suits : metadata.Suits relation false) :
    (query : Select) → Ensures (Select.compile metadata query) (Plan.Respects relation)
  | ⟨distinct, items, source, joins, filter, groupBy, having, orderBy, limit⟩ => by
      have steps (statement : Unit → String) :=
        JoinClause.compileAll_respects suits statement 1 joins
      have clauses :=
        @Select.clauses_respects_of relation metadata
          ⟨distinct, items, source, joins, filter, groupBy, having, orderBy, limit⟩ suits
          (List.forall_mem_append.mpr ⟨List.forall_mem_append.mpr
            ⟨SelectItem.aggregates_respects suits items,
              Expr.aggregatesOfOption_respects suits having⟩,
            SortClause.aggregates_respects suits orderBy⟩)
          (Expr.nodes_respects suits groupBy)
          (fun _ _ shaping => SelectItem.columns_respects shaping items)
          (fun _ _ shaping => Expr.compileOption_respects shaping having)
          (fun _ _ shaping => SortClause.keys_respects shaping orderBy)
      rw [Select.compile_eq]
      refine (FromItem.compileClause_respects suits (steps _) source).bind ?_
      intro _ source
      refine (ensures_predicate (Expr.compileOption_respects suits filter)).bind ?_
      intro _ filter
      refine clauses.bind fun _ rest => ensures_ok fun nested _ _ alike =>
        Pipeline.Respects.rows ?_ nested alike
      exact ⟨source, filter, rest.grouping, rest.columns, rest.having, rest.orderKeys⟩
end

theorem Select.clauses_respects (suits : metadata.Suits relation false) (query : Select) :
    Ensures (query.clauses metadata) (Pipeline.Respects relation) :=
  clauses_respects_of suits
    (List.forall_mem_append.mpr ⟨List.forall_mem_append.mpr
      ⟨SelectItem.aggregates_respects suits query.items,
        Expr.aggregatesOfOption_respects suits query.having⟩,
      SortClause.aggregates_respects suits query.orderBy⟩)
    (Expr.nodes_respects suits query.groupBy)
    (fun _ _ shaping => SelectItem.columns_respects shaping query.items)
    (fun _ _ shaping => Expr.compileOption_respects shaping query.having)
    (fun _ _ shaping => SortClause.keys_respects shaping query.orderBy)

end StreamQuery
