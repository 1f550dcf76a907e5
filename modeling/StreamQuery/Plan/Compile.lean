import StreamQuery.Plan.Node
import StreamQuery.Plan.Pipeline
namespace StreamQuery

/-! Compiling expressions and statements. A select inside of a statement does not see the features
of that statement. -/

namespace JoinClause

def effectiveKind : JoinKind → Option Expr → JoinKind
  | .cross, some _ => .inner
  | kind, _ => kind

end JoinClause

namespace FromItem

def labelAt (position : Nat) (source : FromItem) : String :=
  source.qualifier?.getD s!"_{position}"

end FromItem

structure GroupClause where
  keys : List Mapper
  window : Option Window

namespace GroupClause

def window? (metadata : Metadata) : Node → Option (Except QueryError Window)
  | .call call arguments =>
      (metadata.groupFeature? call.name).map fun feature => feature.compile call arguments
  | _ => none

def add (metadata : Metadata) (clause : GroupClause) (expr : Expr) (node : Node) :
    Except QueryError GroupClause :=
  match window? metadata node with
  | some window =>
      if clause.window.isSome then .error (.unsupportedExpression expr.text)
      else window.map fun window => { clause with window := some window }
  | none =>
      (node.value metadata expr).map fun key => { clause with keys := clause.keys ++ [key] }

def compile (metadata : Metadata) (parts : List (Expr × Node)) : Except QueryError GroupClause :=
  parts.foldlM (fun clause part => clause.add metadata part.1 part.2) ⟨[], none⟩

end GroupClause

mutual
def Expr.node (metadata : Metadata) : Expr → Node
  | .literal value => .literal value
  | .column reference => .column reference
  | .call ⟨name, arguments, star, distinct⟩ =>
      .call ⟨name, arguments, star, distinct⟩ (Expr.compileAll metadata arguments)
  | .binary operator left right =>
      .binary operator ((left.node metadata).compile metadata left)
        ((right.node metadata).compile metadata right)
  | .signed sign operand => .signed sign ((operand.node metadata).compile metadata operand)
  | .cast operand target => .cast ((operand.node metadata).compile metadata operand) target
  | .caseWhen subject branches otherwise =>
      .caseWhen (Expr.compileOption metadata subject) (Expr.compileBranches metadata branches)
        (Expr.compileOption metadata otherwise)
  | .parenthesis inner => .parenthesis ((inner.node metadata).compile metadata inner)
  | .subselect query =>
      .subselect query (Thunk.mk fun _ => Select.compile metadata.nested query)
  | .not inner => .not ((inner.node metadata).compile metadata inner)
  | .isNull subject negated =>
      .isNull ((subject.node metadata).compile metadata subject) negated
  | .isBoolean subject value negated =>
      .isBoolean ((subject.node metadata).compile metadata subject) value negated
  | .between subject low high negated =>
      .between ((subject.node metadata).compile metadata subject)
        ((low.node metadata).compile metadata low) ((high.node metadata).compile metadata high)
        negated
  | .inList subject members negated =>
      .inList ((subject.node metadata).compile metadata subject)
        (Expr.compileAll metadata members) negated

def Expr.compileAll (metadata : Metadata) : List Expr → List Compiled
  | [] => []
  | head :: rest => (head.node metadata).compile metadata head :: Expr.compileAll metadata rest

def Expr.compileOption (metadata : Metadata) : Option Expr → Option Compiled
  | none => none
  | some expr => some ((expr.node metadata).compile metadata expr)

def Expr.compileBranches (metadata : Metadata) :
    List (Expr × Expr) → List (Compiled × Compiled)
  | [] => []
  | (condition, result) :: rest =>
      ((condition.node metadata).compile metadata condition,
        (result.node metadata).compile metadata result) :: Expr.compileBranches metadata rest

def Expr.nodes (metadata : Metadata) : List Expr → List (Expr × Node)
  | [] => []
  | head :: rest => (head, head.node metadata) :: Expr.nodes metadata rest

/-- The aggregate calls in an expression. The arguments of such a call are not searched, and
neither are selects, which aggregate on their own. -/
def Expr.aggregates (metadata : Metadata) : Expr → List AggregateCall
  | .literal _ | .column _ | .subselect _ => []
  | .call ⟨name, arguments, star, distinct⟩ =>
      match metadata.aggregateFeature? name with
      | some feature =>
          let call : Call := ⟨name, arguments, star, distinct⟩
          [⟨call, Thunk.mk fun _ => feature.compile call (Expr.compileAll metadata arguments)⟩]
      | none => Expr.aggregatesOfAll metadata arguments
  | .binary _ left right => left.aggregates metadata ++ right.aggregates metadata
  | .signed _ operand | .cast operand _ => operand.aggregates metadata
  | .caseWhen subject branches otherwise =>
      Expr.aggregatesOfOption metadata subject ++ Expr.aggregatesOfBranches metadata branches
        ++ Expr.aggregatesOfOption metadata otherwise
  | .parenthesis inner | .not inner => inner.aggregates metadata
  | .isNull subject _ | .isBoolean subject _ _ => subject.aggregates metadata
  | .between subject low high _ =>
      subject.aggregates metadata ++ low.aggregates metadata ++ high.aggregates metadata
  | .inList subject members _ =>
      subject.aggregates metadata ++ Expr.aggregatesOfAll metadata members

def Expr.aggregatesOfAll (metadata : Metadata) : List Expr → List AggregateCall
  | [] => []
  | head :: rest => head.aggregates metadata ++ Expr.aggregatesOfAll metadata rest

def Expr.aggregatesOfOption (metadata : Metadata) : Option Expr → List AggregateCall
  | none => []
  | some expr => expr.aggregates metadata

def Expr.aggregatesOfBranches (metadata : Metadata) : List (Expr × Expr) → List AggregateCall
  | [] => []
  | (condition, result) :: rest =>
      condition.aggregates metadata ++ result.aggregates metadata
        ++ Expr.aggregatesOfBranches metadata rest

def SelectItem.aggregates (metadata : Metadata) : List SelectItem → List AggregateCall
  | [] => []
  | .wildcard :: rest => SelectItem.aggregates metadata rest
  | .expression value _ :: rest =>
      value.aggregates metadata ++ SelectItem.aggregates metadata rest

def SelectItem.columns (metadata : Metadata) : List SelectItem → Except QueryError (List Column)
  | [] => .ok []
  | .wildcard :: rest => do .ok (.wildcard :: (← SelectItem.columns metadata rest))
  | .expression value label :: rest => do
      let mapper ← (value.node metadata).value metadata value
      .ok (.named (label.getD value.text) mapper :: (← SelectItem.columns metadata rest))

def SortClause.aggregates (metadata : Metadata) : List SortClause → List AggregateCall
  | [] => []
  | ⟨key, _⟩ :: rest => key.aggregates metadata ++ SortClause.aggregates metadata rest

def SortClause.keys (metadata : Metadata) : List SortClause → Except QueryError (List Mapper)
  | [] => .ok []
  | ⟨key, _⟩ :: rest => do
      let mapper ← (key.node metadata).value metadata key
      .ok (mapper :: (← SortClause.keys metadata rest))

def FromItem.compile (metadata : Metadata) (position : Nat) : FromItem → Except QueryError Source
  | .table name label => .ok (.ofTable name (FromItem.labelAt position (.table name label)))
  | .query query label => do
      let plan ← Select.compile metadata.nested query
      .ok (.ofPlan plan (label.getD s!"_{position}"))

def JoinClause.compileAll (metadata : Metadata) (statement : Unit → String) (position : Nat) :
    List JoinClause → Except QueryError (List JoinStep)
  | [] => .ok []
  | ⟨kind, source, condition⟩ :: rest => do
      let kind := JoinClause.effectiveKind kind condition
      match metadata.joinFeature? kind with
      | none => .error (Metadata.missing .join kind.name (statement ()))
      | some feature =>
          let source ← source.compile metadata position
          let condition ← (Expr.compileOption metadata condition).mapM fun part =>
            part.predicate.get
          let steps ← JoinClause.compileAll metadata statement (position + 1) rest
          .ok (⟨source, feature, condition⟩ :: steps)

def FromItem.compileClause (metadata : Metadata)
    (joins : Unit → Except QueryError (List JoinStep)) :
    Option FromItem → Except QueryError SourcePlan
  | none => .ok .implicit
  | some source => do
      let first ← source.compile metadata 0
      match ← joins () with
      | [] => .ok (.single first)
      | steps => .ok (.joined first steps)

def Select.compile (metadata : Metadata) : Select → Except QueryError Plan
  | ⟨distinct, items, source, joins, filter, groupBy, having, orderBy, limit⟩ => do
      let statement : Select :=
        ⟨distinct, items, source, joins, filter, groupBy, having, orderBy, limit⟩
      let source ← FromItem.compileClause metadata
        (fun _ => JoinClause.compileAll metadata (fun _ => statement.text) 1 joins) source
      let filter ← (Expr.compileOption metadata filter).mapM fun part => part.predicate.get
      let aggregates ← AggregateSet.ofCalls
        (SelectItem.aggregates metadata items ++ Expr.aggregatesOfOption metadata having
          ++ SortClause.aggregates metadata orderBy)
      let grouped := !groupBy.isEmpty || having.isSome || !aggregates.isEmpty
      let clause ← GroupClause.compile metadata (Expr.nodes metadata groupBy)
      let shaping := if grouped then aggregates.install metadata else metadata
      let columns ← SelectItem.columns shaping items
      let having ← (Expr.compileOption shaping having).mapM fun part => part.predicate.get
      let orderKeys ← SortClause.keys shaping orderBy
      let pipeline : Pipeline :=
        { source := source
          filter := filter
          grouping :=
            if grouped then some ⟨clause.keys, clause.window, aggregates.specs⟩ else none
          projection := ⟨Projection.passes items, columns⟩
          having := having
          orderKeys := orderKeys
          descending := orderBy.map (·.descending)
          distinct := distinct
          limit := limit }
      .ok ⟨statement.text, grouped, metadata.settings, pipeline.rows⟩
end

def Expr.compile (metadata : Metadata) (expr : Expr) : Compiled :=
  (expr.node metadata).compile metadata expr

def AggregateSet.ofExprs (metadata : Metadata) (exprs : List Expr) :
    Except QueryError AggregateSet :=
  AggregateSet.ofCalls (Expr.aggregatesOfAll metadata exprs)

end StreamQuery
