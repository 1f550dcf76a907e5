import StreamQuery.Plan.Compile
namespace StreamQuery

/-! A statement is its sources, its filter and the clauses behind the filter. Each of the three is
compiled without the others. -/

namespace Select

/-- The stages of the clauses behind the filter. -/
def clauses (metadata : Metadata) (query : Select) : Except QueryError Pipeline := do
  let aggregates ← AggregateSet.ofCalls
    (SelectItem.aggregates metadata query.items ++ Expr.aggregatesOfOption metadata query.having
      ++ SortClause.aggregates metadata query.orderBy)
  let grouped := !query.groupBy.isEmpty || query.having.isSome || !aggregates.isEmpty
  let clause ← GroupClause.compile metadata (Expr.nodes metadata query.groupBy)
  let shaping := if grouped then aggregates.install metadata else metadata
  let columns ← SelectItem.columns shaping query.items
  let having ← (Expr.compileOption shaping query.having).mapM fun part => part.predicate.get
  let orderKeys ← SortClause.keys shaping query.orderBy
  .ok
    { source := .implicit
      filter := none
      grouping := if grouped then some ⟨clause.keys, clause.window, aggregates.specs⟩ else none
      projection := ⟨Projection.passes query.items, columns⟩
      having := having
      orderKeys := orderKeys
      descending := query.orderBy.map (·.descending)
      distinct := query.distinct
      limit := query.limit }

theorem compile_eq (metadata : Metadata) (query : Select) :
    compile metadata query = (do
      let source ← FromItem.compileClause metadata
        (fun _ => JoinClause.compileAll metadata (fun _ => query.text) 1 query.joins) query.source
      let filter ← (Expr.compileOption metadata query.filter).mapM fun part => part.predicate.get
      let rest ← query.clauses metadata
      .ok ⟨query.text, rest.grouping.isSome, metadata.settings,
        { rest with source := source, filter := filter }.rows⟩) := by
  rcases query with ⟨distinct, items, source, joins, filter, groupBy, having, orderBy, limit⟩
  simp only [compile, clauses, bind_assoc]
  refine bind_congr fun _ => bind_congr fun _ => bind_congr fun aggregates =>
    bind_congr fun _ => bind_congr fun _ => bind_congr fun _ => bind_congr fun _ => ?_
  cases !groupBy.isEmpty || having.isSome || !aggregates.isEmpty <;> rfl

end Select

/-! In a list, every part is compiled for itself. -/

def SelectItem.column (metadata : Metadata) : SelectItem → Except QueryError Column
  | .wildcard => .ok .wildcard
  | .expression value label =>
      (value.compile metadata).value.get.map (.named (label.getD value.text))

theorem SelectItem.columns_eq (metadata : Metadata) (items : List SelectItem) :
    columns metadata items = items.mapM (column metadata) := by
  induction items with
  | nil => rfl
  | cons item rest induction =>
      rw [List.mapM_cons, ← induction]
      cases item with
      | wildcard => rfl
      | expression value label =>
          change ((value.compile metadata).value.get >>= _) = _
          rw [column]
          cases (value.compile metadata).value.get <;> rfl

theorem SortClause.keys_eq (metadata : Metadata) (clauses : List SortClause) :
    keys metadata clauses =
      clauses.mapM fun clause => (clause.key.compile metadata).value.get := by
  induction clauses with
  | nil => rfl
  | cons clause rest induction =>
      rcases clause with ⟨key, descending⟩
      rw [List.mapM_cons, ← induction]
      rfl

end StreamQuery
