import StreamQuery.Proofs.Plan.Parts
import StreamQuery.Proofs.Plan.Timelessness
import StreamQuery.Proofs.Plan.Wrapping
import StreamQuery.Proofs.Stream.Limits
import StreamQuery.Proofs.Stream.Supplies
namespace StreamQuery

/-! A limit on the rows of a table. It shows what the statement shows without it, as far as it goes,
and what the table delivers after that is never asked for. -/

variable {free : Prop}

theorem Evaluation.atOnce_reading {clock : WallClock} (stands : free → clock.StandsStill)
    (read : Int64 → Except QueryError α) :
    (Evaluation.reading fun now => read (clock.reading now)).AtOnce free := by
  refine ⟨_, rfl, fun now => ⟨read (clock.reading now), ?_⟩⟩
  rintro later (isFree | rfl)
  · exact congrArg (fun time => Task.done (read time)) (stands isFree later now)
  · rfl

/-- Without a select inside nothing is opened and nothing takes time. Where the evaluations are free,
the clock stands still. -/
def Likeness.atOnce (free : Prop) : Likeness where
  contexts context other := context = other ∧ (free → context.wallClock.StandsStill)
  evaluations evaluation _ := evaluation.AtOnce free
  reading alike _ := Evaluation.atOnce_reading alike.2 _
  ok := .ok
  thenCheck atOnce _ := atOnce.thenCheck _
  andThen := .andThen
  both := .both
  defer := .defer

theorem Metadata.respects_atOnce (metadata : Metadata) : metadata.Respects (.atOnce free) :=
  fun _ _ _ _ _ same => congrArg Context.aggregates same.1

namespace Expr

def Selectless (expr : Expr) : Prop :=
  expr.All fun part => ∀ query, part ≠ .subselect query

theorem Selectless.compile_respects {expr : Expr} (selectless : expr.Selectless)
    (metadata : Metadata) : (expr.compile metadata).Respects (.atOnce free) := by
  apply All.compile_respects metadata.respects_atOnce
  apply selectless.imp
  intro part other
  cases part with
  | column reference => exact fun context _ _ => .ok (context.resolve reference)
  | subselect query => exact absurd rfl (other query)
  | _ => trivial

end Expr

theorem SelectItem.columns_respects_of {relation : Likeness} {metadata : Metadata}
    {items : List SelectItem} (respects : ∀ value label, .expression value label ∈ items →
      (value.compile metadata).Respects relation) :
    Ensures (SelectItem.columns metadata items) fun columns =>
      ∀ column ∈ columns, column.Respects relation := by
  rw [columns_eq]
  apply ensures_mapM
  intro item member
  cases item with
  | wildcard => exact ensures_ok trivial
  | expression value label => exact (respects value label member).value.map fun _ mapper => mapper

/-! Stages. -/

namespace Pipeline

variable {source : SourcePlan} {filter : Option Predicate} {projection : Projection}
  {distinct : Bool}

theorem filtered_keepsBeginnings
    (conditions : ∀ predicate ∈ filter, predicate.Respects (.atOnce free)) {context : Context}
    (stands : free → context.wallClock.StandsStill) : Stream.KeepsBeginnings free
      ((ofRows source filter projection distinct none).filtered context) := by
  intro records others begins now later inTime
  cases filter with
  | none => exact begins now later inTime
  | some predicate =>
      have atOnce (row : Value) : (predicate.keep context row).AtOnce free :=
        Evaluation.AtOnce.map (conditions predicate rfl ⟨Eq.refl (context.withRow row), stands⟩) _
      exact (begins now later inTime).process atOnce inTime

theorem shape_atOnce (columns : ∀ column ∈ projection.columns, column.Respects (.atOnce free))
    {context : Context} (stands : free → context.wallClock.StandsStill) :
    ((ofRows source filter projection distinct none).shape context).AtOnce free := by
  have projected : (projection.apply context).AtOnce free :=
    Projection.apply_respects columns ⟨Eq.refl context, stands⟩ rfl
  apply projected.andThen
  intro row
  apply (Evaluation.AtOnce.ok true).andThen
  intro kept
  cases kept with
  | false => exact .ok none
  | true => exact Evaluation.AtOnce.map (.ok []) _

theorem stages_keepsBeginnings
    (conditions : ∀ predicate ∈ filter, predicate.Respects (.atOnce free))
    (columns : ∀ column ∈ projection.columns, column.Respects (.atOnce free)) {context : Context}
    (stands : free → context.wallClock.StandsStill) : Stream.KeepsBeginnings free
      ((ofRows source filter projection distinct none).stages context) := by
  intro records others begins now later inTime
  let pipeline := ofRows source filter projection distinct none
  have shaped : (pipeline.shaped context (pipeline.filtered context records) now).Begins free
      (pipeline.shaped context (pipeline.filtered context others) later) := by
    refine Feed.Begins.process ?_ ?_ inTime
    · exact fun row => @shape_atOnce _ _ _ _ _ columns (context.withRow row) stands
    · exact filtered_keepsBeginnings conditions stands begins now later inTime
  cases distinct with
  | false => exact shaped.map Shaped.row
  | true => exact (shaped.distinct inTime []).map Shaped.row

end Pipeline

theorem Limit.keepsBeginnings (limit : Limit) :
    Stream.KeepsBeginnings free (limit.apply : Stream α → Stream α) := by
  intro records others begins now later inTime
  rcases limit with ⟨offset, _ | _ | count⟩
  · exact (begins now later inTime).skip inTime offset
  · exact .finished
  · exact ((begins now later inTime).skip inTime offset).take (count + 1)

/-! Statements. -/

namespace Select

structure Streams (metadata : Metadata) (query : Select) (name : String) : Prop where
  source : ∃ label, query.source = some (.table name label)
  joins : query.joins = []
  groupBy : query.groupBy = []
  aggregates : SelectItem.aggregates metadata query.items = []
  having : query.having = none
  orderBy : query.orderBy = []
  filter : ∀ filter ∈ query.filter, filter.Selectless
  items : ∀ value label, .expression value label ∈ query.items → value.Selectless

end Select

def Plan.Clockless (plan : Plan) : Prop :=
  ∀ nested context clock, plan.rows nested (context.withClock clock) = plan.rows nested context

/-- What does not go by the clock may as well go by one that stands still. -/
theorem Plan.exists_base {plan : Plan} {free : Prop} (clockless : free → plan.Clockless)
    (nested : Bool) (context : Context) :
    ∃ base : Context, (free → base.wallClock.StandsStill) ∧
      plan.rows nested context = plan.rows nested base := by
  by_cases isFree : free
  · exact ⟨context.withClock (.still 0), fun _ => WallClock.standsStill_still 0,
      (clockless isFree nested context (.still 0)).symm⟩
  · exact ⟨context, fun isFree' => absurd isFree' isFree, rfl⟩

/-- The plan shows what the other one shows, as far as the limit lets it through. Once the source
has brought enough for that, the output is complete: every source that begins so gives the same,
whatever it does then. It may bring its records sooner or later, if nothing in the statement goes by
the clock. Where nothing is wanted, nothing is read. -/
structure Plan.Limits (plan unlimited : Plan) (name : String) (offset count : Nat) : Prop where
  items : ∀ nested context world,
    (Stream.run none (plan.rows nested context) world).items =
      (dropRows offset (Stream.run none (unlimited.rows nested context) world).items).take count
  prompt : ∀ free : Prop, (free → unlimited.Clockless) →
    ∀ nested context (supply other : Supply) (known : Nat) (world : World),
    supply.AgreesFor free other known →
    (world.request name).1 = .ok ⟨supply.first known, false⟩ →
    offset + count ≤ (Stream.run none (unlimited.rows nested context) world).successes.length →
    let items := (Stream.run none (plan.rows nested context) world).items.map (·.2)
    supply.Shows free world.now name (plan.rows nested context) items ∧
      other.Shows free world.now name (plan.rows nested context) items
  unread : count = 0 → ∀ nested context,
    plan.rows nested context = .opening name fun _ => .done fun _ => .finished

theorem Pipeline.limits {filter : Option Predicate} {projection : Projection} {distinct : Bool}
    {name label : String} {offset count : Nat} {unlimited plan : Plan}
    (conditions : ∀ free, ∀ predicate ∈ filter, predicate.Respects (.atOnce free))
    (columns : ∀ free, ∀ column ∈ projection.columns, column.Respects (.atOnce free))
    (whole : unlimited.rows =
      (ofRows (.single (.ofTable name label)) filter projection distinct none).rows)
    (limited : plan.rows = (ofRows (.single (.ofTable name label)) filter projection distinct
      (some ⟨offset, some count⟩)).rows) :
    plan.Limits unlimited name offset count := by
  let limit : Limit := ⟨offset, some count⟩
  let stages (context : Context) := (ofRows (.single (.ofTable name label)) filter projection
    distinct none).stages (context.withLabel (some label))
  have rows (nested : Bool) (context : Context) :
      unlimited.rows nested context = (Source.request name).map (stages context) := by
    rw [whole]
    rfl
  have rowsWithin (nested : Bool) (context : Context) : plan.rows nested context =
      (Source.request name).map fun records => limit.apply (stages context records) := by
    rw [limited]
    rfl
  refine ⟨fun nested context world => ?_, ?_, ?_⟩
  · rw [rows, rowsWithin]
    exact limit.items_apply (stages context (Source.ofAnswer (world.request name).1))
      (world.request name).2
  · intro free clockless nested context supply other known world agrees answered enough
    rcases Plan.exists_base clockless nested context with ⟨base, stands, same⟩
    have sameWithin : plan.rows nested context = plan.rows nested base := by
      rw [rows, rows] at same
      rw [rowsWithin, rowsWithin]
      refine congrArg (Opening.opening name) (funext fun answer => ?_)
      have stage := Opening.done.inj (congrFun (Opening.opening.inj same).2 answer)
      exact congrArg (fun stream => Opening.done (limit.apply stream)) stage
    have kept : Stream.KeepsBeginnings free (stages base) :=
      stages_keepsBeginnings (conditions free) (columns free) stands
    have keeps : Stream.KeepsBeginnings free fun records => limit.apply (stages base records) :=
      fun _ _ begins => limit.keepsBeginnings (kept begins)
    rw [same, rows] at enough
    have ends : (Stream.run none ((Source.request name).map fun records =>
        limit.apply (stages base records)) world).ended.isSome := Limit.ended_apply enough
    rw [sameWithin, rowsWithin]
    exact ⟨keeps.shows (.refl free supply known) answered ends, keeps.shows agrees answered ends⟩
  · rintro rfl nested context
    rw [rowsWithin]
    rfl

namespace Select

variable {metadata : Metadata} {query : Select} {name : String}

theorem clauses_streams (streams : query.Streams metadata name) (limit : Option Limit) :
    { query with limit }.clauses metadata = (do
      let columns ← SelectItem.columns metadata query.items
      .ok (Pipeline.ofRows .implicit none ⟨Projection.passes query.items, columns⟩ query.distinct
        limit)) := by
  simp only [clauses, streams.aggregates, streams.groupBy, streams.having, streams.orderBy]
  rfl

theorem compile_streams (streams : query.Streams metadata name) : ∃ label, ∀ limit,
    compile metadata { query with limit } = (do
      let filter ← (Expr.compileOption metadata query.filter).mapM fun part => part.predicate.get
      let columns ← SelectItem.columns metadata query.items
      .ok ⟨{ query with limit }.text, false, metadata.settings,
        (Pipeline.ofRows (.single (.ofTable name label)) filter
          ⟨Projection.passes query.items, columns⟩ query.distinct limit).rows⟩) := by
  rcases streams.source with ⟨label, source⟩
  refine ⟨FromItem.labelAt 0 (.table name label), fun limit => ?_⟩
  rw [compile_eq, clauses_streams streams]
  simp only [source, streams.joins, bind_assoc]
  rfl

/-- With a limit the statement shows the first rows that it shows without, behind those that are to
be dropped, and goes by the beginning of the source that brings them. -/
theorem limit_shows_beginning (metadata : Metadata) (query : Select) (name : String)
    (offset count : Nat) (streams : query.Streams metadata name) :
    CompileAlike Eq (fun unlimited plan => plan.Limits unlimited name offset count)
      (compile metadata { query with limit := none })
      (compile metadata { query with limit := some ⟨offset, some count⟩ }) := by
  rcases compile_streams streams with ⟨label, compiles⟩
  rw [compiles, compiles]
  cases asked : (Expr.compileOption metadata query.filter).mapM fun part => part.predicate.get with
  | error error => rfl
  | ok filter =>
      cases named : SelectItem.columns metadata query.items with
      | error error => rfl
      | ok columns =>
          have compiled (free : Prop) : ∀ part ∈ Expr.compileOption metadata query.filter,
              part.Respects (.atOnce free) := by
            rw [Expr.compileOption_eq]
            intro part among
            rcases Option.map_eq_some_iff.mp among with ⟨expr, found, rfl⟩
            exact (streams.filter expr found).compile_respects metadata
          have conditions (free : Prop) := ensures_predicate (compiled free) filter asked
          have atOnce (free : Prop) : ∀ column ∈ columns, column.Respects (.atOnce free) := by
            apply SelectItem.columns_respects_of ?_ columns named
            intro value label member
            exact (streams.items value label member).compile_respects metadata
          exact Pipeline.limits conditions atOnce rfl rfl

/-- `SELECT DISTINCT * FROM t LIMIT 1 OFFSET 1` of a source that brings every number twice, a record
each second, and of one that fails where that one goes on. -/
theorem limit_shows_beginning_endless :
    let metadata := Metadata.ofSettings Settings.default
    let query : Select := ⟨true, [.wildcard], some (.table "t" none), [], none, [], none, [], none⟩
    let context : Context := ⟨.null, none, [], metadata.settings, .still 0⟩
    let counting : Supply := .endless fun place => ⟨1000, .ok (.int64 (.ofNat (place / 2)))⟩
    let failing : Supply := .script
      ⟨[⟨0, .ok (.int64 0)⟩, ⟨0, .ok (.int64 0)⟩, ⟨0, .ok (.int64 1)⟩,
        ⟨0, .error (.source "t" "gone")⟩], true⟩
    query.Streams metadata "t" ∧ counting.AgreesFor True failing 3 ∧
      ∃ unlimited plan items, compile metadata query = .ok unlimited ∧ unlimited.Clockless ∧
        compile metadata { query with limit := some ⟨1, some 1⟩ } = .ok plan ∧
        items.map (fun item => item.map Value.toString) = [.ok "1"] ∧
        counting.Shows True 0 "t" (plan.rows false context) items ∧
        failing.Shows True 0 "t" (plan.rows false context) items := by
  intro metadata query context counting failing
  have streams : query.Streams metadata "t" :=
    ⟨⟨none, rfl⟩, rfl, rfl, rfl, rfl, rfl, nofun, nofun⟩
  have agrees : counting.AgreesFor True failing 3 :=
    .cons ⟨rfl, .inl trivial⟩ (.cons ⟨rfl, .inl trivial⟩ (.cons ⟨rfl, .inl trivial⟩ .nil))
  let world := World.start (.single ⟨counting.first 3, false⟩ false)
  have whole : (compile metadata query).map (fun unlimited =>
      (Stream.run none (unlimited.rows false context) world).successes.length) = .ok 2 := by
    decide +kernel
  have shown : (compile metadata { query with limit := some ⟨1, some 1⟩ }).map (fun plan =>
      ((Stream.run none (plan.rows false context) world).items.map (·.2)).map
        fun item => item.map Value.toString) = .ok [.ok "1"] := by
    decide +kernel
  have alike := limit_shows_beginning metadata query "t" 1 1 streams
  rcases exists_of_map_ok whole with ⟨unlimited, compiles, two⟩
  rcases exists_of_map_ok shown with ⟨plan, compilesWithin, one⟩
  have clockless : unlimited.Clockless := by
    cases compiles
    exact fun _ _ _ => rfl
  rw [compiles, compilesWithin] at alike
  have complete := alike.prompt True (fun _ => clockless) false context counting failing 3 world
    agrees rfl (Nat.le_of_eq two.symm)
  exact ⟨streams, agrees, unlimited, plan, _, compiles, clockless, compilesWithin, one, complete⟩

end Select

end StreamQuery
