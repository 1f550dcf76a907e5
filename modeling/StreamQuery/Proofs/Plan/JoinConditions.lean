import StreamQuery.Proofs.Join.Conditions
import StreamQuery.Proofs.Plan.StageFeeds
namespace StreamQuery

/-! `FROM a, b WHERE p` and `FROM a JOIN b ON p`. -/

/-- On every pair of the two sides the condition has one value, whenever it is asked. It waits only
where it is free to. -/
def JoinInput.Decides (input : JoinInput) (free : Prop) (predicate : Predicate) (context : Context)
    (world : World) : Prop :=
  ∃ answers, ∃ verdict : Value → Bool, ∀ pair ∈ input.pairs,
    world.AnswersBy answers ∧ (predicate context pair).Arrives answers free (.ok (verdict pair))

namespace Pipeline

def filtering (rest : Pipeline) (first second : Source) (predicate : Predicate) : Pipeline :=
  { rest with source := .joined first [.crossing second], filter := some predicate }

def joining (rest : Pipeline) (first second : Source) (predicate : Predicate) : Pipeline :=
  { rest with source := .joined first [.joining second predicate], filter := none }

variable {rest : Pipeline} {first second : Source} {predicate : Predicate} {nested : Bool}
  {context : Context} {world : World} {wanted : Option Nat}

theorem run_filtering (asked : wanted ≠ some 0) :
    Stream.run wanted ((rest.filtering first second predicate).rows nested context) world =
      Feed.run wanted (rest.stagesFrom (context.withLabel none) world.now
        ((SourcePlan.joinedFeed nested (context.withLabel none) first (.crossing second)
          world.now).process context.settings.errorPolicy
          (fun pair => (predicate (context.withLabel none) pair).map fun kept =>
            if kept then some pair else none) world.now) world.now) world := by
  simp only [Stream.run, if_neg asked]
  exact congrArg (Feed.run wanted · world)
    ((rest.filtering first second predicate).stages_eq (context.withLabel none) _ world.now)

theorem run_joining (asked : wanted ≠ some 0) :
    Stream.run wanted ((rest.joining first second predicate).rows nested context) world =
      Feed.run wanted (rest.stagesFrom (context.withLabel none) world.now
        (SourcePlan.joinedFeed nested (context.withLabel none) first (.joining second predicate)
          world.now) world.now) world := by
  simp only [Stream.run, if_neg asked]
  exact congrArg (Feed.run wanted · world)
    ((rest.joining first second predicate).stages_eq (context.withLabel none) _ world.now)

theorem exists_base {free : Prop} (clockless : free → rest.Clockless)
    (unfiltered : rest.filter = none) (context : Context) :
    ∃ base : Context, (free → base.wallClock.StandsStill) ∧ ∀ feed now,
      rest.stagesFrom context now feed now = rest.stagesFrom base now feed now := by
  by_cases isFree : free
  · refine ⟨context.withClock (.still 0), fun _ => WallClock.standsStill_still 0, ?_⟩
    intro feed now
    exact ((clockless isFree).stagesFrom unfiltered context (.still 0) feed now).symm
  · exact ⟨context, fun isFree' => absurd isFree' isFree, fun _ _ => rfl⟩

/-- The cases are how far the sources come: they may fail or never end, there may be no pair of
their rows, and else the condition decides which pairs go on. -/
theorem items_filtering {free : Prop} (respects : ∀ delay, rest.Respects (.ofDelay delay))
    (clockless : free → rest.Clockless) (unfiltered : rest.filter = none)
    (windows : free → ∀ grouping ∈ rest.grouping, grouping.Untimed)
    (decides : ∀ rows read others later,
      (first.materialize nested (context.withLabel none)).ComesTo world (.ok rows) read →
      (second.materialize nested (context.withLabel none)).ComesTo read (.ok others) later →
      (SourcePlan.sides first second rows others).Decides free predicate
        (context.withLabel none) later) (wanted : Option Nat) :
    (Stream.run wanted ((rest.filtering first second predicate).rows nested context)
        world).items.map (·.2) =
      (Stream.run wanted ((rest.joining first second predicate).rows nested context)
        world).items.map (·.2) := by
  by_cases asked : wanted = some 0
  · simp only [Stream.run, if_pos asked, List.map_nil]
  rcases exists_base clockless unfiltered (context.withLabel none) with ⟨base, stands, same⟩
  rw [run_filtering asked, run_joining asked, same, same]
  rcases SourcePlan.joinedFeed_cases nested (context.withLabel none) first second world with
    ⟨rows, read, others, later, takes, takesOther⟩ | ⟨feed, later, ends, leads⟩
  · rw [run_stagesFrom ((SourcePlan.leads_crossing takes takesOther).process _ _),
      run_stagesFrom (SourcePlan.leads_joining takes takesOther)]
    by_cases none : (SourcePlan.sides first second rows others).pairs = []
    · rw [none, SourcePlan.tried_nil none]
      rfl
    · rcases decides rows read others later takes takesOther with ⟨answers, verdict, each⟩
      rcases List.exists_mem_of_ne_nil _ none with ⟨pair, member⟩
      have same := (each pair member).1
      have arrives := fun pair member => (each pair member).2
      rcases SourcePlan.tried_arrives arrives later.now with ⟨reached, reaches⟩
      -- The filter delivers while the join is still trying: both bring the accepted pairs.
      refine (matches_stagesFrom respects stands windows ?_ (.refl free _) world.now).run rfl rfl
        (.refl free _) same same wanted
      have accepted := Feed.matches_filtered context.settings.errorPolicy arrives
        reaches.inTime
      exact (Feed.Matches.afterTask reaches accepted.symm).symm
  · rw [run_stagesFrom ((leads (.crossing second) rfl).process _ _),
      run_stagesFrom (leads (.joining second predicate) rfl)]
    rcases ends with rfl | ⟨error, rfl⟩ <;> rfl

end Pipeline

namespace Select

def filtering (query : Select) (left right : FromItem) (condition : Expr) : Select :=
  { query with
    source := some left, joins := [⟨.cross, right, none⟩], filter := some condition }

def joining (query : Select) (left right : FromItem) (condition : Expr) : Select :=
  { query with
    source := some left, joins := [⟨.inner, right, some condition⟩], filter := none }

/-- The clauses behind the condition do not go by time: what comes of the records is the same
whatever the clock shows, and no window goes by time. -/
def Untimed (metadata : Metadata) (query : Select) : Prop :=
  Ensures (query.clauses metadata) fun rest =>
    rest.Clockless ∧ ∀ grouping ∈ rest.grouping, grouping.Untimed

variable {metadata : Metadata} {query : Select}

theorem clauses_unfiltered (metadata : Metadata) (query : Select) :
    Ensures (query.clauses metadata) fun rest => rest.filter = none :=
  (ensures_true _).bind fun _ _ => (ensures_true _).bind fun _ _ =>
    (ensures_true _).bind fun _ _ => (ensures_true _).bind fun _ _ =>
      (ensures_true _).bind fun _ _ => ensures_ok rfl

section
variable (left right : FromItem) (condition : Expr)

theorem compile_filtering (crosses : metadata.joinFeature? .cross = some (.nestedLoop .cross)) :
    compile metadata (query.filtering left right condition) = (do
      let first ← left.compile metadata 0
      let second ← right.compile metadata 1
      let predicate ← (condition.compile metadata).predicate.get
      let rest ← query.clauses metadata
      .ok ⟨(query.filtering left right condition).text, rest.grouping.isSome, metadata.settings,
        (rest.filtering first second predicate).rows⟩) := by
  rw [compile_eq]
  simp only [filtering, FromItem.compileClause, JoinClause.compileAll, JoinClause.effectiveKind,
    crosses, Expr.compileOption, Option.mapM_none, Option.mapM_some, bind_assoc, pure_bind]
  refine bind_congr fun first => bind_congr fun second => ?_
  rw [Expr.compile]
  cases ((condition.node metadata).compile metadata condition).predicate.get <;> rfl

theorem compile_joining (joins : metadata.joinFeature? .inner = some (.nestedLoop .inner)) :
    compile metadata (query.joining left right condition) = (do
      let first ← left.compile metadata 0
      let second ← right.compile metadata 1
      let predicate ← (condition.compile metadata).predicate.get
      let rest ← query.clauses metadata
      .ok ⟨(query.joining left right condition).text, rest.grouping.isSome, metadata.settings,
        (rest.joining first second predicate).rows⟩) := by
  rw [compile_eq]
  simp only [joining, FromItem.compileClause, JoinClause.compileAll, JoinClause.effectiveKind,
    joins, Expr.compileOption, Option.mapM_none, Option.mapM_some, bind_assoc, pure_bind]
  refine bind_congr fun first => bind_congr fun second => ?_
  rw [Expr.compile]
  cases ((condition.node metadata).compile metadata condition).predicate.get <;> rfl

end

/-- Either neither of the two statements compiles, and the error is the same, or they show the same
items in the same order, wherever they run and however many items are wanted. On every pair that
the sources come to, the condition has to have one value, whenever it is asked. Only beside clauses
that go by time it must not wait: a join brings all of its pairs at one instant, a filter each pair
when it has been decided. -/
theorem items_of_filter_or_join {metadata : Metadata}
    (crosses : metadata.joinFeature? .cross = some (.nestedLoop .cross))
    (joins : metadata.joinFeature? .inner = some (.nestedLoop .inner)) (query : Select)
    (left right : FromItem) (condition : Expr) :
    (∃ error, compile metadata (query.filtering left right condition) = .error error ∧
      compile metadata (query.joining left right condition) = .error error) ∨
    ∃ first second predicate byFilter byJoin,
      left.compile metadata 0 = .ok first ∧ right.compile metadata 1 = .ok second ∧
      (condition.compile metadata).predicate.get = .ok predicate ∧
      compile metadata (query.filtering left right condition) = .ok byFilter ∧
      compile metadata (query.joining left right condition) = .ok byJoin ∧
      byFilter.grouped = byJoin.grouped ∧
      ∀ (nested : Bool) (context : Context) (world : World),
        let inside := context.withLabel none
        (∀ rows read others later,
          (first.materialize nested inside).ComesTo world (.ok rows) read →
          (second.materialize nested inside).ComesTo read (.ok others) later →
          (SourcePlan.sides first second rows others).Decides (query.Untimed metadata) predicate
            inside later) →
        ∀ wanted,
          (Stream.run wanted (byFilter.rows nested context) world).items.map (·.2) =
            (Stream.run wanted (byJoin.rows nested context) world).items.map (·.2) := by
  rw [compile_filtering left right condition crosses, compile_joining left right condition joins]
  -- The parts are compiled in one order, so what fails first is the same.
  rcases left.compile metadata 0 with error | first
  · exact .inl ⟨error, rfl, rfl⟩
  rcases right.compile metadata 1 with error | second
  · exact .inl ⟨error, rfl, rfl⟩
  rcases reads : (condition.compile metadata).predicate.get with error | predicate
  · exact .inl ⟨error, rfl, rfl⟩
  rcases goesOn : query.clauses metadata with error | rest
  · exact .inl ⟨error, rfl, rfl⟩
  refine .inr ⟨first, second, predicate, _, _, rfl, rfl, rfl, rfl, rfl, rfl, ?_⟩
  intro nested context world inside decides wanted
  refine Pipeline.items_filtering (fun delay => ?_) (fun untimed => (untimed rest goesOn).1)
    (clauses_unfiltered metadata query rest goesOn) (fun untimed => (untimed rest goesOn).2) decides
    wanted
  exact clauses_respects (.of_sharing trivial) query rest goesOn

/-! A condition that reads a slow source. -/

/-- `SELECT *` with these parts of a group by clause. -/
def everything (groupBy : List Expr) : Select :=
  ⟨false, [.wildcard], none, [], none, groupBy, none, [], none⟩

def slowValue : Expr :=
  .subselect ⟨false, [.wildcard], some (.table "slow" none), [], none, [], none, [], none⟩

/-- `(SELECT * FROM slow) = 1` -/
def slowCondition : Expr :=
  .binary (.named "=") slowValue (.literal (.integer 1))

/-- Two records in the table `a` and one in `b`, and a value that comes after ten milliseconds. -/
def slowWorld : World :=
  .start (.named [("slow", ⟨[⟨10, .ok (.int64 1)⟩], true⟩)]
    [("a", [.int64 1, .int64 2]), ("b", [.int64 0])])

theorem slowCondition_arrives {free : Prop} (isFree : free) {predicate : Predicate}
    (reads : (slowCondition.compile (.ofSettings .default)).predicate.get = .ok predicate)
    (clock : WallClock) (pair : Value) :
    (predicate ⟨.null, none, [], .default, clock⟩ pair).Arrives
      (fun name => (slowWorld.request name).1) free (.ok true) := by
  cases reads
  intro now
  refine ⟨max (now + 10) now, .opening (.waiting isFree (Task.reaches_of_eq ?_))⟩
  -- The value is there at the instant to which the condition has waited, whichever it is.
  generalize max (now + 10) now = instant
  cbv

theorem slowCondition_decides {free : Prop} (isFree : free) :
    let context : Context := ⟨.null, none, [], .default, .still 0⟩
    let first := Source.ofTable "a" "a"
    let second := Source.ofTable "b" "b"
    ∃ predicate read later,
      (slowCondition.compile (.ofSettings .default)).predicate.get = .ok predicate ∧
      (first.materialize false context).ComesTo slowWorld (.ok [.int64 1, .int64 2]) read ∧
      (second.materialize false context).ComesTo read (.ok [.int64 0]) later ∧
      (SourcePlan.sides first second [.int64 1, .int64 2] [.int64 0]).Decides free predicate
        context later := by
  intro context first second
  exact ⟨_, _, _, rfl, rfl, rfl, fun name => (slowWorld.request name).1, fun _ => true,
    fun pair _ => ⟨fun _ => rfl, slowCondition_arrives isFree rfl (.still 0) pair⟩⟩

/-- Beside clauses that do not go by time the condition may take its own. -/
theorem items_of_filter_or_join_slow :
    let metadata := Metadata.ofSettings .default
    let context : Context := ⟨.null, none, [], .default, .still 0⟩
    let first := Source.ofTable "a" "a"
    let second := Source.ofTable "b" "b"
    let query := everything []
    let pair (left : Int64) : Value := .record [("a", .int64 left), ("b", .int64 0)]
    metadata.joinFeature? .cross = some (.nestedLoop .cross) ∧
      metadata.joinFeature? .inner = some (.nestedLoop .inner) ∧ query.Untimed metadata ∧
      ∃ predicate byFilter byJoin,
        (slowCondition.compile metadata).predicate.get = .ok predicate ∧
        compile metadata (query.filtering (.table "a" none) (.table "b" none) slowCondition) =
          .ok byFilter ∧
        compile metadata (query.joining (.table "a" none) (.table "b" none) slowCondition) =
          .ok byJoin ∧
        (∀ rows read others later,
          (first.materialize false context).ComesTo slowWorld (.ok rows) read →
          (second.materialize false context).ComesTo read (.ok others) later →
          (SourcePlan.sides first second rows others).Decides (query.Untimed metadata) predicate
            context later) ∧
        (Stream.run none (byFilter.rows false context) slowWorld).items.map (·.2) =
          [.ok (pair 1), .ok (pair 2)] ∧
        (Stream.run none (byFilter.rows false context) slowWorld).items.map (·.2) =
          (Stream.run none (byJoin.rows false context) slowWorld).items.map (·.2) := by
  intro metadata context first second query pair
  have untimed : query.Untimed metadata := ensures_ok ⟨fun _ _ => rfl, nofun⟩
  rcases slowCondition_decides untimed with
    ⟨predicate, read, later, reads, takes, takesOther, decides⟩
  have premise : ∀ rows read others later,
      (first.materialize false context).ComesTo slowWorld (.ok rows) read →
      (second.materialize false context).ComesTo read (.ok others) later →
      (SourcePlan.sides first second rows others).Decides (query.Untimed metadata) predicate
        context later := by
    intro rows middle others after comes comesOther
    cases comes.symm.trans takes
    cases comesOther.symm.trans takesOther
    exact decides
  rcases @items_of_filter_or_join metadata rfl rfl query (.table "a" none) (.table "b" none)
    slowCondition with ⟨error, fails, _⟩ | ⟨_, _, condition, byFilter, byJoin, opens, opensOther,
      compiles, filters, joins, _, same⟩
  · cases fails
  · cases opens
    cases opensOther
    cases compiles.symm.trans reads
    refine ⟨rfl, rfl, untimed, predicate, byFilter, byJoin, reads, filters, joins, premise, ?_,
      same false context slowWorld premise none⟩
    have items : (Stream.run none (byFilter.rows false context) slowWorld).items =
        [(10, .ok (pair 1)), (20, .ok (pair 2))] := by
      cases filters
      dsimp only
      cbv
    exact congrArg (List.map (·.2)) items

/-! Where time matters. -/

def time : Expr :=
  .call ⟨"now", [], false, false⟩

/-- `NOT cast(now() AS boolean)`, which holds at no other instant -/
def atBeginning : Expr :=
  .not (.cast time "boolean")

def showing (value : Expr) : Select :=
  { everything [] with items := [.expression value (some "x")] }

def timed : Context :=
  ⟨.null, none, [], .default, ⟨Int64.ofNat⟩⟩

/-- `FROM a, b WHERE condition` and `FROM a JOIN b ON condition` bring these values. -/
def BringsApart (query : Select) (condition : Expr) (byFilter byJoin : List Value) : Prop :=
  ∃ filtered joined,
    compile (.ofSettings .default)
      (query.filtering (.table "a" none) (.table "b" none) condition) = .ok filtered ∧
    compile (.ofSettings .default)
      (query.joining (.table "a" none) (.table "b" none) condition) = .ok joined ∧
    (Stream.run none (filtered.rows false timed) slowWorld).items.map (·.2) = byFilter.map .ok ∧
    (Stream.run none (joined.rows false timed) slowWorld).items.map (·.2) = byJoin.map .ok

theorem bringsApart_of_timed {query : Select} {condition : Expr} {text other : String}
    {grouped grouping : Bool} {settings others : Settings}
    (filtered joined : Bool → Context → Opening (Stream Value))
    (filters : compile (.ofSettings .default)
      (query.filtering (.table "a" none) (.table "b" none) condition) =
        .ok ⟨text, grouped, settings, filtered⟩)
    (joins : compile (.ofSettings .default)
      (query.joining (.table "a" none) (.table "b" none) condition) =
        .ok ⟨other, grouping, others, joined⟩)
    (byFilter byJoin : List (Nat × Value))
    (first : (Stream.run none (filtered false timed) slowWorld).items = Run.shown byFilter)
    (second : (Stream.run none (joined false timed) slowWorld).items = Run.shown byJoin) :
    BringsApart query condition (byFilter.map (·.2)) (byJoin.map (·.2)) := by
  refine ⟨_, _, filters, joins, ?_, ?_⟩
  · rw [first, Run.shown, List.map_map, List.map_map]
    rfl
  · rw [second, Run.shown, List.map_map, List.map_map]
    rfl

/-- Of the pairs that the filter lets through at ten and at twenty milliseconds, each opens a window
of its own. The join puts both out at twenty. -/
theorem bringsApart_windowed :
    let pair (left : Int64) : Value := .record [("a", .int64 left), ("b", .int64 0)]
    BringsApart (everything [.call ⟨"interval", [.literal (.integer 15)], false, false⟩])
      slowCondition [pair 1, pair 2] [pair 1] := by
  intro pair
  exact bringsApart_of_timed _ _ rfl rfl [(15, pair 1), (20, pair 2)] [(20, pair 1)] (by cbv)
    (by cbv)

def showingTime : Pipeline :=
  ⟨.implicit, none, none,
    ⟨false, [.named "x"
      (.applyNow (fun time values => Value.formatNow .default time values.head?) [])]⟩,
    none, [], [], false, none⟩

theorem bringsApart_showingTime :
    let row (time : Int64) : Value := .record [("x", .dateTime time)]
    BringsApart (showing time) slowCondition [row 10, row 20] [row 20, row 20] := by
  intro row
  let first := Source.ofTable "a" "a"
  let second := Source.ofTable "b" "b"
  exact bringsApart_of_timed (showingTime.filtering first second _).rows
    (showingTime.joining first second _).rows rfl rfl [(10, row 10), (20, row 20)]
    [(20, row 20), (20, row 20)] (by cbv) (by cbv)

/-- The first row takes time in the select list, and then the filter asks what time it is. -/
theorem bringsApart_atBeginning :
    let row : Value := .record [("x", .int64 1)]
    BringsApart (showing slowValue) atBeginning [row] [row, row] := by
  intro row
  exact bringsApart_of_timed _ _ rfl rfl [(10, row)] [(10, row), (20, row)] (by cbv) (by cbv)

/-- `GROUP BY INTERVAL(15)` and `SELECT now()` behind a condition that takes time, and a condition
that goes by the clock. -/
theorem items_of_filter_or_join_timed :
    let pairs := (SourcePlan.sides (.ofTable "a" "a") (.ofTable "b" "b") [.int64 1, .int64 2]
      [.int64 0]).pairs
    let pair (left : Int64) : Value := .record [("a", .int64 left), ("b", .int64 0)]
    let row (value : Value) : Value := .record [("x", value)]
    (∃ slow timely,
      (slowCondition.compile (.ofSettings .default)).predicate.get = .ok slow ∧
      (atBeginning.compile (.ofSettings .default)).predicate.get = .ok timely ∧
      ∀ pair ∈ pairs,
        (slow timed pair).Arrives (fun name => (slowWorld.request name).1) True (.ok true) ∧
        ∀ now, ∃ holds, (timely timed pair).run now = .done (.ok holds)) ∧
    BringsApart (everything [.call ⟨"interval", [.literal (.integer 15)], false, false⟩])
      slowCondition [pair 1, pair 2] [pair 1] ∧
    BringsApart (showing time) slowCondition [row (.dateTime 10), row (.dateTime 20)]
      [row (.dateTime 20), row (.dateTime 20)] ∧
    BringsApart (showing slowValue) atBeginning [row (.int64 1)]
      [row (.int64 1), row (.int64 1)] := by
  intro pairs pair row
  exact ⟨⟨_, _, rfl, rfl, fun pair _ => ⟨slowCondition_arrives trivial rfl ⟨Int64.ofNat⟩ pair,
    fun now => ⟨_, rfl⟩⟩⟩, bringsApart_windowed, bringsApart_showingTime, bringsApart_atBeginning⟩

end Select

end StreamQuery
