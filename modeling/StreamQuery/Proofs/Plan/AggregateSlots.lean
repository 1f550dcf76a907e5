import StreamQuery.Proofs.Plan.AggregateCalls
import StreamQuery.Proofs.Window.GroupRows
namespace StreamQuery

/-! Where a statement names an aggregate call, it reads the slot that the call has in the set, and
what it reads there is what the call by itself comes to over the records of the group. -/

/-- The value is what the aggregate by itself comes to over the records, for each of which its
argument has been evaluated. -/
def AggregateSpec.YieldsOver (spec : AggregateSpec) (context : Context) (entries : List Entry)
    (value : Value) : Prop :=
  ∃ operands, List.Forall₂ (fun entry operand =>
      (spec.operand (context.withRow entry.row)).Gives (fun _ => True) (.ok operand))
    entries operands ∧ spec.aggregation.over operands = .ok value

def AggregateSet.slot (position : Nat) : Mapper := fun context =>
  .ok (context.aggregates.getD position .null)

theorem GroupRow.From.reads {grouping : Grouping} {closed : OpenWindows}
    {records : Nat → List Entry} {entries : List Entry} {row : GroupRow} {position : Nat}
    {spec : AggregateSpec} (made : row.From grouping closed records entries)
    (given : ∀ id, ∀ entry ∈ records id, entry.GivenBy grouping context)
    (present : grouping.aggregates[position]? = some spec) :
    ∃ value, spec.YieldsOver context entries value ∧ ∀ outer : Context,
      AggregateSet.slot position (outer.withGroup row.sample row.aggregates) = .ok value := by
  rcases made.aggregate present with ⟨value, result, folds⟩
  refine ⟨value, ⟨entries.map (Entry.operand position), ?_, folds⟩, fun outer => ?_⟩
  · rw [List.forall₂_map_right_iff, List.forall₂_same]
    exact fun entry member => (made.given given entry member).operand present
  · simp [AggregateSet.slot, Context.withGroup, result]

/-! The names of the calls stand for the slots, and any other name for what it did before. -/

theorem Metadata.find?_withStatementFeature (metadata : Metadata) (id : FeatureId)
    (feature : Feature) (wanted : FeatureId) :
    (metadata.withStatementFeature id feature).find? wanted =
      if id = wanted then some feature else metadata.find? wanted := by
  simp only [Metadata.find?, Metadata.withStatementFeature, Registry.find?_insert]
  split <;> simp

namespace AggregateSet

variable {metadata : Metadata} {set : AggregateSet}

theorem find?_install (set : AggregateSet) (metadata : Metadata) (id : FeatureId) :
    (set.install metadata).find? id =
      if ∃ call ∈ set.calls, FeatureId.of .valueMap call.name = id
      then some (.valueMap (.slots set.calls)) else metadata.find? id := by
  -- The slots are those of all calls, whichever names have been installed so far.
  suffices general : ∀ calls : List Call, (calls.foldl (fun metadata call =>
      metadata.withStatementFeature (.of .valueMap call.name) (.valueMap (.slots set.calls)))
      metadata).find? id =
        if ∃ call ∈ calls, FeatureId.of .valueMap call.name = id
        then some (.valueMap (.slots set.calls)) else metadata.find? id from general set.calls
  intro calls
  induction calls generalizing metadata with
  | nil => simp
  | cons first rest induction =>
      rw [List.foldl_cons, induction, Metadata.find?_withStatementFeature]
      by_cases later : ∃ call ∈ rest, FeatureId.of .valueMap call.name = id
      · simp [later]
      · simp [later]

theorem valueFeature?_install {application : Call} (member : application ∈ set.calls) :
    (set.install metadata).valueFeature? application.name = some (.slots set.calls) := by
  have found := set.find?_install metadata (.of .valueMap application.name)
  rw [if_pos ⟨application, member, rfl⟩] at found
  simp only [Metadata.valueFeature?, found]

theorem valueFeature?_install_other {name : String}
    (other : ∀ call ∈ set.calls, FeatureId.of .valueMap call.name ≠ FeatureId.of .valueMap name) :
    (set.install metadata).valueFeature? name = metadata.valueFeature? name := by
  have free : ¬∃ call ∈ set.calls, FeatureId.of .valueMap call.name = FeatureId.of .valueMap name :=
    fun ⟨call, member, same⟩ => other call member same
  simp only [Metadata.valueFeature?, find?_install, if_neg free]

/-! A call finds its own slot, if it is taken for no other call. -/

theorem findIdx?_equals {calls : List Call} {application : Call}
    (definite : ∀ other ∈ calls, other.isDefinite) (member : application ∈ calls) :
    ∃ position, calls.findIdx? (fun collected => collected.equals application) = some position ∧
      calls[position]? = some application := by
  have same {other : Call} (among : other ∈ calls) :
      other.equals application ↔ other = application :=
    Call.equals_iff _ _ (definite other among) (definite application member)
  cases found : calls.findIdx? fun collected => collected.equals application with
  | none =>
      have different := List.findIdx?_eq_none_iff.mp found application member
      rw [(same member).mpr rfl] at different
      cases different
  | some position =>
      rcases List.findIdx?_eq_some_iff_getElem.mp found with ⟨bound, equal, _⟩
      have own := (same (List.getElem_mem bound)).mp equal
      exact ⟨position, rfl, own ▸ List.getElem?_eq_getElem bound⟩

theorem compile_install {application : Call} (member : application ∈ set.calls) :
    ((Expr.call application).compile (set.install metadata)).value.get =
      match set.calls.findIdx? fun collected => collected.equals application with
      | some position => .ok (slot position)
      | none => .error (.unsupportedExpression (Expr.call application).text) := by
  have feature : (set.install metadata).valueFeature? application.name = some (.slots set.calls) :=
    valueFeature?_install member
  rcases application with ⟨name, arguments, star, distinct⟩
  simp only [Expr.compile, Expr.node]
  change Node.namedValue (set.install metadata) .valueMap name _ _ = _
  simp only [Node.namedValue, Node.byFunction?, feature, Option.map_some, ValueFeature.compile,
    ValueFeature.compileSlot]
  cases set.calls.findIdx? fun collected => collected.equals ⟨name, arguments, star, distinct⟩ <;> rfl

/-! What a set is made of. -/

theorem ofCalls_ok {calls : List AggregateCall} (collects : ofCalls calls = .ok set) :
    set.calls = (calls.foldl addCall []).map (·.call) ∧
      List.Forall₂ (fun next spec => next.spec.get = .ok spec) (calls.foldl addCall []) set.specs := by
  simp only [ofCalls, bind, Except.bind] at collects
  split at collects
  · cases collects
  · next compiled =>
      cases collects
      exact ⟨rfl, forall₂_of_mapM_ok compiled⟩

theorem ofCalls_singleton {next : AggregateCall} (compiled : next.spec.get = .ok spec) :
    ofCalls [next] = .ok ⟨[next.call], [spec]⟩ := by
  have kept : [next].foldl addCall [] = [next] := rfl
  simp only [ofCalls, kept, List.mapM_cons, List.mapM_nil, compiled]
  rfl

theorem ofExprs_call {found : AggregateCall} (compiles : found.Compiles metadata)
    (compiled : found.spec.get = .ok spec) :
    ofExprs metadata [.call found.call] = .ok ⟨[found.call], [spec]⟩ := by
  rcases compiles with ⟨feature, known, same⟩
  simp only [ofExprs, Expr.aggregatesOfAll, Expr.aggregates_of_some known, List.append_nil]
  exact ofCalls_singleton (same.symm.trans compiled)

/-- The call compiles to the aggregate by itself, and to the reading where the set is installed. -/
structure Compiles (set : AggregateSet) (metadata : Metadata) (application : Call)
    (spec : AggregateSpec) (reading : Mapper) : Prop where
  alone : ofExprs metadata [.call application] = .ok ⟨[application], [spec]⟩
  reads : ((Expr.call application).compile (set.install metadata)).value.get = .ok reading

/-- Every call is found in the expressions, and every call that is found has its own slot. -/
structure Covers (set : AggregateSet) (metadata : Metadata) (exprs : List Expr) : Prop where
  nodup : set.calls.Nodup
  mem_iff : ∀ application,
    application ∈ set.calls ↔ ∃ expr ∈ exprs, expr.HasAggregate metadata application

theorem Compiles.unique {application : Call} {spec other : AggregateSpec} {reading mapper : Mapper}
    (compiles : set.Compiles metadata application spec reading)
    (same : set.Compiles metadata application other mapper) : spec = other ∧ reading = mapper := by
  have alone := Except.ok.inj (compiles.alone.symm.trans same.alone)
  injection alone with _ specs
  exact ⟨List.singleton_inj.mp specs, Except.ok.inj (compiles.reads.symm.trans same.reads)⟩

section

variable {exprs : List Expr} (collects : ofExprs metadata exprs = .ok set)
  (definite : ∀ expr ∈ exprs, ∀ application, expr.HasAggregate metadata application →
    application.isDefinite)
include collects definite

theorem exists_keepsOnce :
    ∃ kept, KeepsOnce (exprs.flatMap (Expr.aggregates metadata)) kept ∧
      set.calls = kept.map (·.call) ∧
      List.Forall₂ (fun next spec => next.spec.get = .ok spec) kept set.specs := by
  rw [ofExprs, Expr.aggregatesOfAll_eq] at collects
  refine ⟨_, keepsOnce_foldl ?_, ofCalls_ok collects⟩
  intro next member
  rcases List.mem_flatMap.mp member with ⟨expr, among, member⟩
  exact definite expr among _ (expr.compiles_of_mem member).2

theorem covers_of_ofExprs : set.Covers metadata exprs := by
  rcases exists_keepsOnce collects definite with ⟨kept, keeps, calls, _⟩
  refine ⟨calls ▸ keeps.nodup, fun application => ?_⟩
  rw [calls]
  constructor
  · intro member
    rcases List.mem_map.mp member with ⟨found, among, rfl⟩
    rcases List.mem_flatMap.mp (keeps.subset among) with ⟨expr, member, among⟩
    exact ⟨expr, member, (expr.compiles_of_mem among).2⟩
  · rintro ⟨expr, member, has⟩
    rcases has.exists_mem with ⟨found, among, rfl⟩
    exact keeps.covers found (List.mem_flatMap_of_mem member among)

theorem compiles_of_mem_calls {application : Call} (member : application ∈ set.calls) :
    ∃ position spec, set.specs[position]? = some spec ∧
      set.Compiles metadata application spec (slot position) := by
  have covers := covers_of_ofExprs collects definite
  have definiteCalls : ∀ other ∈ set.calls, other.isDefinite := by
    intro other among
    rcases (covers.mem_iff other).mp among with ⟨expr, member, has⟩
    exact definite expr member other has
  rcases findIdx?_equals definiteCalls member with ⟨position, found, own⟩
  rcases exists_keepsOnce collects definite with ⟨kept, keeps, calls, compiled⟩
  rw [calls, List.getElem?_map] at own
  rcases Option.map_eq_some_iff.mp own with ⟨next, at_, rfl⟩
  rcases List.getElem?_eq_some_iff.mp at_ with ⟨bound, rfl⟩
  rcases List.forall₂_iff_get.mp compiled with ⟨length, pointwise⟩
  have specBound : position < set.specs.length := length ▸ bound
  rcases List.mem_flatMap.mp (keeps.subset (List.getElem_mem bound)) with ⟨expr, _, among⟩
  refine ⟨position, set.specs[position], List.getElem?_eq_getElem specBound, ?_⟩
  exact ⟨ofExprs_call (expr.compiles_of_mem among).1 (pointwise position bound specBound),
    by rw [compile_install member, found]⟩

/-- Over expressions whose aggregate calls write definite literals, every call that stands in one of
them has a slot of its own and compiles. In every run of groups with the aggregates of the set, it
reads from every row what it comes to by itself over the records of the group. -/
theorem calls_read_slots :
    set.Covers metadata exprs ∧
      (∀ application ∈ set.calls, ∃ spec reading,
        set.Compiles metadata application spec reading) ∧
      ∀ (keys : List Mapper) (window : Option Window) (context : Context) (stream : Stream Value)
        (started : Nat) (wanted : Option Nat) (world : World)
        (before : List (Nat × Except QueryError GroupTurn)) (instant : Nat) (turn : GroupTurn)
        (after : List (Nat × Except QueryError GroupTurn)),
        let grouping : Grouping := ⟨keys, window, set.specs⟩
        let records := (grouping.ledger (Grouping.turnsOf before)).take grouping turn
        (Feed.run wanted (stream.turns grouping context started) world).items =
            before ++ (instant, .ok turn) :: after →
          ∀ row ∈ turn.rows grouping, ∃ entries, row.From grouping turn.closed records entries ∧
            ∀ application ∈ set.calls, ∀ spec reading,
              set.Compiles metadata application spec reading →
                ∃ value, spec.YieldsOver context entries value ∧ ∀ outer : Context,
                  reading (outer.withGroup row.sample row.aggregates) = .ok value := by
  refine ⟨covers_of_ofExprs collects definite, ?_, ?_⟩
  · intro application member
    rcases compiles_of_mem_calls collects definite member with ⟨position, spec, _, compiles⟩
    exact ⟨spec, _, compiles⟩
  · intro keys window context stream started wanted world before instant turn after grouping records
      shown row member
    rcases Grouping.rows_from_ledger grouping context stream started wanted world shown with
      ⟨given, made⟩
    rcases made row member with ⟨entries, made⟩
    refine ⟨entries, made, fun application among spec reading compiles => ?_⟩
    rcases compiles_of_mem_calls collects definite among with ⟨position, own, present, same⟩
    rcases compiles.unique same with ⟨rfl, rfl⟩
    exact made.reads given present

end

/-- `max(this)`, written twice, has one slot, and over the records 3 and 1 it is read there as 3. -/
theorem calls_read_slots_maxTwice :
    let metadata := Metadata.ofSettings .default
    let context : Context := ⟨.null, none, [], .default, .still 0⟩
    let max : Call := ⟨"max", [.column ⟨none, "this"⟩], false, false⟩
    let spec : AggregateSpec := ⟨some (Mapper.column ⟨none, "this"⟩), .maximum⟩
    let set : AggregateSet := ⟨[max], [spec]⟩
    let table : GroupTable :=
      ⟨[⟨.int64 3, [.maximum (some (.int64 3))]⟩], SlotIndex.empty.insert [] 0⟩
    ofExprs metadata [.call max, .call max] = .ok set ∧
      set.Covers metadata [.call max, .call max] ∧
      ∃ records entries,
        GroupRow.From ⟨[], none, set.specs⟩ [(0, table)] records entries ⟨.int64 3, [.int64 3]⟩ ∧
          spec.YieldsOver context entries (.int64 3) := by
  intro metadata context max spec set table
  have same : max.equals max = true := by decide +kernel
  have collects : ofExprs metadata [.call max, .call max] = .ok set := by
    let found : AggregateCall := ⟨max, Thunk.mk fun _ => .ok spec⟩
    have kept : (Expr.aggregatesOfAll metadata [.call max, .call max]).foldl addCall [] = [found] := by
      change [found, found].foldl addCall [] = [found]
      simp [addCall, found, same]
    rw [ofExprs, ofCalls, kept]
    rfl
  have held := calls_read_slots collects fun expr member application has =>
    has.isDefinite ((Expr.allDefinite_iff [.call max, .call max]).mp rfl expr member)
  refine ⟨collects, held.1, ?_⟩
  let stream : Stream Value := Feed.ofItems [.ok (.int64 3), .ok (.int64 1)]
  let items := (Feed.run none (stream.turns ⟨[], none, set.specs⟩ context 0)
    (.start (.named [] []))).items
  let turn : GroupTurn := ⟨.completed, [(0, table)], ⟨[], 2, 0, false⟩⟩
  have shown : items = items.take 2 ++ (0, .ok turn) :: [] := by
    subst stream table set spec max context
    rfl
  rcases held.2.2 [] none context stream 0 none _ _ 0 turn [] shown _ List.mem_cons_self with
    ⟨entries, made, reads⟩
  have compiles : set.Compiles metadata max spec (slot 0) :=
    ⟨rfl, by rw [compile_install List.mem_cons_self, List.findIdx?_cons, if_pos same]⟩
  rcases reads max List.mem_cons_self _ _ compiles with ⟨value, yields, reading⟩
  have three : Value.int64 3 = value := by
    have done := congrFun (Opening.done.inj (reading context)) 0
    exact Except.ok.inj (Task.done.inj done)
  exact ⟨_, entries, made, three ▸ yields⟩

/-- A literal that is not a number differs from itself: the call is collected, but finds no slot. -/
theorem slot_of_maxNaN_missing :
    let metadata := Metadata.ofSettings .default
    let application : Call := ⟨"max", [.literal (.float (Binary.nan false))], false, false⟩
    ∃ set, ofExprs metadata [.call application] = .ok set ∧ set.calls = [application] ∧
      ((Expr.call application).compile (set.install metadata)).value.get =
        .error (.unsupportedExpression "max(NaN)") := by
  intro metadata application
  have missing : [application].findIdx? (fun collected => collected.equals application) = none := by
    decide +kernel
  let spec : AggregateSpec := ⟨some (Mapper.constant (.double (Binary.nan false))), .maximum⟩
  refine ⟨⟨[application], [spec]⟩, rfl, rfl, ?_⟩
  rw [compile_install List.mem_cons_self, missing]
  rfl

/-- The two zeros are taken for one, so that calls that differ in them share a slot. -/
example :
    let max (zero : Double) : Call := ⟨"max", [.cast (.literal (.float zero)) "string"], false, false⟩
    (max (Binary.zero false)).equals (max (Binary.zero true)) := by
  decide +kernel

end AggregateSet

end StreamQuery
