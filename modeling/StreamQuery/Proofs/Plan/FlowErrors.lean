import StreamQuery.Proofs.Plan.JoinFailures
import StreamQuery.Proofs.Plan.Statements
namespace StreamQuery

/-! The errors of a statement that has been compiled. What is wrong with the statement itself has come
out by then. Its runs fail for values that cannot be cast, for their sources, and at the limit of
groups. -/

namespace QueryError

theorem arises_of_isFatal (error : QueryError) (fatal : error.isFatal) : error.arises := by
  cases error <;> first | rfl | cases fatal

theorem arises_iff (error : QueryError) :
    error.arises ↔ (∃ value target, error = .cast value target) ∨
      (∃ name message, error = .source name message) ∨ ∃ limit, error = .groupLimit limit := by
  cases error <;> simp [arises]

end QueryError

theorem Select.valueOfFirst_fails (query : Select)
    (found : Option (Except QueryError Value)) (fails : ∀ item ∈ found, FailsInFlow item) :
    FailsInFlow (query.valueOfFirst found) := by
  cases found with
  | none => exact failsOnly_ok _
  | some item => exact (fails item rfl).map query.valueOfRow

namespace Correspondence

/-- The left side has no failures but those that arise while records flow. The settings are left as
they are, and nothing is said of the right side. -/
def ofErrors : Correspondence where
  left := id
  right := id
  clocks := Eq
  sharing := True
  evaluations evaluation _ := evaluation.FailsOnly (·.arises)
  streams stream _ := Stream.FailsOnly (·.arises) stream
  openings opening _ := opening.Always Script.FailsAsSource (Stream.FailsOnly (·.arises))
  reading _ fails := Evaluation.failsOnly_reading fun _ => (fails _).inFlow
  ok := Evaluation.failsOnly_ok
  thenCheck fails checks := fails.thenCheck fun value gives =>
    (checks value (gives.mono fun _ _ => trivial)).inFlow
  andThen := Evaluation.FailsOnly.andThen
  both := Evaluation.FailsOnly.both
  defer := Evaluation.FailsOnly.defer
  firstValue query fails :=
    fails.failsOnly fun _ fails now => (fails now).first query.valueOfFirst_fails
  collect fails := fails.failsOnly fun _ fails now => (fails now).collect [] now
  request := Source.failsOnly_request QueryError.arises_of_isFatal
  defaultSource _ := rfl
  opened := .done
  mapOpened fails maps := fails.map fun stream streamFails => maps stream stream streamFails
  single _ := Feed.failsOnly_ofItems (List.forall_mem_singleton.mpr (failsOnly_ok _))
  joined fails now := Feed.each_afterTask
    (fun result later gives => Feed.failsOnly_ofResult (fails.run now result gives) later) now
  process _ fails steps now := (fails now).process (fun value error canFail _ =>
    steps value error canFail) now
  group _ contributions fails := Grouping.failsOnly_group
    (fun _ refuses _ => refuses.isAllowed contributions fun _ arises => arises) fails
  distinct fails now := (fails now).distinct [] now
  sort descending fails now := (fails now).sort descending now
  row fails now := (fails now).map Shaped.row
  limit limit fails := limit.failsOnly_apply fails

end Correspondence

/-- Whatever it selects from and nests, a statement that compiles runs into errors of values, of
sources and of the group limit only. No function misses an operand: it is compiled for operands
in a number that it accepts, and reads no others. -/
theorem rows_errors_arise (metadata : Metadata) (query : Select) {plan : Plan}
    (compiles : Select.compile metadata query = .ok plan) (nested : Bool) (context : Context)
    (wanted : Option Nat) {world : World} (sources : world.sources.FailAsSources) :
    (∀ instant error,
      (instant, .error error) ∈ (Stream.run wanted (plan.rows nested context) world).items →
        (∃ value target, error = .cast value target) ∨
          (∃ name message, error = .source name message) ∨ ∃ limit, error = .groupLimit limit) ∧
    (∀ (metadata : Metadata) (feature : ValueFeature) (expr : Expr) (node : Node)
      (parts : List Compiled) (mapper : Mapper), node.operands? = some parts →
        feature.compile metadata expr node = .ok mapper →
        ∃ operands, operands.length ≤ parts.length ∧ mapper.Applies operands) ∧
    ∀ (function : ScalarFunction) (operands : List Value),
      function.arity.accepts operands.length → (function.result? operands).isSome := by
  refine ⟨fun instant error shown => ?_, ?_, fun _ _ => ScalarFunction.result?_isSome⟩
  · have suits : metadata.Suits .ofErrors false := .of_sharing trivial
    have respects := Select.compile_respects suits query plan compiles
    have fails := respects nested (Correspondence.ofErrors.alike false context rfl)
    exact (error.arises_iff).mp (Stream.failsOnly_run fails wanted world sources _ shown error rfl)
  · intro metadata feature expr node parts mapper found compiles
    rcases feature.compile_applies found mapper compiles with ⟨operands, source, applies⟩
    refine ⟨operands, ?_, applies⟩
    rcases source with rfl | compiled
    · exact Nat.zero_le _
    · exact Nat.le_of_eq (ensures_mapM_length operands compiled)

/-- `SELECT (SELECT cast(this as int)) FROM a`. -/
def Select.nestedCast : Select :=
  let inner : Select :=
    ⟨false, [.expression (.cast (.column ⟨none, "this"⟩) "int") none], none, [], none, [], none, [],
      none⟩
  ⟨false, [.expression (.subselect inner) none], some (.table "a" none), [], none, [], none, [], none⟩

/-- The error of the inner statement shows in the run of the outer one. -/
theorem rows_errors_arise_nestedCast :
    let metadata := Metadata.ofSettings Settings.default
    let context : Context := ⟨.null, none, [], metadata.settings, .still 0⟩
    let world := World.start (.named [] [("a", [.string "1", .string "x"])])
    let error := QueryError.cast "x" "int"
    ∃ plan, Select.compile metadata .nestedCast = .ok plan ∧ world.sources.FailAsSources ∧
      (0, .error error) ∈ (Stream.run none (plan.rows false context) world).items ∧
      ((∃ value target, error = .cast value target) ∨
        (∃ name message, error = .source name message) ∨ ∃ limit, error = .groupLimit limit) := by
  intro metadata context world error
  have sources : world.sources.FailAsSources := fun _ member => nomatch member
  obtain ⟨plan, compiles, shown⟩ : ∃ plan, Select.compile metadata .nestedCast = .ok plan ∧
      (Stream.run none (plan.rows false context) world).items.map
          (fun entry => (entry.1, entry.2.map fun _ => ())) =
        [(0, .ok ()), (0, .error error)] := ⟨_, rfl, by decide +kernel⟩
  have member : (0, .error error) ∈ (Stream.run none (plan.rows false context) world).items := by
    have last : (0, .error error) ∈ (_ : List (Nat × Except QueryError Unit)) :=
      shown ▸ List.mem_cons_of_mem _ List.mem_cons_self
    rcases List.mem_map.mp last with ⟨⟨_, _ | _⟩, member, same⟩ <;> cases same
    exact member
  have arise := rows_errors_arise metadata .nestedCast compiles false context none sources
  exact ⟨plan, compiles, sources, member, arise.1 0 error member⟩

end StreamQuery
