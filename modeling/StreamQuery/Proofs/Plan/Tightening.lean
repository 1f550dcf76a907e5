import StreamQuery.Proofs.Plan.Statements
import StreamQuery.Proofs.Window.StrictGroups
namespace StreamQuery

/-! Statements are run more strictly under the policy to fail than under the policy to skip: the
policy shows where a record fails, also in a select inside. -/

def Settings.withPolicy (policy : ErrorPolicy) (settings : Settings) : Settings :=
  { settings with errorPolicy := policy }

namespace Correspondence

def ofPolicies : Correspondence where
  left := Settings.withPolicy .fail
  right := Settings.withPolicy .skip
  clocks := Eq
  sharing := True
  evaluations := Evaluation.Stricter
  streams := Stream.Stricter
  openings := Opening.Related Stream.Stricter
  reading same _ := same ▸ Evaluation.stricter_reading _
  ok := Evaluation.stricter_ok
  thenCheck stricter _ := stricter.thenCheck _
  andThen := Evaluation.Stricter.andThen
  both := Evaluation.Stricter.both
  defer := Evaluation.Stricter.defer
  firstValue _ related := Opening.Related.map related fun _ _ stricter now =>
    (stricter now).first fun error => ⟨error, rfl⟩
  collect related := Opening.Related.map related fun _ _ stricter now => (stricter now).collect [] now
  request _ := .opening fun _ => .done fun _ => .refl _
  defaultSource _ := rfl
  opened := .done
  mapOpened related maps := Opening.Related.map related maps
  single _ _ := .refl _
  joined stricter now := Feed.stricter_afterTask (stricter.run now) (fun _ _ => .refl _)
    (fun error now other => Feed.stricter_error error other now) now
  process _ stricter steps now := (stricter now).process steps now
  group alike contributions stricter := by
    obtain ⟨base, rfl, rfl⟩ := alike.exists_base trivial
    exact Grouping.stricter_group contributions stricter
  distinct stricter now := (stricter now).distinct [] now
  sort descending stricter now := (stricter now).sort descending now
  row stricter now := (stricter now).map Shaped.row
  limit limit stricter := Limit.stricter_apply stricter limit

end Correspondence

def Plan.Tightens (plan : Plan) : Prop :=
  ∀ (nested : Bool) (context : Context),
    (plan.rows nested (context.withPolicy .fail)).Related Stream.Stricter
      (plan.rows nested (context.withPolicy .skip))

theorem Select.compile_tightens (metadata : Metadata) (query : Select) :
    Ensures (Select.compile metadata query) Plan.Tightens :=
  (Select.compile_respects (.of_sharing trivial) query).imp fun _ respects nested context =>
    respects nested (Correspondence.ofPolicies.alike false context rfl)

end StreamQuery
