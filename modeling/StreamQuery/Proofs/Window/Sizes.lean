import StreamQuery.Plan.Compile
import StreamQuery.Proofs.Plan.Nodes
namespace StreamQuery

/-! Every window that a statement calls for has a size, and a step from one window to the next.
What durations and numbers of records are, sizes and steps are as well. -/

namespace Window

def Positive : Window → Prop
  | .time size step | .count size step => 0 < size ∧ 0 < step
  | .predicate _ => True

def Measures (holds : Nat → Prop) : Window → Prop
  | .time size step | .count size step => holds size ∧ holds step
  | .predicate _ => True

variable {holds : Nat → Prop}

theorem tumbling_measures (durations : ∀ call expr, Ensures (duration call expr) holds)
    (call : Call) (argument : Expr) : Ensures (tumbling call argument) (Measures holds) :=
  (durations call argument).map fun _ sized => ⟨sized, sized⟩

theorem sliding_measures (durations : ∀ call expr, Ensures (duration call expr) holds)
    (call : Call) (first second : Expr) :
    Ensures (sliding call first second) (Measures holds) := by
  refine (durations call first).bind fun one valid => ?_
  refine (durations call second).bind fun other validOther => ?_
  apply ensures_ok
  rcases Nat.le_total one other with below | above
  · rw [Nat.max_eq_right below, Nat.min_eq_left below]
    exact ⟨validOther, valid⟩
  · rw [Nat.max_eq_left above, Nat.min_eq_right above]
    exact ⟨valid, validOther⟩

theorem positiveDuration_positive (call : Call) (millis : Nat) :
    Ensures (positiveDuration call millis) (0 < ·) := by
  simp only [positiveDuration]
  split
  · exact ensures_error _
  · next some => exact ensures_ok (Nat.pos_of_ne_zero some)

theorem duration_positive (call : Call) (expr : Expr) : Ensures (duration call expr) (0 < ·) := by
  simp only [duration]
  split
  · exact (ensures_true _).bind fun millis _ => positiveDuration_positive call millis
  · exact positiveDuration_positive call _
  · exact ensures_error _

theorem recordCount_positive (call : Call) (records : Int64) :
    Ensures (recordCount call records) (0 < ·) := by
  simp only [recordCount]
  split
  · apply ensures_ok
    omega
  · exact ensures_error _

end Window

namespace GroupFeature

theorem compile_measures {holds : Nat → Prop}
    (durations : ∀ call expr, Ensures (Window.duration call expr) holds)
    (counts : ∀ call records, Ensures (Window.recordCount call records) holds)
    (feature : GroupFeature) (call : Call) (arguments : List Compiled) :
    Ensures (feature.compile call arguments) (Window.Measures holds) := by
  cases feature with
  | interval =>
      simp only [compile, compileInterval]
      split
      · exact Window.tumbling_measures durations call _
      · exact ensures_error _
  | window =>
      simp only [compile, compileWindow]
      split
      · exact (counts call _).map fun _ sized => ⟨sized, sized⟩
      · exact Window.tumbling_measures durations call _
      · exact (ensures_true _).map fun _ _ => trivial
      · exact (counts call _).bind fun _ sized =>
          (counts call _).bind fun _ stepped => ensures_ok ⟨sized, stepped⟩
      · exact Window.sliding_measures durations call _ _
      · exact ensures_error _

theorem compile_positive (feature : GroupFeature) (call : Call) (arguments : List Compiled) :
    Ensures (feature.compile call arguments) Window.Positive := by
  refine (compile_measures Window.duration_positive Window.recordCount_positive feature call
    arguments).imp fun window measures => ?_
  cases window <;> exact measures

end GroupFeature

namespace GroupClause

def Positive (clause : GroupClause) : Prop :=
  ∀ window ∈ clause.window, window.Positive

variable {metadata : Metadata}

theorem add_positive {clause : GroupClause} (positive : clause.Positive) (expr : Expr)
    (node : Node) : Ensures (clause.add metadata expr node) Positive := by
  simp only [add]
  split
  · next found =>
      split
      · exact ensures_error _
      · simp only [window?] at found
        split at found
        · rcases Option.map_eq_some_iff.mp found with ⟨feature, _, rfl⟩
          refine (feature.compile_positive _ _).map fun window sized => ?_
          intro other same
          cases same
          exact sized
        · cases found
  · exact (ensures_true _).map fun _ _ => positive

theorem compile_positive (parts : List (Expr × Node)) :
    Ensures (compile metadata parts) Positive :=
  ensures_foldlM (fun part _ _ positive => add_positive positive part.1 part.2)
    fun _ none => nomatch none

end GroupClause

end StreamQuery
