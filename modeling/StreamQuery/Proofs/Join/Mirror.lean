import Mathlib.Order.Compare
import StreamQuery.Join.NestedLoop
import StreamQuery.Plan.Choice
import StreamQuery.Proofs.Value.Fields
namespace StreamQuery

/-! A right join and the left join with its sides exchanged are the same work on the same pairs. -/

theorem JoinInput.combine_comm (input other : JoinInput)
    (different : input.rightLabel ≠ other.rightLabel) (left right : Value) :
    input.combine (.record [(other.rightLabel, left)]) right =
      other.combine (.record [(input.rightLabel, right)]) left :=
  congrArg Value.record (Record.insert_comm different.symm .empty left right)

namespace NestedLoop

variable {condition : Option Predicate} {context : Context} {pairs padding : Value → List Value}

theorem joinEach_map (transform : Value → Value) (rows : List Value) :
    joinEach condition context pairs padding (rows.map transform) =
      joinEach condition context (fun row => pairs (transform row))
        (fun row => padding (transform row)) rows := by
  induction rows with
  | nil => rfl
  | cons row rest induction => simp only [List.map_cons, joinEach, induction]

/-- The work is the same, with the same rows in the same order, the same padding, and the same
error at the same pair. -/
theorem join_right_eq_join_left {leftLabel rightLabel : String} (different : leftLabel ≠ rightLabel)
    (left right : List Value) (condition : Option Predicate) (context : Context) :
    join .right ⟨qualify leftLabel left, [leftLabel], right, rightLabel⟩ condition context =
      join .left ⟨qualify rightLabel right, [rightLabel], left, leftLabel⟩ condition context := by
  let input : JoinInput := ⟨qualify leftLabel left, [leftLabel], right, rightLabel⟩
  let mirrored : JoinInput := ⟨qualify rightLabel right, [rightLabel], left, leftLabel⟩
  have pair (partner row : Value) : input.combine (.record [(leftLabel, partner)]) row =
      mirrored.combine (.record [(rightLabel, row)]) partner :=
    input.combine_comm mirrored different.symm partner row
  have pairs (row : Value) : (qualify leftLabel left).map (input.combine · row) =
      left.map (mirrored.combine (.record [(rightLabel, row)])) := by
    rw [qualify, List.map_map]
    exact List.map_congr_left fun partner _ => pair partner row
  have padding (row : Value) : [input.combine input.nullLeft row] =
      [mirrored.combine (.record [(rightLabel, row)]) .null] := congrArg ([·]) (pair .null row)
  calc join .right input condition context
      = joinEach condition context
          (fun row => left.map (mirrored.combine (.record [(rightLabel, row)])))
          (fun row => [mirrored.combine (.record [(rightLabel, row)]) .null]) right := by
        rw [← funext pairs, ← funext padding]
        rfl
    _ = join .left mirrored condition context := by
        simp only [join, mirrored, qualify, joinEach_map]

/-- Of two rows on each side one pair is alike, and the other row on the right is padded. -/
theorem join_right_eq_join_left_padded :
    let alike := Predicate.ofPair Comparison.equal.holds (.column ⟨none, "a"⟩)
      (.column ⟨none, "b"⟩)
    let context : Context := ⟨.null, none, [], Settings.default, .still 0⟩
    let left : List Value := [.int64 1, .int64 2]
    let right : List Value := [.int64 2, .int64 3]
    "a" ≠ "b" ∧
      join .right ⟨qualify "a" left, ["a"], right, "b"⟩ (some alike) context =
        join .left ⟨qualify "b" right, ["b"], left, "a"⟩ (some alike) context ∧
      (join .left ⟨qualify "b" right, ["b"], left, "a"⟩ (some alike) context).run 0 =
        .done (.ok [.record [("a", .int64 2), ("b", .int64 2)],
          .record [("a", .null), ("b", .int64 3)]]) := by
  intro alike context left right
  have different : "a" ≠ "b" := by decide
  exact ⟨different, join_right_eq_join_left different left right (some alike) context, by cbv⟩

end NestedLoop

end StreamQuery
