import StreamQuery.Function.Scalar
import StreamQuery.Proofs.FirstUnbeaten
import StreamQuery.Proofs.Value.Comparisons
import StreamQuery.Proofs.Value.Operands
namespace StreamQuery

/-! The greatest and the least of operands that count as numbers. Operands are compared as they
stand, and two texts are compared as texts. -/

namespace Value

variable {operands : List Value} {left right : Value} {x y : Number} {wanted : Ordering}

/-! Which operands are compared as the numbers that they count as. -/

def ComparedAsNumbers (operands : List Value) : Prop :=
  ∀ left ∈ present operands, ∀ right ∈ present operands,
    left.compare? right = left.compareNumbers? right

theorem timestamp_of_integer {text : String} {whole : Int64}
    (writes : (string text).asNumber? = some (.int whole)) :
    Timestamp.ofString? text = some whole := by
  simp only [asNumber?, Number.ofString?, Text.trim, String.toList_ofList] at writes
  rw [Timestamp.ofString?]
  cases digits : Digits.int64? (Text.trimCharacters text.toList) with
  | none => simp [digits] at writes
  | some value => simpa [digits] using writes

theorem compareNumbers?_of_numbers (first : left.asNumber? = some x)
    (second : right.asNumber? = some y) : left.compareNumbers? right = x.compare? y := by
  rw [compareNumbers?, first, second]

theorem compare?_eq_compareNumbers? (first : left.asNumber? = some x)
    (second : right.asNumber? = some y) (number : x.isNaN = false)
    (texts : ∀ text other, left = .string text → right = .string other → text = other)
    (timestamps : ∀ text millis, (left = .string text ∧ right = .dateTime millis) ∨
      (left = .dateTime millis ∧ right = .string text) →
        ∃ whole, (string text).asNumber? = some (.int whole)) :
    left.compare? right = left.compareNumbers? right := by
  cases left with
  | null | boolean | list | record => cases first
  | int32 | int64 | single | double | decimal =>
      cases right with
      | null | boolean | list | record => cases second
      | int32 | int64 | single | double | decimal | string | dateTime => simp only [compare?]
  | string text =>
      cases right with
      | null | boolean | list | record => cases second
      | int32 | int64 | single | double | decimal => simp only [compare?]
      | string other =>
          obtain rfl := texts text other rfl rfl
          rw [compareNumbers?_of_numbers first first, Number.compare?_self number]
          simp [compare?, compareText]
      | dateTime millis =>
          obtain ⟨whole, writes⟩ := timestamps text millis (.inl ⟨rfl, rfl⟩)
          rw [compareNumbers?_of_numbers writes second]
          cases second
          simp only [compare?, timestamp_of_integer writes]
          rfl
  | dateTime millis =>
      cases right with
      | null | boolean | list | record => cases second
      | int32 | int64 | single | double | decimal => simp only [compare?]
      | dateTime other => rfl
      | string text =>
          obtain ⟨whole, writes⟩ := timestamps text millis (.inr ⟨rfl, rfl⟩)
          rw [compareNumbers?_of_numbers first writes]
          cases first
          simp only [compare?, timestamp_of_integer writes]
          rfl

/-! The operand that is kept. -/

theorem extremeOperand_eq_foldl
    (numeric : ∀ operand ∈ present operands, ∃ x, operand.asNumber? = some x)
    (best : Option Value) : extremeOperand wanted best operands = .ok ((present operands).foldl
      (challenge fun left right => left.compare? right == some wanted) best) := by
  induction operands generalizing best with
  | nil => rfl
  | cons operand rest induction =>
      rw [extremeOperand]
      cases null : operand.isNull with
      | true =>
          obtain rfl := eq_null_of_isNull null
          exact induction numeric best
      | false =>
          rw [present_cons rest null] at numeric ⊢
          have parts := List.forall_mem_cons.mp numeric
          obtain ⟨x, number⟩ := parts.1
          have required : operand.requireNumber = .ok x := by rw [requireNumber, number]
          have kept : some (betterOperand wanted best operand) =
              challenge (fun left right => left.compare? right == some wanted) best operand := by
            cases best <;> rfl
          rw [if_neg Bool.false_ne_true, required, List.foldl_cons, ← kept]
          exact induction parts.2 _

/-- Null if all operands are, and otherwise the number of one of them. No number is beyond that one
if the operands are compared as numbers and if the numbers fit together. -/
structure IsExtremeOf (result : Value) (wanted : Ordering) (operands : List Value) : Prop where
  null : result = .null ↔ ∀ operand ∈ operands, operand.isNull
  number : result ≠ .null → ∃ x ∈ asNumbers operands, result = ofNumber x ∧
    (ComparedAsNumbers operands → Number.FitTogether (asNumbers operands) →
      ∀ y ∈ asNumbers operands, ∃ order, y.compare? x = some order ∧ order ≠ wanted)

section
variable (strict : wanted ≠ .eq)
  (numeric : ∀ operand ∈ present operands, ∃ x, operand.asNumber? = some x)
  (comparable : ∀ x ∈ asNumbers operands, ∀ y ∈ asNumbers operands, x.compare? y ≠ none)
include strict numeric comparable

theorem ranks_of_numbers (agree : ComparedAsNumbers operands)
    (fit : Number.FitTogether (asNumbers operands)) :
    Ranks (fun left right => left.compare? right == some wanted) (present operands) := by
  refine Ranks.of_order strict compare?_swap ?_
  intro first isFirst second isSecond third isThird
  obtain ⟨x, left⟩ := numeric first isFirst
  obtain ⟨y, middle⟩ := numeric second isSecond
  obtain ⟨z, right⟩ := numeric third isThird
  rw [agree first isFirst second isSecond, agree second isSecond third isThird,
    agree first isFirst third isThird, compareNumbers?_of_numbers left middle,
    compareNumbers?_of_numbers middle right, compareNumbers?_of_numbers left right]
  exact fit.transitive comparable (mem_asNumbers isFirst left) (mem_asNumbers isSecond middle)
    (mem_asNumbers isThird right)

theorem extreme_of_numbers :
    ∃ result, extreme wanted operands = .ok result ∧ result.IsExtremeOf wanted operands := by
  rw [extreme, extremeOperand_eq_foldl numeric]
  rcases exists_foldl_challenge (fun left right => left.compare? right == some wanted)
    (present operands) with ⟨none, nothing⟩ | ⟨best, member, found⟩
  · rw [nothing]
    exact ⟨.null, rfl, iff_of_true rfl (present_eq_nil_iff.mp none), fun given => absurd rfl given⟩
  · obtain ⟨x, number⟩ := numeric best member
    have among := mem_asNumbers member number
    rw [found]
    refine ⟨ofNumber x, ?_, iff_of_false (ofNumber_ne_null x) fun nulls => ?_, fun _ => ?_⟩
    · exact congrArg Except.ok (congrArg (fun number => (number.map ofNumber).getD .null) number)
    · rw [present_eq_nil_iff.mpr nulls] at member
      cases member
    · refine ⟨x, among, rfl, fun agree fit y other => ?_⟩
      obtain ⟨order, compares⟩ := Option.ne_none_iff_exists'.mp (comparable y other x among)
      refine ⟨order, compares, ?_⟩
      rintro rfl
      obtain ⟨operand, given, counts⟩ := exists_of_mem_asNumbers other
      have wins : operand.compare? best = some order := by
        rw [agree operand given best member, compareNumbers?_of_numbers counts number, compares]
      -- Compared as their numbers the operands have ranks, so that the one kept is unbeaten.
      rw [foldl_challenge (ranks_of_numbers strict numeric comparable agree fit)] at found
      exact not_beats_of_firstUnbeaten found given (beq_iff_eq.mpr wins)

end

/-- Of operands that count as numbers the greatest and the least are told by the numbers, as far as
the operands are compared by them. -/
theorem greatest_least_of_numbers
    (numeric : ∀ operand ∈ present operands, ∃ x, operand.asNumber? = some x)
    (numbers : ∀ x ∈ asNumbers operands, x.isNaN = false)
    (apart : ∀ x ∈ asNumbers operands, ∀ y ∈ asNumbers operands, x.isDecimal → ¬y.isInfinite) :
    (∃ result, ScalarFunction.greatest.result? operands = some (.ok result) ∧
      result.IsExtremeOf .gt operands) ∧
    ∃ result, ScalarFunction.least.result? operands = some (.ok result) ∧
      result.IsExtremeOf .lt operands := by
  have comparable (x : Number) (first : x ∈ asNumbers operands) (y : Number)
      (second : y ∈ asNumbers operands) : x.compare? y ≠ none := by
    rw [ne_eq, Number.compare?_eq_none_iff]
    rintro (nan | nan | beside | beside)
    · exact Bool.eq_false_iff.mp (numbers x first) nan
    · exact Bool.eq_false_iff.mp (numbers y second) nan
    · exact apart x first y second beside.1 beside.2
    · exact apart y second x first beside.2 beside.1
  have upward : Ordering.gt ≠ .eq := by decide
  have downward : Ordering.lt ≠ .eq := by decide
  obtain ⟨greatest, takes, isGreatest⟩ := extreme_of_numbers upward numeric comparable
  obtain ⟨least, takesLeast, isLeast⟩ := extreme_of_numbers downward numeric comparable
  exact ⟨⟨greatest, congrArg some takes, isGreatest⟩, ⟨least, congrArg some takesLeast, isLeast⟩⟩

theorem greatest_least_of_numbers_mixed :
    let operands : List Value := [.int32 7, .null, .string "12", .decimal ⟨125, 1⟩, .dateTime 3]
    (∀ operand ∈ present operands, ∃ x, operand.asNumber? = some x) ∧
      (∀ x ∈ asNumbers operands, x.isNaN = false) ∧
      (∀ x ∈ asNumbers operands, ∀ y ∈ asNumbers operands, x.isDecimal → ¬y.isInfinite) ∧
      ComparedAsNumbers operands ∧ Number.FitTogether (asNumbers operands) ∧
      ∃ x ∈ asNumbers operands,
        ScalarFunction.greatest.result? operands = some (.ok (ofNumber x)) ∧
        ∀ y ∈ asNumbers operands, ∃ order, y.compare? x = some order ∧ order ≠ .gt := by
  intro operands
  have numeric : ∀ operand ∈ present operands, ∃ x, operand.asNumber? = some x := by
    have numbers : ∀ operand ∈ present operands, operand.asNumber?.isSome := by decide
    exact fun operand member => Option.isSome_iff_exists.mp (numbers operand member)
  have numbers : ∀ x ∈ asNumbers operands, x.isNaN = false := by decide
  have apart : ∀ x ∈ asNumbers operands, ∀ y ∈ asNumbers operands,
      x.isDecimal → ¬y.isInfinite := by decide
  have text (text : String) (member : .string text ∈ present operands) : text = "12" := by
    simpa [operands, present, isNull] using member
  have agree : ComparedAsNumbers operands := by
    intro left isLeft right isRight
    obtain ⟨x, first⟩ := numeric left isLeft
    obtain ⟨y, second⟩ := numeric right isRight
    refine compare?_eq_compareNumbers? first second (numbers x (mem_asNumbers isLeft first)) ?_ ?_
    · rintro one other rfl rfl
      exact (text one isLeft).trans (text other isRight).symm
    · rintro one millis (⟨rfl, rfl⟩ | ⟨rfl, rfl⟩)
      · obtain rfl := text one isLeft
        exact ⟨12, rfl⟩
      · obtain rfl := text one isRight
        exact ⟨12, rfl⟩
  have fit : Number.FitTogether (asNumbers operands) := by
    have exact : ∀ x ∈ asNumbers operands, x.isFloat = false := by decide
    rintro ⟨x, member, float⟩
    rw [exact x member] at float
    cases float
  obtain ⟨⟨greatest, computes, extreme⟩, _⟩ := greatest_least_of_numbers numeric numbers apart
  have present : greatest ≠ .null := by
    rw [ne_eq, extreme.null]
    intro nulls
    cases nulls (.int32 7) (by simp [operands])
  obtain ⟨x, among, same, unbeaten⟩ := extreme.number present
  exact ⟨numeric, numbers, apart, agree, fit, x, among, same ▸ computes, unbeaten agree fit⟩

/-- Of two texts the one that is greater as a text is taken, although its number is less. -/
theorem greatest_of_texts_not_greatest :
    ScalarFunction.greatest.result? [.string "9", .string "10"] = some (.ok (.int64 9)) ∧
      (Value.string "10").asNumber? = some (.int 10) ∧
      (Number.int 10).compare? (.int 9) = some .gt :=
  ⟨rfl, rfl, by decide⟩

end Value

end StreamQuery
