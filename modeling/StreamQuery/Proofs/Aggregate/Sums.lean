import StreamQuery.Proofs.Aggregate.Runs
import StreamQuery.Proofs.Number.Totals
namespace StreamQuery.Aggregation

/-! Sums of operands of all kinds. An operand that is accepted can still discard what has been
summed before it. -/

variable {operands : List Value}

theorem null_or_number {operand : Value} (accepted : sum.check operand = .ok ()) :
    operand = .null ∨ (operand.isNull = false ∧ ∃ x, operand.asNumber? = some x) := by
  cases null : operand.isNull with
  | true => exact .inl (Value.eq_null_of_isNull null)
  | false =>
      simp only [check, null, Bool.false_eq_true, if_false, numericOperand] at accepted
      cases number : operand.asNumber? with
      | none =>
          rw [number] at accepted
          cases accepted
      | some x => exact .inr ⟨rfl, x, rfl⟩

theorem asNumbers_eq_nil_iff (accepted : ∀ operand ∈ operands, sum.check operand = .ok ()) :
    Value.asNumbers operands = [] ↔ ∀ operand ∈ operands, operand.isNull := by
  rw [Value.asNumbers, List.filterMap_eq_nil_iff]
  refine forall₂_congr fun operand member => ?_
  rcases null_or_number (accepted operand member) with rfl | ⟨present, x, number⟩
  · exact iff_of_true rfl rfl
  · simp [present, number]

theorem sum_eq_totalOf (accepted : ∀ operand ∈ operands, sum.check operand = .ok ()) :
    sum.over operands =
      .ok (((Number.totalOf (Value.asNumbers operands)).map Value.ofNumber).getD .null) := by
  have steps (operand : Value) (member : operand ∈ Value.present operands)
      (total : Option Number) : (Accumulator.sum total).updatePresent operand =
        .ok (.sum (operand.asNumber?.elim total (Number.addTo total))) := by
    have given := (List.mem_filter.mp member).1
    rcases null_or_number (accepted operand given) with rfl | ⟨_, x, number⟩
    · cases Value.isNull_of_mem_present member
    · rw [Accumulator.updatePresent, numericOperand, number]
      cases total <;> rfl
  have begins : Accumulator.start .sum = .sum none := rfl
  have skips : sum ≠ .countRows := by decide
  have whole : Number.totalOf (Value.asNumbers operands) = (Value.present operands).foldl
      (fun total operand => operand.asNumber?.elim total (Number.addTo total)) none := by
    rw [← Value.asNumbers_present, Number.totalOf, Value.asNumbers, List.foldl_filterMap]
    congr 1
    funext total operand
    cases operand.asNumber? <;> rfl
  rw [Accumulator.over_of_steps begins skips steps, whole]
  rfl

/-- A sum is null if all operands are, and otherwise only if the last of them that is not null
clashes with the total of those before it. If none clashes, all of the operands are in the sum. -/
theorem sum_null_iff_discarded (accepted : ∀ operand ∈ operands, sum.check operand = .ok ()) :
    ∃ result, sum.over operands = .ok result ∧
      (result = .null ↔
        (∀ operand ∈ operands, operand.isNull) ∨ Number.Discards (Value.asNumbers operands)) ∧
      ((∀ initial, initial <+: Value.asNumbers operands → ¬Number.Discards initial) →
        (result = .null ↔ ∀ operand ∈ operands, operand.isNull) ∧
          result = ((Number.sum? (Value.asNumbers operands)).map Value.ofNumber).getD .null) ∧
      ((∀ x ∈ Value.asNumbers operands, x.isDecimal = false) →
        ∀ initial, initial <+: Value.asNumbers operands → ¬Number.Discards initial) := by
  have null (total : Option Number) :
      (total.map Value.ofNumber).getD .null = .null ↔ total = none := by
    cases total with
    | none => simp
    | some x => simp [Value.ofNumber_ne_null]
  have result :
      ((Number.totalOf (Value.asNumbers operands)).map Value.ofNumber).getD .null = .null ↔
        (∀ operand ∈ operands, operand.isNull) ∨ Number.Discards (Value.asNumbers operands) := by
    rw [null, Number.totalOf_eq_none_iff, asNumbers_eq_nil_iff accepted]
  refine ⟨_, sum_eq_totalOf accepted, result, fun kept => ⟨?_, ?_⟩, ?_⟩
  · exact result.trans (or_iff_left (kept _ (List.prefix_refl _)))
  · rw [Number.totalOf_eq_sum? kept]
  · intro exact initial begins
    exact Number.not_discards_of_exact fun x member => exact x (begins.subset member)

theorem sum_null_iff_discarded_texts :
    (∀ operand ∈ [Value.string "2", .null, .int64 (-2), .string "0.5"],
      sum.check operand = .ok ()) ∧
    sum.over [.string "2", .null, .int64 (-2), .string "0.5"] ≠ .ok .null := by
  have accepted : ∀ operand ∈ [Value.string "2", .null, .int64 (-2), .string "0.5"],
      sum.check operand = .ok () := by
    simp only [List.forall_mem_cons]
    exact ⟨rfl, rfl, rfl, rfl, List.forall_mem_nil _⟩
  rcases sum_null_iff_discarded accepted with ⟨result, sums, _, kept, exact⟩
  have exactly : ∀ x ∈ Value.asNumbers [.string "2", .null, .int64 (-2), .string "0.5"],
      x.isDecimal = false := by
    decide
  refine ⟨accepted, fun lost => ?_⟩
  rw [sums] at lost
  have all := (kept (exact exactly)).1.mp (Except.ok.inj lost)
  cases all (.int64 (-2)) (by simp)

/-- A decimal and an infinity are accepted, and their sum is null; what follows is summed anew. -/
theorem sum_of_decimal_and_infinity_lost :
    (∀ operand ∈ [Value.decimal (.ofInt 1), .double (Binary.infinite false), .int64 5],
      sum.check operand = .ok ()) ∧
    sum.over [.decimal (.ofInt 1), .double (Binary.infinite false)] = .ok .null ∧
    sum.over [.decimal (.ofInt 1), .double (Binary.infinite false), .int64 5] = .ok (.int64 5) := by
  refine ⟨?_, rfl, rfl⟩
  simp only [List.forall_mem_cons]
  exact ⟨rfl, rfl, rfl, List.forall_mem_nil _⟩

end StreamQuery.Aggregation
