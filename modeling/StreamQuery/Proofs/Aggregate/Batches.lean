import Mathlib.Data.Set.Card
import StreamQuery.Proofs.Aggregate.Sums
import StreamQuery.Proofs.FirstUnbeaten
import StreamQuery.Proofs.Value.Comparisons
import StreamQuery.Proofs.Value.Equality
namespace StreamQuery

/-! What the aggregates over a list of operands are, told without taking the operands one after the
other. -/

namespace Value

def equality : Setoid Value where
  r left right := left.equals right
  iseqv := ⟨equals_self, fun same => equals_symm _ _ same, fun same => equals_trans _ _ _ same⟩

def equalityClass (value : Value) : Quotient equality :=
  Quotient.mk equality value

theorem equalityClass_eq_iff {left right : Value} :
    left.equalityClass = right.equalityClass ↔ left.equals right :=
  Quotient.eq (r := equality)

end Value

namespace Accumulator

/-! Distinct operands: what has been seen holds one value of every class. -/

structure Represents (seen values : List Value) : Prop where
  distinct : (seen.map Value.equalityClass).Nodup
  complete : ∀ kind, kind ∈ seen.map Value.equalityClass ↔ kind ∈ values.map Value.equalityClass

theorem any_equals_iff {seen : List Value} {value : Value} :
    seen.any value.equals ↔ value.equalityClass ∈ seen.map Value.equalityClass := by
  rw [List.any_eq_true, List.mem_map]
  refine exists_congr fun other => and_congr_right fun _ => ?_
  rw [Value.equalityClass_eq_iff]
  exact ⟨Value.equals_symm _ _, Value.equals_symm _ _⟩

theorem Represents.addDistinct {seen values : List Value} (represents : Represents seen values)
    (value : Value) : Represents (addDistinct seen value) (values ++ [value]) := by
  rw [Accumulator.addDistinct]
  split
  · next known =>
      have among := (represents.complete _).mp (any_equals_iff.mp known)
      refine ⟨represents.distinct, fun kind => (represents.complete kind).trans ?_⟩
      rw [List.map_append, List.mem_append, List.map_singleton, List.mem_singleton]
      exact ⟨.inl, fun found => found.elim id fun same => same ▸ among⟩
  · next new =>
      rw [any_equals_iff] at new
      constructor
      · rw [List.map_append, List.map_singleton, List.nodup_append]
        refine ⟨represents.distinct, List.nodup_singleton _, ?_⟩
        rintro kind before _ last rfl
        rw [List.mem_singleton.mp last] at before
        exact new before
      · intro kind
        rw [List.map_append, List.map_append, List.mem_append, List.mem_append,
          represents.complete kind]

theorem represents_foldl_addDistinct (values : List Value) :
    Represents (values.foldl Accumulator.addDistinct []) values := by
  induction values using List.reverseRecOn with
  | nil => exact ⟨List.nodup_nil, fun _ => Iff.rfl⟩
  | append_singleton before value induction =>
      rw [List.foldl_append]
      exact induction.addDistinct value

theorem Represents.length {seen values : List Value} (represents : Represents seen values) :
    seen.length = {kind | kind ∈ values.map Value.equalityClass}.ncard := by
  classical
  have same : {kind | kind ∈ values.map Value.equalityClass} =
      ((seen.map Value.equalityClass).toFinset : Set (Quotient Value.equality)) := by
    ext kind
    rw [List.coe_toFinset]
    exact (represents.complete kind).symm
  rw [same, Set.ncard_coe_finset, List.toFinset_card_of_nodup represents.distinct, List.length_map]

/-! Extremes. -/

theorem compareOperands_swap (left right : Value) :
    compareOperands left right = (compareOperands right left).swap := by
  rw [compareOperands, compareOperands, left.compare?_swap right, left.order_swap right]
  cases right.compare? left <;> rfl

theorem keepBest_eq_challenge (wanted : Ordering) :
    keepBest wanted = challenge fun left right => compareOperands left right == wanted := by
  funext best value
  cases best with
  | none => rfl
  | some best =>
      by_cases wins : compareOperands value best = wanted
      · simp [keepBest, challenge, wins]
      · simp [keepBest, challenge, wins]

/-- Among these values the comparison is a total preorder. It has two sides anyway, so that it only
has to be transitive. -/
def Preordered (values : List Value) : Prop :=
  ∀ x ∈ values, ∀ y ∈ values, ∀ z ∈ values,
    compareOperands x y ≠ .gt → compareOperands y z ≠ .gt → compareOperands x z ≠ .gt

def best (wanted : Ordering) (operands : List Value) : Value :=
  (firstUnbeaten (fun left right => compareOperands left right == wanted)
    (Value.present operands)).getD .null

theorem foldl_keepBest {wanted : Ordering} {values : List Value} (strict : wanted ≠ .eq)
    (preordered : Preordered values) : values.foldl (keepBest wanted) none =
      firstUnbeaten (fun left right => compareOperands left right == wanted) values := by
  have ranks : Ranks (fun left right => compareOperands left right == wanted) values := by
    have sides (x y : Value) : some (compareOperands x y) =
        (some (compareOperands y x)).map Ordering.swap := by
      rw [compareOperands_swap x y]
      rfl
    exact Ranks.of_order strict sides (by simpa [Preordered] using preordered)
  rw [keepBest_eq_challenge, foldl_challenge ranks]

theorem over_of_keepBest {aggregation : Aggregation} {wrap : Option Value → Accumulator}
    {wanted : Ordering} {operands : List Value} (begins : start aggregation = wrap none)
    (skips : aggregation ≠ .countRows) (strict : wanted ≠ .eq)
    (steps : ∀ current operand,
      (wrap current).updatePresent operand = .ok (wrap (keepBest wanted current operand)))
    (ends : ∀ current, (wrap current).finish = current.getD .null)
    (preordered : Preordered (Value.present operands)) :
    aggregation.over operands = .ok (best wanted operands) := by
  rw [over_of_steps begins skips fun operand _ current => steps current operand,
    foldl_keepBest strict preordered, ends]
  rfl

end Accumulator

namespace Aggregation

def integer? (operand : Value) : Option Int64 :=
  match operand.asNumber? with
  | some (.int whole) => some whole
  | _ => none

def integers (operands : List Value) : List Int64 :=
  operands.filterMap integer?

/-- How many values there are among the operands, nulls apart; numbers of several types can be one
value. -/
noncomputable def distinctCount (operands : List Value) : Nat :=
  {kind | kind ∈ ((Value.present operands).map Value.normalized).map Value.equalityClass}.ncard

variable {operands : List Value}

theorem countRows_eq_length (operands : List Value) :
    countRows.over operands = .ok (.int64 (Int64.ofNat operands.length)) := by
  have steps (operand : Value) (_ : operand ∈ operands) (seen : Nat) :
      (Accumulator.countRows seen).update operand = .ok (.countRows (seen + 1)) := by
    cases operand <;> rfl
  have counted : operands.foldl (fun seen _ => seen + 1) 0 = operands.length := by simp
  have begins : Accumulator.start .countRows = .countRows 0 := rfl
  rw [Aggregation.over, begins, foldlM_of_steps steps, counted]
  rfl

theorem count_eq_length (operands : List Value) :
    count.over operands = .ok (.int64 (Int64.ofNat (Value.present operands).length)) := by
  have steps (operand : Value) (_ : operand ∈ Value.present operands) (seen : Nat) :
      (Accumulator.count seen).updatePresent operand = .ok (.count (seen + 1)) := rfl
  have counted : (Value.present operands).foldl (fun seen _ => seen + 1) 0 =
      (Value.present operands).length := by simp
  have begins : Accumulator.start .count = .count 0 := rfl
  rw [Accumulator.over_of_steps begins (by decide) steps, counted]
  rfl

theorem countDistinct_eq_distinctCount (operands : List Value) :
    countDistinct.over operands = .ok (.int64 (Int64.ofNat (distinctCount operands))) := by
  have steps (operand : Value) (_ : operand ∈ Value.present operands) (seen : List Value) :
      (Accumulator.countDistinct seen).updatePresent operand =
        .ok (.countDistinct (Accumulator.addDistinct seen operand.normalized)) := rfl
  have begins : Accumulator.start .countDistinct = .countDistinct [] := rfl
  rw [Accumulator.over_of_steps begins (by decide) steps,
    ← List.foldl_map (f := Value.normalized) (g := Accumulator.addDistinct), distinctCount,
    ← (Accumulator.represents_foldl_addDistinct _).length]
  rfl

/-! Sums of integers. -/

theorem asNumber?_of_integer? {operand : Value} {whole : Int64}
    (integer : integer? operand = some whole) : operand.asNumber? = some (.int whole) := by
  simp only [integer?] at integer
  split at integer
  · next other number =>
      cases integer
      exact number
  · cases integer

section
variable (integral : ∀ operand ∈ Value.present operands, (integer? operand).isSome)
include integral

theorem null_or_integer {operand : Value} (member : operand ∈ operands) :
    operand = .null ∨ ∃ whole, integer? operand = some whole := by
  rcases Value.null_or_present member with null | present
  · exact .inl null
  · exact .inr (Option.isSome_iff_exists.mp (integral operand present))

theorem asNumbers_of_integers : Value.asNumbers operands = (integers operands).map .int := by
  rw [integers, List.map_filterMap]
  refine List.filterMap_congr fun operand member => ?_
  rcases null_or_integer integral member with rfl | ⟨whole, integer⟩
  · rfl
  · rw [integer, asNumber?_of_integer? integer]
    rfl

theorem accepted_of_integers (operand : Value) (member : operand ∈ operands) :
    sum.check operand = .ok () := by
  rcases null_or_integer integral member with rfl | ⟨whole, integer⟩
  · rfl
  · simp [check, numericOperand, asNumber?_of_integer? integer, Except.map]

theorem sum_of_integers
    (fits : ∀ initial, initial <+: integers operands →
      -2 ^ 63 ≤ (initial.map Int64.toInt).sum ∧ (initial.map Int64.toInt).sum < 2 ^ 63) :
    (Value.present operands = [] → sum.over operands = .ok .null) ∧
      (Value.present operands ≠ [] → ∃ total : Int64, sum.over operands = .ok (.int64 total) ∧
        total.toInt = ((integers operands).map Int64.toInt).sum) := by
  rw [sum_eq_totalOf (accepted_of_integers integral), asNumbers_of_integers integral]
  constructor
  · intro none
    rw [← asNumbers_of_integers integral, ← Value.asNumbers_present, none]
    rfl
  · intro present
    have given : integers operands ≠ [] := by
      intro none
      obtain ⟨operand, member⟩ := List.exists_mem_of_ne_nil _ present
      obtain ⟨whole, integer⟩ := Option.isSome_iff_exists.mp (integral operand member)
      rw [List.filterMap_eq_nil_iff.mp none operand (List.mem_filter.mp member).1] at integer
      cases integer
    rcases Number.totalOf_integers given fits with ⟨total, found, exact⟩
    exact ⟨total, by rw [found]; rfl, exact⟩

end

/-- Counts are those of the operands, of those that are not null, and of the values among them. A
sum of integers is exact if every sum on the way has 64 bits. The extremes are the first operands
that none beats if the comparison of the operands is a total preorder. -/
theorem over_eq_batch (operands : List Value) :
    countRows.over operands = .ok (.int64 (Int64.ofNat operands.length)) ∧
    count.over operands = .ok (.int64 (Int64.ofNat (Value.present operands).length)) ∧
    countDistinct.over operands = .ok (.int64 (Int64.ofNat (distinctCount operands))) ∧
    ((∀ operand ∈ Value.present operands, (integer? operand).isSome) →
      (∀ initial, initial <+: integers operands →
        -2 ^ 63 ≤ (initial.map Int64.toInt).sum ∧ (initial.map Int64.toInt).sum < 2 ^ 63) →
      (Value.present operands = [] → sum.over operands = .ok .null) ∧
      (Value.present operands ≠ [] → ∃ total : Int64, sum.over operands = .ok (.int64 total) ∧
        total.toInt = ((integers operands).map Int64.toInt).sum)) ∧
    (Accumulator.Preordered (Value.present operands) →
      minimum.over operands = .ok (Accumulator.best .lt operands) ∧
      maximum.over operands = .ok (Accumulator.best .gt operands)) := by
  refine ⟨countRows_eq_length operands, count_eq_length operands,
    countDistinct_eq_distinctCount operands, sum_of_integers, fun preordered => ⟨?_, ?_⟩⟩
  · exact Accumulator.over_of_keepBest rfl (by decide) (by decide) (fun _ _ => rfl) (fun _ => rfl)
      preordered
  · exact Accumulator.over_of_keepBest rfl (by decide) (by decide) (fun _ _ => rfl) (fun _ => rfl)
      preordered

theorem over_eq_batch_numbers :
    let operands : List Value := [.null, .string "7", .int32 5, .dateTime 7]
    (∀ operand ∈ Value.present operands, (integer? operand).isSome) ∧
      (∃ total : Int64, sum.over operands = .ok (.int64 total) ∧ total.toInt = 19) ∧
      Accumulator.Preordered (Value.present operands) ∧
      minimum.over operands = .ok (.int32 5) ∧
      maximum.over operands = .ok (.string "7") := by
  intro operands
  rcases over_eq_batch operands with ⟨_, _, _, sums, extremes⟩
  have integral : ∀ operand ∈ Value.present operands, (integer? operand).isSome := by
    decide
  have preordered : Accumulator.Preordered (Value.present operands) := by
    unfold Accumulator.Preordered
    decide
  have fits : ∀ initial ∈ (integers operands).inits,
      -2 ^ 63 ≤ (initial.map Int64.toInt).sum ∧ (initial.map Int64.toInt).sum < 2 ^ 63 := by
    decide
  have sum := sums integral fun initial begins => fits initial ((List.mem_inits _ _).mpr begins)
  exact ⟨integral, sum.2 (List.cons_ne_nil _ _), preordered, extremes preordered⟩

end Aggregation

end StreamQuery
