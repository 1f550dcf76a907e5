import StreamQuery.Proofs.Number.Canonical
import StreamQuery.Proofs.Value.Equality
import StreamQuery.Proofs.Value.Ordering
namespace StreamQuery

/-! Values of numbers have one normal form exactly if they are equal for queries, if their numbers
fit together and keep their values in it. -/

namespace Binary

theorem isNaN_convert {source : BinaryFormat} {x : Binary source} (number : x.isNaN = false)
    (target : BinaryFormat) : (x.convert target).isNaN = false := by
  simp only [convert, reading, number, Bool.false_eq_true, if_false]
  split
  · next nothing => split at nothing <;> cases nothing
  · exact isNaN_ofMagnitude _ le_rfl
  · exact isNaN_ofRatio _ _ _

end Binary

namespace Value

mutual
/-- The value is a number, other than NaN, or it is a list or a record of such values. -/
def OfNumbers : Value → Prop
  | .int32 _ | .int64 _ | .decimal _ => True
  | .single x => x.isNaN = false
  | .double x => x.isNaN = false
  | .list items => ItemsOfNumbers items
  | .record fields => FieldsOfNumbers fields
  | _ => False

def ItemsOfNumbers : List Value → Prop
  | [] => True
  | item :: rest => item.OfNumbers ∧ ItemsOfNumbers rest

def FieldsOfNumbers : List (String × Value) → Prop
  | [] => True
  | (_, value) :: rest => value.OfNumbers ∧ FieldsOfNumbers rest
end

variable {left right : Value} {x y : Number}

theorem OfNumbers.isNaN_eq_false (numeric : left.OfNumbers) (number : left.number? = some x) :
    x.isNaN = false := by
  cases left with
  | single value =>
      cases number
      exact Binary.isNaN_convert numeric _
  | double value =>
      cases number
      exact numeric
  | _ => cases number <;> rfl

/-! Representatives. -/

theorem normalized_of_number? (number : left.number? = some x) :
    left.normalized = .ofNumber x.canonical := by
  cases left <;> cases number <;> simp only [normalized, normalizedScalar, number?]

theorem kindRank_normalized (value : Value) : value.normalized.kindRank = value.kindRank := by
  cases number : value.number? with
  | some x =>
      have ranks : value.kindRank = 2 := by cases value <;> cases number <;> rfl
      rw [normalized_of_number? number, ranks]
      cases x.canonical <;> rfl
  | none => cases value <;> cases number <;> simp only [normalized, normalizedScalar] <;> rfl

theorem kindRank_of_equals (equal : left.equals right) : left.kindRank = right.kindRank := by
  cases left <;> cases right <;> first | rfl | cases equal

theorem samePattern_iff_key {x y : Double} (number : x.isNaN = false)
    (otherNumber : y.isNaN = false) :
    samePattern x y ↔ (Number.float x).key = (Number.float y).key := by
  have compares : x.equals y ↔ (Number.float x).key = (Number.float y).key := by
    rw [← @Number.compare?_eq_iff (.float x) (.float y) number otherNumber
      fun _ => ⟨trivial, trivial⟩]
    exact beq_iff_eq
  rw [samePattern_iff, compares]
  exact or_iff_right_of_imp fun same => by rw [same]

theorem equals_ofNumber_iff (first : x.IsCanonical) (second : y.IsCanonical)
    (number : x.isNaN = false) (otherNumber : y.isNaN = false) :
    (ofNumber x).equals (ofNumber y) ↔ x.key = y.key := by
  cases x with
  | int x =>
      cases y with
      | int y =>
          simp [ofNumber, equals, Number.key, Int64.toInt_inj]
      | float y => exact iff_of_false Bool.false_ne_true (second.key_float_ne_int x).symm
      | decimal y => exact iff_of_false Bool.false_ne_true (second.key_decimal_ne_int x).symm
  | float x =>
      cases y with
      | int y => exact iff_of_false Bool.false_ne_true (first.key_float_ne_int y)
      | float y => exact samePattern_iff_key number otherNumber
      | decimal y => exact iff_of_false Bool.false_ne_true (first.key_float_ne_decimal second)
  | decimal x =>
      cases y with
      | int y => exact iff_of_false Bool.false_ne_true (first.key_decimal_ne_int y)
      | float y => exact iff_of_false Bool.false_ne_true (second.key_float_ne_decimal first).symm
      | decimal y =>
          have values : (Number.decimal x).key = (Number.decimal y).key ↔ x.value = y.value := by
            simp [Number.key]
          rw [values, ← Decimal.equals_iff_value]
          rfl

theorem equals_normalized_of_numbers (numeric : left.OfNumbers) (otherNumeric : right.OfNumbers)
    (first : left.number? = some x) (second : right.number? = some y) (keeps : x.KeepsValue)
    (otherKeeps : y.KeepsValue) : left.normalized.equals right.normalized ↔ x.key = y.key := by
  rw [normalized_of_number? first, normalized_of_number? second,
    equals_ofNumber_iff x.isCanonical_canonical y.isCanonical_canonical
      (Number.isNaN_canonical (numeric.isNaN_eq_false first))
      (Number.isNaN_canonical (otherNumeric.isNaN_eq_false second)),
    keeps.key_canonical, otherKeeps.key_canonical]

theorem compare?_of_numbers (first : left.number? = some x) (second : right.number? = some y) :
    left.compare? right = x.compare? y := by
  cases left <;> cases first <;> cases right <;> cases second <;> rfl

/-- The numbers are compared by what their representatives stand for. -/
structure Faithful (numbers : List Number) : Prop where
  keeps : ∀ x ∈ numbers, x.KeepsValue
  fit : Number.FitTogether numbers

theorem Faithful.mono {numbers others : List Number} (faithful : Faithful others)
    (among : numbers ⊆ others) : Faithful numbers :=
  ⟨fun x member => faithful.keeps x (among member), faithful.fit.mono among⟩

theorem Faithful.fit_pair (faithful : Faithful [x, y]) (float : x.isFloat ∨ y.isFloat) :
    x.FitsDouble ∧ y.FitsDouble := by
  have present : ∃ z ∈ [x, y], z.isFloat := by simpa using float
  exact ⟨faithful.fit present x (by simp), faithful.fit present y (by simp)⟩

theorem different_of_kindRank_ne (different : left.kindRank ≠ right.kindRank) :
    left.normalized.equals right.normalized = false ∧ left.order right ≠ .eq := by
  constructor
  · refine Bool.eq_false_iff.mpr fun equal => different ?_
    rw [← kindRank_normalized left, ← kindRank_normalized right, kindRank_of_equals equal]
  · rw [order_of_kindRank_ne different]
    exact fun equal => different (compare_eq_iff_eq.mp equal)

theorem SameKind.equals_normalized_of_scalar (same : SameKind left right)
    (scalar : left.kindRank ≤ 4) (numeric : left.OfNumbers) (otherNumeric : right.OfNumbers)
    (faithful : Faithful (left.numbers ++ right.numbers)) :
    left.normalized.equals right.normalized ↔ left.order right = .eq := by
  cases same with
  | @number _ _ x y first second =>
      rw [numbers_of_number? first, numbers_of_number? second] at faithful
      rw [equals_normalized_of_numbers numeric otherNumeric first second
          (faithful.keeps x (by simp)) (faithful.keeps y (by simp)),
        order_of_numbers first second, Number.totalCompare_eq_iff faithful.fit_pair]
  | list _ _ => exact absurd scalar (show ¬5 ≤ 4 by decide)
  | record _ _ => exact absurd scalar (show ¬6 ≤ 4 by decide)
  | _ => cases numeric

mutual
/-- Inside of lists and records values have one normal form if the total order finds them equal. -/
theorem equals_normalized_iff_order (left right : Value) (numeric : left.OfNumbers)
    (otherNumeric : right.OfNumbers) (faithful : Faithful (left.numbers ++ right.numbers)) :
    left.normalized.equals right.normalized ↔ left.order right = .eq := by
  by_cases same : left.kindRank = right.kindRank
  · have pair := SameKind.of_kindRank same
    cases left with
    | list items =>
        cases pair with
        | list _ others =>
            simp only [order]
            exact equalItems_normalized_iff_order items others numeric otherNumeric faithful
        | number none _ => cases none
    | record fields =>
        cases pair with
        | record _ others =>
            simp only [order]
            exact equalFields_normalized_iff_order fields others numeric otherNumeric faithful
        | number none _ => cases none
    | _ =>
        exact pair.equals_normalized_of_scalar (by simp only [kindRank]; decide) numeric
          otherNumeric
          faithful
  · have apart := different_of_kindRank_ne same
    simp [apart.1, apart.2]
termination_by structural left

theorem equalItems_normalized_iff_order (left right : List Value) (numeric : ItemsOfNumbers left)
    (otherNumeric : ItemsOfNumbers right)
    (faithful : Faithful (numbersOfItems left ++ numbersOfItems right)) :
    equalItems (normalizedItems left) (normalizedItems right) ↔ orderItems left right = .eq := by
  cases left with
  | nil => cases right <;> simp [normalizedItems, equalItems, orderItems]
  | cons item rest =>
      cases right with
      | nil => simp [normalizedItems, equalItems, orderItems]
      | cons other others =>
          have here := equals_normalized_iff_order item other numeric.1 otherNumeric.1
            (faithful.mono (by simp [numbersOfItems]; grind))
          have behind := equalItems_normalized_iff_order rest others numeric.2 otherNumeric.2
            (faithful.mono (by simp [numbersOfItems]; grind))
          rw [normalizedItems, normalizedItems, equalItems, orderItems, Bool.and_eq_true, here,
            behind, Ordering.then_eq_eq]
termination_by structural left

theorem equalFields_normalized_iff_order (left right : List (String × Value))
    (numeric : FieldsOfNumbers left) (otherNumeric : FieldsOfNumbers right)
    (faithful : Faithful (numbersOfFields left ++ numbersOfFields right)) :
    equalFields (normalizedFields left) (normalizedFields right) ↔
      orderFields left right = .eq := by
  cases left with
  | nil => cases right <;> simp [normalizedFields, equalFields, orderFields]
  | cons field rest =>
      obtain ⟨name, value⟩ := field
      cases right with
      | nil => simp [normalizedFields, equalFields, orderFields]
      | cons field others =>
          obtain ⟨otherName, other⟩ := field
          have here := equals_normalized_iff_order value other numeric.1 otherNumeric.1
            (faithful.mono (by simp [numbersOfFields]; grind))
          have behind := equalFields_normalized_iff_order rest others numeric.2 otherNumeric.2
            (faithful.mono (by simp [numbersOfFields]; grind))
          rw [normalizedFields, normalizedFields, equalFields, orderFields, Bool.and_eq_true,
            Bool.and_eq_true, here, behind, Ordering.then_eq_eq, Ordering.then_eq_eq,
            compareText_eq_iff, beq_iff_eq]
termination_by structural left
end

/-- For queries values of numbers are equal if the total order finds them equal. -/
theorem queryEquals_iff_order (numeric : left.OfNumbers) (otherNumeric : right.OfNumbers)
    (faithful : Faithful (left.numbers ++ right.numbers)) :
    left.queryEquals right ↔ left.order right = .eq := by
  by_cases same : left.kindRank = right.kindRank
  · cases SameKind.of_kindRank same with
    | @number _ _ x y first second =>
        rw [numbers_of_number? first, numbers_of_number? second] at faithful
        rw [queryEquals, compare?_of_numbers first second, beq_iff_eq,
          Number.compare?_eq_iff (numeric.isNaN_eq_false first)
            (otherNumeric.isNaN_eq_false second) faithful.fit_pair,
          order_of_numbers first second, Number.totalCompare_eq_iff faithful.fit_pair]
    | list items others => simp [queryEquals, compare?, order]
    | record fields others => simp [queryEquals, compare?, order]
    | _ => cases numeric
  · have apart := different_of_kindRank_ne same
    have incomparable : left.compare? right = none := by
      cases left <;> cases right <;>
        first
        | exact absurd rfl same
        | exact False.elim numeric
        | exact False.elim otherNumeric
        | rfl
    simp [queryEquals, incomparable, apart.2]

end Value

end StreamQuery
