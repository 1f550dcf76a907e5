import Mathlib.Data.String.Basic
import StreamQuery.Proofs.Number.Comparison
import StreamQuery.Value.Order
namespace StreamQuery

/-! The total order of values has two sides. It is transitive among values whose numbers fit
together: beside a double an integer of more bits than a mantissa has is compared after it has been
rounded, and a decimal beyond all doubles is taken for an infinity. -/

/-- What comparing a first with a second value, the second with a third, and the first with the
third can come to in one preorder. -/
def Compose : (first second whole : Ordering) → Prop
  | .eq, second, whole => whole = second
  | first, .eq, whole => whole = first
  | .lt, .lt, whole => whole = .lt
  | .gt, .gt, whole => whole = .gt
  | _, _, _ => True

namespace Compose

theorem ne_gt {first second whole : Ordering} (compose : Compose first second whole)
    (notFirst : first ≠ .gt) (notSecond : second ≠ .gt) : whole ≠ .gt := by
  cases first <;> cases second <;> simp_all [Compose]

theorem of_right (first : Ordering) {second : Ordering} (strict : second ≠ .eq) :
    Compose first second second := by
  cases first <;> cases second <;> simp_all [Compose]

theorem of_left {first : Ordering} (second : Ordering) (strict : first ≠ .eq) :
    Compose first second first := by
  cases first <;> cases second <;> simp_all [Compose]

theorem of_swap {first : Ordering} (strict : first ≠ .eq) (whole : Ordering) :
    Compose first first.swap whole := by
  cases first <;> simp_all [Compose]

theorem swap {first second whole : Ordering} (compose : Compose first second whole) :
    Compose first.swap second.swap whole.swap := by
  cases first <;> cases second <;> simp_all [Compose]

theorem andThen {first second whole : Ordering} {firstRest secondRest wholeRest : Ordering}
    (compose : Compose first second whole) (rest : Compose firstRest secondRest wholeRest) :
    Compose (first.then firstRest) (second.then secondRest) (whole.then wholeRest) := by
  cases first with
  | eq =>
      obtain rfl : whole = second := compose
      cases whole with
      | eq => exact rest
      | lt => exact of_right _ nofun
      | gt => exact of_right _ nofun
  | lt =>
      cases second with
      | eq =>
          obtain rfl : whole = .lt := compose
          exact of_left _ nofun
      | lt =>
          obtain rfl : whole = .lt := compose
          exact of_left _ nofun
      | gt => trivial
  | gt =>
      cases second with
      | eq =>
          obtain rfl : whole = .gt := compose
          exact of_left _ nofun
      | gt =>
          obtain rfl : whole = .gt := compose
          exact of_left _ nofun
      | lt => trivial

theorem of_linear {α : Type} [LinearOrder α] {order : α → α → Ordering}
    (less : ∀ x y, x < y → order x y = .lt) (equal : ∀ x, order x x = .eq)
    (greater : ∀ x y, y < x → order x y = .gt) (x y z : α) :
    Compose (order x y) (order y z) (order x z) := by
  rcases lt_trichotomy x y with first | rfl | first
  · rw [less x y first]
    rcases lt_trichotomy y z with second | rfl | second
    · rw [less y z second, less x z (first.trans second)]
      rfl
    · rw [equal, less x y first]
      rfl
    · rw [greater y z second]
      trivial
  · rw [equal]
    rfl
  · rw [greater x y first]
    rcases lt_trichotomy y z with second | rfl | second
    · rw [less y z second]
      trivial
    · rw [equal, greater x y first]
      rfl
    · rw [greater y z second, greater x z (second.trans first)]
      rfl

end Compose

theorem compose_compare {α : Type} [LinearOrder α] (x y z : α) :
    Compose (compare x y) (compare y z) (compare x z) :=
  Compose.of_linear (fun _ _ => compare_lt_iff_lt.mpr) (fun _ => compare_eq_iff_eq.mpr rfl)
    (fun _ _ => compare_gt_iff_gt.mpr) x y z

namespace Number

theorem compose_compareKeys (first second third : Int × ℚ) :
    Compose (compareKeys first second) (compareKeys second third) (compareKeys first third) :=
  (compose_compare first.1 second.1 third.1).andThen (compose_compare first.2 second.2 third.2)

theorem FitTogether.mono {numbers others : List Number} (fit : FitTogether others)
    (among : numbers ⊆ others) : FitTogether numbers := by
  rintro ⟨float, member, isFloat⟩ x present
  exact fit ⟨float, among member, isFloat⟩ x (among present)

theorem FitTogether.totalCompare {numbers : List Number} (fit : FitTogether numbers) {x y : Number}
    (first : x ∈ numbers) (second : y ∈ numbers) :
    x.totalCompare y = compareKeys x.key y.key := by
  refine totalCompare_eq_compareKeys fun float => ?_
  have present : ∃ x ∈ numbers, x.isFloat := by
    rcases float with float | float
    · exact ⟨x, first, float⟩
    · exact ⟨y, second, float⟩
  exact ⟨fit present x first, fit present y second⟩

theorem FitTogether.transitive {numbers : List Number} (fit : FitTogether numbers)
    (comparable : ∀ x ∈ numbers, ∀ y ∈ numbers, x.compare? y ≠ none) {x y z : Number}
    (first : x ∈ numbers) (second : y ∈ numbers) (third : z ∈ numbers)
    (notGreater : x.compare? y ≠ some .gt) (nextNotGreater : y.compare? z ≠ some .gt) :
    x.compare? z ≠ some .gt := by
  have keys {x y : Number} (left : x ∈ numbers) (right : y ∈ numbers) :
      x.compare? y = some (compareKeys x.key y.key) := by
    obtain ⟨order, found⟩ := Option.ne_none_iff_exists'.mp (comparable x left y right)
    rw [← fit.totalCompare left right, Number.totalCompare, found, Option.getD_some]
  rw [keys first second, ne_eq, Option.some_inj] at notGreater
  rw [keys second third, ne_eq, Option.some_inj] at nextNotGreater
  rw [keys first third, ne_eq, Option.some_inj]
  exact (compose_compareKeys x.key y.key z.key).ne_gt notGreater nextNotGreater

end Number

namespace Value

/-! The numbers in a value, at any depth. -/

mutual
def numbers : Value → List Number
  | .list items => numbersOfItems items
  | .record fields => numbersOfFields fields
  | value => value.number?.toList

def numbersOfItems : List Value → List Number
  | [] => []
  | item :: rest => item.numbers ++ numbersOfItems rest

def numbersOfFields : List (String × Value) → List Number
  | [] => []
  | (_, value) :: rest => value.numbers ++ numbersOfFields rest
end

theorem compareText_swap (left right : String) :
    compareText left right = (compareText right left).swap := by
  simp only [compareText]
  rcases lt_trichotomy left right with less | rfl | greater
  · simp [less, less.ne, less.ne', less.asymm]
  · simp
  · simp [greater, greater.ne, greater.ne', greater.asymm]

theorem compareText_eq_iff {left right : String} : compareText left right = .eq ↔ left = right := by
  simp only [compareText]
  split
  · simp_all
  · split <;> simp_all

theorem compose_compareText (first second third : String) :
    Compose (compareText first second) (compareText second third) (compareText first third) := by
  apply Compose.of_linear
  · intro x y less
    simp [compareText, less, less.ne]
  · intro x
    simp [compareText]
  · intro x y greater
    simp [compareText, greater.ne', greater.asymm]

theorem order_of_kindRank_ne {left right : Value} (different : left.kindRank ≠ right.kindRank) :
    left.order right = compare left.kindRank right.kindRank := by
  cases left <;> cases right <;>
    first
    | exact absurd rfl different
    | simp only [order, compareScalars, number?]

inductive SameKind : Value → Value → Prop
  | null : SameKind .null .null
  | boolean (left right : Bool) : SameKind (.boolean left) (.boolean right)
  | string (left right : String) : SameKind (.string left) (.string right)
  | dateTime (left right : Int64) : SameKind (.dateTime left) (.dateTime right)
  | list (left right : List Value) : SameKind (.list left) (.list right)
  | record (left right : List (String × Value)) : SameKind (.record left) (.record right)
  | number {left right : Value} {x y : Number} (first : left.number? = some x)
      (second : right.number? = some y) : SameKind left right

theorem SameKind.of_kindRank {left right : Value} (same : left.kindRank = right.kindRank) :
    SameKind left right := by
  cases left <;> cases right <;>
    first | exact .number rfl rfl | (cases same; done) | constructor

theorem numbers_of_number? {value : Value} {x : Number} (number : value.number? = some x) :
    value.numbers = [x] := by
  cases value <;> cases number <;> rfl

theorem order_of_numbers {left right : Value} {x y : Number} (first : left.number? = some x)
    (second : right.number? = some y) : left.order right = x.totalCompare y := by
  have scalars : left.order right = left.compareScalars right := by
    cases left <;> cases first <;> cases right <;> cases second <;> simp only [order]
  rw [scalars, compareScalars, first, second]

theorem order_null : order .null .null = .eq := by
  simp only [order, compareScalars, number?]
  rfl

/-! The order has two sides. -/

theorem SameKind.order_swap_of_scalar {left right : Value} (same : SameKind left right)
    (scalar : left.kindRank ≤ 4) : left.order right = (right.order left).swap := by
  cases same with
  | null => simp only [order_null, Ordering.swap_eq]
  | boolean x y =>
      simp only [order]
      exact (Nat.compare_swap _ _).symm
  | number first second =>
      rw [order_of_numbers first second, order_of_numbers second first]
      exact Number.totalCompare_swap _ _
  | string x y =>
      simp only [order]
      exact compareText_swap x y
  | dateTime x y =>
      simp only [order]
      exact (Int64.compare_swap _ _).symm
  | list _ _ => exact absurd scalar (show ¬5 ≤ 4 by decide)
  | record _ _ => exact absurd scalar (show ¬6 ≤ 4 by decide)

mutual
theorem order_swap (left right : Value) : left.order right = (right.order left).swap := by
  by_cases same : left.kindRank = right.kindRank
  · have pair := SameKind.of_kindRank same
    cases left with
    | list items =>
        cases pair with
        | list _ others =>
            simp only [order]
            exact orderItems_swap items others
        | number none _ => cases none
    | record fields =>
        cases pair with
        | record _ others =>
            simp only [order]
            exact orderFields_swap fields others
        | number none _ => cases none
    | _ => exact pair.order_swap_of_scalar (by simp only [kindRank]; decide)
  · rw [order_of_kindRank_ne same, order_of_kindRank_ne (Ne.symm same), Nat.compare_swap]

theorem orderItems_swap (left right : List Value) :
    orderItems left right = (orderItems right left).swap := by
  cases left with
  | nil => cases right <;> simp only [orderItems] <;> rfl
  | cons item rest =>
      cases right with
      | nil => simp only [orderItems]; rfl
      | cons other others =>
          rw [orderItems, orderItems, Ordering.swap_then, order_swap item other,
            orderItems_swap rest others]

theorem orderFields_swap (left right : List (String × Value)) :
    orderFields left right = (orderFields right left).swap := by
  cases left with
  | nil => cases right <;> simp only [orderFields] <;> rfl
  | cons field rest =>
      obtain ⟨name, value⟩ := field
      cases right with
      | nil => simp only [orderFields]; rfl
      | cons other others =>
          obtain ⟨otherName, otherValue⟩ := other
          rw [orderFields, orderFields, Ordering.swap_then, Ordering.swap_then,
            order_swap value otherValue, orderFields_swap rest others,
            compareText_swap name otherName]
end

/-! The order composes. -/

theorem compose_of_kindRank_ne {first second third : Value}
    (different : ¬(first.kindRank = second.kindRank ∧ second.kindRank = third.kindRank)) :
    Compose (first.order second) (second.order third) (first.order third) := by
  have strict {left right : Value} (ranks : left.kindRank ≠ right.kindRank) :
      left.order right ≠ .eq := by
    rw [order_of_kindRank_ne ranks]
    exact fun equal => ranks (compare_eq_iff_eq.mp equal)
  by_cases left : first.kindRank = second.kindRank
  · have right : second.kindRank ≠ third.kindRank := fun right => different ⟨left, right⟩
    rw [order_of_kindRank_ne (left.trans_ne right), left, ← order_of_kindRank_ne right]
    exact Compose.of_right _ (strict right)
  · by_cases right : second.kindRank = third.kindRank
    · rw [order_of_kindRank_ne (fun ends => left (ends.trans right.symm)), ← right,
        ← order_of_kindRank_ne left]
      exact Compose.of_left _ (strict left)
    · by_cases ends : first.kindRank = third.kindRank
      · have back : second.order third = (first.order second).swap := by
          rw [order_of_kindRank_ne left, order_of_kindRank_ne right, ← ends, Nat.compare_swap]
        rw [back]
        exact Compose.of_swap (strict left) _
      · rw [order_of_kindRank_ne left, order_of_kindRank_ne right, order_of_kindRank_ne ends]
        exact compose_compare first.kindRank second.kindRank third.kindRank

theorem compose_of_scalar {first second third : Value} (left : SameKind first second)
    (right : SameKind second third) (scalar : first.kindRank ≤ 4)
    (fit : Number.FitTogether (first.numbers ++ second.numbers ++ third.numbers)) :
    Compose (first.order second) (second.order third) (first.order third) := by
  cases left with
  | null =>
      cases right with
      | null => rfl
      | number none _ => cases none
  | boolean x y =>
      cases right with
      | boolean _ z =>
          simp only [order]
          exact compose_compare x.toNat y.toNat z.toNat
      | number none _ => cases none
  | string x y =>
      cases right with
      | string _ z =>
          simp only [order]
          exact compose_compareText x y z
      | number none _ => cases none
  | dateTime x y =>
      cases right with
      | dateTime _ z =>
          simp only [order, ← Int64.compare_toInt]
          exact compose_compare x.toInt y.toInt z.toInt
      | number none _ => cases none
  | list _ _ => exact absurd scalar (show ¬5 ≤ 4 by decide)
  | record _ _ => exact absurd scalar (show ¬6 ≤ 4 by decide)
  | @number _ _ x y isFirst isSecond =>
      obtain ⟨z, isThird⟩ : ∃ z, third.number? = some z := by
        cases right with
        | number _ isThird => exact ⟨_, isThird⟩
        | _ => cases isSecond
      rw [numbers_of_number? isFirst, numbers_of_number? isSecond, numbers_of_number? isThird]
        at fit
      rw [order_of_numbers isFirst isSecond, order_of_numbers isSecond isThird,
        order_of_numbers isFirst isThird, fit.totalCompare (by simp) (by simp),
        fit.totalCompare (by simp) (by simp), fit.totalCompare (by simp) (by simp)]
      exact Number.compose_compareKeys x.key y.key z.key

mutual
theorem compose_order (first second third : Value)
    (fit : Number.FitTogether (first.numbers ++ second.numbers ++ third.numbers)) :
    Compose (first.order second) (second.order third) (first.order third) := by
  by_cases same : first.kindRank = second.kindRank ∧ second.kindRank = third.kindRank
  · have left := SameKind.of_kindRank same.1
    have right := SameKind.of_kindRank same.2
    cases first with
    | list items =>
        cases left with
        | list _ others =>
            cases right with
            | list _ more =>
                simp only [order]
                exact compose_orderItems items others more fit
            | number none _ => cases none
        | number none _ => cases none
    | record fields =>
        cases left with
        | record _ others =>
            cases right with
            | record _ more =>
                simp only [order]
                exact compose_orderFields fields others more fit
            | number none _ => cases none
        | number none _ => cases none
    | _ => exact compose_of_scalar left right (by simp only [kindRank]; decide) fit
  · exact compose_of_kindRank_ne same
termination_by structural first

theorem compose_orderItems (first second third : List Value)
    (fit : Number.FitTogether (numbersOfItems first ++ numbersOfItems second ++
      numbersOfItems third)) :
    Compose (orderItems first second) (orderItems second third) (orderItems first third) := by
  cases first with
  | nil =>
      cases second with
      | nil => cases third <;> rfl
      | cons _ _ =>
          cases third with
          | nil => trivial
          | cons _ _ =>
              simp only [orderItems]
              exact Compose.of_left _ nofun
  | cons x xs =>
      cases second with
      | nil => cases third <;> simp only [orderItems] <;> trivial
      | cons y ys =>
          cases third with
          | nil =>
              simp only [orderItems]
              exact Compose.of_right _ nofun
          | cons z zs =>
              simp only [orderItems]
              have here := compose_order x y z (fit.mono (by simp [numbersOfItems]; grind))
              have behind := compose_orderItems xs ys zs
                (fit.mono (by simp [numbersOfItems]; grind))
              exact here.andThen behind
termination_by structural first

theorem compose_orderFields (first second third : List (String × Value))
    (fit : Number.FitTogether (numbersOfFields first ++ numbersOfFields second ++
      numbersOfFields third)) :
    Compose (orderFields first second) (orderFields second third) (orderFields first third) := by
  cases first with
  | nil =>
      cases second with
      | nil => cases third <;> rfl
      | cons _ _ =>
          cases third with
          | nil => trivial
          | cons _ _ =>
              simp only [orderFields]
              exact Compose.of_left _ nofun
  | cons field xs =>
      obtain ⟨name, x⟩ := field
      cases second with
      | nil => cases third <;> simp only [orderFields] <;> trivial
      | cons field ys =>
          obtain ⟨otherName, y⟩ := field
          cases third with
          | nil =>
              simp only [orderFields]
              exact Compose.of_right _ nofun
          | cons field zs =>
              obtain ⟨moreName, z⟩ := field
              simp only [orderFields]
              have here := compose_order x y z (fit.mono (by simp [numbersOfFields]; grind))
              have behind := compose_orderFields xs ys zs
                (fit.mono (by simp [numbersOfFields]; grind))
              exact ((compose_compareText name otherName moreName).andThen here).andThen behind
termination_by structural first
end

/-- The order is a total preorder: it has two sides, and a value no greater than a second one that
is itself no greater than a third is no greater than the third, if the numbers in the three fit
together. -/
theorem order_total_preorder (first second third : Value) :
    first.order second = (second.order first).swap ∧
      (Number.FitTogether (first.numbers ++ second.numbers ++ third.numbers) →
        first.order second ≠ .gt → second.order third ≠ .gt → first.order third ≠ .gt) :=
  ⟨order_swap first second, fun fit => (compose_order first second third fit).ne_gt⟩

theorem order_total_preorder_nested :
    Value.order (.list [.int64 1]) (.list [.double (.ofInt 1), .null]) ≠ .gt ∧
      Value.order (.list [.double (.ofInt 1), .null]) (.list [.decimal (.ofInt 2)]) ≠ .gt ∧
      Value.order (.list [.int64 1]) (.list [.decimal (.ofInt 2)]) ≠ .gt := by
  have first : Value.order (.list [.int64 1]) (.list [.double (.ofInt 1), .null]) ≠ .gt := by
    decide +kernel
  have second :
      Value.order (.list [.double (.ofInt 1), .null]) (.list [.decimal (.ofInt 2)]) ≠ .gt := by
    decide +kernel
  refine ⟨first, second, (order_total_preorder _ _ _).2 ?_ first second⟩
  intro _ x member
  rcases List.mem_cons.mp member with rfl | member
  · exact (by decide : (1 : Int).natAbs ≤ exactBound)
  rcases List.mem_cons.mp member with rfl | member
  · trivial
  obtain rfl := List.mem_singleton.mp member
  exact (by decide +kernel : (Decimal.ofInt 2).toDouble.isFinite = true)

/-- An integer of one bit more than the mantissa of a double is equal to the even double below it,
which is equal to the integer of the same value, and the first integer is greater than the second.
-/
theorem order_wide_integers_not_transitive :
    ¬∀ first second third : Value,
      first.order second ≠ .gt → second.order third ≠ .gt → first.order third ≠ .gt := by
  intro transitive
  refine transitive (.int64 9007199254740993) (.double (.ofInt 9007199254740992))
    (.int64 9007199254740992) ?_ ?_ ?_ <;> decide +kernel

end Value

end StreamQuery
