import Mathlib.Data.List.Induction
import StreamQuery.Proofs.Number.Comparison
import StreamQuery.Proofs.Number.IntegerArithmetic
namespace StreamQuery.Number

/-! Numbers that are added up one after the other. Two numbers have a sum unless one is a decimal
and the other is not finite; then the total is lost, and the next number begins a new one. -/

variable {x y : Number} {numbers : List Number}

/-- The two have no sum. -/
def Clashes (x y : Number) : Prop :=
  (x.isDecimal ∧ (y.isNaN ∨ y.isInfinite)) ∨ ((x.isNaN ∨ x.isInfinite) ∧ y.isDecimal)

theorem onDecimals?_eq_none_iff (operation : Operation) (x y : Number) :
    onDecimals? operation x y = none ↔ x.toDecimal? = none ∨ y.toDecimal? = none := by
  simp only [onDecimals?]
  cases x.toDecimal? <;> cases y.toDecimal? <;> simp

theorem add_of_decimal (decimal : x.isDecimal ∨ y.isDecimal) :
    arithmetic? .add x y = onDecimals? .add x y := by
  cases x <;> cases y <;> first | rfl | simp [isDecimal] at decimal

theorem add_of_exact (exact : x.isDecimal = false) (otherExact : y.isDecimal = false) :
    ∃ total, arithmetic? .add x y = some total ∧ total.isDecimal = false := by
  cases x with
  | decimal x => cases exact
  | float x =>
      cases y with
      | decimal y => cases otherExact
      | int y | float y => exact ⟨.float _, rfl, rfl⟩
  | int x =>
      cases y with
      | decimal y => cases otherExact
      | float y => exact ⟨.float _, rfl, rfl⟩
      | int y =>
          have divisor : ¬(Operation.add.divides ∧ y = 0) := by simp [Operation.divides]
          cases found : Operation.add.onIntegers? x y with
          | some whole => exact ⟨.int whole, arithmetic?_of_onIntegers x y .add divisor found, rfl⟩
          | none => exact ⟨.float _, arithmetic?_of_onFloats x y .add divisor found, rfl⟩

theorem add_eq_none_iff (x y : Number) : arithmetic? .add x y = none ↔ x.Clashes y := by
  by_cases decimal : x.isDecimal ∨ y.isDecimal
  · rw [add_of_decimal decimal, onDecimals?_eq_none_iff, toDecimal?_eq_none_iff,
      toDecimal?_eq_none_iff, Clashes]
    cases x <;> cases y <;> simp [isDecimal, isNaN, isInfinite] at *
  · simp only [not_or, Bool.not_eq_true] at decimal
    rcases add_of_exact decimal.1 decimal.2 with ⟨total, adds, _⟩
    exact iff_of_false (by simp [adds]) (by simp [Clashes, decimal])

def addTo (total : Option Number) (x : Number) : Option Number :=
  match total with
  | none => some x
  | some total => arithmetic? .add total x

def totalOf (numbers : List Number) : Option Number :=
  numbers.foldl addTo none

/-- All of the numbers added up from the left, if there is one and if every sum on the way exists.
-/
def sum? : List Number → Option Number
  | [] => none
  | first :: rest => rest.foldlM (arithmetic? .add) first

/-- The last of the numbers clashes with the total of those before it. -/
def Discards (numbers : List Number) : Prop :=
  ∃ before x total, numbers = before ++ [x] ∧ totalOf before = some total ∧ total.Clashes x

theorem totalOf_concat (numbers : List Number) (x : Number) :
    totalOf (numbers ++ [x]) = addTo (totalOf numbers) x := by
  rw [totalOf, List.foldl_append]
  rfl

theorem discards_concat_iff {before : List Number} :
    Discards (before ++ [x]) ↔ ∃ total, totalOf before = some total ∧ total.Clashes x := by
  constructor
  · rintro ⟨others, y, total, same, found, clashes⟩
    obtain ⟨rfl, last⟩ := List.append_inj' same rfl
    obtain rfl := List.singleton_inj.mp last
    exact ⟨total, found, clashes⟩
  · rintro ⟨total, found, clashes⟩
    exact ⟨before, x, total, rfl, found, clashes⟩

theorem totalOf_eq_none_iff (numbers : List Number) :
    totalOf numbers = none ↔ numbers = [] ∨ Discards numbers := by
  induction numbers using List.reverseRecOn with
  | nil => simp [totalOf]
  | append_singleton before x _ =>
      rw [totalOf_concat, discards_concat_iff]
      cases totalOf before with
      | none => simp [addTo]
      | some total => simp [addTo, add_eq_none_iff]

theorem sum?_concat (first : Number) (rest : List Number) (x : Number) :
    sum? (first :: rest ++ [x]) = (sum? (first :: rest)).bind (arithmetic? .add · x) := by
  rw [List.cons_append, sum?, List.foldlM_append, sum?]
  cases rest.foldlM (arithmetic? .add) first with
  | none => rfl
  | some total => exact bind_pure (arithmetic? .add total x)

theorem totalOf_eq_sum? (kept : ∀ initial, initial <+: numbers → ¬Discards initial) :
    totalOf numbers = sum? numbers := by
  induction numbers using List.reverseRecOn with
  | nil => rfl
  | append_singleton before x induction =>
      have begins : before <+: before ++ [x] := List.prefix_append _ _
      have earlier := induction fun initial within => kept initial (within.trans begins)
      rw [totalOf_concat, earlier]
      cases before with
      | nil => rfl
      | cons first rest =>
          have found : totalOf (first :: rest) ≠ none := by
            rw [ne_eq, totalOf_eq_none_iff]
            exact not_or.mpr ⟨nofun, kept _ begins⟩
          obtain ⟨total, found⟩ := Option.ne_none_iff_exists'.mp found
          rw [sum?_concat, ← earlier, found]
          rfl

theorem isDecimal_totalOf (exact : ∀ x ∈ numbers, x.isDecimal = false) {total : Number}
    (found : totalOf numbers = some total) : total.isDecimal = false := by
  induction numbers using List.reverseRecOn generalizing total with
  | nil => cases found
  | append_singleton before x induction =>
      have parts := List.forall_mem_append.mp exact
      have last := parts.2 x (List.mem_singleton_self x)
      rw [totalOf_concat] at found
      cases earlier : totalOf before with
      | none =>
          rw [earlier] at found
          cases found
          exact last
      | some sum =>
          rcases add_of_exact (induction parts.1 earlier) last with ⟨sum, adds, result⟩
          rw [earlier, addTo, adds] at found
          cases found
          exact result

theorem not_discards_of_exact (exact : ∀ x ∈ numbers, x.isDecimal = false) : ¬Discards numbers := by
  rintro ⟨before, x, total, rfl, found, clashes⟩
  have parts := List.forall_mem_append.mp exact
  have first := isDecimal_totalOf parts.1 found
  have last := parts.2 x (List.mem_singleton_self x)
  simp [Clashes, first, last] at clashes

/-- Integers are added up exactly if every sum on the way has 64 bits. -/
theorem totalOf_integers {whole : List Int64} (present : whole ≠ [])
    (fits : ∀ initial, initial <+: whole →
      -2 ^ 63 ≤ (initial.map Int64.toInt).sum ∧ (initial.map Int64.toInt).sum < 2 ^ 63) :
    ∃ total : Int64, totalOf (whole.map .int) = some (.int total) ∧
      total.toInt = (whole.map Int64.toInt).sum := by
  induction whole using List.reverseRecOn with
  | nil => exact absurd rfl present
  | append_singleton before x induction =>
      have begins : before <+: before ++ [x] := List.prefix_append _ _
      have exact := fits _ (List.prefix_refl _)
      rw [List.map_append, List.map_singleton, totalOf_concat, List.map_append, List.map_singleton,
        List.sum_append, List.sum_singleton]
      rw [List.map_append, List.map_singleton, List.sum_append, List.sum_singleton] at exact
      by_cases first : before = []
      · subst first
        exact ⟨x, rfl, by simp⟩
      · rcases induction first fun initial within => fits initial (within.trans begins) with
          ⟨earlier, found, same⟩
        have divisor : ¬(Operation.add.divides ∧ x = 0) := by simp [Operation.divides]
        have sum : (Int64.ofInt (earlier.toInt + x.toInt)).toInt = earlier.toInt + x.toInt :=
          Int64.toInt_ofInt_of_le (by omega) (by omega)
        have adds : Operation.add.onIntegers? earlier x =
            some (Int64.ofInt (earlier.toInt + x.toInt)) :=
          (onIntegers?_eq_some_iff earlier x .add _).mpr ⟨sum.symm, fun corner => nomatch corner.1⟩
        rw [found]
        exact ⟨_, arithmetic?_of_onIntegers earlier x .add divisor adds, by rw [sum, same]⟩

end StreamQuery.Number
