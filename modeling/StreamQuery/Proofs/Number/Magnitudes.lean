import StreamQuery.Number.Binary
import StreamQuery.Proofs.Number.DecimalValues
namespace StreamQuery

/-! The rational numbers that patterns without a sign stand for, and the halfway points between
them. Patterns from infinity on are read as if the exponents went on, so that a number that is too
large rounds to one of them. -/

namespace BinaryFormat

variable (format : BinaryFormat)

def mantissaOf (magnitude : Nat) : Nat :=
  if magnitude < powTwo format.fractionBits then magnitude
  else powTwo format.fractionBits + magnitude % powTwo format.fractionBits

def exponentOf (magnitude : Nat) : Int :=
  format.leastExponent + (magnitude / powTwo format.fractionBits - 1 : Nat)

def valueOf (magnitude : Nat) : ℚ :=
  format.mantissaOf magnitude * 2 ^ format.exponentOf magnitude

def midpoint (magnitude : Nat) : ℚ :=
  (format.valueOf magnitude + format.valueOf (magnitude + 1)) / 2

/-- The places of a block of numbers with one exponent; the smallest numbers belong to block zero.
-/
structure InBlock (block place : Nat) : Prop where
  normal : 0 < block → powTwo format.fractionBits ≤ place
  bounded : place ≤ 2 * powTwo format.fractionBits

variable {format}

theorem powTwo_pos (exponent : Nat) : 0 < powTwo exponent :=
  Nat.pow_pos (by decide)

theorem InBlock.fields {block place : Nat} (inBlock : format.InBlock block place)
    (inner : place < 2 * powTwo format.fractionBits) :
    format.mantissaOf (block * powTwo format.fractionBits + place) = place ∧
      format.exponentOf (block * powTwo format.fractionBits + place) =
        format.leastExponent + block := by
  have normal := inBlock.normal
  have positive := powTwo_pos format.fractionBits
  simp only [mantissaOf, exponentOf]
  generalize powTwo format.fractionBits = unit at *
  rcases Nat.lt_or_ge place unit with small | normal
  · obtain rfl : block = 0 := by omega
    simp [small, Nat.div_eq_of_lt small]
  · obtain ⟨rest, rfl⟩ := Nat.exists_eq_add_of_le normal
    have large : ¬block * unit + (unit + rest) < unit := by omega
    have below : rest < unit := by omega
    have whole : block * unit + (unit + rest) = rest + (block + 1) * unit := by ring
    rw [if_neg large, whole, Nat.add_mul_mod_self_right, Nat.mod_eq_of_lt below,
      Nat.add_mul_div_right _ _ positive, Nat.div_eq_of_lt below]
    simp

theorem InBlock.next (block : Nat) :
    format.InBlock (block + 1) (powTwo format.fractionBits) ∧
      block * powTwo format.fractionBits + 2 * powTwo format.fractionBits =
        (block + 1) * powTwo format.fractionBits + powTwo format.fractionBits :=
  ⟨⟨fun _ => le_rfl, Nat.le_mul_of_pos_left _ (by decide)⟩, by ring⟩

theorem InBlock.valueOf {block place : Nat} (inBlock : format.InBlock block place) :
    format.valueOf (block * powTwo format.fractionBits + place) =
      place * 2 ^ (format.leastExponent + block) := by
  have positive := powTwo_pos format.fractionBits
  rcases Nat.lt_or_ge place (2 * powTwo format.fractionBits) with inner | last
  · rw [BinaryFormat.valueOf, (inBlock.fields inner).1, (inBlock.fields inner).2]
  · obtain rfl : place = 2 * powTwo format.fractionBits := Nat.le_antisymm inBlock.bounded last
    have next := @InBlock.next format block
    have fields := next.1.fields (by omega)
    rw [next.2, BinaryFormat.valueOf, fields.1, fields.2]
    push_cast
    rw [← add_assoc, zpow_add_one₀ (by norm_num)]
    ring

theorem InBlock.before {block place lower : Nat} (inBlock : format.InBlock block place)
    (next : lower + 1 = block * powTwo format.fractionBits + place) :
    (0 < block ∧ place = powTwo format.fractionBits) ∨
      ∃ before, place = before + 1 ∧ lower = block * powTwo format.fractionBits + before ∧
        format.InBlock block before := by
  by_cases first : 0 < block ∧ place = powTwo format.fractionBits
  · exact .inl first
  · have normal := inBlock.normal
    have bounded := inBlock.bounded
    have positive := powTwo_pos format.fractionBits
    have later : 0 < place ∧ (0 < block → powTwo format.fractionBits < place) := by
      rcases Nat.eq_zero_or_pos block with rfl | later
      · omega
      · have least := normal later
        have different := mt (And.intro later) first
        omega
    refine .inr ⟨place - 1, by omega, by omega, fun positive => ?_, by omega⟩
    have least := later.2 positive
    omega

/-- Every pattern has a place in a block, and is not the last there. -/
theorem exists_block (format : BinaryFormat) (magnitude : Nat) :
    ∃ block place, format.InBlock block place ∧
    place < 2 * powTwo format.fractionBits ∧
    magnitude = block * powTwo format.fractionBits + place := by
  have positive := powTwo_pos format.fractionBits
  rcases Nat.lt_or_ge magnitude (powTwo format.fractionBits) with small | normal
  · exact ⟨0, magnitude, ⟨fun wrong => absurd wrong (Nat.lt_irrefl 0), by omega⟩, by omega,
      by omega⟩
  · have parts := Nat.div_add_mod magnitude (powTwo format.fractionBits)
    have rest := Nat.mod_lt magnitude positive
    obtain ⟨block, field⟩ : ∃ block, magnitude / powTwo format.fractionBits = block + 1 :=
      ⟨_, (Nat.succ_pred_eq_of_pos (Nat.div_pos normal positive)).symm⟩
    rw [field, Nat.mul_comm] at parts
    refine ⟨block, powTwo format.fractionBits + magnitude % powTwo format.fractionBits,
      ⟨fun _ => Nat.le_add_right _ _, by omega⟩, by omega, ?_⟩
    rw [← Nat.add_assoc, ← Nat.succ_mul]
    exact parts.symm

theorem valueOf_lt_succ (format : BinaryFormat) (magnitude : Nat) :
    format.valueOf magnitude < format.valueOf (magnitude + 1) := by
  rcases exists_block format magnitude with ⟨block, place, inBlock, inner, rfl⟩
  have next : format.InBlock block (place + 1) :=
    ⟨fun positive => Nat.le_succ_of_le (inBlock.normal positive), inner⟩
  rw [inBlock.valueOf, Nat.add_assoc, next.valueOf]
  have unit : (0 : ℚ) < 2 ^ (format.leastExponent + block) := by positivity
  push_cast
  linarith

theorem valueOf_lt_midpoint (format : BinaryFormat) (magnitude : Nat) :
    format.valueOf magnitude < format.midpoint magnitude := by
  have step := valueOf_lt_succ format magnitude
  simp only [midpoint]
  linarith

theorem midpoint_lt_valueOf (format : BinaryFormat) (magnitude : Nat) :
    format.midpoint magnitude < format.valueOf (magnitude + 1) := by
  have step := valueOf_lt_succ format magnitude
  simp only [midpoint]
  linarith

theorem InBlock.midpoint {block place : Nat} (inBlock : format.InBlock block place)
    (following : format.InBlock block (place + 1)) :
    format.midpoint (block * powTwo format.fractionBits + place) =
      (place + 1 / 2) * 2 ^ (format.leastExponent + block) := by
  rw [BinaryFormat.midpoint, Nat.add_assoc, following.valueOf, inBlock.valueOf]
  push_cast
  ring

theorem strictMono_valueOf : StrictMono format.valueOf :=
  strictMono_nat_of_lt_succ format.valueOf_lt_succ

theorem strictMono_midpoint : StrictMono format.midpoint :=
  strictMono_nat_of_lt_succ fun magnitude =>
    (format.midpoint_lt_valueOf magnitude).trans (format.valueOf_lt_midpoint (magnitude + 1))

theorem valueOf_zero : format.valueOf 0 = 0 := by
  simp [valueOf, mantissaOf, powTwo_pos]

theorem valueOf_nonneg (format : BinaryFormat) (magnitude : Nat) :
    0 ≤ format.valueOf magnitude := by
  simp only [valueOf]
  positivity

/-! Rounding to the nearest number, of two equally near ones to the even one. -/

variable (format)

/-- The value lies between the halfway points around the number, on one of them only if the number
is even. -/
structure RoundsTo (value : ℚ) (magnitude : Nat) : Prop where
  above : ∀ lower, lower + 1 = magnitude →
    format.midpoint lower ≤ value ∧ (format.midpoint lower = value → Even magnitude)
  below : value ≤ format.midpoint magnitude ∧ (value = format.midpoint magnitude → Even magnitude)

variable {format}

theorem roundsTo_valueOf (magnitude : Nat) :
    format.RoundsTo (format.valueOf magnitude) magnitude := by
  constructor
  · rintro lower rfl
    have less := midpoint_lt_valueOf format lower
    exact ⟨less.le, fun same => absurd same less.ne⟩
  · have less := valueOf_lt_midpoint format magnitude
    exact ⟨less.le, fun same => absurd same less.ne⟩

theorem RoundsTo.mono {first second : ℚ} {lower upper : Nat} (ofFirst : format.RoundsTo first lower)
    (ofSecond : format.RoundsTo second upper) (ordered : first ≤ second) : lower ≤ upper := by
  by_contra reversed
  obtain ⟨between, rfl⟩ : ∃ between, lower = between + 1 := ⟨lower - 1, by omega⟩
  have above := ofFirst.above between rfl
  have below := ofSecond.below
  have mids : format.midpoint upper ≤ format.midpoint between :=
    strictMono_midpoint.monotone (by omega)
  -- All are equal, so the two numbers are neighbours, and both even.
  have same : format.midpoint upper = format.midpoint between := by linarith
  obtain rfl : upper = between := strictMono_midpoint.injective same
  have lowerEven := above.2 (by linarith)
  have upperEven := below.2 (by linarith)
  exact Nat.not_even_iff_odd.mpr upperEven.add_one lowerEven

theorem RoundsTo.unique {value : ℚ} {first second : Nat} (ofFirst : format.RoundsTo value first)
    (ofSecond : format.RoundsTo value second) : first = second :=
  Nat.le_antisymm (ofFirst.mono ofSecond le_rfl) (ofSecond.mono ofFirst le_rfl)

theorem RoundsTo.lt {first second : ℚ} {lower upper : Nat} (ofFirst : format.RoundsTo first lower)
    (ofSecond : format.RoundsTo second upper) (less : lower < upper) : first < second := by
  by_contra reversed
  exact absurd (ofSecond.mono ofFirst (le_of_not_gt reversed)) (Nat.not_le.mpr less)

end BinaryFormat

end StreamQuery
