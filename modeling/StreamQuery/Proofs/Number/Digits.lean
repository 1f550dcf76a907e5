import StreamQuery.Proofs.Number.DoubleDecimals
import StreamQuery.Text.Blank
namespace StreamQuery

/-! Integers that have been written are read back, and there are no blanks in what is written. -/

namespace Digits

theorem value?_eq (character : Char) :
    value? character =
      if character.isDigit then some (character.toNat - '0'.toNat) else none := by
  simp only [value?, Char.isDigit, Char.le_def, Bool.and_eq_true, decide_eq_true_eq, ge_iff_le]

theorem isDigit_eq (character : Char) : isDigit character = character.isDigit := by
  rw [isDigit, value?_eq]
  cases character.isDigit <;> rfl

theorem toNat_eq {digits : List Char} (all : ∀ digit ∈ digits, isDigit digit) (read : Nat) :
    toNat digits read = Nat.ofDigitChars 10 digits read := by
  induction digits generalizing read with
  | nil => rfl
  | cons digit digits induction =>
      have parts := List.forall_mem_cons.mp all
      have value : (value? digit).getD 0 = digit.toNat - '0'.toNat := by
        rw [value?_eq, if_pos (isDigit_eq digit ▸ parts.1)]
        rfl
      change toNat digits (10 * read + (value? digit).getD 0) = _
      rw [value]
      exact induction parts.2 _

theorem isDigit_of_mem_ofNat {value : Nat} {digit : Char} (member : digit ∈ ofNat value) :
    isDigit digit := by
  rw [isDigit_eq]
  exact Nat.isDigit_of_mem_toDigits (by decide) (by decide) member

theorem toNat_ofNat (value : Nat) : toNat (ofNat value) 0 = value := by
  rw [toNat_eq fun _ => isDigit_of_mem_ofNat]
  exact Nat.ofDigitChars_toDigits (by decide) (by decide)

theorem ofNat_ne_nil (value : Nat) : ofNat value ≠ [] :=
  Nat.toDigits_ne_nil

theorem nat?_ofNat (value : Nat) : nat? (ofNat value) = some value := by
  have digits : (ofNat value).all isDigit := List.all_eq_true.mpr fun _ => isDigit_of_mem_ofNat
  simp [nat?, ofNat_ne_nil, digits, toNat_ofNat]

/-! Digits with zeros in front. -/

theorem isDigit_of_mem_padded {width value : Nat} {digit : Char}
    (member : digit ∈ padded width value) : isDigit digit := by
  rcases List.mem_append.mp member with zero | digit
  · rw [List.eq_of_mem_replicate zero]
    rfl
  · exact isDigit_of_mem_ofNat digit

theorem padded_ne_nil (width value : Nat) : padded width value ≠ [] :=
  List.append_ne_nil_of_right_ne_nil _ (ofNat_ne_nil value)

theorem length_padded {width value : Nat} (positive : 0 < width) (small : value < 10 ^ width) :
    (padded width value).length = width := by
  have short : (ofNat value).length ≤ width :=
    (Nat.length_toDigits_le_iff (by decide) positive).mpr small
  simp only [padded, List.length_append, List.length_replicate]
  omega

theorem toNat_replicate (count : Nat) : toNat (List.replicate count '0') 0 = 0 := by
  induction count with
  | zero => rfl
  | succ count induction => exact induction

theorem toNat_padded (width value : Nat) : toNat (padded width value) 0 = value := by
  rw [padded, toNat, List.foldl_append]
  change toNat (ofNat value) (toNat (List.replicate _ '0') 0) = value
  rw [toNat_replicate, toNat_ofNat]

/-! Signs. -/

theorem splitSign_of_isDigit {digit : Char} (valid : isDigit digit) (rest : List Char) :
    splitSign (digit :: rest) = (false, digit :: rest) := by
  unfold splitSign
  split
  · next same =>
      cases same
      cases valid
  · next same =>
      cases same
      cases valid
  · rfl

theorem splitSign_ofNat (value : Nat) : splitSign (ofNat value) = (false, ofNat value) := by
  obtain ⟨digit, rest, digits⟩ := List.exists_cons_of_ne_nil (ofNat_ne_nil value)
  rw [digits]
  exact splitSign_of_isDigit (isDigit_of_mem_ofNat (digits ▸ List.mem_cons_self)) rest

theorem int?_ofInt (value : Int) : int? (ofInt value) = some value := by
  unfold ofInt
  split
  · next negative =>
      have back : -(value.natAbs : Int) = value := by omega
      simp only [int?, splitSign, nat?_ofNat, if_true]
      exact congrArg some back
  · next positive =>
      have back : (value.natAbs : Int) = value := by omega
      simp only [int?, splitSign_ofNat, nat?_ofNat]
      exact congrArg some back

theorem int64?_ofInt (value : Int64) : int64? (ofInt value.toInt) = some value := by
  rw [int64?, int?_ofInt]
  exact Number.toInt64?_toInt value

theorem int?_eq_none {first character : Char} {rest : List Char} (member : character ∈ rest)
    (other : isDigit character = false) : int? (first :: rest) = none := by
  have apart {digits : List Char} (member : character ∈ digits) : nat? digits = none := by
    have some_other : digits.all isDigit = false :=
      List.all_eq_false.mpr ⟨character, member, by simp [other]⟩
    simp [nat?, some_other]
  have inside : character ∈ (splitSign (first :: rest)).2 := by
    unfold splitSign
    split
    · next same => exact (List.cons.inj same).2 ▸ member
    · next same => exact (List.cons.inj same).2 ▸ member
    · exact List.mem_cons_of_mem first member
  simp only [int?, apart inside]
  rfl

end Digits

namespace Text

theorem trimCharacters_of_not_isBlank {characters : List Char}
    (solid : ∀ character ∈ characters, isBlank character = false) :
    trimCharacters characters = characters := by
  have keeps {characters : List Char}
      (solid : ∀ character ∈ characters, isBlank character = false) :
      dropBlanks characters = characters := by
    cases characters with
    | nil => rfl
    | cons character rest =>
        have first : isBlank character = false := solid character List.mem_cons_self
        simp [dropBlanks, List.dropWhile, first]
  have reversed : ∀ character ∈ characters.reverse, isBlank character = false :=
    fun character member => solid character (List.mem_reverse.mp member)
  rw [trimCharacters, keeps solid, keeps reversed, List.reverse_reverse]

theorem isBlank_of_isDigit {character : Char} (digit : Digits.isDigit character) :
    isBlank character = false := by
  rw [Digits.isDigit_eq] at digit
  simp only [Char.isDigit, Bool.and_eq_true, decide_eq_true_eq, ge_iff_le, UInt32.le_iff_toNat_le]
    at digit
  have bounds : 48 ≤ character.toNat ∧ character.toNat ≤ 57 := digit
  simp [isBlank, inRanges, blankRanges]
  omega

theorem trimCharacters_ofInt (value : Int) :
    trimCharacters (Digits.ofInt value) = Digits.ofInt value := by
  refine trimCharacters_of_not_isBlank fun character member => ?_
  unfold Digits.ofInt at member
  split at member
  · rcases List.mem_cons.mp member with rfl | digit
    · rfl
    · exact isBlank_of_isDigit (Digits.isDigit_of_mem_ofNat digit)
  · exact isBlank_of_isDigit (Digits.isDigit_of_mem_ofNat member)

end Text

end StreamQuery
