namespace StreamQuery

/-! Reading and writing the decimal digits of naturals and integers. -/

namespace Digits

def value? (character : Char) : Option Nat :=
  if '0' ≤ character ∧ character ≤ '9' then some (character.toNat - '0'.toNat) else none

def isDigit (character : Char) : Bool :=
  (value? character).isSome

def toNat (digits : List Char) (read : Nat) : Nat :=
  digits.foldl (fun read character => 10 * read + (value? character).getD 0) read

def nat? (characters : List Char) : Option Nat :=
  if characters.isEmpty || !characters.all isDigit then none else some (toNat characters 0)

def ofNat (value : Nat) : List Char :=
  Nat.toDigits 10 value

def padded (width value : Nat) : List Char :=
  let digits := ofNat value
  List.replicate (width - digits.length) '0' ++ digits

def ofInt (value : Int) : List Char :=
  if value < 0 then '-' :: ofNat value.natAbs else ofNat value.natAbs

def hexValue? (character : Char) : Option Nat :=
  if '0' ≤ character ∧ character ≤ '9' then some (character.toNat - '0'.toNat)
  else if 'a' ≤ character ∧ character ≤ 'f' then some (character.toNat - 'a'.toNat + 10)
  else if 'A' ≤ character ∧ character ≤ 'F' then some (character.toNat - 'A'.toNat + 10)
  else none

def hexNat? (characters : List Char) : Option Nat :=
  if characters.isEmpty then none
  else characters.foldlM (fun read character => (hexValue? character).map (16 * read + ·)) 0

/-! An integer text is an optional sign and digits. -/

def splitSign : List Char → Bool × List Char
  | '-' :: rest => (true, rest)
  | '+' :: rest => (false, rest)
  | rest => (false, rest)

def int? (characters : List Char) : Option Int :=
  let (negative, digits) := splitSign characters
  (nat? digits).map fun value => if negative then -value else value

end Digits

/-! Integers of 64 and of 32 bits, where the value is in their range. -/

def toInt64? (value : Int) : Option Int64 :=
  if -9223372036854775808 ≤ value ∧ value ≤ 9223372036854775807 then some (Int64.ofInt value) else none

def toInt32? (value : Int) : Option Int32 :=
  if -2147483648 ≤ value ∧ value ≤ 2147483647 then some (Int32.ofInt value) else none

def Digits.int64? (characters : List Char) : Option Int64 :=
  (int? characters).bind toInt64?

end StreamQuery
