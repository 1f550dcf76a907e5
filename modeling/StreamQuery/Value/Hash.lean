import StreamQuery.Number.Digits
import StreamQuery.Value.Basic
namespace StreamQuery

/-! What values give to a hash, as a list of words. Values that are structurally equal give the same
words, although they may be written in several ways: zeros have two signs, and decimals of one
value differ in the zeros at the end of their digits. -/

/-- The bytes of the text, and one that is part of no text. -/
def Text.hashed (text : String) : List Nat :=
  text.toByteArray.data.toList.map UInt8.toNat ++ [255]

def Binary.hashed {format : BinaryFormat} (x : Binary format) : Nat :=
  if x.isZero then 0 else x.bits.toNat

def Decimal.hashed (x : Decimal) : List Nat :=
  let digits := (Digits.ofNat x.digits.natAbs).reverse.dropWhile (· == '0')
  (if x.digits < 0 then 1 else 0) :: digits.length :: digits.map Char.toNat

namespace Value

mutual
def hashed : Value → List Nat
  | .null => [0]
  | .boolean value => [1, value.toNat]
  | .int32 value => [2, value.toUInt32.toNat]
  | .int64 value => [3, value.toUInt64.toNat]
  | .single value => [4, value.hashed]
  | .double value => [5, value.hashed]
  | .decimal value => 6 :: value.hashed
  | .string text => 7 :: Text.hashed text
  | .dateTime millis => [8, millis.toUInt64.toNat]
  | .list items => 9 :: items.length :: hashedItems items
  | .record fields => 10 :: fields.length :: hashedFields fields

def hashedItems : List Value → List Nat
  | [] => []
  | item :: rest => item.hashed ++ hashedItems rest

def hashedFields : List (String × Value) → List Nat
  | [] => []
  | (key, value) :: rest => Text.hashed key ++ value.hashed ++ hashedFields rest
end

def hashOf (words : List Nat) : Nat :=
  words.foldl (fun hash word => (hash ^^^ word) * 1099511628211 % 18446744073709551616)
    14695981039346656037

def keyHash (key : List Value) : Nat :=
  hashOf (key.length :: hashedItems key)

end Value

end StreamQuery
