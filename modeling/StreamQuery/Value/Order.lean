import StreamQuery.Time.Timestamp
import StreamQuery.Value.Record
namespace StreamQuery

namespace Value

/-! Structural equality. Kinds are told apart, within a kind numbers compare by value, and a
floating-point pattern equals itself. -/

def samePattern {format : BinaryFormat} (left right : Binary format) : Bool :=
  left == right || left.equals right

mutual
def equals : Value → Value → Bool
  | .null, .null => true
  | .boolean left, .boolean right => left == right
  | .int32 left, .int32 right => left == right
  | .int64 left, .int64 right => left == right
  | .single left, .single right => samePattern left right
  | .double left, .double right => samePattern left right
  | .decimal left, .decimal right => left.equals right
  | .string left, .string right => left == right
  | .dateTime left, .dateTime right => left == right
  | .list left, .list right => equalItems left right
  | .record left, .record right => equalFields left right
  | _, _ => false

def equalItems : List Value → List Value → Bool
  | [], [] => true
  | left :: lefts, right :: rights => left.equals right && equalItems lefts rights
  | _, _ => false

def equalFields : List (String × Value) → List (String × Value) → Bool
  | [], [] => true
  | (leftKey, left) :: lefts, (rightKey, right) :: rights =>
      leftKey == rightKey && left.equals right && equalFields lefts rights
  | _, _ => false
end

/-! The total order: nulls first, then booleans, numbers, texts, timestamps, lists and records;
lists and records are ordered by the first difference. -/

def kindRank : Value → Nat
  | .null => 0
  | .boolean _ => 1
  | .int32 _ | .int64 _ | .single _ | .double _ | .decimal _ => 2
  | .string _ => 3
  | .dateTime _ => 4
  | .list _ => 5
  | .record _ => 6

def compareText (left right : String) : Ordering :=
  if left = right then .eq else if left < right then .lt else .gt

def compareScalars (left right : Value) : Ordering :=
  match left.number?, right.number? with
  | some left, some right => left.totalCompare right
  | _, _ => compare left.kindRank right.kindRank

mutual
def order : Value → Value → Ordering
  | .boolean left, .boolean right => compare left.toNat right.toNat
  | .string left, .string right => compareText left right
  | .dateTime left, .dateTime right => compare left right
  | .list left, .list right => orderItems left right
  | .record left, .record right => orderFields left right
  | left, right => left.compareScalars right

def orderItems : List Value → List Value → Ordering
  | [], [] => .eq
  | [], _ :: _ => .lt
  | _ :: _, [] => .gt
  | left :: lefts, right :: rights => (left.order right).then (orderItems lefts rights)

def orderFields : List (String × Value) → List (String × Value) → Ordering
  | [], [] => .eq
  | [], _ :: _ => .lt
  | _ :: _, [] => .gt
  | (leftKey, left) :: lefts, (rightKey, right) :: rights =>
      ((compareText leftKey rightKey).then (left.order right)).then (orderFields lefts rights)
end

/-! The comparison of queries: nothing compares with null, a text compares with a boolean or a
timestamp by what it writes, and everything else has to be a number on both sides. -/

def exactBool? : String → Option Bool
  | "true" => some true
  | "false" => some false
  | _ => none

def compareNumbers? (left right : Value) : Option Ordering :=
  match left.asNumber?, right.asNumber? with
  | some left, some right => left.compare? right
  | _, _ => none

def compare? : Value → Value → Option Ordering
  | .null, _ | _, .null => none
  | .boolean left, .boolean right => some (compare left.toNat right.toNat)
  | .boolean left, .string text =>
      (exactBool? text).map fun right => compare left.toNat right.toNat
  | .string text, .boolean right =>
      (exactBool? text).map fun left => compare left.toNat right.toNat
  | .string left, .string right => some (compareText left right)
  | .dateTime left, .dateTime right => some (compare left right)
  | .dateTime left, .string text =>
      (Timestamp.ofString? text).map fun right => compare left right
  | .string text, .dateTime right =>
      (Timestamp.ofString? text).map fun left => compare left right
  | .list left, .list right => some (orderItems left right)
  | .record left, .record right => some (orderFields left right)
  | left, right => left.compareNumbers? right

def queryEquals (left right : Value) : Bool :=
  left.compare? right == some .eq

end Value

/-! Sorting keeps the order of values that compare as equal. -/

def Value.sort (values : List Value) : List Value :=
  values.mergeSort fun left right => (left.order right).isLE

end StreamQuery
