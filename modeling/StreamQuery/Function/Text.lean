import StreamQuery.Text.Case
import StreamQuery.Value.DataType
namespace StreamQuery

/-! Functions on the text of values. -/

namespace Value

mutual
/-- The texts that a value adds to a concatenation: none for a null, those of its items for a
list. -/
def pieces : Value → List String
  | .null => []
  | .list items => piecesOfAll items
  | value => [value.toString]

def piecesOfAll : List Value → List String
  | [] => []
  | value :: rest => value.pieces ++ piecesOfAll rest
end

def concatenate (values : List Value) : Value :=
  .string (String.join (piecesOfAll values))

def mapText (transform : String → String) : Value → Value
  | .null => .null
  | value => .string (transform value.toString)

def size : Value → Value
  | .null => .null
  | .list items => .int64 (Int64.ofNat items.length)
  | value => .int64 (Int64.ofNat value.toString.length)

def requirePosition (value : Value) : Except QueryError Int :=
  match value.toInt64? with
  | some position => .ok position.toInt
  | none => .error (value.castError "int")

def substring (value start : Value) (length : Option Value) : Except QueryError Value :=
  if value.isNull || start.isNull || (length.map isNull).getD false then .ok .null
  else do
    let start ← start.requirePosition
    let characters := value.toString.toList.drop (start - 1).toNat
    match length with
    | none => .ok (.string (String.ofList characters))
    | some length => do
        let length ← length.requirePosition
        .ok (.string (String.ofList (characters.take length.toNat)))

end Value

end StreamQuery
