import StreamQuery.Text.Blank
import StreamQuery.Text.CaseTables
namespace StreamQuery.Text

/-! Case mapping of whole texts. A character may map to several, and a capital sigma that ends a
word becomes the final small sigma, so the mapping works on texts and not on characters alone. -/

def mapByRuns (runs : List (Nat × Nat × Nat × Int)) (point : Nat) : Option Nat :=
  runs.findSome? fun (first, last, step, offset) =>
    if first ≤ point && point ≤ last && (point - first) % step == 0 then
      some (point + offset).toNat
    else none

def mapCharacter (runs : List (Nat × Nat × Nat × Int)) (expansions : List (Nat × List Nat))
    (character : Char) : List Char :=
  let point := character.toNat
  match expansions.find? (·.1 == point) with
  | some (_, points) => points.map Char.ofNat
  | none => [((mapByRuns runs point).map Char.ofNat).getD character]

def upperCharacter (character : Char) : List Char :=
  if character.toNat < 128 then [character.toUpper]
  else mapCharacter upperRuns upperExpansions character

def lowerCharacter (character : Char) : List Char :=
  if character.toNat < 128 then [character.toLower]
  else mapCharacter lowerRuns lowerExpansions character

/-- A letter with case comes next, once the characters without influence are skipped. -/
def casedFollows (characters : List Char) : Bool :=
  match characters.dropWhile fun character => inRanges caseIgnorableRanges character.toNat with
  | [] => false
  | character :: _ => inRanges casedRanges character.toNat

def capitalSigma : Char := '\u03A3'

def finalSigma : Char := '\u03C2'

/-- `before` holds the characters already read, the nearest first. -/
def lowerCharacters (before : List Char) : List Char → List Char
  | [] => []
  | character :: rest =>
      let lowered :=
        if character == capitalSigma && casedFollows before && !casedFollows rest then
          [finalSigma]
        else lowerCharacter character
      lowered ++ lowerCharacters (character :: before) rest

def lower (text : String) : String :=
  String.ofList (lowerCharacters [] text.toList)

def upper (text : String) : String :=
  String.ofList (text.toList.flatMap upperCharacter)

end StreamQuery.Text
