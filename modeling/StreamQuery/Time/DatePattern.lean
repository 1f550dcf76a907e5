import StreamQuery.Time.PercentNotation
namespace StreamQuery

/-! Patterns for writing dates. A run of one pattern letter asks for a field in a style that its
length chooses, text between single quotes and all other characters stand for themselves, and two
quotes outside quoted text stand for one. A pattern is put into percent notation piece by piece, and
dates are written by the text that comes out. -/

namespace DatePattern

def conversion? (letter : Char) (run : Nat) : Option String :=
  match letter, run with
  | 'y', 2 => some "%y"
  | 'y', _ => some "%Y"
  | 'M', 1 => some "%-m"
  | 'M', 2 => some "%m"
  | 'M', 3 => some "%b"
  | 'M', _ => some "%B"
  | 'd', 1 => some "%-d"
  | 'd', _ => some "%d"
  | 'H', 1 => some "%-H"
  | 'H', _ => some "%H"
  | 'h', 1 => some "%-I"
  | 'h', _ => some "%I"
  | 'm', 1 => some "%-M"
  | 'm', _ => some "%M"
  | 's', 1 => some "%-S"
  | 's', _ => some "%S"
  | 'S', _ => some "%3f"
  | 'E', run => some (if run ≤ 3 then "%a" else "%A")
  | 'a', _ => some "%p"
  | 'Z', _ => some "%z"
  | 'X', _ => some "%:z"
  | 'z', _ => some "%Z"
  | _, _ => none

def pushLiteral (out : String) (character : Char) : String :=
  if character = '%' then out ++ "%%" else out.push character

/-- Puts the rest of a pattern behind what has been written so far. -/
def translate (out : String) : List Char → String
  | [] => out
  | character :: rest =>
      let run := (rest.takeWhile (· == character)).length + 1
      if character = '\'' then
        if 2 ≤ run then translate (out.push '\'') (rest.drop 1)
        else
          translate ((rest.takeWhile (· != '\'')).foldl pushLiteral out)
            ((rest.dropWhile (· != '\'')).drop 1)
      else
        let out :=
          match conversion? character run with
          | some conversion => out ++ conversion
          | none => (List.replicate run character).foldl pushLiteral out
        translate out (rest.dropWhile (· == character))
termination_by text => text.length
decreasing_by
  · simp only [List.length_drop, List.length_cons]
    omega
  · have shorter := (List.dropWhile_sublist (l := rest) (· != '\'')).length_le
    simp only [List.length_drop, List.length_cons]
    omega
  · exact Nat.lt_succ_of_le (List.dropWhile_sublist _).length_le

end DatePattern

def PercentNotation.ofPattern (pattern : String) : String :=
  DatePattern.translate "" pattern.toList

def DatePattern.format? (zone : Zone) (millis : Int) (pattern : String) : Option String :=
  PercentNotation.format? zone millis (PercentNotation.ofPattern pattern)

end StreamQuery
