import StreamQuery.Number.Digits
namespace StreamQuery

/-! A reader of JSON that keeps what settings need: of a number only whether it is a natural, of a
text also that it cannot be decoded, and all fields of an object in their order. -/

inductive Json where
  | null
  | boolean (value : Bool)
  /-- Holds the number if it is written as a natural, with no sign, fraction or exponent. -/
  | number (natural : Option Nat)
  /-- Holds nothing if the text escapes half of a surrogate pair. -/
  | string (text : Option String)
  | list (items : List Json)
  | object (fields : List (Option String × Json))

namespace Json

def isSpace (character : Char) : Bool :=
  character == ' ' || character == '\n' || character == '\t' || character == '\r'

def dropSpace (characters : List Char) : List Char :=
  characters.dropWhile isSpace

def expect? (wanted : Char) (characters : List Char) : Option (List Char) :=
  match dropSpace characters with
  | character :: rest => if character == wanted then some rest else none
  | [] => none

/-! Texts are read as units first: a character, or the sixteen bits of an escape. -/

inductive TextUnit where
  | character (character : Char)
  | escape (bits : Nat)

def escaped? : Char → Option Char
  | '"' => some '"'
  | '\\' => some '\\'
  | '/' => some '/'
  | 'b' => some '\x08'
  | 'f' => some '\x0c'
  | 'n' => some '\n'
  | 'r' => some '\r'
  | 't' => some '\t'
  | _ => none

def units? : List Char → Option (List TextUnit × List Char)
  | [] => none
  | '"' :: rest => some ([], rest)
  | '\\' :: 'u' :: first :: second :: third :: fourth :: rest => do
      let bits ← Digits.hexNat? [first, second, third, fourth]
      let (units, rest) ← units? rest
      some (.escape bits :: units, rest)
  | '\\' :: mark :: rest => do
      let character ← escaped? mark
      let (units, rest) ← units? rest
      some (.character character :: units, rest)
  | character :: rest => do
      if character == '\\' || character.toNat < 0x20 then none
      else
        let (units, rest) ← units? rest
        some (.character character :: units, rest)

def isLeading (bits : Nat) : Bool :=
  0xD800 ≤ bits && bits ≤ 0xDBFF

def isTrailing (bits : Nat) : Bool :=
  0xDC00 ≤ bits && bits ≤ 0xDFFF

/-- Two escapes that are a surrogate pair are one character. -/
def decode? : List TextUnit → Option (List Char)
  | [] => some []
  | .character character :: rest => (decode? rest).map (character :: ·)
  | .escape leading :: .escape trailing :: rest =>
      if isLeading leading then
        if isTrailing trailing then
          let point := 0x10000 + (leading - 0xD800) * 0x400 + (trailing - 0xDC00)
          (decode? rest).map (Char.ofNat point :: ·)
        else none
      else if isTrailing leading then none
      else (decode? (.escape trailing :: rest)).map (Char.ofNat leading :: ·)
  | .escape bits :: rest =>
      if isLeading bits || isTrailing bits then none
      else (decode? rest).map (Char.ofNat bits :: ·)

def text? (characters : List Char) : Option (Option String × List Char) :=
  (units? characters).map fun (units, rest) => ((decode? units).map String.ofList, rest)

/-! Numbers. -/

def digits? (characters : List Char) : Option (List Char × List Char) :=
  let digits := characters.takeWhile Digits.isDigit
  if digits.isEmpty then none else some (digits, characters.dropWhile Digits.isDigit)

/-- The whole part has no zero in front of other digits. -/
def whole? (characters : List Char) : Option (Nat × List Char) := do
  let (digits, rest) ← digits? characters
  if digits.head? == some '0' && digits.length != 1 then none
  else some (Digits.toNat digits 0, rest)

def fraction? : List Char → Option (Bool × List Char)
  | '.' :: rest => (digits? rest).map fun (_, rest) => (true, rest)
  | rest => some (false, rest)

def dropSign : List Char → List Char
  | '+' :: rest => rest
  | '-' :: rest => rest
  | rest => rest

def exponent? : List Char → Option (Bool × List Char)
  | 'e' :: rest => (digits? (dropSign rest)).map fun (_, rest) => (true, rest)
  | 'E' :: rest => (digits? (dropSign rest)).map fun (_, rest) => (true, rest)
  | rest => some (false, rest)

def unsigned? (characters : List Char) : Option (Option Nat × List Char) := do
  let (whole, rest) ← whole? characters
  let (fraction, rest) ← fraction? rest
  let (exponent, rest) ← exponent? rest
  some (if fraction || exponent then none else some whole, rest)

def number? : List Char → Option (Option Nat × List Char)
  | '-' :: rest => (unsigned? rest).map fun (_, rest) => (none, rest)
  | rest => unsigned? rest

/-! Documents. A list or an object takes two units of fuel, for its two brackets, and so does each
of its items, for itself and what separates it. -/

mutual
def value? : Nat → List Char → Option (Json × List Char)
  | 0, _ => none
  | fuel + 1, characters =>
      match dropSpace characters with
      | 'n' :: 'u' :: 'l' :: 'l' :: rest => some (.null, rest)
      | 't' :: 'r' :: 'u' :: 'e' :: rest => some (.boolean true, rest)
      | 'f' :: 'a' :: 'l' :: 's' :: 'e' :: rest => some (.boolean false, rest)
      | '"' :: rest => (text? rest).map fun (text, rest) => (.string text, rest)
      | '[' :: rest =>
          match expect? ']' rest with
          | some rest => some (.list [], rest)
          | none => (items? fuel rest).map fun (items, rest) => (.list items, rest)
      | '\x7b' :: rest =>
          match expect? '\x7d' rest with
          | some rest => some (.object [], rest)
          | none => (fields? fuel rest).map fun (fields, rest) => (.object fields, rest)
      | rest => (number? rest).map fun (natural, rest) => (.number natural, rest)

def items? : Nat → List Char → Option (List Json × List Char)
  | 0, _ => none
  | fuel + 1, characters => do
      let (item, rest) ← value? fuel characters
      match expect? ',' rest with
      | some rest => (items? fuel rest).map fun (items, rest) => (item :: items, rest)
      | none => (expect? ']' rest).map fun rest => ([item], rest)

def fields? : Nat → List Char → Option (List (Option String × Json) × List Char)
  | 0, _ => none
  | fuel + 1, characters => do
      let (key, rest) ← text? (← expect? '"' characters)
      let (value, rest) ← value? fuel (← expect? ':' rest)
      match expect? ',' rest with
      | some rest => (fields? fuel rest).map fun (fields, rest) => ((key, value) :: fields, rest)
      | none => (expect? '\x7d' rest).map fun rest => ([(key, value)], rest)
end

/-- One value and nothing behind it. -/
def ofString? (text : String) : Option Json := do
  let characters := text.toList
  let (value, rest) ← value? (2 * characters.length + 2) characters
  if (dropSpace rest).isEmpty then some value else none

end Json

end StreamQuery
