namespace StreamQuery.Text

/-! White space is the character property of that name: twenty-five characters, given as closed
ranges of code points. -/

def inRanges (ranges : List (Nat × Nat)) (point : Nat) : Bool :=
  ranges.any fun range => range.1 ≤ point && point ≤ range.2

def blankRanges : List (Nat × Nat) :=
  [(0x09, 0x0D), (0x20, 0x20), (0x85, 0x85), (0xA0, 0xA0), (0x1680, 0x1680), (0x2000, 0x200A),
   (0x2028, 0x2029), (0x202F, 0x202F), (0x205F, 0x205F), (0x3000, 0x3000)]

def isBlank (character : Char) : Bool :=
  inRanges blankRanges character.toNat

def dropBlanks (characters : List Char) : List Char :=
  characters.dropWhile isBlank

def trimCharacters (characters : List Char) : List Char :=
  (dropBlanks (dropBlanks characters).reverse).reverse

def trim (text : String) : String :=
  String.ofList (trimCharacters text.toList)

end StreamQuery.Text
