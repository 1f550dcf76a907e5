namespace StreamQuery.Text

/-! Keywords are compared by the case of the ASCII letters alone. -/

def asciiLower (text : String) : String :=
  String.ofList (text.toList.map Char.toLower)

def equalsIgnoringCase (text keyword : String) : Bool :=
  asciiLower text == asciiLower keyword

end StreamQuery.Text
