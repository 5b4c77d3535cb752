import PathAlgebra.Text.Range

set_option autoImplicit false

/-! # Blank characters

The characters with the Unicode property `White_Space`, and the texts without those at their
ends.
-/

namespace PathAlgebra.Text

/-- The ranges of code points with the property `White_Space`, first and last, in order. -/
def blankRanges : List (Nat × Nat) :=
  [(0x9, 0xD), (0x20, 0x20), (0x85, 0x85), (0xA0, 0xA0), (0x1680, 0x1680), (0x2000, 0x200A),
    (0x2028, 0x2029), (0x202F, 0x202F), (0x205F, 0x205F), (0x3000, 0x3000)]

/-- Whether a character has the property `White_Space`. -/
def isBlank (c : Char) : Bool := inRanges blankRanges c

/-- A text without the blanks at its start. -/
def skipBlanks (text : List Char) : List Char := text.dropWhile isBlank

/-- A text without the blanks at its start and at its end. -/
def trim (text : List Char) : List Char := (skipBlanks (skipBlanks text).reverse).reverse

/-- A string without the blanks at its start and at its end. -/
def trimmed (text : String) : String := String.ofList (trim text.toList)

end PathAlgebra.Text
