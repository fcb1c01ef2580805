/-!
# Colors of a terminal

A text is colored by an escape sequence before it and the one that resets all colors after it.
-/

namespace Phrasebook.Terminal

/-- The character that starts an escape sequence. -/
def escape : Char := '\x1b'

/-- The escape sequence of a color code. -/
def sequence (code : String) : List Char :=
  escape :: '[' :: code.toList ++ ['m']

/-- The escape sequence that ends all colors. -/
def reset : List Char :=
  sequence "0"

/-- A text in a color. -/
def paint (code : String) (text : List Char) : List Char :=
  sequence code ++ text ++ reset

/-- A string in a color, or as it is where colors are off. -/
def paintIf (colors : Bool) (code : String) (text : String) : String :=
  if colors then String.ofList (paint code text.toList) else text

end Phrasebook.Terminal
