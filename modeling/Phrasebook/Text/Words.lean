import Phrasebook.Text.Character

/-!
# Trimming, words and lines

Operations on texts as lists of characters that look at blanks only: cutting the blanks off the ends,
splitting into words, and the normal form in which two pattern texts are compared.
-/

namespace Phrasebook.Text

/-- A text without the blanks it starts with. -/
def trimStart (cs : List Char) : List Char :=
  cs.dropWhile isBlank

/-- A text without the blanks it ends with. -/
def trimEnd (cs : List Char) : List Char :=
  (cs.reverse.dropWhile isBlank).reverse

/-- A text without the blanks at both ends. -/
def trim (cs : List Char) : List Char :=
  trimEnd (trimStart cs)

/-- A string without the blanks at both ends. -/
def trimString (s : String) : String :=
  String.ofList (trim s.toList)

/-- A text holds nothing but blanks. -/
def isBlankText (cs : List Char) : Bool :=
  cs.all isBlank

/-- The pieces between the characters that satisfy `p`; always at least one piece. -/
def splitOn (p : Char → Bool) : List Char → List (List Char)
  | [] => [[]]
  | c :: rest =>
    if p c then [] :: splitOn p rest
    else
      match splitOn p rest with
      | [] => [[c]]
      | piece :: pieces => (c :: piece) :: pieces

/-- The words of a text: its longest runs without a blank. -/
def words (cs : List Char) : List (List Char) :=
  (splitOn isBlank cs).filter fun w => !w.isEmpty

/-- Pieces put together with `sep` between neighbours. -/
def join (sep : List Char) : List (List Char) → List Char
  | [] => []
  | [piece] => piece
  | piece :: pieces => piece ++ sep ++ join sep pieces

/-- A text in small letters whose words stand one space apart. -/
def normalize (cs : List Char) : List Char :=
  lower (join [' '] (words cs))

/-- The normal form of a string. -/
def normalizeString (s : String) : String :=
  String.ofList (normalize s.toList)

/-- A line without the carriage return that ends it. -/
def dropReturn (cs : List Char) : List Char :=
  match cs.reverse with
  | '\r' :: before => before.reverse
  | _ => cs

/-- The lines of a text. A line feed ends a line, so the last one needs none, and a carriage return
before the line feed belongs to it. -/
def lines (cs : List Char) : List (List Char) :=
  let pieces := splitOn (· == '\n') cs
  let ended := pieces.dropLast.map dropReturn
  match pieces.getLast? with
  | none | some [] => ended
  | some last => ended ++ [last]

/-- There is always a first part. -/
theorem splitOn_ne_nil (p : Char → Bool) (cs : List Char) : splitOn p cs ≠ [] := by
  cases cs with
  | nil => simp [splitOn]
  | cons c rest =>
    unfold splitOn
    split
    · simp
    · split <;> simp

end Phrasebook.Text
