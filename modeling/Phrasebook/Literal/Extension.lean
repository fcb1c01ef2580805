import Phrasebook.Literal.Number

/-!
# Readers and converters for further types

Ready-made ways to read and convert values of types that a vocabulary adds to its own: whole numbers
with a mark in front, names, and words of a closed list.
-/

namespace Phrasebook.Literal
open Phrasebook.Text

/-- Whether a text starts with another, and what follows it. -/
def after? : List Char → List Char → Option (List Char)
  | [], cs => some cs
  | _ :: _, [] => none
  | c :: start, d :: cs => if c == d then after? start cs else none

/-- A whole number of sixty-four bits, with blanks around it. -/
def signed? (text : String) : Option Value :=
  ((Decimal.readInt? (trim text.toList)).bind int64?).map Value.int

/-- A whole number right behind a mark. -/
def marked? (mark text : String) : Option Value :=
  (after? mark.toList (trim text.toList)).bind fun rest =>
    ((Decimal.readInt? rest).bind int64?).map Value.int

/-- A name: letters only, the first a capital. It stands for an object of a type. -/
def properName? (typeName text : String) : Option Value :=
  match trim text.toList with
  | [] => none
  | c :: cs =>
    if isUppercase c && (c :: cs).all isAlphabetic then
      some (.object typeName (String.ofList (c :: cs)))
    else none

/-- One of a list of words in any letter case, as an object of a type. -/
def listedWord? (typeName : String) (listed : List String) (text : String) : Option Value :=
  let word := lowerString (trimString text)
  if listed.contains word then some (.object typeName word) else none

/-- Any text, as it stands. -/
def verbatim? (text : String) : Option Value :=
  some (.string text)

/-- An integer changed by a function, if the result still fits. -/
def mapInt? (f : Int → Int) : Value → Option Value
  | .int n => (int64? (f n.toInt)).map Value.int
  | _ => none

/-- A value as the string that shows it. -/
def shown? (v : Value) : Option Value :=
  some (.string v.display)

/-- A value shown between two texts. -/
def wrapped (before after : String) (v : Value) : String :=
  before ++ v.display ++ after

end Phrasebook.Literal
