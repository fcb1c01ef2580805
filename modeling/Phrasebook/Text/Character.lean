import Phrasebook.Text.Alphabetic
import Phrasebook.Text.Cased
import Phrasebook.Text.LowerRuns
import Phrasebook.Text.Numeric
import Phrasebook.Text.Uppercase
import Phrasebook.Text.WordMark

/-!
# Classes and small forms of characters

The character classes that decide where words begin and end, and the small form of a character. ASCII
is answered without a table; every other character by the tables of the neighbouring modules. The
small form of a character may be several characters, so it is a list.
-/

namespace Phrasebook.Text

/-- A code point lies in one of the ranges, first and last included. -/
def inRanges (ranges : List (Nat × Nat)) (n : Nat) : Bool :=
  ranges.any fun r => r.1 ≤ n && n ≤ r.2

/-- A code point is a member of one of the runs `(first, last, step)`. -/
def inRuns (runs : List (Nat × Nat × Nat)) (n : Nat) : Bool :=
  runs.any fun (first, last, step) => first ≤ n && n ≤ last && (n - first) % step == 0

/-- A number is in a list of ranges when one of them holds it. -/
theorem inRanges_iff {ranges : List (Nat × Nat)} {n : Nat} :
    inRanges ranges n = true ↔ ∃ r ∈ ranges, r.1 ≤ n ∧ n ≤ r.2 := by
  simp [inRanges]

/-- A character is one of the 128 of ASCII. -/
def isAscii (c : Char) : Bool :=
  c.toNat < 0x80

/-- White space: the blanks of ASCII, the no-break and ideographic blanks and the separators. -/
def isBlank (c : Char) : Bool :=
  let n := c.toNat
  (9 ≤ n && n ≤ 13) || n == 0x20 || n == 0x85 || n == 0xA0 || n == 0x1680 ||
    (0x2000 ≤ n && n ≤ 0x200A) || n == 0x2028 || n == 0x2029 || n == 0x202F || n == 0x205F ||
    n == 0x3000

/-- A decimal digit of ASCII. -/
def isDigit (c : Char) : Bool :=
  '0' ≤ c && c ≤ '9'

/-- A letter, or another character with the property `Alphabetic`. -/
def isAlphabetic (c : Char) : Bool :=
  if isAscii c then ('a' ≤ c && c ≤ 'z') || ('A' ≤ c && c ≤ 'Z')
  else inRanges alphabeticRanges c.toNat

/-- A digit or another character that stands for a number. -/
def isNumeric (c : Char) : Bool :=
  if isAscii c then isDigit c else inRanges numericRanges c.toNat

/-- A character that is alphabetic or numeric. -/
def isAlphanumeric (c : Char) : Bool :=
  isAlphabetic c || isNumeric c

/-- A character that makes up words: alphabetic, numeric or the underscore. -/
def isWordChar (c : Char) : Bool :=
  isAlphanumeric c || c == '_'

/-- A capital letter. -/
def isUppercase (c : Char) : Bool :=
  if isAscii c then 'A' ≤ c && c ≤ 'Z' else inRuns uppercaseRuns c.toNat

/-- The small form of a capital of ASCII, and any other character unchanged. -/
def lowerAscii (c : Char) : Char :=
  if 'A' ≤ c && c ≤ 'Z' then Char.ofNat (c.toNat + 32) else c

/-- The small form of one character, whatever stands around it. -/
def lowerChar (c : Char) : List Char :=
  if isAscii c then [lowerAscii c]
  else if c.toNat == 0x130 then ['i', '\u0307']
  else
    match lowerRuns.find? fun (first, last, step, _) =>
        first ≤ c.toNat && c.toNat ≤ last && (c.toNat - first) % step == 0 with
    | some (_, _, _, distance) => [Char.ofNat ((c.toNat : Int) + distance).toNat]
    | none => [c]

/-- Two characters that are the same once their case is forgotten. -/
def sameLetter (a b : Char) : Bool :=
  a == b || lowerChar a == lowerChar b

/-- The first character that the case rules do not pass over has a letter case. -/
def startsCased (cs : List Char) : Bool :=
  match cs.dropWhile fun c => inRanges caseIgnorableRanges c.toNat with
  | [] => false
  | c :: _ => inRanges casedRanges c.toNat

/-- Small forms of the characters of a text whose reversed beginning is `before`. -/
def lowerAfter (before : List Char) : List Char → List Char
  | [] => []
  | c :: rest =>
    let small := if c == 'Σ' then
        if startsCased before && !startsCased rest then ['ς'] else ['σ']
      else lowerChar c
    small ++ lowerAfter (c :: before) rest

/-- A text in small letters. A capital sigma that ends a word takes the form that ends words. -/
def lower (cs : List Char) : List Char :=
  lowerAfter [] cs

/-- A text in small letters, as a string. -/
def lowerString (s : String) : String :=
  String.ofList (lower s.toList)

/-- A string whose capitals of ASCII are made small. -/
def lowerAsciiString (s : String) : String :=
  String.ofList (s.toList.map lowerAscii)

end Phrasebook.Text
