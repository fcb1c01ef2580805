import Phrasebook.Text.Character

/-!
# Regexes and what they match

A regex is matched against a text by the set of positions at which a match that starts at a given
position may end. The set is finite, so the star is the closure of its body's steps, and no choice is
ever taken back. A text matches if a match starts anywhere in it; anchors are assertions of the regex.
-/

namespace Phrasebook
open Text

/-- A set of characters. -/
inductive CharSet where
  | nothing
  | range (first last : Char)
  /-- everything but the line feed -/
  | inLine
  /-- decimal digits of any script -/
  | digit
  /-- letters, marks, decimal digits and connectors -/
  | word
  | blank
  | union (a b : CharSet)
  | complement (a : CharSet)
  /-- the characters of the set in either letter case -/
  | anyCase (a : CharSet)
deriving DecidableEq, Repr

namespace CharSet

/-- The set of one character. -/
def one (c : Char) : CharSet := range c c

/-- A decimal digit of any script. -/
def isDecimal (c : Char) : Bool :=
  if isAscii c then isDigit c else inRanges decimalRanges c.toNat

/-- A character that a regex counts as part of a word. -/
def isWord (c : Char) : Bool :=
  isAlphabetic c || isDecimal c || c == '_' || inRanges wordMarkRanges c.toNat

/-- A character in its written form, in small and, for ASCII, in capital form. -/
def cases (c : Char) : List Char :=
  let small := lowerChar c
  c :: small ++ small.map fun d => if 'a' ≤ d && d ≤ 'z' then Char.ofNat (d.toNat - 32) else d

/-- The character belongs to the set. -/
def contains : CharSet → Char → Bool
  | nothing, _ => false
  | range first last, c => first ≤ c && c ≤ last
  | inLine, c => c != '\n'
  | digit, c => isDecimal c
  | word, c => isWord c
  | blank, c => isBlank c
  | union a b, c => a.contains c || b.contains c
  | complement a, c => !a.contains c
  | anyCase a, c => (cases c).any a.contains

end CharSet

/-- What an assertion asks of a position. -/
inductive Assertion where
  | textStart
  | textEnd
  | wordStart
  | wordEnd
  | wordEdge
  | noWordEdge
deriving DecidableEq, Repr

/-- A regular expression. -/
inductive Regex where
  | empty
  | set (s : CharSet)
  | assert (a : Assertion)
  | seq (a b : Regex)
  | alt (a b : Regex)
  | star (a : Regex)
deriving DecidableEq, Repr

namespace Regex

/-- `n` times a regex in a row. -/
def times (r : Regex) : Nat → Regex
  | 0 => empty
  | n + 1 => seq r (r.times n)

/-- At most `n` times a regex in a row. -/
def upTo (r : Regex) : Nat → Regex
  | 0 => empty
  | n + 1 => alt (seq r (r.upTo n)) empty

/-- From `least` times on, up to `most` times if that is given. -/
def repeated (r : Regex) (least : Nat) : Option Nat → Regex
  | none => seq (r.times least) (star r)
  | some most => seq (r.times least) (r.upTo (most - least))

end Regex

/-- The assertion holds between the characters before and after a position. -/
def Assertion.holds (a : Assertion) (before after : Option Char) : Bool :=
  let inside (c : Option Char) : Bool := c.any CharSet.isWord
  match a with
  | textStart => before.isNone
  | textEnd => after.isNone
  | wordStart => !inside before && inside after
  | wordEnd => inside before && !inside after
  | wordEdge => inside before != inside after
  | noWordEdge => inside before == inside after

namespace Regex

/-- The elements of the first list and those of the second that are new, once each. -/
def merge (xs ys : List Nat) : List Nat :=
  ys.foldl (fun acc y => if acc.contains y then acc else acc ++ [y]) xs

/-- The positions reached from a frontier by steps, as long as new ones turn up. -/
def closure (step : Nat → List Nat) : Nat → List Nat → List Nat → List Nat
  | 0, _, seen => seen
  | fuel + 1, frontier, seen =>
    let new := (merge [] (frontier.flatMap step)).filter fun j => !seen.contains j
    if new.isEmpty then seen else closure step fuel new (seen ++ new)

/-- The positions at which a match that starts at `i` may end. -/
def ends (text : Array Char) : Regex → Nat → List Nat
  | empty, i => [i]
  | set s, i => if (text[i]?).any s.contains then [i + 1] else []
  | assert a, i =>
    let before := match i with
      | 0 => none
      | j + 1 => text[j]?
    if a.holds before text[i]? then [i] else []
  | seq a b, i => merge [] ((ends text a i).flatMap (ends text b))
  | alt a b, i => merge (ends text a i) (ends text b i)
  | star a, i => closure (ends text a) (text.size + 1) [i] [i]

/-- A match starts somewhere in the text. -/
def isMatch (r : Regex) (text : List Char) : Bool :=
  let text := text.toArray
  (List.range (text.size + 1)).any fun i => !(ends text r i).isEmpty

end Regex

end Phrasebook
