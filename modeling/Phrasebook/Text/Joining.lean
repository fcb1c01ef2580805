import Phrasebook.Text.Character
import Phrasebook.Text.Extender
import Phrasebook.Text.Pictograph
import Phrasebook.Text.SpacingMark

/-!
# How characters join

What a reader takes for one character may be several: a letter and its accents, a syllable of Hangul,
a flag. The class of a character says how it joins with its neighbours, and is what the rules of
Unicode for graphemes ask about it.
-/

namespace Phrasebook.Text

/-- How a character joins with its neighbours. -/
inductive Joining where
  /-- a character of no class below -/
  | plain
  | carriageReturn
  | lineFeed
  | control
  /-- is drawn upon the character before it -/
  | extender
  /-- joins the characters around it -/
  | joiner
  /-- stands beside the character before it -/
  | spacingMark
  /-- stands before the character it belongs to -/
  | prepended
  /-- half of a flag -/
  | regional
  | pictograph
  /-- a consonant that begins a syllable -/
  | leading
  /-- a vowel inside a syllable -/
  | vowel
  /-- a consonant that ends a syllable -/
  | trailing
  /-- a syllable that ends in a vowel -/
  | openSyllable
  /-- a syllable that ends in a consonant -/
  | closedSyllable
deriving DecidableEq, Repr, Inhabited

namespace Joining

/-- The character stands alone, whatever is next to it. -/
def isAlone : Joining → Bool
  | carriageReturn | lineFeed | control => true
  | _ => false

/-- The character belongs to the one before it. -/
def isMark : Joining → Bool
  | extender | joiner | spacingMark => true
  | _ => false

/-- Two characters that can follow each other in one syllable. -/
def inSyllable : Joining → Joining → Bool
  | leading, leading | leading, vowel | leading, openSyllable | leading, closedSyllable => true
  | openSyllable, vowel | openSyllable, trailing => true
  | vowel, vowel | vowel, trailing => true
  | closedSyllable, trailing | trailing, trailing => true
  | _, _ => false

end Joining

/-- The control characters and those that are not drawn, but for the ends of lines. -/
def controlRanges : List (Nat × Nat) :=
  [(0x0, 0x9), (0xB, 0xC), (0xE, 0x1F), (0x7F, 0x9F), (0xAD, 0xAD), (0x61C, 0x61C),
   (0x180E, 0x180E), (0x200B, 0x200B), (0x200E, 0x200F), (0x2028, 0x202E), (0x2060, 0x206F),
   (0xFEFF, 0xFEFF), (0xFFF0, 0xFFFB), (0x13430, 0x1343F), (0x1BCA0, 0x1BCA3), (0x1D173, 0x1D17A),
   (0xE0000, 0xE001F), (0xE0080, 0xE00FF), (0xE01F0, 0xE0FFF)]

/-- The characters that stand before the one they belong to. -/
def prependedRanges : List (Nat × Nat) :=
  [(0x600, 0x605), (0x6DD, 0x6DD), (0x70F, 0x70F), (0x890, 0x891), (0x8E2, 0x8E2), (0xD4E, 0xD4E),
   (0x110BD, 0x110BD), (0x110CD, 0x110CD), (0x111C2, 0x111C3), (0x113D1, 0x113D1),
   (0x1193F, 0x1193F), (0x11941, 0x11941), (0x11A84, 0x11A89), (0x11D46, 0x11D46),
   (0x11F02, 0x11F02)]

/-- The consonants that begin a syllable. -/
def leadingRanges : List (Nat × Nat) := [(0x1100, 0x115F), (0xA960, 0xA97C)]

/-- The vowels inside a syllable. -/
def vowelRanges : List (Nat × Nat) :=
  [(0x1160, 0x11A7), (0xD7B0, 0xD7C6), (0x16D63, 0x16D63), (0x16D67, 0x16D6A)]

/-- The consonants that end a syllable. -/
def trailingRanges : List (Nat × Nat) := [(0x11A8, 0x11FF), (0xD7CB, 0xD7FB)]

/-- How a character joins with its neighbours. The syllables of Hangul come in groups of 28, and the
first of each group ends in its vowel. -/
def joining (c : Char) : Joining :=
  let n := c.toNat
  if 0x20 ≤ n && n < 0x7F then .plain
  else if n == 0xD then .carriageReturn
  else if n == 0xA then .lineFeed
  else if n == 0x200D then .joiner
  else if inRanges controlRanges n then .control
  else if inRanges extenderRanges n then .extender
  else if inRanges spacingMarkRanges n then .spacingMark
  else if inRanges prependedRanges n then .prepended
  else if 0x1F1E6 ≤ n && n ≤ 0x1F1FF then .regional
  else if inRanges pictographRanges n then .pictograph
  else if inRanges leadingRanges n then .leading
  else if inRanges vowelRanges n then .vowel
  else if inRanges trailingRanges n then .trailing
  else if 0xAC00 ≤ n && n ≤ 0xD7A3 then
    if (n - 0xAC00) % 28 == 0 then .openSyllable else .closedSyllable
  else .plain

/-- The consonants of the scripts that write several of them as one letter. -/
def conjunctRanges : List (Nat × Nat) :=
  [(0x915, 0x939), (0x958, 0x95F), (0x978, 0x97F), (0x995, 0x9A8), (0x9AA, 0x9B0), (0x9B2, 0x9B2),
   (0x9B6, 0x9B9), (0x9DC, 0x9DD), (0x9DF, 0x9DF), (0x9F0, 0x9F1), (0xA95, 0xAA8), (0xAAA, 0xAB0),
   (0xAB2, 0xAB3), (0xAB5, 0xAB9), (0xAF9, 0xAF9), (0xB15, 0xB28), (0xB2A, 0xB30), (0xB32, 0xB33),
   (0xB35, 0xB39), (0xB5C, 0xB5D), (0xB5F, 0xB5F), (0xB71, 0xB71), (0xC15, 0xC28), (0xC2A, 0xC39),
   (0xC58, 0xC5A), (0xD15, 0xD3A)]

/-- A consonant of a script that writes several of them as one letter. -/
def isConjunctConsonant (c : Char) : Bool :=
  inRanges conjunctRanges c.toNat

/-- The sign that takes the vowel from a consonant, so that the next one is written with it. -/
def isConjunctLinker (c : Char) : Bool :=
  [0x94D, 0x9CD, 0xACD, 0xB4D, 0xC4D, 0xD4D].contains c.toNat

/-- A mark that two consonants written as one letter may have between them. The mark that keeps them
apart is none. -/
def isConjunctMark (c : Char) : Bool :=
  (joining c == .extender || joining c == .joiner) && c.toNat != 0x200C

end Phrasebook.Text
