import Phrasebook.Terminal.Paint
import Phrasebook.Text.Words

/-!
# Highlighting a line

A line is cut into pieces with at most one style each: comments, strings, variables, numbers, keywords
and commands. Put together without their styles the pieces are the line again.
-/

namespace Phrasebook.Terminal
open Phrasebook.Text

/-- What a piece of a line is colored as. -/
inductive Style where
  | comment
  | string
  | number
  | variableName
  | keyword
  | command
deriving DecidableEq, Repr

/-- The color code of a style. -/
def Style.code : Style → String
  | comment => "2;3"
  | string => "33"
  | number => "35"
  | variableName => "34"
  | keyword => "32"
  | command => "1;36"

/-- A piece of a line with its style, if it has one. -/
structure Piece where
  style : Option Style
  text : List Char
deriving DecidableEq, Repr

/-- The piece with its color. -/
def Piece.render (p : Piece) : List Char :=
  match p.style with
  | none => p.text
  | some style => paint style.code p.text

/-- Splits after the quote that closes a string; a doubled quote closes nothing. -/
def takeQuoted : List Char → List Char × List Char
  | [] => ([], [])
  | '"' :: '"' :: rest =>
    let (text, rest) := takeQuoted rest
    ('"' :: '"' :: text, rest)
  | '"' :: rest => (['"'], rest)
  | c :: rest =>
    let (text, rest) := takeQuoted rest
    (c :: text, rest)

/-- Splits after the brace that closes `open_` more than one brace. -/
def takeBraced (open_ : Nat) : List Char → List Char × List Char
  | [] => ([], [])
  | '}' :: rest =>
    match open_ with
    | 0 => (['}'], rest)
    | open_ + 1 =>
      let (text, rest) := takeBraced open_ rest
      ('}' :: text, rest)
  | c :: rest =>
    let (text, rest) := takeBraced (if c == '{' then open_ + 1 else open_) rest
    (c :: text, rest)

/-- Nothing of the text is lost. -/
theorem takeQuoted_append (cs : List Char) : (takeQuoted cs).1 ++ (takeQuoted cs).2 = cs := by
  fun_induction takeQuoted cs <;> simp_all

/-- Nothing of the text is lost. -/
theorem takeBraced_append (open_ : Nat) (cs : List Char) :
    (takeBraced open_ cs).1 ++ (takeBraced open_ cs).2 = cs := by
  fun_induction takeBraced open_ cs <;> simp_all

/-- A character that continues a word. -/
def continuesWord (c : Char) : Bool :=
  isAlphanumeric c || c == '_' || c == '\''

/-- A word is one of the keywords, whatever the case of its ASCII letters. -/
def isKeyword (keywords : List String) (word : List Char) : Bool :=
  let small := word.map lowerAscii
  keywords.any fun k => k.toList.map lowerAscii == small

/-- The first piece of a text that starts with `c`, and the rest of the text. -/
def nextPiece (keywords : List String) (c : Char) (rest : List Char) : Piece × List Char :=
  if c == '#' then
    match rest with
    | '#' :: rest => (⟨none, ['#', '#']⟩, rest)
    | _ => (⟨some .comment, c :: rest⟩, [])
  else if c == '"' then
    let (text, rest) := takeQuoted rest
    (⟨some .string, c :: text⟩, rest)
  else if c == '{' then
    let (text, rest) := takeBraced 0 rest
    (⟨some .variableName, c :: text⟩, rest)
  else if isDigit c then
    let isPart (d : Char) : Bool := isDigit d || d == '.'
    (⟨some .number, c :: rest.takeWhile isPart⟩, rest.dropWhile isPart)
  else if isAlphabetic c then
    let word := c :: rest.takeWhile continuesWord
    let style := if isKeyword keywords word then some .keyword else none
    (⟨style, word⟩, rest.dropWhile continuesWord)
  else (⟨none, [c]⟩, rest)

/-- A piece and its rest are the text. -/
theorem nextPiece_append (keywords : List String) (c : Char) (rest : List Char) :
    (nextPiece keywords c rest).1.text ++ (nextPiece keywords c rest).2 = c :: rest := by
  have quoted := takeQuoted_append rest
  have braced := takeBraced_append 0 rest
  unfold nextPiece
  split
  · split <;> simp_all
  · split
    · simp_all
    · split
      · simp_all
      · split
        · simp
        · split <;> simp

/-- A piece is not empty. -/
theorem nextPiece_shorter (keywords : List String) (c : Char) (rest : List Char) :
    (nextPiece keywords c rest).2.length ≤ rest.length := by
  have quoted := congrArg List.length (takeQuoted_append rest)
  have braced := congrArg List.length (takeBraced_append 0 rest)
  simp only [List.length_append] at quoted braced
  unfold nextPiece
  split
  · split <;> simp
  · split
    · simp only; omega
    · split
      · simp only; omega
      · split
        · exact (List.dropWhile_sublist _).length_le
        · split
          · exact (List.dropWhile_sublist _).length_le
          · simp

/-- The pieces of a line that is no command. -/
def pieces (keywords : List String) : List Char → List Piece
  | [] => []
  | c :: rest =>
    let next := nextPiece keywords c rest
    next.1 :: pieces keywords next.2
termination_by cs => cs.length
decreasing_by
  have := nextPiece_shorter keywords c rest
  simp only [List.length_cons]
  omega

/-- The pieces of a line. A line that starts with a colon is a command as a whole. -/
def highlightPieces (keywords : List String) (line : List Char) : List Piece :=
  if (trimStart line).head? == some ':' then [⟨some .command, line⟩] else pieces keywords line

/-- A line with its colors. -/
def highlight (keywords : List String) (line : List Char) : List Char :=
  (highlightPieces keywords line).flatMap Piece.render

end Phrasebook.Terminal
