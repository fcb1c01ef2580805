import Phrasebook.Text.Words

/-!
# Comments and indentation

A `#` starts a comment unless it stands in quotes or in the braces of a variable, and a doubled one
stands for itself.
-/

namespace Phrasebook.Script
open Phrasebook.Text

/-- What a reader of a line has to remember about the quotes and braces before a character. -/
structure Nesting where
  quoted : Bool := false
  braces : Nat := 0
deriving DecidableEq, Repr

namespace Nesting

/-- A `#` here is text. -/
def covers (n : Nesting) : Bool :=
  n.quoted || n.braces != 0

/-- The nesting after one more character. -/
def next (n : Nesting) (c : Char) : Nesting :=
  if c == '"' then { n with quoted := !n.quoted }
  else if n.quoted then n
  else if c == '{' then { n with braces := n.braces + 1 }
  else if c == '}' then { n with braces := n.braces - 1 }
  else n

end Nesting

/-- The text before the comment, from within a nesting on. -/
def stripFrom (n : Nesting) : List Char → List Char
  | [] => []
  | '#' :: rest =>
    if n.covers then '#' :: stripFrom (n.next '#') rest
    else
      match rest with
      | '#' :: rest => '#' :: stripFrom n rest
      | _ => []
  | c :: rest => c :: stripFrom (n.next c) rest

/-- A line without its comment, and with every doubled `#` as one. -/
def stripComment (line : List Char) : List Char :=
  stripFrom {} line

/-- The columns that a tab stands for. -/
def tabWidth : Nat := 4

/-- The width of the blanks in front of a line. -/
def indentation (blanks : List Char) : Nat :=
  blanks.foldl (fun n c => n + if c == '\t' then tabWidth else 1) 0

/-- An entry needs no more lines: its first line opens no block, or its last line is blank. A line
that starts with a colon is a command and opens no block. -/
def isComplete (entry : List Char) : Bool :=
  match lines entry with
  | [] => true
  | first :: _ =>
    let header := trim (stripComment first)
    if header.head? == some ':' || header.getLast? != some ':' then true
    else
      match splitOn (· == '\n') entry with
      | [] | [_] => false
      | _ :: pieces => isBlankText (pieces.getLastD [])

end Phrasebook.Script
