import Phrasebook.Script.Comment
import Phrasebook.Text.Grapheme

/-!
# Input without a terminal

A conversation takes its entries from the input line by line, and a block up to its blank line. What a
terminal would do while a line is typed is done here: a backspace takes back the grapheme before it,
even one of an earlier line of the same entry.
-/

namespace Phrasebook.CommandLine

/-- The character that takes back what is before it. -/
def backspace : Char := '\x08'

/-- What is left of the graphemes that came in. -/
structure Typed where
  /-- the characters, last one first -/
  text : List Char := []
  /-- the bytes that the next backspaces take back, counted in one byte each -/
  sizes : List UInt8 := []
deriving DecidableEq, Repr, Inhabited

namespace Typed

/-- Characters without the first of them, until so many bytes are gone. -/
def dropBytes (n : Nat) : List Char → List Char
  | [] => []
  | c :: rest => if n = 0 then c :: rest else dropBytes (n - c.utf8Size) rest

/-- What is left after one more grapheme. A backspace takes back as many bytes as were counted for the
last grapheme that has not been taken back. A count of one byte drops multiples of 256, so that a
grapheme of 256 bytes stays, and of a longer one only the end goes. -/
def add (t : Typed) (g : List Char) : Typed :=
  if g == [backspace] then
    match t.sizes with
    | [] => t
    | n :: sizes => { text := dropBytes n.toNat t.text, sizes }
  else
    { text := g.reverse ++ t.text, sizes := (String.ofList g).utf8ByteSize.toUInt8 :: t.sizes }

end Typed

/-- A text after its backspaces. Each takes back the grapheme before it, if there is one, or the end of a
grapheme that is longer than can be counted. -/
def backspaced (cs : List Char) : List Char :=
  ((Text.graphemes cs).foldl Typed.add {}).text.reverse

/-- The end of a line that a line feed follows, with the line feed. -/
def lineEnd (line : List Char) : List Char :=
  if line.getLast? == some '\r' then ['\r', '\n'] else ['\n']

/-- The entries of an input by its lines. A block that the input ends in is lost. `before` holds the
entry so far. -/
def entriesFrom (before : List Char) : List (List Char) → List String
  | [] => []
  | [last] =>
    let entry := backspaced (before ++ last)
    if last.isEmpty || !Script.isComplete entry then [] else [String.ofList entry]
  | line :: rest =>
    let entry := backspaced (before ++ Text.dropReturn line)
    if Script.isComplete entry then String.ofList entry :: entriesFrom [] rest
    else entriesFrom (entry ++ lineEnd line) rest

/-- The entries of an input without a terminal. -/
def entries (input : String) : List String :=
  entriesFrom [] (Text.splitOn (· == '\n') input.toList)

/-- Graphemes that are no backspaces are kept. -/
theorem text_foldl_add {gs : List (List Char)} (h : ∀ g ∈ gs, g ≠ [backspace]) (t : Typed) :
    (gs.foldl Typed.add t).text = gs.flatten.reverse ++ t.text := by
  induction gs generalizing t with
  | nil => simp
  | cons g gs ih =>
    rw [List.foldl_cons, ih fun g' hg => h g' (List.mem_cons_of_mem g hg)]
    simp [Typed.add, h g List.mem_cons_self]

/-- A text without backspaces stays as it is. -/
theorem backspaced_of_not_mem {cs : List Char} (h : backspace ∉ cs) : backspaced cs = cs := by
  have none : ∀ g ∈ Text.graphemes cs, g ≠ [backspace] := by
    rintro g hg rfl
    apply h
    rw [← Text.flatten_graphemes cs]
    exact List.mem_flatten.2 ⟨_, hg, by simp⟩
  rw [backspaced, text_foldl_add none]
  simp [Text.flatten_graphemes]

end Phrasebook.CommandLine
