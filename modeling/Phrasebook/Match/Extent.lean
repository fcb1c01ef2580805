import Phrasebook.Pattern.Program
import Phrasebook.Text.Line

/-!
# How far a capture may reach

A capture may end wherever what follows it may start. The ends are found by going through the text
from the start of the capture; places within quotes, parentheses or braces that were opened on the way
are passed over, and no capture starts or ends within a word or stands before a blank.
-/

namespace Phrasebook.Match
open Text Pattern

/-- The quotes and brackets that are open at a place. -/
structure Brackets where
  quoted : Bool := false
  parens : Nat := 0
  braces : Nat := 0
deriving DecidableEq, Repr

namespace Brackets

/-- Something is open. -/
def isOpen (b : Brackets) : Bool :=
  b.quoted || b.parens != 0 || b.braces != 0

/-- The open brackets after one more character. -/
def next (b : Brackets) (c : Char) : Brackets :=
  if c == '"' then { b with quoted := !b.quoted }
  else if b.quoted then b
  else
    match c with
    | '(' => { b with parens := b.parens + 1 }
    | ')' => { b with parens := b.parens - 1 }
    | '{' => { b with braces := b.braces + 1 }
    | '}' => { b with braces := b.braces - 1 }
    | _ => b

end Brackets

/-- A literal starts exactly at a place, and does not continue a word if it starts with one. -/
def literalStarts (l : Line) (pos : Nat) (literal : List Char) : Bool :=
  (!literal.head?.any isWordChar || l.isBoundary pos) && l.skipBlanks pos == pos &&
    (l.matchFrom literal pos).isSome

/-- What follows a capture may start at a place within the text. -/
def stopsBefore (l : Line) (follow : Follow) (pos : Nat) : Bool :=
  (follow.isOpen && l.isBoundary pos) || follow.literals.any (literalStarts l pos)

/-- The places after `start` and before `stop` at which what follows may start. -/
def stopsFrom (l : Line) (follow : Follow) (start stop : Nat) (b : Brackets) (pos : Nat) : List Nat :=
  if _inside : pos < stop then
    match l.chars[pos]? with
    | none => []
    | some c =>
      let later := stopsFrom l follow start stop (b.next c) (pos + 1)
      if !b.isOpen && start < pos && stopsBefore l follow pos then pos :: later else later
  else []
termination_by stop - pos

/-- The end of a capture that what follows stops at a place, if the capture holds anything and does
not cut a word. -/
def endBefore? (l : Line) (start pos : Nat) : Option Nat :=
  let stop := l.dropBlanks start pos
  if start < stop && l.isBoundary stop then some stop else none

/-- The list without elements that occurred before. -/
def withoutRepeats (seen : List Nat) : List Nat → List Nat
  | [] => []
  | x :: xs => if seen.contains x then withoutRepeats seen xs else x :: withoutRepeats (x :: seen) xs

/-- The ends of a capture that starts at `start` in a line of which all up to `stop` is matched, the
nearest first. -/
def splitPoints (l : Line) (follow : Follow) (start stop : Nat) : List Nat :=
  if stop ≤ start || !l.isBoundary start then []
  else
    let last := if follow.canEnd || follow.isOpen then [stop] else []
    withoutRepeats [] ((stopsFrom l follow start stop {} start ++ last).filterMap (endBefore? l start))

/-- There are no more stops than places. -/
theorem length_stopsFrom_le (l : Line) (follow : Follow) (start stop : Nat) (b : Brackets) (pos : Nat) :
    (stopsFrom l follow start stop b pos).length ≤ stop - pos := by
  fun_induction stopsFrom l follow start stop b pos with
  | case1 => simp
  | case2 b pos inside c _ later _ ih =>
    have rest : later.length ≤ stop - (pos + 1) := ih
    simp only [List.length_cons]
    omega
  | case3 b pos inside c _ later _ ih =>
    have rest : later.length ≤ stop - (pos + 1) := ih
    omega
  | case4 => simp

/-- Leaving out repeats leaves no more. -/
theorem length_withoutRepeats_le (seen xs : List Nat) :
    (withoutRepeats seen xs).length ≤ xs.length := by
  fun_induction withoutRepeats seen xs with
  | case1 => simp
  | case2 seen x xs _ ih =>
    simp only [List.length_cons]
    omega
  | case3 seen x xs _ ih =>
    simp only [List.length_cons]
    omega

/-- A capture has no more ends than there are places, and one for the end of the stretch. -/
theorem length_splitPoints_le (l : Line) (follow : Follow) (start stop : Nat) :
    (splitPoints l follow start stop).length ≤ stop + 1 := by
  have stops := length_stopsFrom_le l follow start stop {} start
  unfold splitPoints
  split
  · simp
  · refine Nat.le_trans (length_withoutRepeats_le _ _) ?_
    refine Nat.le_trans (List.length_filterMap_le _ _) ?_
    simp only [List.length_append]
    split <;> simp <;> omega

end Phrasebook.Match
