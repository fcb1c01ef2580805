import Phrasebook.Text.Words
import Phrasebook.Types.Table

/-!
# Elements of a pattern

A pattern is a tree of literals, word boundaries, optional parts, choices and captures. A capture is a
placeholder, which an expression of certain types fills, or a regex.
-/

namespace Phrasebook.Pattern
open Text

/-- What is written in front of a branch: a mark, which the branches taken combine by exclusive or, or
a tag, which is reported when the branch is taken. -/
structure Label where
  mark : Option Int64 := none
  tag : Option String := none
deriving DecidableEq, Repr, Inhabited

/-- A branch has no label. -/
def Label.isEmpty (l : Label) : Bool :=
  l.mark.isNone && l.tag.isNone

/-- A part of a pattern. -/
inductive Element where
  /-- text in small letters with single spaces -/
  | literal (text : List Char)
  /-- no word may run across this place -/
  | space
  | optional (inner : Element)
  /-- the branches in the order in which they are tried -/
  | choice (branches : List (Label × Element))
  /-- a placeholder by its number -/
  | placeholder (index : Nat)
  /-- a regex by its number -/
  | regex (index : Nat)
  | sequence (items : List Element)
deriving Repr, Inhabited

namespace Element

mutual

/-- The number of words of literals that every match contains. -/
def requiredWords : Element → Nat
  | literal text => (words text).length
  | sequence items => requiredWordsOf items
  | space | optional _ | choice _ | placeholder _ | regex _ => 0

/-- The number of words that every match of a sequence contains. -/
def requiredWordsOf : List Element → Nat
  | [] => 0
  | e :: rest => e.requiredWords + requiredWordsOf rest

end

mutual

/-- The element may match without taking anything. -/
def canBeEmpty : Element → Bool
  | literal text => text.isEmpty
  | space | optional _ => true
  | choice branches => anyEmpty branches
  | placeholder _ | regex _ => false
  | sequence items => allEmpty items

/-- Some branch may match without taking anything. -/
def anyEmpty : List (Label × Element) → Bool
  | [] => false
  | (_, e) :: rest => e.canBeEmpty || anyEmpty rest

/-- All elements may match without taking anything. -/
def allEmpty : List Element → Bool
  | [] => true
  | e :: rest => e.canBeEmpty && allEmpty rest

end

/-- Branches as one element: a single branch without a label stands for itself. -/
def ofBranches : List (Label × Element) → Element
  | [(label, e)] => if label.isEmpty then e else choice [(label, e)]
  | branches => choice branches

end Element

/-- Which kinds of expression fill a placeholder. -/
inductive Acceptance where
  | all
  /-- literals, and lists of them -/
  | literals
  /-- everything but literals -/
  | nonLiterals
deriving DecidableEq, Repr, Inhabited

/-- A typed slot of a pattern. -/
structure Placeholder where
  index : Nat
  /-- the acceptable types in the order in which they are written -/
  types : List PatternType
  /-- the slot may stay empty -/
  nullable : Bool
  acceptance : Acceptance
  /-- a condition may fill the slot -/
  conditions : Bool
  /-- where the slot starts, in bytes from the start of the pattern -/
  offset : Nat
  /-- the slot as it is written -/
  text : List Char
deriving DecidableEq, Repr, Inhabited

/-- Exactly one value is expected. -/
def Placeholder.isSingle (p : Placeholder) : Bool :=
  p.types.all PatternType.single

end Phrasebook.Pattern
