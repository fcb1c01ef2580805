import Phrasebook.Pattern.Reader

/-!
# Match programs

An element tree is laid out as a list of instructions that run from left to right, with splits and
jumps that only go forward. Every capture carries the set of what may follow it, which is computed
from the end of the program to its start.
-/

namespace Phrasebook.Pattern
open Text

/-- What may come right after a capture. -/
structure Follow where
  /-- literals, in the order in which the program reaches them -/
  literals : List (List Char) := []
  /-- the pattern may end -/
  canEnd : Bool := false
  /-- another capture may come, which starts anywhere -/
  isOpen : Bool := false
deriving DecidableEq, Repr, Inhabited

/-- What may follow on one of two ways. -/
def Follow.union (a b : Follow) : Follow where
  literals := a.literals ++ b.literals.filter fun l => !a.literals.contains l
  canEnd := a.canEnd || b.canEnd
  isOpen := a.isOpen || b.isOpen

/-- One instruction. -/
inductive Instr where
  /-- a literal in small letters with single spaces -/
  | lit (text : List Char)
  /-- no word runs across the next place that is no blank -/
  | boundary
  | slot (index : Nat) (follow : Follow)
  | regex (index : Nat) (follow : Follow)
  /-- first one place is tried, then the other -/
  | split (prefer other : Nat)
  | jump (target : Nat)
  | mark (value : Int64)
  | tag (name : String)
  /-- the pattern ends -/
  | stop
deriving DecidableEq, Repr, Inhabited

/-- The instructions of a label. -/
def Label.code (l : Label) : List Instr :=
  (l.mark.map Instr.mark).toList ++ (l.tag.map Instr.tag).toList

namespace Element

mutual

/-- The number of instructions of an element. -/
def codeSize : Element → Nat
  | literal _ | space | placeholder _ | regex _ => 1
  | optional inner => inner.codeSize + 1
  | choice branches => branchesSize branches
  | sequence items => itemsSize items

/-- The number of instructions of the elements of a sequence. -/
def itemsSize : List Element → Nat
  | [] => 0
  | e :: rest => e.codeSize + itemsSize rest

/-- The number of instructions of the branches of a choice: all but the last start with a split and end
with a jump. -/
def branchesSize : List (Label × Element) → Nat
  | [] => 0
  | [(label, e)] => label.code.length + e.codeSize
  | (label, e) :: rest => label.code.length + e.codeSize + 2 + branchesSize rest

end

mutual

/-- The instructions of an element whose first one stands at a place of the program. -/
def code (start : Nat) : Element → List Instr
  | literal text => [.lit text]
  | space => [.boundary]
  | placeholder index => [.slot index {}]
  | regex index => [.regex index {}]
  | optional inner =>
    .split (start + 1) (start + 1 + inner.codeSize) :: inner.code (start + 1)
  | choice branches => branchesCode start (start + branchesSize branches) branches
  | sequence items => itemsCode start items

/-- The instructions of the elements of a sequence. -/
def itemsCode (start : Nat) : List Element → List Instr
  | [] => []
  | e :: rest => e.code start ++ itemsCode (start + e.codeSize) rest

/-- The instructions of branches that go on at a common place. -/
def branchesCode (start goal : Nat) : List (Label × Element) → List Instr
  | [] => []
  | [(label, e)] => label.code ++ e.code (start + label.code.length)
  | (label, e) :: rest =>
    let next := start + label.code.length + e.codeSize + 2
    .split (start + 1) next :: label.code ++ e.code (start + 1 + label.code.length) ++
      .jump goal :: branchesCode next goal rest

end

end Element

/-- What may follow at each place of the instructions from `at_` on. -/
def followTable (at_ : Nat) : List Instr → List Follow
  | [] => []
  | instr :: rest =>
    let later := followTable (at_ + 1) rest
    let follow (target : Nat) : Follow := later.getD (target - (at_ + 1)) {}
    let here : Follow := match instr with
      | .lit text => { literals := [text] }
      | .slot .. | .regex .. => { isOpen := true }
      | .stop => { canEnd := true }
      | .boundary | .mark _ | .tag _ => follow (at_ + 1)
      | .jump target => follow target
      | .split prefer other => (follow prefer).union (follow other)
    here :: later

/-- The instructions with what may follow put into each capture. -/
def withFollow : List Instr → List Follow → List Instr
  | .slot index _ :: rest, _ :: later => .slot index (later.headD {}) :: withFollow rest later
  | .regex index _ :: rest, _ :: later => .regex index (later.headD {}) :: withFollow rest later
  | instr :: rest, _ :: later => instr :: withFollow rest later
  | instrs, _ => instrs

/-- The program of an element tree. -/
def programOf (root : Element) : List Instr :=
  let code := root.code 0 ++ [.stop]
  withFollow code (followTable 0 code)

/-- What is put out while the rest of a pattern is written. -/
structure Remainder where
  text : List Char := []
  /-- a boundary stands before the next part -/
  space : Bool := false
  /-- the last part was a capture -/
  afterCapture : Bool := false

/-- Adds a part. Parts stand apart where a boundary or a capture is between them. -/
def Remainder.add (r : Remainder) (part : List Char) (capture : Bool) : Remainder :=
  let gap := !r.text.isEmpty && (r.space || capture || r.afterCapture)
  { text := r.text ++ (if gap then [' '] else []) ++ part, afterCapture := capture }

/-- Writes what a program expects from a place on, along the preferred ways. -/
def remainder (program : Array Instr) (placeholders : List Placeholder) (regexes : List PatternRegex)
    (pc : Nat) (r : Remainder) : List Char :=
  match h : program[pc]? with
  | none | some .stop => r.text
  | some instr =>
    have : pc < program.size := (Array.getElem?_eq_some_iff.1 h).1
    let go (target : Nat) (r : Remainder) : List Char :=
      if _forward : pc < target then remainder program placeholders regexes target r else r.text
    match instr with
    | .lit text => go (pc + 1) (r.add text false)
    | .slot index _ =>
      go (pc + 1) (match placeholders[index]? with
        | some p => r.add p.text true
        | none => r)
    | .regex index _ =>
      go (pc + 1) (match regexes[index]? with
        | some x => r.add (['<'] ++ x.source ++ ['>']) true
        | none => r)
    | .boundary => go (pc + 1) { r with space := true }
    | .split prefer _ => go prefer r
    | .jump target => go target r
    | .mark _ | .tag _ => go (pc + 1) r
    | .stop => r.text
termination_by program.size - pc

end Phrasebook.Pattern
