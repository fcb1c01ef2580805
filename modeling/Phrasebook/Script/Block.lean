import Phrasebook.Context

/-!
# Blocks

The lines of a script that were understood so far: the statements of the margin that are complete, and
the blocks that are still open, each with its header and the statements in it. A line belongs to the
innermost block whose header it is indented more than; the blocks it falls outside of are closed before
it is read.
-/

namespace Phrasebook

/-- A line of a script with the lines of its block. -/
structure Statement where
  node : Node
  children : List Statement
deriving Repr, Inhabited

namespace Script

/-- A block that may still get lines. -/
structure OpenBlock where
  /-- the indentation of the header -/
  indent : Nat
  /-- the indentation of its lines, once there was one -/
  childIndent : Option Nat := none
  /-- the header; none if it was not understood, and then the block is dropped -/
  header : Option Node
  /-- the statements in it that are complete -/
  children : List Statement := []
  /-- the start of the header -/
  span : Span
deriving Repr

namespace OpenBlock

/-- A line at an indentation falls outside of the block. -/
def isOutside (indent : Nat) (b : OpenBlock) : Bool :=
  indent ≤ b.indent

/-- The block as a statement. -/
def statement? (b : OpenBlock) : Option Statement :=
  b.header.map fun node => { node, children := b.children }

/-- The state inside of the block. -/
def enter (b : OpenBlock) (c : Context) : Context :=
  match b.header with
  | some node => c.enterBlock node.definition
  | none => c.pushScope

/-- The state after the block. One that never had a line is reported. -/
def leave (b : OpenBlock) (c : Context) : Context :=
  match b.header with
  | none => c.popScope
  | some node =>
    if b.childIndent.isNone then
      c.leaveBlock.report
        (.warning b.span .structural ("'" ++ node.name ++ "' has an empty block"))
    else c.leaveBlock

end OpenBlock

/-- What was read of a script. -/
structure Outline where
  /-- the open blocks, the innermost first -/
  blocks : List OpenBlock := []
  /-- the statements of the margin that are complete -/
  statements : List Statement := []
deriving Repr

/-- Closes the blocks that a line at an indentation falls outside of. The statements that the closed
blocks have become belong to the next block, or to the margin if there is none. -/
def closeBlocks (indent : Nat) : List OpenBlock → List Statement → List OpenBlock × List Statement
  | [], closed => ([], closed)
  | b :: rest, closed =>
    let b := { b with children := b.children ++ closed }
    if b.isOutside indent then closeBlocks indent rest b.statement?.toList else (b :: rest, [])

namespace Outline

/-- No block is open. -/
def isAtMargin (o : Outline) : Bool :=
  o.blocks.isEmpty

/-- The outline without the blocks that a line at an indentation falls outside of. -/
def close (o : Outline) (indent : Nat) : Outline :=
  let (blocks, closed) := closeBlocks indent o.blocks []
  { blocks, statements := o.statements ++ closed }

/-- The state after these blocks. -/
def leave (o : Outline) (indent : Nat) (c : Context) : Context :=
  (o.blocks.takeWhile (OpenBlock.isOutside indent)).foldl (fun c b => b.leave c) c

/-- Takes an indentation as that of the lines of the innermost block, if it is the first in it; else
gives the indentation that was expected if it is another one. -/
def indentLine (o : Outline) (indent : Nat) : Outline × Option Nat :=
  match o.blocks with
  | [] => (o, if indent == 0 then none else some 0)
  | b :: rest =>
    match b.childIndent with
    | none => ({ o with blocks := { b with childIndent := some indent } :: rest }, none)
    | some expected => (o, if indent == expected then none else some expected)

/-- Adds a statement to the innermost block. -/
def add (o : Outline) (s : Statement) : Outline :=
  match o.blocks with
  | [] => { o with statements := o.statements ++ [s] }
  | b :: rest => { o with blocks := { b with children := b.children ++ [s] } :: rest }

/-- Opens a block. -/
def open_ (o : Outline) (b : OpenBlock) : Outline :=
  { o with blocks := b :: o.blocks }

end Outline

end Script

end Phrasebook
