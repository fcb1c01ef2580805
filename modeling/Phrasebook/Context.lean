import Phrasebook.Config
import Phrasebook.Expect
import Phrasebook.Source.Diagnostic
import Phrasebook.Table
import Phrasebook.Tree

/-!
# The state of a parse

What a parse knows besides the line it reads: where the line stands, which names are declared in which
scopes, which blocks enclose it, what was reported, how deep it is nested, which candidates are being
tried, which stretches of the line were turned down before, and whether it has been cancelled.
-/

namespace Phrasebook

/-- A request to end a parse. It may be set from the beginning, or come at a later moment: when so many
more checks have found it unset. -/
structure Cancellation where
  /-- how many more checks find it unset; none if no request ever comes -/
  remaining : Option Nat := none
deriving DecidableEq, Repr, Inhabited

namespace Cancellation

/-- Sets the request. -/
def set : Cancellation := ⟨some 0⟩

/-- The request is set. -/
def isSet (c : Cancellation) : Bool :=
  c.remaining == some 0

/-- What is left after one more check found it unset. -/
def tick (c : Cancellation) : Cancellation :=
  ⟨c.remaining.map (· - 1)⟩

end Cancellation

/-- A candidate that was turned down on a whole line, and how far it came. -/
structure NearMiss where
  category : Category
  definition : Nat
  /-- the text of the pattern -/
  pattern : String
  /-- the bytes of the line that were matched -/
  progress : Nat
  /-- the place of the candidate in the order of trial -/
  rank : Nat
  reason : String
  /-- the pattern matched, and the node was turned down for its meaning -/
  produced : Bool
deriving DecidableEq, Repr, Inhabited

namespace NearMiss

/-- One near miss comes before another: it came further, or as far at an earlier place. -/
def better (a b : NearMiss) : Bool :=
  b.progress < a.progress || (a.progress == b.progress && a.rank < b.rank)

/-- The near miss that came furthest, and of those the first in the order of trial. -/
def best? : List NearMiss → Option NearMiss
  | [] => none
  | miss :: rest =>
    match best? rest with
    | none => some miss
    | some other => some (if other.better miss then other else miss)

/-- The near miss in an error message. -/
def describe (m : NearMiss) : String :=
  "closest match '" ++ m.pattern ++ "': " ++ m.reason

end NearMiss

/-- A stretch of a text in bytes. -/
structure Stretch where
  start : Nat
  stop : Nat
deriving DecidableEq, Repr, Inhabited

/-- A definition that is being tried on a stretch. -/
structure Trial where
  definition : Nat
  stretch : Stretch
deriving DecidableEq, Repr, Inhabited

/-- Stretches that are no expressions for a target, and why. -/
abbrev Rejections :=
  Table (fun (stretch, _) => 1024 * stretch.stop + stretch.start : Stretch × Target → Nat) Rejection

/-- The state of a parse. -/
structure Context where
  /-- the name of the source -/
  source : Option String := none
  line : Nat := 1
  /-- where the text of the line begins -/
  column : Nat := 1
  /-- the names declared in each open scope, the innermost first -/
  scopes : List (List String) := [[]]
  diagnostics : List Diagnostic := []
  depth : Nat := 0
  maxDepth : Nat := 64
  cancellation : Cancellation := {}
  /-- the definitions that are being tried, the last first -/
  trials : List Trial := []
  nearMisses : List NearMiss := []
  /-- the definitions of the blocks around the line, from the outside in -/
  enclosing : List Nat := []
  /-- how many candidates were tried -/
  tried : Nat := 0
  rejections : Rejections := {}
deriving Inhabited

/-- What a rollback returns to. -/
structure Checkpoint where
  /-- the number of diagnostics -/
  reported : Nat
  scopes : List (List String)
deriving DecidableEq, Repr, Inhabited

namespace Context

/-- The span of a stretch of the line. -/
def span (c : Context) (stretch : Stretch) : Span :=
  .withinLine c.line c.column stretch.start stretch.stop

/-- The form in which declared names are kept. -/
def nameKey (name : String) : String :=
  TypeTable.key name

/-- Opens a scope with no names in it. -/
def pushScope (c : Context) : Context :=
  { c with scopes := [] :: c.scopes }

/-- Closes the innermost scope; the outermost is never closed. -/
def popScope (c : Context) : Context :=
  match c.scopes with
  | _ :: outer :: rest => { c with scopes := outer :: rest }
  | _ => c

/-- Declares a name in the innermost scope. -/
def declare (c : Context) (name : String) : Context :=
  match c.scopes with
  | [] => c
  | scope :: rest =>
    let key := nameKey name
    { c with scopes := (if scope.contains key then scope else scope ++ [key]) :: rest }

/-- A name is declared in some open scope. -/
def isDeclared (c : Context) (name : String) : Bool :=
  c.scopes.any fun scope => scope.contains (nameKey name)

/-- The declared names, those of the outermost scope first. -/
def declared (c : Context) : List String :=
  c.scopes.reverse.flatten

/-- Adds a diagnostic after the others. -/
def report (c : Context) (d : Diagnostic) : Context :=
  { c with diagnostics := c.diagnostics ++ [d] }

/-- What a rollback from a later state returns to. -/
def checkpoint (c : Context) : Checkpoint :=
  { reported := c.diagnostics.length, scopes := c.scopes }

/-- Takes back what was reported and declared since a checkpoint. -/
def rollback (c : Context) (p : Checkpoint) : Context :=
  { c with diagnostics := c.diagnostics.take p.reported, scopes := p.scopes }

/-- Enters the block of a definition. -/
def enterBlock (c : Context) (definition : Nat) : Context :=
  { c with enclosing := c.enclosing ++ [definition] }.pushScope

/-- Leaves the innermost block. -/
def leaveBlock (c : Context) : Context :=
  { c with enclosing := c.enclosing.dropLast }.popScope

/-- Asks the parse to stop. -/
def cancel (c : Context) : Context :=
  { c with cancellation := .set }

/-- The nesting that the limit still allows. -/
def remainingDepth (c : Context) : Nat :=
  c.maxDepth - c.depth

/-- Goes one level deeper, without asking whether that is allowed. -/
def deepen (c : Context) : Context :=
  { c with depth := c.depth + 1 }

/-- Comes back from a level. -/
def leave (c : Context) : Context :=
  { c with depth := c.depth - 1 }

/-- The definition is being tried on the stretch. -/
def isTrying (c : Context) (definition : Nat) (stretch : Stretch) : Bool :=
  c.trials.contains { definition, stretch }

/-- Some definition is being tried on the stretch. -/
def isStretchTried (c : Context) (stretch : Stretch) : Bool :=
  c.trials.any fun t => t.stretch == stretch

/-- Where the line stands, for an error. -/
def place (c : Context) : Place where
  source := c.source
  position := some (c.line, c.column)

end Context

/-- A step of a parse: it reads and changes the state, and may end the parse of the line. -/
abbrev Parsing := ExceptT Cause (StateM Context)

namespace Parsing

/-- A step given by what it does to the state. -/
def of {α : Type} (f : Context → Except Cause α × Context) : Parsing α := f

/-- The state. -/
def context : Parsing Context := of fun c => (.ok c, c)

/-- What a later rollback returns to. -/
def checkpoint : Parsing Checkpoint := of fun c => (.ok c.checkpoint, c)

/-- Changes the state. -/
def change (f : Context → Context) : Parsing Unit := of fun c => (.ok (), f c)

/-- Ends the parse if it has been cancelled. -/
def checkCancelled : Parsing Unit :=
  of fun c =>
    if c.cancellation.isSet then (.error .cancelled, c)
    else (.ok (), { c with cancellation := c.cancellation.tick })

/-- A step on a changed state, after which the state is changed back however the step ended. -/
def bracket {α : Type} (enter leave : Context → Context) (step : Parsing α) : Parsing α :=
  of fun c =>
    let (result, c) := step (enter c)
    (result, leave c)

/-- Goes one level deeper, if the limit allows it. -/
def enter : Parsing Unit := do
  checkCancelled
  of fun c =>
    if c.maxDepth ≤ c.depth then (.error (.recursionLimit c.maxDepth), c) else (.ok (), c.deepen)

end Parsing

end Phrasebook
