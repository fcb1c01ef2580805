import Phrasebook.Parse.Line
import Phrasebook.Script.Block
import Phrasebook.Script.Comment

/-!
# Scripts

A line that ends in a colon is the header of a block: an event at the margin, a section within a block.
Every other line is an effect or else a condition. A line that is not understood is reported, and the
lines after it are read all the same; only a parse that is cancelled ends.
-/

namespace Phrasebook

/-- The result of parsing a script. -/
structure Script where
  /-- the statements at the margin -/
  statements : List Statement
  /-- what was reported, in the order of the lines -/
  diagnostics : List Diagnostic
deriving Repr

/-- Some diagnostic is an error. -/
def Script.hasErrors (s : Script) : Bool :=
  s.diagnostics.any Diagnostic.isError

namespace Script
open Text

/-- A line with something on it besides blanks and a comment. -/
structure Row where
  number : Nat
  indent : Nat
  /-- where the text begins -/
  column : Nat
  text : List Char
deriving DecidableEq, Repr

namespace Row

/-- The row of a line, if there is something on it. `index` lines stand before it. -/
def ofLine? (line : List Char) (index : Nat) : Option Row :=
  let content := trimEnd (stripComment line)
  let text := trimStart content
  let blanks := content.take (content.length - text.length)
  if text.isEmpty then none
  else
    some
      { number := min greatestPosition (index + 1)
        indent := indentation blanks
        column := min greatestPosition ((Line.ofList blanks).byteOffset blanks.length + 1)
        text }

/-- The text of a header without its colon. -/
def header? (row : Row) : Option String :=
  if row.text.getLast? == some ':' then some (String.ofList row.text.dropLast) else none

end Row

/-- Reports something at the text of the present line. -/
def reportLine (text : String) (diagnostic : Span → Diagnostic) : Parsing Unit :=
  Parsing.change fun c => c.report (diagnostic (c.span ⟨0, text.utf8ByteSize⟩))

/-- A line as syntax of a category. A parse that was cancelled ends; every other fault stays with the
line. -/
def attempt (r : Registry) (category : Category) (text : String) : Parsing (Except Fault Node) :=
  .of fun c =>
    match r.parseLine category text c with
    | (.ok node, c) => (.ok (.ok node), c)
    | (.error fault, c) =>
      if fault.cause == .cancelled then (.error .cancelled, c) else (.ok (.error fault), c)

/-- The header of a block: at the margin an event, or a section where statements may stand there. -/
def readHeader (r : Registry) (atMargin : Bool) (text : String) : Parsing (Option Node) := do
  match ← attempt r (if atMargin then .event else .sectionHead) text with
  | .ok node => pure (some node)
  | .error fault =>
    let second ←
      if atMargin && r.config.allowTopLevel then attempt r .sectionHead text
      else pure (.error fault)
    match second with
    | .ok node => pure (some node)
    | .error _ => do
      reportLine text fun span => .ofFault span fault
      pure none

/-- A line that is no header. -/
def readStatement (r : Registry) (text : String) : Parsing (Option Node) := do
  match ← attempt r .effect text with
  | .ok node => pure (some node)
  | .error fault =>
    let second ← match fault.cause with
      | .recursionLimit _ => pure (.error fault)
      | _ => attempt r .condition text
    match second with
    | .ok node => pure (some node)
    | .error _ => do
      reportLine text fun span => .ofFault span fault
      pure none

/-- Reads a line whose indentation fits. -/
def readText (r : Registry) (row : Row) (o : Outline) : Parsing Outline := do
  let text := String.ofList row.text
  match row.header? with
  | some header =>
    let node? ← readHeader r o.isAtMargin header
    let span := (← Parsing.context).span ⟨0, 0⟩
    let block : OpenBlock := { indent := row.indent, header := node?, span }
    Parsing.change block.enter
    pure (o.open_ block)
  | none =>
    if o.isAtMargin && !r.config.allowTopLevel then
      reportLine text fun span =>
        .error span .structural "statements must be placed inside a trigger"
      pure o
    else
      match ← readStatement r text with
      | some node => pure (o.add { node, children := [] })
      | none => pure o

/-- Reads one line. -/
def readRow (r : Registry) (o : Outline) (row : Row) : Parsing Outline := do
  Parsing.change fun c => o.leave row.indent { c with line := row.number, column := row.column }
  let (o, expected?) := (o.close row.indent).indentLine row.indent
  match expected? with
  | some expected =>
    let found := row.indent
    reportLine (String.ofList row.text) fun span =>
      .error span .structural
        s!"indentation error: expected {expected} columns, found {found}"
    pure o
  | none => readText r row o

/-- Reads the lines of a script in order. -/
def readLines (r : Registry) (o : Outline) : List (List Char × Nat) → Parsing Outline
  | [] => pure o
  | (line, index) :: rest => do
    Parsing.checkCancelled
    let o ← match Row.ofLine? line index with
      | some row => readRow r o row
      | none => pure o
    readLines r o rest

end Script

namespace Registry

/-- Parses a script from a state. -/
def parseScript (r : Registry) (source : String) (c : Context) : Except Cause Script :=
  match Script.readLines r {} (Text.lines source.toList).zipIdx c with
  | (.error cause, _) => .error cause
  | (.ok o, c) =>
    .ok { statements := (o.close 0).statements, diagnostics := (o.leave 0 c).diagnostics }

end Registry

end Phrasebook
