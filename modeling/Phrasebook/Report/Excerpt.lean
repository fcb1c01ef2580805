import Phrasebook.Source.Diagnostic
import Phrasebook.Terminal.Paint
import Phrasebook.Text.Words

/-!
# Diagnostics with the line they are about

A diagnostic is shown with its place and, where the source has that line, the line itself with carets
under it from the reported column to the end of its text.
-/

namespace Phrasebook.Report
open Phrasebook.Text Phrasebook.Terminal

/-- The color code of a severity. -/
def severityCode : Severity → String
  | .error => "1;31"
  | .warning => "1;33"
  | .info => "1;36"

/-- The name of a severity in its color. -/
def severityLabel (colors : Bool) (s : Severity) : String :=
  paintIf colors (severityCode s) s.name

/-- A string of `n` equal characters. -/
def repeated (c : Char) (n : Nat) : String :=
  String.ofList (List.replicate n c)

/-- The source line that a diagnostic names. -/
def sourceLine? (source : String) (line : Nat) : Option (List Char) :=
  match line with
  | 0 => none
  | index + 1 => (lines source.toList)[index]?

/-- How far the carets stand from the start of the line, and how many there are. -/
def caretRange (column : Nat) (text : List Char) : Nat × Nat :=
  let start := column - 1
  (start, max 1 ((trimEnd text).length - start))

/-- The source line of a diagnostic and the carets under it. -/
def excerpt (colors : Bool) (d : Diagnostic) (text : List Char) : String :=
  let number := toString d.line
  let gutter := repeated ' ' number.length
  let bar := paintIf colors "1;34" "|"
  let (start, width) := caretRange d.column text
  let carets := paintIf colors (if d.isError then "1;31" else "1;33") (repeated '^' width)
  let shownNumber := paintIf colors "1;34" number
  let shown := String.ofList text
  let lead := repeated ' ' start
  s!" {gutter} {bar}\n" ++ s!" {shownNumber} {bar} {shown}\n" ++ s!" {gutter} {bar} {lead}{carets}\n"

/-- A diagnostic about a source that goes by a name. -/
def diagnosticText (colors : Bool) (name source : String) (d : Diagnostic) : String :=
  let code := paintIf colors "1" ("[" ++ d.code.name ++ "]")
  let arrow := paintIf colors "1;34" "-->"
  let label := severityLabel colors d.severity
  s!"{label}{code}: {d.message}\n" ++
    s!"  {arrow} {name}:{d.line}:{d.column}\n" ++
    ((sourceLine? source d.line).map (excerpt colors d)).getD ""

/-- A count with its noun. -/
def counted (n : Nat) (noun : String) : String :=
  if n == 1 then s!"{n} {noun}" else s!"{n} {noun}s"

/-- One line with the numbers of errors and warnings; nothing if there are none. -/
def summary (colors : Bool) (name : String) (errors warnings : Nat) : String :=
  match errors, warnings with
  | 0, 0 => ""
  | 0, w => severityLabel colors .warning ++ ": " ++ name ++ ": " ++ counted w "warning" ++ "\n"
  | e, 0 => severityLabel colors .error ++ ": " ++ name ++ ": " ++ counted e "error" ++ "\n"
  | e, w =>
    severityLabel colors .error ++ ": " ++ name ++ ": " ++ counted e "error" ++ " and " ++
      counted w "warning" ++ "\n"

/-- The number of errors among diagnostics. -/
def errorCount (ds : List Diagnostic) : Nat :=
  (ds.filter Diagnostic.isError).length

/-- The number of warnings among diagnostics. -/
def warningCount (ds : List Diagnostic) : Nat :=
  (ds.filter fun d => d.severity == .warning).length

/-- All diagnostics, each followed by an empty line, and the summary. -/
def diagnosticsText (colors : Bool) (name source : String) (ds : List Diagnostic) : String :=
  String.join (ds.map fun d => diagnosticText colors name source d ++ "\n") ++
    summary colors name (errorCount ds) (warningCount ds)

end Phrasebook.Report
