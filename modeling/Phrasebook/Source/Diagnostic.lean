import Phrasebook.Source.Fault
import Phrasebook.Source.Span

/-!
# Diagnostics

What is reported about a script: a message with a place, a severity and a code that says which kind of
problem it is.
-/

namespace Phrasebook

/-- How serious a diagnostic is. -/
inductive Severity where
  | error
  | warning
  | info
deriving DecidableEq, Repr, Inhabited

namespace Severity

def name : Severity → String
  | error => "error"
  | warning => "warning"
  | info => "info"

/-- The most serious has the lowest rank. -/
def rank : Severity → Nat
  | error => 0
  | warning => 1
  | info => 2

end Severity

/-- Which kind of problem a diagnostic is about. -/
inductive Code where
  | noMatch
  | ambiguousMatch
  | typeMismatch
  /-- a reading that fits was turned down for its meaning -/
  | semantic
  /-- indentation or block structure -/
  | structural
  | unsetVariable
  | recursionLimit
  | cancelled
  | other
deriving DecidableEq, Repr, Inhabited

namespace Code

def name : Code → String
  | noMatch => "no-match"
  | ambiguousMatch => "ambiguous-match"
  | typeMismatch => "type-mismatch"
  | semantic => "semantic"
  | structural => "structure"
  | unsetVariable => "unset-variable"
  | recursionLimit => "recursion-limit"
  | cancelled => "cancelled"
  | other => "other"

/-- The code under which a cause is reported. -/
def ofCause : Cause → Code
  | .noMatch .. => noMatch
  | .ambiguous .. => ambiguousMatch
  | .notLiteral .. | .noConversion .. => typeMismatch
  | .recursionLimit _ => recursionLimit
  | .cancelled => cancelled
  | _ => other

end Code

/-- One report about a place in a script. -/
structure Diagnostic where
  line : Nat
  column : Nat
  message : String
  severity : Severity
  code : Code
deriving DecidableEq, Repr, Inhabited

namespace Diagnostic

/-- A diagnostic at the start of a span. -/
def atSpan (span : Span) (severity : Severity) (code : Code) (message : String) : Diagnostic :=
  { line := span.line, column := span.column, message, severity, code }

/-- An error at the start of a span. -/
def error (span : Span) (code : Code) (message : String) : Diagnostic :=
  atSpan span .error code message

/-- A warning at the start of a span. -/
def warning (span : Span) (code : Code) (message : String) : Diagnostic :=
  atSpan span .warning code message

/-- A failure reported at the span that was being parsed. -/
def ofFault (span : Span) (fault : Fault) : Diagnostic :=
  error span (.ofCause fault.cause) fault.message

/-- The diagnostic is an error. -/
def isError (d : Diagnostic) : Bool :=
  d.severity == .error

/-- The diagnostic in one line. -/
def render (d : Diagnostic) : String :=
  s!"{d.line}:{d.column}: {d.severity.name} [{d.code.name}]: {d.message}"

end Diagnostic

end Phrasebook
