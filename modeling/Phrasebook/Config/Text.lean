import Phrasebook.Config
import Phrasebook.Decimal.Text
import Phrasebook.Script.Comment
import Phrasebook.Source.Fault

/-!
# Settings as text

A settings text has one `key: value` on a line. Comments and blank lines are skipped, and a key may be
written in any letter case with spaces, dashes or underscores between its words.
-/

namespace Phrasebook.Config
open Phrasebook.Text Phrasebook.Script

/-- What is wrong with a line of settings. -/
inductive Problem where
  /-- there is no colon -/
  | noColon (line : String)
  | unknownKey (key : String)
  | notPositive (key value : String)
  | notBoolean (key value : String)
  | noSeparator
  | unknownPolicy (value : String)
deriving DecidableEq, Repr

/-- The wording of a problem. -/
def Problem.message : Problem → String
  | noColon line => s!"expected 'key: value', found '{line}'"
  | unknownKey key => s!"unknown key '{key}'"
  | notPositive key value => s!"{key} must be a positive integer, not '{value}'"
  | notBoolean key value => s!"{key} must be true or false, not '{value}'"
  | noSeparator => "list-separators needs at least one separator"
  | unknownPolicy value => s!"ambiguity must be 'warn' or 'deny', not '{value}'"

/-- A key in small letters with dashes between its words. -/
def normalizeKey (key : List Char) : String :=
  let isGap (c : Char) : Bool := isBlank c || c == '-' || c == '_'
  let parts := ((splitOn isGap (trim key)).filter fun w => !w.isEmpty).map lower
  String.ofList (join ['-'] parts)

/-- A whole number from one to the greatest of sixty-four bits. -/
def positive (key : String) (value : List Char) : Except Problem Nat :=
  match Decimal.readNat? value with
  | some n => if 0 < n ∧ n < UInt64.size then .ok n else .error (.notPositive key (String.ofList value))
  | none => .error (.notPositive key (String.ofList value))

/-- A truth value in one of three spellings. -/
def switch (key : String) (value : List Char) : Except Problem Bool :=
  let word := String.ofList (value.map lowerAscii)
  if ["true", "yes", "on"].contains word then .ok true
  else if ["false", "no", "off"].contains word then .ok false
  else .error (.notBoolean key (String.ofList value))

/-- The separators between bars, in small letters. -/
def separators (value : List Char) : Except Problem (List String) :=
  let parts := ((splitOn (· == '|') value).map trim).filter fun s => !s.isEmpty
  if parts.isEmpty then .error .noSeparator
  else .ok (parts.map fun s => String.ofList (lower s))

/-- The policy of this name. -/
def policy (value : List Char) : Except Problem AmbiguityPolicy :=
  let word := String.ofList (value.map lowerAscii)
  if word == "warn" then .ok .warn
  else if word == "deny" then .ok .deny
  else .error (.unknownPolicy word)

/-- Settings with one of them changed. -/
def set (c : Config) (key : String) (value : List Char) : Except Problem Config :=
  match key with
  | "max-depth" => do return { c with maxDepth := ← positive key value }
  | "max-conversion-depth" => do return { c with maxConversionDepth := ← positive key value }
  | "list-separators" => do return { c with listSeparators := ← separators value }
  | "ambiguity" => do return { c with ambiguity := ← policy value }
  | "top-level-statements" => do return { c with allowTopLevel := ← switch key value }
  | "warn-unset-locals" => do return { c with warnUnsetLocals := ← switch key value }
  | other => .error (.unknownKey other)

/-- Applies one line of a settings text. -/
def applyLine (c : Config) (raw : List Char) : Except Problem Config :=
  let line := trim (stripComment raw)
  if line.isEmpty then .ok c
  else
    match line.dropWhile (· != ':') with
    | [] => .error (.noColon (String.ofList line))
    | _ :: value => c.set (normalizeKey (line.takeWhile (· != ':'))) (trim value)

/-- Applies the lines of a settings text, the first of which has the given number. The first problem
ends it, and is reported with the number of its line. -/
def applyLines (c : Config) (number : Nat) : List (List Char) → Except Cause Config
  | [] => .ok c
  | raw :: rest =>
    match c.applyLine raw with
    | .ok c => c.applyLines (number + 1) rest
    | .error problem => .error (.config s!"line {number}: {problem.message}")

/-- Settings changed by a text. -/
def applyText (c : Config) (text : String) : Except Cause Config :=
  c.applyLines 1 (lines text.toList)

end Phrasebook.Config
