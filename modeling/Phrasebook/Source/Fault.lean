/-!
# What can go wrong

The causes of a failure, the wording of each, and the place that a failure can carry with it. Three
causes end the parse of a whole line; the others only turn down one way of reading it.
-/

namespace Phrasebook

/-- Why something failed. -/
inductive Cause where
  /-- a pattern text breaks the rules of patterns at a byte offset -/
  | patternSyntax (pattern : String) (offset : Nat) (problem : String)
  | unknownType (name : String)
  | duplicateType (name : String)
  /-- no pattern of a category fits a text -/
  | noMatch (category input : String) (nearMiss : Option String)
  /-- a pattern cannot be told apart from an earlier one -/
  | ambiguous (category pattern existing : String)
  /-- a text is no literal of a type -/
  | notLiteral (typeName input : String)
  | noConversion (source target : String)
  | recursionLimit (limit : Nat)
  | cancelled
  | config (problem : String)
  | io (problem : String)
  | internal (problem : String)
deriving DecidableEq, Repr, Inhabited

namespace Cause

/-- The wording of a cause. -/
def message : Cause → String
  | patternSyntax pattern offset problem =>
    s!"invalid pattern '{pattern}' at offset {offset}: {problem}"
  | unknownType name => s!"unknown type: {name}"
  | duplicateType name => s!"type already registered: {name}"
  | noMatch category input none => s!"can't understand this {category}: '{input}'"
  | noMatch category input (some near) => s!"can't understand this {category}: '{input}' ({near})"
  | ambiguous category pattern existing =>
    s!"ambiguous {category} pattern '{pattern}': indistinguishable from '{existing}'"
  | notLiteral typeName input => s!"'{input}' is not a valid {typeName}"
  | noConversion source target => s!"no conversion from {source} to {target}"
  | recursionLimit limit => s!"recursion limit ({limit}) exceeded"
  | cancelled => "parse cancelled"
  | config problem => s!"configuration error: {problem}"
  | io problem => s!"i/o error: {problem}"
  | internal problem => s!"internal error: {problem}"

/-- The cause ends the parse of the whole line. -/
def isFatal : Cause → Bool
  | recursionLimit _ | cancelled | internal _ => true
  | _ => false

end Cause

/-- Where a failure happened. -/
structure Place where
  source : Option String := none
  position : Option (Nat × Nat) := none
  /-- the enclosing constructs that were being read -/
  frames : List String := []
deriving DecidableEq, Repr, Inhabited

/-- The source with the position in it, and a line for every frame. -/
def Place.render (p : Place) : String :=
  let head := match p.source, p.position with
    | none, _ => ""
    | some source, none => s!"at {source}"
    | some source, some (line, column) => s!"at {source}:{line}:{column}"
  if p.frames.isEmpty then head
  else head ++ "\n" ++ String.join (p.frames.map fun frame => s!"  in {frame}\n")

/-- A cause, and where it arose if that is known. -/
structure Fault where
  cause : Cause
  place : Option Place := none
deriving DecidableEq, Repr, Inhabited

namespace Fault

/-- The wording of the cause; the place is shown apart from it. -/
def message (f : Fault) : String :=
  f.cause.message

/-- The cause ends the parse of the whole line. -/
def isFatal (f : Fault) : Bool :=
  f.cause.isFatal

end Fault

instance : Coe Cause Fault where
  coe cause := { cause }

end Phrasebook
