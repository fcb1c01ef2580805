/-!
# Settings

The limits and choices under which syntax is registered and lines are parsed.
-/

namespace Phrasebook

/-- What happens to a pattern that cannot be told apart from an earlier one. -/
inductive AmbiguityPolicy where
  /-- it is recorded, and the earlier one wins -/
  | warn
  /-- its registration fails -/
  | deny
deriving DecidableEq, Repr, Inhabited

namespace AmbiguityPolicy

/-- The word for a policy in a settings text. -/
def name : AmbiguityPolicy → String
  | warn => "warn"
  | deny => "deny"

end AmbiguityPolicy

/-- Limits and choices for registration and parsing. -/
structure Config where
  /-- how deep expressions may be nested on one line -/
  maxDepth : Nat := 64
  /-- the greatest length of a chain of converters -/
  maxConversionDepth : Nat := 4
  /-- what separates the items of a list, tried in this order -/
  listSeparators : List String := [",", "and", "or"]
  ambiguity : AmbiguityPolicy := .warn
  /-- statements may stand outside of every block -/
  allowTopLevel : Bool := true
  /-- reading a local variable that is not set yet gives a warning -/
  warnUnsetLocals : Bool := true
deriving DecidableEq, Repr, Inhabited

/-- Settings that refuse ambiguous patterns and statements outside of blocks. -/
def Config.strict : Config where
  ambiguity := .deny
  allowTopLevel := false

/-- The priority of syntax that is registered without one. -/
def defaultPriority : Int := 5

end Phrasebook
