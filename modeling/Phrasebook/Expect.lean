import Phrasebook.Pattern.Element

/-!
# What an expression is expected to be

The demands that a placeholder makes on the expression that fills it, and the reasons for which a text
does not meet them.
-/

namespace Phrasebook
open Pattern

/-- What a stretch of text has to be read as. -/
structure Target where
  /-- the acceptable types, the preferred first -/
  types : List PatternType
  /-- exactly one value is expected -/
  single : Bool
  acceptance : Acceptance
  /-- conditions are accepted for booleans -/
  conditions : Bool
deriving DecidableEq, Repr, Inhabited

namespace Target

/-- What fills a placeholder. -/
def ofPlaceholder (p : Placeholder) : Target where
  types := p.types
  single := p.isSingle
  acceptance := p.acceptance
  conditions := p.conditions

/-- An expression of one of some types, of any kind. -/
def ofTypes (types : List PatternType) : Target where
  types := types
  single := types.all PatternType.single
  acceptance := .all
  conditions := true

/-- What each item of a list has to be. -/
def item (t : Target) : Target :=
  { t with types := t.types.map fun p => .one p.type, single := true }

/-- What is expected, in words. -/
def describe (types : TypeTable) (t : Target) : String :=
  let names := t.types.map fun p => types.patternTypeName { p with single := t.single }
  match names with
  | [] => "nothing"
  | [name] => if t.single then s!"a valid {name}" else s!"valid {name}"
  | names => "one of " ++ String.intercalate "/" names

end Target

/-- Why a text is not what was expected. -/
inductive Rejection where
  /-- there is no text -/
  | missing (target : Target)
  | mismatch (text : String) (target : Target)
  /-- a variable stands where a literal is expected -/
  | notLiteral (name : String)
  | emptyName
  /-- a variable for several values stands where one value is expected -/
  | listVariable (name : String)
  | noType
  /-- a reading that fits was turned down for its meaning -/
  | refused (reason : String)
deriving DecidableEq, Repr, Inhabited

/-- The wording of a rejection. -/
def Rejection.message (types : TypeTable) : Rejection → String
  | missing target => "expected " ++ target.describe types
  | mismatch text target => "'" ++ text ++ "' is not " ++ target.describe types
  | notLiteral name => "expected a literal, found variable \x7b" ++ name ++ "\x7d"
  | emptyName => "empty variable name"
  | listVariable name => "list variable \x7b" ++ name ++ "\x7d where one value is expected"
  | noType => "no acceptable type"
  | refused reason => reason

end Phrasebook
