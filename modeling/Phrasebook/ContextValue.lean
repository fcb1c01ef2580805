import Phrasebook.Match.Search

/-!
# Context values

An event or section can provide values under names of their own to the lines of its block, such as the
interval of a periodical event. A value is observed before, during or after the event, and is written
with the word for it in front, alone, or in either way.
-/

namespace Phrasebook
open Text

/-- When a value is observed. -/
inductive ValueState where
  | past
  | present
  | future
deriving DecidableEq, Repr, Inhabited

namespace ValueState

/-- The word for a state. -/
def name : ValueState → String
  | past => "past"
  | present => "present"
  | future => "future"

/-- The state that a mark stands for. -/
def ofMark? (mark : Int64) : Option ValueState :=
  if mark == 0 then some present
  else if mark == 1 then some past
  else if mark == 2 then some future
  else none

end ValueState

/-- How a value may be written. -/
inductive ValueUsage where
  /-- only behind `context-` -/
  | expressionOnly
  /-- only by its bare name -/
  | aloneOnly
  | either
deriving DecidableEq, Repr, Inhabited

/-- A value may be written alone, or not alone. -/
def ValueUsage.allows : ValueUsage → (alone : Bool) → Bool
  | expressionOnly, alone => !alone
  | aloneOnly, alone => alone
  | either, _ => true

/-- A value that an event or section provides. -/
structure ContextValue where
  /-- the definition that provides it -/
  owner : Nat
  /-- its name, a pattern without placeholders -/
  pattern : Pattern
  type : PatternType
  state : ValueState
  usage : ValueUsage
deriving Inhabited

namespace ContextValue

/-- A text is a name of the value. -/
def isNamed (v : ContextValue) (name : String) : Bool :=
  let line := Line.ofString name
  let found : Except (Match.Failure Unit) (Match.Found Unit) :=
    Id.run (Match.run v.pattern line 0 line.size fun _ _ _ => .rejected ())
  found.toBool

/-- Why a value cannot be used. -/
inductive Problem where
  /-- no value goes by a bare name; the word may well mean something else -/
  | unknownAlone
  | unknown (name : String)
  /-- the value has to be written behind `context-` -/
  | notAlone (name : String)
  | onlyAlone (name : String)
  | wrongState (state : ValueState)
deriving DecidableEq, Repr

/-- The wording of a problem. -/
def Problem.message : Problem → String
  | unknownAlone => ""
  | unknown name => s!"no context value matching '{name}' was found"
  | notAlone name =>
    s!"the context value matching '{name}' cannot be used alone; use 'context-{name}'"
  | onlyAlone name => s!"the context value matching '{name}' must be used alone; use '{name}'"
  | wrongState state =>
    let name := state.name
    s!"the time state of this context value ({name}) is incorrect"

/-- The values of the enclosing blocks, the innermost block first. `enclosing` lists the definitions of
the blocks from the outside in. -/
def visible (values : List ContextValue) (enclosing : List Nat) : List ContextValue :=
  enclosing.reverse.flatMap fun owner => values.filter fun v => v.owner == owner

/-- The value that goes by a name in the enclosing blocks. The first one of that name decides, whether
it may be used or not. -/
def resolve (values : List ContextValue) (enclosing : List Nat) (name : String) (state : ValueState)
    (alone : Bool) : Except Problem ContextValue :=
  match (visible values enclosing).find? fun v => v.isNamed name with
  | none => .error (if alone then .unknownAlone else .unknown name)
  | some v =>
    if !v.usage.allows alone then .error (if alone then .notAlone name else .onlyAlone name)
    else if v.state != state then .error (.wrongState state)
    else .ok v

end ContextValue

end Phrasebook
