import Phrasebook.Standard.Types

/-!
# The standard vocabulary

Arithmetic, boolean operators, times, lengths, random numbers and context values as expressions; checks
of divisibility, chance and primality; printing, assigning, waiting and returning as statements; and the
headers of blocks.
-/

namespace Phrasebook.Standard
open Clause

/-- An argument is a literal zero. -/
def isZero (index : Nat) : Node → Bool :=
  isNumber index (· == 0)

/-- Turns a node down if it divides by a literal zero. -/
def refuseZeroDivisor (divides : Node → Bool) : Clause :=
  rejectIf (fun node => divides node && isZero 1 node) "cannot divide by zero"

/-- Turns a time down whose hour is a literal that no day has. -/
def refuseHour : Clause :=
  rejecting fun node =>
    match node.patternIndex, (node.literal? 0).bind Value.int? with
    | 1, some hour =>
      let hour := hour.toInt
      if 0 ≤ hour && hour ≤ 24 then none
      else some s!"the given hour ('{hour}') is not between 0 and 24"
    | _, _ => none

/-- Gives a node the type of the context value that its captured text names. The mark tells when the
value is observed, and the tag whether it is written with `context-` in front. -/
def nameContextValue : Clause := fun node next =>
  match node.captures with
  | [] => .reject ""
  | name :: _ =>
    match ValueState.ofMark? node.mark with
    | none =>
      let mark := node.mark.toInt
      .reject s!"invalid time state ({mark})"
    | some state => ofContextValue name state (!node.hasTag "ctx") node next

/-- Turns an interval of no length down. -/
def refuseNoInterval : Clause :=
  rejectIf (fun node => (node.literal? 0).bind Value.duration? == some 0)
    "the interval must be longer than zero"

/-- An expression of a type. -/
def expression (name : String) (patterns : List String) (returns : String)
    (clauses : List Clause := []) (priority : Int := defaultPriority) : Entry :=
  .definition
    { category := .expression, name, patterns, returns, priority, decide := decision clauses }

/-- Syntax of another category, with one pattern. -/
def line (category : Category) (name pattern : String) (clauses : List Clause := [])
    (values : List ContextValueSpec := []) : Entry :=
  .definition { category, name, patterns := [pattern], decide := decision clauses } values

/-- The operators of arithmetic; the division is the one at place 3. -/
def arithmetic : List String :=
  ["%number%[ ]+[ ]%number%", "%number%[ ]-[ ]%number%", "%number%[ ]*[ ]%number%",
   "%number%[ ]/[ ]%number%", "%number%[ ]^[ ]%number%"]

/-- The standard expressions. -/
def expressions : List Entry :=
  [expression "arithmetic" arithmetic "number"
     [refuseZeroDivisor fun node => node.patternIndex == 3],
   expression "boolean operators"
     ["not %=boolean%", "%=boolean% (or|\\|\\|) %=boolean%", "%=boolean% (and|&&) %=boolean%"]
     "boolean",
   expression "whether" ["whether %~=boolean%"] "boolean",
   expression "time constants" ["(0:noon|0:midday|1:midnight)", "%*integer% o'[ ]clock"] "time"
     [refuseHour],
   expression "length" ["[the] length of %string%"] "integer",
   expression "random integer"
     ["[a] random integer (from|between) %integer% (to|and) %integer%"] "integer",
   expression "random number"
     ["[a] random number (from|between) %number% (to|and) %number%"] "number",
   expression "context value"
     ["[the] [(1:(past|previous)|2:(future|next))] [ctx:(context|event)-]<.+>"] "object"
     [nameContextValue] 1]

/-- Checks; the mark 1 negates one, or tells that a chance is in percent. -/
def conditions : List Entry :=
  [line .condition "is divisible" "%numbers% (is|are)[1: not|1:n't] divisible by %integer%"
     [refuseZeroDivisor fun _ => true],
   line .condition "chance" "chance of %number%[1:\\%]",
   line .condition "is prime" "%integers% (is|are)[1: not|1:n't] prime"]

/-- The standard effects. -/
def effects : List Entry :=
  [line .effect "print" "print %objects%",
   line .effect "set" "set %~objects% to %objects%" [declareArgument 0],
   line .effect "wait" "wait %duration%",
   line .effect "return" "return [%-objects%]"]

/-- The standard events. -/
def events : List Entry :=
  [line .event "script load" "[on] script load[ing]" []
     [{ pattern := "script", returns := "string" }],
   line .event "periodical" "every %*duration%" [refuseNoInterval]
     [{ pattern := "interval", returns := "duration" }],
   line .event "at time" "at %*time%" []
     [{ pattern := "time", returns := "time", usage := .expressionOnly }],
   line .event "when" "when %=boolean%"]

/-- The standard sections. -/
def sections : List Entry :=
  [line .sectionHead "if" "if %=boolean%",
   line .sectionHead "while" "while %=boolean%",
   line .sectionHead "loop" "loop %integers%"]

/-- The standard vocabulary. -/
def vocabulary : List Entry :=
  typeEntries ++ expressions ++ conditions ++ effects ++ events ++ sections

/-- The registry of the standard vocabulary. -/
def registry (config : Config) : Except Cause Registry :=
  Registry.ofVocabulary config vocabulary

end Phrasebook.Standard
