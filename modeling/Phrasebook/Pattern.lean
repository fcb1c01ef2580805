import Phrasebook.Pattern.Program

/-!
# Compiled patterns

A pattern text compiles into an element tree and a match program. Two patterns are taken to be the same
if their texts agree in normal form, and the one with more required words is the more specific.
-/

namespace Phrasebook
open Pattern

/-- A compiled pattern. -/
structure Pattern where
  /-- the text as it was given -/
  source : String
  /-- the text in small letters with single spaces -/
  normalized : String
  root : Element
  placeholders : List Placeholder
  regexes : List PatternRegex
  program : Array Instr
  /-- the number of words that every match contains -/
  specificity : Nat
deriving Inhabited

namespace Pattern

/-- Compiles a pattern text. `resolve` tells what the type names in it mean. -/
def compile (resolve : String → Option PatternType) (source : String) : Except Cause Pattern :=
  let result : Except Refusal (Reading × Element) := do
    let reading ← readAll resolve .start (tokens source)
    return (reading, ← reading.finish)
  match result with
  | .error (offset, problem) => .error (.patternSyntax source offset problem.message)
  | .ok (reading, root) =>
    .ok { source, normalized := Text.normalizeString source, root
          placeholders := reading.placeholders, regexes := reading.regexes
          program := (programOf root).toArray, specificity := root.requiredWords }

/-- What the pattern expects from an instruction on. -/
def remainderFrom (p : Pattern) (pc : Nat) : List Char :=
  remainder p.program p.placeholders p.regexes pc {}

end Pattern

end Phrasebook
