import Phrasebook.Registry
import Phrasebook.Text.Ordered

/-!
# Keywords

The words that an editor offers and colors: those of the registered patterns, outside of placeholders,
and the commands.
-/

namespace Phrasebook.Repl
open Phrasebook.Text

/-- The commands that an editor offers. -/
def commands : List String :=
  [":expr", ":tree", ":types", ":syntax", ":help", ":quit"]

/-- The runs of letters outside of percent signs, in small letters. `word` is the run so far. -/
def letterRuns (inside : Bool) (word : List Char) : List Char → List (List Char)
  | [] => [word]
  | c :: rest =>
    if c == '%' then word :: letterRuns (!inside) [] rest
    else if !inside && isAlphabetic c then letterRuns inside (word ++ lowerChar c) rest
    else word :: letterRuns inside [] rest

/-- The words of a pattern text; a single letter is none. -/
def patternWords (pattern : String) : List String :=
  ((letterRuns false [] pattern.toList).filter fun word => 1 < word.length).map String.ofList

/-- The keywords of a registry in ascending order. -/
def keywords (r : Registry) : List String :=
  let patterns := r.definitions.flatMap fun d => d.patterns.map Pattern.source
  addInOrder [] (patterns.flatMap patternWords ++ commands)

end Phrasebook.Repl
