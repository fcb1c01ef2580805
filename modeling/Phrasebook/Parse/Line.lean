import Phrasebook.Parse.Expression

/-!
# Parsing lines

A line is parsed as syntax of one category by trying the candidates of the category on all of it. If
none fits, the failure tells which came closest.
-/

namespace Phrasebook.Parse
open Text

/-- The near miss that a failed attempt on a line was. -/
def Attempt.nearMiss (types : TypeTable) (line : Line) (stop : Nat) (a : Attempt) : NearMiss :=
  let progress := match a.miss with
    | .unmatched failure => failure.progress
    | .refused _ => stop
  { category := a.candidate.definition.category
    definition := a.candidate.definition.id
    pattern := a.candidate.pattern.source
    progress := line.byteOffset progress
    rank := a.rank
    reason := match a.miss with
      | .unmatched failure =>
        failure.reason.message (Rejection.message types) a.candidate.pattern line
      | .refused reason => reason
    produced := match a.miss with
      | .unmatched _ => false
      | .refused _ => true }

/-- Tries the candidates of a category on a whole line. A blank line has none. -/
def matchLine (r : Registry) (read : Reader) (category : Category) (line : Line) :
    Parsing (Option Node × List Attempt) :=
  let (start, stop) := line.trimmed 0 line.size
  if start < stop then tryCategory r read line start stop category fun _ => true
  else pure (none, [])

/-- What a line is once its candidates were tried. Local variables that are read before they are set are
reported. -/
def lineResult (r : Registry) (category : Category) (text : String) :
    Except Cause (Option Node × List Attempt) → StateM Context (Except Fault Node)
  | .ok (some node, _) => fun c => (.ok node, warnUnset r node.localReads c)
  | .ok (none, attempts) => fun c =>
    let line := Line.ofString text
    let nearMisses := attempts.map
      (Attempt.nearMiss r.types.table line (line.trimmed 0 line.size).2)
    let cause := Cause.noMatch category.name (trimString text)
      ((NearMiss.best? nearMisses).map NearMiss.describe)
    (.error { cause, place := some c.place }, { c with nearMisses })
  | .error cause => fun c => (.error { cause, place := some c.place }, c)

/-- Parses a line as syntax of a category, with a reader for its expressions. Nothing that was turned down
on another line counts for it. -/
def parseLineBy (r : Registry) (read : Reader) (category : Category) (text : String) :
    StateM Context (Except Fault Node) := fun c =>
  let (result, after) := matchLine r read category (Line.ofString text)
    { c with nearMisses := [], rejections := {} }
  lineResult r category text result { after with rejections := c.rejections }

end Phrasebook.Parse

namespace Phrasebook.Registry
open Parse

/-- Parses a line as syntax of a category. -/
def parseLine (r : Registry) (category : Category) (text : String) :
    StateM Context (Except Fault Node) := fun c =>
  parseLineBy r (r.reader c.remainingDepth) category text c

end Phrasebook.Registry
