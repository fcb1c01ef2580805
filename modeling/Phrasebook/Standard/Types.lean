import Phrasebook.Literal.Duration
import Phrasebook.Literal.Time
import Phrasebook.Vocabulary

/-!
# The standard types

Objects, numbers and integers, strings, booleans, lengths of time and times of day. A number without a
fraction converts to an integer.
-/

namespace Phrasebook.Standard

/-- The standard types. -/
def types : List TypeSpec :=
  [{ name := "object", plural := "objects", universal := true },
   { name := "number", plural := "numbers", literal := some Literal.number?,
     format := some Literal.renderNumber },
   { name := "integer", plural := "integers", supertype := some "number",
     literal := some Literal.integer?, format := some Literal.renderNumber },
   { name := "string", plural := "strings" },
   { name := "boolean", plural := "booleans", literal := some Literal.boolean?,
     format := some Value.display },
   { name := "duration", plural := "durations",
     literal := some fun text => (Literal.duration? text).map Value.duration,
     format := some fun v => (v.duration?.map Literal.renderDuration).getD v.display },
   { name := "time", plural := "times",
     literal := some fun text => (Literal.time? text).map Value.time,
     format := some Value.display }]

/-- The standard types with the converter between numbers and integers. -/
def typeEntries : List Entry :=
  types.map .type ++ [.converter "number" "integer" Literal.wholeNumber?]

end Phrasebook.Standard
