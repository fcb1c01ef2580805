import Phrasebook.Decimal.Text

/-!
# Literal values

The values that a line can be seen to hold without running it: literal arguments, and the results of
converting them. A value knows what it is, not which type of the type table it was read for.
-/

namespace Phrasebook

/-- A time of day to the second. -/
structure TimeOfDay where
  seconds : Nat
  inDay : seconds < 86400 := by omega
deriving DecidableEq, Repr

namespace TimeOfDay

/-- The first second of the day. -/
def midnight : TimeOfDay where
  seconds := 0

/-- The time with these parts, if they are in range. The end of the day, twenty-four hours, is
midnight. -/
def ofParts? (hours minutes seconds : Nat) : Option TimeOfDay :=
  if h : hours < 24 ∧ minutes < 60 ∧ seconds < 60 then
    some { seconds := hours * 3600 + minutes * 60 + seconds }
  else if hours = 24 ∧ minutes = 0 ∧ seconds = 0 then some midnight
  else none

/-- The full hours since midnight. -/
def hour (t : TimeOfDay) : Nat :=
  t.seconds / 3600

/-- The full minutes of the hour. -/
def minute (t : TimeOfDay) : Nat :=
  t.seconds / 60 % 60

/-- The seconds of the minute. -/
def second (t : TimeOfDay) : Nat :=
  t.seconds % 60

/-- A number below one hundred in two digits. -/
def twoDigits (n : Nat) : String :=
  if n < 10 then "0" ++ toString n else toString n

/-- Hours, minutes and seconds in two digits each. -/
def render (t : TimeOfDay) : String :=
  s!"{twoDigits t.hour}:{twoDigits t.minute}:{twoDigits t.second}"

/-- The parts of a time are those it was made of. -/
theorem parts_ofParts? {h m s : Nat} (hh : h < 24) (hm : m < 60) (hs : s < 60) :
    (ofParts? h m s).map (fun t => (t.hour, t.minute, t.second)) = some (h, m, s) := by
  simp only [ofParts?, hh, hm, hs, and_self, dite_true, Option.map_some, Option.some.injEq,
    Prod.mk.injEq, hour, minute, second]
  omega

end TimeOfDay

/-- A literal value. -/
inductive Value where
  /-- the absence of a value -/
  | nil
  | bool (b : Bool)
  | int (n : Int64)
  | number (x : Float)
  | string (s : String)
  /-- a length of time in whole milliseconds -/
  | duration (millis : Nat)
  | time (t : TimeOfDay)
  /-- a value that its text identifies within its type -/
  | object (typeName text : String)
deriving Repr, BEq, Inhabited

namespace Value

/-- The value is the absence of one. -/
def isNil : Value → Bool
  | nil => true
  | _ => false

/-- The truth value, of a truth value. -/
def bool? : Value → Option Bool
  | bool b => some b
  | _ => none

/-- The integer, of an integer. -/
def int? : Value → Option Int64
  | int n => some n
  | _ => none

/-- A number as a double; an integer is widened. -/
def number? : Value → Option Float
  | int n => some n.toFloat
  | number x => some x
  | _ => none

/-- The text, of a string. -/
def string? : Value → Option String
  | string s => some s
  | _ => none

/-- The milliseconds, of a duration. -/
def duration? : Value → Option Nat
  | duration d => some d
  | _ => none

/-- The time, of a time of day. -/
def time? : Value → Option TimeOfDay
  | time t => some t
  | _ => none

/-- The type name and the text, of an object. -/
def object? : Value → Option (String × String)
  | object typeName text => some (typeName, text)
  | _ => none

/-- The value as it is shown where no type says otherwise. -/
def display : Value → String
  | nil => "<none>"
  | bool b => if b then "true" else "false"
  | int n => toString n.toInt
  | number x => Decimal.render x
  | string s => "\"" ++ s ++ "\""
  | duration d => toString d ++ "ms"
  | time t => t.render
  | object _ text => text

end Value

end Phrasebook
