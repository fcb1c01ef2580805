import Phrasebook.Expect
import Phrasebook.Text.Line
import Phrasebook.Tree

/-!
# Written forms of expressions

The forms of expressions that are recognised by their text alone: brackets around a whole text, quoted
strings, variables and lists. A quote within a string is written twice, and brackets and separators
within quotes mean nothing.
-/

namespace Phrasebook.Parse
open Text Pattern

/-- The place of the bracket that closes the first one. `depth` brackets are open. -/
def closing? (left right : Char) (quoted : Bool) (depth : Nat) : List Char → Option Nat
  | [] => none
  | c :: rest =>
    if c == '"' then (closing? left right (!quoted) depth rest).map (· + 1)
    else if quoted then (closing? left right quoted depth rest).map (· + 1)
    else if c == left then (closing? left right quoted (depth + 1) rest).map (· + 1)
    else if c == right then
      match depth with
      | 0 => none
      | 1 => some 0
      | depth + 1 => (closing? left right quoted depth rest).map (· + 1)
    else (closing? left right quoted depth rest).map (· + 1)

/-- A text starts with a bracket that its last character closes. -/
def isEnclosed (left right : Char) (text : List Char) : Bool :=
  text.head? == some left && closing? left right false 0 text == some (text.length - 1)

/-- A string in quotes, each quote within it doubled. -/
def doubleQuotes : List Char → List Char
  | [] => []
  | c :: rest => if c == '"' then '"' :: '"' :: doubleQuotes rest else c :: doubleQuotes rest

/-- The text of a literal string. -/
def quote (text : List Char) : List Char :=
  '"' :: doubleQuotes text ++ ['"']

/-- A text with every doubled quote as one; a quote that stands alone is refused. -/
def undoubleQuotes? : List Char → Option (List Char)
  | [] => some []
  | '"' :: '"' :: rest => (undoubleQuotes? rest).map ('"' :: ·)
  | '"' :: _ => none
  | c :: rest => (undoubleQuotes? rest).map (c :: ·)

/-- The string that a quoted text stands for. -/
def unquote? : List Char → Option (List Char)
  | '"' :: rest =>
    if rest.getLast? == some '"' then undoubleQuotes? rest.dropLast else none
  | _ => none

/-- Quotes written twice are read once. -/
theorem undoubleQuotes?_doubleQuotes (text : List Char) :
    undoubleQuotes? (doubleQuotes text) = some text := by
  induction text with
  | nil => rfl
  | cons c rest ih =>
    by_cases h : c = '"'
    · simp [doubleQuotes, h, undoubleQuotes?, ih]
    · simp [doubleQuotes, h, undoubleQuotes?, ih]

/-- A quoted text reads back as itself. -/
theorem unquote?_quote (text : List Char) : unquote? (quote text) = some text := by
  simp [unquote?, quote, undoubleQuotes?_doubleQuotes]

/-- A variable name stands for several values if it ends so. -/
def listMark : List Char := [':', ':', '*']

/-- The variable of a name between braces, or why it is not what is expected. -/
def variableOf (name : List Char) (span : Span) (target : Target) : Except Rejection Expr :=
  let name := trim name
  let text := String.ofList name
  let isList := name.drop (name.length - 3) == listMark
  if target.acceptance == .literals then .error (.notLiteral text)
  else if name.isEmpty then .error .emptyName
  else if isList && target.single then .error (.listVariable text)
  else
    match target.types with
    | [] => .error .noType
    | first :: _ => .ok (.var text (name.head? == some '_') { type := first.type, single := !isList } span)

/-- The first separator that stands at a place, and where it ends. One that starts with a word stands
at the edges of words, and not at the start of an item. -/
def separatorAt? (l : Line) (itemStart pos : Nat) : List String → Option (String × Nat)
  | [] => none
  | sep :: rest =>
    let isWord := sep.toList.head?.any isWordChar
    if isWord && (!l.isBoundary pos || pos == itemStart) then separatorAt? l itemStart pos rest
    else
      match l.matchLiteral pos sep.toList with
      | none => separatorAt? l itemStart pos rest
      | some after =>
        if l.skipBlanks pos != pos || (isWord && !l.isBoundary after) then
          separatorAt? l itemStart pos rest
        else some (sep, after)

/-- What is known of a list up to a place. -/
structure ListScan where
  /-- the items that have ended -/
  items : List (Nat × Nat) := []
  itemStart : Nat
  conjunction : Conjunction := .and
  quoted : Bool := false
  depth : Nat := 0
deriving DecidableEq, Repr

namespace ListScan

/-- The quotes and brackets after one more character. -/
def next (s : ListScan) (c : Char) : ListScan :=
  if c == '"' then { s with quoted := !s.quoted }
  else if s.quoted then s
  else if c == '(' || c == '{' then { s with depth := s.depth + 1 }
  else if c == ')' || c == '}' then { s with depth := s.depth - 1 }
  else s

/-- A separator may stand here, after a character was taken into account. -/
def isFree (s : ListScan) (c : Char) : Bool :=
  !s.quoted && s.depth == 0 && c != '"'

/-- Ends an item at a separator. -/
def separate (s : ListScan) (pos : Nat) (sep : String) (after : Nat) : ListScan :=
  { s with
    items := s.items ++ [(s.itemStart, pos)]
    itemStart := after
    conjunction := if lowerAsciiString sep == "or" then .or else s.conjunction }

end ListScan

/-- Splits the rest of a line into items. -/
def splitItems (l : Line) (separators : List String) (s : ListScan) (pos : Nat) :
    Option (List (Nat × Nat) × Conjunction) :=
  if h : pos < l.chars.size then
    let c := l.chars[pos]
    let s := s.next c
    if s.isFree c then
      match separatorAt? l s.itemStart pos separators with
      | none => splitItems l separators s (pos + 1)
      | some (sep, after) =>
        if isBlankText (l.slice s.itemStart pos) then none
        else splitItems l separators (s.separate pos sep after) (max after (pos + 1))
    else splitItems l separators s (pos + 1)
  else if s.items.isEmpty || isBlankText (l.slice s.itemStart l.chars.size) then none
  else some (s.items ++ [(s.itemStart, l.chars.size)], s.conjunction)
termination_by l.chars.size - pos

/-- The items of a list that goes from one place of a line to another, if there are at least two and
none is empty. -/
def splitList? (l : Line) (start stop : Nat) (separators : List String) :
    Option (List (Nat × Nat) × Conjunction) :=
  splitItems (l.before stop) separators { itemStart := start } start

end Phrasebook.Parse
