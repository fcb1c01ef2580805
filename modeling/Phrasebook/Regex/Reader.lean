import Phrasebook.Decimal.Text
import Phrasebook.Regex.Basic

/-!
# Regexes as text

The written form of regexes: alternatives, repetitions, groups, classes, escapes and anchors. A text
that is no regex has no reading. The readers recurse with fuel that the length of the text bounds,
since each of them reads at least one character before it calls another.
-/

namespace Phrasebook.Regex
open Text

/-- The class that a letter stands for after a backslash. -/
def classOfLetter? (c : Char) : Option CharSet :=
  match c with
  | 'd' => some .digit
  | 'D' => some (.complement .digit)
  | 'w' => some .word
  | 'W' => some (.complement .word)
  | 's' => some .blank
  | 'S' => some (.complement .blank)
  | _ => none

/-- The character that a letter or sign stands for after a backslash. -/
def charOfEscape? (c : Char) : Option Char :=
  match c with
  | 'n' => some '\n'
  | 't' => some '\t'
  | 'r' => some '\r'
  | 'f' => some '\x0c'
  | 'v' => some '\x0b'
  | 'a' => some '\x07'
  | c => if isAscii c && !isAlphanumeric c && c != '<' && c != '>' then some c else none

/-- The assertion that a letter or sign stands for after a backslash. -/
def assertionOfEscape? (c : Char) : Option Assertion :=
  match c with
  | 'A' => some .textStart
  | 'z' => some .textEnd
  | '<' => some .wordStart
  | '>' => some .wordEnd
  | 'b' => some .wordEdge
  | 'B' => some .noWordEdge
  | _ => none

/-- A set as it is meant where letter case does or does not count. -/
def cased (anyCase : Bool) (s : CharSet) : Regex :=
  set (if anyCase then .anyCase s else s)

/-- One member of a class: a character that may start a range, or a set. -/
def classMember? : List Char → Option ((Char ⊕ CharSet) × List Char)
  | '\\' :: c :: rest =>
    match classOfLetter? c with
    | some s => some (.inr s, rest)
    | none => (charOfEscape? c).map fun c => (.inl c, rest)
  | ['\\'] => none
  | c :: rest => some (.inl c, rest)
  | [] => none

/-- The members of a class up to its closing bracket, which stands for itself in the first place. -/
def classBody? (first : Bool) (found : CharSet) : Nat → List Char → Option (CharSet × List Char)
  | 0, _ => none
  | fuel + 1, cs =>
    match first, cs with
    | false, ']' :: rest => some (found, rest)
    | _, '[' :: _ => none
    | _, cs =>
      match classMember? cs with
      | none => none
      | some (.inr s, rest) => classBody? false (.union found s) fuel rest
      | some (.inl c, '-' :: ']' :: rest) =>
        some (.union (.union found (.one c)) (.one '-'), rest)
      | some (.inl c, '-' :: rest) =>
        match classMember? rest with
        | some (.inl d, rest) =>
          if c ≤ d then classBody? false (.union found (.range c d)) fuel rest else none
        | _ => none
      | some (.inl c, rest) => classBody? false (.union found (.one c)) fuel rest

/-- A class after its opening bracket. -/
def class? (cs : List Char) : Option (CharSet × List Char) :=
  match cs with
  | '^' :: rest => (classBody? true .nothing (rest.length + 1) rest).map fun (s, r) => (.complement s, r)
  | cs => classBody? true .nothing (cs.length + 1) cs

/-- The bounds of a counted repetition after its opening brace. -/
def bounds? (cs : List Char) : Option (Nat × Option Nat × List Char) :=
  let low := cs.takeWhile isDigit
  if low.isEmpty then none
  else
    match cs.dropWhile isDigit with
    | '\x7d' :: rest => some (Decimal.digitValue low, some (Decimal.digitValue low), rest)
    | ',' :: rest =>
      let high := rest.takeWhile isDigit
      match rest.dropWhile isDigit with
      | '\x7d' :: rest =>
        if high.isEmpty then some (Decimal.digitValue low, none, rest)
        else if Decimal.digitValue low ≤ Decimal.digitValue high then
          some (Decimal.digitValue low, some (Decimal.digitValue high), rest)
        else none
      | _ => none
    | _ => none

/-- A text without a question mark in front, which makes a repetition take the fewest. -/
def dropLazy : List Char → List Char
  | '?' :: rest => rest
  | cs => cs

/-- The repetitions behind a regex. -/
def repetitions? (r : Regex) : Nat → List Char → Option (Regex × List Char)
  | 0, _ => none
  | fuel + 1, cs =>
    match cs with
    | '*' :: rest => repetitions? (star r) fuel (dropLazy rest)
    | '+' :: rest => repetitions? (r.repeated 1 none) fuel (dropLazy rest)
    | '?' :: rest => repetitions? (alt r empty) fuel (dropLazy rest)
    | '\x7b' :: rest =>
      match bounds? rest with
      | some (least, most, rest) => repetitions? (r.repeated least most) fuel (dropLazy rest)
      | none => none
    | cs => some (r, cs)

mutual

/-- Alternatives up to a closing parenthesis or the end. -/
def alternatives? (anyCase : Bool) : Nat → List Char → Option (Regex × List Char)
  | 0, _ => none
  | fuel + 1, cs =>
    match sequence? anyCase empty fuel cs with
    | some (r, anyCase, '|' :: rest) =>
      (alternatives? anyCase fuel rest).map fun (s, rest) => (alt r s, rest)
    | some (r, _, rest) => some (r, rest)
    | none => none

/-- A sequence of repeated atoms behind those already read. A flag holds from its place on. -/
def sequence? (anyCase : Bool) (read : Regex) : Nat → List Char → Option (Regex × Bool × List Char)
  | 0, _ => none
  | fuel + 1, cs =>
    match cs with
    | [] | '|' :: _ | ')' :: _ => some (read, anyCase, cs)
    | '(' :: '?' :: 'i' :: ')' :: rest => sequence? true read fuel rest
    | '*' :: _ | '+' :: _ | '?' :: _ | '\x7b' :: _ => none
    | cs =>
      match atom? anyCase fuel cs with
      | some (a, rest) =>
        match repetitions? a (rest.length + 1) rest with
        | some (r, rest) => sequence? anyCase (seq read r) fuel rest
        | none => none
      | none => none

/-- One atom: a group, a class, an escape, an anchor or a character. -/
def atom? (anyCase : Bool) : Nat → List Char → Option (Regex × List Char)
  | 0, _ => none
  | fuel + 1, cs =>
    let group (anyCase : Bool) (cs : List Char) : Option (Regex × List Char) :=
      match alternatives? anyCase fuel cs with
      | some (r, ')' :: rest) => some (r, rest)
      | _ => none
    match cs with
    | [] => none
    | '(' :: '?' :: ':' :: rest => group anyCase rest
    | '(' :: '?' :: 'i' :: ':' :: rest => group true rest
    | '(' :: '?' :: _ => none
    | '(' :: rest => group anyCase rest
    | '[' :: rest => (class? rest).map fun (s, rest) => (cased anyCase s, rest)
    | '.' :: rest => some (set .inLine, rest)
    | '^' :: rest => some (assert .textStart, rest)
    | '$' :: rest => some (assert .textEnd, rest)
    | '\\' :: c :: rest =>
      match classOfLetter? c, assertionOfEscape? c, charOfEscape? c with
      | some s, _, _ => some (set s, rest)
      | none, some a, _ => some (assert a, rest)
      | none, none, some c => some (cased anyCase (.one c), rest)
      | none, none, none => none
    | ['\\'] => none
    | c :: rest => some (cased anyCase (.one c), rest)

end

/-- Reads a whole text as a regex. -/
def read? (cs : List Char) : Option Regex :=
  match alternatives? false (4 * cs.length + 4) cs with
  | some (r, []) => some r
  | _ => none

/-- Reads the body of a pattern's regex, which has to match a text from its start to its end. The body
is put between the anchors as it is written. -/
def readAnchored? (body : List Char) : Option Regex :=
  read? (['^', '(', '?', ':'] ++ body ++ [')', '$'])

end Phrasebook.Regex
