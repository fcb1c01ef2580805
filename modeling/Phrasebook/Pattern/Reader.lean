import Phrasebook.Pattern.Token
import Phrasebook.Regex.Reader

/-!
# Reading the tokens of a pattern

The tokens are read one after the other with a stack of the groups that are open. A group gathers the
items of its present branch and the branches before it; when it is closed it becomes one item of the
group around it. Captures are numbered in the order of the text.
-/

namespace Phrasebook.Pattern
open Text

/-- What breaks the rules of patterns. -/
inductive Problem where
  | emptyPattern
  | emptyGroup
  | unclosed (opener : Char)
  | unbalanced (closer : Char)
  | danglingEscape
  /-- two captures touch -/
  | adjacentCaptures
  | emptyRegex
  | invalidRegex
  | conflictingFlags
  | emptyPlaceholder
  | emptyTypeName
  | unknownType (name : String)
deriving DecidableEq, Repr

/-- The wording of a problem. -/
def Problem.message : Problem → String
  | emptyPattern => "pattern is empty"
  | emptyGroup => "empty group"
  | unclosed opener => s!"unclosed '{opener}'"
  | unbalanced closer => s!"unbalanced '{closer}'"
  | danglingEscape => "dangling escape"
  | adjacentCaptures => "adjacent placeholders cannot be told apart"
  | emptyRegex => "empty regex"
  | invalidRegex => "invalid regex"
  | conflictingFlags => "conflicting '*' and '~' flags"
  | emptyPlaceholder => "empty placeholder"
  | emptyTypeName => "empty type name in placeholder"
  | unknownType name => s!"unknown type '{name}'"

/-- A regex of a pattern as it is written, and what it means. -/
structure PatternRegex where
  source : List Char
  regex : Regex
deriving DecidableEq, Repr

/-- The items of a branch while it is being read. -/
structure Branch where
  label : Label := {}
  items : List Element := []
  /-- the literal that is being read -/
  literal : List Char := []
  /-- a blank stands before the next item -/
  space : Bool := false
  /-- the branch belongs to a group, so that a blank at its ends separates the group from what stands
  around it -/
  nested : Bool
deriving Inhabited

namespace Branch

/-- Reads a blank: a space of the literal that is being read, or one before the next item. -/
def addBlank (b : Branch) : Branch :=
  if b.literal.isEmpty then { b with space := true }
  else if b.literal.getLast? == some ' ' then b
  else { b with literal := b.literal ++ [' '] }

/-- Reads a character of a literal. -/
def addLetter (b : Branch) (c : Char) : Branch :=
  { b with literal := b.literal ++ lowerChar c }

/-- Adds an item, and before it the boundary that a blank stands for. -/
def push (b : Branch) (e : Element) : Branch :=
  let gap := if b.space && (b.nested || !b.items.isEmpty) then [Element.space] else []
  { b with items := b.items ++ gap ++ [e], space := false }

/-- Ends the literal that is being read. A blank at its end stands before the next item. -/
def flush (b : Branch) : Branch :=
  let text := trimEnd b.literal
  if text.isEmpty then { b with literal := [] }
  else
    { { b with literal := [] }.push (.literal text) with
      space := decide (text.length < b.literal.length) }

/-- The finished branch. -/
def finish (b : Branch) : Label × Element :=
  let b := b.flush
  let gap := if b.space && b.nested && !b.items.isEmpty then [Element.space] else []
  (b.label, .sequence (b.items ++ gap))

end Branch

/-- A group that is open, or the whole pattern. -/
structure Group where
  /-- the bracket and its offset; none for the whole pattern -/
  opener : Option (Bracket × Nat)
  /-- the finished branches -/
  done : List (Label × Element) := []
  branch : Branch
  /-- nothing stands in the group so far -/
  isEmpty : Bool := true
  /-- nothing but blanks stands in the group so far -/
  isBlank : Bool := true
deriving Inhabited

namespace Group

/-- An open group with nothing in it. -/
def start (opener : Option (Bracket × Nat)) : Group where
  opener := opener
  branch := { nested := opener.isSome }

/-- All branches of the group. -/
def branches (g : Group) : List (Label × Element) :=
  g.done ++ [g.branch.finish]

/-- Starts the next branch. -/
def nextBranch (g : Group) : Group :=
  { g with done := g.branches, branch := { nested := g.branch.nested } }

/-- Notes that something stands in the group. -/
def touched (g : Group) (blank : Bool) : Group :=
  { g with isEmpty := false, isBlank := g.isBlank && blank }

/-- Changes the branch that is being read. -/
def onBranch (g : Group) (f : Branch → Branch) : Group :=
  { g with branch := f g.branch }

end Group

/-- What has been read of a pattern. -/
structure Reading where
  /-- the innermost open group -/
  group : Group
  /-- the groups around it, from the inside out -/
  outer : List Group := []
  placeholders : List Placeholder := []
  regexes : List PatternRegex := []
  /-- where the last capture stops -/
  lastStop : Option Nat := none

/-- A problem and the offset it is reported at. -/
abbrev Refusal := Nat × Problem

/-- The flags in front of the types of a placeholder. -/
structure Flags where
  nullable : Bool := false
  acceptance : Acceptance := .all
  conditions : Bool := false
deriving DecidableEq, Repr

/-- Reads the flags of a placeholder, and returns what follows them. -/
def takeFlags (f : Flags) : List Char → Except Problem (Flags × List Char)
  | [] => .ok (f, [])
  | c :: rest =>
    match c with
    | '-' => takeFlags { f with nullable := true } rest
    | '=' => takeFlags { f with conditions := true } rest
    | '*' =>
      if f.acceptance == .nonLiterals then .error .conflictingFlags
      else takeFlags { f with acceptance := .literals } rest
    | '~' =>
      if f.acceptance == .literals then .error .conflictingFlags
      else takeFlags { f with acceptance := .nonLiterals } rest
    | _ => .ok (f, c :: rest)

/-- The meaning of the type names of a placeholder. -/
def typesOf (resolve : String → Option PatternType) : List (List Char) →
    Except Problem (List PatternType)
  | [] => .ok []
  | piece :: pieces =>
    let name := trim piece
    if name.isEmpty then .error .emptyTypeName
    else
      match resolve (String.ofList name) with
      | none => .error (.unknownType (String.ofList name))
      | some type => return type :: (← typesOf resolve pieces)

/-- Reads the body of a placeholder. -/
def placeholderOf (resolve : String → Option PatternType) (index offset : Nat) (body : List Char) :
    Except Problem Placeholder := do
  let (flags, names) ← takeFlags {} (trimStart body)
  if isBlankText names then throw .emptyPlaceholder
  let types ← typesOf resolve (splitOn (· == '/') names)
  return { index, types, nullable := flags.nullable, acceptance := flags.acceptance,
           conditions := flags.conditions, offset, text := ['%'] ++ body ++ ['%'] }

/-- Reads the body of a regex. -/
def regexOf (body : List Char) : Except Problem PatternRegex :=
  if body.isEmpty then .error .emptyRegex
  else
    match Regex.readAnchored? body with
    | some regex => .ok { source := body, regex }
    | none => .error .invalidRegex

namespace Reading

/-- The reading before the first token. -/
def start : Reading where
  group := .start none

/-- Changes the branch that is being read. -/
def onBranch (r : Reading) (blank : Bool) (f : Branch → Branch) : Reading :=
  { r with group := (r.group.touched blank).onBranch f }

/-- Reads a capture, which must not touch the one before it. -/
def addCapture (r : Reading) (resolve : String → Option PatternType) (offset : Nat)
    (kind : CaptureKind) (body : List Char) (stop : Nat) : Except Refusal Reading :=
  if r.lastStop == some offset then .error (offset, .adjacentCaptures)
  else
    let r := { r with lastStop := some stop }
    match kind with
    | .placeholder =>
      match placeholderOf resolve r.placeholders.length offset body with
      | .error p => .error (offset, p)
      | .ok p =>
        .ok ({ r with placeholders := r.placeholders ++ [p] }.onBranch false fun b =>
          b.flush.push (.placeholder p.index))
    | .regex =>
      match regexOf body with
      | .error p => .error (offset, p)
      | .ok x =>
        let index := r.regexes.length
        .ok ({ r with regexes := r.regexes ++ [x] }.onBranch false fun b =>
          b.flush.push (.regex index))

/-- Closes the innermost group, which becomes an item of the one around it. An optional group of
nothing but blanks disappears. -/
def close (r : Reading) (bracket : Bracket) (offset : Nat) : Except Refusal Reading :=
  match r.group.opener, r.outer with
  | some (opened, at_), parent :: outer =>
    if opened != bracket then .error (offset, .unbalanced bracket.closer)
    else
      let parent := parent.touched false
      let place (e : Element) : Except Refusal Reading :=
        .ok { r with group := parent.onBranch fun b => b.push e, outer }
      if r.group.isBlank then
        if bracket == .square && !r.group.isEmpty then .ok { r with group := parent, outer }
        else .error (at_, .emptyGroup)
      else
        match bracket with
        | .square => place (.optional (.ofBranches r.group.branches))
        | .round => place (.choice r.group.branches)
  | _, _ => .error (offset, .unbalanced bracket.closer)

/-- Reads one token. -/
def next (resolve : String → Option PatternType) (r : Reading) (t : Located) :
    Except Refusal Reading :=
  match t.token with
  | .label label => .ok (r.onBranch false fun b => { b with label })
  | .blank => .ok (r.onBranch true Branch.addBlank)
  | .letter c => .ok (r.onBranch false fun b => b.addLetter c)
  | .bar => .ok { r with group := (r.group.touched false).nextBranch }
  | .opening bracket =>
    .ok { r with group := .start (some (bracket, t.offset)),
                 outer := (r.group.touched false).onBranch Branch.flush :: r.outer }
  | .closing bracket => r.close bracket t.offset
  | .capture kind body stop => r.addCapture resolve t.offset kind body stop
  | .openCapture kind =>
    if r.lastStop == some t.offset then .error (t.offset, .adjacentCaptures)
    else .error (t.offset, .unclosed kind.opener)
  | .openEscape => .error (t.offset, .danglingEscape)

/-- The element tree after the last token. -/
def finish (r : Reading) : Except Refusal Element :=
  match r.group.opener with
  | some (bracket, at_) => .error (at_, .unclosed bracket.opener)
  | none =>
    match Element.ofBranches r.group.branches with
    | .sequence [] => .error (0, .emptyPattern)
    | root => .ok root

end Reading

/-- Reads tokens one after the other. -/
def readAll (resolve : String → Option PatternType) : Reading → List Located → Except Refusal Reading
  | r, [] => .ok r
  | r, t :: rest => do readAll resolve (← r.next resolve t) rest

end Phrasebook.Pattern
