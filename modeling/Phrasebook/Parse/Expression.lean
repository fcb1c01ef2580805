import Phrasebook.Parse.Coercion
import Phrasebook.Parse.Form

/-!
# Reading expressions

A stretch of a line is read as an expression by trying the forms of expressions in a fixed order:
parentheses, variables, strings and other literals, lists, and the syntax of expressions and, where
they are allowed, conditions. The arguments of a syntax are expressions again.

How an expression is read is given for one level of nesting, with the reader of the level below as a
parameter; `Registry.reader` puts as many levels on top of each other as the limit allows. What is
turned down is remembered for the rest of the line, unless a definition was left out because it is
already being tried on the very stretch.
-/

namespace Phrasebook.Parse
open Text Pattern

/-- What a stretch is read as. -/
abbrev Reading := Match.Outcome Rejection Expr

/-- A way to read a stretch of a line for a target. -/
abbrev Reader := Line → (start stop : Nat) → Target → Parsing Reading

/-- The bytes of a stretch of a line. -/
def stretchOf (l : Line) (start stop : Nat) : Stretch :=
  ⟨l.byteOffset start, l.byteOffset stop⟩

/-- Why a candidate was turned down: its pattern does not match, or the node was refused. -/
inductive Miss where
  | unmatched (failure : Match.Failure Rejection)
  | refused (reason : String)
deriving Repr, Inhabited

/-- A candidate that was turned down. -/
structure Attempt where
  candidate : Candidate
  /-- the place of the candidate in the order of trial -/
  rank : Nat
  miss : Miss
deriving Inhabited

/-- Reports the local variables among some reads that no open scope declares. -/
def warnUnset (r : Registry) (reads : List (Span × String)) (c : Context) : Context :=
  if r.config.warnUnsetLocals then
    reads.foldl (fun c (span, name) =>
      if c.isDeclared name then c
      else
        c.report (.warning span .unsetVariable
          ("local variable \x7b" ++ name ++ "\x7d is used before it is set"))) c
  else c

/-- Reads a whole text as an expression of one of some types. The text is another one than the line
that may be read at present, so nothing that was turned down on that line counts for it. -/
def readText (r : Registry) (read : Reader) (text : String) (types : List PatternType) :
    StateM Context (Except Fault Expr) := fun c =>
  let line := Line.ofString text
  let (result, after) := read line 0 line.size (.ofTypes types) { c with rejections := {} }
  let c := { after with rejections := c.rejections }
  match result with
  | .ok (.found e) => (.ok e, warnUnset r e.localReads c)
  | .ok (.rejected reason) =>
    let cause := Cause.noMatch Category.expression.name (trimString text)
      (some (reason.message r.types.table))
    (.error { cause, place := some c.place }, c)
  | .error cause => (.error { cause, place := some c.place }, c)

/-- Carries out a decision. -/
def carryOut (r : Registry) (read : Reader) : Action → StateM Context (Except String Node)
  | .accept node => pure (.ok node)
  | .reject reason => pure (.error reason)
  | .look next => fun c => carryOut r read (next (r.view c)) c
  | .edit change next => fun c => carryOut r read next (change.apply c)
  | .parse text types next => fun c =>
    let (result, c) := readText r read text types c
    carryOut r read (next result) c

/-- The node of a match before its definition decides about it. -/
def nodeOf (c : Candidate) (found : Match.Found Expr) (span : Span) : Node where
  category := c.definition.category
  definition := c.definition.id
  name := c.definition.name
  patternIndex := c.patternIndex
  mark := found.mark
  span := span
  arguments := found.arguments
  returns := c.definition.returns
  captures := found.captures
  tags := found.tags

/-- Matches the pattern of a candidate, which counts as being tried meanwhile. -/
def matchCandidate (read : Reader) (line : Line) (start stop : Nat) (candidate : Candidate) :
    Parsing (Except (Match.Failure Rejection) (Match.Found Expr)) :=
  let trial : Trial := ⟨candidate.definition.id, stretchOf line start stop⟩
  Parsing.bracket (fun c => { c with trials := trial :: c.trials })
    (fun c => { c with trials := c.trials.tail })
    (Match.run candidate.pattern line start stop fun p start stop =>
      read line start stop (.ofPlaceholder p))

/-- Tries a candidate on a stretch. What was reported and declared on the way is taken back if it is
turned down. -/
def tryCandidate (r : Registry) (read : Reader) (line : Line) (start stop : Nat)
    (candidate : Candidate) : Parsing (Except Miss Node) :=
  .of fun c =>
    let before := c.checkpoint
    match matchCandidate read line start stop candidate c with
    | (.error cause, c) => (.error cause, c.rollback before)
    | (.ok (.error failure), c) => (.ok (.error (.unmatched failure)), c.rollback before)
    | (.ok (.ok found), c) =>
      let node := nodeOf candidate found (c.span (stretchOf line start stop))
      match carryOut r read (candidate.definition.decide node) c with
      | (.ok node, c) => (.ok (.ok node), c)
      | (.error reason, c) => (.ok (.error (.refused reason)), c.rollback before)

/-- Tries candidates in order up to the first that succeeds. A definition that is already being tried
on the stretch is left out, so no definition is its own first part. -/
def tryCandidates (r : Registry) (read : Reader) (line : Line) (start stop : Nat)
    (admissible : Definition → Bool) :
    List (Candidate × Nat) → Parsing (Option Node × List Attempt)
  | [] => pure (none, [])
  | (candidate, rank) :: rest => do
    Parsing.checkCancelled
    let c ← Parsing.context
    if !admissible candidate.definition ||
        c.isTrying candidate.definition.id (stretchOf line start stop) then
      tryCandidates r read line start stop admissible rest
    else
      Parsing.change fun c => { c with tried := c.tried + 1 }
      match ← tryCandidate r read line start stop candidate with
      | .ok node => pure (some node, [])
      | .error miss =>
        let (found, attempts) ← tryCandidates r read line start stop admissible rest
        pure (found, { candidate, rank, miss } :: attempts)

/-- Tries the candidates of a category. -/
def tryCategory (r : Registry) (read : Reader) (line : Line) (start stop : Nat) (category : Category)
    (admissible : Definition → Bool) : Parsing (Option Node × List Attempt) :=
  tryCandidates r read line start stop admissible (r.candidates category).zipIdx

/-- What stands in parentheses around a whole stretch. -/
def readParenthesised (read : Reader) (line : Line) (start stop : Nat) (target : Target) :
    Parsing (Option Expr) := do
  if isEnclosed '(' ')' (line.slice start stop) then
    match ← read line (start + 1) (stop - 1) target with
    | .found e => pure (some e)
    | .rejected _ => pure none
  else pure none

/-- A string or another literal. -/
def readLiteral? (types : TypeSystem) (text : List Char) (target : Target) :
    Option (Value × PatternType) :=
  if target.acceptance == .nonLiterals then none
  else
    match unquote? text with
    | some string =>
      (types.table.resolve "string").bind fun type =>
        coerceValue? types (.string (String.ofList string)) type.type target
    | none => literal? types (String.ofList text) target

/-- Reads the items of a list, all or none. -/
def readItems (read : Reader) (line : Line) (target : Target) :
    List (Nat × Nat) → Parsing (Option (List Expr))
  | [] => pure (some [])
  | (start, stop) :: rest => do
    match ← read line start stop target with
    | .rejected _ => pure none
    | .found e =>
      match ← readItems read line target rest with
      | none => pure none
      | some es => pure (some (e :: es))

/-- The type of a list: that of its items if they agree, else the first that is expected. -/
def listType? (items : List Expr) (target : Target) : Option TypeId :=
  match items with
  | first :: _ =>
    if items.all fun e => e.type.type == first.type.type then some first.type.type
    else target.types.head?.map PatternType.type
  | [] => target.types.head?.map PatternType.type

/-- A list. What was reported and declared is taken back if an item is turned down. -/
def readList (r : Registry) (read : Reader) (line : Line) (start stop : Nat) (target : Target) :
    Parsing (Option Expr) := do
  match splitList? line start stop r.config.listSeparators with
  | none => pure none
  | some (items, conjunction) =>
    let before ← Parsing.checkpoint
    match ← readItems read line target.item items with
    | none =>
      Parsing.change fun c => c.rollback before
      pure none
    | some items =>
      let c ← Parsing.context
      pure ((listType? items target).map fun type =>
        .list items conjunction (.several type) (c.span (stretchOf line start stop)))

/-- A node as an expression that fits a target. -/
def nodeExpr? (types : TypeSystem) (node : Node) (target : Target) : Option Expr :=
  match node.returns with
  | none => none
  | some type =>
    if target.single && !type.single then none
    else coerceExpr? types (.node node type node.span) target

/-- The syntax of categories, one after the other. A node that does not fit ends its category. -/
def readCategories (r : Registry) (read : Reader) (line : Line) (start stop : Nat) (target : Target) :
    List Category → Parsing (Option Expr × List Attempt)
  | [] => pure (none, [])
  | category :: rest => do
    let (node?, attempts) ← tryCategory r read line start stop category fun d =>
      mayReturn r.types d target
    match node?.bind fun node => nodeExpr? r.types node target with
    | some e => pure (some e, attempts)
    | none =>
      let (found, later) ← readCategories r read line start stop target rest
      pure (found, attempts ++ later)

/-- The categories whose syntax is tried for a target. -/
def categoriesFor (target : Target) : List Category :=
  if target.acceptance == .literals then []
  else if target.conditions then [.expression, .condition]
  else [.expression]

/-- The reason of a definition that turned its node down, if it gave one. -/
def Attempt.refusal? (a : Attempt) : Option String :=
  match a.miss with
  | .refused reason => if reason.isEmpty then none else some reason
  | .unmatched _ => none

/-- The syntax of expressions and conditions. If none fits, the first reason that a definition gave for
turning a node down is kept. -/
def readSyntax (r : Registry) (read : Reader) (line : Line) (start stop : Nat) (target : Target) :
    Parsing Reading := do
  match ← readCategories r read line start stop target (categoriesFor target) with
  | (some e, _) => pure (.found e)
  | (none, attempts) =>
    match attempts.findSome? Attempt.refusal? with
    | some reason => pure (.rejected (.refused reason))
    | none => pure (.rejected (.mismatch (line.text start stop) target))

/-- The span of a stretch in the present line. -/
def spanOf (line : Line) (start stop : Nat) : Parsing Span := do
  return (← Parsing.context).span (stretchOf line start stop)

/-- Reads a stretch without blanks at its ends by trying one form after the other. Its parts are read by
the reader of the level below. -/
def readForms (r : Registry) (read : Reader) (line : Line) (start stop : Nat) (target : Target) :
    Parsing Reading := do
  let text := line.slice start stop
  let span ← spanOf line start stop
  if text.isEmpty then pure (.rejected (.missing target))
  else
    match ← readParenthesised read line start stop target with
    | some e => pure (.found e)
    | none =>
      if isEnclosed '{' '}' text then
        match variableOf (text.drop 1).dropLast span target with
        | .ok e => pure (.found e)
        | .error reason => pure (.rejected reason)
      else
        match readLiteral? r.types text target with
        | some (value, type) => pure (.found (.literal value type span))
        | none =>
          match ← if target.single then pure none else readList r read line start stop target with
          | some e => pure (.found e)
          | none => readSyntax r read line start stop target

/-- Reads a stretch one level deeper, if there is such a level. -/
def readNested (forms : Option Reader) (line : Line) (start stop : Nat) (target : Target) :
    Parsing Reading := do
  Parsing.checkCancelled
  match forms with
  | none => do
    let c ← Parsing.context
    throw (.recursionLimit c.maxDepth)
  | some forms => Parsing.bracket Context.deepen Context.leave (forms line start stop target)

/-- Reads a stretch at one level of nesting: what was turned down before is turned down again, and what is
turned down now is remembered. -/
def readLevel (forms : Option Reader) (line : Line) (start stop : Nat) (target : Target) :
    Parsing Reading := do
  let (start, stop) := line.trimmed start stop
  let stretch := stretchOf line start stop
  let c ← Parsing.context
  let memorable := !c.isStretchTried stretch
  match if memorable then c.rejections.get? (stretch, target) else none with
  | some reason => pure (.rejected reason)
  | none =>
    let reading ← readNested forms line start stop target
    match reading with
    | .rejected reason =>
      if memorable then
        Parsing.change fun c =>
          { c with rejections := c.rejections.insert (stretch, target) reason }
      pure reading
    | .found _ => pure reading

end Phrasebook.Parse

namespace Phrasebook.Registry
open Text Parse

/-- Reads expressions that are nested at most so many levels deep. -/
def reader (r : Registry) : Nat → Line → (start stop : Nat) → Target → Parsing Reading
  | 0, line, start, stop, target => readLevel none line start stop target
  | levels + 1, line, start, stop, target =>
    readLevel (some (readForms r (r.reader levels))) line start stop target

/-- Parses a text as an expression of one of some types. -/
def parseExpression (r : Registry) (text : String) (types : List PatternType) :
    StateM Context (Except Fault Expr) := fun c =>
  readText r (r.reader c.remainingDepth) text types c

end Phrasebook.Registry
