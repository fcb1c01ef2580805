import Phrasebook.Proofs.Parse.Acceptances
import Phrasebook.Proofs.Parse.Spans

/-!
# Lines and columns of the parts of a tree

Every part of the tree that a line is parsed into was read from a stretch of the text that starts and ends with no
blank (`reader_stands`), and the line and column of its span are those that the state gives to the start of the
stretch: no step goes to another line, so the state says the same of every part (`reader_located`). Together this is
`parseLine_located`. The definitions may not change what was matched, except for its type.
-/

namespace Phrasebook
open Text Pattern Match

/-- Where a part of a tree was read. -/
def Part.span : Part → Span
  | .expr e => e.span
  | .node n => n.span

/-- A part covers a stretch of a line with no blank at either end. -/
def Part.StandsIn (l : Line) (x : Part) : Prop :=
  ∃ start stop, x.span.Covers l start stop ∧ l.Solid start stop

/-- The line and column of a span are those that a state gives to its start. -/
def Context.Locates (c : Context) (span : Span) : Prop :=
  span = c.span ⟨span.start, span.stop⟩

namespace Parse

section Stretches

variable {r : Registry} {read : Reader} {line : Line} {start stop : Nat}

/-- All parts of what a reader finds stand in the line. -/
def StandsAll (read : Reader) : Prop :=
  ∀ line start stop target e, Finds read line start stop target e → start ≤ stop → stop ≤ line.size →
    ∀ x : Part, x.Within (.expr e) → x.StandsIn line

variable (below : StandsAll read) (lawful : r.Lawful) (keeps : ∀ d ∈ r.definitions, KeepsMatches d.decide)

include below lawful keeps

/-- A node that is accepted stands in the line with all its parts. -/
theorem Accepted.stands {category : Category} {node : Node} (solid : line.Solid start stop)
    (accepted : Accepted r read line start stop category node) :
    ∀ x : Part, x.Within (.node node) → x.StandsIn line := by
  obtain ⟨candidate, among, found, c, c', matches_, decided⟩ := accepted
  have of := lawful category candidate among
  obtain ⟨returns, rfl⟩ := carryOut_accepts (keeps _ (List.mem_of_getElem? of.definition) _) decided
  intro x within
  cases within with
  | self => exact ⟨start, stop, c.covers_span line start stop, solid⟩
  | argument among within =>
    obtain ⟨q, -, low, high, ⟨ordered, before⟩, found⟩ := matches_.argument_within of.sound among
    exact below _ _ _ _ _ found ordered (Nat.le_trans before solid.inside) x within

/-- **Every form of expression stands in the line** if its parts do. -/
theorem Origin.stands {target : Target} {e : Expr} (solid : line.Solid start stop)
    (origin : Origin r read line start stop target e) : ∀ x : Part, x.Within (.expr e) → x.StandsIn line := by
  -- a form covers the stretch that it is read from
  have here (c : Context) {x : Part} (same : x.span = c.span (stretchOf line start stop)) : x.StandsIn line := by
    refine ⟨start, stop, ?_, solid⟩
    rw [same]
    exact c.covers_span line start stop
  cases origin with
  | parenthesised enclosed inner =>
    have room : start + 2 ≤ stop := by
      have length := size_of_slice (length_of_isEnclosed (by decide) enclosed)
      omega
    have inside := solid.inside
    exact below _ _ _ _ _ inner (by omega) (by omega)
  | @var name e c named =>
    obtain ⟨_, _, _, _, rfl, -⟩ := variableOf_eq_ok named
    intro x within
    cases within
    exact here c rfl
  | @literal value type c =>
    intro x within
    cases within
    exact here c rfl
  | @list parts conjunction type c several split items =>
    intro x within
    cases within with
    | self => exact here c rfl
    | item among within =>
      obtain ⟨part, mem, rfl⟩ := List.mem_map.1 among
      have proper := splitList?_properParts split part.1 (List.mem_map_of_mem mem)
      exact below _ _ _ _ _ (items part mem) (Nat.le_of_lt proper.some)
        (Nat.le_trans proper.before solid.inside) x within
  | @node category node e allowed accepted fits =>
    have parts := accepted.stands below lawful keeps solid
    have whole : Part.StandsIn line (.node node) := parts _ (.self _)
    obtain ⟨type, -, fits⟩ := nodeExpr?_eq_some fits
    obtain ⟨-, rfl | ⟨path, type', rfl, -⟩⟩ := coerceExpr?_eq_some fits
    · intro x within
      cases within with
      | self => exact whole
      | node within => exact parts x within
    · intro x within
      cases within with
      | self => exact whole
      | inner within =>
        cases within with
        | self => exact whole
        | node within => exact parts x within

omit below in
/-- **What a registry reads stands in the line** with all its parts, however deep it may go. -/
theorem reader_stands (levels : Nat) : StandsAll (r.reader levels) := by
  intro line start stop target e finds
  refine finds_induction (r := r) (P := fun line start stop _ e => start ≤ stop → stop ≤ line.size →
    ∀ x : Part, x.Within (.expr e) → x.StandsIn line) ?_ finds
  intro read below line start stop target e holds origin ordered inside
  exact origin.stands below lawful keeps (Line.solid_trimmed holds inside)

end Stretches

section Places

/-- The ledger of what is parsed in one place of a script. Every change is an entry of its own, and every part of what
is read is located in that place. -/
def located (c : Context) : Ledger Edit where
  Here c' := c'.setting = c.setting
  Stands := c.Locates
  edits e := [e]
  Covers _ e := ∀ x : Part, x.Within (.expr e) → c.Locates x.span
  CoversNode _ n := ∀ x : Part, x.Within (.node n) → c.Locates x.span
  stays same here := same.trans here
  stands stretch here := by
    rw [Context.span_setting here]
    rfl
  mono _ covers := covers
  literal value type stands x within := by
    cases within
    exact stands
  var name isLocal type stands x within := by
    cases within
    exact stands
  list conjunction type stands covers x within := by
    cases within with
    | self => exact stands
    | item among within => exact covers _ among x within
  node {log n} type covers x within := by
    cases within with
    | self => exact covers (.node n) (.self _)
    | node within => exact covers x within
  converted {log inner} path type covers x within := by
    cases within with
    | self => exact covers (.expr inner) (.self _)
    | inner within => exact covers x within

variable {r : Registry} {c : Context}

/-- A definition that leaves a node as it was matched leaves its parts where they are. -/
theorem located_booksDecision {read : Reader} (books : (located c).BooksReader read) {x : Candidate}
    (keeps : KeepsMatches x.definition.decide) : (located c).BooksDecision r read x := by
  intro found span before c' stands here covers
  obtain ⟨edits, leaves⟩ := Acceptance.exists_leaves books (x.definition.decide (nodeOf x found span)) here
  refine ⟨edits, leaves, fun node accepted => ⟨edits, List.flatMap_singleton' edits, fun part within => ?_⟩⟩
  obtain ⟨returns, rfl⟩ := carryOut_accepts (keeps _) (Prod.ext accepted rfl)
  cases within with
  | self => exact stands
  | argument among within => exact covers _ among part within

/-- **What a registry reads is located** in the line that it is read in. -/
theorem reader_located (keeps : r.KeepsMatches) (levels : Nat) : (located c).BooksReader (r.reader levels) :=
  Ledger.reader_books (fun _ books category _ x mem => located_booksDecision books (keeps category x mem)) levels

end Places

end Parse

/-- **Every part of the tree that a line parses into is located where it was read**: it covers a stretch of the text
with no blank at either end, and its line and column are those that the state before the line gives to the start of
the stretch. -/
theorem parseLine_located {b : RegistryBuilder} (reachable : b.Reachable)
    (keeps : ∀ d ∈ b.definitions, KeepsMatches d.decide) {category : Category} {text : String} {c c' : Context}
    {node : Node} (parsed : b.build.parseLine category text c = (.ok node, c')) :
    ∀ x : Part, x.Within (.node node) → x.StandsIn (Line.ofString text) ∧ c.Locates x.span := by
  have lawful := reachable.lawful
  have keepsAll : b.build.KeepsMatches := fun category x mem =>
    keeps _ (List.mem_of_getElem? (lawful category x mem).definition)
  have solid := Line.solid_trimmed (Parse.holds_of_parseLineBy parsed) (Nat.le_refl _)
  have stands := (Parse.accepted_of_parseLineBy parsed).stands
    (Parse.reader_stands lawful keeps c.remainingDepth) lawful keeps solid
  obtain ⟨log, c₁, -, -, locates, -⟩ := Parse.Ledger.parseLine_ok (l := Parse.located c)
    (fun start stop x mem => Parse.Ledger.tryCandidate_books
      (Parse.Ledger.matchCandidate_books (Parse.reader_located keepsAll _) _ start stop x)
      (Parse.located_booksDecision (Parse.reader_located keepsAll _) (keepsAll category x mem))) rfl parsed
  exact fun x within => ⟨stands x within, locates x within⟩

end Phrasebook
