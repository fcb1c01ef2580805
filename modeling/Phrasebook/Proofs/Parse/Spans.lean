import Phrasebook.Proofs.Match.Fillings
import Phrasebook.Proofs.Parse.Items
import Phrasebook.Proofs.Parse.Origin
import Phrasebook.Proofs.Parse.WellTyped

/-!
# Where the parts of a tree stand

The arguments of a node stand within its span, one behind the other in the order of the placeholders, and each
of them covers whole words of the text; the items of a list stand within its span, one behind the other. The
invariant of expressions is `Placed`: what is read between two places stands between them, and does not end
within a word if the stretch does not. An item of a list may start within a word, so only what is read from a
boundary on starts at one.
-/

namespace Phrasebook
open Text

namespace Span

/-- A span is that of a stretch of a line. -/
structure Covers (s : Span) (l : Line) (start stop : Nat) : Prop where
  start : s.start = l.byteOffset start
  stop : s.stop = l.byteOffset stop

/-- A span lies within another one. -/
def Within (a b : Span) : Prop :=
  b.start ≤ a.start ∧ a.stop ≤ b.stop

/-- A span ends before another one starts. -/
def Before (a b : Span) : Prop :=
  a.stop ≤ b.start

/-- A span covers whole words of a line: it holds something, starts and ends between characters, with no blank
at either end, and neither end stands within a word. -/
def WholeWords (s : Span) (l : Line) : Prop :=
  ∃ start stop, s.Covers l start stop ∧ l.Solid start stop ∧
    l.isBoundary start = true ∧ l.isBoundary stop = true

theorem Covers.lt {s : Span} {l : Line} {start stop : Nat} (h : s.Covers l start stop)
    (solid : l.Solid start stop) : s.start < s.stop := by
  rw [h.start, h.stop]
  exact l.byteOffset_lt solid.holds solid.inside

theorem Covers.within {a b : Span} {l : Line} {start stop low high : Nat} (h : a.Covers l low high)
    (h' : b.Covers l start stop) (after : start ≤ low) (before : high ≤ stop) : a.Within b := by
  rw [Within, h.start, h.stop, h'.start, h'.stop]
  exact ⟨l.byteOffset_mono after, l.byteOffset_mono before⟩

theorem Covers.before {a b : Span} {l : Line} {start stop low high : Nat} (h : a.Covers l low high)
    (h' : b.Covers l start stop) (ordered : high ≤ start) : a.Before b := by
  rw [Before, h.stop, h'.start]
  exact l.byteOffset_mono ordered

end Span

theorem Context.covers_span (c : Context) (l : Line) (start stop : Nat) :
    (c.span (Parse.stretchOf l start stop)).Covers l start stop :=
  ⟨rfl, rfl⟩

/-- The parts of a node or a list stand in order: they lie within its span, none is empty, and each ends before the
next one starts. The arguments of a node cover whole words. -/
def Part.Arranged (l : Line) : Part → Prop
  | .node n => (∀ e, some e ∈ n.arguments → e.span.Within n.span ∧ e.span.WholeWords l) ∧
      n.arguments.Pairwise fun a b => ∀ e e', a = some e → b = some e' → e.span.Before e'.span
  | .expr (.list items _ _ span) => (∀ e ∈ items, e.span.Within span ∧ e.span.start < e.span.stop) ∧
      items.Pairwise fun e e' => e.span.Before e'.span
  | .expr _ => True

namespace Parse
open Pattern Match

/-- What was read between two places of a line stands there, without blanks at its ends. It does not end within
a word, and it starts within one at most where the stretch does. All its parts are arranged. -/
structure Placed (l : Line) (start stop : Nat) (e : Expr) : Prop where
  spot : ∃ low high, (start ≤ low ∧ high ≤ stop) ∧ e.span.Covers l low high ∧ l.Solid low high ∧
    (l.isBoundary start = true → l.isBoundary low = true) ∧ l.isBoundary high = true
  arranged : ∀ x : Part, x.Within (.expr e) → x.Arranged l

namespace Placed

variable {l : Line} {start stop start' stop' : Nat} {e e' : Expr}

/-- What fills a solid stretch is placed there. -/
theorem of_covers (covers : e.span.Covers l start stop) (solid : l.Solid start stop)
    (boundary : l.isBoundary stop = true) (arranged : ∀ x : Part, x.Within (.expr e) → x.Arranged l) :
    Placed l start stop e :=
  ⟨⟨start, stop, ⟨Nat.le_refl _, Nat.le_refl _⟩, covers, solid, id, boundary⟩, arranged⟩

theorem widen (h : Placed l start stop e) (after : start' ≤ start) (before : stop ≤ stop')
    (boundary : l.isBoundary start' = true → l.isBoundary start = true) : Placed l start' stop' e := by
  obtain ⟨low, high, ⟨after', before'⟩, covers, solid, starts, ends⟩ := h.spot
  exact ⟨⟨low, high, ⟨Nat.le_trans after after', Nat.le_trans before' before⟩, covers, solid,
    fun edge => starts (boundary edge), ends⟩, h.arranged⟩

theorem within (h : Placed l start' stop' e) (after : start ≤ start') (before : stop' ≤ stop) {span : Span}
    (covers : span.Covers l start stop) : e.span.Within span := by
  obtain ⟨low, high, ⟨after', before'⟩, covers', -⟩ := h.spot
  exact covers'.within covers (Nat.le_trans after after') (Nat.le_trans before' before)

theorem before (h : Placed l start stop e) (h' : Placed l start' stop' e') (ordered : stop ≤ start') :
    e.span.Before e'.span := by
  obtain ⟨low, high, ⟨-, ends⟩, covers, -⟩ := h.spot
  obtain ⟨low', high', ⟨starts, -⟩, covers', -⟩ := h'.spot
  exact covers.before covers' (Nat.le_trans ends (Nat.le_trans ordered starts))

theorem lt (h : Placed l start stop e) : e.span.start < e.span.stop := by
  obtain ⟨low, high, -, covers, solid, -⟩ := h.spot
  exact covers.lt solid

theorem wholeWords (h : Placed l start stop e) (boundary : l.isBoundary start = true) :
    e.span.WholeWords l := by
  obtain ⟨low, high, -, covers, solid, starts, ends⟩ := h.spot
  exact ⟨low, high, covers, solid, starts boundary, ends⟩

end Placed

/-- What a reader finds on stretches that do not end within a word is placed there. -/
def PlacesAll (read : Reader) : Prop :=
  ∀ line start stop target e, Finds read line start stop target e → start ≤ stop → stop ≤ line.size →
    line.isBoundary stop = true → Placed line start stop e

section Enclosed

/-- The bracket that closes the first one stands where it is found. -/
theorem getElem?_of_closing? {left right : Char} {quoted : Bool} {depth n : Nat} {text : List Char}
    (h : closing? left right quoted depth text = some n) : text[n]? = some right := by
  induction text generalizing quoted depth n with
  | nil => cases h
  | cons c rest ih =>
    -- one character on, the bracket is found one place earlier
    have later {quoted : Bool} {depth : Nat}
        (h : (closing? left right quoted depth rest).map (· + 1) = some n) :
        (c :: rest)[n]? = some right := by
      obtain ⟨m, found, rfl⟩ := Option.map_eq_some_iff.1 h
      exact ih found
    unfold closing? at h
    split at h
    · exact later h
    split at h
    · exact later h
    split at h
    · exact later h
    split at h
    next closes =>
      split at h
      · cases h
      · cases h
        rw [List.getElem?_cons_zero, beq_iff_eq.1 closes]
      · exact later h
    · exact later h

/-- A stretch in brackets starts with the one and ends with the other. -/
theorem ends_of_isEnclosed {l : Line} {left right : Char} {start stop : Nat} (inside : stop ≤ l.size)
    (holds : start < stop) (h : isEnclosed left right (l.slice start stop) = true) :
    l.chars[start]? = some left ∧ l.chars[stop - 1]? = some right := by
  have length : (l.slice start stop).length = stop - start := by
    rw [l.length_slice, Nat.min_eq_left inside]
  simp only [isEnclosed, Bool.and_eq_true, beq_iff_eq, length] at h
  obtain ⟨opens, closes⟩ := h
  have closes := getElem?_of_closing? closes
  rw [l.getElem?_slice, if_pos (by omega), show start + (stop - start - 1) = stop - 1 by omega] at closes
  rw [List.head?_eq_getElem?, l.getElem?_slice, if_pos (by omega)] at opens
  exact ⟨opens, closes⟩

end Enclosed

section Node

variable {r : Registry} {read : Reader} {line : Line} {start stop : Nat} {category : Category} {node : Node}

/-- The arguments of a node with a span stand within the span, one before the other, each on whole words, and
all their parts are arranged. -/
structure ArrangedArguments (line : Line) (span : Span) (arguments : List (Option Expr)) : Prop where
  each : ∀ e, some e ∈ arguments → e.span.Within span ∧ e.span.WholeWords line
  ordered : arguments.Pairwise fun a b => ∀ e e', a = some e → b = some e' → e.span.Before e'.span
  arranged : ∀ e, some e ∈ arguments → ∀ x : Part, x.Within (.expr e) → x.Arranged line

/-- **The arguments of a match stand in the order of the placeholders.** -/
theorem Matches.arranged (places : PlacesAll read) {p : Pattern} (sound : p.Sound) {found : Found Expr}
    (inside : stop ≤ line.size) (boundary : line.isBoundary stop = true)
    (matches_ : Matches read line start stop p found) {span : Span} (covers : span.Covers line start stop) :
    ArrangedArguments line span found.arguments := by
  obtain ⟨fills, path, last, reads, reports, finds⟩ := matches_.reads sound
  obtain ⟨fillings, filled, within, ordered⟩ := reads.filled_in_order sound
  have filling {index : Nat} {e : Expr} (there : found.arguments[index]? = some (some e)) :
      ∃ f ∈ fillings, f.index = index ∧ f.value = e :=
    filled index e (reports.passed_of_there there)
  -- the region of the match is cut at its end, which is a boundary of the whole line
  have placed {f : Filling Expr} (mem : f ∈ fillings) :
      Placed line f.low f.high f.value ∧ line.isBoundary f.low = true := by
    have f_ := within f mem
    have before : f.high ≤ stop := f_.inside
    obtain ⟨q, -, found⟩ := finds _ _ _ _ f_.fills
    have ends := Line.isBoundary_of_isBoundary_before f_.ends before boundary
    have starts := Line.isBoundary_of_isBoundary_before f_.starts
      (Nat.le_trans (Nat.le_of_lt f_.holds) before) boundary
    exact ⟨places _ _ _ _ _ found (Nat.le_of_lt f_.holds) (Nat.le_trans before inside) ends, starts⟩
  refine ⟨fun e among => ?_, ?_, fun e among => ?_⟩
  · obtain ⟨index, there⟩ := List.mem_iff_getElem?.1 among
    obtain ⟨f, mem, -, rfl⟩ := filling there
    obtain ⟨here, starts⟩ := placed mem
    exact ⟨here.within (within f mem).after (within f mem).inside covers, here.wholeWords starts⟩
  · refine List.pairwise_iff_getElem.2 fun i j hi hj less e e' first second => ?_
    obtain ⟨f, mem, rfl, rfl⟩ := filling ((List.getElem?_eq_getElem hi).trans (congrArg some first))
    obtain ⟨g, mem', rfl, rfl⟩ := filling ((List.getElem?_eq_getElem hj).trans (congrArg some second))
    exact (placed mem).1.before (placed mem').1 (ordered f mem g mem' less)
  · obtain ⟨index, there⟩ := List.mem_iff_getElem?.1 among
    obtain ⟨f, mem, -, rfl⟩ := filling there
    exact (placed mem).1.arranged

/-- A node that is accepted covers its stretch, and all its parts are arranged. -/
theorem Accepted.arranged (places : PlacesAll read) (lawful : r.Lawful)
    (keeps : ∀ d ∈ r.definitions, KeepsMatches d.decide) (inside : stop ≤ line.size)
    (boundary : line.isBoundary stop = true)
    (accepted : Accepted r read line start stop category node) :
    node.span.Covers line start stop ∧ ∀ x : Part, x.Within (.node node) → x.Arranged line := by
  obtain ⟨candidate, among, found, c, c', matches_, decided⟩ := accepted
  have of := lawful category candidate among
  have keeps := keeps _ (List.mem_of_getElem? of.definition)
  obtain ⟨returns, rfl⟩ := carryOut_accepts (keeps _) decided
  have covers := c.covers_span line start stop
  have arguments := matches_.arranged places of.sound inside boundary covers
  refine ⟨covers, fun x within => ?_⟩
  cases within with
  | self => exact ⟨arguments.each, arguments.ordered⟩
  | argument among within => exact arguments.arranged _ among x within

end Node

section Forms

variable {r : Registry} {read : Reader} {line : Line} {start stop : Nat} {target : Target} {e : Expr}

theorem placed_list (places : PlacesAll read) (some_ : ∀ sep ∈ r.config.listSeparators, sep ≠ "")
    (solid : line.Solid start stop) (boundary : line.isBoundary stop = true)
    {parts : List ((Nat × Nat) × Expr)} {conjunction : Conjunction} {type : PatternType} {span : Span}
    (split : splitList? line start stop r.config.listSeparators = some (parts.map Prod.fst, conjunction))
    (items : ∀ part ∈ parts, Finds read line part.1.1 part.1.2 target.item part.2)
    (covers : span.Covers line start stop) :
    Placed line start stop (.list (parts.map Prod.snd) conjunction type span) := by
  have apart := splitList?_apart some_ boundary split
  have proper {part : (Nat × Nat) × Expr} (mem : part ∈ parts) : ProperPart start stop part.1 :=
    splitList?_properParts split part.1 (List.mem_map_of_mem mem)
  have placed {part : (Nat × Nat) × Expr} (mem : part ∈ parts) :
      Placed line part.1.1 part.1.2 part.2 :=
    places _ _ _ _ _ (items part mem) (Nat.le_of_lt (proper mem).some)
      (Nat.le_trans (proper mem).before solid.inside) (apart.ends _ (List.mem_map_of_mem mem))
  refine .of_covers covers solid boundary fun x within => ?_
  cases within with
  | self =>
    refine ⟨fun e among => ?_, ?_⟩
    · obtain ⟨part, mem, rfl⟩ := List.mem_map.1 among
      exact ⟨(placed mem).within (proper mem).after (proper mem).before covers, (placed mem).lt⟩
    · refine List.pairwise_map.2 ((List.pairwise_map.1 apart.ordered).imp_of_mem ?_)
      intro a b memA memB behind
      exact (placed memA).before (placed memB) behind
  | item among within =>
    obtain ⟨part, mem, rfl⟩ := List.mem_map.1 among
    exact (placed mem).arranged x within

variable (places : PlacesAll read) (lawful : r.Lawful)
  (keeps : ∀ d ∈ r.definitions, KeepsMatches d.decide)
  (some_ : ∀ sep ∈ r.config.listSeparators, sep ≠ "")

include places lawful keeps some_ in
/-- **Every form of expression is placed on its stretch**, if its parts are placed on theirs. -/
theorem Origin.placed (solid : line.Solid start stop) (boundary : line.isBoundary stop = true)
    (origin : Origin r read line start stop target e) : Placed line start stop e := by
  cases origin with
  | parenthesised enclosed inner =>
    obtain ⟨opens, closes⟩ := ends_of_isEnclosed solid.inside solid.holds enclosed
    have room : start + 2 ≤ stop := by
      have length := size_of_slice (length_of_isEnclosed (by decide) enclosed)
      omega
    have inside := solid.inside
    have placed := places _ _ _ _ _ inner (by omega) (by omega)
      (Line.isBoundary_of_after closes (by decide))
    exact placed.widen (Nat.le_succ start) (Nat.sub_le stop 1) fun _ =>
      Line.isBoundary_of_before opens (by decide)
  | @var name e c named =>
    obtain ⟨_, _, _, _, rfl, -⟩ := variableOf_eq_ok named
    refine .of_covers (c.covers_span line start stop) solid boundary fun x within => ?_
    cases within
    trivial
  | @literal value type c =>
    refine .of_covers (c.covers_span line start stop) solid boundary fun x within => ?_
    cases within
    trivial
  | @list parts conjunction type c several split items =>
    exact placed_list places some_ solid boundary split items (c.covers_span line start stop)
  | @node category node e allowed accepted fits =>
    obtain ⟨covers, arranged⟩ := accepted.arranged places lawful keeps solid.inside boundary
    obtain ⟨type, -, fits⟩ := nodeExpr?_eq_some fits
    obtain ⟨-, rfl | ⟨path, type', rfl, -⟩⟩ := coerceExpr?_eq_some fits
    · refine .of_covers covers solid boundary fun x within => ?_
      cases within with
      | self => trivial
      | node within => exact arranged x within
    · refine .of_covers covers solid boundary fun x within => ?_
      cases within with
      | self => trivial
      | inner within =>
        cases within with
        | self => trivial
        | node within => exact arranged x within

end Forms

variable {r : Registry} (lawful : r.Lawful) (keeps : ∀ d ∈ r.definitions, KeepsMatches d.decide)
  (some_ : ∀ sep ∈ r.config.listSeparators, sep ≠ "")

include lawful keeps some_ in
/-- **What a registry reads is placed on its stretch**, however deep it may go. -/
theorem reader_places (levels : Nat) : PlacesAll (r.reader levels) := by
  intro line start stop target e finds
  refine finds_induction (r := r) (P := fun line start stop _ e => start ≤ stop → stop ≤ line.size →
    line.isBoundary stop = true → Placed line start stop e) ?_ finds
  intro read places line start stop target e holds origin ordered inside boundary
  obtain ⟨after, -, before⟩ := line.trimmed_bounds ordered
  have placed := origin.placed places lawful keeps some_ (Line.solid_trimmed holds inside)
    (Line.isBoundary_trimmed_snd boundary)
  exact placed.widen after before (Line.isBoundary_trimmed_fst holds)

end Parse

/-- **The parts of the tree that a line parses into are arranged as they stand in the line**: the arguments of
every node lie within its span, one before the other in the order of the placeholders, and each covers whole
words; the items of every list lie within its span, one before the other, and none is empty. The definitions
may not change what was matched, except for its type, and no separator of lists may be empty. -/
theorem parseLine_arranged {b : RegistryBuilder} (reachable : b.Reachable)
    (keeps : ∀ d ∈ b.definitions, KeepsMatches d.decide)
    (some_ : ∀ sep ∈ b.config.listSeparators, sep ≠ "") {category : Category} {text : String}
    {c c' : Context} {node : Node}
    (parsed : b.build.parseLine category text c = (.ok node, c')) :
    ∀ part : Part, part.Within (.node node) → part.Arranged (Line.ofString text) := by
  have places := Parse.reader_places reachable.lawful keeps some_ c.remainingDepth
  have accepted := Parse.accepted_of_parseLineBy parsed
  have within := (Line.ofString text).trimmed_bounds (Nat.zero_le (Line.ofString text).size)
  have whole := (Line.ofString text).isBoundary_size
  exact (accepted.arranged places reachable.lawful keeps within.2.2 (Line.isBoundary_trimmed_snd whole)).2

/-- The parts of a line that prints a list with a sum in it are arranged. -/
theorem parseLine_arranged_sums :
    let r := ((RegistryBuilder.withConfig {}).addAll sums).1.build
    ∃ node c, r.parseLine .effect "print 1 and (1 + 1)" {} = (.ok node, c) ∧
      ∀ part : Part, part.Within (.node node) →
        part.Arranged (Line.ofString "print 1 and (1 + 1)") := by
  intro r
  have parses : (r.parseLine .effect "print 1 and (1 + 1)" {}).1.toOption.isSome = true := by
    decide +kernel
  have reachable := RegistryBuilder.addAll_reachable sums (.setConfig {} .new)
  have keeps : ∀ d ∈ ((RegistryBuilder.withConfig {}).addAll sums).1.definitions,
      KeepsMatches d.decide :=
    RegistryBuilder.addAll_decides
      (by simp [sums, Entry.Decides, keepsMatches_accept]) fun _ mem => (List.not_mem_nil mem).elim
  have some_ : ∀ sep ∈ ((RegistryBuilder.withConfig {}).addAll sums).1.config.listSeparators, sep ≠ "" := by
    rw [RegistryBuilder.addAll_config]
    decide
  cases parsed : r.parseLine .effect "print 1 and (1 + 1)" {} with
  | mk result c =>
    cases result with
    | error => simp [parsed, Except.toOption] at parses
    | ok node => exact ⟨node, c, rfl, parseLine_arranged reachable keeps some_ parsed⟩

end Phrasebook
