import Phrasebook.Proofs.Match.Segments
import Phrasebook.Proofs.Parse.Word

/-!
# Lines that are the text of their pattern

A definition whose pattern is made of words and slots for integers, and which is the only one of its category, is found
on every line that has integers in the place of the slots. While its pattern is matched a slot may be tried on a minus
alone, which no type reads, and what is turned down is remembered (`Steady`); so nothing that is remembered keeps an
integer from being read.
-/

namespace Phrasebook
open Text Pattern Literal Parse

/-- Exactly one value of a type is expected. -/
def Target.one (type : TypeId) : Target where
  types := [.one type]
  single := true
  acceptance := .all
  conditions := false

theorem Target.ofPlaceholder_one {p : Placeholder} {type : TypeId} (takes : p.TakesOne type) :
    Target.ofPlaceholder p = .one type := by
  simp [ofPlaceholder, Placeholder.isSingle, takes.types, takes.acceptance, takes.conditions, one, PatternType.one]

/-- A registry has a type of integers in decimal. No type reads a minus alone, and there are no expressions but
literals. -/
structure Registry.ReadsIntegers (r : Registry) (type : TypeId) : Prop where
  integer : ∃ entry, r.types.table.entry? type = some entry ∧ entry.spec.universal = false ∧
    entry.spec.literal = some integer?
  minus : Unread r.types.table "-"
  plain : r.candidates .expression = []

/-- An expression is the literal of an integer. -/
def Parse.IsInteger (type : TypeId) (n : Int64) (e : Expr) : Prop :=
  ∃ span, e = .literal (.int n) (.one type) span

/-- The pattern of a candidate is that of some segments with slots for a type, and its nodes are accepted. -/
structure Candidate.IsSegments (x : Candidate) (segments : List Segment) (type : TypeId) : Prop where
  sound : x.pattern.Sound
  root : x.pattern.root = .sequence (Segment.elements 0 segments)
  slots : x.pattern.placeholders.length = (Segment.integersOf segments).length
  takes : ∀ p ∈ x.pattern.placeholders, p.TakesOne type
  accepts : x.definition.decide = .accept

/-- A node is of the definition of a candidate, with the literals of some integers as its arguments. -/
structure Candidate.FilledWith (x : Candidate) (type : TypeId) (integers : List Int64) (node : Node) : Prop where
  category : node.category = x.definition.category
  definition : node.definition = x.definition.id
  name : node.name = x.definition.name
  arguments : Match.IntegersFill (IsInteger type) integers node.arguments

namespace Parse

variable {r : Registry} {line : Line} {start stop : Nat} {type : TypeId} {c : Context}

section Read

/-- An integer is read as itself. -/
theorem readLiteral?_decimal (integers : r.ReadsIntegers type) (n : Int64) :
    readLiteral? r.types (decimal n) (.one type) = some (.int n, .one type) := by
  obtain ⟨entry, found, own, reads⟩ := integers.integer
  have bare : unquote? (decimal n) = none :=
    unquote?_of_head fun starts => not_mem_decimal (by decide) (by decide) (List.mem_of_head? starts)
  have value : r.types.table.readLiteral type (String.ofList (decimal n)) = .ok (type, .int n) := by
    simp [TypeTable.readLiteral, found, own, TypeSpec.read?, reads, integer?_decimal]
  have fits : coerceValue? r.types (.int n) type (.one type) = some (.int n, .one type) := by
    simp [coerceValue?, Target.one, PatternType.one, TypeTable.isAssignable]
  have own : ownLiteral? r.types (String.ofList (decimal n)) (.one type) = some (.int n, .one type) := by
    unfold ownLiteral?
    refine List.findSome?_eq_some_iff.2 ⟨[], .one type, [], rfl, ?_, List.forall_mem_nil _⟩
    simp only [PatternType.one, value]
    exact fits
  have literal : literal? r.types (String.ofList (decimal n)) (.one type) = some (.int n, .one type) := by
    rw [literal?, own]
    rfl
  have accepted : ((Target.one type).acceptance == Acceptance.nonLiterals) = false := rfl
  simp only [readLiteral?, accepted, bare, literal, Bool.false_eq_true, if_false]

/-- A minus is read as nothing. -/
theorem readLiteral?_minus (integers : r.ReadsIntegers type) :
    readLiteral? r.types ['-'] (.one type) = none := by
  have accepted : ((Target.one type).acceptance == Acceptance.nonLiterals) = false := rfl
  have bare : unquote? ['-'] = none := rfl
  have unread : literal? r.types (String.ofList ['-']) (.one type) = none := literal?_unread integers.minus _
  simp only [readLiteral?, accepted, bare, unread, Bool.false_eq_true, if_false]

/-- Among the forms of expressions an integer is a literal. -/
theorem ends_readForms_decimal (integers : r.ReadsIntegers type) (read : Reader) {n : Int64}
    (here : line.slice start stop = decimal n) :
    ∃ e, IsInteger type n e ∧ Ends (readForms r read line start stop (.one type)) c (.found e) c := by
  have head {sign : Char} (other : isDigit sign = false) (apart : sign ≠ '-') : (decimal n).head? ≠ some sign :=
    fun starts => not_mem_decimal other apart (List.mem_of_head? starts)
  refine ⟨_, ⟨c.span (stretchOf line start stop), rfl⟩, ?_⟩
  rw [readForms_bare read here (decimal_ne_nil n) (head (by decide) (by decide)) (head (by decide) (by decide)),
    readLiteral?_decimal integers n]
  rfl

/-- Where there is no syntax of expressions, none is found. -/
theorem ends_readSyntax_none (plain : r.candidates .expression = []) (read : Reader) :
    ∃ reason, Ends (readSyntax r read line start stop (.one type)) c (.rejected reason) c := by
  have categories : Ends (readCategories r read line start stop (.one type) [.expression]) c (none, []) c := by
    simp only [readCategories, tryCategory, plain, List.zipIdx_nil, tryCandidates]
    rfl
  exact ⟨_, categories.bind rfl⟩

/-- Among the forms of expressions a minus has no place. -/
theorem ends_readForms_minus (integers : r.ReadsIntegers type) (read : Reader)
    (here : line.slice start stop = ['-']) :
    ∃ reason, Ends (readForms r read line start stop (.one type)) c (.rejected reason) c := by
  obtain ⟨reason, none_⟩ := @ends_readSyntax_none r line start stop type c integers.plain read
  have span : Ends (spanOf line start stop) c (c.span (stretchOf line start stop)) c := rfl
  have listless : Ends (pure none : Parsing (Option Expr)) c none c := rfl
  refine ⟨reason, ?_⟩
  rw [readForms_bare read here (by simp) (by simp) (by simp)]
  apply span.bind
  simp only [readLiteral?_minus integers]
  exact listless.bind none_

end Read

/-- Nobody cancels, and nothing of a line was turned down but minuses. -/
structure Steady (line : Line) (c : Context) : Prop where
  calm : c.cancellation = {}
  minus : ∀ start stop target reason, start ≤ line.size → stop ≤ line.size →
    c.rejections.get? (stretchOf line start stop, target) = some reason → line.slice start stop = ['-']

/-- Whether a state is steady depends on two of its parts. -/
theorem Steady.keeps {c c' : Context} (steady : Steady line c) (cancellation : c'.cancellation = c.cancellation)
    (rejections : c'.rejections = c.rejections) : Steady line c' where
  calm := cancellation.trans steady.calm
  minus := by
    rw [rejections]
    exact steady.minus

/-- Another minus may be turned down. -/
theorem Steady.insert (steady : Steady line c) (low : start ≤ line.size) (high : stop ≤ line.size)
    (here : line.slice start stop = ['-']) (target : Target) (reason : Rejection) :
    Steady line { c with rejections := c.rejections.insert (stretchOf line start stop, target) reason } where
  calm := steady.calm
  minus := by
    intro start' stop' target' reason' low' high' found
    dsimp only at found
    rw [Table.get?_insert] at found
    split at found
    next same =>
      obtain ⟨rfl, rfl⟩ := stretchOf_inj low high low' high' (Prod.ext_iff.1 same).1
      exact here
    next => exact steady.minus _ _ _ _ low' high' found

section Level

/-- **An integer is read**, at any level of nesting. -/
theorem ends_reader_decimal (integers : r.ReadsIntegers type) (levels : Nat) (steady : Steady line c) {n : Int64}
    (here : line.Stands start (decimal n)) :
    ∃ e, IsInteger type n e ∧
      Ends (r.reader (levels + 1) line start (start + (decimal n).length) (.one type)) c (.found e) c := by
  obtain ⟨first, last, shape, solid⟩ := decimal_ends n
  obtain ⟨sign, more, starts, letter⟩ := decimal_starts n
  have begins : line.skipBlanks start = start := by
    have here := here
    rw [starts] at here
    exact here.skipBlanks letter
  have trimmed : line.trimmed start (start + (decimal n).length) = (start, start + (decimal n).length) := by
    have here := here
    rw [shape] at here ⊢
    exact here.trimmed solid begins
  have inside : start + (decimal n).length ≤ line.size := by
    have length := line.length_slice start (start + (decimal n).length)
    have positive := List.length_pos_iff.2 (decimal_ne_nil n)
    rw [here.slice] at length
    omega
  have unknown : c.rejections.get? (stretchOf line start (start + (decimal n).length), .one type) = none := by
    cases known : c.rejections.get? (stretchOf line start (start + (decimal n).length), .one type) with
    | none => rfl
    | some reason =>
      have minus := steady.minus _ _ _ _ (by omega) inside known
      rw [here.slice] at minus
      exact absurd minus (decimal_ne_minus n)
  obtain ⟨e, integer, found⟩ := ends_readForms_decimal (c := c.deepen) integers (r.reader levels) here.slice
  refine ⟨e, integer, ends_readLevel steady.calm ?_ ?_⟩
  · rw [trimmed]
    exact unknown
  · rw [trimmed]
    exact found

/-- A minus has no blanks around it. -/
theorem trimmed_minus (inside : stop ≤ line.size) (here : line.slice start stop = ['-']) :
    stop = start + 1 ∧ line.trimmed start stop = (start, stop) := by
  have stands : line.Stands start ([] ++ ['-']) := here ▸ line.stands_slice start stop
  have length := line.length_slice start stop
  rw [here, List.length_singleton] at length
  obtain rfl : stop = start + 1 := by omega
  exact ⟨rfl, stands.trimmed (by decide) (Line.Stands.skipBlanks stands (by decide))⟩

/-- **A minus is turned down**, at any level of nesting, and this may be remembered. -/
theorem ends_reader_minus (integers : r.ReadsIntegers type) (levels : Nat) (steady : Steady line c)
    (inside : stop ≤ line.size) (here : line.slice start stop = ['-']) :
    ∃ reason c', Steady line c' ∧
      Ends (r.reader (levels + 1) line start stop (.one type)) c (.rejected reason) c' := by
  obtain ⟨end_, trimmed⟩ := trimmed_minus inside here
  obtain ⟨reason, rejected⟩ := ends_readForms_minus (c := c.deepen) integers (r.reader levels) here
  have nested : Ends (readNested (some (readForms r (r.reader levels))) line start stop (.one type)) c
      (.rejected reason) c := (ends_checkCancelled_calm steady.calm).bind (Bond.ends_bracket rejected)
  have asked : Ends Parsing.context c c c := rfl
  unfold Registry.reader readLevel
  simp only [trimmed]
  cases known : if (!c.isStretchTried (stretchOf line start stop)) = true then
      c.rejections.get? (stretchOf line start stop, .one type) else none with
  | some remembered =>
    refine ⟨remembered, c, steady, asked.bind ?_⟩
    simp only [known]
    rfl
  | none =>
    cases tried : c.isStretchTried (stretchOf line start stop) with
    | true =>
      refine ⟨reason, c, steady, asked.bind ?_⟩
      simp only [known]
      apply nested.bind
      simp only [tried]
      rfl
    | false =>
      refine ⟨reason, _, steady.insert (by omega) inside here (.one type) reason, asked.bind ?_⟩
      simp only [known]
      apply nested.bind
      simp only [tried]
      rfl

end Level

section Matching

variable {x : Candidate} {segments : List Segment}

/-- The slots of a pattern are filled by a reader of integers. -/
theorem readsIntegers_reader (integers : r.ReadsIntegers type) {pattern : Pattern}
    (takes : ∀ p ∈ pattern.placeholders, p.TakesOne type) (line : Line) (levels : Nat) :
    (Match.restTask pattern line 0 fun p low high =>
      r.reader (levels + 1) line low high (.ofPlaceholder p)).ReadsIntegers (Steady line) (IsInteger type) where
  integer := by
    intro p among n start here c steady
    obtain ⟨e, integer, found⟩ := ends_reader_decimal integers levels steady here
    rw [← Target.ofPlaceholder_one (takes p among)] at found
    exact ⟨e, c, integer, steady, found⟩
  minus := by
    intro p among start stop inside here c steady
    obtain ⟨reason, c', steady', rejected⟩ := ends_reader_minus integers levels steady inside here
    rw [← Target.ofPlaceholder_one (takes p among)] at rejected
    exact ⟨reason, c', steady', rejected⟩

/-- The candidate is accepted on a line of its segments. -/
theorem ends_tryCandidate_segments (integers : r.ReadsIntegers type) (isSegments : x.IsSegments segments type)
    (some_ : segments ≠ []) (merged : Segment.Merged segments)
    (undotted : ∀ text, Segment.word text ∈ segments → '\u0130' ∉ text)
    (here : line.Stands 0 (Segment.lineOf segments)) (whole : (Segment.lineOf segments).length = line.size)
    (steady : Steady line c) (levels : Nat) :
    ∃ node c', x.FilledWith type (Segment.integersOf segments) node ∧
      Ends (tryCandidate r (r.reader (levels + 1)) line 0 line.size x) c (.ok node) c' := by
  obtain ⟨found, c', fills, -, run⟩ := Match.ends_run_segments isSegments.sound isSegments.root isSegments.slots
    (fun p among => (isSegments.takes p among).needed) some_ merged undotted here whole
    (readsIntegers_reader integers isSegments.takes line levels)
    (c := c.trying x.definition.id (stretchOf line 0 line.size)) (steady.keeps rfl rfl)
  have matched : Ends (matchCandidate (r.reader (levels + 1)) line 0 line.size x) c (.ok found)
      { c' with trials := c'.trials.tail } := ends_matchCandidate run
  refine ⟨nodeOf x found (Context.span { c' with trials := c'.trials.tail } (stretchOf line 0 line.size)),
    { c' with trials := c'.trials.tail }, ⟨rfl, rfl, rfl, fills⟩, ?_⟩
  unfold Ends at matched
  simp only [Ends, tryCandidate, Parsing.of, matched, isSegments.accepts]
  rfl

end Matching

end Parse

namespace Registry

variable {r : Registry} {type : TypeId} {c : Context} {x : Candidate} {segments : List Segment} {category : Category}

/-- **A line that is the text of the only pattern of its category is parsed as that pattern**, with the integers of the
line as its arguments. -/
theorem parseLine_segments (integers : r.ReadsIntegers type) (only : r.candidates category = [x])
    (isSegments : x.IsSegments segments type) (some_ : segments ≠ []) (merged : Segment.Merged segments)
    (undotted : ∀ text, Segment.word text ∈ segments → '\u0130' ∉ text) {levels : Nat}
    (deep : c.remainingDepth = levels + 1) (calm : c.cancellation = {}) (idle : c.trials = []) :
    ∃ node, x.FilledWith type (Segment.integersOf segments) node ∧
      (r.parseLine category (String.ofList (Segment.lineOf segments)) c).1 = .ok node := by
  let line := Line.ofList (Segment.lineOf segments)
  have here : line.Stands 0 (Segment.lineOf segments) := Line.stands_ofList _
  have whole : (Segment.lineOf segments).length = line.size := (Line.size_ofList _).symm
  have steady (tried : Nat) : Steady line { c with nearMisses := [], rejections := {}, tried } := by
    refine ⟨calm, fun start stop target reason _ _ known => ?_⟩
    rw [Table.get?_empty] at known
    cases known
  obtain ⟨node, c', filled, tries⟩ := ends_tryCandidate_segments integers isSegments some_ merged undotted here whole
    (steady (c.tried + 1)) levels
  have found : Ends (tryCategory r (r.reader (levels + 1)) line 0 line.size category fun _ => true)
      { c with nearMisses := [], rejections := {} } (some node, []) c' := by
    unfold tryCategory
    rw [only, List.zipIdx_singleton, tryCandidates_cons]
    exact (ends_consider (c := { c with nearMisses := [], rejections := {} }) calm idle (fun _ => rfl) tries).bind rfl
  have matched : Ends (matchLine r (r.reader c.remainingDepth) category (Line.ofList (Segment.lineOf segments)))
      { c with nearMisses := [], rejections := {} } (some node, []) c' := by
    obtain ⟨first, more, starts, letter⟩ := Segment.lineOf_starts some_ merged
    obtain ⟨before, last, shape, solid⟩ := Segment.lineOf_ends some_ merged
    have begins : line.skipBlanks 0 = 0 := (starts ▸ here : line.Stands 0 (first :: more)).skipBlanks letter
    have trimmed := (shape ▸ here : line.Stands 0 (before ++ [last])).trimmed solid begins
    rw [← shape, Nat.zero_add, whole] at trimmed
    have full : 0 < line.size := (starts ▸ here : line.Stands 0 (first :: more)).lt_size
    unfold matchLine
    rw [deep, trimmed]
    dsimp only
    rw [if_pos full]
    exact found
  refine ⟨node, filled, ?_⟩
  unfold Ends at matched
  simp only [Registry.parseLine, parseLineBy, Line.ofString, String.toList_ofList, matched, lineResult]

end Registry

end Phrasebook
