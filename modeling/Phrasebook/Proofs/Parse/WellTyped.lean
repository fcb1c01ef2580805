import Phrasebook.Parse.Line
import Phrasebook.Proofs.Decision
import Phrasebook.Proofs.Match.Route
import Phrasebook.Proofs.Parse.Fitting
import Phrasebook.Proofs.Parse.Origin
import Phrasebook.Proofs.Vocabulary

/-!
# Trees are well typed

Every node of a tree that a line parses into agrees with the pattern that matched it: every placeholder has
its entry, an entry is left out only where the pattern allows it, and what is there fits its placeholder. The
invariant of expressions, `Sound`, holds of what every reader finds: each of the origins that an expression may
have hands it on from the parts, and a match from the arguments to the node.
-/

namespace Phrasebook

/-- A part of a syntax tree. -/
inductive Part where
  | expr (e : Expr)
  | node (n : Node)

/-- The first part lies anywhere within the second. -/
inductive Part.Within : Part → Part → Prop where
  | self (x) : Within x x
  | item {x e items conjunction type span} (among : e ∈ items) (h : Within x (.expr e)) :
    Within x (.expr (.list items conjunction type span))
  | inner {x inner path type span} (h : Within x (.expr inner)) :
    Within x (.expr (.converted inner path type span))
  | node {x n type span} (h : Within x (.node n)) : Within x (.expr (.node n type span))
  | argument {x e n} (among : some e ∈ n.arguments) (h : Within x (.expr e)) : Within x (.node n)

/-- A node agrees with a pattern that was matched on a route: marks and tags are those of the route, every
placeholder has one entry, an entry is empty only if the placeholder may stay empty or the route leaves it
out, and an argument fits its placeholder. -/
structure Agrees (types : TypeSystem) (p : Pattern) (labels : List Pattern.Label) (left : List Nat)
    (n : Node) : Prop where
  route : Match.Route p.root labels left
  mark : n.mark = (labels.filterMap Pattern.Label.mark).foldl (· ^^^ ·) 0
  tags : n.tags = labels.filterMap Pattern.Label.tag
  length : n.arguments.length = p.placeholders.length
  absent : ∀ (index : Nat) (q : Pattern.Placeholder), p.placeholders[index]? = some q →
    n.arguments[index]? = some none → q.nullable = true ∨ index ∈ left
  present : ∀ (index : Nat) (q : Pattern.Placeholder) (e : Expr),
    p.placeholders[index]? = some q → n.arguments[index]? = some (some e) →
      Fits types (.ofPlaceholder q) e

/-- A part of a tree is well typed: a node agrees with the pattern of its definition that matched, and a
conversion leads along the chain from the type of what it converts to its own. -/
def Part.WellTyped (r : Registry) : Part → Prop
  | .node n => ∃ d p labels left, r.definitions[n.definition]? = some d ∧ n.category = d.category ∧
      d.patterns[n.patternIndex]? = some p ∧ Agrees r.types p labels left n
  | .expr (.converted inner path type _) => Parse.Converts r.types inner path type
  | .expr _ => True

/-- All parts of a tree are well typed. -/
def Part.Sound (r : Registry) (x : Part) : Prop :=
  ∀ y : Part, y.Within x → y.WellTyped r

namespace Part

variable {r : Registry}

theorem sound_literal (value : Value) (type : PatternType) (span : Span) :
    Sound r (.expr (.literal value type span)) := by
  intro y within
  cases within
  trivial

theorem sound_var (name : String) (isLocal : Bool) (type : PatternType) (span : Span) :
    Sound r (.expr (.var name isLocal type span)) := by
  intro y within
  cases within
  trivial

theorem sound_list {items : List Expr} (sound : ∀ e ∈ items, Sound r (.expr e))
    (conjunction : Conjunction) (type : PatternType) (span : Span) :
    Sound r (.expr (.list items conjunction type span)) := by
  intro y within
  cases within with
  | self => trivial
  | item among within => exact sound _ among y within

theorem sound_expr_node {n : Node} (sound : Sound r (.node n)) (type : PatternType) (span : Span) :
    Sound r (.expr (.node n type span)) := by
  intro y within
  cases within with
  | self => trivial
  | node within => exact sound y within

theorem sound_converted {inner : Expr} {path : List TypeId} {type : PatternType}
    (sound : Sound r (.expr inner)) (converts : Parse.Converts r.types inner path type)
    (span : Span) : Sound r (.expr (.converted inner path type span)) := by
  intro y within
  cases within with
  | self => exact converts
  | inner within => exact sound y within

theorem sound_node {n : Node} (typed : WellTyped r (.node n))
    (sound : ∀ e, some e ∈ n.arguments → Sound r (.expr e)) : Sound r (.node n) := by
  intro y within
  cases within with
  | self => exact typed
  | argument among within => exact sound _ among y within

end Part

namespace Parse
open Text Pattern Match

/-- What is read for a target fits it, and all its parts are well typed. -/
structure Right (r : Registry) (target : Target) (e : Expr) : Prop where
  fits : Fits r.types target e
  sound : Part.Sound r (.expr e)

/-- What is found is right. -/
def RightReading (r : Registry) (target : Target) (reading : Reading) : Prop :=
  ∀ e, reading = .found e → Right r target e

/-- Whatever a reader finds is right. -/
def RightReader (r : Registry) (read : Reader) : Prop :=
  ∀ line start stop target, Returns (read line start stop target) (RightReading r target)

/-- A match agrees with its pattern, and all parts of its arguments are well typed. -/
structure RightMatch (r : Registry) (p : Pattern) (found : Found Expr) : Prop where
  agrees : ∃ labels left, ∀ node : Node, node.mark = found.mark → node.tags = found.tags →
    node.arguments = found.arguments → Agrees r.types p labels left node
  sound : ∀ e, some e ∈ found.arguments → Part.Sound r (.expr e)

/-- What a candidate makes of a stretch: a node of its category all parts of which are well typed. -/
def RightNode (r : Registry) (category : Category) (node : Node) : Prop :=
  node.category = category ∧ Part.Sound r (.node node)

section Parts

variable {r : Registry} {read : Reader} {line : Line} {start stop : Nat}

theorem RightReader.finds (right : RightReader r read) {target : Target} {e : Expr}
    (finds : Finds read line start stop target e) : Right r target e := by
  obtain ⟨c, c', ends⟩ := finds
  exact right line start stop target c _ c' ends e rfl

variable (below : RightReader r read)

include below in
/-- **A match hands its arguments on as they were read.** -/
theorem Matches.right {p : Pattern} (sound : p.Sound) {found : Found Expr}
    (matches_ : Matches read line start stop p found) : RightMatch r p found := by
  obtain ⟨fills, path, last, reads, reports, finds⟩ := matches_.reads sound
  obtain ⟨labels, left, follows⟩ := reads.follows
  -- an argument that is there was read for its placeholder
  have filled (index : Nat) (q : Placeholder) (e : Expr) (slot : p.placeholders[index]? = some q)
      (there : found.arguments[index]? = some (some e)) : Right r (.ofPlaceholder q) e := by
    obtain ⟨-, -, low, high, fills⟩ := reads.argument (reports.passed_of_there there)
    obtain ⟨q', slot', finds⟩ := finds index low high e fills
    cases Option.some.inj (slot'.symm.trans slot)
    exact below.finds finds
  refine ⟨⟨labels, left, fun node mark tags arguments => ?_⟩, fun e among => ?_⟩
  · refine ⟨follows.route, ?_, ?_, ?_, fun index q slot empty => ?_, fun index q e slot there => ?_⟩
    · rw [mark, reports.mark, follows.marks]
    · rw [tags, reports.tags, follows.tags]
    · rw [arguments]
      exact reports.length
    · rw [arguments] at empty
      have bound : index < p.placeholders.length := (List.getElem?_eq_some_iff.1 slot).1
      rcases reports.entry bound with ⟨value, among, here⟩ | ⟨missed, -⟩
      · cases here.symm.trans empty
        obtain ⟨q', slot', nullable⟩ := reads.argument among
        cases Option.some.inj (slot'.symm.trans slot)
        exact .inl nullable
      · have inside : index ∈ p.root.slots := by
          rw [sound.slots]
          exact List.mem_range.2 bound
        exact .inr ((follows.slots index inside).resolve_left missed)
    · rw [arguments] at there
      exact (filled index q e slot there).fits
  · obtain ⟨index, there⟩ := List.mem_iff_getElem?.1 among
    have bound : index < p.placeholders.length := by
      have := (List.getElem?_eq_some_iff.1 there).1
      rwa [reports.length] at this
    exact (filled index _ e (List.getElem?_eq_getElem bound) there).sound

variable (lawful : r.Lawful) (keeps : ∀ d ∈ r.definitions, KeepsMatches d.decide)

include below lawful keeps in
/-- A node that is accepted is the match that its arguments were read for. -/
theorem Accepted.right {category : Category} {node : Node}
    (accepted : Accepted r read line start stop category node) : RightNode r category node := by
  obtain ⟨candidate, among, found, c, c', matches_, decided⟩ := accepted
  have of := lawful category candidate among
  have keeps := keeps _ (List.mem_of_getElem? of.definition)
  obtain ⟨returns, rfl⟩ := carryOut_accepts (keeps _) decided
  have found_ := matches_.right below of.sound
  obtain ⟨labels, left, agrees⟩ := found_.agrees
  refine ⟨of.category, Part.sound_node ?_ found_.sound⟩
  exact ⟨candidate.definition, candidate.pattern, labels, left, of.definition, rfl, of.pattern,
    agrees _ rfl rfl rfl⟩

/-- A right node of a category that is tried is a right expression once it fits. -/
theorem nodeExpr?_right {node : Node} {category : Category} {target : Target}
    (rightNode : RightNode r category node) (allowed : category ∈ categoriesFor target) {e : Expr}
    (h : nodeExpr? r.types node target = some e) : Right r target e := by
  obtain ⟨rfl, sound⟩ := rightNode
  obtain ⟨fits, type, rfl | ⟨path, type', rfl, converts⟩⟩ := nodeExpr?_fits allowed h
  · exact ⟨fits, Part.sound_expr_node sound _ _⟩
  · exact ⟨fits, Part.sound_converted (Part.sound_expr_node sound _ _) converts _⟩

include below lawful keeps in
/-- **Every form of expression keeps to the target**, if its parts do. -/
theorem Origin.right {target : Target} {e : Expr} (origin : Origin r read line start stop target e) :
    Right r target e := by
  cases origin with
  | parenthesised _ inner => exact below.finds inner
  | var named =>
    refine ⟨variableOf_fits named, ?_⟩
    obtain ⟨_, _, _, _, rfl, -⟩ := variableOf_eq_ok named
    exact Part.sound_var _ _ _ _
  | literal literal => exact ⟨readLiteral?_fits literal _, Part.sound_literal _ _ _⟩
  | @list parts conjunction type c several split items typed =>
    have right (e : Expr) (among : e ∈ parts.map Prod.snd) : Right r target.item e := by
      obtain ⟨part, mem, rfl⟩ := List.mem_map.1 among
      exact below.finds (items part mem)
    exact ⟨list_fits (fun e among => (right e among).fits) several typed _ _,
      Part.sound_list (fun e among => (right e among).sound) _ _ _⟩
  | node allowed accepted fits => exact nodeExpr?_right (accepted.right below lawful keeps) allowed fits

end Parts

variable {r : Registry} (lawful : r.Lawful) (keeps : ∀ d ∈ r.definitions, KeepsMatches d.decide)

include lawful keeps

/-- **What the reader of a registry finds is right**, however deep it may go. -/
theorem reader_right (levels : Nat) : RightReader r (r.reader levels) := by
  intro line start stop target c reading c' ends e same
  subst same
  refine finds_induction (P := fun _ _ _ target e => Right r target e) ?_ ⟨c, c', ends⟩
  intro read right line start stop target e _ origin
  refine origin.right (fun line start stop target c reading c' ends e same => ?_) lawful keeps
  subst same
  exact right line start stop target e ⟨c, c', ends⟩

theorem parseLineBy_right {read : Reader} (right : RightReader r read) {category : Category}
    {text : String} {c c' : Context} {node : Node}
    (parsed : parseLineBy r read category text c = (.ok node, c')) : RightNode r category node :=
  Accepted.right right lawful keeps (accepted_of_parseLineBy parsed)

end Parse

/-- **Every part of the tree that a line parses into is well typed**, in every registry whose definitions
leave what was matched alone, except for its type. -/
theorem parseLine_wellTyped {b : RegistryBuilder} (reachable : b.Reachable)
    (keeps : ∀ d ∈ b.definitions, KeepsMatches d.decide) {category : Category} {text : String}
    {c c' : Context} {node : Node}
    (parsed : b.build.parseLine category text c = (.ok node, c')) :
    ∀ part : Part, part.Within (.node node) → part.WellTyped b.build := by
  have right := Parse.reader_right reachable.lawful keeps c.remainingDepth
  exact (Parse.parseLineBy_right reachable.lawful keeps right parsed).2

/-- A vocabulary of sums, and of a statement that prints what it is given. -/
def sums : List Entry :=
  [.type { name := "object", plural := "objects", universal := true },
    .type { name := "number", plural := "numbers", literal := some fun s =>
      if s == "1" then some (.int 1) else none },
    .definition { category := .effect, patterns := ["print [loud:loudly] %objects%"] },
    .definition { category := .expression, patterns := ["%number% + %number%"],
                  returns := some "number" }]

/-- The parts of a line that prints a sum are well typed. -/
theorem parseLine_wellTyped_sums :
    let r := ((RegistryBuilder.withConfig {}).addAll sums).1.build
    ∃ node c, r.parseLine .effect "print 1 + 1" {} = (.ok node, c) ∧
      ∀ part : Part, part.Within (.node node) → part.WellTyped r := by
  intro r
  have parses : (r.parseLine .effect "print 1 + 1" {}).1.toOption.isSome = true := by
    decide +kernel
  have reachable := RegistryBuilder.addAll_reachable sums (.setConfig {} .new)
  have keeps : ∀ d ∈ ((RegistryBuilder.withConfig {}).addAll sums).1.definitions,
      KeepsMatches d.decide :=
    RegistryBuilder.addAll_decides
      (by simp [sums, Entry.Decides, keepsMatches_accept]) fun _ mem => (List.not_mem_nil mem).elim
  cases parsed : r.parseLine .effect "print 1 + 1" {} with
  | mk result c =>
    cases result with
    | error => simp [parsed, Except.toOption] at parses
    | ok node =>
      exact ⟨node, c, rfl, parseLine_wellTyped reachable keeps parsed⟩

end Phrasebook
