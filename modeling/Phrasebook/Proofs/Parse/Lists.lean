import Phrasebook.Proofs.Parse.WellTyped

/-!
# The types of lists

A list has the type of its items if they have one type, and otherwise the first of the types that were asked for where
it was read: in the end, by a placeholder, or by a decision that has a text parsed. So all items can be used as the
type of their list if they have one type, or if all can be used as the first that was asked for, and otherwise not:
where several types may stand side by side, a list can hold items that are not of its type.
-/

namespace Phrasebook

namespace Part

variable {P : List Expr → PatternType → Prop}

/-- All lists within a part of a tree satisfy a condition, by their items and their type. -/
def Lists (P : List Expr → PatternType → Prop) (x : Part) : Prop :=
  ∀ items conjunction type span, Part.Within (.expr (.list items conjunction type span)) x → P items type

theorem lists_literal (value : Value) (type : PatternType) (span : Span) :
    Lists P (.expr (.literal value type span)) := by
  intro items conjunction type' span' within
  cases within

theorem lists_var (name : String) (isLocal : Bool) (type : PatternType) (span : Span) :
    Lists P (.expr (.var name isLocal type span)) := by
  intro items conjunction type' span' within
  cases within

theorem lists_list {items : List Expr} {type : PatternType} (here : P items type)
    (inside : ∀ e ∈ items, Lists P (.expr e)) (conjunction : Conjunction) (span : Span) :
    Lists P (.expr (.list items conjunction type span)) := by
  intro items' conjunction' type' span' within
  cases within with
  | self => exact here
  | item among within => exact inside _ among _ _ _ _ within

theorem lists_converted {inner : Expr} (inside : Lists P (.expr inner)) (path : List TypeId) (type : PatternType)
    (span : Span) : Lists P (.expr (.converted inner path type span)) := by
  intro items conjunction type' span' within
  cases within with
  | inner within => exact inside _ _ _ _ within

theorem lists_expr_node {n : Node} (inside : Lists P (.node n)) (type : PatternType) (span : Span) :
    Lists P (.expr (.node n type span)) := by
  intro items conjunction type' span' within
  cases within with
  | node within => exact inside _ _ _ _ within

theorem lists_node_iff {n : Node} :
    Lists P (.node n) ↔ ∀ e, some e ∈ n.arguments → Lists P (.expr e) := by
  constructor
  · intro inside e among items conjunction type span within
    exact inside _ _ _ _ (.argument among within)
  · intro inside items conjunction type span within
    cases within with
    | argument among within => exact inside _ among _ _ _ _ within

end Part

namespace Action

/-- The lists of every node that a decision accepts satisfy a condition, if those of the texts do that it has
parsed. -/
def AcceptsLists (P : List Expr → PatternType → Prop) : Action → Prop
  | .accept node => Part.Lists P (.node node)
  | .reject _ => True
  | .look next => ∀ view, (next view).AcceptsLists P
  | .edit _ next => next.AcceptsLists P
  | .parse _ _ next =>
    ∀ result : Except Fault Expr, (∀ e, result = .ok e → Part.Lists P (.expr e)) → (next result).AcceptsLists P

/-- A decision may have a text parsed as an expression of one of some types. -/
inductive Requests (types : List PatternType) : Action → Prop where
  | here (text : String) (next : Except Fault Expr → Action) : Requests types (.parse text types next)
  | look {next : View → Action} (view : View) (h : (next view).Requests types) : Requests types (.look next)
  | edit {change : Edit} {next : Action} (h : next.Requests types) : Requests types (.edit change next)
  | parse {text : String} {asked : List PatternType} {next : Except Fault Expr → Action} (result : Except Fault Expr)
    (h : (next result).Requests types) : Requests types (.parse text asked next)

end Action

/-- A definition makes up no lists: those of a node that it accepts were matched, or stand in a text that it has
parsed. -/
def MakesNoLists (decide : Node → Action) : Prop :=
  ∀ (P : List Expr → PatternType → Prop) (node : Node), Part.Lists P (.node node) → (decide node).AcceptsLists P

/-- The types that may be asked for where a list is read: those of the whole, those of a placeholder, or those that a
decision asks for. -/
inductive Registry.Asks (r : Registry) (expected : List PatternType) : List TypeId → Prop where
  | whole : r.Asks expected (expected.map PatternType.type)
  | placeholder {d : Definition} {p : Pattern} {q : Pattern.Placeholder} (defined : d ∈ r.definitions)
    (among : p ∈ d.patterns) (slot : q ∈ p.placeholders) : r.Asks expected (q.types.map PatternType.type)
  | request {d : Definition} {node : Node} {types : List PatternType} (defined : d ∈ r.definitions)
    (requests : (d.decide node).Requests types) : r.Asks expected (types.map PatternType.type)

/-- How a list is typed where some types were asked for. -/
structure ListTyped (types : TypeSystem) (asked : List TypeId) (items : List Expr) (type : PatternType) : Prop where
  several : type.single = false
  each : ∀ item ∈ items, ∃ t ∈ asked, types.table.isAssignable item.type.type t = true
  /-- the items have its type, or they have not one type and it is the first that was asked for -/
  choice : (∀ item ∈ items, item.type.type = type.type) ∨
    (¬ ∃ t, ∀ item ∈ items, item.type.type = t) ∧ asked.head? = some type.type

/-- The items of a list can be used as its type if they have one type, or if all can be used as the first that was
asked for, and otherwise not. -/
theorem ListTyped.assignable_iff {types : TypeSystem} {asked : List TypeId} {items : List Expr} {type : PatternType}
    (typed : ListTyped types asked items type) :
    (∀ item ∈ items, types.table.isAssignable item.type.type type.type = true) ↔
      (∃ t, ∀ item ∈ items, item.type.type = t) ∨ ∃ first, asked.head? = some first ∧
        ∀ item ∈ items, types.table.isAssignable item.type.type first = true := by
  have agree (same : ∀ item ∈ items, item.type.type = type.type) :
      ∀ item ∈ items, types.table.isAssignable item.type.type type.type = true := by
    intro item mem
    rw [same item mem]
    exact Parse.isAssignable_self _ _
  rcases typed.choice with same | ⟨differ, head⟩
  · exact ⟨fun _ => .inl ⟨_, same⟩, fun _ => agree same⟩
  · rw [or_iff_right differ]
    constructor
    · exact fun assignable => ⟨_, head, assignable⟩
    · rintro ⟨first, head', assignable⟩
      obtain rfl : first = type.type := Option.some.inj (head'.symm.trans head)
      exact assignable

namespace Parse
open Text Pattern Match

/-- The type of a list is chosen by its items and by what is expected. -/
theorem listType?_choice {items : List Expr} {target : Target} {type : TypeId}
    (found : listType? items target = some type) :
    (∀ item ∈ items, item.type.type = type) ∨
      (¬ ∃ t, ∀ item ∈ items, item.type.type = t) ∧ (target.types.map PatternType.type).head? = some type := by
  unfold listType? at found
  split at found
  next first rest =>
    split at found
    next same =>
      cases found
      exact .inl fun item mem => beq_iff_eq.1 (List.all_eq_true.1 same item mem)
    next differ =>
      refine .inr ⟨?_, by rw [List.head?_map, found]⟩
      rintro ⟨t, same⟩
      refine differ (List.all_eq_true.2 fun item mem => ?_)
      rw [same item mem, same first List.mem_cons_self]
      exact beq_self_eq_true t
  next => exact .inl fun _ mem => (List.not_mem_nil mem).elim

section Reading

variable {r : Registry} {read : Reader} {line : Line} {start stop : Nat}

/-- A text that is read as an expression was found to be one. -/
theorem finds_of_readText {text : String} {types : List PatternType} {c c' : Context} {e : Expr}
    (h : readText r read text types c = (.ok e, c')) :
    Finds read (Line.ofString text) 0 (Line.ofString text).size (.ofTypes types) e := by
  unfold readText at h
  cases ran : read (Line.ofString text) 0 (Line.ofString text).size (.ofTypes types) { c with rejections := {} } with
  | mk result after =>
    simp only [ran] at h
    split at h <;> cases h
    exact ⟨_, _, ran⟩

/-- What a decision accepts that makes up no lists has those of its texts and no others. -/
theorem carryOut_lists {P : List Expr → PatternType → Prop} {action : Action} (accepts : action.AcceptsLists P)
    (texts : ∀ types, action.Requests types → ∀ line start stop e,
      Finds read line start stop (.ofTypes types) e → Part.Lists P (.expr e))
    {c c' : Context} {node : Node} (h : carryOut r read action c = (.ok node, c')) : Part.Lists P (.node node) := by
  induction action generalizing c with
  | accept =>
    cases h
    exact accepts
  | reject => cases h
  | look next ih => exact ih (r.view c) (accepts _) (fun types requests => texts types (.look _ requests)) h
  | edit change next ih => exact ih accepts (fun types requests => texts types (.edit requests)) h
  | parse text types next ih =>
    refine ih _ (accepts _ fun e same => ?_) (fun types requests => texts types (.parse _ requests)) h
    exact texts types (.here text next) _ _ _ e (finds_of_readText (Prod.ext same rfl))

/-- The lists of a match are those of its arguments. -/
theorem Matches.lists {P : List Expr → PatternType → Prop} {p : Pattern} (sound : p.Sound) {found : Found Expr}
    (matches_ : Matches read line start stop p found)
    (arguments : ∀ q ∈ p.placeholders, ∀ low high e, Finds read line low high (.ofPlaceholder q) e →
      Part.Lists P (.expr e)) : ∀ e, some e ∈ found.arguments → Part.Lists P (.expr e) := by
  intro e among
  obtain ⟨q, slot, low, high, -, finds⟩ := matches_.argument_within sound among
  exact arguments q slot low high e finds

end Reading

/-- What was read for a target can be used as one of its types. All its lists are typed by what was asked for, if the
types of the target are among that. -/
structure TypedLists (r : Registry) (expected : List PatternType) (target : Target) (e : Expr) : Prop where
  assignable : ∃ t ∈ target.types, r.types.table.isAssignable e.type.type t.type = true
  lists : r.Asks expected (target.types.map PatternType.type) →
    Part.Lists (fun items type => ∃ asked, r.Asks expected asked ∧ ListTyped r.types asked items type) (.expr e)

section Forms

variable {r : Registry} {read : Reader} {line : Line} {start stop : Nat} {expected : List PatternType}
  (below : ∀ line start stop target e, Finds read line start stop target e → TypedLists r expected target e)
  (lawful : r.Lawful) (makes : ∀ d ∈ r.definitions, MakesNoLists d.decide)

include below lawful makes

/-- The lists of a node that is accepted are typed by what was asked for. -/
theorem Accepted.lists {category : Category} {node : Node}
    (accepted : Accepted r read line start stop category node) :
    Part.Lists (fun items type => ∃ asked, r.Asks expected asked ∧ ListTyped r.types asked items type)
      (.node node) := by
  obtain ⟨x, among, found, c, c', matches_, decided⟩ := accepted
  have of := lawful category x among
  have defined := List.mem_of_getElem? of.definition
  refine carryOut_lists (makes _ defined _ _ (Part.lists_node_iff.2 ?_)) (fun types requests => ?_) decided
  · refine matches_.lists of.sound fun q slot low high e finds => ?_
    exact (below _ _ _ _ _ finds).lists (.placeholder defined (List.mem_of_getElem? of.pattern) slot)
  · exact fun line start stop e finds => (below _ _ _ _ _ finds).lists (.request defined requests)

/-- **Every form of expression has its lists typed by what was asked for**, if its parts do. -/
theorem Origin.typedLists {target : Target} {e : Expr} (origin : Origin r read line start stop target e) :
    TypedLists r expected target e := by
  cases origin with
  | parenthesised _ inner => exact below _ _ _ _ _ inner
  | var named =>
    refine ⟨(variableOf_fits named).assignable, fun _ => ?_⟩
    obtain ⟨_, _, _, _, rfl, -⟩ := variableOf_eq_ok named
    exact Part.lists_var _ _ _ _
  | literal literal => exact ⟨(readLiteral?_fits literal default).assignable, fun _ => Part.lists_literal _ _ _⟩
  | @list parts conjunction type c several split items typed =>
    have part (item : Expr) (mem : item ∈ parts.map Prod.snd) : TypedLists r expected target.item item := by
      obtain ⟨part, among, rfl⟩ := List.mem_map.1 mem
      exact below _ _ _ _ _ (items part among)
    have same : target.item.types.map PatternType.type = target.types.map PatternType.type := by
      simp [Target.item, PatternType.one, Function.comp_def]
    have each (item : Expr) (mem : item ∈ parts.map Prod.snd) :
        ∃ t ∈ target.types.map PatternType.type, r.types.table.isAssignable item.type.type t = true := by
      obtain ⟨t, among, assignable⟩ := (part item mem).assignable
      exact ⟨t.type, same ▸ List.mem_map_of_mem among, assignable⟩
    refine ⟨listType?_assignable (fun item mem => (part item mem).assignable) typed, fun asked => ?_⟩
    have inside (item : Expr) (mem : item ∈ parts.map Prod.snd) := (part item mem).lists (same ▸ asked)
    exact Part.lists_list ⟨_, asked, rfl, each, listType?_choice typed⟩ inside _ _
  | node allowed accepted fits =>
    have inside := accepted.lists below lawful makes
    obtain ⟨type, -, coerced⟩ := nodeExpr?_eq_some fits
    obtain ⟨assignable, rfl | ⟨path, type', rfl, -, -⟩⟩ := coerceExpr?_eq_some coerced
    · exact ⟨assignable, fun _ => Part.lists_expr_node inside _ _⟩
    · exact ⟨assignable, fun _ => Part.lists_converted (Part.lists_expr_node inside _ _) _ _ _⟩

end Forms

/-- What a registry reads has its lists typed by what was asked for, however deep it may go. -/
theorem reader_typedLists {r : Registry} (lawful : r.Lawful) (makes : ∀ d ∈ r.definitions, MakesNoLists d.decide)
    (expected : List PatternType) {levels : Nat} {line : Line} {start stop : Nat} {target : Target} {e : Expr}
    (finds : Finds (r.reader levels) line start stop target e) : TypedLists r expected target e :=
  finds_induction (P := fun _ _ _ target e => TypedLists r expected target e)
    (fun _ below _ _ _ _ _ _ origin => origin.typedLists below lawful makes) finds

end Parse

/-- **The types of lists.** In every registry whose definitions make up no lists, every item of a list anywhere in
what a text is read as can be used as one of the types that were asked for where the list stands. All items can be used
as the type of the list if they have one type, or if all can be used as the first type that was asked for, and
otherwise not; so they can wherever one type was asked for. -/
theorem parseExpression_lists {b : RegistryBuilder} (reachable : b.Reachable)
    (makes : ∀ d ∈ b.definitions, MakesNoLists d.decide) {text : String} {expected : List PatternType}
    {c c' : Context} {e : Expr} (parsed : b.build.parseExpression text expected c = (.ok e, c'))
    {items : List Expr} {conjunction : Conjunction} {type : PatternType} {span : Span}
    (within : Part.Within (.expr (.list items conjunction type span)) (.expr e)) :
    let usable (item : Expr) (t : TypeId) := b.build.types.table.isAssignable item.type.type t = true
    ∃ asked, b.build.Asks expected asked ∧ (∀ item ∈ items, ∃ t ∈ asked, usable item t) ∧
      ((∀ item ∈ items, usable item type.type) ↔
        (∃ t, ∀ item ∈ items, item.type.type = t) ∨
          ∃ first, asked.head? = some first ∧ ∀ item ∈ items, usable item first) ∧
      (asked.length = 1 → ∀ item ∈ items, usable item type.type) := by
  intro usable
  have typed := Parse.reader_typedLists reachable.lawful makes expected (Parse.finds_of_readText parsed)
  obtain ⟨asked, asks, typed⟩ := typed.lists .whole _ _ _ _ within
  refine ⟨asked, asks, typed.each, typed.assignable_iff, fun one => typed.assignable_iff.2 (.inr ?_)⟩
  obtain ⟨first, rfl⟩ := List.length_eq_one_iff.1 one
  refine ⟨first, rfl, fun item mem => ?_⟩
  obtain ⟨t, among, assignable⟩ := typed.each item mem
  rwa [List.mem_singleton.1 among] at assignable

/-- A vocabulary of two types of literals. -/
def tallies : List Entry :=
  [.type { name := "number", plural := "numbers", literal := some fun s => if s == "1" then some (.int 1) else none },
    .type { name := "word", plural := "words", literal := some fun s => if s == "one" then some (.int 1) else none }]

/-- Where numbers and words are asked for, a list of a number and a word has the type of numbers. -/
theorem parseExpression_lists_tallies :
    let r := ((RegistryBuilder.withConfig {}).addAll tallies).1.build
    let expected := [PatternType.several 0, PatternType.several 1]
    ∃ e c, r.parseExpression "1 and one" expected {} = (.ok e, c) ∧ e.type = .several 0 ∧
      e.items.map (fun item => item.type.type) = [0, 1] ∧
      ∀ items conjunction type span, Part.Within (.expr (.list items conjunction type span)) (.expr e) →
        ∃ asked, r.Asks expected asked ∧
          (∀ item ∈ items, ∃ t ∈ asked, r.types.table.isAssignable item.type.type t = true) ∧
          ((∀ item ∈ items, r.types.table.isAssignable item.type.type type.type = true) ↔
            (∃ t, ∀ item ∈ items, item.type.type = t) ∨ ∃ first, asked.head? = some first ∧
              ∀ item ∈ items, r.types.table.isAssignable item.type.type first = true) := by
  intro r expected
  have reachable := RegistryBuilder.addAll_reachable tallies (.setConfig {} .new)
  have none : ((RegistryBuilder.withConfig {}).addAll tallies).1.definitions = [] := by decide +kernel
  have reads : (r.parseExpression "1 and one" expected {}).1.toOption.map
      (fun e => (e.type, e.items.map fun item => item.type.type)) = some (.several 0, [0, 1]) := by
    decide +kernel
  cases parsed : r.parseExpression "1 and one" expected {} with
  | mk result c =>
    cases result with
    | error => simp [parsed, Except.toOption] at reads
    | ok e =>
      rw [parsed] at reads
      obtain ⟨type, items⟩ := Prod.mk.inj (Option.some.inj reads)
      refine ⟨e, c, rfl, type, items, fun items conjunction type span within => ?_⟩
      have makes : ∀ d ∈ ((RegistryBuilder.withConfig {}).addAll tallies).1.definitions, MakesNoLists d.decide := by
        rw [none]
        exact fun _ mem => (List.not_mem_nil mem).elim
      obtain ⟨asked, asks, each, usable, -⟩ := parseExpression_lists reachable makes parsed within
      exact ⟨asked, asks, each, usable⟩

end Phrasebook
