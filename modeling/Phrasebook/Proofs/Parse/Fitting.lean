import Phrasebook.Parse.Expression

/-!
# Expressions that fit

`Fits` says what a placeholder demands of an expression that fills it: the type, the number of values, the
kind of expression, and whether conditions may stand there. Every form of expression meets it, given that its
parts do.
-/

namespace Phrasebook

namespace Expr

/-- The items of a list. -/
def items : Expr → List Expr
  | list items _ _ _ => items
  | literal .. | var .. | node .. | converted .. => []

/-- An expression is a list. -/
def isList : Expr → Bool
  | list .. => true
  | literal .. | var .. | node .. | converted .. => false

/-- An expression is a single literal. -/
def isValue : Expr → Bool
  | literal .. => true
  | list .. | var .. | node .. | converted .. => false

/-- An expression is a condition. -/
def isCondition : Expr → Bool
  | node n _ _ => n.category == .condition
  | literal .. | list .. | var .. | converted .. => false

/-- What an expression shows: itself, and what its items show if it is a list, or what stands within its
converters. -/
inductive Shows : Expr → Expr → Prop where
  | self (e) : Shows e e
  | item {e items conjunction type span x} (among : e ∈ items) (h : Shows e x) :
    Shows (.list items conjunction type span) x
  | inner {inner path type span x} (h : Shows inner x) : Shows (.converted inner path type span) x

end Expr

/-- An expression meets the demands of a target. -/
structure Fits (types : TypeSystem) (target : Target) (e : Expr) : Prop where
  /-- its type is assignable to one of the types -/
  assignable : ∃ t ∈ target.types, types.table.isAssignable e.type.type t.type = true
  /-- it stands for one value where one is expected -/
  single : target.single = true → e.type.single = true
  /-- it is a list only where several values are expected -/
  list : e.isList = true → target.single = false
  /-- where literals are expected it is a literal or a list of literals -/
  literals : target.acceptance = .literals →
    e.isValue = true ∨ e.isList = true ∧ ∀ item ∈ e.items, item.isValue = true
  /-- where no literals are expected it is no literal and no list with a literal item -/
  nonLiterals : target.acceptance = .nonLiterals →
    e.isValue = false ∧ ∀ item ∈ e.items, item.isValue = false
  /-- it shows a condition only where conditions are allowed -/
  conditions : ∀ x, e.Shows x → x.isCondition = true → target.conditions = true

namespace Parse
open Text Pattern

@[simp] theorem isAssignable_self (t : TypeTable) (id : TypeId) : t.isAssignable id id = true := by
  simp [TypeTable.isAssignable]

/-- A type that is assignable to one of those expected, with as many values as are expected. -/
structure Expected (types : TypeSystem) (target : Target) (type : PatternType) : Prop where
  assignable : ∃ t ∈ target.types, types.table.isAssignable type.type t.type = true
  single : type.single = target.single

theorem coerceValue?_expected {types : TypeSystem} {value value' : Value} {actual : TypeId}
    {target : Target} {type : PatternType}
    (h : coerceValue? types value actual target = some (value', type)) :
    Expected types target type := by
  unfold coerceValue? at h
  split at h
  next direct =>
    cases h
    exact ⟨by simpa using direct, rfl⟩
  next =>
    obtain ⟨t, among, found⟩ := List.exists_of_findSome?_eq_some h
    split at found
    · cases found
      exact ⟨⟨t, among, isAssignable_self _ _⟩, rfl⟩
    · cases found

theorem literal?_expected {types : TypeSystem} {text : String} {target : Target} {value : Value}
    {type : PatternType} (h : literal? types text target = some (value, type)) :
    Expected types target type := by
  unfold literal? at h
  rcases Option.or_eq_some_iff.1 h with own | ⟨-, other⟩
  · obtain ⟨t, -, found⟩ := List.exists_of_findSome?_eq_some own
    split at found
    · exact coerceValue?_expected found
    · cases found
  · obtain ⟨⟨entry, id⟩, -, found⟩ := List.exists_of_findSome?_eq_some other
    dsimp only at found
    split at found
    · obtain ⟨value', -, coerced⟩ := Option.bind_eq_some_iff.1 found
      exact coerceValue?_expected coerced
    · cases found

/-- A literal fits, and stands only where literals are accepted. -/
theorem readLiteral?_fits {types : TypeSystem} {text : List Char} {target : Target} {value : Value}
    {type : PatternType} (h : readLiteral? types text target = some (value, type)) (span : Span) :
    Fits types target (.literal value type span) := by
  unfold readLiteral? at h
  split at h
  · cases h
  next accepted =>
  have expected : Expected types target type := by
    split at h
    · obtain ⟨string, -, coerced⟩ := Option.bind_eq_some_iff.1 h
      exact coerceValue?_expected coerced
    · exact literal?_expected h
  refine ⟨expected.assignable, fun single => expected.single.trans single, nofun, fun _ => .inl rfl,
    fun nonLiterals => ?_, fun x shows_ condition => ?_⟩
  · simp [nonLiterals] at accepted
  · cases shows_
    cases condition

/-- A variable that is read for a target has its first type, and one value where one is expected. -/
theorem variableOf_eq_ok {name : List Char} {span : Span} {target : Target} {e : Expr}
    (h : variableOf name span target = .ok e) :
    ∃ text isLocal first single, e = .var text isLocal ⟨first.type, single⟩ span ∧
      target.types.head? = some first ∧ (target.single = true → single = true) ∧
      target.acceptance ≠ .literals := by
  unfold variableOf at h
  dsimp only at h
  split at h
  · cases h
  next accepted =>
  split at h
  · cases h
  split at h
  · cases h
  next single =>
  split at h
  · cases h
  next first rest same =>
  cases h
  refine ⟨_, _, first, _, rfl, by rw [same, List.head?_cons], fun one => ?_, ?_⟩
  · simpa [one] using single
  · simpa using accepted

/-- A variable fits. -/
theorem variableOf_fits {types : TypeSystem} {name : List Char} {span : Span} {target : Target}
    {e : Expr} (h : variableOf name span target = .ok e) : Fits types target e := by
  obtain ⟨text, isLocal, first, single, rfl, head, one, accepted⟩ := variableOf_eq_ok h
  refine ⟨⟨first, List.mem_of_head? head, isAssignable_self _ _⟩, one, nofun,
    fun literals => absurd literals accepted, fun _ => ⟨rfl, nofun⟩, fun x shows_ condition => ?_⟩
  cases shows_
  cases condition

/-- A list whose items can be used as what is expected of an item can be used as what is expected. -/
theorem listType?_assignable {types : TypeSystem} {target : Target} {items : List Expr}
    (each : ∀ e ∈ items, ∃ t ∈ target.item.types, types.table.isAssignable e.type.type t.type = true) {type : TypeId}
    (found : listType? items target = some type) :
    ∃ t ∈ target.types, types.table.isAssignable type t.type = true := by
  have head : target.types.head?.map PatternType.type = some type →
      ∃ t ∈ target.types, types.table.isAssignable type t.type = true := by
    intro h
    obtain ⟨t, among, rfl⟩ := Option.map_eq_some_iff.1 h
    exact ⟨t, List.mem_of_head? among, isAssignable_self _ _⟩
  unfold listType? at found
  split at found
  next first rest =>
    split at found
    · cases found
      obtain ⟨t, among, assignable⟩ := each first List.mem_cons_self
      simp only [Target.item, List.mem_map] at among
      obtain ⟨t', among, rfl⟩ := among
      exact ⟨t', among, assignable⟩
    · exact head found
  · exact head found

/-- A list of items that fit fits where several values are expected. -/
theorem list_fits {types : TypeSystem} {target : Target} {items : List Expr}
    (fit : ∀ e ∈ items, Fits types target.item e) (several : target.single = false)
    {type : TypeId} (found : listType? items target = some type) (conjunction : Conjunction)
    (span : Span) : Fits types target (.list items conjunction (.several type) span) := by
  -- an item is no list, since one value is expected of it
  have flat (e : Expr) (among : e ∈ items) : e.isList = false := by
    cases isList : e.isList with
    | false => rfl
    | true => cases (fit e among).list isList
  refine ⟨listType?_assignable (fun e among => (fit e among).assignable) found, fun single => ?_, fun _ => several,
    fun literals => .inr ⟨rfl, fun item among => ?_⟩, fun nonLiterals => ⟨rfl, fun item among => ?_⟩,
    fun x shows_ condition => ?_⟩
  · rw [several] at single
    cases single
  · rcases (fit item among).literals literals with value | ⟨isList, -⟩
    · exact value
    · rw [flat item among] at isList
      cases isList
  · exact ((fit item among).nonLiterals nonLiterals).1
  · cases shows_ with
    | self => cases condition
    | item among shows_ => exact (fit _ among).conditions x shows_ condition

/-- Only expressions and conditions are tried where an expression is expected. -/
theorem mem_categoriesFor {target : Target} {category : Category} (h : category ∈ categoriesFor target) :
    category = .expression ∨ category = .condition := by
  unfold categoriesFor at h
  split at h
  · exact (List.not_mem_nil h).elim
  · split at h
    · simpa using h
    · exact .inl (List.mem_singleton.1 h)

/-- The categories of syntax that are tried are those that a target allows. -/
theorem category_allowed {target : Target} {category : Category}
    (h : category ∈ categoriesFor target) :
    target.acceptance ≠ .literals ∧ (category = .condition → target.conditions = true) := by
  unfold categoriesFor at h
  split at h
  · cases h
  next accepted =>
  refine ⟨by simpa using accepted, fun condition => ?_⟩
  split at h
  next allowed => exact allowed
  · simp [condition] at h

/-- A conversion leads along the chain from the type of what it converts to its own. -/
def Converts (types : TypeSystem) (inner : Expr) (path : List TypeId) (type : PatternType) : Prop :=
  ∃ chain, types.path? inner.type.type type.type = some chain ∧ path = types.pathTypes chain

/-- An expression as one that is expected is the expression, or a conversion of it. -/
theorem coerceExpr?_eq_some {types : TypeSystem} {e e' : Expr} {target : Target}
    (h : coerceExpr? types e target = some e') :
    (∃ t ∈ target.types, types.table.isAssignable e'.type.type t.type = true) ∧
      (e' = e ∨ ∃ path type, e' = .converted e path type e.span ∧ type.single = e.type.single ∧
        Converts types e path type) := by
  unfold coerceExpr? at h
  split at h
  next direct =>
    cases h
    exact ⟨by simpa using direct, .inl rfl⟩
  next =>
    obtain ⟨t, among, found⟩ := List.exists_of_findSome?_eq_some h
    obtain ⟨chain, path, rfl⟩ := Option.map_eq_some_iff.1 found
    exact ⟨⟨t, among, isAssignable_self _ _⟩, .inr ⟨_, _, rfl, rfl, chain, path, rfl⟩⟩

/-- A node with a type is an expression that stands where the node stands, once it has an expected type. -/
theorem nodeExpr?_eq_some {types : TypeSystem} {node : Node} {target : Target} {e : Expr}
    (h : nodeExpr? types node target = some e) :
    ∃ type, (target.single = true → type.single = true) ∧
      coerceExpr? types (.node node type node.span) target = some e := by
  unfold nodeExpr? at h
  split at h
  · cases h
  next type returns =>
  split at h
  · cases h
  next fitting =>
  exact ⟨type, fun one => by simpa [one] using fitting, h⟩

/-- A node of a category that is tried fits once it has an expected type. -/
theorem nodeExpr?_fits {types : TypeSystem} {node : Node} {target : Target} {e : Expr}
    (allowed : node.category ∈ categoriesFor target) (h : nodeExpr? types node target = some e) :
    Fits types target e ∧ ∃ type, e = .node node type node.span ∨
      ∃ path type', e = .converted (.node node type node.span) path type' node.span ∧
        Converts types (.node node type node.span) path type' := by
  obtain ⟨accepted, conditions⟩ := category_allowed allowed
  obtain ⟨type, fitting, h⟩ := nodeExpr?_eq_some h
  obtain ⟨assignable, same | ⟨path, type', same, single, converts⟩⟩ := coerceExpr?_eq_some h
  · subst same
    refine ⟨⟨assignable, fitting, nofun, fun literals => absurd literals accepted,
      fun _ => ⟨rfl, nofun⟩, fun x shows_ condition => ?_⟩, type, .inl rfl⟩
    cases shows_
    exact conditions (by simpa [Expr.isCondition] using condition)
  · subst same
    refine ⟨⟨assignable, fun one => ?_, nofun, fun literals => absurd literals accepted,
      fun _ => ⟨rfl, nofun⟩, fun x shows_ condition => ?_⟩,
      type, .inr ⟨path, type', rfl, converts⟩⟩
    · rw [Expr.type, single]
      exact fitting one
    · cases shows_ with
      | self => cases condition
      | inner shows_ =>
        cases shows_
        exact conditions (by simpa [Expr.isCondition] using condition)

end Parse

end Phrasebook
