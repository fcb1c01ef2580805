import Phrasebook.Proofs.Parse.Uncancelled

/-!
# Parses that correspond

Two parses may go the same way though the definitions they try have other places in the order of registration,
or the text they read stands elsewhere. What one finds is then read as what the other finds, by a translation
of definitions and of spans. Decisions correspond if they do corresponding things to corresponding nodes.
-/

namespace Phrasebook

/-- How what one parse finds is read as what another one finds. -/
structure Translation where
  /-- the definition of the other parse by its place in the order of registration -/
  definition : Nat → Nat := id
  span : Span → Span := id

mutual

/-- An expression, read in the other parse. -/
def Expr.translate (t : Translation) : Expr → Expr
  | .literal value type span => .literal value type (t.span span)
  | .list items conjunction type span => .list (translateItems t items) conjunction type (t.span span)
  | .var name isLocal type span => .var name isLocal type (t.span span)
  | .node n type span => .node (n.translate t) type (t.span span)
  | .converted inner path type span => .converted (inner.translate t) path type (t.span span)

/-- The items of a list, read in the other parse. -/
def translateItems (t : Translation) : List Expr → List Expr
  | [] => []
  | e :: rest => e.translate t :: translateItems t rest

/-- A node, read in the other parse. -/
def Node.translate (t : Translation) : Node → Node
  | ⟨category, definition, name, patternIndex, mark, span, arguments, returns, captures, tags⟩ =>
    ⟨category, t.definition definition, name, patternIndex, mark, t.span span,
      translateArguments t arguments, returns, captures, tags⟩

/-- The arguments of a node, read in the other parse. -/
def translateArguments (t : Translation) : List (Option Expr) → List (Option Expr)
  | [] => []
  | none :: rest => none :: translateArguments t rest
  | some e :: rest => some (e.translate t) :: translateArguments t rest

end

section Translate

variable (t : Translation)

theorem translateItems_eq (items : List Expr) :
    translateItems t items = items.map (Expr.translate t) := by
  induction items with
  | nil => rfl
  | cons e rest ih => rw [translateItems, ih, List.map_cons]

theorem translateArguments_eq (arguments : List (Option Expr)) :
    translateArguments t arguments = arguments.map (Option.map (Expr.translate t)) := by
  induction arguments with
  | nil => rfl
  | cons argument rest ih => cases argument <;> rw [translateArguments, ih] <;> rfl

@[simp] theorem Expr.type_translate (e : Expr) : (e.translate t).type = e.type := by
  cases e <;> simp [Expr.translate, Expr.type]

@[simp] theorem Expr.span_translate (e : Expr) : (e.translate t).span = t.span e.span := by
  cases e <;> simp [Expr.translate, Expr.span]

@[simp] theorem Node.returns_translate (n : Node) : (n.translate t).returns = n.returns := by
  cases n
  simp [Node.translate]

@[simp] theorem Node.span_translate (n : Node) : (n.translate t).span = t.span n.span := by
  cases n
  simp [Node.translate]

/-- A near miss, read in the other parse. -/
def NearMiss.translate (t : Translation) (m : NearMiss) : NearMiss :=
  { m with definition := t.definition m.definition }

/-- A read of a local variable, at the place that it has in the other parse. -/
def Translation.read (t : Translation) (read : Span × String) : Span × String :=
  (t.span read.1, read.2)

mutual

theorem Expr.localReads_translate : (e : Expr) →
    (e.translate t).localReads = e.localReads.map t.read
  | .literal .. => by simp [Expr.translate, Expr.localReads]
  | .list items .. => by
    simp only [Expr.translate, Expr.localReads]
    exact readsOfItems_translate items
  | .var _ isLocal _ _ => by cases isLocal <;> simp [Expr.translate, Expr.localReads, Translation.read]
  | .node n .. => by
    simp only [Expr.translate, Expr.localReads]
    exact Node.localReads_translate n
  | .converted inner .. => by
    simp only [Expr.translate, Expr.localReads]
    exact Expr.localReads_translate inner

theorem readsOfItems_translate : (items : List Expr) →
    readsOfItems (translateItems t items) = (readsOfItems items).map t.read
  | [] => rfl
  | e :: rest => by
    simp only [translateItems, readsOfItems, List.map_append, Expr.localReads_translate e,
      readsOfItems_translate rest]

/-- The other parse reads the same local variables. -/
theorem Node.localReads_translate : (n : Node) →
    (n.translate t).localReads = n.localReads.map t.read
  | ⟨_, _, _, _, _, _, arguments, _, _, _⟩ => by
    simp only [Node.translate, Node.localReads]
    exact readsOfArguments_translate arguments

theorem readsOfArguments_translate : (arguments : List (Option Expr)) →
    readsOfArguments (translateArguments t arguments) = (readsOfArguments arguments).map t.read
  | [] => rfl
  | none :: rest => by
    simp only [translateArguments, readsOfArguments, readsOfArguments_translate rest]
  | some e :: rest => by
    simp only [translateArguments, readsOfArguments, List.map_append, Expr.localReads_translate e,
      readsOfArguments_translate rest]

end

mutual

theorem Expr.translate_same : (e : Expr) → e.translate {} = e
  | .literal .. | .var .. => by simp [Expr.translate]
  | .list items .. => by simp [Expr.translate, translateItems_same items]
  | .node n .. => by simp [Expr.translate, Node.translate_same n]
  | .converted inner .. => by simp [Expr.translate, Expr.translate_same inner]

theorem translateItems_same : (items : List Expr) → translateItems {} items = items
  | [] => rfl
  | e :: rest => by rw [translateItems, Expr.translate_same e, translateItems_same rest]

/-- A parse is read as itself. -/
theorem Node.translate_same : (n : Node) → n.translate {} = n
  | ⟨_, _, _, _, _, _, arguments, _, _, _⟩ => by
    simp [Node.translate, translateArguments_same arguments]

theorem translateArguments_same : (arguments : List (Option Expr)) →
    translateArguments {} arguments = arguments
  | [] => rfl
  | none :: rest => by rw [translateArguments, translateArguments_same rest]
  | some e :: rest => by
    rw [translateArguments, Expr.translate_same e, translateArguments_same rest]

end

end Translate

/-- What two parses have to do with each other. -/
structure Correspondence extends Translation where
  /-- what decisions see in the two -/
  views : View → View → Prop
  /-- what they may report -/
  reports : Diagnostic → Diagnostic → Prop
  /-- they may ask to cancel -/
  cancels : Prop := True

namespace Correspondence

/-- A parse and another one of the same text, which decisions may cancel or not. -/
def same (cancels : Prop) : Correspondence where
  views := Eq
  reports := Eq
  cancels

end Correspondence

/-- Two changes are the same, or report corresponding things. -/
inductive Edit.Corresponds (p : Correspondence) : Edit → Edit → Prop
  | report {d d' : Diagnostic} : p.reports d d' → Corresponds p (.report d) (.report d')
  | declare (name : String) : Corresponds p (.declare name) (.declare name)
  | pushScope : Corresponds p .pushScope .pushScope
  | popScope : Corresponds p .popScope .popScope
  | cancel : p.cancels → Corresponds p .cancel .cancel

/-- Two actions do corresponding things. A text that is parsed on the way is read from its own beginning, so
it is read alike only where spans stay as they are. -/
inductive Action.Corresponds (p : Correspondence) : Action → Action → Prop
  | accept (node : Node) : Corresponds p (.accept node) (.accept (node.translate p.toTranslation))
  | reject (reason : String) : Corresponds p (.reject reason) (.reject reason)
  | look {next next' : View → Action} :
    (∀ view view', p.views view view' → Corresponds p (next view) (next' view')) →
      Corresponds p (.look next) (.look next')
  | edit {change change' : Edit} {next next' : Action} : change.Corresponds p change' →
      Corresponds p next next' → Corresponds p (.edit change next) (.edit change' next')
  | parse {next next' : Except Fault Expr → Action} (text : String) (types : List PatternType) :
    p.span = id →
    (∀ result, Corresponds p (next result) (next' (result.map (Expr.translate p.toTranslation)))) →
      Corresponds p (.parse text types next) (.parse text types next')

theorem Edit.corresponds_same {cancels : Prop} {change : Edit} (may : cancels ∨ change ≠ .cancel) :
    change.Corresponds (.same cancels) change := by
  cases change with
  | report d => exact .report rfl
  | declare name => exact .declare name
  | pushScope => exact .pushScope
  | popScope => exact .popScope
  | cancel => exact .cancel (may.resolve_right fun other => other rfl)

theorem Expr.map_translate_same {ε : Type} (result : Except ε Expr) :
    result.map (Expr.translate {}) = result := by
  cases result with
  | ok e => exact congrArg Except.ok e.translate_same
  | error fault => rfl

theorem Node.map_translate_same {ε : Type} (result : Except ε Node) :
    result.map (Node.translate {}) = result := by
  cases result with
  | ok node => exact congrArg Except.ok node.translate_same
  | error fault => rfl

/-- A decision corresponds to itself, where it may ask to cancel or never does. -/
theorem Action.corresponds_same {cancels : Prop} {action : Action} (may : cancels ∨ action.NeverCancels) :
    action.Corresponds (.same cancels) action := by
  induction action with
  | accept node =>
    have same := Action.Corresponds.accept (p := .same cancels) node
    rwa [show node.translate (Correspondence.same cancels).toTranslation = node from node.translate_same] at same
  | reject reason => exact .reject reason
  | look next ih =>
    refine .look fun view view' eq => ?_
    cases eq
    exact ih view (may.imp_right fun never => never view)
  | edit change next ih =>
    exact .edit (Edit.corresponds_same (may.imp_right And.left)) (ih (may.imp_right And.right))
  | parse text types next ih =>
    refine .parse text types rfl fun result => ?_
    rw [show result.map (Expr.translate (Correspondence.same cancels).toTranslation) = result from
      Expr.map_translate_same result]
    exact ih result (may.imp_right fun never => never result)

end Phrasebook
