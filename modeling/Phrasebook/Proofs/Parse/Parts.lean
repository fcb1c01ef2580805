import Phrasebook.Proofs.Match.Lockstep
import Phrasebook.Proofs.Parse.Stretch

/-!
# A form is read as its parts are

A relation between the steps of two parses that putting steps together keeps holds of every form of
expression, if it holds of the parts of the form and of the syntax that is tried last. What stands in
parentheses and the items of a list are shorter than the form.
-/

namespace Phrasebook.Parse
open Text

/-- A step of which nothing is left but its result if it finds nothing. -/
def orUndone {β : Type} (x : Parsing (Option β)) : Parsing (Option β) := do
  let before ← Parsing.checkpoint
  match ← x with
  | none =>
    Parsing.change fun c => c.rollback before
    pure none
  | some b => pure (some b)

/-- The list of some items. -/
def listOf (target : Target) (conjunction : Conjunction) (items : List Expr) (span : Span) : Option Expr :=
  (listType? items target).map fun type => .list items conjunction (.several type) span

variable {r r' : Registry} {line : Line} {read read' : Reader} {start stop : Nat} {target : Target}

/-- A list is read by its items, all or none. -/
theorem readList_eq (r : Registry) (read : Reader) (line : Line) (start stop : Nat) (target : Target) :
    readList r read line start stop target =
      match splitList? line start stop r.config.listSeparators with
      | none => pure none
      | some (items, conjunction) =>
        orUndone (readItems read line target.item items) >>= fun
          | none => pure none
          | some items => spanOf line start stop >>= fun span => pure (listOf target conjunction items span) := by
  unfold readList orUndone spanOf
  cases splitList? line start stop r.config.listSeparators with
  | none => rfl
  | some found =>
    obtain ⟨items, conjunction⟩ := found
    simp only [bind_assoc]
    refine bind_congr fun before => bind_congr fun items? => ?_
    cases items? with
    | none => simp only [bind_assoc, pure_bind]
    | some items => simp only [pure_bind, listOf]

section Related

variable {R : StepRelation Parsing} (composes : R.Composes)
  (parts : ∀ part target, ProperPart start stop part →
    R _ (read line part.1 part.2 target) (read' line part.1 part.2 target))

include composes

/-- What stands in parentheses is shorter by them, but may be nothing. -/
theorem related_parenthesised
    (part : start + 2 ≤ stop → R _ (read line (start + 1) (stop - 1) target)
      (read' line (start + 1) (stop - 1) target)) :
    R _ (readParenthesised read line start stop target)
      (readParenthesised read' line start stop target) := by
  unfold readParenthesised
  split
  case isTrue enclosed =>
    have room := length_of_isEnclosed (by decide) enclosed
    have less : start + 2 ≤ stop := by
      rcases size_of_slice room with less | none
      · exact less
      · cases none
    refine composes.bind (part less) fun reading => ?_
    cases reading <;> exact composes.pure _
  case isFalse => exact composes.pure _

include parts

theorem related_items (items : List (Nat × Nat)) (proper : ∀ item ∈ items, ProperPart start stop item) :
    R _ (readItems read line target items) (readItems read' line target items) := by
  induction items with
  | nil => exact composes.pure _
  | cons item rest ih =>
    have rest := ih fun item mem => proper item (List.mem_cons_of_mem _ mem)
    simp only [readItems]
    refine composes.bind (parts item target (proper item List.mem_cons_self)) fun reading => ?_
    cases reading with
    | rejected => exact composes.pure _
    | found e =>
      refine composes.bind rest fun es? => ?_
      cases es? <;> exact composes.pure _

variable (undone : ∀ x y : Parsing (Option (List Expr)), R _ x y → R _ (orUndone x) (orUndone y))
  (span : R _ (spanOf line start stop) (spanOf line start stop))
  (separators : r'.config.listSeparators = r.config.listSeparators)

include undone span separators

theorem related_list :
    R _ (readList r read line start stop target) (readList r' read' line start stop target) := by
  rw [readList_eq, readList_eq, separators]
  split
  · exact composes.pure _
  next items conjunction split =>
    refine composes.bind (undone _ _ (related_items composes parts items (splitList?_properParts split)))
      fun items? => ?_
    cases items? with
    | none => exact composes.pure _
    | some items => exact composes.bind span fun span => composes.pure _

variable (types : r'.types = r.types)
  (parenthesised : start + 2 ≤ stop → R _ (read line (start + 1) (stop - 1) target)
    (read' line (start + 1) (stop - 1) target))
  (syntax_ : R _ (readSyntax r read line start stop target) (readSyntax r' read' line start stop target))

include types parenthesised syntax_

/-- **The forms of a stretch are related** if its parts are, and the syntax that is tried last. -/
theorem related_forms :
    R _ (readForms r read line start stop target) (readForms r' read' line start stop target) := by
  unfold readForms
  rw [types]
  refine composes.bind span fun span => ?_
  split
  · exact composes.pure _
  refine composes.bind (related_parenthesised composes parenthesised) fun e? => ?_
  cases e? with
  | some e => exact composes.pure _
  | none =>
    dsimp only
    split
    · split <;> exact composes.pure _
    split
    · exact composes.pure _
    split
    · exact syntax_
    · refine composes.bind (related_list composes parts undone ‹_› separators) fun e? => ?_
      cases e? with
      | some e => exact composes.pure _
      | none => exact syntax_

end Related

end Phrasebook.Parse
