import Phrasebook.Proofs.Match.Advance
import Phrasebook.Proofs.Match.Backtrack

/-!
# Two matches in lockstep

A match program does the same whoever answers its questions. So a relation between the steps of two runs that
holds of equal results, and of related steps one after the other, holds of two matches of one pattern if it
holds of the answers. Only stretches within the one that is matched are asked for.
-/

namespace Phrasebook

/-- A relation between steps with the same results. -/
abbrev StepRelation (m : Type → Type) :=
  (β : Type) → m β → m β → Prop

/-- Putting steps together keeps a relation. -/
structure StepRelation.Composes {m : Type → Type} [Monad m] (R : StepRelation m) : Prop where
  pure {β : Type} (b : β) : R β (pure b) (pure b)
  bind {β γ : Type} {x y : m β} {f g : β → m γ} : R β x y → (∀ b, R γ (f b) (g b)) →
    R γ (x >>= f) (y >>= g)

namespace Match
open Pattern

variable {m : Type → Type} {ρ α : Type}

/-- The task with its questions put to another one. -/
def Task.asking (task : Task m ρ α) (resolve : Placeholder → Nat → Nat → m (Outcome ρ α)) : Task m ρ α :=
  { task with resolve }

variable [Monad m] {R : StepRelation m} (composes : R.Composes)

/-- Two searches are related, whatever they remember. -/
def Search.Related (R : StepRelation m) (x y : Search m ρ α) : Prop :=
  ∀ memory, R _ (x memory) (y memory)

include composes

theorem Search.Related.or {x x' y y' : Search m ρ α} (h : Search.Related R x y)
    (h' : Search.Related R x' y') : Search.Related R (x.or x') (y.or y') := by
  intro memory
  refine composes.bind (h memory) fun result => ?_
  obtain ⟨_ | f, memory⟩ := result
  · exact h' memory
  · exact composes.pure _

theorem Search.related_first {β : Type} {f g : β → Search m ρ α} (ends : List β)
    (h : ∀ e ∈ ends, Search.Related R (f e) (g e)) :
    Search.Related R (.first (ends.map f)) (.first (ends.map g)) := by
  induction ends with
  | nil => exact fun memory => composes.pure _
  | cons e rest ih =>
    exact (h e List.mem_cons_self).or composes (ih fun e' mem => h e' (List.mem_cons_of_mem e mem))

namespace Task

variable {task : Task m ρ α} {resolve : Placeholder → Nat → Nat → m (Outcome ρ α)}

theorem related_answer (memory : Memory ρ α) (index : Nat) (p : Placeholder) (start stop : Nat)
    (h : R _ (task.resolve p start stop) (resolve p start stop)) :
    R _ (task.answer memory index p start stop)
      ((task.asking resolve).answer memory index p start stop) := by
  unfold Task.answer
  split
  · exact composes.pure _
  · exact composes.bind h fun outcome => composes.pure _

theorem related_filling (index : Nat) (p : Placeholder) (start stop : Nat)
    {next next' : α → Search m ρ α} (h : R _ (task.resolve p start stop) (resolve p start stop))
    (h' : ∀ value, Search.Related R (next value) (next' value)) :
    Search.Related R (task.filling index p start stop next)
      ((task.asking resolve).filling index p start stop next') := by
  intro memory
  refine composes.bind (related_answer composes memory index p start stop h) fun result => ?_
  obtain ⟨value | reason, memory⟩ := result
  · exact h' value memory
  · exact composes.pure _

/-- **The searches of two matches are related** if the answers are. -/
theorem related_search
    (answers : ∀ p start stop, task.start ≤ start → start < stop → stop ≤ task.stop →
      R _ (task.resolve p start stop) (resolve p start stop))
    (t : Thread) (captures : List (Capture α)) (here : task.start ≤ t.pos) :
    Search.Related R (task.search t captures) ((task.asking resolve).search t captures) := by
  have asked {t : Thread} {effect : Effect ρ} (h : task.exec t = effect) :
      (task.asking resolve).exec t = effect := h
  fun_induction task.search t captures with
  | case1 t captures next h ih =>
    have ahead := h ▸ task.advances_exec t
    rw [search_go (asked h)]
    exact ih (Nat.le_trans here ahead)
  | case2 t captures name next h captures' ih =>
    have ahead := h ▸ task.advances_exec t
    have longer : captures'.length = captures.length + 1 := List.length_append
    rw [search_tag (asked h), ← longer]
    exact ih (Nat.le_trans here ahead)
  | case3 t captures next other h ih ih' =>
    have ahead := h ▸ task.advances_exec t
    rw [search_split (asked h)]
    exact (ih (Nat.le_trans here ahead.1)).or composes (ih' (Nat.le_trans here ahead.2))
  | case4 t captures t' index p start ends h ih =>
    obtain ⟨ahead, inside⟩ := h ▸ task.advances_exec t
    obtain ⟨-, rfl, -⟩ := h ▸ task.forward_exec t
    rw [search_slot (asked h)]
    refine Search.related_first composes ends fun e mem => ?_
    cases e with
    | none => exact ih _ _ here
    | some stop =>
      obtain ⟨less, le⟩ := inside stop mem
      have further : task.start ≤ start := Nat.le_trans here ahead
      exact related_filling composes index p start stop (answers p start stop further less le)
        fun value => ih _ _ (Nat.le_trans further (Nat.le_of_lt less))
  | case5 t captures t' index x start ends h ih =>
    obtain ⟨ahead, inside⟩ := h ▸ task.advances_exec t
    obtain ⟨-, rfl, -⟩ := h ▸ task.forward_exec t
    rw [search_regex (asked h)]
    refine Search.related_first composes ends fun stop mem => ?_
    have further : task.start ≤ start := Nat.le_trans here ahead
    by_cases fits : task.isMatch x (task.line.slice start stop) = true
    · simp only [Task.asking, fits, if_true]
      exact ih _ _ (Nat.le_trans further (Nat.le_of_lt (inside stop mem)))
    · simp only [Task.asking, fits]
      exact fun memory => composes.pure _
  | case6 t captures t' h => exact (h ▸ task.forward_exec t).elim
  | case7 t captures h =>
    rw [search_stuck (asked h)]
    exact fun memory => composes.pure _
  | case8 t captures pos reason h =>
    rw [search_fail (asked h)]
    exact fun memory => composes.pure _
  | case9 t captures h =>
    rw [search_done (asked h)]
    exact fun memory => composes.pure _

end Task

/-- **Two matches of a pattern are related** if the answers are. -/
theorem related_run [LawfulMonad m] {pattern : Pattern} {line : Text.Line} {start stop : Nat}
    {resolve resolve' : Placeholder → Nat → Nat → m (Outcome ρ α)}
    (answers : ∀ p low high, start ≤ low → low < high → high ≤ stop →
      R _ (resolve p low high) (resolve' p low high)) :
    R _ (Match.run pattern line start stop resolve) (Match.run pattern line start stop resolve') := by
  let task : Match.Task m ρ α :=
    { pattern, line, region := line.before stop, start, stop,
      isMatch := fun x text => x.regex.isMatch text, resolve }
  have first := task.loop_eq_search { pc := 0, pos := start } {} rfl
  have second := (task.asking resolve').loop_eq_search { pc := 0, pos := start } {} rfl
  have searches : Search.Related R (task.search { pc := 0, pos := start } [])
      ((task.asking resolve').search { pc := 0, pos := start } []) :=
    Task.related_search composes answers _ _ (Nat.le_refl start)
  show R _ (task.loop _ _ _ _) ((task.asking resolve').loop _ _ _ _)
  rw [first, second]
  refine composes.bind (searches {}) fun result => ?_
  obtain ⟨_ | f, memory⟩ := result <;> exact composes.pure _

end Match

end Phrasebook
