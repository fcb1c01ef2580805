import Phrasebook.Proofs.Match.Advance
import Phrasebook.Proofs.Match.Backtrack
import Phrasebook.Proofs.Match.Complete
import Phrasebook.Proofs.Text.Aligned

/-!
# The same match in two lines

A pattern is matched in the same way against a stretch of a line and against a stretch of another line that
holds the same text, but for the places at which things happen. So if the answers for corresponding stretches
correspond, the matches do.
-/

namespace Phrasebook

/-- A relation between steps, made from one between their results. -/
abbrev StepLift (m : Type → Type) :=
  ⦃β γ : Type⦄ → (β → γ → Prop) → m β → m γ → Prop

/-- Putting steps together keeps a relation between them. -/
structure StepLift.Composes {m : Type → Type} [Monad m] (R : StepLift m) : Prop where
  pure {β γ : Type} {Q : β → γ → Prop} {b : β} {c : γ} : Q b c → R Q (pure b) (pure c)
  bind {β γ β' γ' : Type} {Q : β → γ → Prop} {Q' : β' → γ' → Prop} {x : m β} {y : m γ}
    {f : β → m β'} {g : γ → m γ'} :
    R Q x y → (∀ b c, Q b c → R Q' (f b) (g c)) → R Q' (x >>= f) (y >>= g)

namespace Match
open Text Pattern

section Extent

variable {l l' : Line} {low low' start stop pos : Nat} (aligned : l.Aligned l' low low')

include aligned

theorem literalStarts_shift (literal : List Char) (h : low ≤ pos) :
    literalStarts l' (shift low low' pos) literal = literalStarts l pos literal := by
  simp only [literalStarts]
  rw [aligned.isBoundary_shift h, aligned.skipBlanks_shift h, aligned.matchFrom_shift literal h,
    shift_beq (Nat.le_trans h (l.le_skipBlanks pos)) h, Option.isSome_map]

theorem stopsBefore_shift (follow : Follow) (h : low ≤ pos) :
    stopsBefore l' follow (shift low low' pos) = stopsBefore l follow pos := by
  have same : literalStarts l' (shift low low' pos) = literalStarts l pos :=
    funext fun literal => literalStarts_shift aligned literal h
  rw [stopsBefore, stopsBefore, aligned.isBoundary_shift h, same]

theorem stopsFrom_shift (follow : Follow) (b : Brackets) (hs : low ≤ start) (h : low ≤ pos) :
    stopsFrom l' follow (shift low low' start) (shift low low' stop) b (shift low low' pos) =
      (stopsFrom l follow start stop b pos).map (shift low low') := by
  fun_induction stopsFrom l follow start stop b pos with
  | case1 b pos inside none =>
    rw [stopsFrom, dif_pos ((shift_lt_iff h).2 inside), aligned.getElem?_shift h, none]
    rfl
  | case2 b pos inside c there later here ih =>
    have rest := ih (Nat.le_succ_of_le h)
    rw [shift_succ h] at rest
    rw [stopsFrom, dif_pos ((shift_lt_iff h).2 inside), aligned.getElem?_shift h, there]
    simp only [shift_lt_iff hs, stopsBefore_shift aligned follow h, rest]
    rw [if_pos here, List.map_cons]
  | case3 b pos inside c there later here ih =>
    have rest := ih (Nat.le_succ_of_le h)
    rw [shift_succ h] at rest
    rw [stopsFrom, dif_pos ((shift_lt_iff h).2 inside), aligned.getElem?_shift h, there]
    simp only [shift_lt_iff hs, stopsBefore_shift aligned follow h, rest]
    rw [if_neg here]
  | case4 b pos outside =>
    rw [stopsFrom, dif_neg (mt (shift_lt_iff h).1 outside)]
    rfl

theorem endBefore?_shift (hs : low ≤ start) (h : low ≤ pos) :
    endBefore? l' (shift low low' start) (shift low low' pos) =
      (endBefore? l start pos).map (shift low low') := by
  simp only [endBefore?]
  rw [aligned.dropBlanks_shift hs h]
  rcases Nat.lt_or_ge start (l.dropBlanks start pos) with held | none
  · simp only [shift_lt_iff hs, aligned.isBoundary_shift (Nat.le_of_lt (Nat.lt_of_le_of_lt hs held))]
    split <;> rfl
  · simp only [shift_lt_iff hs, Nat.not_lt.2 none, decide_false, Bool.false_and]
    rfl

theorem endsBefore_shift (hs : low ≤ start) {places : List Nat} (h : ∀ x ∈ places, low ≤ x) :
    (places.map (shift low low')).filterMap (endBefore? l' (shift low low' start)) =
      (places.filterMap (endBefore? l start)).map (shift low low') := by
  induction places with
  | nil => rfl
  | cons x places ih =>
    have rest := ih fun y mem => h y (List.mem_cons_of_mem x mem)
    rw [List.map_cons, List.filterMap_cons, List.filterMap_cons,
      endBefore?_shift aligned hs (h x List.mem_cons_self)]
    cases endBefore? l start x with
    | none => exact rest
    | some x' => exact congrArg (_ :: ·) rest

omit aligned in
theorem withoutRepeats_shift (seen : List Nat) {xs : List Nat} (hs : ∀ x ∈ seen, low ≤ x) (h : ∀ x ∈ xs, low ≤ x) :
    withoutRepeats (seen.map (shift low low')) (xs.map (shift low low')) =
      (withoutRepeats seen xs).map (shift low low') := by
  induction xs generalizing seen with
  | nil => rfl
  | cons x xs ih =>
    have first : low ≤ x := h x List.mem_cons_self
    have rest : ∀ y ∈ xs, low ≤ y := fun y mem => h y (List.mem_cons_of_mem x mem)
    have repeated : (seen.map (shift low low')).contains (shift low low' x) = seen.contains x := by
      rw [Bool.eq_iff_iff, List.contains_iff_mem, List.contains_iff_mem, List.mem_map]
      constructor
      · rintro ⟨y, mem, same⟩
        rwa [← (shift_inj (hs y mem) first).1 same]
      · exact fun mem => ⟨x, mem, rfl⟩
    simp only [List.map_cons, withoutRepeats, repeated]
    split
    · exact ih seen hs rest
    · rw [List.map_cons, ← ih (x :: seen) (List.forall_mem_cons.2 ⟨first, hs⟩) rest, List.map_cons]

/-- **A capture has corresponding ends** in lines that hold the same text. -/
theorem splitPoints_shift (follow : Follow) (hs : low ≤ start) (h : low ≤ stop) :
    splitPoints l' follow (shift low low' start) (shift low low' stop) =
      (splitPoints l follow start stop).map (shift low low') := by
  simp only [splitPoints, shift_le_iff hs, aligned.isBoundary_shift hs]
  split
  · rfl
  · rw [stopsFrom_shift aligned follow {} hs hs]
    generalize last : (if follow.canEnd || follow.isOpen then [stop] else []) = ends
    have last' : (if follow.canEnd || follow.isOpen then [shift low low' stop] else []) =
        ends.map (shift low low') := by
      rw [← last]
      split <;> rfl
    have behind : ∀ x ∈ stopsFrom l follow start stop {} start ++ ends, low ≤ x := by
      intro x mem
      rcases List.mem_append.1 mem with mem | mem
      · rw [← bracketsAt_self l start, mem_stopsFrom (Nat.le_refl start)] at mem
        exact Nat.le_trans hs mem.1
      · rw [← last] at mem
        split at mem
        · rwa [List.mem_singleton.1 mem]
        · cases mem
    rw [last', ← List.map_append, endsBefore_shift aligned hs behind]
    refine withoutRepeats_shift [] (fun _ mem => (List.not_mem_nil mem).elim) fun x mem => ?_
    obtain ⟨pos, -, held⟩ := List.mem_filterMap.1 mem
    exact Nat.le_trans hs (Nat.le_of_lt (endBefore?_eq_some.1 held).2.1)

end Extent

/-- An answer with its result changed. -/
def Outcome.map {ρ α β : Type} (f : α → β) : Outcome ρ α → Outcome ρ β
  | found value => .found (f value)
  | rejected reason => .rejected reason

/-- The reason for which a way ended, read in the other line. -/
def Reason.shift {ρ : Type} (low low' : Nat) : Reason ρ → Reason ρ
  | expected pc => .expected pc
  | unexpected start stop => .unexpected (Text.shift low low' start) (Text.shift low low' stop)
  | rejected reason => .rejected reason
  | noRegexMatch start stop index =>
    .noRegexMatch (Text.shift low low' start) (Text.shift low low' stop) index
  | nothing => .nothing

/-- A failed match, read in the other line. -/
def Failure.shift {ρ : Type} (low low' : Nat) (f : Failure ρ) : Failure ρ :=
  ⟨Text.shift low low' f.progress, f.reason.shift low low'⟩

/-- A capture with its value changed. -/
def Capture.map {α β : Type} (f : α → β) : Capture α → Capture β
  | argument index value => .argument index (value.map f)
  | regex text => .regex text
  | tag name => .tag name

/-- A match with its arguments changed. -/
def Found.map {α β : Type} (f : α → β) (found : Found α) : Found β :=
  ⟨found.arguments.map (Option.map f), found.mark, found.captures, found.tags⟩

/-- A way through a program at the corresponding place. -/
def Thread.shift (low low' : Nat) (t : Thread) : Thread :=
  { t with pos := Text.shift low low' t.pos }

/-- What is left to try, read in the other line. -/
def Frame.shift (low low' : Nat) : Frame → Frame
  | resume t => .resume (t.shift low low')
  | slot t index p start ends =>
    .slot (t.shift low low') index p (Text.shift low low' start)
      (ends.map (Option.map (Text.shift low low')))
  | regex t index x start ends =>
    .regex (t.shift low low') index x (Text.shift low low' start) (ends.map (Text.shift low low'))

/-- The effect of an instruction, read in the other line. -/
def Effect.shift {ρ : Type} (low low' : Nat) : Effect ρ → Effect ρ
  | go t => .go (t.shift low low')
  | tag name t => .tag name (t.shift low low')
  | split t other => .split (t.shift low low') (other.shift low low')
  | capture frame => .capture (frame.shift low low')
  | fail pos reason => .fail (Text.shift low low' pos) (reason.shift low low')
  | stuck => .stuck
  | done => .done

theorem argumentOf_map {α β : Type} (f : α → β) (index : Nat) (captures : List (Capture α)) :
    argumentOf index (captures.map (Capture.map f)) = (argumentOf index captures).map f := by
  have one (last : Option α) (c : Capture α) :
      lastArgument index (last.map f) (c.map f) = (lastArgument index last c).map f := by
    cases c with
    | argument i value =>
      simp only [Capture.map, lastArgument]
      split <;> rfl
    | regex | tag => rfl
  have all (last : Option α) : (captures.map (Capture.map f)).foldl (lastArgument index) (last.map f) =
      (captures.foldl (lastArgument index) last).map f := by
    induction captures generalizing last with
    | nil => rfl
    | cons c captures ih => rw [List.map_cons, List.foldl_cons, List.foldl_cons, one, ih]
  exact all none

theorem ofTrail_map {α β : Type} (f : α → β) (placeholders : Nat) (mark : Int64)
    (captures : List (Capture α)) :
    Found.ofTrail placeholders mark (captures.map (Capture.map f)) =
      (Found.ofTrail placeholders mark captures).map f := by
  simp only [Found.ofTrail, Found.map, Found.mk.injEq, List.filterMap_map, List.map_map,
    Function.comp_def, argumentOf_map, true_and]
  constructor
  · congr 1
    funext c
    cases c <;> rfl
  · congr 1
    funext c
    cases c <;> rfl

/-- What a match in one line and a match in another have to do with each other. -/
structure Task.Shifted {m : Type → Type} {ρ α : Type} (task task' : Task m ρ α) (low low' : Nat) : Prop where
  pattern : task'.pattern = task.pattern
  isMatch : task'.isMatch = task.isMatch
  low_le_stop : low ≤ task.stop
  start : task'.start = Text.shift low low' task.start
  stop : task'.stop = Text.shift low low' task.stop
  region : task.region.Aligned task'.region low low'
  /-- the lines hold the same text in the stretch that is matched -/
  text {start stop : Nat} : low ≤ start → start ≤ stop → stop ≤ task.stop →
    task'.line.slice (Text.shift low low' start) (Text.shift low low' stop) = task.line.slice start stop

namespace Task

variable {m : Type → Type} {ρ α : Type} {task task' : Task m ρ α} {low low' : Nat}

/-- An effect of an instruction leads to failures behind a place, and to regexes within the stretch. -/
def Confines (task : Task m ρ α) (low : Nat) : Effect ρ → Prop
  | .fail pos _ => low ≤ pos
  | .capture (.regex _ _ _ _ ends) => ∀ stop ∈ ends, stop ≤ task.stop
  | _ => True

theorem confines_exec {t : Thread} (h : low ≤ t.pos) (reached : low ≤ task.stop) :
    task.Confines low (task.exec t) := by
  have later : low ≤ task.region.skipBlanks t.pos := Nat.le_trans h (task.region.le_skipBlanks t.pos)
  have noEnd (pc : Nat) {start : Nat} (behind : low ≤ start) : low ≤ (task.noEnd pc start).1 := by
    unfold Task.noEnd
    split
    · exact behind
    · split
      · exact behind
      · split <;> exact reached
  unfold exec
  split
  case h_2 =>
    split
    · trivial
    · exact later
  case h_3 | h_8 =>
    dsimp only
    split
    · trivial
    · exact later
  case h_4 | h_5 => split <;> trivial
  case h_9 =>
    split
    · trivial
    · dsimp only
      split
      · exact noEnd t.pc later
      · trivial
  case h_10 =>
    split
    · trivial
    · dsimp only
      split
      · exact noEnd t.pc later
      · exact fun stop mem => (bounds_of_mem_splitPoints mem).2
  all_goals trivial

variable (shifted : task.Shifted task' low low')

include shifted

theorem noEnd_shift (pc : Nat) {start : Nat} (h : low ≤ start) :
    task'.noEnd pc (Text.shift low low' start) =
      (Text.shift low low' (task.noEnd pc start).1, (task.noEnd pc start).2.shift low low') := by
  simp only [noEnd, shifted.stop, shifted.pattern, shift_le_iff h, shifted.region.isBoundary_shift h]
  split
  · rfl
  · split
    · rfl
    · split <;> rfl

theorem endsOf_shift (p : Placeholder) (follow : Follow) {start : Nat} (h : low ≤ start) :
    task'.endsOf p follow (Text.shift low low' start) =
      (task.endsOf p follow start).map (Option.map (Text.shift low low')) := by
  simp only [endsOf, shifted.stop, splitPoints_shift shifted.region follow h shifted.low_le_stop,
    List.map_append, List.map_map]
  congr 1
  split <;> rfl

/-- **An instruction has the same effect** at corresponding places. -/
theorem exec_shift {t : Thread} (h : low ≤ t.pos) :
    task'.exec (t.shift low low') = (task.exec t).shift low low' := by
  have later : low ≤ task.region.skipBlanks t.pos := Nat.le_trans h (task.region.le_skipBlanks t.pos)
  have skips := shifted.region.skipBlanks_shift h
  unfold exec
  simp only [Thread.shift, shifted.pattern, skips, shifted.stop]
  split
  case h_1 => rfl
  case h_2 text found =>
    rw [shifted.region.matchLiteral_shift text h]
    cases task.region.matchLiteral t.pos text <;> rfl
  case h_3 found =>
    rw [shifted.region.isBoundary_shift later]
    rw [apply_ite (Effect.shift low low')]
    rfl
  case h_4 prefer other found =>
    rw [apply_ite (Effect.shift low low')]
    rfl
  case h_5 target found =>
    rw [apply_ite (Effect.shift low low')]
    rfl
  case h_6 value found => rfl
  case h_7 name found => rfl
  case h_8 =>
    simp only [shift_le_iff later]
    rw [apply_ite (Effect.shift low low')]
    rfl
  case h_9 index follow found =>
    split
    · rfl
    · rw [endsOf_shift shifted _ follow later, List.isEmpty_map, noEnd_shift shifted t.pc later]
      rw [apply_ite (Effect.shift low low')]
      rfl
  case h_10 index follow found =>
    split
    · rfl
    · rw [splitPoints_shift shifted.region follow later shifted.low_le_stop, List.isEmpty_map,
        noEnd_shift shifted t.pc later]
      rw [apply_ite (Effect.shift low low')]
      rfl

end Task

/-- What two matches remember corresponds. -/
structure Memory.Shifted {ρ α : Type} (low low' : Nat) (f : α → α) (memory memory' : Memory ρ α) : Prop where
  answers (index : Nat) {start stop : Nat} : low ≤ start → low ≤ stop →
    memory'.answers.get? (index, shift low low' start, shift low low' stop) =
      (memory.answers.get? (index, start, stop)).map (Outcome.map f)
  furthest : memory'.furthest =
    memory.furthest.map fun (pos, reason) => (shift low low' pos, reason.shift low low')
  behind {pos : Nat} {reason : Reason ρ} : memory.furthest = some (pos, reason) → low ≤ pos

section Search

variable {m : Type → Type} {ρ α : Type} {low low' : Nat} {f : α → α} {memory memory' : Memory ρ α}

theorem Memory.shifted_empty : Memory.Shifted (ρ := ρ) low low' f {} {} where
  answers index start stop _ _ := by simp
  furthest := rfl
  behind := nofun

theorem Memory.Shifted.fail (h : memory.Shifted low low' f memory') {pos : Nat} (reason : Reason ρ)
    (later : low ≤ pos) :
    (memory.fail pos reason).Shifted low low' f
      (memory'.fail (shift low low' pos) (reason.shift low low')) := by
  have furthest := h.furthest
  unfold Memory.fail
  cases known : memory.furthest with
  | none =>
    rw [known] at furthest
    simp only [furthest, Option.map_none]
    exact ⟨h.answers, rfl, fun same => by cases same; exact later⟩
  | some last =>
    obtain ⟨before, why⟩ := last
    rw [known] at furthest
    simp only [furthest, Option.map_some, shift_lt_iff (h.behind known)]
    split
    · exact ⟨h.answers, rfl, fun same => by cases same; exact later⟩
    · exact h

theorem Memory.Shifted.failure (h : memory.Shifted low low' f memory') (start : Nat) :
    memory'.failure (shift low low' start) = (memory.failure start).shift low low' := by
  unfold Memory.failure
  rw [h.furthest]
  cases memory.furthest <;> rfl

theorem Memory.Shifted.insert (h : memory.Shifted low low' f memory') (index : Nat) {start stop : Nat}
    (hs : low ≤ start) (ht : low ≤ stop) (outcome : Outcome ρ α) :
    Memory.Shifted low low' f
      { memory with answers := memory.answers.insert (index, start, stop) outcome }
      { memory' with answers :=
          memory'.answers.insert (index, shift low low' start, shift low low' stop) (outcome.map f) } where
  answers index' {start' stop'} hs' ht' := by
    simp only [Table.get?_insert, Prod.mk.injEq, shift_inj hs hs', shift_inj ht ht']
    split
    · rfl
    · exact h.answers index' hs' ht'
  furthest := h.furthest
  behind := h.behind

/-- The results of two searches correspond, and what they remember. -/
def Search.Ended (low low' : Nat) (f : α → α) (a b : Option (Found α) × Memory ρ α) : Prop :=
  b.1 = a.1.map (Found.map f) ∧ a.2.Shifted low low' f b.2

/-- Two searches that remember corresponding things come to corresponding ends. -/
def Search.Shifted (R : StepLift m) (low low' : Nat) (f : α → α) (x y : Search m ρ α) : Prop :=
  ∀ memory memory', memory.Shifted low low' f memory' →
    R (Search.Ended low low' f) (x memory) (y memory')

variable [Monad m] {R : StepLift m} (composes : R.Composes)

include composes

theorem Search.Shifted.or {x x' y y' : Search m ρ α} (h : Search.Shifted R low low' f x y)
    (h' : Search.Shifted R low low' f x' y') : Search.Shifted R low low' f (x.or x') (y.or y') := by
  intro memory memory' same
  refine composes.bind (h memory memory' same) fun a b ended => ?_
  obtain ⟨_ | found, after⟩ := a
  · obtain ⟨_, after'⟩ := b
    obtain ⟨rfl, same⟩ := ended
    exact h' after after' same
  · obtain ⟨_, after'⟩ := b
    obtain ⟨rfl, same⟩ := ended
    exact composes.pure ⟨rfl, same⟩

theorem Search.shifted_first {β γ : Type} {k : β → Search m ρ α} {k' : γ → Search m ρ α} (g : β → γ)
    (ends : List β) (h : ∀ e ∈ ends, Search.Shifted R low low' f (k e) (k' (g e))) :
    Search.Shifted R low low' f (.first (ends.map k)) (.first ((ends.map g).map k')) := by
  induction ends with
  | nil => exact fun memory memory' same => composes.pure ⟨rfl, same⟩
  | cons e rest ih =>
    exact (h e List.mem_cons_self).or composes (ih fun e' mem => h e' (List.mem_cons_of_mem e mem))

theorem Search.shifted_stuck : Search.Shifted (ρ := ρ) R low low' f .stuck .stuck :=
  fun _ _ same => composes.pure ⟨rfl, same⟩

theorem Search.shifted_fail {pos : Nat} (reason : Reason ρ) (later : low ≤ pos) :
    Search.Shifted R low low' f (.fail pos reason)
      (.fail (shift low low' pos) (reason.shift low low')) :=
  fun _ _ same => composes.pure ⟨rfl, same.fail reason later⟩

namespace Task

variable {task task' : Task m ρ α}

theorem shifted_answer (same : memory.Shifted low low' f memory') (index : Nat) (p : Placeholder)
    {start stop : Nat} (hs : low ≤ start) (ht : low ≤ stop)
    (h : R (fun a b => b = a.map f) (task.resolve p start stop)
      (task'.resolve p (Text.shift low low' start) (Text.shift low low' stop))) :
    R (fun a b => b.1 = a.1.map f ∧ a.2.Shifted low low' f b.2)
      (task.answer memory index p start stop)
      (task'.answer memory' index p (Text.shift low low' start) (Text.shift low low' stop)) := by
  unfold answer
  rw [same.answers index hs ht]
  cases memory.answers.get? (index, start, stop) with
  | some outcome => exact composes.pure ⟨rfl, same⟩
  | none =>
    refine composes.bind h fun outcome outcome' eq => ?_
    obtain rfl := eq
    exact composes.pure ⟨rfl, same.insert index hs ht outcome⟩

theorem shifted_filling (index : Nat) (p : Placeholder) {start stop : Nat} (hs : low ≤ start)
    (ht : low ≤ stop) {next next' : α → Search m ρ α}
    (h : R (fun a b => b = a.map f) (task.resolve p start stop)
      (task'.resolve p (Text.shift low low' start) (Text.shift low low' stop)))
    (h' : ∀ value, Search.Shifted R low low' f (next value) (next' (f value))) :
    Search.Shifted R low low' f (task.filling index p start stop next)
      (task'.filling index p (Text.shift low low' start) (Text.shift low low' stop) next') := by
  intro memory memory' same
  refine composes.bind (shifted_answer composes same index p hs ht h) fun a b answered => ?_
  obtain ⟨value | reason, after⟩ := a
  · obtain ⟨_, after'⟩ := b
    obtain ⟨rfl, same⟩ := answered
    exact h' value after after' same
  · obtain ⟨_, after'⟩ := b
    obtain ⟨rfl, same⟩ := answered
    exact composes.pure ⟨rfl, same.fail (.rejected reason) hs⟩

/-- **The searches of two matches correspond** if the answers do. -/
theorem shifted_search (shifted : task.Shifted task' low low')
    (answers : ∀ p start stop, low ≤ start → start < stop → stop ≤ task.stop →
      R (fun a b => b = a.map f) (task.resolve p start stop)
        (task'.resolve p (Text.shift low low' start) (Text.shift low low' stop)))
    (t : Thread) (captures : List (Capture α)) (here : low ≤ t.pos) :
    Search.Shifted R low low' f (task.search t captures)
      (task'.search (t.shift low low') (captures.map (Capture.map f))) := by
  have same {t : Thread} {effect : Effect ρ} (here : low ≤ t.pos) (h : task.exec t = effect) :
      task'.exec (t.shift low low') = effect.shift low low' :=
    h ▸ exec_shift shifted here
  fun_induction task.search t captures with
  | case1 t captures next h ih =>
    have ahead := h ▸ task.advances_exec t
    rw [search_go (same here h)]
    exact ih (Nat.le_trans here ahead)
  | case2 t captures name next h captures' ih =>
    have ahead := h ▸ task.advances_exec t
    have rest := ih (Nat.le_trans here ahead)
    rw [search_tag (same here h)]
    simpa [captures', Thread.shift, Capture.map] using rest
  | case3 t captures next other h ih ih' =>
    have ahead := h ▸ task.advances_exec t
    rw [search_split (same here h)]
    exact (ih (Nat.le_trans here ahead.1)).or composes (ih' (Nat.le_trans here ahead.2))
  | case4 t captures t' index p start ends h ih =>
    obtain ⟨ahead, inside⟩ := h ▸ task.advances_exec t
    obtain ⟨-, rfl, -⟩ := h ▸ task.forward_exec t
    rw [search_slot (same here h)]
    refine Search.shifted_first composes _ ends fun e mem => ?_
    cases e with
    | none =>
      have rest := ih t'.pos (captures ++ [.argument index none]) here
      simpa [after, Thread.shift, Capture.map] using rest
    | some stop =>
      obtain ⟨less, le⟩ := inside stop mem
      have further : low ≤ start := Nat.le_trans here ahead
      have later : low ≤ stop := Nat.le_trans further (Nat.le_of_lt less)
      refine shifted_filling composes index p further later (answers p start stop further less le)
        fun value => ?_
      have rest := ih stop (captures ++ [.argument index (some value)]) later
      simpa [after, Thread.shift, Capture.map] using rest
  | case5 t captures t' index x start ends h ih =>
    obtain ⟨ahead, inside⟩ := h ▸ task.advances_exec t
    obtain ⟨-, rfl, -⟩ := h ▸ task.forward_exec t
    have within := h ▸ confines_exec here shifted.low_le_stop
    rw [search_regex (same here h)]
    refine Search.shifted_first composes _ ends fun stop mem => ?_
    have further : low ≤ start := Nat.le_trans here ahead
    have less := inside stop mem
    have later : low ≤ stop := Nat.le_trans further (Nat.le_of_lt less)
    simp only [shifted.text further (Nat.le_of_lt less) (within stop mem), shifted.isMatch]
    by_cases fits : task.isMatch x (task.line.slice start stop) = true
    · have rest := ih stop (captures ++ [.regex (String.ofList (task.line.slice start stop))]) later
      rw [if_pos fits, if_pos fits]
      simpa [after, Thread.shift, Capture.map] using rest
    · rw [if_neg fits, if_neg fits]
      exact Search.shifted_fail composes _ further
  | case6 t captures t' h => exact (h ▸ task.forward_exec t).elim
  | case7 t captures h =>
    rw [search_stuck (same here h)]
    exact Search.shifted_stuck composes
  | case8 t captures pos reason h =>
    have behind := h ▸ confines_exec here shifted.low_le_stop
    rw [search_fail (same here h)]
    exact Search.shifted_fail composes reason behind
  | case9 t captures h =>
    rw [search_done (same here h), shifted.pattern, ofTrail_map]
    exact fun _ _ remembered => composes.pure ⟨rfl, remembered⟩

end Task

/-- **Two matches of a pattern correspond** where the lines hold the same text, if the answers do. -/
theorem shifted_run [LawfulMonad m] {pattern : Pattern} {l l' : Line} {start stop : Nat}
    {resolve resolve' : Placeholder → Nat → Nat → m (Outcome ρ α)}
    (aligned : (l.before stop).Aligned (l'.before (shift low low' stop)) low low') (hs : low ≤ start)
    (ht : low ≤ stop)
    (answers : ∀ p lower upper, low ≤ lower → lower < upper → upper ≤ stop →
      R (fun a b => b = a.map f) (resolve p lower upper)
        (resolve' p (shift low low' lower) (shift low low' upper))) :
    R (fun a b => b = (a.mapError (Failure.shift low low')).map (Found.map f))
      (run pattern l start stop resolve)
      (run pattern l' (shift low low' start) (shift low low' stop) resolve') := by
  let task : Task m ρ α :=
    { pattern, line := l, region := l.before stop, start, stop,
      isMatch := fun x text => x.regex.isMatch text, resolve }
  let task' : Task m ρ α :=
    { pattern, line := l', region := l'.before (shift low low' stop), start := shift low low' start,
      stop := shift low low' stop, isMatch := fun x text => x.regex.isMatch text, resolve := resolve' }
  have shifted : task.Shifted task' low low' :=
    { pattern := rfl, isMatch := rfl, low_le_stop := ht, start := rfl, stop := rfl, region := aligned
      text := by
        intro lower upper hl le within
        have within' : shift low low' upper ≤ shift low low' stop := (shift_le_iff ht).2 within
        rw [← l'.slice_before _ within', aligned.slice_shift hl (Nat.le_trans hl le),
          l.slice_before _ within] }
  have first := task.loop_eq_search { pc := 0, pos := start } {} rfl
  have second := task'.loop_eq_search { pc := 0, pos := shift low low' start } {} rfl
  have searches := Task.shifted_search composes shifted answers { pc := 0, pos := start } [] hs {} {}
    Memory.shifted_empty
  show R _ (task.loop _ _ _ _) (task'.loop _ _ _ _)
  rw [first, second]
  refine composes.bind searches fun a b ended => ?_
  obtain ⟨_ | found, memory⟩ := a
  · obtain ⟨_, memory'⟩ := b
    obtain ⟨rfl, remembered⟩ := ended
    exact composes.pure (congrArg Except.error (remembered.failure start))
  · obtain ⟨_, memory'⟩ := b
    obtain ⟨rfl, -⟩ := ended
    exact composes.pure rfl

end Search

end Match

end Phrasebook
