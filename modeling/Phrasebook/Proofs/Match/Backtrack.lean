import Phrasebook.Match.Search

/-!
# The search that the machine carries out

The machine of `Match.Search` keeps its alternatives on a stack and cuts one shared trail back when it
takes one of them up. Here the same search is written as a recursion in which every way has its captures
to itself: `Task.search`. The main statement is `Task.loop_eq_search`. Its invariant, `Owned`, says that
no frame owns more of the trail than the frames above it, so what ways above leave behind is never its own.
-/

namespace Phrasebook.Match
open Text Pattern

variable {m : Type → Type} [Monad m] {ρ α : Type}

/-- A search for a match, which remembers answers and failures. -/
abbrev Search (m : Type → Type) (ρ α : Type) :=
  Memory ρ α → m (Option (Found α) × Memory ρ α)

namespace Search

/-- A search that ends with a match. -/
def found (f : Found α) : Search m ρ α := fun memory => pure (some f, memory)

/-- A search that ends without a reason. -/
def stuck : Search m ρ α := fun memory => pure (none, memory)

/-- A search that ends at a place for a reason. -/
def fail (pos : Nat) (reason : Reason ρ) : Search m ρ α := fun memory =>
  pure (none, memory.fail pos reason)

/-- A search, and another one if it finds nothing. -/
def or (x y : Search m ρ α) : Search m ρ α := fun memory => do
  match ← x memory with
  | (some f, memory) => pure (some f, memory)
  | (none, memory) => y memory

/-- The first success of several searches. -/
def first : List (Search m ρ α) → Search m ρ α
  | [] => stuck
  | x :: rest => x.or (first rest)

/-- A search, and what is done if it finds nothing. -/
def otherwise (x : Search m ρ α) (y : Memory ρ α → m (Except (Failure ρ) (Found α))) :
    Memory ρ α → m (Except (Failure ρ) (Found α)) := fun memory => do
  match ← x memory with
  | (some f, _) => pure (.ok f)
  | (none, memory) => y memory

variable [LawfulMonad m] (y : Memory ρ α → m (Except (Failure ρ) (Found α)))

@[simp] theorem found_otherwise (f : Found α) (memory : Memory ρ α) :
    (found (m := m) f).otherwise y memory = pure (.ok f) := by
  simp [found, otherwise]

@[simp] theorem stuck_otherwise (memory : Memory ρ α) :
    (stuck (m := m)).otherwise y memory = y memory := by
  simp [stuck, otherwise]

@[simp] theorem fail_otherwise (pos : Nat) (reason : Reason ρ) (memory : Memory ρ α) :
    (fail (m := m) pos reason).otherwise y memory = y (memory.fail pos reason) := by
  simp [fail, otherwise]

theorem or_otherwise (x x' : Search m ρ α) :
    (x.or x').otherwise y = x.otherwise (x'.otherwise y) := by
  funext memory
  simp only [or, otherwise, bind_assoc]
  refine bind_congr fun answer => ?_
  obtain ⟨_ | f, memory⟩ := answer <;> simp

end Search

namespace Task

/-- A search that goes on with the answer for a placeholder and a stretch. -/
def filling (task : Task m ρ α) (index : Nat) (p : Placeholder) (start stop : Nat)
    (next : α → Search m ρ α) : Search m ρ α := fun memory => do
  match ← task.answer memory index p start stop with
  | (.found value, memory) => next value memory
  | (.rejected reason, memory) => pure (none, memory.fail start (.rejected reason))

/-- The search over the ends of a placeholder. `next` goes on behind the capture. -/
def slotEnds (task : Task m ρ α) (pos : Nat) (captures : List (Capture α)) (index : Nat)
    (p : Placeholder) (start : Nat) (next : Nat → List (Capture α) → Search m ρ α)
    (ends : List (Option Nat)) : Search m ρ α :=
  .first (ends.map fun
    | none => next pos (captures ++ [.argument index none])
    | some stop =>
      task.filling index p start stop fun value =>
        next stop (captures ++ [.argument index (some value)]))

/-- The search over the ends of a regex. -/
def regexEnds (task : Task m ρ α) (captures : List (Capture α)) (index : Nat) (x : PatternRegex)
    (start : Nat) (next : Nat → List (Capture α) → Search m ρ α) (ends : List Nat) :
    Search m ρ α :=
  .first (ends.map fun stop =>
    let text := task.line.slice start stop
    if task.isMatch x text then next stop (captures ++ [.regex (String.ofList text)])
    else .fail start (.noRegexMatch start stop index))

/-- Searches on from a way that has captured something: the preferred way of a split to its end before
the other, and the ends of a capture one after the other. -/
def search (task : Task m ρ α) (t : Thread) (captures : List (Capture α)) : Search m ρ α :=
  match h : task.exec t with
  | .go next => task.search next captures
  | .tag name next =>
    let captures := captures ++ [.tag name]
    task.search { next with trail := captures.length } captures
  | .split next other => (task.search next captures).or (task.search other captures)
  | .capture (.slot _ index p start ends) =>
    task.slotEnds t.pos captures index p start (fun pos captures =>
      task.search { t with pc := t.pc + 1, pos, trail := captures.length } captures) ends
  | .capture (.regex _ index x start ends) =>
    task.regexEnds captures index x start (fun pos captures =>
      task.search { t with pc := t.pc + 1, pos, trail := captures.length } captures) ends
  | .capture (.resume _) | .stuck => .stuck
  | .fail pos reason => .fail pos reason
  | .done => .found (.ofTrail task.pattern.placeholders.length t.mark captures)
termination_by task.pattern.program.size - t.pc
decreasing_by
  all_goals
    have forward := task.forward_exec t
    rw [h] at forward
    simp only [Forward] at forward
    omega

/-- The search behind a capture at which a way stands. -/
def after (task : Task m ρ α) (t : Thread) (pos : Nat) (captures : List (Capture α)) :
    Search m ρ α :=
  task.search { t with pc := t.pc + 1, pos, trail := captures.length } captures

section Equations

variable {task : Task m ρ α} {t next other : Thread} {captures : List (Capture α)}

theorem search_go (h : task.exec t = .go next) :
    task.search t captures = task.search next captures := by
  rw [search]
  split <;> simp_all

theorem search_tag {name : String} (h : task.exec t = .tag name next) :
    task.search t captures =
      task.search { next with trail := captures.length + 1 } (captures ++ [.tag name]) := by
  rw [search]
  split <;> simp_all

theorem search_split (h : task.exec t = .split next other) :
    task.search t captures = (task.search next captures).or (task.search other captures) := by
  rw [search]
  split <;> simp_all

theorem search_slot {index : Nat} {p : Placeholder} {start : Nat} {ends : List (Option Nat)}
    (h : task.exec t = .capture (.slot t index p start ends)) :
    task.search t captures =
      task.slotEnds t.pos captures index p start (task.after t) ends := by
  rw [search]
  split <;> simp_all
  rfl

theorem search_regex {index : Nat} {x : PatternRegex} {start : Nat} {ends : List Nat}
    (h : task.exec t = .capture (.regex t index x start ends)) :
    task.search t captures = task.regexEnds captures index x start (task.after t) ends := by
  rw [search]
  split <;> simp_all
  rfl

theorem search_fail {pos : Nat} {reason : Reason ρ} (h : task.exec t = .fail pos reason) :
    task.search t captures = .fail pos reason := by
  rw [search]
  split <;> simp_all

theorem search_stuck (h : task.exec t = .stuck) : task.search t captures = .stuck := by
  rw [search]
  split <;> simp_all

theorem search_done (h : task.exec t = .done) :
    task.search t captures =
      .found (.ofTrail task.pattern.placeholders.length t.mark captures) := by
  rw [search]
  split <;> simp_all

end Equations

end Task

/-- The way at which a frame was put on the stack. -/
def Frame.thread : Frame → Thread
  | .resume t | .slot t _ _ _ _ | .regex t _ _ _ _ => t

/-- No frame owns more of the trail than the first so many captures, nor more than a frame above it. -/
def Owned : Nat → List Frame → Prop
  | _, [] => True
  | n, f :: stack => f.thread.trail ≤ n ∧ Owned f.thread.trail stack

theorem Owned.mono {n k : Nat} {stack : List Frame} (h : Owned n stack) (le : n ≤ k) :
    Owned k stack := by
  cases stack with
  | nil => trivial
  | cons f stack => exact ⟨Nat.le_trans h.1 le, h.2⟩

namespace Task

/-- The search that a frame stands for. -/
def frameSearch (task : Task m ρ α) (trail : List (Capture α)) : Frame → Search m ρ α
  | .resume t => task.search t (trail.take t.trail)
  | .slot t index p start ends =>
    task.slotEnds t.pos (trail.take t.trail) index p start (task.after t) ends
  | .regex t index x start ends =>
    task.regexEnds (trail.take t.trail) index x start (task.after t) ends

/-- What the machine does with a stack. -/
def unwind (task : Task m ρ α) (trail : List (Capture α)) :
    List Frame → Memory ρ α → m (Except (Failure ρ) (Found α))
  | [], memory => pure (.error (memory.failure task.start))
  | f :: stack, memory => (task.frameSearch trail f).otherwise (task.unwind trail stack) memory

/-- The stack with the way that is followed as its top. -/
def pending : Option Thread → List Frame → List Frame
  | some t, stack => .resume t :: stack
  | none, stack => stack

theorem unwind_cons (task : Task m ρ α) (trail : List (Capture α)) (f : Frame)
    (stack : List Frame) :
    task.unwind trail (f :: stack) =
      (task.frameSearch trail f).otherwise (task.unwind trail stack) := rfl

/-- A stack stands for the same search on two trails that agree where it owns them. -/
theorem unwind_congr (task : Task m ρ α) {trail trail' : List (Capture α)} {n : Nat}
    {stack : List Frame} (owned : Owned n stack) (agree : trail.take n = trail'.take n) :
    task.unwind trail stack = task.unwind trail' stack := by
  induction stack generalizing n with
  | nil => rfl
  | cons f stack ih =>
    have own : trail.take f.thread.trail = trail'.take f.thread.trail := by
      have := congrArg (List.take f.thread.trail) agree
      rwa [List.take_take, List.take_take, Nat.min_eq_left owned.1] at this
    have same : task.frameSearch trail f = task.frameSearch trail' f := by
      cases f <;> simp_all [frameSearch, Frame.thread]
    rw [unwind_cons, unwind_cons, same, ih owned.2 own]

/-- A way that has just added to what it owned of the trail searches on with all of it, and leaves the
stack below as it was. -/
theorem unwind_extend (task : Task m ρ α) {trail : List (Capture α)} {n : Nat}
    {stack : List Frame} (owned : Owned n stack) (le : n ≤ trail.length) (c : Capture α)
    (t : Thread) (all : t.trail = (trail.take n ++ [c]).length) :
    task.unwind (trail.take n ++ [c]) (.resume t :: stack) =
      (task.search t (trail.take n ++ [c])).otherwise (task.unwind trail stack) := by
  have below : task.unwind (trail.take n ++ [c]) stack = task.unwind trail stack := by
    refine task.unwind_congr owned ?_
    rw [List.take_append_of_le_length (by rw [List.length_take]; omega), List.take_take,
      Nat.min_self]
  rw [unwind_cons, frameSearch, all, List.take_length, below]

/-- Cutting the trail back to what a stack owns leaves the stack as it was. -/
theorem unwind_cut (task : Task m ρ α) (trail : List (Capture α)) {n : Nat} {stack : List Frame}
    (owned : Owned n stack) : task.unwind (trail.take n) stack = task.unwind trail stack :=
  task.unwind_congr owned (by rw [List.take_take, Nat.min_self])

theorem owned_cut {trail : List (Capture α)} {n : Nat} {stack : List Frame} (owned : Owned n stack)
    (le : n ≤ trail.length) : Owned (trail.take n).length stack :=
  owned.mono (by rw [List.length_take]; omega)

/-- What was owned of a trail is still there when one capture was added behind it. -/
theorem owned_extend {trail : List (Capture α)} {n : Nat} {stack : List Frame}
    (owned : Owned n stack) (le : n ≤ trail.length) (c : Capture α) :
    Owned (trail.take n ++ [c]).length stack := by
  refine owned.mono ?_
  rw [List.length_append, List.length_take]
  omega

variable [LawfulMonad m]

theorem filling_otherwise (task : Task m ρ α) (index : Nat) (p : Placeholder) (start stop : Nat)
    (next : α → Search m ρ α) (y : Memory ρ α → m (Except (Failure ρ) (Found α)))
    (memory : Memory ρ α) :
    (task.filling index p start stop next).otherwise y memory = (do
      match ← task.answer memory index p start stop with
      | (.found value, memory) => (next value).otherwise y memory
      | (.rejected reason, memory) => y (memory.fail start (.rejected reason))) := by
  simp only [filling, Search.otherwise, bind_assoc]
  refine bind_congr fun answer => ?_
  obtain ⟨value | reason, memory⟩ := answer
  · rfl
  · exact pure_bind _ _

/-- The machine takes up the top of the stack as if it had been following it. -/
theorem loop_eq_unwind (task : Task m ρ α) (current : Option Thread) (stack : List Frame)
    (trail : List (Capture α)) (memory : Memory ρ α)
    (owned : Owned trail.length (pending current stack)) :
    task.loop current stack trail memory = task.unwind trail (pending current stack) memory := by
  fun_induction task.loop current stack trail memory with
  | case1 trail memory t stack next h ih =>
    obtain ⟨-, -, keeps⟩ := h ▸ task.forward_exec t
    rw [ih ⟨Nat.le_trans (Nat.le_of_eq keeps) owned.1, owned.2.mono (Nat.le_of_eq keeps.symm)⟩]
    simp only [pending, unwind_cons, frameSearch, search_go h, keeps]
  | case2 trail memory t stack name next h longer ih =>
    obtain ⟨le, owned⟩ := owned
    rw [ih ⟨Nat.le_refl _, owned_extend owned le _⟩]
    refine (congrFun (task.unwind_extend owned le _ _ rfl) memory).trans ?_
    simp only [pending, unwind_cons, frameSearch, search_tag h, longer, List.length_append,
      List.length_singleton]
    rfl
  | case3 trail memory t stack next other h ih =>
    obtain ⟨le, owned⟩ := owned
    obtain ⟨-, ⟨-, keeps⟩, -, keeps'⟩ := h ▸ task.forward_exec t
    have le' : next.trail ≤ trail.length := Nat.le_trans (Nat.le_of_eq keeps) le
    have same : other.trail ≤ next.trail := Nat.le_of_eq (keeps'.trans keeps.symm)
    rw [ih ⟨le', same, owned.mono (Nat.le_of_eq keeps'.symm)⟩]
    simp only [pending, unwind_cons, frameSearch, search_split h, Search.or_otherwise, keeps, keeps']
  | case4 trail memory t stack frame h ih =>
    obtain ⟨le, owned⟩ := owned
    have forward := h ▸ task.forward_exec t
    cases frame with
    | resume => exact forward.elim
    | slot =>
      obtain ⟨-, rfl, -⟩ := forward
      rw [ih ⟨le, owned⟩]
      simp only [pending, unwind_cons, frameSearch, search_slot h]
    | regex =>
      obtain ⟨-, rfl, -⟩ := forward
      rw [ih ⟨le, owned⟩]
      simp only [pending, unwind_cons, frameSearch, search_regex h]
  | case5 trail memory t stack pos reason h ih =>
    rw [ih (owned.2.mono owned.1)]
    simp only [pending, unwind_cons, frameSearch, search_fail h, Search.fail_otherwise]
  | case6 trail memory t stack h ih =>
    rw [ih (owned.2.mono owned.1)]
    simp only [pending, unwind_cons, frameSearch, search_stuck h, Search.stuck_otherwise]
  | case7 trail memory t stack h =>
    simp only [pending, unwind_cons, frameSearch, search_done h, Search.found_otherwise]
  | case8 => rfl
  | case9 trail memory t stack ih =>
    obtain ⟨le, owned⟩ := owned
    have owned' : Owned t.trail (.resume t :: stack) := ⟨Nat.le_refl _, owned⟩
    rw [ih (owned_cut owned' le)]
    exact congrFun (task.unwind_cut trail owned') memory
  | case10 trail memory t index p start stack ih =>
    obtain ⟨le, owned⟩ := owned
    rw [ih (owned.mono le)]
    simp only [pending, unwind_cons, frameSearch, slotEnds, List.map_nil, Search.first,
      Search.stuck_otherwise]
  | case11 trail memory t index p start ends stack longer ih =>
    obtain ⟨le, owned⟩ := owned
    have owned' : Owned t.trail (.slot t index p start ends :: stack) := ⟨Nat.le_refl _, owned⟩
    rw [ih ⟨Nat.le_refl _, owned_extend owned' le _⟩]
    refine (congrFun (task.unwind_extend owned' le _ _ rfl) memory).trans ?_
    simp only [pending, unwind_cons, frameSearch, slotEnds, List.map_cons, Search.first,
      Search.or_otherwise]
    rfl
  | case12 trail memory t index p start stop ends stack found rejected =>
    obtain ⟨le, owned⟩ := owned
    have owned' : Owned t.trail (.slot t index p start ends :: stack) := ⟨Nat.le_refl _, owned⟩
    simp only [pending, unwind_cons, frameSearch, slotEnds, List.map_cons, Search.first,
      Search.or_otherwise, filling_otherwise]
    refine bind_congr fun answer => ?_
    obtain ⟨value | reason, memory⟩ := answer
    · refine (found value memory ⟨Nat.le_refl _, owned_extend owned' le _⟩).trans ?_
      exact congrFun (task.unwind_extend owned' le _ _ rfl) memory
    · refine (rejected reason memory (owned_cut owned' le)).trans ?_
      exact congrFun (task.unwind_cut trail owned') _
  | case13 trail memory t index x start stack ih =>
    obtain ⟨le, owned⟩ := owned
    rw [ih (owned.mono le)]
    simp only [pending, unwind_cons, frameSearch, regexEnds, List.map_nil, Search.first,
      Search.stuck_otherwise]
  | case14 trail memory t index x start stop ends stack text fits longer ih =>
    obtain ⟨le, owned⟩ := owned
    have owned' : Owned t.trail (.regex t index x start ends :: stack) := ⟨Nat.le_refl _, owned⟩
    rw [ih ⟨Nat.le_refl _, owned_extend owned' le _⟩]
    refine (congrFun (task.unwind_extend owned' le _ _ rfl) memory).trans ?_
    simp only [pending, unwind_cons, frameSearch, regexEnds, List.map_cons, Search.first,
      Search.or_otherwise]
    rw [if_pos fits]
    rfl
  | case15 trail memory t index x start stop ends stack text fits ih =>
    obtain ⟨le, owned⟩ := owned
    have owned' : Owned t.trail (.regex t index x start ends :: stack) := ⟨Nat.le_refl _, owned⟩
    refine (ih (owned_cut owned' le)).trans ?_
    simp only [pending, unwind_cons, frameSearch, regexEnds, List.map_cons, Search.first,
      Search.or_otherwise]
    rw [if_neg fits, Search.fail_otherwise]
    exact congrFun (task.unwind_cut trail owned') _

/-- **The machine carries out the search**, with an empty trail and nothing on the stack at first. -/
theorem loop_eq_search (task : Task m ρ α) (t : Thread) (memory : Memory ρ α) (h : t.trail = 0) :
    task.loop (some t) [] [] memory =
      (task.search t []).otherwise (fun memory => pure (.error (memory.failure task.start)))
        memory := by
  rw [task.loop_eq_unwind (some t) [] [] memory ⟨Nat.le_of_eq h, trivial⟩]
  simp only [pending, unwind_cons, frameSearch, List.take_nil]
  rfl

end Task

end Phrasebook.Match
