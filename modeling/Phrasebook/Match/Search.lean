import Phrasebook.Match.Extent
import Phrasebook.Pattern
import Phrasebook.Table

/-!
# Matching a pattern against a line

A match program is run by a machine that follows one way through it at a time. Where the program splits,
the preferred way is followed and the other is put on a stack; where it captures, the ends that the
capture may have go on the stack, the nearest first. When a way fails, the machine goes back to what was
put on the stack last. What the ways have captured lies on one trail, and each way knows how much of it
is its own. The answer for a placeholder and a stretch of the line is asked for once and remembered.

The machine works in any monad, in which the question whether a stretch fills a placeholder is asked.
-/

namespace Phrasebook.Match
open Text Pattern

/-- The answer for a stretch of text: what it was read as, or why it was turned down. -/
inductive Outcome (ρ α : Type) where
  | found (result : α)
  | rejected (reason : ρ)
deriving Repr, Inhabited

/-- Why a way through the program ended. -/
inductive Reason (ρ : Type) where
  /-- what the program holds from an instruction on was not there -/
  | expected (pc : Nat)
  /-- the text between two places was left -/
  | unexpected (start stop : Nat)
  /-- a stretch was turned down for a placeholder -/
  | rejected (reason : ρ)
  /-- the stretch between two places does not match a regex -/
  | noRegexMatch (start stop index : Nat)
  /-- no instruction was reached that could fail -/
  | nothing
deriving Repr, Inhabited

/-- A failed match: the furthest place at which a way ended, and why it ended there. -/
structure Failure (ρ : Type) where
  progress : Nat
  reason : Reason ρ
deriving Repr, Inhabited

/-- What a way through a program has picked up. -/
inductive Capture (α : Type) where
  | argument (index : Nat) (value : Option α)
  | regex (text : String)
  | tag (name : String)
deriving Repr, Inhabited

/-- A complete match. -/
structure Found (α : Type) where
  arguments : List (Option α)
  mark : Int64
  captures : List String
  tags : List String
deriving Repr, Inhabited

/-- The last value that was picked up for a placeholder. -/
def argumentOf {α : Type} (index : Nat) (trail : List (Capture α)) : Option α :=
  trail.foldl (fun last c =>
    match c with
    | .argument i value => if i == index then value else last
    | _ => last) none

/-- The match of a way that has left a trail, for so many placeholders. -/
def Found.ofTrail {α : Type} (placeholders : Nat) (mark : Int64) (trail : List (Capture α)) :
    Found α where
  arguments := (List.range placeholders).map fun index => argumentOf index trail
  mark := mark
  captures := trail.filterMap fun
    | .regex text => some text
    | _ => none
  tags := trail.filterMap fun
    | .tag name => some name
    | _ => none

/-- A way through a program: the next instruction, the place in the line, the mark so far, and how much
of the trail is its own. -/
structure Thread where
  pc : Nat
  pos : Nat
  mark : Int64 := 0
  trail : Nat := 0
deriving DecidableEq, Repr, Inhabited

/-- What is left to try when a way has ended. -/
inductive Frame where
  /-- the other way of a split -/
  | resume (t : Thread)
  /-- further ends of a placeholder; none stands for leaving it out -/
  | slot (t : Thread) (index : Nat) (p : Placeholder) (start : Nat) (ends : List (Option Nat))
  /-- further ends of a regex -/
  | regex (t : Thread) (index : Nat) (x : PatternRegex) (start : Nat) (ends : List Nat)
deriving Inhabited

/-- What one instruction makes of a way. -/
inductive Effect (ρ : Type) where
  | go (t : Thread)
  | tag (name : String) (t : Thread)
  /-- the way that is preferred, and the other -/
  | split (t other : Thread)
  /-- the ends of a capture are to be tried -/
  | capture (frame : Frame)
  | fail (pos : Nat) (reason : Reason ρ)
  /-- the way ends without a reason -/
  | stuck
  /-- the pattern has matched -/
  | done
deriving Inhabited

/-- Answers by the number of a placeholder and a stretch. -/
abbrev Answers (ρ α : Type) :=
  Table (fun (_, start, stop) => 1024 * stop + start : Nat × Nat × Nat → Nat) (Outcome ρ α)

/-- The answers so far, and the furthest failure. -/
structure Memory (ρ α : Type) where
  answers : Answers ρ α := {}
  furthest : Option (Nat × Reason ρ) := none

/-- Notes a failure, if it is the first or further than those before. -/
def Memory.fail {ρ α : Type} (m : Memory ρ α) (pos : Nat) (reason : Reason ρ) : Memory ρ α :=
  match m.furthest with
  | none => { m with furthest := some (pos, reason) }
  | some (before, _) => if before < pos then { m with furthest := some (pos, reason) } else m

/-- The failure of a match that starts at a place. -/
def Memory.failure {ρ α : Type} (m : Memory ρ α) (start : Nat) : Failure ρ :=
  match m.furthest with
  | some (progress, reason) => { progress, reason }
  | none => { progress := start, reason := .nothing }

/-- What is matched, and how stretches are read for placeholders and regexes. -/
structure Task (m : Type → Type) (ρ α : Type) where
  pattern : Pattern
  line : Line
  /-- the line up to the place at which the match has to end -/
  region : Line
  start : Nat
  stop : Nat
  isMatch : PatternRegex → List Char → Bool
  resolve : Placeholder → Nat → Nat → m (Outcome ρ α)

namespace Task

variable {m : Type → Type} {ρ α : Type}

/-- The answer for a placeholder and a stretch, asked for if it is not remembered. -/
def answer [Monad m] (task : Task m ρ α) (memory : Memory ρ α) (index : Nat) (p : Placeholder)
    (start stop : Nat) : m (Outcome ρ α × Memory ρ α) :=
  match memory.answers.get? (index, start, stop) with
  | some outcome => pure (outcome, memory)
  | none => do
    let outcome ← task.resolve p start stop
    pure (outcome, { memory with answers := memory.answers.insert (index, start, stop) outcome })

/-- Why a capture that starts at a place has no end there. -/
def noEnd (task : Task m ρ α) (pc start : Nat) : Nat × Reason ρ :=
  if task.stop ≤ start then (start, .expected pc)
  else if !task.region.isBoundary start then (start, .unexpected start task.stop)
  else if (task.pattern.remainderFrom (pc + 1)).isEmpty then
    (task.stop, .unexpected start task.stop)
  else (task.stop, .expected (pc + 1))

/-- The ends of a placeholder that starts at a place. It is left out last. -/
def endsOf (task : Task m ρ α) (p : Placeholder) (follow : Follow) (start : Nat) :
    List (Option Nat) :=
  (splitPoints task.region follow start task.stop).map some ++ if p.nullable then [none] else []

/-- Carries out the next instruction of a way. Programs only go forward, so a way that would go back
ends. -/
def exec (task : Task m ρ α) (t : Thread) : Effect ρ :=
  match task.pattern.program[t.pc]? with
  | none => .stuck
  | some (.lit text) =>
    match task.region.matchLiteral t.pos text with
    | some pos => .go { t with pc := t.pc + 1, pos }
    | none => .fail (task.region.skipBlanks t.pos) (.expected t.pc)
  | some .boundary =>
    let pos := task.region.skipBlanks t.pos
    if task.region.isBoundary pos then .go { t with pc := t.pc + 1 }
    else .fail pos (.unexpected pos task.stop)
  | some (.split prefer other) =>
    if t.pc < prefer && t.pc < other then .split { t with pc := prefer } { t with pc := other }
    else .stuck
  | some (.jump target) => if t.pc < target then .go { t with pc := target } else .stuck
  | some (.mark value) => .go { t with pc := t.pc + 1, mark := t.mark ^^^ value }
  | some (.tag name) => .tag name { t with pc := t.pc + 1 }
  | some .stop =>
    let rest := task.region.skipBlanks t.pos
    if task.stop ≤ rest then .done else .fail rest (.unexpected rest task.stop)
  | some (.slot index follow) =>
    match task.pattern.placeholders[index]? with
    | none => .stuck
    | some p =>
      let start := task.region.skipBlanks t.pos
      let ends := task.endsOf p follow start
      if ends.isEmpty then
        let (pos, reason) := task.noEnd t.pc start
        .fail pos reason
      else .capture (.slot t index p start ends)
  | some (.regex index follow) =>
    match task.pattern.regexes[index]? with
    | none => .stuck
    | some x =>
      let start := task.region.skipBlanks t.pos
      let ends := splitPoints task.region follow start task.stop
      if ends.isEmpty then
        let (pos, reason) := task.noEnd t.pc start
        .fail pos reason
      else .capture (.regex t index x start ends)

/-- A bound for the steps that a way may cause when so many instructions are left. -/
def weight (task : Task m ρ α) (instructions : Nat) : Nat :=
  Nat.pow (task.stop + 5) (instructions + 1)

/-- A bound for the steps that a way may cause. -/
def threadWeight (task : Task m ρ α) (t : Thread) : Nat :=
  task.weight (task.pattern.program.size - t.pc)

/-- A bound for the steps that are caused by so many ends of a capture at an instruction. -/
def endsWeight (task : Task m ρ α) (pc ends : Nat) : Nat :=
  ends * (task.weight (task.pattern.program.size - (pc + 1)) + 1) + 1

/-- A bound for the steps that what is left to try may cause. -/
def frameWeight (task : Task m ρ α) : Frame → Nat
  | .resume t => task.threadWeight t + 1
  | .slot t _ _ _ ends => task.endsWeight t.pc ends.length
  | .regex t _ _ _ ends => task.endsWeight t.pc ends.length

/-- A bound for the steps that are left to the machine. -/
def load (task : Task m ρ α) (current : Option Thread) (stack : List Frame) : Nat :=
  current.elim 0 task.threadWeight + stack.foldr (fun f rest => task.frameWeight f + rest) 0

end Task

namespace Task

variable {m : Type → Type} {ρ α : Type} {task : Task m ρ α}

/-- An effect of an instruction leads forward, and to no more ends than there can be. It leaves the
trail alone. -/
def Forward (task : Task m ρ α) (t : Thread) : Effect ρ → Prop
  | .go next | .tag _ next =>
    t.pc < task.pattern.program.size ∧ t.pc < next.pc ∧ next.trail = t.trail
  | .split next other =>
    t.pc < task.pattern.program.size ∧ (t.pc < next.pc ∧ next.trail = t.trail) ∧
      t.pc < other.pc ∧ other.trail = t.trail
  | .capture (.slot at_ _ _ _ ends) =>
    t.pc < task.pattern.program.size ∧ at_ = t ∧ ends.length ≤ task.stop + 2
  | .capture (.regex at_ _ _ _ ends) =>
    t.pc < task.pattern.program.size ∧ at_ = t ∧ ends.length ≤ task.stop + 2
  | .capture (.resume _) => False
  | .fail .. | .stuck | .done => True

/-- Every instruction leads forward. -/
theorem forward_exec (task : Task m ρ α) (t : Thread) : task.Forward t (task.exec t) := by
  unfold exec
  split
  case h_1 => trivial
  case h_2 text found =>
    split
    · exact ⟨(Array.getElem?_eq_some_iff.1 found).1, Nat.lt_succ_self _, rfl⟩
    · trivial
  case h_3 found =>
    dsimp only
    split
    · exact ⟨(Array.getElem?_eq_some_iff.1 found).1, Nat.lt_succ_self _, rfl⟩
    · trivial
  case h_4 prefer other found =>
    split
    case isTrue ahead =>
      simp only [Bool.and_eq_true, decide_eq_true_eq] at ahead
      exact ⟨(Array.getElem?_eq_some_iff.1 found).1, ⟨ahead.1, rfl⟩, ahead.2, rfl⟩
    case isFalse => trivial
  case h_5 target found =>
    split
    case isTrue ahead => exact ⟨(Array.getElem?_eq_some_iff.1 found).1, ahead, rfl⟩
    case isFalse => trivial
  case h_6 value found => exact ⟨(Array.getElem?_eq_some_iff.1 found).1, Nat.lt_succ_self _, rfl⟩
  case h_7 name found => exact ⟨(Array.getElem?_eq_some_iff.1 found).1, Nat.lt_succ_self _, rfl⟩
  case h_8 =>
    dsimp only
    split <;> trivial
  case h_9 index follow found =>
    split
    · trivial
    · dsimp only
      split
      · trivial
      · refine ⟨(Array.getElem?_eq_some_iff.1 found).1, rfl, ?_⟩
        have := length_splitPoints_le task.region follow (task.region.skipBlanks t.pos) task.stop
        simp only [endsOf, List.length_append, List.length_map]
        split <;> simp <;> omega
  case h_10 index follow found =>
    split
    · trivial
    · dsimp only
      split
      · trivial
      · refine ⟨(Array.getElem?_eq_some_iff.1 found).1, rfl, ?_⟩
        have := length_splitPoints_le task.region follow (task.region.skipBlanks t.pos) task.stop
        omega

/-- A way has some weight at every place. -/
theorem weight_pos (task : Task m ρ α) (n : Nat) : 0 < task.weight n :=
  Nat.pow_pos (by omega)

/-- Fewer instructions weigh less. -/
theorem weight_mono {n k : Nat} (h : n ≤ k) : task.weight n ≤ task.weight k :=
  Nat.pow_le_pow_right (by omega) (by omega)

/-- One instruction more weighs more than a split and more than all the ends of a capture. -/
theorem weight_succ (task : Task m ρ α) (n : Nat) :
    (task.stop + 5) * task.weight n = task.weight (n + 1) := by
  rw [weight, weight, Nat.mul_comm]
  exact (Nat.pow_succ ..).symm

/-- An instruction weighs more than what it leads to. -/
theorem threadWeight_lt {t next : Thread} (bound : t.pc < task.pattern.program.size)
    (ahead : t.pc < next.pc) : 2 * task.threadWeight next + 1 < task.threadWeight t := by
  obtain ⟨n, hn⟩ : ∃ n, task.pattern.program.size - t.pc = n + 1 :=
    ⟨task.pattern.program.size - t.pc - 1, by omega⟩
  have less : task.threadWeight next ≤ task.weight n := weight_mono (by omega)
  have grows := task.weight_succ n
  have positive := task.weight_pos n
  rw [Nat.add_mul] at grows
  simp only [threadWeight, hn] at less ⊢
  omega

/-- An instruction weighs more than the ends of its capture. -/
theorem endsWeight_lt {t : Thread} {ends : Nat} (bound : t.pc < task.pattern.program.size)
    (few : ends ≤ task.stop + 2) : task.endsWeight t.pc ends < task.threadWeight t := by
  obtain ⟨n, hn⟩ : ∃ n, task.pattern.program.size - t.pc = n + 1 :=
    ⟨task.pattern.program.size - t.pc - 1, by omega⟩
  have hn' : task.pattern.program.size - (t.pc + 1) = n := by omega
  have grows := task.weight_succ n
  have large : task.stop + 5 ≤ task.weight n := Nat.le_self_pow (by omega) _
  have more : ends * (task.weight n + 1) ≤ (task.stop + 2) * (task.weight n + 1) :=
    Nat.mul_le_mul_right _ few
  rw [Nat.mul_succ (task.stop + 2)] at more
  rw [show task.stop + 5 = (task.stop + 2) + 3 from rfl, Nat.add_mul] at grows
  simp only [endsWeight, threadWeight, hn, hn']
  omega

/-- What a capture puts on the stack weighs less than its instruction. -/
theorem frameWeight_lt {t : Thread} {frame : Frame} (h : task.exec t = .capture frame) :
    task.frameWeight frame < task.threadWeight t := by
  have forward := task.forward_exec t
  rw [h] at forward
  cases frame with
  | resume => exact forward.elim
  | slot =>
    obtain ⟨bound, rfl, few⟩ := forward
    exact endsWeight_lt bound few
  | regex =>
    obtain ⟨bound, rfl, few⟩ := forward
    exact endsWeight_lt bound few

/-- A way weighs something. -/
theorem threadWeight_pos (task : Task m ρ α) (t : Thread) : 0 < task.threadWeight t :=
  task.weight_pos _

end Task

namespace Task

variable {m : Type → Type} [Monad m] {ρ α : Type}

/-- Runs the machine on the way that it follows, if it follows one, and on what is left to try, the
last first. -/
def loop (task : Task m ρ α) (current : Option Thread) (stack : List Frame)
    (trail : List (Capture α)) (memory : Memory ρ α) : m (Except (Failure ρ) (Found α)) :=
  match current, stack with
  | some t, stack =>
    match h : task.exec t with
    | .go next => task.loop (some next) stack trail memory
    | .tag name next =>
      let trail := trail.take t.trail ++ [.tag name]
      task.loop (some { next with trail := trail.length }) stack trail memory
    | .split next other => task.loop (some next) (.resume other :: stack) trail memory
    | .capture frame => task.loop none (frame :: stack) trail memory
    | .fail pos reason => task.loop none stack trail (memory.fail pos reason)
    | .stuck => task.loop none stack trail memory
    | .done =>
      pure (.ok (.ofTrail task.pattern.placeholders.length t.mark (trail.take t.trail)))
  | none, [] => pure (.error (memory.failure task.start))
  | none, .resume t :: stack => task.loop (some t) stack (trail.take t.trail) memory
  | none, .slot _ _ _ _ [] :: stack => task.loop none stack trail memory
  | none, .slot t index p start (none :: ends) :: stack =>
    let trail := trail.take t.trail ++ [.argument index none]
    task.loop (some { t with pc := t.pc + 1, trail := trail.length })
      (.slot t index p start ends :: stack) trail memory
  | none, .slot t index p start (some stop :: ends) :: stack => do
    match ← task.answer memory index p start stop with
    | (.found value, memory) =>
      let trail := trail.take t.trail ++ [.argument index (some value)]
      task.loop (some { t with pc := t.pc + 1, pos := stop, trail := trail.length })
        (.slot t index p start ends :: stack) trail memory
    | (.rejected reason, memory) =>
      task.loop none (.slot t index p start ends :: stack) (trail.take t.trail)
        (memory.fail start (.rejected reason))
  | none, .regex _ _ _ _ [] :: stack => task.loop none stack trail memory
  | none, .regex t index x start (stop :: ends) :: stack =>
    let text := task.line.slice start stop
    if task.isMatch x text then
      let trail := trail.take t.trail ++ [.regex (String.ofList text)]
      task.loop (some { t with pc := t.pc + 1, pos := stop, trail := trail.length })
        (.regex t index x start ends :: stack) trail memory
    else
      task.loop none (.regex t index x start ends :: stack) (trail.take t.trail)
        (memory.fail start (.noRegexMatch start stop index))
termination_by task.load current stack
decreasing_by
  all_goals simp only [load, List.foldr_cons, Option.elim]
  case _ =>
    have := threadWeight_lt (h ▸ task.forward_exec t).1 (h ▸ task.forward_exec t).2.1
    omega
  case _ =>
    have less := threadWeight_lt (h ▸ task.forward_exec t).1 (h ▸ task.forward_exec t).2.1
    simp only [threadWeight] at less ⊢
    omega
  case _ =>
    have := threadWeight_lt (h ▸ task.forward_exec t).1 (h ▸ task.forward_exec t).2.1.1
    have := threadWeight_lt (h ▸ task.forward_exec t).1 (h ▸ task.forward_exec t).2.2.1
    simp only [frameWeight]
    omega
  case _ =>
    have := frameWeight_lt h
    omega
  case _ =>
    have := task.threadWeight_pos t
    omega
  case _ =>
    have := task.threadWeight_pos t
    omega
  -- one end of a capture less outweighs the way that takes it
  all_goals
    simp only [frameWeight, threadWeight, endsWeight, List.length_cons, List.length_nil,
      Nat.succ_mul]
    omega

end Task

/-- Matches a pattern against a line from one place to another, where a test says what regexes match.
Blanks apart, all of the stretch has to be matched. -/
def runWith {m : Type → Type} [Monad m] {ρ α : Type} (isMatch : PatternRegex → List Char → Bool)
    (pattern : Pattern) (line : Line) (start stop : Nat)
    (resolve : Placeholder → Nat → Nat → m (Outcome ρ α)) : m (Except (Failure ρ) (Found α)) :=
  let task : Task m ρ α :=
    { pattern, line, region := line.before stop, start, stop, isMatch, resolve }
  task.loop (some { pc := 0, pos := start }) [] [] {}

/-- Matches a pattern against a line from one place to another. -/
def run {m : Type → Type} [Monad m] {ρ α : Type} (pattern : Pattern) (line : Line)
    (start stop : Nat) (resolve : Placeholder → Nat → Nat → m (Outcome ρ α)) :
    m (Except (Failure ρ) (Found α)) :=
  runWith (fun x text => x.regex.isMatch text) pattern line start stop resolve

/-- The wording of the reason for which a pattern does not match a line. -/
def Reason.message {ρ : Type} (wording : ρ → String) (pattern : Pattern) (line : Line) :
    Reason ρ → String
  | expected pc => "expected '" ++ String.ofList (pattern.remainderFrom pc) ++ "'"
  | unexpected start stop => "unexpected '" ++ String.ofList (trim (line.slice start stop)) ++ "'"
  | rejected reason => wording reason
  | noRegexMatch start stop index =>
    let source := ((pattern.regexes[index]?).map PatternRegex.source).getD []
    "'" ++ line.text start stop ++ "' does not match <" ++ String.ofList source ++ ">"
  | nothing => "no match"

end Phrasebook.Match
