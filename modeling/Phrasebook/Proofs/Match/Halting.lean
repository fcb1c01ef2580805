import Phrasebook.Proofs.Match.Backtrack
import Phrasebook.Proofs.Pattern.Traversal

/-!
# Ways through a program end

A way through a program goes on from each instruction to one that the instruction leads to, whatever a capture takes
of the line (`Task.Leads`). In a well-formed program a way never gets stuck, as no instruction, placeholder or regex is
missing (`exec_ne_stuck`), and it has no more instructions than the program (`Way.forward`). `compile_halts` says all of
this of every pattern that compiles.
-/

namespace Phrasebook.Match
open Text Pattern

variable {m : Type → Type} {ρ α : Type}

/-- The instructions at which a way goes on after an effect. -/
def Effect.places : Effect ρ → List Nat
  | .go next | .tag _ next => [next.pc]
  | .split next other => [next.pc, other.pc]
  | .capture frame => [frame.thread.pc + 1]
  | .fail .. | .stuck | .done => []

namespace Task

/-- One instruction leads a way on: to the next one, to either side of a split, or behind a capture that takes one of
its ends. How much of the trail the way owns then does not matter to where it goes. -/
inductive Leads (task : Task m ρ α) (t : Thread) : Thread → Prop
  | go {next : Thread} (h : task.exec t = .go next) : Leads task t next
  | tag {name : String} {next : Thread} (h : task.exec t = .tag name next) (trail : Nat) :
      Leads task t { next with trail }
  | prefer {next other : Thread} (h : task.exec t = .split next other) : Leads task t next
  | other {next other : Thread} (h : task.exec t = .split next other) : Leads task t other
  | slot {index start : Nat} {p : Placeholder} {ends : List (Option Nat)} {stop : Option Nat}
      (h : task.exec t = .capture (.slot t index p start ends)) (among : stop ∈ ends) (trail : Nat) :
      Leads task t { t with pc := t.pc + 1, pos := stop.getD t.pos, trail }
  | regex {index start : Nat} {x : PatternRegex} {ends : List Nat} {stop : Nat}
      (h : task.exec t = .capture (.regex t index x start ends)) (among : stop ∈ ends) (trail : Nat) :
      Leads task t { t with pc := t.pc + 1, pos := stop, trail }

/-- A way from one place of a program to another over so many instructions. -/
inductive Way (task : Task m ρ α) : Nat → Thread → Thread → Prop
  | here (t : Thread) : Way task 0 t t
  | on {n : Nat} {t next last : Thread} (leads : task.Leads t next) (way : Way task n next last) :
      Way task (n + 1) t last

variable {task : Task m ρ α} {t t' : Thread}

/-- A way goes on where its instruction leads. -/
theorem targets_exec {instr : Instr} (found : task.pattern.program[t.pc]? = some instr) :
    ∀ pc ∈ (task.exec t).places, pc ∈ instr.targets t.pc := by
  unfold exec
  simp only [found]
  cases instr with
  | lit text =>
    dsimp only
    split <;> simp [Effect.places, Instr.targets]
  | boundary =>
    dsimp only
    split <;> simp [Effect.places, Instr.targets]
  | split prefer other =>
    dsimp only
    split <;> simp [Effect.places, Instr.targets]
  | jump target =>
    dsimp only
    split <;> simp [Effect.places, Instr.targets]
  | mark value => simp [Effect.places, Instr.targets]
  | tag name => simp [Effect.places, Instr.targets]
  | stop =>
    dsimp only
    split <;> simp [Effect.places]
  | slot index follow =>
    dsimp only
    split
    · simp [Effect.places]
    · split <;> simp [Effect.places, Instr.targets, Frame.thread]
  | regex index follow =>
    dsimp only
    split
    · simp [Effect.places]
    · split <;> simp [Effect.places, Instr.targets, Frame.thread]

theorem Leads.mem_places (leads : task.Leads t t') : t'.pc ∈ (task.exec t).places := by
  cases leads with
  | go h | tag h | prefer h | other h | slot h | regex h => simp [h, Effect.places, Frame.thread]

/-- An instruction leads ahead, and not out of the program. -/
theorem Leads.forward (wellFormed : task.pattern.WellFormed) (leads : task.Leads t t') :
    t.pc < t'.pc ∧ t'.pc < task.pattern.program.size := by
  cases found : task.pattern.program[t.pc]? with
  | none =>
    have none := leads.mem_places
    simp [exec, found, Effect.places] at none
  | some instr => exact wellFormed.forward t.pc instr found t'.pc (targets_exec found _ leads.mem_places)

/-- **A way has no more instructions** than there are from where it starts. -/
theorem Way.forward {n : Nat} (wellFormed : task.pattern.WellFormed) (way : task.Way n t t')
    (inside : t.pc < task.pattern.program.size) : t.pc + n ≤ t'.pc ∧ t'.pc < task.pattern.program.size := by
  induction way with
  | here => exact ⟨Nat.le_refl _, inside⟩
  | on leads _ ih =>
    obtain ⟨ahead, inside⟩ := leads.forward wellFormed
    obtain ⟨further, last⟩ := ih inside
    exact ⟨by omega, last⟩

/-- **A way is never stuck**: no instruction, placeholder or regex is missing, and none leads back. -/
theorem exec_ne_stuck (wellFormed : task.pattern.WellFormed) (inside : t.pc < task.pattern.program.size) :
    task.exec t ≠ .stuck := by
  have found := Array.getElem?_eq_getElem inside
  generalize task.pattern.program[t.pc] = instr at found
  have ahead := wellFormed.forward t.pc instr found
  unfold exec
  simp only [found]
  cases instr with
  | lit text =>
    dsimp only
    split <;> simp
  | boundary =>
    dsimp only
    split <;> simp
  | split prefer other =>
    have prefers := (ahead prefer (by simp [Instr.targets])).1
    have others := (ahead other (by simp [Instr.targets])).1
    simp [prefers, others]
  | jump target => simp [(ahead target (by simp [Instr.targets])).1]
  | mark value => simp
  | tag name => simp
  | stop =>
    dsimp only
    split <;> simp
  | slot index follow =>
    obtain ⟨p, there⟩ := wellFormed.exists_placeholder found
    simp only [there]
    split <;> simp
  | regex index follow =>
    obtain ⟨x, there⟩ := wellFormed.exists_regex found
    simp only [there]
    split <;> simp

end Task

/-- What goes through the program of a pattern stops before it has looked at more instructions than the program has,
and looks up nothing that is missing: every way of a match, whatever the line and the answers; the search for what may
follow a capture, which finds what the capture knows; and what is written of what the program expects. -/
structure Halts (p : Pattern) : Prop where
  ways {m : Type → Type} {ρ α : Type} (task : Task m ρ α) (same : task.pattern = p) {n : Nat} {t t' : Thread}
    (inside : t.pc < p.program.size) (way : task.Way n t t') : n < p.program.size ∧ task.exec t' ≠ .stuck
  follows (pc : Nat) (inside : pc < p.program.size) :
    ∃ follow, collect? p.program p.program.size [] {} [pc] = some follow
  known (pc : Nat) (instr : Instr) (follow : Follow) (found : p.program[pc]? = some instr)
    (knows : instr.follow? = some follow) : collect? p.program p.program.size [] {} [pc + 1] = some follow
  remainders (pc : Nat) (inside : pc < p.program.size) :
    remainder? p.program p.placeholders p.regexes p.program.size pc {} = some (p.remainderFrom pc)

/-- **Compiled programs are well-formed, so running them halts.** -/
theorem compile_halts {resolve : String → Option PatternType} {source : String} {p : Pattern}
    (compiled : Pattern.compile resolve source = .ok p) :
    p.WellFormed ∧ InTextOrder p (tokens source) ∧ Halts p := by
  have wellFormed := compile_wellFormed compiled
  obtain ⟨follows, known⟩ := collect?_eq_some compiled
  refine ⟨wellFormed, compile_inTextOrder compiled, ⟨fun task same n t t' inside way => ?_, follows, known,
    fun pc inside => wellFormed.remainder?_eq_some inside (Nat.le_add_left _ _) {}⟩⟩
  subst same
  obtain ⟨far, inside'⟩ := way.forward wellFormed inside
  exact ⟨by omega, Task.exec_ne_stuck wellFormed inside'⟩

/-- A choice with an optional part in one branch, a choice with an empty branch in an optional part, and an optional
part of a blank, which is dropped. -/
theorem compile_halts_nested :
    let types (_ : String) := some (PatternType.one 0)
    let source := "set [the] (%number%|[all] <.+>)[ ] [to (on|off|) %text%]"
    ∃ p, Pattern.compile types source = .ok p ∧ p.WellFormed ∧ InTextOrder p (tokens source) ∧ Halts p := by
  intro types source
  have isOk : (Pattern.compile types source).isOk = true := by decide +kernel
  cases compiled : Pattern.compile types source with
  | error => simp [compiled, Except.isOk, Except.toBool] at isOk
  | ok p => exact ⟨p, rfl, compile_halts compiled⟩

end Phrasebook.Match
