import Phrasebook.Proofs.Match.Backtrack
import Phrasebook.Proofs.Pattern.Compiled
import Phrasebook.Proofs.Pattern.Layout

/-!
# Reading along the element tree

A line can be read along the element tree of a pattern, without a program: an element is read from a way
on, and every way behind it is gone on with. `Element.read` does that with backtracking. The main
statement is `searchAt_element`: searching from the code of an element on is reading the element, and
going on at the instruction behind its code.
-/

namespace Phrasebook.Match
open Text Pattern

/-- A way through an element tree: the place in the line, and what was picked up so far. -/
structure Way (α : Type) where
  pos : Nat
  mark : Int64 := 0
  captures : List (Capture α) := []

namespace Way

variable {α : Type}

/-- The way that stands at an instruction. -/
def at_ (w : Way α) (pc : Nat) : Thread where
  pc := pc
  pos := w.pos
  mark := w.mark
  trail := w.captures.length

/-- The way into a branch with a label. -/
def enter (w : Way α) (label : Label) : Way α where
  pos := w.pos
  mark := label.mark.elim w.mark (w.mark ^^^ ·)
  captures := w.captures ++ (label.tag.map Capture.tag).toList

end Way

variable {m : Type → Type} [Monad m] {ρ α : Type}

/-- What is done with a way behind an element. -/
abbrev Onward (m : Type → Type) (ρ α : Type) :=
  Way α → Search m ρ α

/-- Reads a literal. -/
def Task.readLiteral (task : Task m ρ α) (pc : Nat) (text : List Char) (w : Way α)
    (next : Onward m ρ α) : Search m ρ α :=
  match task.region.matchLiteral w.pos text with
  | some pos => next { w with pos }
  | none => .fail (task.region.skipBlanks w.pos) (.expected pc)

/-- Reads a boundary. -/
def Task.readSpace (task : Task m ρ α) (w : Way α) (next : Onward m ρ α) : Search m ρ α :=
  let pos := task.region.skipBlanks w.pos
  if task.region.isBoundary pos then next w else .fail pos (.unexpected pos task.stop)

/-- Reads a placeholder that stands before something. -/
def Task.readPlaceholder (task : Task m ρ α) (pc : Nat) (after : Follow) (index : Nat) (w : Way α)
    (next : Onward m ρ α) : Search m ρ α :=
  match task.pattern.placeholders[index]? with
  | none => .stuck
  | some p =>
    let start := task.region.skipBlanks w.pos
    let ends := task.endsOf p after start
    if ends.isEmpty then .fail (task.noEnd pc start).1 (task.noEnd pc start).2
    else
      task.slotEnds w.pos w.captures index p start
        (fun pos captures => next { w with pos, captures }) ends

/-- Reads a regex that stands before something. -/
def Task.readRegex (task : Task m ρ α) (pc : Nat) (after : Follow) (index : Nat) (w : Way α)
    (next : Onward m ρ α) : Search m ρ α :=
  match task.pattern.regexes[index]? with
  | none => .stuck
  | some x =>
    let start := task.region.skipBlanks w.pos
    let ends := splitPoints task.region after start task.stop
    if ends.isEmpty then .fail (task.noEnd pc start).1 (task.noEnd pc start).2
    else
      task.regexEnds w.captures index x start
        (fun pos captures => next { w with pos, captures }) ends

mutual

/-- Reads an element that stands before something. Failures are reported by the place of the element's
code. -/
def Task.read (task : Task m ρ α) (pc : Nat) (after : Follow) (w : Way α) (next : Onward m ρ α) :
    Element → Search m ρ α
  | .literal text => task.readLiteral pc text w next
  | .space => task.readSpace w next
  | .optional inner => (task.read (pc + 1) after w next inner).or (next w)
  | .choice branches => task.readBranches pc after w next branches
  | .placeholder index => task.readPlaceholder pc after index w next
  | .regex index => task.readRegex pc after index w next
  | .sequence items => task.readItems pc after w next items

/-- Reads the elements of a sequence one after the other. -/
def Task.readItems (task : Task m ρ α) (pc : Nat) (after : Follow) (w : Way α)
    (next : Onward m ρ α) : List Element → Search m ρ α
  | [] => next w
  | e :: rest =>
    task.read pc (Element.firstOfItems after rest) w
      (fun w => task.readItems (pc + e.codeSize) after w next rest) e

/-- Reads one branch after the other until one of them leads on. -/
def Task.readBranches (task : Task m ρ α) (pc : Nat) (after : Follow) (w : Way α)
    (next : Onward m ρ α) : List (Label × Element) → Search m ρ α
  | [] => .stuck
  | [(label, e)] => task.read (pc + label.code.length) after (w.enter label) next e
  | (label, e) :: rest =>
    (task.read (pc + 1 + label.code.length) after (w.enter label) next e).or
      (task.readBranches (pc + label.code.length + e.codeSize + 2) after w next rest)

end

namespace Task

/-- The search from a way that stands at an instruction. -/
def searchAt (task : Task m ρ α) (pc : Nat) (w : Way α) : Search m ρ α :=
  task.search (w.at_ pc) w.captures

/-- The program of a task is the code of a tree, with something that may follow at each place put into the
captures before it. -/
def Laid (task : Task m ρ α) (root : Element) (follows : Nat → Follow) : Prop :=
  ∀ pc : Nat,
    task.pattern.program[pc]? = (plainCode root)[pc]?.map (Instr.withFollow (follows (pc + 1)))

omit [Monad m] in
/-- The program of a tree. -/
theorem laid_programOf {task : Task m ρ α} {root : Element}
    (program : task.pattern.program = (programOf root).toArray) :
    task.Laid root (followAt (plainCode root)) := by
  intro pc
  rw [program, List.getElem?_toArray, getElem?_programOf]

section Instructions

variable {task : Task m ρ α} {root : Element} {follows : Nat → Follow} (laid : task.Laid root follows)
include laid

omit [Monad m] in
/-- The instructions of the program. -/
theorem program_eq {pc : Nat} {instr : Instr} (found : (plainCode root)[pc]? = some instr) :
    task.pattern.program[pc]? = some (instr.withFollow (follows (pc + 1))) := by
  rw [laid, found, Option.map_some]

theorem searchAt_lit {pc : Nat} {text : List Char} (w : Way α)
    (found : (plainCode root)[pc]? = some (.lit text)) :
    task.searchAt pc w = task.readLiteral pc text w (task.searchAt (pc + 1)) := by
  have instr := program_eq laid found
  rw [readLiteral, searchAt]
  cases step : task.region.matchLiteral w.pos text with
  | none => exact search_fail (by simp [exec, Way.at_, instr, Instr.withFollow, step])
  | some pos => exact search_go (by simp [exec, Way.at_, instr, Instr.withFollow, step])

theorem searchAt_boundary {pc : Nat} (w : Way α)
    (found : (plainCode root)[pc]? = some .boundary) :
    task.searchAt pc w = task.readSpace w (task.searchAt (pc + 1)) := by
  have instr := program_eq laid found
  rw [readSpace, searchAt]
  split
  · exact search_go (by simp_all [exec, Way.at_, Instr.withFollow])
  · exact search_fail (by simp_all [exec, Way.at_, Instr.withFollow])

theorem searchAt_split {pc prefer other : Nat} (w : Way α)
    (found : (plainCode root)[pc]? = some (.split prefer other)) (ahead : pc < prefer ∧ pc < other) :
    task.searchAt pc w = (task.searchAt prefer w).or (task.searchAt other w) := by
  have instr := program_eq laid found
  exact search_split (by simp [exec, Way.at_, instr, Instr.withFollow, ahead])

theorem searchAt_jump {pc target : Nat} (w : Way α)
    (found : (plainCode root)[pc]? = some (.jump target)) (ahead : pc < target) :
    task.searchAt pc w = task.searchAt target w := by
  have instr := program_eq laid found
  exact search_go (by simp [exec, Way.at_, instr, Instr.withFollow, ahead])

theorem searchAt_mark {pc : Nat} {value : Int64} (w : Way α)
    (found : (plainCode root)[pc]? = some (.mark value)) :
    task.searchAt pc w = task.searchAt (pc + 1) { w with mark := w.mark ^^^ value } := by
  have instr := program_eq laid found
  exact search_go (by simp [exec, Way.at_, instr, Instr.withFollow])

theorem searchAt_tag {pc : Nat} {name : String} (w : Way α)
    (found : (plainCode root)[pc]? = some (.tag name)) :
    task.searchAt pc w =
      task.searchAt (pc + 1) { w with captures := w.captures ++ [.tag name] } := by
  have instr := program_eq laid found
  have step : task.exec (w.at_ pc) = .tag name { w.at_ pc with pc := pc + 1 } := by
    simp [exec, Way.at_, instr, Instr.withFollow]
  rw [searchAt, search_tag step]
  simp [searchAt, Way.at_]

theorem searchAt_label {pc : Nat} (label : Label) (w : Way α)
    (placed : Placed (plainCode root) pc label.code) :
    task.searchAt pc w = task.searchAt (pc + label.code.length) (w.enter label) := by
  obtain ⟨mark, tag⟩ := label
  cases mark with
  | none =>
    cases tag with
    | none => simp [Label.code, Way.enter]
    | some name => simpa [Label.code, Way.enter] using searchAt_tag laid w placed.1
  | some value =>
    rw [searchAt_mark laid w placed.1]
    cases tag with
    | none => simp [Label.code, Way.enter]
    | some name => simpa [Label.code, Way.enter] using searchAt_tag laid _ placed.2.1

theorem searchAt_slot {pc index : Nat} {follow : Follow} (w : Way α)
    (found : (plainCode root)[pc]? = some (.slot index follow)) :
    task.searchAt pc w =
      task.readPlaceholder pc (follows (pc + 1)) index w (task.searchAt (pc + 1)) := by
  have instr := program_eq laid found
  rw [readPlaceholder, searchAt]
  split
  next missing =>
    exact search_stuck (by simp [exec, Way.at_, instr, Instr.withFollow, missing])
  next p present =>
    dsimp only
    split
    next none => exact search_fail (by simp_all [exec, Way.at_, Instr.withFollow])
    next some => exact search_slot (by simp_all [exec, Way.at_, Instr.withFollow])

theorem searchAt_regex {pc index : Nat} {follow : Follow} (w : Way α)
    (found : (plainCode root)[pc]? = some (.regex index follow)) :
    task.searchAt pc w =
      task.readRegex pc (follows (pc + 1)) index w (task.searchAt (pc + 1)) := by
  have instr := program_eq laid found
  rw [readRegex, searchAt]
  split
  next missing =>
    exact search_stuck (by simp [exec, Way.at_, instr, Instr.withFollow, missing])
  next x present =>
    dsimp only
    split
    next none => exact search_fail (by simp_all [exec, Way.at_, Instr.withFollow])
    next some => exact search_regex (by simp_all [exec, Way.at_, Instr.withFollow])

/-- At the last instruction nothing of the line may be left. -/
theorem searchAt_stop {pc : Nat} (w : Way α) (found : (plainCode root)[pc]? = some .stop) :
    task.searchAt pc w =
      let rest := task.region.skipBlanks w.pos
      if task.stop ≤ rest then
        .found (.ofTrail task.pattern.placeholders.length w.mark w.captures)
      else .fail rest (.unexpected rest task.stop) := by
  have instr := program_eq laid found
  rw [searchAt]
  dsimp only
  split
  next nothing => exact search_done (by simp [exec, Way.at_, instr, Instr.withFollow, nothing])
  next left => exact search_fail (by simp [exec, Way.at_, instr, Instr.withFollow, left])

end Instructions

variable {task : Task m ρ α} {root : Element}

mutual

/-- **The search from the code of an element on** reads the element and goes on behind its code. -/
theorem searchAt_element (laid : task.Laid root (followAt (plainCode root))) {pc : Nat}
    (w : Way α) :
    (e : Element) → e.WellFormed → Placed (plainCode root) pc (e.code pc) →
      task.searchAt pc w =
        task.read pc (followAt (plainCode root) (pc + e.codeSize)) w
          (task.searchAt (pc + e.codeSize)) e
  | .literal text, _, placed => searchAt_lit laid w placed.1
  | .space, _, placed => searchAt_boundary laid w placed.1
  | .placeholder _, _, placed => searchAt_slot laid w placed.1
  | .regex _, _, placed => searchAt_regex laid w placed.1
  | .optional inner, wellFormed, placed => by
    rw [Element.code] at placed
    rw [searchAt_split laid w placed.1 ⟨by omega, by omega⟩,
      searchAt_element laid w inner wellFormed placed.2, Task.read, Element.codeSize]
    rw [show pc + 1 + inner.codeSize = pc + (inner.codeSize + 1) by omega]
  | .choice branches, wellFormed, placed => by
    rw [Element.code] at placed
    exact searchAt_branches laid w branches wellFormed.1 wellFormed.2 placed rfl
  | .sequence items, wellFormed, placed => by
    rw [Element.code] at placed
    exact searchAt_items laid w items wellFormed placed

theorem searchAt_items (laid : task.Laid root (followAt (plainCode root))) {pc : Nat}
    (w : Way α) :
    (items : List Element) → Element.WellFormedItems items →
      Placed (plainCode root) pc (Element.itemsCode pc items) →
      task.searchAt pc w =
        task.readItems pc (followAt (plainCode root) (pc + Element.itemsSize items)) w
          (task.searchAt (pc + Element.itemsSize items)) items
  | [], _, _ => rfl
  | e :: rest, wellFormed, placed => by
    rw [Element.itemsCode, placed_append, Element.length_code] at placed
    obtain ⟨here, behind⟩ := placed
    have shift : pc + Element.itemsSize (e :: rest) =
        pc + e.codeSize + Element.itemsSize rest := by
      rw [Element.itemsSize, Nat.add_assoc]
    rw [searchAt_element laid w e wellFormed.1 here, followAt_items rest behind, Task.readItems, shift]
    congr 1
    funext w'
    exact searchAt_items laid w' rest wellFormed.2 behind

theorem searchAt_branches (laid : task.Laid root (followAt (plainCode root))) {pc goal : Nat}
    (w : Way α) :
    (branches : List (Label × Element)) → branches ≠ [] → Element.WellFormedBranches branches →
      Placed (plainCode root) pc (Element.branchesCode pc goal branches) →
      goal = pc + Element.branchesSize branches →
      task.searchAt pc w =
        task.readBranches pc (followAt (plainCode root) goal) w (task.searchAt goal) branches
  | [], nonempty, _, _, _ => absurd rfl nonempty
  | [(label, e)], _, wellFormed, placed, same => by
    rw [Element.branchesCode, placed_append] at placed
    rw [searchAt_label laid label w placed.1, searchAt_element laid _ e wellFormed.1 placed.2,
      Task.readBranches, same, Element.branchesSize, Nat.add_assoc]
  | (label, e) :: b :: rest, _, wellFormed, placed, same => by
    have parts := branchPlaced placed
    simp only [Element.branchesSize] at same
    have ahead : pc + 1 + label.code.length + e.codeSize < goal := by omega
    have leave : task.searchAt (pc + 1 + label.code.length + e.codeSize) =
        task.searchAt goal := by
      funext w'
      exact searchAt_jump laid w' parts.jumps ahead
    have follow : followAt (plainCode root) (pc + 1 + label.code.length + e.codeSize) =
        followAt (plainCode root) goal := by
      rw [followAt_eq parts.jumps ahead, Instr.first]
    rw [searchAt_split laid w parts.splits ⟨by omega, by omega⟩,
      searchAt_label laid label w parts.labelled, searchAt_element laid _ e wellFormed.1 parts.inner,
      leave, follow, searchAt_branches laid w (b :: rest) (by simp) wellFormed.2 parts.others (by omega)]
    simp only [Task.readBranches]

end

/-- What is done behind the tree of a pattern: nothing of the line may be left. -/
def finish (task : Task m ρ α) : Onward m ρ α := fun w =>
  let rest := task.region.skipBlanks w.pos
  if task.stop ≤ rest then .found (.ofTrail task.pattern.placeholders.length w.mark w.captures)
  else .fail rest (.unexpected rest task.stop)

/-- **The machine reads the tree**: it carries out the reading of the pattern's tree. -/
theorem loop_eq_read [LawfulMonad m] (task : Task m ρ α) (sound : task.pattern.Sound) :
    task.loop (some { pc := 0, pos := task.start }) [] [] {} =
      (task.read 0 { canEnd := true } { pos := task.start } task.finish
        task.pattern.root).otherwise
        (fun memory => pure (.error (memory.failure task.start))) {} := by
  rw [task.loop_eq_search _ {} rfl]
  have laid := laid_programOf sound.program
  have read := searchAt_element laid { pos := task.start } task.pattern.root sound.wellFormed
    (placed_root _)
  rw [Nat.zero_add, followAt_stop] at read
  have finish : task.searchAt task.pattern.root.codeSize = task.finish := by
    funext w
    exact searchAt_stop laid w (plainCode_stop _)
  rw [← finish, ← read]
  rfl

end Task

end Phrasebook.Match
