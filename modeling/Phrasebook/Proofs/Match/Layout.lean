import Phrasebook.Proofs.Match.Backtrack
import Phrasebook.Proofs.Pattern.Literals
import Phrasebook.Proofs.Text.Standing

/-!
# Matching lines that differ in layout and letter case

A pattern of literals, labels and groups alone is matched against two lines that hold the same words up to letter
case. The two runs stand at places of their lines that are on a level and take the same branch at every split
(`exec_onLevel`), so one of them finds what the other one finds (`search_onLevel`).
-/

namespace Phrasebook.Match
open Text Pattern

variable {m : Type → Type} [Monad m] {ρ α : Type}

/-- A search finds something, or nothing, whatever was remembered before. -/
def Search.Yields (x : Search m ρ α) (found : Option (Found α)) : Prop :=
  ∀ memory, ∃ memory', x memory = pure (found, memory')

namespace Search

variable {x y : Search m ρ α} {found : Option (Found α)}

theorem yields_found (f : Found α) : (Search.found f : Search m ρ α).Yields (some f) := fun memory =>
  ⟨memory, rfl⟩

theorem yields_stuck : (stuck : Search m ρ α).Yields none := fun memory =>
  ⟨memory, rfl⟩

theorem yields_fail (pos : Nat) (reason : Reason ρ) : (fail pos reason : Search m ρ α).Yields none := fun memory =>
  ⟨memory.fail pos reason, rfl⟩

variable [LawfulMonad m]

/-- What the first search finds is not looked for by the second. -/
theorem Yields.or {found' : Option (Found α)} (h : x.Yields found) (h' : y.Yields found') :
    (x.or y).Yields (found.or found') := by
  intro memory
  obtain ⟨memory', first⟩ := h memory
  rw [Search.or, first, pure_bind]
  cases found with
  | some f => exact ⟨memory', rfl⟩
  | none => exact h' memory'

theorem Yields.otherwise (h : x.Yields found) (memory : Memory ρ α) (start : Nat) :
    ∃ result : Except (Failure ρ) (Found α),
      x.otherwise (fun memory => pure (.error (memory.failure start))) memory = pure result ∧
        result.toOption = found := by
  obtain ⟨memory', same⟩ := h memory
  rw [Search.otherwise, same, pure_bind]
  cases found with
  | some f => exact ⟨.ok f, rfl, rfl⟩
  | none => exact ⟨_, rfl, rfl⟩

end Search

/-- What is matched is all of a line. -/
def wholeTask (pattern : Pattern) (line : Line) (resolve : Placeholder → Nat → Nat → m (Outcome ρ α)) :
    Task m ρ α :=
  { pattern, line, region := line, start := 0, stop := line.size,
    isMatch := fun x text => x.regex.isMatch text, resolve }

theorem run_eq_wholeTask [LawfulMonad m] (pattern : Pattern) (line : Line)
    (resolve : Placeholder → Nat → Nat → m (Outcome ρ α)) :
    Match.run pattern line 0 line.size resolve =
      ((wholeTask pattern line resolve).search { pc := 0, pos := 0 } []).otherwise
        (fun memory => pure (.error (memory.failure 0))) {} := by
  have run := (wholeTask pattern line resolve).loop_eq_search { pc := 0, pos := 0 } {} rfl
  unfold Match.run runWith
  dsimp only
  rw [line.before_size]
  exact run

/-- Places of two lines that correspond once blanks are skipped. A line may start with blanks where the other one
does not. -/
def Level (l l' : Line) (i i' : Nat) : Prop :=
  l.Corresponds l' (l.skipBlanks i) (l'.skipBlanks i')

namespace Level

variable {l l' : Line} {i i' : Nat}

theorem boundary (h : Level l l' i i') : l.isBoundary (l.skipBlanks i) = l'.isBoundary (l'.skipBlanks i') := by
  have skipped := Line.Corresponds.boundary h
  rwa [Line.skipBlanks_skipBlanks, Line.skipBlanks_skipBlanks] at skipped

theorem size_le_iff (h : Level l l' i i') : l.size ≤ l.skipBlanks i ↔ l'.size ≤ l'.skipBlanks i' := by
  have skipped := Line.Corresponds.size_le_iff h
  rwa [Line.skipBlanks_skipBlanks, Line.skipBlanks_skipBlanks] at skipped

theorem matchLiteral {literal : List Char} (spaced : Spaced literal) (h : Level l l' i i') :
    Option.Rel (Level l l') (l.matchLiteral i literal) (l'.matchLiteral i' literal) := by
  have found : Option.Rel (l.Corresponds l') (l.matchLiteral i literal) (l'.matchLiteral i' literal) :=
    Line.matchFrom_corresponds spaced h
  generalize l.matchLiteral i literal = after at found ⊢
  generalize l'.matchLiteral i' literal = after' at found ⊢
  cases found with
  | some there => exact .some there.skip
  | none => exact .none

end Level

/-- Two effects lead to places of two lines that are on a level, and fail together. -/
inductive Effect.OnLevel (l l' : Line) : Effect ρ → Effect ρ → Prop where
  | go {t : Thread} {pos : Nat} (here : Level l l' t.pos pos) :
    OnLevel l l' (.go t) (.go { t with pos })
  | tag {name : String} {t : Thread} {pos : Nat} (here : Level l l' t.pos pos) :
    OnLevel l l' (.tag name t) (.tag name { t with pos })
  | split {t other : Thread} {pos pos' : Nat} (here : Level l l' t.pos pos)
    (there : Level l l' other.pos pos') :
    OnLevel l l' (.split t other) (.split { t with pos } { other with pos := pos' })
  | fail {pos pos' : Nat} {reason reason' : Reason ρ} : OnLevel l l' (.fail pos reason) (.fail pos' reason')
  | stuck : OnLevel l l' .stuck .stuck
  | done : OnLevel l l' .done .done

/-- A pattern holds no capture, and the words of its literals stand one space apart. -/
structure Plain (pattern : Pattern) : Prop where
  placeholders : pattern.placeholders = []
  regexes : pattern.regexes = []
  spaced : ∀ (pc : Nat) text, pattern.program[pc]? = some (Instr.lit text) → Spaced text

/-- The pattern of a text without captures and escaped blanks is plain. -/
theorem plain_of_compile {resolve : String → Option PatternType} {source : String} {pattern : Pattern}
    (compiled : Pattern.compile resolve source = .ok pattern) (placeholders : pattern.placeholders = [])
    (regexes : pattern.regexes = []) (escapes : ¬ EscapesBlank source) : Plain pattern := by
  refine ⟨placeholders, regexes, fun pc text found => ?_⟩
  rw [(compile_sound compiled).program, List.getElem?_toArray, getElem?_programOf, Option.map_eq_some_iff] at found
  obtain ⟨instr, found, same⟩ := found
  obtain rfl : instr = .lit text := by
    cases instr <;> simp_all [Instr.withFollow]
  have mem := List.mem_of_getElem? found
  simp only [plainCode, List.mem_append, List.mem_singleton, reduceCtorEq, or_false] at mem
  exact compile_spaced compiled escapes text (Element.mem_literals_of_lit_mem pattern.root mem)

section Step

variable {pattern : Pattern} (plain : Plain pattern) {l l' : Line} {t : Thread} {pos : Nat}
  {resolve resolve' : Placeholder → Nat → Nat → m (Outcome ρ α)}
include plain

omit [Monad m] in
/-- **An instruction does the same at places of two lines that are on a level.** -/
theorem exec_onLevel (here : Level l l' t.pos pos) :
    Effect.OnLevel l l' ((wholeTask pattern l resolve).exec t)
      ((wholeTask pattern l' resolve').exec { t with pos }) := by
  unfold Task.exec
  cases found : pattern.program[t.pc]? with
  | none =>
    have instr : (wholeTask pattern l resolve).pattern.program[t.pc]? = none := found
    have instr' : (wholeTask pattern l' resolve').pattern.program[t.pc]? = none := found
    simp only [instr, instr']
    exact .stuck
  | some instruction =>
    have instr : (wholeTask pattern l resolve).pattern.program[t.pc]? = some instruction := found
    have instr' : (wholeTask pattern l' resolve').pattern.program[t.pc]? = some instruction := found
    cases instruction with
    | lit text =>
      have after : Option.Rel (Level l l') ((wholeTask pattern l resolve).region.matchLiteral t.pos text)
          ((wholeTask pattern l' resolve').region.matchLiteral pos text) :=
        here.matchLiteral (plain.spaced t.pc text found)
      simp only [instr, instr']
      generalize (wholeTask pattern l resolve).region.matchLiteral t.pos text = stop at after
      generalize (wholeTask pattern l' resolve').region.matchLiteral pos text = stop' at after
      cases after with
      | some there => exact .go there
      | none => exact .fail
    | boundary =>
      have same :
          (wholeTask pattern l resolve).region.isBoundary ((wholeTask pattern l resolve).region.skipBlanks t.pos) =
            (wholeTask pattern l' resolve').region.isBoundary
              ((wholeTask pattern l' resolve').region.skipBlanks pos) :=
        here.boundary
      simp only [instr, instr', same]
      split
      · exact .go here
      · exact .fail
    | split prefer other =>
      simp only [instr, instr']
      split
      · exact .split here here
      · exact .stuck
    | jump target =>
      simp only [instr, instr']
      split
      · exact .go here
      · exact .stuck
    | mark value =>
      simp only [instr, instr']
      exact .go here
    | tag name =>
      simp only [instr, instr']
      exact .tag here
    | stop =>
      have same : (wholeTask pattern l resolve).stop ≤ (wholeTask pattern l resolve).region.skipBlanks t.pos ↔
          (wholeTask pattern l' resolve').stop ≤ (wholeTask pattern l' resolve').region.skipBlanks pos :=
        here.size_le_iff
      simp only [instr, instr', same]
      split
      · exact .done
      · exact .fail
    | slot index follow =>
      have none (l : Line) (resolve : Placeholder → Nat → Nat → m (Outcome ρ α)) :
          (wholeTask pattern l resolve).pattern.placeholders = [] := plain.placeholders
      simp only [instr, instr', none, List.getElem?_nil]
      exact .stuck
    | regex index follow =>
      have none (l : Line) (resolve : Placeholder → Nat → Nat → m (Outcome ρ α)) :
          (wholeTask pattern l resolve).pattern.regexes = [] := plain.regexes
      simp only [instr, instr', none, List.getElem?_nil]
      exact .stuck

/-- **Searches from places of two lines that are on a level find the same.** -/
theorem search_onLevel [LawfulMonad m] (t : Thread) (captures : List (Capture α))
    (here : Level l l' t.pos pos) :
    ∃ found, ((wholeTask pattern l resolve).search t captures).Yields found ∧
      ((wholeTask pattern l' resolve').search { t with pos } captures).Yields found := by
  have step {t : Thread} {pos : Nat} {effect : Effect ρ} (h : (wholeTask pattern l resolve).exec t = effect)
      (here : Level l l' t.pos pos) :
      Effect.OnLevel l l' effect ((wholeTask pattern l' resolve').exec { t with pos }) :=
    h ▸ exec_onLevel plain here
  fun_induction (wholeTask pattern l resolve).search t captures generalizing pos with
  | case1 t captures next h ih =>
    have step := step h here
    generalize h' : (wholeTask pattern l' resolve').exec { t with pos } = effect at step
    cases step with
    | go there =>
      rw [Task.search_go h']
      exact ih there
  | case2 t captures name next h captures' =>
    rename_i ih
    have step := step h here
    generalize h' : (wholeTask pattern l' resolve').exec { t with pos } = effect at step
    cases step with
    | tag there =>
      have longer : captures'.length = captures.length + 1 := List.length_append
      rw [Task.search_tag h', ← longer]
      exact ih there
  | case3 t captures next other h ih ih' =>
    have step := step h here
    generalize h' : (wholeTask pattern l' resolve').exec { t with pos } = effect at step
    cases step with
    | split there there' =>
      obtain ⟨found, first, first'⟩ := ih there
      obtain ⟨found', second, second'⟩ := ih' there'
      rw [Task.search_split h']
      exact ⟨_, first.or second, first'.or second'⟩
  | case4 t captures t' index p start ends h => cases step h here
  | case5 t captures t' index x start ends h => cases step h here
  | case6 t captures t' h => cases step h here
  | case7 t captures h =>
    have step := step h here
    generalize h' : (wholeTask pattern l' resolve').exec { t with pos } = effect at step
    cases step with
    | stuck =>
      rw [Task.search_stuck h']
      exact ⟨none, Search.yields_stuck, Search.yields_stuck⟩
  | case8 t captures pos' reason h =>
    have step := step h here
    generalize h' : (wholeTask pattern l' resolve').exec { t with pos } = effect at step
    cases step with
    | fail =>
      rw [Task.search_fail h']
      exact ⟨none, Search.yields_fail _ _, Search.yields_fail _ _⟩
  | case9 t captures h =>
    have step := step h here
    generalize h' : (wholeTask pattern l' resolve').exec { t with pos } = effect at step
    cases step with
    | done =>
      rw [Task.search_done h']
      exact ⟨some _, Search.yields_found _, Search.yields_found _⟩

end Step

/-- **Matching forgets layout and letter case.** A pattern without captures and escaped blanks matches two lines
that differ in nothing else alike: either none of them, or both with the same mark and tags. -/
theorem run_layout [LawfulMonad m] {resolveType : String → Option PatternType} {source : String}
    {pattern : Pattern} (compiled : Pattern.compile resolveType source = .ok pattern)
    (placeholders : pattern.placeholders = []) (regexes : pattern.regexes = []) (escapes : ¬ EscapesBlank source)
    {text text' : String} (same : normalizeAscii text.toList = normalizeAscii text'.toList)
    (resolve resolve' : Placeholder → Nat → Nat → m (Outcome ρ α)) :
    ∃ result result' : Except (Failure ρ) (Found α),
      Match.run pattern (.ofString text) 0 (Line.ofString text).size resolve = pure result ∧
      Match.run pattern (.ofString text') 0 (Line.ofString text').size resolve' = pure result' ∧
      result.toOption = result'.toOption := by
  have plain := plain_of_compile compiled placeholders regexes escapes
  have starts : Level (.ofString text) (.ofString text') 0 0 := by
    refine Line.corresponds_zero ?_
    have whole (text : String) : (Line.ofString text).rest 0 = text.toList := by
      simp [Line.rest, Line.ofString, Line.ofList]
    rw [whole, whole]
    exact words_of_normalizeAscii same
  obtain ⟨found, first, second⟩ :
      ∃ found, ((wholeTask pattern (.ofString text) resolve).search { pc := 0, pos := 0 } []).Yields found ∧
        ((wholeTask pattern (.ofString text') resolve').search { pc := 0, pos := 0 } []).Yields found :=
    search_onLevel plain { pc := 0, pos := 0 } [] starts
  obtain ⟨result, run, finds⟩ := first.otherwise {} 0
  obtain ⟨result', run', finds'⟩ := second.otherwise {} 0
  refine ⟨result, result', ?_, ?_, finds.trans finds'.symm⟩
  · rw [run_eq_wholeTask, run]
  · rw [run_eq_wholeTask, run']

/-- A pattern with a choice, a mark and a tag, and two lines of which the second has tabs, capitals and blanks at
its ends. -/
theorem run_layout_dog :
    ∃ pattern, Pattern.compile (fun _ => none) "[the] (1¦Big|tag:small) dog[s]" = .ok pattern ∧
      pattern.placeholders = [] ∧ pattern.regexes = [] ∧ ¬ EscapesBlank "[the] (1¦Big|tag:small) dog[s]" ∧
      normalizeAscii "the small dog".toList = normalizeAscii " THE\t  Small Dog ".toList ∧
      ∃ result result' : Except (Failure Unit) (Found Unit),
        Match.run (m := Id) pattern (.ofString "the small dog") 0 13 (fun _ _ _ => .rejected ()) = pure result ∧
        Match.run (m := Id) pattern (.ofString " THE\t  Small Dog ") 0 17 (fun _ _ _ => .rejected ()) = pure result' ∧
        result.toOption = result'.toOption := by
  have captures : (Pattern.compile (fun _ => none) "[the] (1¦Big|tag:small) dog[s]").toOption.map
      (fun p => (p.placeholders.length, p.regexes.length)) = some (0, 0) := by decide +kernel
  cases compiled : Pattern.compile (fun _ => none) "[the] (1¦Big|tag:small) dog[s]" with
  | error => simp [compiled, Except.toOption] at captures
  | ok pattern =>
    simp only [compiled, Except.toOption, Option.map_some, Option.some.injEq, Prod.mk.injEq,
      List.length_eq_zero_iff] at captures
    have escapes : ¬ EscapesBlank "[the] (1¦Big|tag:small) dog[s]" := by decide +kernel
    have same : normalizeAscii "the small dog".toList = normalizeAscii " THE\t  Small Dog ".toList := by
      decide +kernel
    exact ⟨pattern, rfl, captures.1, captures.2, escapes, same,
      run_layout compiled captures.1 captures.2 escapes same (m := Id) (fun _ _ _ => .rejected ()) _⟩

end Phrasebook.Match
