import Phrasebook.Proofs.Match.Lockstep
import Phrasebook.Proofs.Pattern.Scan
import Phrasebook.Proofs.Pattern.Traversal

/-!
# Patterns that cannot be told apart

Two patterns have the same normal form, the same labels, slots of the same types, and regexes that match the same
texts. Then they have the same program, so that a match goes through the same instructions for both and asks the
same questions: `search_on` is the step, and `run_eq_of_normalized_eq` says that the matches end alike.
The normal form alone does not say that, as it forgets more than the program does: the letter case and the blanks of
labels, regexes and type names, which blanks are escaped, and where a word ends in a capital sigma.
-/

namespace Phrasebook

namespace Pattern
open Text

/-- A placeholder without its place and its spelling. -/
def Placeholder.unplaced (p : Placeholder) : Placeholder :=
  { p with offset := 0, text := [] }

/-- Placeholders that ask for the same, and are written in some way. -/
structure Placeholder.Alike (a b : Placeholder) : Prop where
  same : a.unplaced = b.unplaced
  written : a.text ≠ []
  written' : b.text ≠ []

/-- The small form of a pattern text is not that of its characters, because a word ends in a capital sigma. -/
def HasFinalSigma (source : String) : Prop :=
  normalize source.toList ≠ (join [' '] (words source.toList)).flatMap lowerChar

instance (source : String) : Decidable (HasFinalSigma source) :=
  inferInstanceAs (Decidable (normalize source.toList ≠ (join [' '] (words source.toList)).flatMap lowerChar))

/-- What two patterns share of what their normal form does not show. -/
structure SharesMeaning (p q : Pattern) : Prop where
  labels : branchLabels (tokens p.source) = branchLabels (tokens q.source)
  types : p.placeholders.map Placeholder.types = q.placeholders.map Placeholder.types
  regexes : List.Forall₂ (fun x y : PatternRegex => ∀ text, x.regex.isMatch text = y.regex.isMatch text)
    p.regexes q.regexes
  escapes : ¬ EscapesBlank p.source ∧ ¬ EscapesBlank q.source
  sigmas : ¬ HasFinalSigma p.source ∧ ¬ HasFinalSigma q.source

theorem getElem?_rel {α β : Type} {R : α → β → Prop} {as : List α} {bs : List β} (h : List.Forall₂ R as bs)
    (i : Nat) : Option.Rel R as[i]? bs[i]? := by
  induction h generalizing i with
  | nil => exact .none
  | cons first _ ih =>
    cases i with
    | zero => exact .some first
    | succ i => exact ih i

section Remainder

variable {program : Array Instr} {placeholders placeholders' : List Placeholder} {regexes regexes' : List PatternRegex}

theorem isEmpty_add (r : Remainder) (part : List Char) (capture : Bool) :
    (r.add part capture).text.isEmpty = (r.text.isEmpty && part.isEmpty) := by
  unfold Remainder.add
  cases empty : r.text.isEmpty <;> simp_all

theorem isEmpty_next (slots : List.Forall₂ Placeholder.Alike placeholders placeholders')
    (counted : regexes.length = regexes'.length) (pc : Nat) (instr : Instr) {r r' : Remainder}
    (same : r.text.isEmpty = r'.text.isEmpty) :
    (r.next placeholders regexes pc instr).1 = (r'.next placeholders' regexes' pc instr).1 ∧
      (r.next placeholders regexes pc instr).2.text.isEmpty =
        (r'.next placeholders' regexes' pc instr).2.text.isEmpty := by
  cases instr with
  | lit text => exact ⟨rfl, by simp only [Remainder.next, isEmpty_add, same]⟩
  | slot index follow =>
    refine ⟨rfl, ?_⟩
    have found := getElem?_rel slots index
    simp only [Remainder.next]
    generalize placeholders[index]? = a at found
    generalize placeholders'[index]? = b at found
    cases found with
    | none => exact same
    | some alike =>
      have written := List.isEmpty_eq_false_iff.2 alike.written
      have written' := List.isEmpty_eq_false_iff.2 alike.written'
      simp only [isEmpty_add, written, written', Bool.and_false]
  | regex index follow =>
    refine ⟨rfl, ?_⟩
    simp only [Remainder.next]
    by_cases inside : index < regexes.length
    · have inside' : index < regexes'.length := counted ▸ inside
      simp [List.getElem?_eq_getElem inside, List.getElem?_eq_getElem inside', isEmpty_add]
    · have outside' : ¬ index < regexes'.length := counted ▸ inside
      simpa [List.getElem?_eq_none (Nat.not_lt.1 inside), List.getElem?_eq_none (Nat.not_lt.1 outside')] using same
  | _ => exact ⟨rfl, same⟩

/-- Something is expected or nothing is, however the captures are written. -/
theorem isEmpty_remainder (slots : List.Forall₂ Placeholder.Alike placeholders placeholders')
    (counted : regexes.length = regexes'.length) (pc : Nat) {r r' : Remainder}
    (same : r.text.isEmpty = r'.text.isEmpty) :
    (remainder program placeholders regexes pc r).isEmpty =
      (remainder program placeholders' regexes' pc r').isEmpty := by
  -- the places go up, and end with the program
  induction left : program.size - pc using Nat.strongRecOn generalizing pc r r' with
  | ind n ih =>
    cases found : program[pc]? with
    | none => rw [remainder_ended (.inl found), remainder_ended (.inl found), same]
    | some instr =>
      by_cases stop : instr = .stop
      · subst stop
        rw [remainder_ended (.inr found), remainder_ended (.inr found), same]
      · have inside := (Array.getElem?_eq_some_iff.1 found).1
        obtain ⟨target, text⟩ := isEmpty_next slots counted pc instr same
        rw [remainder_eq found stop, remainder_eq found stop, target]
        split
        next ahead => exact ih _ (by omega) _ text rfl
        next => exact text

end Remainder

end Pattern

namespace Match
open Text Pattern

/-- Patterns with the same program, whose captures ask for the same. -/
structure Indistinct (isMatch : PatternRegex → List Char → Bool) (p q : Pattern) : Prop where
  program : p.program = q.program
  placeholders : List.Forall₂ Placeholder.Alike p.placeholders q.placeholders
  regexes : List.Forall₂ (fun x y => isMatch x = isMatch y) p.regexes q.regexes

variable {m : Type → Type} {ρ α : Type}

/-- Effects that differ at most in where a capture stands in its pattern and how it is written there. -/
inductive Effect.Alike (isMatch : PatternRegex → List Char → Bool) : Effect ρ → Effect ρ → Prop
  | refl (e : Effect ρ) : Alike isMatch e e
  | slot {t : Thread} {index : Nat} {p p' : Placeholder} {start : Nat} {ends : List (Option Nat)}
      (same : p.unplaced = p'.unplaced) :
      Alike isMatch (.capture (.slot t index p start ends)) (.capture (.slot t index p' start ends))
  | regex {t : Thread} {index : Nat} {x x' : PatternRegex} {start : Nat} {ends : List Nat}
      (same : isMatch x = isMatch x') :
      Alike isMatch (.capture (.regex t index x start ends)) (.capture (.regex t index x' start ends))

/-- An effect but a capture is the same. -/
theorem Effect.Alike.eq {isMatch : PatternRegex → List Char → Bool} {e e' : Effect ρ} (h : Alike isMatch e e')
    (plain : ∀ frame, e ≠ .capture frame) : e' = e := by
  cases h with
  | refl => rfl
  | slot | regex => exact absurd rfl (plain _)

theorem Effect.Alike.ite {isMatch : PatternRegex → List Char → Bool} {c : Prop} [Decidable c]
    {a b a' b' : Effect ρ} (h : Alike isMatch a a') (h' : Alike isMatch b b') :
    Alike isMatch (if c then a else b) (if c then a' else b') := by
  split
  · exact h
  · exact h'

namespace Task

/-- The same task for another pattern. -/
def on (task : Task m ρ α) (pattern : Pattern) : Task m ρ α :=
  { task with pattern }

variable {task : Task m ρ α} {q : Pattern}

/-- Why a capture has no end does not depend on how captures are written. -/
theorem noEnd_on (alike : Indistinct task.isMatch task.pattern q) (pc start : Nat) :
    (task.on q).noEnd pc start = task.noEnd pc start := by
  have nothing : (q.remainderFrom (pc + 1)).isEmpty = (task.pattern.remainderFrom (pc + 1)).isEmpty := by
    unfold Pattern.remainderFrom
    rw [← alike.program]
    exact (isEmpty_remainder alike.placeholders alike.regexes.length_eq (pc + 1) rfl).symm
  simp only [noEnd, on, nothing]

/-- **An instruction does the same for both patterns.** -/
theorem exec_alike (alike : Indistinct task.isMatch task.pattern q) (t : Thread) :
    Effect.Alike task.isMatch (task.exec t) ((task.on q).exec t) := by
  have program : (task.on q).pattern.program = task.pattern.program := alike.program.symm
  unfold exec
  rw [program]
  cases task.pattern.program[t.pc]? with
  | none => exact .refl _
  | some instr =>
    cases instr with
    | slot index follow =>
      have found := getElem?_rel alike.placeholders index
      have placeholders : (task.on q).pattern.placeholders = q.placeholders := rfl
      simp only [placeholders, noEnd_on alike]
      generalize task.pattern.placeholders[index]? = a at found
      generalize q.placeholders[index]? = b at found
      cases found with
      | none => exact .refl _
      | @some p p' slot =>
        have nullable : p.nullable = p'.nullable := congrArg (fun p => p.nullable) slot.same
        have ends (start : Nat) : (task.on q).endsOf p' follow start = task.endsOf p follow start := by
          simp only [endsOf, nullable]
          rfl
        simp only [ends]
        exact .ite (.refl _) (.slot slot.same)
    | regex index follow =>
      have found := getElem?_rel alike.regexes index
      have regexes : (task.on q).pattern.regexes = q.regexes := rfl
      simp only [regexes, noEnd_on alike]
      generalize task.pattern.regexes[index]? = a at found
      generalize q.regexes[index]? = b at found
      cases found with
      | none => exact .refl _
      | some same =>
        exact .ite (.refl _) (.regex same)
    | _ => exact .refl _

variable [Monad m]

/-- The answer for a slot does not depend on where the slot stands in its pattern and how it is written there. -/
theorem answer_on (memory : Memory ρ α) (index : Nat) {p p' : Placeholder} (start stop : Nat)
    (same : task.resolve p = task.resolve p') :
    (task.on q).answer memory index p' start stop = task.answer memory index p start stop := by
  unfold answer
  show (match memory.answers.get? (index, start, stop) with | _ => _) = _
  rw [same]
  rfl

/-- **The searches for both patterns do the same**, step by step. -/
theorem search_on (alike : Indistinct task.isMatch task.pattern q)
    (blind : ∀ a b : Placeholder, a.unplaced = b.unplaced → task.resolve a = task.resolve b)
    (t : Thread) (captures : List (Capture α)) : (task.on q).search t captures = task.search t captures := by
  have alikes {t : Thread} {effect : Effect ρ} (h : task.exec t = effect) :
      Effect.Alike task.isMatch effect ((task.on q).exec t) := h ▸ task.exec_alike alike t
  have step {t : Thread} {effect : Effect ρ} (h : task.exec t = effect) (plain : ∀ frame, effect ≠ .capture frame) :
      (task.on q).exec t = effect := (alikes h).eq plain
  fun_induction task.search t captures with
  | case1 t captures next h ih =>
    rw [search_go (step h (by simp))]
    exact ih
  | case2 t captures name next h captures' =>
    rename_i ih
    have longer : captures'.length = captures.length + 1 := List.length_append
    rw [search_tag (step h (by simp)), ← longer]
    exact ih
  | case3 t captures next other h ih ih' => rw [search_split (step h (by simp)), ih, ih']
  | case4 t captures t' index p start ends h ih =>
    obtain ⟨-, rfl, -⟩ := h ▸ task.forward_exec t
    obtain ⟨p', same, h'⟩ : ∃ p', p.unplaced = p'.unplaced ∧
        (task.on q).exec t' = .capture (.slot t' index p' start ends) := by
      have alike := alikes h
      generalize (task.on q).exec t' = effect at alike
      cases alike with
      | refl => exact ⟨p, rfl, rfl⟩
      | slot same => exact ⟨_, same, rfl⟩
    rw [search_slot h']
    unfold slotEnds
    refine congrArg Search.first (List.map_congr_left fun e _ => ?_)
    cases e with
    | none => exact ih _ _
    | some stop =>
      funext memory
      simp only [filling, answer_on memory index start stop (blind p p' same)]
      refine bind_congr fun answer => ?_
      obtain ⟨value | reason, memory⟩ := answer
      · exact congrFun (ih _ _) memory
      · rfl
  | case5 t captures t' index x start ends h ih =>
    obtain ⟨-, rfl, -⟩ := h ▸ task.forward_exec t
    obtain ⟨x', same, h'⟩ : ∃ x', task.isMatch x = task.isMatch x' ∧
        (task.on q).exec t' = .capture (.regex t' index x' start ends) := by
      have alike := alikes h
      generalize (task.on q).exec t' = effect at alike
      cases alike with
      | refl => exact ⟨x, rfl, rfl⟩
      | regex same => exact ⟨_, same, rfl⟩
    rw [search_regex h']
    unfold regexEnds
    refine congrArg Search.first (List.map_congr_left fun stop _ => ?_)
    show (if task.isMatch x' _ = true then _ else _) = if task.isMatch x _ = true then _ else _
    rw [← same]
    exact if_congr Iff.rfl (ih _ _) rfl
  | case6 t captures t' h => exact (h ▸ task.forward_exec t).elim
  | case7 t captures h => rw [search_stuck (step h (by simp))]
  | case8 t captures pos reason h => rw [search_fail (step h (by simp))]
  | case9 t captures h =>
    have slots : (task.on q).pattern.placeholders.length = task.pattern.placeholders.length :=
      alike.placeholders.length_eq.symm
    rw [search_done (step h (by simp)), slots]

end Task

/-- Matches of two patterns that cannot be told apart end alike, if the answers do not depend on where a slot stands
in its pattern and how it is written there. -/
theorem run_alike [Monad m] [LawfulMonad m] {p q : Pattern} (line : Line) (start stop : Nat)
    {resolve : Placeholder → Nat → Nat → m (Outcome ρ α)}
    (alike : Indistinct (fun x text => x.regex.isMatch text) p q)
    (blind : ∀ a b : Placeholder, a.unplaced = b.unplaced → resolve a = resolve b) :
    run p line start stop resolve = run q line start stop resolve := by
  let task : Task m ρ α :=
    { pattern := p, line, region := line.before stop, start, stop, isMatch := fun x text => x.regex.isMatch text,
      resolve }
  have first := task.loop_eq_search { pc := 0, pos := start } {} rfl
  have second := (task.on q).loop_eq_search { pc := 0, pos := start } {} rfl
  rw [task.search_on alike blind] at second
  exact first.trans second.symm

end Match

namespace Pattern

variable {resolve : String → Option PatternType} {source source' : String} {p q : Pattern}

/-- The placeholders of a pattern are written as they stand between their signs. -/
theorem written_of_compile (h : compile resolve source = .ok p) : ∀ a ∈ p.placeholders, a.text ≠ [] := by
  intro a mem
  have among : (a.offset, a.text) ∈ (tokens source).filterMap Located.placeholder? := by
    rw [← (compile_inTextOrder h).placeholders]
    exact List.mem_map_of_mem mem
  obtain ⟨t, -, is⟩ := List.mem_filterMap.1 among
  unfold Located.placeholder? at is
  split at is
  · obtain ⟨-, written⟩ := Prod.mk.inj (Option.some.inj is)
    rw [← written]
    exact List.cons_ne_nil _ _
  · cases is

/-- Placeholders with the same number, flags and types ask for the same. -/
theorem forall₂_alike {as bs : List Placeholder} (plain : as.map Placeholder.plain = bs.map Placeholder.plain)
    (types : as.map Placeholder.types = bs.map Placeholder.types) (written : ∀ a ∈ as, a.text ≠ [])
    (written' : ∀ b ∈ bs, b.text ≠ []) : List.Forall₂ Placeholder.Alike as bs := by
  induction as generalizing bs with
  | nil =>
    cases bs with
    | nil => exact .nil
    | cons => cases plain
  | cons a as ih =>
    cases bs with
    | nil => cases plain
    | cons b bs =>
      simp only [List.map_cons, List.cons.injEq] at plain types
      simp only [List.mem_cons, forall_eq_or_imp] at written written'
      refine .cons ⟨?_, written.1, written'.1⟩ (ih plain.2 types.2 written.2 written'.2)
      have same := congrArg (fun p : Placeholder => { p with types := a.types }) plain.1
      simpa only [Placeholder.plain, Placeholder.unplaced, types.1] using same

/-- Patterns with the same normal form that share what it does not show cannot be told apart. -/
theorem indistinct_of_normalized_eq (h : compile resolve source = .ok p) (h' : compile resolve source' = .ok q)
    (same : p.normalized = q.normalized) (shared : p.SharesMeaning q) :
    Match.Indistinct (fun x text => x.regex.isMatch text) p q := by
  obtain ⟨reading, -, -, parts⟩ := compile_reads h
  obtain ⟨reading', -, -, parts'⟩ := compile_reads h'
  have text : p.source = source := by rw [parts]
  have text' : q.source = source' := by rw [parts']
  obtain ⟨labels, types, regexes, ⟨unescaped, unescaped'⟩, plain, plain'⟩ := shared
  rw [text] at labels unescaped plain
  rw [text'] at labels unescaped' plain'
  have small : Text.normalize source.toList = Text.normalize source'.toList := by
    rw [parts, parts'] at same
    exact String.ofList_injective same
  rw [not_not.1 plain, not_not.1 plain'] at small
  obtain ⟨root, placeholders⟩ := compile_alike h h' unescaped unescaped' labels small
  refine ⟨?_, forall₂_alike placeholders types (written_of_compile h) (written_of_compile h'), ?_⟩
  · rw [(compile_sound h).program, (compile_sound h').program, root]
  · exact regexes.imp fun _ _ same => funext same

end Pattern

namespace Match

/-- **Patterns with the same normal form cannot be told apart**, if they share what it does not show: they match the
same stretches of every line, and with the same result. -/
theorem run_eq_of_normalized_eq {m : Type → Type} [Monad m] [LawfulMonad m] {ρ α : Type}
    {types : String → Option PatternType} {source source' : String} {p q : Pattern}
    (compiled : Pattern.compile types source = .ok p) (compiled' : Pattern.compile types source' = .ok q)
    (same : p.normalized = q.normalized) (shared : p.SharesMeaning q) (line : Text.Line) (start stop : Nat)
    {resolve : Pattern.Placeholder → Nat → Nat → m (Outcome ρ α)}
    (blind : ∀ a b : Pattern.Placeholder, a.unplaced = b.unplaced → resolve a = resolve b) :
    run p line start stop resolve = run q line start stop resolve :=
  run_alike line start stop (Pattern.indistinct_of_normalized_eq compiled compiled' same shared) blind

/-- Two spellings of a pattern with a slot, a regex, a mark and a tag, and a resolver that looks at the types of a
slot. -/
theorem run_eq_of_normalized_eq_gifts :
    ∃ p q, Pattern.compile (fun _ => some (.one 0)) "Give %number%  to <[a-z]+> (1¦Now|later:soon)" = .ok p ∧
      Pattern.compile (fun _ => some (.one 0)) " give %Number% TO\t<[a-z]+> (1¦now|later:SOON) " = .ok q ∧
      p.normalized = q.normalized ∧ p.SharesMeaning q ∧
      run (m := Id) p (.ofString "GIVE 5 to bob soon") 0 18
          (fun a start stop => (.found (a.types, start, stop) : Outcome Unit _)) =
        run (m := Id) q (.ofString "GIVE 5 to bob soon") 0 18
          (fun a start stop => .found (a.types, start, stop)) := by
  let types : String → Option PatternType := fun _ => some (.one 0)
  let source := "Give %number%  to <[a-z]+> (1¦Now|later:soon)"
  let source' := " give %Number% TO\t<[a-z]+> (1¦now|later:SOON) "
  have both : ((Pattern.compile types source).toOption.bind fun p =>
      (Pattern.compile types source').toOption.map fun q => (p.source, q.source,
        decide (p.normalized = q.normalized ∧ p.regexes = q.regexes ∧
          p.placeholders.map Pattern.Placeholder.types = q.placeholders.map Pattern.Placeholder.types))) =
      some (source, source', true) := by decide +kernel
  have labels : Pattern.branchLabels (Pattern.tokens source) = Pattern.branchLabels (Pattern.tokens source') := by
    decide +kernel
  have escapes : ¬ Pattern.EscapesBlank source ∧ ¬ Pattern.EscapesBlank source' := by decide +kernel
  have sigmas : ¬ Pattern.HasFinalSigma source ∧ ¬ Pattern.HasFinalSigma source' := by decide +kernel
  cases compiled : Pattern.compile types source with
  | error => simp [compiled, Except.toOption] at both
  | ok p =>
    cases compiled' : Pattern.compile types source' with
    | error => simp [compiled, compiled', Except.toOption] at both
    | ok q =>
      simp only [compiled, compiled', Except.toOption, Option.bind_some, Option.map_some, Option.some.injEq,
        Prod.mk.injEq, decide_eq_true_eq] at both
      obtain ⟨text, text', same, regexes, slots⟩ := both
      have shared : p.SharesMeaning q := by
        refine ⟨?_, slots, ?_, ?_, ?_⟩
        · rw [text, text']
          exact labels
        · rw [regexes]
          exact List.forall₂_same.2 fun _ _ _ => rfl
        · rw [text, text']
          exact escapes
        · rw [text, text']
          exact sigmas
      refine ⟨p, q, rfl, rfl, same, shared, ?_⟩
      refine run_eq_of_normalized_eq compiled compiled' same shared (.ofString "GIVE 5 to bob soon") 0 18
        fun a b alike => ?_
      have types : a.types = b.types := congrArg (fun p => p.types) alike
      simp only [types]

end Match

end Phrasebook
