import Phrasebook.Parse.Line
import Phrasebook.Proofs.Parse.Parts

/-!
# Relations that reading respects

Reading a stretch is put together from a few basic steps, and from trying candidates. So a relation between the
steps of two parses that holds of each basic step with itself, and that putting steps together keeps, holds of
reading at a level of nesting, if it holds of trying each candidate and of reading at the level below.
-/

namespace Phrasebook.Parse
open Text

/-- The definition is being tried on the stretch. -/
def isTrying (definition : Nat) (stretch : Stretch) : Parsing Bool :=
  return (← Parsing.context).isTrying definition stretch

/-- One more candidate is tried. -/
def countTrial : Parsing Unit :=
  Parsing.change fun c => { c with tried := c.tried + 1 }

/-- What is turned down on a stretch may be remembered, and why it was before. -/
def lookBack (stretch : Stretch) (target : Target) : Parsing (Bool × Option Rejection) := do
  let c ← Parsing.context
  let memorable := !c.isStretchTried stretch
  return (memorable, if memorable then c.rejections.get? (stretch, target) else none)

/-- A stretch was turned down for a target. -/
def remember (stretch : Stretch) (target : Target) (reason : Rejection) : Parsing Unit :=
  Parsing.change fun c => { c with rejections := c.rejections.insert (stretch, target) reason }

/-- A relation holds of each basic step with itself, as far as reading one line takes it. -/
structure Respected (line : Line) (R : StepRelation Parsing) : Prop extends R.Composes where
  checkCancelled : R _ Parsing.checkCancelled Parsing.checkCancelled
  isTrying (definition start stop : Nat) :
    R _ (isTrying definition (stretchOf line start stop)) (isTrying definition (stretchOf line start stop))
  countTrial : R _ countTrial countTrial
  lookBack (start stop : Nat) (target : Target) :
    R _ (lookBack (stretchOf line start stop) target) (lookBack (stretchOf line start stop) target)
  remember (start stop : Nat) (target : Target) (reason : Rejection) :
    R _ (remember (stretchOf line start stop) target reason) (remember (stretchOf line start stop) target reason)
  spanOf (start stop : Nat) : R _ (spanOf line start stop) (spanOf line start stop)
  orUndone {β : Type} {x y : Parsing (Option β)} : R _ x y → R _ (orUndone x) (orUndone y)
  deeper {β : Type} {x y : Parsing β} : R _ x y →
    R _ (Parsing.bracket Context.deepen Context.leave x) (Parsing.bracket Context.deepen Context.leave y)

section Steps

variable (r : Registry) (read : Reader) (line : Line) (start stop : Nat)

/-- Candidates are tried one after the other. -/
theorem tryCandidates_cons_steps (admissible : Definition → Bool) (candidate : Candidate) (rank : Nat)
    (rest : List (Candidate × Nat)) :
    tryCandidates r read line start stop admissible ((candidate, rank) :: rest) = (do
      Parsing.checkCancelled
      let trying ← isTrying candidate.definition.id (stretchOf line start stop)
      if !admissible candidate.definition || trying then
        tryCandidates r read line start stop admissible rest
      else
        countTrial
        match ← tryCandidate r read line start stop candidate with
        | .ok node => pure (some node, [])
        | .error miss =>
          let (found, attempts) ← tryCandidates r read line start stop admissible rest
          pure (found, { candidate, rank, miss } :: attempts)) := by
  rw [tryCandidates]
  refine bind_congr fun _ => ?_
  rw [isTrying, bind_assoc]
  refine bind_congr fun c => ?_
  rw [pure_bind]
  rfl

/-- A level remembers what it turns down. -/
theorem readLevel_eq (forms : Option Reader) (target : Target) :
    readLevel forms line start stop target =
      lookBack (stretchOf line (line.trimmed start stop).1 (line.trimmed start stop).2) target >>= fun
        | (_, some reason) => pure (.rejected reason)
        | (memorable, none) =>
          readNested forms line (line.trimmed start stop).1 (line.trimmed start stop).2 target >>= fun
            | .rejected reason => do
              if memorable then
                remember (stretchOf line (line.trimmed start stop).1 (line.trimmed start stop).2) target reason
              pure (.rejected reason)
            | .found e => pure (.found e) := by
  unfold readLevel lookBack
  simp only [bind_assoc, pure_bind]
  refine bind_congr fun c => ?_
  split
  next reason remembered => rw [remembered]
  next unknown =>
    rw [unknown]
    refine bind_congr fun reading => ?_
    cases reading <;> rfl

end Steps

namespace Respected

variable {R : StepRelation Parsing} {line : Line} (respected : Respected line R) {r r' : Registry}
  {read read' : Reader} {start stop : Nat} {target : Target}

include respected

/-- Candidates that are related one by one are related in turn. -/
theorem tryCandidates (admissible : Definition → Bool) {candidates : List (Candidate × Nat)}
    (each : ∀ x ∈ candidates,
      R _ (tryCandidate r read line start stop x.1) (tryCandidate r' read' line start stop x.1)) :
    R _ (tryCandidates r read line start stop admissible candidates)
      (tryCandidates r' read' line start stop admissible candidates) := by
  induction candidates with
  | nil => exact respected.pure _
  | cons first rest ih =>
    obtain ⟨candidate, rank⟩ := first
    have rest := ih fun x mem => each x (List.mem_cons_of_mem _ mem)
    rw [tryCandidates_cons_steps, tryCandidates_cons_steps]
    refine respected.bind respected.checkCancelled fun _ => ?_
    refine respected.bind (respected.isTrying _ _ _) fun trying => ?_
    split
    · exact rest
    refine respected.bind respected.countTrial fun _ => ?_
    refine respected.bind (each _ List.mem_cons_self) fun result => ?_
    cases result with
    | ok node => exact respected.pure _
    | error miss => exact respected.bind rest fun result => respected.pure _

theorem tryCategory (category : Category) (admissible : Definition → Bool)
    (candidates : r'.candidates category = r.candidates category)
    (each : ∀ x ∈ r.candidates category,
      R _ (tryCandidate r read line start stop x) (tryCandidate r' read' line start stop x)) :
    R _ (tryCategory r read line start stop category admissible)
      (tryCategory r' read' line start stop category admissible) := by
  unfold Parse.tryCategory
  rw [candidates]
  exact respected.tryCandidates admissible fun x mem => each x.1 (List.fst_mem_of_mem_zipIdx mem)

/-- **Trying a line is related** if trying each candidate is. -/
theorem matchLine (category : Category) (candidates : r'.candidates category = r.candidates category)
    (each : ∀ start stop, ∀ x ∈ r.candidates category,
      R _ (tryCandidate r read line start stop x) (tryCandidate r' read' line start stop x)) :
    R _ (matchLine r read category line) (matchLine r' read' category line) := by
  unfold Parse.matchLine
  dsimp only
  split
  · exact respected.tryCategory category _ candidates (each _ _)
  · exact respected.pure _

section Syntax

variable (types : r'.types = r.types)
  (candidates : ∀ category ∈ categoriesFor target, r'.candidates category = r.candidates category)
  (each : ∀ category ∈ categoriesFor target, ∀ x ∈ r.candidates category,
    R _ (tryCandidate r read line start stop x) (tryCandidate r' read' line start stop x))

include types candidates each

theorem readSyntax : R _ (readSyntax r read line start stop target) (readSyntax r' read' line start stop target) := by
  have categories : R _ (readCategories r read line start stop target (categoriesFor target))
      (readCategories r' read' line start stop target (categoriesFor target)) := by
    generalize categoriesFor target = categories at candidates each
    induction categories with
    | nil => exact respected.pure _
    | cons category rest ih =>
      have rest := ih (fun category mem => candidates category (List.mem_cons_of_mem _ mem))
        fun category mem => each category (List.mem_cons_of_mem _ mem)
      rw [readCategories, readCategories, types]
      refine respected.bind (respected.tryCategory category _ (candidates category List.mem_cons_self)
        (each category List.mem_cons_self)) fun result => ?_
      dsimp only
      split
      · exact respected.pure _
      · exact respected.bind rest fun result => respected.pure _
  refine respected.bind categories fun result => ?_
  obtain ⟨e?, attempts⟩ := result
  cases e? with
  | some e => exact respected.pure _
  | none =>
    dsimp only
    split <;> exact respected.pure _

/-- **Reading a stretch is related** if trying each candidate is, and reading its parts. -/
theorem readForms (separators : r'.config.listSeparators = r.config.listSeparators)
    (parts : ∀ start stop target, R _ (read line start stop target) (read' line start stop target)) :
    R _ (readForms r read line start stop target) (readForms r' read' line start stop target) :=
  related_forms respected.toComposes (fun part target _ => parts part.1 part.2 target)
    (fun _ _ => respected.orUndone) (respected.spanOf start stop) separators types
    (fun _ => parts _ _ target) (respected.readSyntax types candidates each)

end Syntax

/-- A level is related if what it comes to is that was not turned down before. -/
theorem readLevel {forms forms' : Option Reader}
    (nested : ∀ start stop, R _ (readNested forms line start stop target) (readNested forms' line start stop target)) :
    R _ (readLevel forms line start stop target) (readLevel forms' line start stop target) := by
  rw [readLevel_eq, readLevel_eq]
  refine respected.bind (respected.lookBack _ _ target) fun result => ?_
  obtain ⟨memorable, _ | reason⟩ := result
  · refine respected.bind (nested _ _) fun reading => ?_
    cases reading with
    | found e => exact respected.pure _
    | rejected reason =>
      dsimp only
      split
      · exact respected.bind (respected.remember _ _ target reason) fun _ => respected.pure _
      · exact respected.pure _
  · exact respected.pure _

theorem readNested {forms forms' : Reader}
    (h : R _ (forms line start stop target) (forms' line start stop target)) :
    R _ (readNested (some forms) line start stop target) (readNested (some forms') line start stop target) := by
  unfold Parse.readNested
  exact respected.bind respected.checkCancelled fun _ => respected.deeper h

end Respected

/-- **What holds of the steps of reading some lines holds of reading them**, however deep, if it holds where the
limit is reached, and of trying each candidate wherever it holds of the reader of the level below. -/
theorem Respected.reader {P : (β : Type) → Parsing β → Prop} {r : Registry} {lines : Line → Prop}
    (respected : ∀ line, lines line → Respected line fun β x _ => P β x)
    (limited : ∀ line start stop target, lines line → P _ (Parse.readNested none line start stop target))
    (tried : ∀ read : Reader, (∀ line start stop target, lines line → P _ (read line start stop target)) →
      ∀ line start stop target, lines line → ∀ category ∈ categoriesFor target, ∀ x ∈ r.candidates category,
        P _ (tryCandidate r read line start stop x))
    (levels : Nat) (line : Line) (start stop : Nat) (target : Target) (among : lines line) :
    P _ (r.reader levels line start stop target) := by
  induction levels generalizing line start stop target with
  | zero =>
    exact @Respected.readLevel _ line (respected line among) start stop target none none fun start stop =>
      limited line start stop target among
  | succ levels ih =>
    let forms := Parse.readForms r (r.reader levels)
    have each (start stop : Nat) : P _ (forms line start stop target) :=
      @Respected.readForms _ line (respected line among) r r (r.reader levels) (r.reader levels) start stop target rfl
        (fun _ _ => rfl) (tried (r.reader levels) ih line start stop target among) rfl
        fun start stop target => ih line start stop target among
    exact @Respected.readLevel _ line (respected line among) start stop target (some forms) (some forms)
      fun start stop =>
        @Respected.readNested _ line (respected line among) start stop target forms forms (each start stop)

end Phrasebook.Parse
