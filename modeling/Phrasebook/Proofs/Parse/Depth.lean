import Phrasebook.Parse.Line
import Phrasebook.Proofs.Decision
import Phrasebook.Proofs.Parse.Fitting
import Phrasebook.Proofs.Parse.Parts
import Phrasebook.Proofs.Step
import Phrasebook.Proofs.Vocabulary

/-!
# A bounded depth is enough

A definition that is already being tried on a stretch is left out there, so a syntax that starts with itself
does not nest without end. Reading a stretch nests into shorter stretches, or into the same one while one more
definition is being tried on it; `Registry.levels` counts how often that is possible, and
`parse_within_depth` that a depth of that size suffices.
-/

namespace Phrasebook
open Text

/-- The definitions that may fill a placeholder. -/
def Registry.fillers (r : Registry) : List Definition :=
  r.definitions.filter fun d => d.category == .expression || d.category == .condition

/-- The number of definitions that may fill a placeholder and are not being tried on a stretch. -/
def Registry.untried (r : Registry) (trials : List Trial) (stretch : Stretch) : Nat :=
  r.fillers.countP fun d => !trials.contains ⟨d.id, stretch⟩

/-- The levels of nesting that reading a stretch of a line may take while some definitions are being
tried. -/
def Registry.levels (r : Registry) (trials : List Trial) (line : Line) (start stop : Nat) : Nat :=
  (stop - start) * (r.fillers.length + 1) + r.untried trials (Parse.stretchOf line start stop) + 1

namespace Registry

variable {r : Registry} {trials : List Trial} {line : Line} {start stop : Nat}

theorem untried_le (r : Registry) (trials : List Trial) (stretch : Stretch) :
    r.untried trials stretch ≤ r.fillers.length :=
  List.countP_le_length

/-- One definition more is being tried. -/
theorem untried_lt {d : Definition} {stretch : Stretch} (among : d ∈ r.fillers)
    (new : ⟨d.id, stretch⟩ ∉ trials) :
    r.untried (⟨d.id, stretch⟩ :: trials) stretch < r.untried trials stretch := by
  obtain ⟨before, after, all⟩ := List.append_of_mem among
  have fewer (ds : List Definition) :
      ds.countP (fun e => !(⟨d.id, stretch⟩ :: trials).contains ⟨e.id, stretch⟩) ≤
        ds.countP fun e => !trials.contains ⟨e.id, stretch⟩ := by
    refine List.countP_mono_left fun e _ untried => ?_
    rw [List.contains_cons, Bool.not_or, Bool.and_eq_true] at untried
    exact untried.2
  have here : (!(⟨d.id, stretch⟩ :: trials).contains ⟨d.id, stretch⟩) = false := by simp
  have here' : (!trials.contains ⟨d.id, stretch⟩) = true := by simpa using new
  have first := fewer before
  have last := fewer after
  simp only [untried, all, List.countP_append, List.countP_cons, here, here', if_true, Bool.false_eq_true,
    if_false]
  omega

/-- The levels that a stretch may take whatever is being tried. -/
theorem levels_le (r : Registry) (line : Line) (trials : List Trial) {length : Nat} (short : stop - start ≤ length) :
    r.levels trials line start stop ≤ (length + 1) * (r.fillers.length + 1) := by
  have few := r.untried_le trials (Parse.stretchOf line start stop)
  have product := Nat.mul_le_mul_right (r.fillers.length + 1) short
  rw [levels, Nat.succ_mul]
  omega

/-- A shorter stretch takes fewer levels, whatever is being tried. -/
theorem levels_shorter (r : Registry) (line : Line) (trials trials' : List Trial) {low high : Nat}
    (less : high - low < stop - start) :
    r.levels trials' line low high < r.levels trials line start stop := by
  have bound := r.levels_le line trials' (Nat.le_refl (high - low))
  have product := Nat.mul_le_mul_right (r.fillers.length + 1) (Nat.succ_le_of_lt less)
  rw [Nat.succ_eq_add_one] at product
  show _ < (stop - start) * (r.fillers.length + 1) + _ + 1
  omega

end Registry

/-- A line has no more characters than its text has bytes. -/
theorem Text.Line.size_ofString_le (text : String) : (Line.ofString text).size ≤ text.utf8ByteSize := by
  have bytes (cs : List Char) : cs.length ≤ (String.ofList cs).utf8ByteSize := by
    induction cs with
    | nil => exact Nat.zero_le _
    | cons c cs ih =>
      have positive := Char.utf8Size_pos c
      rw [List.length_cons, ← List.singleton_append, String.ofList_append, String.utf8ByteSize_append,
        ← String.singleton_eq_ofList, String.utf8ByteSize_singleton]
      omega
  have size : (Line.ofString text).size = text.toList.length := by
    simp [Line.ofString, Line.ofList, Line.size]
  have here := bytes text.toList
  rwa [String.ofList_toList, ← size] at here

namespace Parse

variable {β γ : Type} {trials : List Trial} {r : Registry} {line : Line} {start stop : Nat}

/-- While some definitions are being tried, a step does not run into the recursion limit, and leaves them
being tried. -/
def Unlimited (trials : List Trial) (x : Parsing β) : Prop :=
  ∀ c, c.trials = trials → (x c).2.trials = trials ∧ ∀ limit, (x c).1 ≠ .error (.recursionLimit limit)

/-- The relation of which every step that does not run into the limit is a member, with any other one. -/
def unlimitedRelation (trials : List Trial) : StepRelation Parsing :=
  fun _ x _ => Unlimited trials x

theorem unlimited_pure (b : β) : Unlimited trials (pure b) :=
  fun _ here => ⟨here, fun _ limited => nomatch limited⟩

theorem Unlimited.bind {x : Parsing β} {f : β → Parsing γ} (first : Unlimited trials x)
    (second : ∀ b, Unlimited trials (f b)) : Unlimited trials (x >>= f) := by
  intro c here
  obtain ⟨after, unlimited⟩ := first c here
  cases step : x c with
  | mk result c' =>
    rw [step] at after unlimited
    cases result with
    | ok b =>
      have ends : Ends x c b c' := step
      rw [ends.bind_apply]
      exact second b c' after
    | error cause =>
      rw [bind_error step]
      exact ⟨after, fun limit limited => unlimited limit (by cases limited; rfl)⟩

theorem composes_unlimited (trials : List Trial) : (unlimitedRelation trials).Composes :=
  ⟨unlimited_pure, Unlimited.bind⟩

theorem unlimited_context {f : Context → Parsing β} (h : ∀ c, c.trials = trials → Unlimited trials (f c)) :
    Unlimited trials (Parsing.context >>= f) :=
  fun c here => h c here c here

theorem unlimited_checkpoint : Unlimited trials Parsing.checkpoint :=
  fun _ here => ⟨here, fun _ limited => nomatch limited⟩

theorem unlimited_change {f : Context → Context} (keeps : ∀ c, (f c).trials = c.trials) :
    Unlimited trials (Parsing.change f) :=
  fun c here => ⟨(keeps c).trans here, fun _ limited => nomatch limited⟩

theorem unlimited_checkCancelled : Unlimited trials Parsing.checkCancelled := by
  intro c here
  unfold Parsing.checkCancelled Parsing.of
  dsimp only
  split
  · exact ⟨here, fun _ limited => nomatch limited⟩
  · exact ⟨here, fun _ limited => nomatch limited⟩

theorem Unlimited.bracket {trials' : List Trial} {x : Parsing β} (h : Unlimited trials' x)
    {enter leave : Context → Context} (enters : ∀ c, c.trials = trials → (enter c).trials = trials')
    (leaves : ∀ c, c.trials = trials' → (leave c).trials = trials) :
    Unlimited trials (Parsing.bracket enter leave x) := by
  intro c here
  obtain ⟨after, unlimited⟩ := h (enter c) (enters c here)
  exact ⟨leaves _ after, unlimited⟩

theorem Unlimited.orUndone {x : Parsing (Option β)} (h : Unlimited trials x) :
    Unlimited trials (orUndone x) := by
  refine unlimited_checkpoint.bind fun before => h.bind fun b? => ?_
  cases b? with
  | none => exact (unlimited_change fun _ => rfl).bind fun _ => unlimited_pure _
  | some b => exact unlimited_pure _

/-- Reading at one level does not run into the limit if reading the forms does not. -/
theorem unlimited_readLevel {forms : Reader} {target : Target}
    (h : Unlimited trials
      (forms line (line.trimmed start stop).1 (line.trimmed start stop).2 target)) :
    Unlimited trials (readLevel (some forms) line start stop target) := by
  unfold readLevel
  refine unlimited_context fun c here => ?_
  have nested : Unlimited trials (readNested (some forms) line (line.trimmed start stop).1
      (line.trimmed start stop).2 target) :=
    unlimited_checkCancelled.bind fun _ => h.bracket (fun _ here => here) fun _ here => here
  dsimp only
  split
  · exact unlimited_pure _
  · refine nested.bind fun reading => ?_
    cases reading with
    | found e => exact unlimited_pure _
    | rejected reason =>
      dsimp only
      split
      · exact (unlimited_change fun _ => rfl).bind fun _ => unlimited_pure _
      · exact unlimited_pure _

section Candidates

variable {read : Reader}

/-- A candidate does not run into the limit if the stretches that it asks for do not, while its definition is
being tried. -/
theorem unlimited_tryCandidate {candidate : Candidate}
    (quiet : ∀ node, (candidate.definition.decide node).ParsesNothing)
    (slots : ∀ low high target, start ≤ low → low < high → high ≤ stop →
      Unlimited (⟨candidate.definition.id, stretchOf line start stop⟩ :: trials)
        (read line low high target)) :
    Unlimited trials (tryCandidate r read line start stop candidate) := by
  have matched : Unlimited trials (matchCandidate read line start stop candidate) := by
    have run : unlimitedRelation (⟨candidate.definition.id, stretchOf line start stop⟩ :: trials) _
        (Match.run candidate.pattern line start stop fun p low high => read line low high (.ofPlaceholder p))
        (Match.run candidate.pattern line start stop fun p low high => read line low high (.ofPlaceholder p)) :=
      Match.related_run (composes_unlimited _) fun p low high hs less ht => slots low high _ hs less ht
    refine Unlimited.bracket run (fun c here => ?_) fun c here => ?_
    · rw [here]
    · rw [here]
      rfl
  intro c here
  obtain ⟨after, unlimited⟩ := matched c here
  unfold tryCandidate Parsing.of
  dsimp only
  cases step : matchCandidate read line start stop candidate c with
  | mk result c' =>
    rw [step] at after unlimited
    cases result with
    | error cause => exact ⟨after, fun limit limited => unlimited limit (by cases limited; rfl)⟩
    | ok result =>
      cases result with
      | error failure => exact ⟨after, fun _ limited => nomatch limited⟩
      | ok found =>
        have decided := trials_carryOut r read
          (quiet (nodeOf candidate found (c'.span (stretchOf line start stop)))) c'
        dsimp only
        split
        next node c'' ends =>
          rw [ends] at decided
          exact ⟨decided.trans after, fun _ limited => nomatch limited⟩
        next reason c'' ends =>
          rw [ends] at decided
          exact ⟨decided.trans after, fun _ limited => nomatch limited⟩

/-- Candidates do not run into the limit if the stretches that they ask for do not, while their definitions
are being tried. -/
theorem unlimited_tryCandidates (admissible : Definition → Bool) {candidates : List (Candidate × Nat)}
    (quiet : ∀ x ∈ candidates, ∀ node, (x.1.definition.decide node).ParsesNothing)
    (slots : ∀ x ∈ candidates, ⟨x.1.definition.id, stretchOf line start stop⟩ ∉ trials →
      ∀ low high target, start ≤ low → low < high → high ≤ stop →
        Unlimited (⟨x.1.definition.id, stretchOf line start stop⟩ :: trials) (read line low high target)) :
    Unlimited trials (tryCandidates r read line start stop admissible candidates) := by
  induction candidates with
  | nil => exact unlimited_pure _
  | cons first rest ih =>
    obtain ⟨candidate, rank⟩ := first
    have rest := ih (fun x mem => quiet x (List.mem_cons_of_mem _ mem))
      fun x mem => slots x (List.mem_cons_of_mem _ mem)
    simp only [tryCandidates]
    refine unlimited_checkCancelled.bind fun _ => unlimited_context fun c here => ?_
    split
    · exact rest
    next admitted =>
      have new : ⟨candidate.definition.id, stretchOf line start stop⟩ ∉ trials := by
        simp only [Bool.or_eq_true, not_or, Context.isTrying, here, List.contains_iff_mem] at admitted
        exact admitted.2
      have counted : Unlimited trials (Parsing.change fun c => { c with tried := c.tried + 1 }) :=
        unlimited_change fun _ => rfl
      refine counted.bind fun _ => ?_
      refine (unlimited_tryCandidate (quiet _ List.mem_cons_self) (slots _ List.mem_cons_self new)).bind
        fun result => ?_
      cases result with
      | ok node => exact unlimited_pure _
      | error miss => exact rest.bind fun result => unlimited_pure _

/-- The syntax of a target does not run into the limit if its candidates do not. -/
theorem unlimited_readSyntax {target : Target}
    (each : ∀ category ∈ categoriesFor target,
      Unlimited trials (tryCategory r read line start stop category fun d => mayReturn r.types d target)) :
    Unlimited trials (readSyntax r read line start stop target) := by
  have categories : Unlimited trials
      (readCategories r read line start stop target (categoriesFor target)) := by
    generalize categoriesFor target = categories at each
    induction categories with
    | nil => exact unlimited_pure _
    | cons category rest ih =>
      rw [readCategories]
      refine (each category List.mem_cons_self).bind fun result => ?_
      dsimp only
      split
      · exact unlimited_pure _
      · have rest := ih fun category mem => each category (List.mem_cons_of_mem _ mem)
        exact rest.bind fun result => unlimited_pure _
  refine categories.bind fun result => ?_
  obtain ⟨e?, attempts⟩ := result
  cases e? with
  | some e => exact unlimited_pure _
  | none =>
    dsimp only
    split <;> exact unlimited_pure _

end Candidates

section Reader

variable (lawful : r.Lawful) (quiet : ∀ d ∈ r.definitions, ∀ node, (d.decide node).ParsesNothing)
include lawful quiet

omit quiet in
/-- A candidate that fills a placeholder is one of a definition that may. -/
theorem mem_fillers {target : Target} {category : Category} (tried : category ∈ categoriesFor target)
    {candidate : Candidate} (among : candidate ∈ r.candidates category) :
    candidate.definition ∈ r.fillers := by
  have of := lawful category candidate among
  refine List.mem_filter.2 ⟨List.mem_of_getElem? of.definition, ?_⟩
  rw [of.category]
  rcases mem_categoriesFor tried with rfl | rfl <;> rfl

/-- The candidates of a category do not run into the limit if the stretches that they ask for do not. -/
theorem unlimited_tryCategory {read : Reader} (category : Category) (admissible : Definition → Bool)
    (slots : ∀ candidate ∈ r.candidates category,
      ⟨candidate.definition.id, stretchOf line start stop⟩ ∉ trials →
        ∀ low high target, start ≤ low → low < high → high ≤ stop →
          Unlimited (⟨candidate.definition.id, stretchOf line start stop⟩ :: trials)
            (read line low high target)) :
    Unlimited trials (tryCategory r read line start stop category admissible) := by
  refine unlimited_tryCandidates admissible (fun x mem => ?_) fun x mem => ?_
  · have among := List.fst_mem_of_mem_zipIdx mem
    exact quiet _ (List.mem_of_getElem? (lawful category x.1 among).definition)
  · exact slots x.1 (List.fst_mem_of_mem_zipIdx mem)

/-- **Reading a stretch does not run into the limit** if it may nest as deep as the stretch takes. -/
theorem unlimited_reader {levels : Nat} {target : Target} (ordered : start ≤ stop)
    (deep : r.levels trials line (line.trimmed start stop).1 (line.trimmed start stop).2 ≤ levels) :
    Unlimited trials (r.reader levels line start stop target) := by
  induction levels generalizing trials start stop target with
  | zero => exact absurd deep (Nat.not_le_of_lt (Nat.succ_pos _))
  | succ levels ih =>
    refine unlimited_readLevel ?_
    obtain ⟨-, ordered', -⟩ := line.trimmed_bounds ordered
    generalize line.trimmed start stop = trimmed at deep ordered' ⊢
    obtain ⟨start, stop⟩ := trimmed
    dsimp only at deep ordered' ⊢
    -- a shorter part nests less deep, whatever is being tried
    have shorter {low high : Nat} {trials' : List Trial} {target : Target} (part : low ≤ high)
        (less : high - low < stop - start) :
        Unlimited trials' (r.reader levels line low high target) := by
      obtain ⟨hs, -, ht⟩ := line.trimmed_bounds part
      have less' : (line.trimmed low high).2 - (line.trimmed low high).1 < stop - start := by omega
      have fewer := r.levels_shorter line trials trials' less'
      exact ih part (by omega)
    suffices syntax_ : Unlimited trials (readSyntax r (r.reader levels) line start stop target) by
      have span : Unlimited trials (spanOf line start stop) :=
        unlimited_context fun c _ => unlimited_pure _
      have forms : unlimitedRelation trials _ (readForms r (r.reader levels) line start stop target)
          (readForms r (r.reader levels) line start stop target) :=
        related_forms (composes_unlimited trials)
          (fun part target proper => shorter (Nat.le_of_lt proper.some) proper.less)
          (fun x _ h => Unlimited.orUndone h) span rfl rfl (fun room => shorter (by omega) (by omega)) syntax_
      exact forms
    refine unlimited_readSyntax fun category tried => ?_
    refine unlimited_tryCategory lawful quiet category _ fun candidate among new low high target hs less ht => ?_
    -- a part that is the stretch itself nests less deep because one more definition is being tried
    have fewer := Registry.untried_lt (mem_fillers lawful tried among) new
    obtain ⟨hs', part, ht'⟩ := line.trimmed_bounds (Nat.le_of_lt less)
    refine ih (Nat.le_of_lt less) ?_
    by_cases whole : (line.trimmed low high).2 - (line.trimmed low high).1 < stop - start
    · have fewer := r.levels_shorter line trials
        (⟨candidate.definition.id, stretchOf line start stop⟩ :: trials) whole
      omega
    · have same : (line.trimmed low high).1 = start ∧ (line.trimmed low high).2 = stop := by omega
      rw [same.1, same.2]
      simp only [Registry.levels] at deep ⊢
      omega

/-- A line does not run into the limit if the forms of its slots may nest as deep as any part of it takes. -/
theorem unlimited_matchLine {levels : Nat} (category : Category)
    (deep : (line.size + 1) * (r.fillers.length + 1) ≤ levels) :
    Unlimited trials (matchLine r (r.reader levels) category line) := by
  unfold matchLine
  dsimp only
  split
  · refine unlimited_tryCategory lawful quiet category _ fun candidate _ _ low high target hs less ht => ?_
    obtain ⟨-, -, inside⟩ := line.trimmed_bounds (Nat.zero_le line.size)
    obtain ⟨hs', part, ht'⟩ := line.trimmed_bounds (Nat.le_of_lt less)
    refine unlimited_reader lawful quiet (Nat.le_of_lt less) (Nat.le_trans ?_ deep)
    exact r.levels_le line _ (by omega)
  · exact unlimited_pure _

end Reader

end Parse

open Parse

/-- The limit of a state allows a text to nest as deep as it may. -/
theorem deep_of_bytes {r : Registry} {c : Context} {text : String}
    (deep : c.depth + (text.utf8ByteSize + 1) * (r.fillers.length + 1) ≤ c.maxDepth) :
    ((Line.ofString text).size + 1) * (r.fillers.length + 1) ≤ c.remainingDepth := by
  have few := Line.size_ofString_le text
  have product := Nat.mul_le_mul_right (r.fillers.length + 1) (Nat.succ_le_succ few)
  simp only [Nat.succ_eq_add_one] at product
  unfold Context.remainingDepth
  omega

/-- **Parsing needs a bounded depth only.** In every registry whose definitions have no text parsed, neither
a line nor an expression of `n` bytes runs into the recursion limit if that leaves `(n + 1) * (d + 1)` levels,
where `d` definitions are of expressions and conditions. Between lines the depth is 0. -/
theorem parse_within_depth {b : RegistryBuilder} (reachable : b.Reachable)
    (quiet : ∀ d ∈ b.definitions, ∀ node, (d.decide node).ParsesNothing) {c : Context} {text : String}
    (deep : c.depth + (text.utf8ByteSize + 1) * (b.build.fillers.length + 1) ≤ c.maxDepth) :
    (∀ category fault c', b.build.parseLine category text c = (.error fault, c') →
      ∀ limit, fault.cause ≠ .recursionLimit limit) ∧
    ∀ types fault c', b.build.parseExpression text types c = (.error fault, c') →
      ∀ limit, fault.cause ≠ .recursionLimit limit := by
  have lawful := reachable.lawful
  have deep := deep_of_bytes deep
  constructor
  · intro category fault c' failed limit
    have unlimited := (unlimited_matchLine lawful quiet category deep
      { c with nearMisses := [], rejections := {} } rfl).2
    unfold Registry.parseLine parseLineBy at failed
    cases step : matchLine b.build (b.build.reader c.remainingDepth) category (Line.ofString text)
        { c with nearMisses := [], rejections := {} } with
    | mk result after =>
      simp only [step] at failed unlimited
      unfold lineResult at failed
      split at failed
      · cases failed
      · cases failed
        simp
      · cases failed
        intro limited
        exact unlimited limit (congrArg Except.error limited)
  · intro types fault c' failed limit
    have bounds := (Line.ofString text).trimmed_bounds (Nat.zero_le (Line.ofString text).size)
    have fewer := b.build.levels_le (Line.ofString text) c.trials
      (Nat.le_trans (Nat.sub_le _ ((Line.ofString text).trimmed 0 (Line.ofString text).size).1) bounds.2.2)
    have whole : Unlimited c.trials (b.build.reader c.remainingDepth (Line.ofString text) 0
        (Line.ofString text).size (.ofTypes types)) :=
      unlimited_reader lawful quiet (Nat.zero_le _) (Nat.le_trans fewer deep)
    have unlimited := (whole { c with rejections := {} } rfl).2
    unfold Registry.parseExpression readText at failed
    cases step : b.build.reader c.remainingDepth (Line.ofString text) 0 (Line.ofString text).size
        (.ofTypes types) { c with rejections := {} } with
    | mk result after =>
      simp only [step] at failed unlimited
      split at failed
      · cases failed
      · cases failed
        simp
      · cases failed
        intro limited
        exact unlimited limit (congrArg Except.error limited)

/-- A vocabulary in which a number may be a number again. -/
def circular : List Entry :=
  [.type { name := "number", plural := "numbers" },
    .definition { category := .effect, patterns := ["print %number%"] },
    .definition { category := .expression, patterns := ["%number%"], returns := some "number" }]

/-- A line that prints what is no number fails, but not at the limit. -/
theorem parse_within_depth_circular :
    let r := ((RegistryBuilder.withConfig {}).addAll circular).1.build
    0 + ("print x".utf8ByteSize + 1) * (r.fillers.length + 1) ≤ 64 ∧
      ∃ fault c', r.parseLine .effect "print x" {} = (.error fault, c') ∧
        fault.cause ≠ .recursionLimit 64 := by
  intro r
  have reachable := RegistryBuilder.addAll_reachable circular (.setConfig {} .new)
  have quiet : ∀ d ∈ ((RegistryBuilder.withConfig {}).addAll circular).1.definitions,
      ∀ node, (d.decide node).ParsesNothing :=
    RegistryBuilder.addAll_decides (P := fun decide => ∀ node, (decide node).ParsesNothing)
      (by simp [circular, Entry.Decides, Action.ParsesNothing]) fun _ mem => (List.not_mem_nil mem).elim
  have deep : 0 + ("print x".utf8ByteSize + 1) * (r.fillers.length + 1) ≤ 64 := by decide +kernel
  have fails : (r.parseLine .effect "print x" {}).1.toOption.isNone = true := by decide +kernel
  refine ⟨deep, ?_⟩
  cases failed : r.parseLine .effect "print x" {} with
  | mk result c' =>
    cases result with
    | ok => simp [failed, Except.toOption] at fails
    | error fault =>
      exact ⟨fault, c', rfl, (parse_within_depth reachable quiet deep).1 .effect fault c' failed 64⟩

end Phrasebook
