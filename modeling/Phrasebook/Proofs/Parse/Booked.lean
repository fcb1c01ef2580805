import Phrasebook.Parse.Line
import Phrasebook.Proofs.Match.Complete
import Phrasebook.Proofs.Parse.Fitting
import Phrasebook.Proofs.Parse.Ledger

/-!
# What a parse leaves behind

Whatever ledger is kept: if every decision that is carried out is booked, so is every reading of an expression,
however deep, and every line. What a candidate leaves behind that is turned down is taken back, and so is what
the items of a list leave behind if it is no list. Main statements: `tryCandidate_books`, `reader_books`,
`parseLine_ok` and `parseLine_error`.
-/

namespace Phrasebook.Parse.Ledger
open Text Pattern Match
open Match.Task (search_go search_tag search_split search_slot search_regex search_stuck search_fail
  search_done)

variable {α ρ : Type} {l : Ledger α} {log before : List α}

/-- What is read is covered by what was booked for it. -/
abbrev BooksReading (l : Ledger α) (x : Parsing (Outcome ρ Expr)) : Prop :=
  l.Books x (OnSuccess fun outcome log => ∀ e, outcome = .found e → l.Covers log e)

/-- Every answer that is remembered is covered. -/
def Remembers (l : Ledger α) (log : List α) (memory : Memory ρ Expr) : Prop :=
  ∀ key e, memory.answers.get? key = some (.found e) → l.Covers log e

/-- Every expression that was captured is covered. -/
def CoversCaptures (l : Ledger α) (log : List α) (captures : List (Capture Expr)) : Prop :=
  ∀ index e, .argument index (some e) ∈ captures → l.Covers log e

/-- Every argument is covered. -/
def CoversArguments (l : Ledger α) (log : List α) (arguments : List (Option Expr)) : Prop :=
  ∀ e, some e ∈ arguments → l.Covers log e

theorem Remembers.append {memory : Memory ρ Expr} (h : l.Remembers before memory) (log : List α) :
    l.Remembers (before ++ log) memory :=
  fun key e found => l.mono (List.subset_append_left before log) (h key e found)

theorem CoversCaptures.append {captures : List (Capture Expr)} (h : l.CoversCaptures before captures)
    (log : List α) : l.CoversCaptures (before ++ log) captures :=
  fun index e mem => l.mono (List.subset_append_left before log) (h index e mem)

theorem CoversCaptures.snoc {captures : List (Capture Expr)} (h : l.CoversCaptures log captures)
    {c : Capture Expr} (new : ∀ index e, c = .argument index (some e) → l.Covers log e) :
    l.CoversCaptures log (captures ++ [c]) := by
  intro index e mem
  rcases List.mem_append.1 mem with old | last
  · exact h index e old
  · exact new index e (List.mem_singleton.1 last).symm

theorem mem_of_foldl_lastArgument {index : Nat} {last : Option Expr} {trail : List (Capture Expr)}
    {e : Expr} (h : trail.foldl (lastArgument index) last = some e) :
    last = some e ∨ .argument index (some e) ∈ trail := by
  induction trail generalizing last with
  | nil => exact .inl h
  | cons c rest ih =>
    rw [List.foldl_cons] at h
    rcases ih h with now | later
    · cases c with
      | argument i value =>
        simp only [lastArgument] at now
        split at now
        next here =>
          rw [now, beq_iff_eq.1 here]
          exact .inr List.mem_cons_self
        · exact .inl now
      | regex => exact .inl now
      | tag => exact .inl now
    · exact .inr (List.mem_cons_of_mem c later)

/-- An argument was captured. -/
theorem mem_of_argumentOf {index : Nat} {trail : List (Capture Expr)} {e : Expr}
    (h : argumentOf index trail = some e) : .argument index (some e) ∈ trail := by
  rw [argumentOf_eq] at h
  rcases mem_of_foldl_lastArgument h with none | captured
  · cases none
  · exact captured

theorem CoversCaptures.arguments {captures : List (Capture Expr)} (h : l.CoversCaptures log captures)
    (placeholders : Nat) (mark : Int64) :
    l.CoversArguments log (Found.ofTrail placeholders mark captures).arguments := by
  intro e mem
  obtain ⟨index, -, captured⟩ := List.mem_map.1 mem
  exact h index e (mem_of_argumentOf captured)

/-- A search is booked: what it remembers and finds is covered, if what was remembered before is. -/
def BooksSearch (l : Ledger α) (before : List α) (x : Search Parsing ρ Expr) : Prop :=
  ∀ memory, l.Remembers before memory →
    l.Books (x memory) (OnSuccess fun result log => l.Remembers (before ++ log) result.2 ∧
      ∀ found, result.1 = some found → l.CoversArguments (before ++ log) found.arguments)

theorem booksSearch_none (memory' : Memory ρ Expr → Memory ρ Expr)
    (same : ∀ memory, (memory' memory).answers = memory.answers) :
    l.BooksSearch before fun memory => pure (none, memory' memory) := by
  intro memory remembers
  refine books_pure ⟨?_, nofun⟩
  rw [List.append_nil]
  intro key e found
  rw [same] at found
  exact remembers key e found

theorem booksSearch_stuck : l.BooksSearch before (Search.stuck (ρ := ρ)) :=
  booksSearch_none id fun _ => rfl

theorem answers_fail (memory : Memory ρ Expr) (pos : Nat) (reason : Reason ρ) :
    (memory.fail pos reason).answers = memory.answers := by
  unfold Memory.fail
  split
  · rfl
  · split <;> rfl

theorem booksSearch_fail (pos : Nat) (reason : Reason ρ) :
    l.BooksSearch before (Search.fail pos reason) :=
  booksSearch_none (·.fail pos reason) fun memory => answers_fail memory pos reason

theorem BooksSearch.or {x y : Search Parsing ρ Expr} (h : l.BooksSearch before x)
    (h' : ∀ log, l.BooksSearch (before ++ log) y) : l.BooksSearch before (x.or y) := by
  intro memory remembers
  refine (h memory remembers).andThen fun result log holds => ?_
  obtain ⟨found | _, memory'⟩ := result
  · have later := h' log memory' holds.1
    simpa only [List.append_assoc] using later
  · exact books_pure (by simpa only [OnSuccess, List.append_nil] using holds)

theorem booksSearch_first {β : Type} {f : β → Search Parsing ρ Expr} (ends : List β)
    (h : ∀ e ∈ ends, ∀ log, l.BooksSearch (before ++ log) (f e)) :
    l.BooksSearch before (.first (ends.map f)) := by
  induction ends generalizing before with
  | nil => exact booksSearch_stuck
  | cons e rest ih =>
    have now := h e List.mem_cons_self []
    rw [List.append_nil] at now
    refine now.or fun log => ih fun e' mem log' => ?_
    have later := h e' (List.mem_cons_of_mem e mem) (log ++ log')
    rwa [← List.append_assoc] at later

variable {task : Task Parsing ρ Expr}

/-- The answer for a placeholder is covered, whether it was remembered or is asked for. -/
theorem books_answer (answers : ∀ p start stop, l.BooksReading (task.resolve p start stop))
    {memory : Memory ρ Expr} (remembers : l.Remembers before memory) (index : Nat) (p : Placeholder)
    (start stop : Nat) :
    l.Books (task.answer memory index p start stop) (OnSuccess fun result log =>
      l.Remembers (before ++ log) result.2 ∧
        ∀ e, result.1 = .found e → l.Covers (before ++ log) e) := by
  unfold Task.answer
  split
  next outcome known =>
    refine books_pure ⟨?_, fun e same => ?_⟩
    · rw [List.append_nil]
      exact remembers
    · cases same
      rw [List.append_nil]
      exact remembers _ e known
  · refine (answers p start stop).andThen fun outcome log covers => books_pure ⟨?_, fun e same => ?_⟩
    · rw [List.append_nil]
      intro key e found
      rw [Table.get?_insert] at found
      split at found
      · exact l.mono (List.subset_append_right before log) (covers e (Option.some.inj found))
      · exact remembers.append log key e found
    · rw [List.append_nil]
      exact l.mono (List.subset_append_right before log) (covers e same)

theorem booksSearch_filling (answers : ∀ p start stop, l.BooksReading (task.resolve p start stop))
    (index : Nat) (p : Placeholder) (start stop : Nat) {next : Expr → Search Parsing ρ Expr}
    (h : ∀ e log, l.Covers (before ++ log) e → l.BooksSearch (before ++ log) (next e)) :
    l.BooksSearch before (task.filling index p start stop next) := by
  intro memory remembers
  refine (books_answer answers remembers index p start stop).andThen fun result log holds => ?_
  obtain ⟨e | reason, memory'⟩ := result
  · have later := h e log (holds.2 e rfl) memory' holds.1
    simpa only [List.append_assoc] using later
  · have fails : l.BooksSearch (before ++ log) (.fail start (.rejected reason)) := booksSearch_fail _ _
    have later := fails memory' holds.1
    simp only [List.append_assoc] at later
    exact later

/-- **A search is booked if its questions are.** -/
theorem booksSearch_search (answers : ∀ p start stop, l.BooksReading (task.resolve p start stop))
    (t : Thread) (captures : List (Capture Expr)) : ∀ {before : List α},
      l.CoversCaptures before captures → l.BooksSearch before (task.search t captures) := by
  fun_induction task.search t captures with
  | case1 t captures next h ih => exact ih
  | case2 t captures name next h captures' =>
    rename_i ih
    intro before covers
    exact ih (covers.snoc fun index e same => by cases same)
  | case3 t captures next other h ih ih' =>
    intro before covers
    exact (ih covers).or fun log => ih' (covers.append log)
  | case4 t captures t' index p start ends h ih =>
    intro before covers
    refine booksSearch_first ends fun end? mem log => ?_
    cases end? with
    | none => exact ih _ _ ((covers.append log).snoc fun index e same => by cases same)
    | some stop =>
      refine booksSearch_filling answers index p start stop fun value log' covered => ?_
      refine ih _ _ (((covers.append log).append log').snoc fun index e same => ?_)
      cases same
      exact covered
  | case5 t captures t' index x start ends h ih =>
    intro before covers
    refine booksSearch_first ends fun stop mem log => ?_
    dsimp only
    split
    · exact ih _ _ ((covers.append log).snoc fun index e same => by cases same)
    · exact booksSearch_fail _ _
  | case6 => exact fun _ => booksSearch_stuck
  | case7 => exact fun _ => booksSearch_stuck
  | case8 => exact fun _ => booksSearch_fail _ _
  | case9 t captures h =>
    intro before covers memory remembers
    refine books_pure ⟨?_, fun found same => ?_⟩
    · rw [List.append_nil]
      exact remembers
    · cases same
      rw [List.append_nil]
      exact covers.arguments _ _

/-- **A match is booked**, with all its arguments covered, if the answers to its questions are. -/
theorem run_books {pattern : Pattern} {line : Line} {start stop : Nat}
    {resolve : Placeholder → Nat → Nat → Parsing (Outcome ρ Expr)}
    (answers : ∀ p start stop, l.BooksReading (resolve p start stop)) :
    l.Books (Match.run pattern line start stop resolve) (OnSuccess fun result log =>
      ∀ found, result = .ok found → l.CoversArguments log found.arguments) := by
  let task : Match.Task Parsing ρ Expr :=
    { pattern, line, region := line.before stop, start, stop,
      isMatch := fun x text => x.regex.isMatch text, resolve }
  have same := task.loop_eq_search { pc := 0, pos := start } {} rfl
  have nothing : l.Remembers [] ({} : Memory ρ Expr) := fun key e found => by simp at found
  have search : l.BooksSearch [] (task.search { pc := 0, pos := start } []) :=
    booksSearch_search answers _ _ fun _ _ mem => (List.not_mem_nil mem).elim
  show l.Books (task.loop _ _ _ _) _
  rw [same]
  refine (search {} nothing).andThen fun result log holds => ?_
  obtain ⟨_ | found, memory⟩ := result
  · refine books_pure fun found same => ?_
    cases same
  · refine books_pure fun found' same => ?_
    cases same
    rw [List.append_nil]
    exact holds.2 found rfl

/-- Whatever a reader finds is covered. -/
def BooksReader (l : Ledger α) (read : Reader) : Prop :=
  ∀ line start stop target, l.BooksReading (read line start stop target)

/-- What having a text parsed leaves behind is booked, but for the warnings about what is not set. -/
theorem readText_books (r : Registry) {read : Reader} (books : l.BooksReader read) (text : String)
    (types : List PatternType) {c : Context} (here : l.Here c) :
    ∃ log c₁, c.Leaves (log.flatMap l.edits) c₁ ∧
      ((∃ e, readText r read text types c = (.ok e, warnUnset r e.localReads c₁) ∧ l.Covers log e) ∨
        ∃ fault, readText r read text types c = (.error fault, c₁)) := by
  obtain ⟨log, leaves, covers⟩ := books (Line.ofString text) 0 (Line.ofString text).size
    (.ofTypes types) { c with rejections := {} } (l.stays (c := c) rfl here)
  unfold readText
  cases ran : read (Line.ofString text) 0 (Line.ofString text).size (.ofTypes types)
      { c with rejections := {} } with
  | mk result after =>
    rw [ran] at leaves covers
    refine ⟨log, { after with rejections := c.rejections }, leaves.remembering, ?_⟩
    simp only [ran]
    split
    next e => exact .inl ⟨e, rfl, covers e rfl⟩
    · exact .inr ⟨_, rfl⟩
    · exact .inr ⟨_, rfl⟩

/-- Carrying out the decision of a candidate is booked if it accepts the node. What was booked for the match
satisfies a condition, and with it what is booked for the node satisfies another one. -/
def BooksAcceptance (l : Ledger α) (r : Registry) (read : Reader) (x : Candidate)
    (A : List α → Found Expr → Prop) (P : List α → Node → Prop) : Prop :=
  ∀ (found : Found Expr) (span : Span) (before : List α) (c : Context),
    l.Stands span → l.Here c → A before found →
    ∃ edits, c.Leaves edits (carryOut r read (x.definition.decide (nodeOf x found span)) c).2 ∧
      ∀ node, (carryOut r read (x.definition.decide (nodeOf x found span)) c).1 = .ok node →
        ∃ log, log.flatMap l.edits = edits ∧ P (before ++ log) node

/-- The decision of a candidate is booked: if the arguments of the match are covered, so is the node that is
accepted. -/
def BooksDecision (l : Ledger α) (r : Registry) (read : Reader) (x : Candidate) : Prop :=
  l.BooksAcceptance r read x (fun before found => l.CoversArguments before found.arguments) l.CoversNode

/-- Only a candidate that is accepted leaves something behind, and its node satisfies a condition with it. -/
def OnAccepted (P : List α → Node → Prop) : Except Cause (Except Miss Node) → List α → Prop
  | .ok (.ok node), log => P log node
  | .ok (.error _), log => log = []
  | .error _, log => log = []

/-- Only candidates one of which is accepted leave something behind. -/
def OnNode (P : List α → Node → Prop) : Except Cause (Option Node × List Attempt) → List α → Prop
  | .ok (some node, _), log => P log node
  | .ok (none, _), log => log = []
  | .error _, log => log = []

section Candidates

variable {r : Registry} {read : Reader}

theorem matchCandidate_books (books : l.BooksReader read) (line : Line) (start stop : Nat) (x : Candidate) :
    l.Books (matchCandidate read line start stop x) (OnSuccess fun result log =>
      ∀ found, result = .ok found → l.CoversArguments log found.arguments) := by
  refine Books.bracket (run_books fun p start stop => books line start stop _) (fun c => rfl) ?_
  intro c c' edits leaves
  exact leaves.trying

variable {P : List α → Node → Prop}

/-- **What a candidate leaves behind that is turned down is taken back.** -/
theorem tryCandidate_books {A : List α → Found Expr → Prop} {line : Line} {start stop : Nat}
    {x : Candidate}
    (matches_ : l.Books (matchCandidate read line start stop x) (OnSuccess fun result log =>
      ∀ found, result = .ok found → A log found))
    (decision : l.BooksAcceptance r read x A P) :
    l.Books (tryCandidate r read line start stop x) (OnAccepted P) := by
  intro c here
  obtain ⟨log, leaves, covers⟩ := matches_ c here
  cases ran : matchCandidate read line start stop x c with
  | mk result c₁ =>
    rw [ran] at leaves covers
    cases result with
    | error cause =>
      refine ⟨[], ?_, ?_⟩ <;> simp only [tryCandidate, Parsing.of, ran]
      · exact leaves.rollback
      · rfl
    | ok outcome =>
      cases outcome with
      | error failure =>
        refine ⟨[], ?_, ?_⟩ <;> simp only [tryCandidate, Parsing.of, ran]
        · exact leaves.rollback
        · rfl
      | ok found =>
        have here : l.Here c₁ := l.stays leaves.setting here
        obtain ⟨edits, leaves', covered⟩ := decision found (c₁.span (stretchOf line start stop)) log
          c₁ (l.stands _ here) here (covers found rfl)
        have both := leaves.trans leaves'
        cases decided : carryOut r read
            (x.definition.decide (nodeOf x found (c₁.span (stretchOf line start stop)))) c₁ with
        | mk verdict c₂ =>
          rw [decided] at both covered
          cases verdict with
          | ok node =>
            obtain ⟨log', same, accepted⟩ := covered node rfl
            rw [← same, ← List.flatMap_append] at both
            refine ⟨log ++ log', ?_, ?_⟩ <;> simp only [tryCandidate, Parsing.of, ran, decided]
            · exact both
            · exact accepted
          | error reason =>
            refine ⟨[], ?_, ?_⟩ <;> simp only [tryCandidate, Parsing.of, ran, decided]
            · exact both.rollback
            · rfl

/-- Candidates leave behind what the one does that is accepted. -/
theorem tryCandidates_books {line : Line} {start stop : Nat} (admissible : Definition → Bool)
    {candidates : List (Candidate × Nat)}
    (each : ∀ x ∈ candidates, l.Books (tryCandidate r read line start stop x.1) (OnAccepted P)) :
    l.Books (tryCandidates r read line start stop admissible candidates) (OnNode P) := by
  induction candidates with
  | nil => exact books_pure rfl
  | cons first rest ih =>
    obtain ⟨x, rank⟩ := first
    have others := ih fun y mem => each y (List.mem_cons_of_mem _ mem)
    rw [tryCandidates]
    refine silent_checkCancelled.bind (fun _ => rfl) fun _ => ?_
    refine books_context fun c _ => ?_
    split
    · exact others
    have counts : l.Silent (Parsing.change fun c => { c with tried := c.tried + 1 }) :=
      silent_change fun c => ⟨rfl, rfl, rfl, rfl, rfl, rfl, rfl⟩
    refine counts.bind (fun _ => rfl) fun _ => ?_
    refine (each (x, rank) List.mem_cons_self).bind (fun cause log none => none) fun result log accepted => ?_
    cases result with
    | ok node =>
      refine books_pure ?_
      rw [List.append_nil]
      exact accepted
    | error miss =>
      have none : log = [] := accepted
      simp only [none, List.nil_append]
      have same (found : Option Node × List Attempt) (log' : List α)
          (holds : OnNode P (.ok found) log') (attempts : List Attempt) :
          OnNode P (.ok (found.1, attempts)) (log' ++ []) := by
        rw [List.append_nil]
        obtain ⟨node?, attempts'⟩ := found
        cases node? <;> exact holds
      exact others.bind (Q := OnNode P) (fun cause log none => none)
        fun found log' holds => books_pure (same found log' holds _)

theorem tryCategory_books {line : Line} {start stop : Nat} {category : Category}
    (admissible : Definition → Bool)
    (each : ∀ x ∈ r.candidates category,
      l.Books (tryCandidate r read line start stop x) (OnAccepted P)) :
    l.Books (tryCategory r read line start stop category admissible) (OnNode P) :=
  tryCandidates_books admissible fun x mem => each x.1 (List.fst_mem_of_mem_zipIdx mem)

/-- A whole line leaves behind what its node does, and nothing if there is none. -/
theorem matchLine_books {category : Category} {line : Line}
    (each : ∀ start stop, ∀ x ∈ r.candidates category,
      l.Books (tryCandidate r read line start stop x) (OnAccepted P)) :
    l.Books (matchLine r read category line) (OnNode P) := by
  unfold matchLine
  dsimp only
  split
  · exact tryCategory_books _ (each _ _)
  · exact books_pure rfl

end Candidates

section Forms

variable {r : Registry} {read : Reader} (books : l.BooksReader read)

/-- What is found, if anything, is covered. -/
def OnExpr (l : Ledger α) (e? : Option Expr) (log : List α) : Prop :=
  ∀ e, e? = some e → l.Covers log e

theorem onExpr_none (log : List α) : l.OnExpr none log := fun _ same => nomatch same

theorem onExpr_some {log : List α} {e : Expr} (covers : l.Covers log e) : l.OnExpr (some e) log := by
  intro e' same
  cases same
  exact covers

/-- What was found by a form of expressions is what is read. -/
theorem books_found {e : Expr} (covers : l.Covers log e) :
    l.Books (pure (.found e) : Parsing Reading)
      (OnSuccess fun reading log' => ∀ e, reading = .found e → l.Covers (log ++ log') e) := by
  refine books_pure fun e' same => ?_
  cases same
  rw [List.append_nil]
  exact covers

theorem books_rejected (reason : Rejection) (log : List α) :
    l.Books (pure (.rejected reason) : Parsing Reading)
      (OnSuccess fun reading log' => ∀ e, reading = .found e → l.Covers (log ++ log') e) :=
  books_pure fun _ same => nomatch same

/-- A reading is covered as well by what was booked before it. -/
theorem BooksReading.after {x : Parsing Reading} (h : l.BooksReading x) (log : List α) :
    l.Books x (OnSuccess fun reading log' => ∀ e, reading = .found e → l.Covers (log ++ log') e) := by
  refine h.imp fun result log' covers => ?_
  cases result with
  | error => trivial
  | ok reading => exact fun e same => l.mono (List.subset_append_right log log') (covers e same)

section Parts

include books

theorem readParenthesised_books (line : Line) (start stop : Nat) (target : Target) :
    l.Books (readParenthesised read line start stop target) (OnSuccess l.OnExpr) := by
  unfold readParenthesised
  split
  · refine (books line (start + 1) (stop - 1) target).andThen fun reading log covers => ?_
    cases reading with
    | found e =>
      refine books_pure (onExpr_some ?_)
      rw [List.append_nil]
      exact covers e rfl
    | rejected => exact books_pure (onExpr_none _)
  · exact books_pure (onExpr_none [])

theorem readItems_books (line : Line) (target : Target) (items : List (Nat × Nat)) :
    l.Books (readItems read line target items)
      (OnSuccess fun es? log => ∀ es, es? = some es → ∀ e ∈ es, l.Covers log e) := by
  induction items with
  | nil =>
    refine books_pure fun es same e mem => ?_
    cases same
    exact (List.not_mem_nil mem).elim
  | cons item rest ih =>
    rw [readItems]
    refine (books line item.1 item.2 target).andThen fun reading log covers => ?_
    cases reading with
    | rejected => exact books_pure fun es same => by cases same
    | found e =>
      refine ih.andThen fun es? log' others => ?_
      cases es? with
      | none => exact books_pure fun es same => by cases same
      | some es =>
        refine books_pure fun es' same e' mem => ?_
        cases same
        rw [List.append_nil]
        rcases List.mem_cons.1 mem with rfl | mem
        · exact l.mono (List.subset_append_left log log') (covers e' rfl)
        · exact l.mono (List.subset_append_right log log') (others es rfl e' mem)

/-- **What the items leave behind is taken back where one of them is turned down.** -/
theorem readList_books (line : Line) (start stop : Nat) (target : Target) :
    l.Books (readList r read line start stop target) (OnSuccess l.OnExpr) := by
  unfold readList
  split
  · exact books_pure (onExpr_none [])
  next items conjunction _ =>
    intro c here
    obtain ⟨log, leaves, covers⟩ := readItems_books books line target.item items c here
    cases ran : readItems read line target.item items c with
    | mk result c₁ =>
      rw [ran] at leaves covers
      have looks {f : Checkpoint → Parsing (Option Expr)} :
          (Parsing.checkpoint >>= f) c = f c.checkpoint c := rfl
      rw [looks]
      cases result with
      | error cause =>
        rw [bind_error ran]
        exact ⟨log, leaves, trivial⟩
      | ok es? =>
        rw [Ends.bind_apply ran]
        cases es? with
        | none => exact ⟨[], leaves.rollback, onExpr_none []⟩
        | some es =>
          refine ⟨log, leaves, fun e same => ?_⟩
          obtain ⟨type, -, rfl⟩ := Option.map_eq_some_iff.1 same
          exact l.list _ _ (l.stands _ (l.stays leaves.setting here)) (covers es rfl)

end Parts

/-- Carrying out the decisions of all expressions and conditions is booked. -/
def BooksExpressions (l : Ledger α) (r : Registry) (read : Reader) : Prop :=
  ∀ category, category = .expression ∨ category = .condition →
    ∀ x ∈ r.candidates category, l.BooksDecision r read x

/-- A node that fits is covered as an expression. -/
theorem covers_nodeExpr? {types : TypeSystem} {node : Node} {target : Target} {e : Expr}
    (covers : l.CoversNode log node) (h : nodeExpr? types node target = some e) : l.Covers log e := by
  unfold nodeExpr? at h
  split at h
  · cases h
  next type _ =>
    split at h
    · cases h
    · have inner : l.Covers log (.node node type node.span) := l.node _ covers
      unfold coerceExpr? at h
      split at h
      · cases h
        exact inner
      · obtain ⟨t, -, found⟩ := List.exists_of_findSome?_eq_some h
        obtain ⟨chain, -, rfl⟩ := Option.map_eq_some_iff.1 found
        exact l.converted _ _ inner

include books

/-- A node that does not fit leaves behind what it does, but covers nothing. -/
theorem readCategories_books (line : Line) (start stop : Nat) (target : Target)
    {categories : List Category}
    (decisions : ∀ category ∈ categories, ∀ x ∈ r.candidates category, l.BooksDecision r read x) :
    l.Books (readCategories r read line start stop target categories)
      (OnSuccess fun result log => l.OnExpr result.1 log) := by
  induction categories with
  | nil => exact books_pure (onExpr_none [])
  | cons category rest ih =>
    have others := ih fun other mem => decisions other (List.mem_cons_of_mem category mem)
    rw [readCategories]
    refine (tryCategory_books (P := l.CoversNode) _ fun x mem => ?_).bindOnSuccess
      fun result log covers => ?_
    · exact tryCandidate_books (matchCandidate_books books line start stop x)
        (decisions category List.mem_cons_self x mem)
    obtain ⟨node?, attempts⟩ := result
    dsimp only
    split
    next e fits =>
      obtain ⟨node, rfl, fits⟩ := Option.bind_eq_some_iff.1 fits
      refine books_pure (onExpr_some ?_)
      rw [List.append_nil]
      exact covers_nodeExpr? covers fits
    · refine others.andThen fun result log' covers => books_pure fun e same => ?_
      rw [List.append_nil]
      exact l.mono (List.subset_append_right log log') (covers e same)

variable (decisions : l.BooksExpressions r read)

include decisions

theorem readSyntax_books (line : Line) (start stop : Nat) (target : Target) :
    l.BooksReading (readSyntax r read line start stop target) := by
  unfold readSyntax
  have each : ∀ category ∈ categoriesFor target, ∀ x ∈ r.candidates category,
      l.BooksDecision r read x := fun category mem => decisions category (mem_categoriesFor mem)
  refine (readCategories_books books line start stop target each).andThen fun result log covers => ?_
  obtain ⟨e?, attempts⟩ := result
  cases e? with
  | some e => exact books_found (covers e rfl)
  | none =>
    dsimp only
    split <;> exact books_rejected _ log

/-- **Every form of expression is booked** if its parts are. -/
theorem readForms_books (line : Line) (start stop : Nat) (target : Target) :
    l.BooksReading (readForms r read line start stop target) := by
  unfold readForms spanOf
  simp only [bind_assoc, pure_bind]
  refine books_context fun c here => ?_
  have stands : l.Stands (c.span (stretchOf line start stop)) := l.stands _ here
  split
  · exact books_rejected _ []
  refine (readParenthesised_books books line start stop target).andThen fun e? log covers => ?_
  cases e? with
  | some e => exact books_found (covers e rfl)
  | none =>
    dsimp only
    split
    · split
      next e read =>
        obtain ⟨name, isLocal, first, single, rfl, -⟩ := variableOf_eq_ok read
        exact books_found (l.var name isLocal _ stands)
      · exact books_rejected _ log
    split
    · exact books_found (l.literal _ _ stands)
    split
    · exact (readSyntax_books books decisions line start stop target).after log
    · refine (readList_books books line start stop target).andThen fun e? log' covers => ?_
      have both (x : Parsing Reading) (h : l.BooksReading x) := h.after (log ++ log')
      simp only [List.append_assoc] at both
      cases e? with
      | some e =>
        refine books_pure fun e' same => ?_
        cases same
        rw [List.append_nil]
        exact l.mono (List.subset_append_right log log') (covers e rfl)
      | none => exact both _ (readSyntax_books books decisions line start stop target)

end Forms

section Levels

/-- One level is booked if the forms below are. -/
theorem readNested_books {forms : Option Reader} (books : ∀ read ∈ forms, l.BooksReader read)
    (line : Line) (start stop : Nat) (target : Target) :
    l.BooksReading (readNested forms line start stop target) := by
  unfold readNested
  refine silent_checkCancelled.bind (fun _ => trivial) fun _ => ?_
  cases forms with
  | none => exact books_context fun c _ c' _ => ⟨[], .refl c', trivial⟩
  | some read =>
    refine (books read rfl line start stop target).bracket (fun c => rfl) ?_
    intro c c' edits leaves
    exact leaves.deeper

/-- What is turned down is remembered without a trace. -/
theorem readLevel_books {forms : Option Reader} (books : ∀ read ∈ forms, l.BooksReader read) :
    l.BooksReader (readLevel forms) := by
  intro line start stop target
  rw [readLevel]
  dsimp only
  refine books_context fun c _ => ?_
  split
  · exact books_rejected _ []
  · refine (readNested_books books line _ _ target).andThen fun reading log covers => ?_
    cases reading with
    | found e => exact books_found (covers e rfl)
    | rejected reason =>
      dsimp only
      split
      · refine Silent.bind ?_ (fun _ => trivial) fun _ => books_rejected reason log
        exact silent_change fun c => ⟨rfl, rfl, rfl, rfl, rfl, rfl, rfl⟩
      · exact books_rejected reason log

variable {r : Registry}

/-- **Reading an expression is booked**, however deep it is nested, if decisions are whose texts are. -/
theorem reader_books
    (decisions : ∀ levels, l.BooksReader (r.reader levels) → l.BooksExpressions r (r.reader levels))
    (levels : Nat) : l.BooksReader (r.reader levels) := by
  induction levels with
  | zero =>
    intro line start stop target
    rw [Registry.reader]
    have nothing : ∀ read ∈ (none : Option Reader), l.BooksReader read := by simp
    exact readLevel_books nothing line start stop target
  | succ levels ih =>
    intro line start stop target
    rw [Registry.reader]
    refine readLevel_books (fun read same => ?_) line start stop target
    cases same
    intro line start stop target
    exact readForms_books ih (decisions levels ih) line start stop target

end Levels

section Line

variable {r : Registry} {P : List α → Node → Prop} {category : Category} {text : String}
  {c c' : Context}
  (each : ∀ start stop, ∀ x ∈ r.candidates category,
    l.Books (tryCandidate r (r.reader c.remainingDepth) (Line.ofString text) start stop x)
      (OnAccepted P))
  (here : l.Here c)

include each here

/-- What a line leaves behind before its result is made of it. -/
theorem parseLine_run :
    ∃ result log c₁, { c with nearMisses := [] }.Leaves (log.flatMap l.edits) c₁ ∧
      c₁.rejections = c.rejections ∧ OnNode P result log ∧
      r.parseLine category text c = lineResult r category text result c₁ := by
  obtain ⟨log, leaves, covers⟩ :=
    matchLine_books each { c with nearMisses := [], rejections := {} } (l.stays (c := c) rfl here)
  cases ran : matchLine r (r.reader c.remainingDepth) category (Line.ofString text)
      { c with nearMisses := [], rejections := {} } with
  | mk result after =>
    rw [ran] at leaves covers
    refine ⟨result, log, { after with rejections := c.rejections }, ?_, rfl, covers, ?_⟩
    · exact leaves.remembering (c := { c with nearMisses := [] })
    · simp only [Registry.parseLine, parseLineBy, ran]

/-- What a line leaves behind that has a node. Left out of the ledger are the reads of local variables before
they were set, which are reported in the end. -/
theorem parseLine_ok {node : Node} (parsed : r.parseLine category text c = (.ok node, c')) :
    ∃ log c₁, { c with nearMisses := [] }.Leaves (log.flatMap l.edits) c₁ ∧
      c₁.rejections = c.rejections ∧ P log node ∧ c' = warnUnset r node.localReads c₁ := by
  obtain ⟨result, log, c₁, leaves, same, covers, run⟩ := parseLine_run each here
  rw [run] at parsed
  unfold lineResult at parsed
  split at parsed
  · cases parsed
    exact ⟨log, c₁, leaves, same, covers, rfl⟩
  · cases parsed
  · cases parsed

/-- A line without a node leaves nothing behind. -/
theorem parseLine_error {fault : Fault} (parsed : r.parseLine category text c = (.error fault, c')) :
    { c with nearMisses := c'.nearMisses }.Leaves [] c' ∧ c'.rejections = c.rejections := by
  obtain ⟨result, log, c₁, leaves, same, covers, run⟩ := parseLine_run each here
  have nothing (none : log = []) : { c with nearMisses := [] }.Leaves [] c₁ := by
    rw [none] at leaves
    exact leaves
  rw [run] at parsed
  unfold lineResult at parsed
  split at parsed
  · cases parsed
  · cases parsed
    obtain ⟨setting, depth, maxDepth, trials, -, diagnostics, scopes⟩ := nothing covers
    exact ⟨⟨setting, depth, maxDepth, trials, rfl, diagnostics, scopes⟩, same⟩
  · cases parsed
    obtain ⟨setting, depth, maxDepth, trials, -, diagnostics, scopes⟩ := nothing covers
    exact ⟨⟨setting, depth, maxDepth, trials, rfl, diagnostics, scopes⟩, same⟩

end Line

end Phrasebook.Parse.Ledger
