import Phrasebook.Proofs.Parse.Acceptances
import Phrasebook.Proofs.Parse.Respected

/-!
# What is left behind where nothing was read

A text that is turned down may leave something behind nevertheless. A node that was accepted and does not fit is
dropped without taking back what its decision has done, and a list takes back what its items have done if one of
them is turned down, but not if the parse ends at one (`Tidy`). There is no other way: if neither happens, a
parse that fails leaves nothing behind (`parseExpression_failed`).
-/

namespace Phrasebook
open Text Match Parse

namespace Parse

/-- A step fails only for reasons that end the parse of a whole line. -/
def FailsFatally {β : Type} (x : Parsing β) : Prop :=
  ∀ c cause, (x c).1 = .error cause → cause.isFatal = true

section Fatal

variable {β γ : Type}

theorem FailsFatally.bind {x : Parsing β} {f : β → Parsing γ} (first : FailsFatally x)
    (second : ∀ b, FailsFatally (f b)) : FailsFatally (x >>= f) := by
  intro c cause failed
  cases ran : x c with
  | mk result c' =>
    cases result with
    | error cause' =>
      rw [bind_error ran] at failed
      cases failed
      exact first c cause (by rw [ran])
    | ok b =>
      rw [Ends.bind_apply ran] at failed
      exact second b c' cause failed

theorem FailsFatally.orUndone {x : Parsing (Option β)} (h : FailsFatally x) : FailsFatally (orUndone x) := by
  have checkpoint : FailsFatally Parsing.checkpoint := fun _ _ failed => nomatch failed
  refine checkpoint.bind fun before => h.bind fun b? => ?_
  cases b? with
  | none =>
    have undo : FailsFatally (Parsing.change fun c => c.rollback before) := fun _ _ failed => nomatch failed
    exact undo.bind fun _ _ _ failed => nomatch failed
  | some b => exact fun _ _ failed => nomatch failed

theorem failsFatally_checkCancelled : FailsFatally Parsing.checkCancelled := by
  intro c cause failed
  simp only [Parsing.checkCancelled, Parsing.of] at failed
  split at failed
  · cases failed
    rfl
  · cases failed

theorem respected_failsFatally (line : Line) : Respected line fun _ x _ => FailsFatally x where
  pure _ := fun _ _ failed => nomatch failed
  bind := FailsFatally.bind
  checkCancelled := failsFatally_checkCancelled
  isTrying _ _ _ := fun _ _ failed => nomatch failed
  countTrial := fun _ _ failed => nomatch failed
  lookBack _ _ _ := fun _ _ failed => nomatch failed
  remember _ _ _ _ := fun _ _ failed => nomatch failed
  spanOf _ _ := fun _ _ failed => nomatch failed
  orUndone := FailsFatally.orUndone
  deeper h := fun c cause failed => h c.deepen cause failed

variable {r : Registry} {read : Reader} {line : Line} {start stop : Nat}

/-- A candidate fails as its parts do; what it is turned down for is no failure. -/
theorem failsFatally_tryCandidate (x : Candidate)
    (parts : ∀ start stop target, FailsFatally (read line start stop target)) :
    FailsFatally (tryCandidate r read line start stop x) := by
  let resolve (p : Pattern.Placeholder) (start stop : Nat) := read line start stop (.ofPlaceholder p)
  have matched : FailsFatally (matchCandidate read line start stop x) := fun c cause failed =>
    @related_run _ _ _ _ _ (respected_failsFatally line).toComposes _ _ _ _ _ resolve resolve
      (fun p low high _ _ _ => parts low high _) _ cause failed
  intro c cause failed
  unfold tryCandidate Parsing.of at failed
  dsimp only at failed
  cases ran : matchCandidate read line start stop x c with
  | mk result c' =>
    rw [ran] at failed
    rcases result with cause' | failure | found
    · cases failed
      exact matched c cause (by rw [ran])
    · cases failed
    · dsimp only at failed
      split at failed <;> cases failed

/-- **Reading an expression fails only fatally.** -/
theorem failsFatally_reader (r : Registry) (levels : Nat) (line : Line) (start stop : Nat) (target : Target) :
    FailsFatally (r.reader levels line start stop target) := by
  refine @Respected.reader (fun _ x => FailsFatally x) r (fun _ => True)
    (fun line _ => respected_failsFatally line) (fun line start stop target _ => ?_)
    (fun read below line start stop target among _ _ x _ => ?_) levels line start stop target trivial
  · refine failsFatally_checkCancelled.bind fun _ c cause failed => ?_
    cases failed
    rfl
  · exact failsFatally_tryCandidate x fun start stop target => below line start stop target among

end Fatal

/-- The node of an acceptance was accepted for a target, but as an expression it does not fit it. -/
def Unfitting (r : Registry) (target : Target) (a : Acceptance) : Prop :=
  (∃ category ∈ categoriesFor target, a.candidate ∈ r.candidates category) ∧
    nodeExpr? r.types a.accepted target = none

section Leftovers

variable {r : Registry} {line : Nat}

/-- Where something was left behind, an acceptance came last whose node does not fit. -/
def Spotless (r : Registry) (line : Nat) (target : Target) (log : List { a : Acceptance // a.Genuine r line }) :
    Prop :=
  log = [] ∨ ∃ inner root, log = inner ++ [root] ∧ Unfitting r target root.1

/-- What is left behind where nothing is found. Where the parse ends, and several values may be read, it may be
what the first items of a list left behind. -/
def Tidy {β : Type} (r : Registry) (line : Nat) (target : Target) (found : β → Prop) :
    Except Cause β → List { a : Acceptance // a.Genuine r line } → Prop
  | .ok b, log => found b ∨ Spotless r line target log
  | .error _, log => Spotless r line target log ∨ target.single = false

variable {β γ : Type} {target : Target} {log log' : List { a : Acceptance // a.Genuine r line }}

theorem Spotless.append (h : Spotless r line target log) (h' : Spotless r line target log') :
    Spotless r line target (log ++ log') := by
  rcases h' with rfl | ⟨inner, root, rfl, misfit⟩
  · rwa [List.append_nil]
  · exact .inr ⟨log ++ inner, root, (List.append_assoc ..).symm, misfit⟩

/-- What was spotless before stays so. -/
theorem Tidy.after {found : β → Prop} {result : Except Cause β} (h : Spotless r line target log)
    (h' : Tidy r line target found result log') : Tidy r line target found result (log ++ log') := by
  cases result with
  | ok b => exact h'.imp_right h.append
  | error cause => exact h'.imp_left h.append

/-- One step after another: if the first finds something, nothing is left to do. -/
theorem Tidy.bind {found : β → Prop} {found' : γ → Prop} {x : Parsing β} {f : β → Parsing γ}
    (first : (Acceptance.ledger r line).Books x (Tidy r line target found))
    (done : ∀ b, found b → ∃ b', f b = pure b' ∧ found' b')
    (second : ∀ b, (Acceptance.ledger r line).Books (f b) (Tidy r line target found')) :
    (Acceptance.ledger r line).Books (x >>= f) (Tidy r line target found') := by
  refine first.bind (fun cause log tidy => tidy) fun b log tidy => ?_
  rcases tidy with finds | spotless
  · obtain ⟨b', same, finds⟩ := done b finds
    rw [same]
    exact Ledger.books_pure (.inl finds)
  · exact (second b).imp fun result log' tidy => tidy.after spotless

/-- A candidate leaves behind what acceptances have left, the last of which is that of its node. -/
theorem tryCandidate_rooted (levels : Nat) (text : Line) (start stop : Nat) {category : Category}
    {x : Candidate} (mem : x ∈ r.candidates category) :
    (Acceptance.ledger r line).Books (tryCandidate r (r.reader levels) text start stop x)
      (Ledger.OnAccepted fun log node => ∃ inner root, log = inner ++ [root] ∧ root.1.accepted = node ∧
        root.1.candidate ∈ r.candidates category) := by
  have books : (Acceptance.ledger r line).BooksReader (r.reader levels) :=
    Ledger.reader_books (fun _ books _ _ _ mem => Acceptance.booksDecision books mem) levels
  refine Ledger.tryCandidate_books (A := fun _ _ => True) ?_ ?_
  · refine (Ledger.matchCandidate_books books text start stop x).imp fun result log _ => ?_
    cases result with
    | error => trivial
    | ok => exact fun _ _ => trivial
  · intro found span before c onLine here _
    obtain ⟨edits, leaves, accepts⟩ := Acceptance.exists_genuine books mem found onLine here here
    refine ⟨edits, leaves, fun node accepted => ?_⟩
    obtain ⟨root, candidate, same, changes⟩ := accepts node accepted
    exact ⟨[root], (Acceptance.edits_singleton root).trans changes, before, root, rfl, same, candidate ▸ mem⟩

section Forms

variable {levels : Nat} {text : Line} {start stop : Nat}

/-- Categories leave something behind only by nodes that do not fit. -/
theorem tidy_categories {categories : List Category} (tried : ∀ category ∈ categories, category ∈ categoriesFor target) :
    (Acceptance.ledger r line).Books (readCategories r (r.reader levels) text start stop target categories)
      (Tidy r line target fun result => result.1.isSome = true) := by
  induction categories with
  | nil => exact Ledger.books_pure (.inr (.inl rfl))
  | cons category rest ih =>
    have others := ih fun other mem => tried other (List.mem_cons_of_mem _ mem)
    rw [readCategories]
    refine (Ledger.tryCategory_books _ fun x mem => tryCandidate_rooted levels text start stop mem).bind
      (fun cause log none => .inl (.inl none)) fun result log accepted => ?_
    obtain ⟨node?, attempts⟩ := result
    dsimp only
    split
    next e fits => exact Ledger.books_pure (.inl rfl)
    next none =>
      have spotless : Spotless r line target log := by
        cases node? with
        | none => exact .inl accepted
        | some node =>
          obtain ⟨inner, root, rfl, rfl, registered⟩ := accepted
          exact .inr ⟨inner, root, rfl, ⟨category, tried category List.mem_cons_self, registered⟩, none⟩
      have rest : (Acceptance.ledger r line).Books _ (Tidy r line target fun result : Option Expr × List Attempt =>
          result.1.isSome = true) :=
        Tidy.bind others (fun result found => ⟨(result.1, attempts ++ result.2), rfl, found⟩) fun result =>
          Ledger.books_pure (.inr (.inl rfl))
      exact rest.imp fun result log' tidy => tidy.after spotless

/-- A stretch is found to be an expression. -/
def IsFound (reading : Reading) : Prop :=
  ∃ e, reading = .found e

theorem tidy_syntax : (Acceptance.ledger r line).Books (readSyntax r (r.reader levels) text start stop target)
    (Tidy r line target IsFound) := by
  refine Tidy.bind (tidy_categories fun _ mem => mem) (fun result found => ?_) fun result => ?_
  · obtain ⟨e?, attempts⟩ := result
    obtain ⟨e, rfl⟩ := Option.isSome_iff_exists.1 found
    exact ⟨_, rfl, e, rfl⟩
  · obtain ⟨e?, attempts⟩ := result
    cases e? with
    | some e => exact Ledger.books_pure (.inl ⟨e, rfl⟩)
    | none =>
      dsimp only
      split <;> exact Ledger.books_pure (.inr (.inl rfl))

/-- A list that is expected to have some type has one. -/
theorem isSome_listType? (items : List Expr) (some_ : target.types ≠ []) : (listType? items target).isSome = true := by
  obtain ⟨first, rest, same⟩ := List.exists_cons_of_ne_nil some_
  unfold listType?
  split
  · split
    · rfl
    · simp [same]
  · simp [same]

/-- A list leaves nothing behind unless the parse ends at one of its items. -/
theorem tidy_list (several : target.single = false) (some_ : target.types ≠ []) :
    (Acceptance.ledger r line).Books (readList r (r.reader levels) text start stop target)
      (Tidy r line target fun e? => e?.isSome = true) := by
  have books : (Acceptance.ledger r line).BooksReader (r.reader levels) :=
    Ledger.reader_books (fun _ books _ _ _ mem => Acceptance.booksDecision books mem) levels
  unfold readList
  split
  · exact Ledger.books_pure (.inr (.inl rfl))
  next items conjunction _ =>
    intro c here
    obtain ⟨log, leaves, -⟩ := Ledger.readItems_books books text target.item items c here
    cases ran : readItems (r.reader levels) text target.item items c with
    | mk result c₁ =>
      rw [ran] at leaves
      have looks {f : Checkpoint → Parsing (Option Expr)} :
          (Parsing.checkpoint >>= f) c = f c.checkpoint c := rfl
      rw [looks]
      cases result with
      | error cause =>
        rw [bind_error ran]
        exact ⟨log, leaves, .inr several⟩
      | ok es? =>
        rw [Ends.bind_apply ran]
        cases es? with
        | none => exact ⟨[], leaves.rollback, .inr (.inl rfl)⟩
        | some es =>
          have typed := isSome_listType? es some_
          rw [← Option.isSome_map] at typed
          exact ⟨log, leaves, .inl typed⟩

/-- Whatever is read for a target where nothing is found is tidy. -/
def TidyReader (r : Registry) (line : Nat) (target : Target) (read : Reader) : Prop :=
  ∀ text start stop, (Acceptance.ledger r line).Books (read text start stop target) (Tidy r line target IsFound)

theorem tidy_parenthesised (tidy : TidyReader r line target (r.reader levels)) :
    (Acceptance.ledger r line).Books (readParenthesised (r.reader levels) text start stop target)
      (Tidy r line target fun e? => e?.isSome = true) := by
  unfold readParenthesised
  split
  · refine Tidy.bind (tidy text _ _) (fun reading found => ?_) fun reading => ?_
    · obtain ⟨e, rfl⟩ := found
      exact ⟨_, rfl, rfl⟩
    · cases reading with
      | found e => exact Ledger.books_pure (.inl rfl)
      | rejected => exact Ledger.books_pure (.inr (.inl rfl))
  · exact Ledger.books_pure (.inr (.inl rfl))

/-- **Every form of expression is tidy** if what stands in parentheses is. -/
theorem tidy_forms (some_ : target.single = false → target.types ≠ [])
    (tidy : TidyReader r line target (r.reader levels)) :
    TidyReader r line target (readForms r (r.reader levels)) := by
  intro text start stop
  have rejected (reason : Rejection) : (Acceptance.ledger r line).Books (pure (.rejected reason) : Parsing Reading)
      (Tidy r line target IsFound) := Ledger.books_pure (.inr (.inl rfl))
  have found (e : Expr) : (Acceptance.ledger r line).Books (pure (.found e) : Parsing Reading)
      (Tidy r line target IsFound) := Ledger.books_pure (.inl ⟨e, rfl⟩)
  unfold readForms spanOf
  simp only [bind_assoc, pure_bind]
  refine Ledger.books_context fun c _ => ?_
  split
  · exact rejected _
  refine Tidy.bind (tidy_parenthesised tidy) (fun e? isSome => ?_) fun e? => ?_
  · obtain ⟨e, rfl⟩ := Option.isSome_iff_exists.1 isSome
    exact ⟨_, rfl, e, rfl⟩
  cases e? with
  | some e => exact found e
  | none =>
    dsimp only
    split
    · split
      · exact found _
      · exact rejected _
    split
    · exact found _
    split
    · exact tidy_syntax
    next several =>
      have several : target.single = false := by simpa using several
      refine Tidy.bind (tidy_list several (some_ several)) (fun e? isSome => ?_) fun e? => ?_
      · obtain ⟨e, rfl⟩ := Option.isSome_iff_exists.1 isSome
        exact ⟨_, rfl, e, rfl⟩
      · cases e? with
        | some e => exact found e
        | none => exact tidy_syntax

theorem tidy_level {forms : Option Reader} (tidy : ∀ read ∈ forms, TidyReader r line target read) :
    TidyReader r line target (readLevel forms) := by
  intro text start stop
  have nested (start stop : Nat) : (Acceptance.ledger r line).Books (readNested forms text start stop target)
      (Tidy r line target IsFound) := by
    unfold readNested
    refine Ledger.silent_checkCancelled.bind (fun _ => .inl (.inl rfl)) fun _ => ?_
    cases forms with
    | none => exact Ledger.books_context fun c _ c' _ => ⟨[], .refl c', .inl (.inl rfl)⟩
    | some read =>
      refine (tidy read rfl text start stop).bracket (fun c => rfl) ?_
      intro c c' edits leaves
      exact leaves.deeper
  rw [readLevel]
  dsimp only
  refine Ledger.books_context fun c _ => ?_
  split
  · exact Ledger.books_pure (.inr (.inl rfl))
  · refine Tidy.bind (nested _ _) (fun reading found => ?_) fun reading => ?_
    · obtain ⟨e, rfl⟩ := found
      exact ⟨_, rfl, e, rfl⟩
    · cases reading with
      | found e => exact Ledger.books_pure (.inl ⟨e, rfl⟩)
      | rejected reason =>
        dsimp only
        split
        · refine Ledger.Silent.bind ?_ (fun _ => .inl (.inl rfl)) fun _ => Ledger.books_pure (.inr (.inl rfl))
          exact Ledger.silent_change fun c => ⟨rfl, rfl, rfl, rfl, rfl, rfl, rfl⟩
        · exact Ledger.books_pure (.inr (.inl rfl))

end Forms

/-- **Reading an expression is tidy**, however deep it is nested. -/
theorem tidy_reader (some_ : target.single = false → target.types ≠ []) (levels : Nat) :
    TidyReader r line target (r.reader levels) := by
  induction levels with
  | zero =>
    intro text start stop
    have nothing : ∀ read ∈ (none : Option Reader), TidyReader r line target read := by simp
    exact tidy_level nothing text start stop
  | succ levels ih =>
    intro text start stop
    refine tidy_level (fun read same => ?_) text start stop
    cases same
    exact tidy_forms some_ ih

end Leftovers

end Parse

/-- **What a parse of an expression leaves behind that fails.** It is what acceptances have left, and nothing
unless the last of them is one whose node does not fit, or the parse has ended where several values may be
read. -/
theorem parseExpression_failed {r : Registry} {text : String} {types : List PatternType} {c c' : Context}
    {fault : Fault} (parsed : r.parseExpression text types c = (.error fault, c')) :
    ∃ log : List Acceptance, (∀ a ∈ log, a.Genuine r c.line) ∧
      c'.diagnostics = c.diagnostics ++ (log.flatMap Acceptance.changes).filterMap Edit.report? ∧
      c'.scopes = (c.edited (log.flatMap Acceptance.changes)).scopes ∧
      (log = [] ∨ (∃ inner root, log = inner ++ [root] ∧ Unfitting r (.ofTypes types) root) ∨
        fault.isFatal = true ∧ ∃ p ∈ types, p.single = false) := by
  have plural (several : (Target.ofTypes types).single = false) : ∃ p ∈ types, p.single = false := by
    simpa using List.all_eq_false.1 several
  have some_ (several : (Target.ofTypes types).single = false) : (Target.ofTypes types).types ≠ [] := by
    obtain ⟨p, mem, -⟩ := plural several
    exact List.ne_nil_of_mem mem
  obtain ⟨log, leaves, tidy⟩ := tidy_reader (r := r) some_ c.remainingDepth (Line.ofString text) 0
    (Line.ofString text).size { c with rejections := {} } rfl
  have fatal := failsFatally_reader r c.remainingDepth (Line.ofString text) 0 (Line.ofString text).size
    (.ofTypes types) { c with rejections := {} }
  simp only [Registry.parseExpression, readText] at parsed
  generalize r.reader c.remainingDepth _ _ _ _ _ = ran at parsed leaves tidy fatal
  obtain ⟨result, after⟩ := ran
  have left : c.Leaves (log.flatMap (Acceptance.ledger r c.line).edits) c' ∧
      (Spotless r c.line (.ofTypes types) log ∨ fault.isFatal = true ∧ ∃ p ∈ types, p.single = false) := by
    rcases result with cause | e | reason
    · cases parsed
      exact ⟨leaves.remembering, tidy.imp_right fun several => ⟨fatal cause rfl, plural several⟩⟩
    · cases parsed
    · cases parsed
      refine ⟨leaves.remembering, .inl (tidy.resolve_left ?_)⟩
      rintro ⟨e, same⟩
      cases same
  obtain ⟨leaves, why⟩ := left
  have changes : (log.map Subtype.val).flatMap Acceptance.changes =
      log.flatMap (Acceptance.ledger r c.line).edits := by
    rw [List.flatMap_map]
    rfl
  refine ⟨log.map Subtype.val, fun a mem => ?_, ?_, ?_, ?_⟩
  · obtain ⟨entry, -, rfl⟩ := List.mem_map.1 mem
    exact entry.2
  · rw [leaves.diagnostics, Context.diagnostics_edited, changes]
  · rw [leaves.scopes, changes]
  · rcases why with (rfl | ⟨inner, root, rfl, misfit⟩) | ended
    · exact .inl rfl
    · exact .inr (.inl ⟨inner.map Subtype.val, root.1, List.map_append, misfit⟩)
    · exact .inr (.inr ended)

/-- A vocabulary with an answer that may be anything, and is reported when it is read. -/
def remarks : List Entry :=
  [.type { name := "object", plural := "objects", universal := true },
    .type { name := "number", plural := "numbers", literal := some fun s =>
      if s == "1" then some (.int 1) else none },
    .definition
      { category := .expression, patterns := ["answer [to %number%]"], returns := some "object",
        decide := fun node => .edits [.report (.warning node.span .other "answered")] (.accept node) }]

/-- The answer is no number, and it is turned down; in a list it is followed by one that is nested too deep. It is
reported nevertheless. -/
theorem parseExpression_failed_remarks :
    let r := ((RegistryBuilder.withConfig {}).addAll remarks).1.build
    (∃ fault c' root, r.parseExpression "answer" [.one 1] {} = (.error fault, c') ∧
      Unfitting r (.ofTypes [.one 1]) root ∧ c'.diagnostics.map (·.message) = ["answered"]) ∧
    ∃ fault c' log, r.parseExpression "answer and answer to 1" [.several 0] { maxDepth := 2 } = (.error fault, c') ∧
      fault.isFatal = true ∧ log ≠ [] ∧ (∀ a ∈ log, a.Genuine r 1) ∧
      c'.diagnostics = (log.flatMap Acceptance.changes).filterMap Edit.report? := by
  intro r
  constructor
  · have fails : (r.parseExpression "answer" [.one 1] {}).1.toOption.isSome = false := by decide +kernel
    have reports : (r.parseExpression "answer" [.one 1] {}).2.diagnostics.map (·.message) = ["answered"] := by
      decide +kernel
    cases parsed : r.parseExpression "answer" [.one 1] {} with
    | mk result c' =>
      rw [parsed] at fails reports
      cases result with
      | ok e => cases fails
      | error fault =>
        obtain ⟨log, -, diagnostics, -, why⟩ := parseExpression_failed parsed
        rcases why with rfl | ⟨inner, root, -, misfit⟩ | ⟨-, p, mem, several⟩
        · rw [diagnostics] at reports
          cases reports
        · exact ⟨fault, c', root, rfl, misfit, reports⟩
        · rw [List.mem_singleton.1 mem] at several
          cases several
  · have fails : (((r.parseExpression "answer and answer to 1" [.several 0] { maxDepth := 2 }).1.map
        fun _ => false).tryCatch fun fault => .ok fault.isFatal).toOption = some true := by decide +kernel
    have reports : (r.parseExpression "answer and answer to 1" [.several 0] { maxDepth := 2 }).2.diagnostics.map
        (·.message) = ["answered"] := by decide +kernel
    cases parsed : r.parseExpression "answer and answer to 1" [.several 0] { maxDepth := 2 } with
    | mk result c' =>
      rw [parsed] at fails reports
      cases result with
      | ok e => cases fails
      | error fault =>
        obtain ⟨log, genuine, diagnostics, -⟩ := parseExpression_failed parsed
        refine ⟨fault, c', log, rfl, Option.some.inj fails, ?_, genuine, diagnostics⟩
        rintro rfl
        rw [diagnostics] at reports
        cases reports

end Phrasebook
