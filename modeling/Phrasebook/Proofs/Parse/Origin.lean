import Phrasebook.Parse.Line
import Phrasebook.Proofs.Match.Fillings
import Phrasebook.Proofs.Parse.Fitting
import Phrasebook.Proofs.Parse.Stretch
import Phrasebook.Proofs.Registry
import Phrasebook.Proofs.Step

/-!
# Where what is read comes from

An expression that is found on a stretch was put together of what the reader of the level below found on parts
of the stretch: `Origin` has one case for every form of expression. The node of a match comes from a candidate
whose pattern matched the stretch, and its arguments were found on the stretches that fill the placeholders. So
what holds of all that is read is shown form by form, by `finds_induction`.
-/

namespace Phrasebook.Parse
open Text Pattern Match

/-- A reader finds an expression on a stretch, in some state. -/
def Finds (read : Reader) (line : Line) (start stop : Nat) (target : Target) (e : Expr) : Prop :=
  ∃ c c', Ends (read line start stop target) c (.found e) c'

/-- A pattern matches a stretch, in some state. -/
def Matches (read : Reader) (line : Line) (start stop : Nat) (p : Pattern) (found : Found Expr) : Prop :=
  ∃ c c', Ends (Match.run p line start stop fun q start stop => read line start stop (.ofPlaceholder q)) c
    (.ok found) c'

/-- A node is what the definition of a candidate of a category made of a match of a stretch. -/
def Accepted (r : Registry) (read : Reader) (line : Line) (start stop : Nat) (category : Category)
    (node : Node) : Prop :=
  ∃ candidate ∈ r.candidates category, ∃ found c c',
    Matches read line start stop candidate.pattern found ∧
    carryOut r read (candidate.definition.decide
      (nodeOf candidate found (c.span (stretchOf line start stop)))) c = (.ok node, c')

/-- The ways in which an expression is found on a stretch without blanks at its ends, given the reader of its
parts. -/
inductive Origin (r : Registry) (read : Reader) (line : Line) (start stop : Nat) (target : Target) :
    Expr → Prop where
  | parenthesised {e} (enclosed : isEnclosed '(' ')' (line.slice start stop) = true)
    (inner : Finds read line (start + 1) (stop - 1) target e) : Origin r read line start stop target e
  | var {name e} {c : Context}
    (named : variableOf name (c.span (stretchOf line start stop)) target = .ok e) :
    Origin r read line start stop target e
  | literal {value type} {c : Context}
    (literal : readLiteral? r.types (line.slice start stop) target = some (value, type)) :
    Origin r read line start stop target (.literal value type (c.span (stretchOf line start stop)))
  | list {parts : List ((Nat × Nat) × Expr)} {conjunction type} {c : Context}
    (several : target.single = false)
    (split : splitList? line start stop r.config.listSeparators = some (parts.map Prod.fst, conjunction))
    (items : ∀ part ∈ parts, Finds read line part.1.1 part.1.2 target.item part.2)
    (typed : listType? (parts.map Prod.snd) target = some type) :
    Origin r read line start stop target
      (.list (parts.map Prod.snd) conjunction (.several type) (c.span (stretchOf line start stop)))
  | node {category node e} (allowed : category ∈ categoriesFor target)
    (accepted : Accepted r read line start stop category node)
    (fits : nodeExpr? r.types node target = some e) : Origin r read line start stop target e

section Match

variable {read : Reader} {line : Line} {start stop : Nat}

/-- **The arguments of a match were found on the stretches that fill its placeholders.** -/
theorem Matches.reads {p : Pattern} (sound : p.Sound) {found : Found Expr}
    (matches_ : Matches read line start stop p found) :
    ∃ (fills : Nat → Nat → Nat → Option Expr) (path : List (Pick Expr)) (last : Nat),
      Reads { pattern := p, line, stop, isMatch := fun x text => x.regex.isMatch text, fills }
        { canEnd := true } p.root start last path ∧
      Reports p.placeholders.length path found ∧
      ∀ index low high e, fills index low high = some e →
        ∃ q, p.placeholders[index]? = some q ∧ Finds read line low high (.ofPlaceholder q) e := by
  obtain ⟨c, c', ends⟩ := matches_
  rcases runWith_settles sound (fun x text => x.regex.isMatch text) line start stop
    (fun q start stop => read line start stop (.ofPlaceholder q)) c with
    ⟨fails, -⟩ | ⟨memory, result, s', ends', extends_, first⟩
  · exact absurd fails ends.not_fails
  obtain ⟨rfl, -⟩ := ends'.unique ends
  obtain ⟨path, head, reports⟩ := (first _ memory.agrees_fills).reports found rfl
  obtain ⟨last, reads, -⟩ := Reader.mem_completeWays.1 (List.mem_of_head? head)
  refine ⟨memory.fills, path, last, reads, reports, fun index low high e fills => ?_⟩
  rcases extends_.given index low high _ (Memory.fills_eq_some fills) with before | gives
  · cases before
  · obtain ⟨q, s, s', slot, gives⟩ := gives
    exact ⟨q, slot, s, s', gives⟩

/-- An argument of a match was found for one of its placeholders, and before the end of the stretch. -/
theorem Matches.argument_within {p : Pattern} (sound : p.Sound) {found : Found Expr}
    (matches_ : Matches read line start stop p found) {e : Expr} (among : some e ∈ found.arguments) :
    ∃ q ∈ p.placeholders, ∃ low high, (low ≤ high ∧ high ≤ stop) ∧ Finds read line low high (.ofPlaceholder q) e := by
  obtain ⟨fills, path, last, reads, reports, finds⟩ := matches_.reads sound
  obtain ⟨fillings, filled, within, -⟩ := reads.filled_in_order sound
  obtain ⟨index, there⟩ := List.mem_iff_getElem?.1 among
  obtain ⟨f, mem, -, rfl⟩ := filled index e (reports.passed_of_there there)
  obtain ⟨q, slot, found⟩ := finds _ _ _ _ (within f mem).fills
  exact ⟨q, List.mem_of_getElem? slot, f.low, f.high, ⟨Nat.le_of_lt (within f mem).holds, (within f mem).inside⟩,
    found⟩

end Match

section Candidates

variable {r : Registry} {read : Reader} {line : Line} {start stop : Nat} {category : Category}

/-- What a candidate comes to is a match of its pattern. -/
theorem matchCandidate_matches (candidate : Candidate) :
    Returns (matchCandidate read line start stop candidate)
      fun result => ∀ found, result = .ok found → Matches read line start stop candidate.pattern found := by
  unfold matchCandidate
  refine Returns.bracket ?_ _ _
  intro c result c' ends found same
  subst same
  exact ⟨c, c', ends⟩

theorem tryCandidate_accepted {candidate : Candidate} (among : candidate ∈ r.candidates category) :
    Returns (tryCandidate r read line start stop candidate)
      fun result => ∀ node, result = .ok node → Accepted r read line start stop category node := by
  intro c result c' ends node ok
  subst ok
  unfold Ends tryCandidate Parsing.of at ends
  dsimp only at ends
  split at ends
  · cases ends
  · cases ends
  next found after step =>
    split at ends
    next accepted after' decided =>
      cases ends
      exact ⟨candidate, among, found, after, _, matchCandidate_matches candidate c _ _ step found rfl, decided⟩
    · cases ends

theorem tryCandidates_accepted (admissible : Definition → Bool) {candidates : List (Candidate × Nat)}
    (among : ∀ x ∈ candidates, x.1 ∈ r.candidates category) :
    Returns (tryCandidates r read line start stop admissible candidates)
      fun result => ∀ node, result.1 = some node → Accepted r read line start stop category node := by
  induction candidates with
  | nil =>
    refine returns_pure fun node same => ?_
    cases same
  | cons candidate rest ih =>
    have others := ih fun x mem => among x (List.mem_cons_of_mem _ mem)
    have here := among candidate List.mem_cons_self
    obtain ⟨candidate, rank⟩ := candidate
    rw [tryCandidates]
    refine .after fun _ => .after fun c => ?_
    split
    · exact others
    refine .after fun _ => ?_
    refine (tryCandidate_accepted here).bind fun result accepted => ?_
    cases result with
    | ok node =>
      refine returns_pure fun node' same => ?_
      cases same
      exact accepted node rfl
    | error miss => exact others.bind fun result accepted => returns_pure accepted

theorem tryCategory_accepted (line : Line) (start stop : Nat) (category : Category)
    (admissible : Definition → Bool) :
    Returns (tryCategory r read line start stop category admissible)
      fun result => ∀ node, result.1 = some node → Accepted r read line start stop category node :=
  tryCandidates_accepted admissible fun _ mem => List.fst_mem_of_mem_zipIdx mem

end Candidates

section Forms

variable {r : Registry} {read : Reader} {line : Line} {start stop : Nat} {target : Target}

theorem readParenthesised_finds :
    Returns (readParenthesised read line start stop target) fun e? => ∀ e, e? = some e →
      isEnclosed '(' ')' (line.slice start stop) = true ∧
        Finds read line (start + 1) (stop - 1) target e := by
  have nothing : ∀ e : Expr, none = some e → isEnclosed '(' ')' (line.slice start stop) = true ∧
      Finds read line (start + 1) (stop - 1) target e := fun _ none => by cases none
  unfold readParenthesised
  split
  next enclosed =>
    intro c e? c' ends e same
    subst same
    obtain ⟨reading, after, first, second⟩ := ends.of_bind
    cases reading with
    | found e' =>
      cases second
      exact ⟨enclosed, c, _, first⟩
    | rejected => cases second
  · exact returns_pure nothing

theorem readItems_finds (items : List (Nat × Nat)) :
    Returns (readItems read line target items) fun es? => ∀ es, es? = some es →
      ∃ parts : List ((Nat × Nat) × Expr), items = parts.map Prod.fst ∧ es = parts.map Prod.snd ∧
        ∀ part ∈ parts, Finds read line part.1.1 part.1.2 target part.2 := by
  induction items with
  | nil =>
    refine returns_pure fun es same => ?_
    cases same
    exact ⟨[], rfl, rfl, fun _ mem => (List.not_mem_nil mem).elim⟩
  | cons item rest ih =>
    intro c es? c' ends es same
    subst same
    rw [readItems] at ends
    obtain ⟨reading, s, first, ends⟩ := ends.of_bind
    cases reading with
    | rejected => cases ends
    | found e =>
      obtain ⟨others?, s', others, ends⟩ := ends.of_bind
      cases others? with
      | none => cases ends
      | some others_ =>
        cases ends
        obtain ⟨parts, rfl, rfl, finds⟩ := ih _ _ _ others _ rfl
        refine ⟨(item, e) :: parts, rfl, rfl, fun part mem => ?_⟩
        rcases List.mem_cons.1 mem with rfl | mem
        · exact ⟨c, s, first⟩
        · exact finds part mem

theorem readList_origin (several : target.single = false) :
    Returns (readList r read line start stop target) fun e? => ∀ e, e? = some e →
      Origin r read line start stop target e := by
  intro c e? c' ends e same
  subst same
  unfold readList at ends
  split at ends
  · cases ends
  next items conjunction split =>
    obtain ⟨before, s, -, ends⟩ := ends.of_bind
    obtain ⟨es?, s', found, ends⟩ := ends.of_bind
    cases es? with
    | none =>
      obtain ⟨_, _, -, ends⟩ := ends.of_bind
      cases ends
    | some es =>
      obtain ⟨parts, rfl, rfl, finds⟩ := readItems_finds items _ _ _ found es rfl
      obtain ⟨d, s'', -, ends⟩ := ends.of_bind
      obtain ⟨type, typed, rfl⟩ := Option.map_eq_some_iff.1 ((ends_pure _ _).unique ends).1
      exact .list several split finds typed

theorem readCategories_origin (categories : List Category)
    (allowed : ∀ category ∈ categories, category ∈ categoriesFor target) :
    Returns (readCategories r read line start stop target categories) fun result =>
      ∀ e, result.1 = some e → Origin r read line start stop target e := by
  induction categories with
  | nil =>
    refine returns_pure fun e same => ?_
    cases same
  | cons category rest ih =>
    have others := ih fun category mem => allowed category (List.mem_cons_of_mem _ mem)
    rw [readCategories]
    refine (tryCategory_accepted line start stop category _).bind fun result accepted => ?_
    dsimp only
    split
    next e fitting =>
      refine returns_pure fun e' same => ?_
      cases same
      obtain ⟨node, found, fits⟩ := Option.bind_eq_some_iff.1 fitting
      exact .node (allowed category List.mem_cons_self) (accepted node found) fits
    · exact others.bind fun result origin => returns_pure origin

/-- What is found, if anything, has an origin on the stretch. -/
def Originates (r : Registry) (read : Reader) (line : Line) (start stop : Nat) (target : Target)
    (reading : Reading) : Prop :=
  ∀ e, reading = .found e → Origin r read line start stop target e

theorem originates_found {e : Expr} (origin : Origin r read line start stop target e) :
    Originates r read line start stop target (.found e) := by
  intro e' same
  cases same
  exact origin

theorem originates_rejected (reason : Rejection) :
    Originates r read line start stop target (.rejected reason) := by
  intro e same
  cases same

theorem readSyntax_originates :
    Returns (readSyntax r read line start stop target) (Originates r read line start stop target) := by
  unfold readSyntax
  refine (readCategories_origin _ fun _ mem => mem).bind fun result origin => ?_
  obtain ⟨e?, attempts⟩ := result
  cases e? with
  | some e => exact returns_pure (originates_found (origin e rfl))
  | none =>
    dsimp only
    split <;> exact returns_pure (originates_rejected _)

/-- **Whatever is found on a stretch has one of the origins**, and the stretch holds something. -/
theorem readForms_originates :
    Returns (readForms r read line start stop target) fun reading =>
      ∀ e, reading = .found e → start < stop ∧ Origin r read line start stop target e := by
  have spans : Returns (spanOf line start stop) fun span =>
      ∃ c : Context, span = c.span (stretchOf line start stop) := by
    intro c span c' ends
    cases ends
    exact ⟨c, rfl⟩
  unfold readForms
  refine spans.bind fun span ⟨c, same⟩ => ?_
  subst same
  split
  · refine returns_pure fun e same => ?_
    cases same
  next some_ =>
  have holds : start < stop := by
    have length : 0 < (line.slice start stop).length := by
      simpa [List.isEmpty_iff, ← List.length_pos_iff] using some_
    have less := size_of_slice (Nat.succ_le_of_lt length)
    omega
  refine Returns.imp (P := Originates r read line start stop target) ?_
    fun reading origin e same => ⟨holds, origin e same⟩
  refine readParenthesised_finds.bind fun e? inner => ?_
  cases e? with
  | some e =>
    obtain ⟨enclosed, inner⟩ := inner e rfl
    exact returns_pure (originates_found (.parenthesised enclosed inner))
  | none =>
    dsimp only
    split
    · split
      next e named => exact returns_pure (originates_found (.var named))
      next => exact returns_pure (originates_rejected _)
    split
    next value type literal => exact returns_pure (originates_found (.literal literal))
    split
    · exact readSyntax_originates
    next several =>
      refine (readList_origin (by simpa using several)).bind fun e? list => ?_
      cases e? with
      | some e => exact returns_pure (originates_found (list e rfl))
      | none => exact readSyntax_originates

end Forms

section Levels

variable {r : Registry} {line : Line} {start stop : Nat} {target : Target} {e : Expr}

/-- What a level finds, its forms find on the stretch without the blanks at its ends. -/
theorem finds_readLevel {forms : Option Reader} (finds : Finds (readLevel forms) line start stop target e) :
    ∃ read, forms = some read ∧
      Finds read line (line.trimmed start stop).1 (line.trimmed start stop).2 target e := by
  have nested : Returns (readNested forms line (line.trimmed start stop).1 (line.trimmed start stop).2
      target) fun reading => ∀ e, reading = .found e → ∃ read, forms = some read ∧
        Finds read line (line.trimmed start stop).1 (line.trimmed start stop).2 target e := by
    unfold readNested
    refine .after fun _ => ?_
    cases forms with
    | none => exact .after fun _ _ _ _ ends => by cases ends
    | some read =>
      refine Returns.bracket ?_ _ _
      intro c reading c' ends e same
      subst same
      exact ⟨read, rfl, c, c', ends⟩
  have level : Returns (readLevel forms line start stop target) fun reading =>
      ∀ e, reading = .found e → ∃ read, forms = some read ∧
        Finds read line (line.trimmed start stop).1 (line.trimmed start stop).2 target e := by
    have nothing (reason : Rejection) (e : Expr) : (.rejected reason : Reading) = .found e →
        ∃ read, forms = some read ∧
          Finds read line (line.trimmed start stop).1 (line.trimmed start stop).2 target e :=
      fun same => by cases same
    unfold readLevel
    refine .after fun c => ?_
    dsimp only
    split
    · exact returns_pure (nothing _)
    refine nested.bind fun reading finds => ?_
    cases reading with
    | found => exact returns_pure finds
    | rejected reason =>
      dsimp only
      split
      · exact .after fun _ => returns_pure (nothing _)
      · exact returns_pure (nothing _)
  obtain ⟨c, c', ends⟩ := finds
  exact level c _ c' ends e rfl

/-- **What holds of whatever is found, if it holds of the parts that were found at the level below**, holds of
whatever is found at any level. -/
theorem finds_induction {P : Line → Nat → Nat → Target → Expr → Prop}
    (step : ∀ read, (∀ line start stop target e, Finds read line start stop target e →
        P line start stop target e) →
      ∀ line start stop target e, (line.trimmed start stop).1 < (line.trimmed start stop).2 →
        Origin r read line (line.trimmed start stop).1 (line.trimmed start stop).2 target e →
        P line start stop target e)
    {levels : Nat} (finds : Finds (r.reader levels) line start stop target e) :
    P line start stop target e := by
  induction levels generalizing line start stop target e with
  | zero =>
    obtain ⟨read, none, -⟩ := finds_readLevel finds
    cases none
  | succ levels ih =>
    obtain ⟨read, same, c, c', ends⟩ := finds_readLevel finds
    cases same
    obtain ⟨holds, origin⟩ := readForms_originates _ _ _ ends e rfl
    exact step (r.reader levels) (fun _ _ _ _ _ finds => ih finds) line start stop target e holds origin

end Levels

section Whole

variable {r : Registry} {read : Reader} {category : Category} {text : String} {c c' : Context} {node : Node}

/-- The node of a line was found as a match of it. -/
theorem matched_of_parseLineBy (parsed : parseLineBy r read category text c = (.ok node, c')) :
    ∃ c₁ attempts c₂, Ends (matchLine r read category (Line.ofString text)) c₁ (some node, attempts) c₂ := by
  unfold parseLineBy at parsed
  cases step : matchLine r read category (Line.ofString text)
      { c with nearMisses := [], rejections := {} } with
  | mk result after =>
    simp only [step] at parsed
    unfold lineResult at parsed
    split at parsed
    · cases parsed
      exact ⟨_, _, _, step⟩
    · cases parsed
    · cases parsed

/-- The node of a line was accepted on the line without the blanks at its ends. -/
theorem accepted_of_parseLineBy (parsed : parseLineBy r read category text c = (.ok node, c')) :
    let line := Line.ofString text
    Accepted r read line (line.trimmed 0 line.size).1 (line.trimmed 0 line.size).2 category node := by
  intro line
  obtain ⟨c₁, attempts, c₂, matched⟩ := matched_of_parseLineBy parsed
  unfold matchLine at matched
  dsimp only at matched
  split at matched
  · exact tryCategory_accepted _ _ _ category _ _ _ _ matched node rfl
  · cases matched

/-- A line that is parsed is not blank. -/
theorem holds_of_parseLineBy (parsed : parseLineBy r read category text c = (.ok node, c')) :
    let line := Line.ofString text
    (line.trimmed 0 line.size).1 < (line.trimmed 0 line.size).2 := by
  intro line
  obtain ⟨c₁, attempts, c₂, matched⟩ := matched_of_parseLineBy parsed
  unfold matchLine at matched
  dsimp only at matched
  split at matched
  next holds => exact holds
  next => cases matched

end Whole

end Phrasebook.Parse
