import Phrasebook.Parse.Expression
import Phrasebook.Proofs.Step
import Phrasebook.Proofs.Vocabulary

/-!
# The first candidate that fits

Where a stretch has none of the other forms, it is read by the first candidate that is accepted, if that one
fits the target. Then it is also the first that fits. But a candidate may be accepted and not fit: one of a
universal type that its definition did not narrow, or not to a type that fits. The parser has stopped at it by
then, and passes over all that is left of its category.
-/

namespace Phrasebook.Parse
open Text

/-- Considers a candidate: it is left out, turned down or accepted. -/
def consider (r : Registry) (read : Reader) (line : Line) (start stop : Nat)
    (admissible : Definition → Bool) (candidate : Candidate) : Parsing (Option (Except Miss Node)) := do
  Parsing.checkCancelled
  let c ← Parsing.context
  if !admissible candidate.definition ||
      c.isTrying candidate.definition.id (stretchOf line start stop) then pure none
  else
    Parsing.change fun c => { c with tried := c.tried + 1 }
    let result ← tryCandidate r read line start stop candidate
    pure (some result)

section Relations

variable (step : Candidate → Parsing (Option (Except Miss Node))) (fits : Node → Option Expr)

/-- Every one of some candidates is left out or turned down. -/
inductive TurnedDown : Context → List Candidate → Context → Prop where
  | nil (c : Context) : TurnedDown c [] c
  | leftOut {c c' c'' : Context} {x : Candidate} {rest : List Candidate} :
    Ends (step x) c none c' → TurnedDown c' rest c'' → TurnedDown c (x :: rest) c''
  | turnedDown {c c' c'' : Context} {x : Candidate} {miss : Miss} {rest : List Candidate} :
    Ends (step x) c (some (.error miss)) c' → TurnedDown c' rest c'' → TurnedDown c (x :: rest) c''

/-- Every one of some candidates is passed over: it is left out, turned down, or accepted with a node that does
not fit. What was reported and declared for that node is taken back, as if it had been turned down. -/
inductive PassedOver : Context → List Candidate → Context → Prop where
  | nil (c : Context) : PassedOver c [] c
  | leftOut {c c' c'' : Context} {x : Candidate} {rest : List Candidate} :
    Ends (step x) c none c' → PassedOver c' rest c'' → PassedOver c (x :: rest) c''
  | turnedDown {c c' c'' : Context} {x : Candidate} {miss : Miss} {rest : List Candidate} :
    Ends (step x) c (some (.error miss)) c' → PassedOver c' rest c'' → PassedOver c (x :: rest) c''
  | unfit {c c' c'' : Context} {x : Candidate} {node : Node} {rest : List Candidate} :
    Ends (step x) c (some (.ok node)) c' → fits node = none →
    PassedOver (c'.rollback c.checkpoint) rest c'' → PassedOver c (x :: rest) c''

/-- An expression is that of the first candidate that is accepted and fits. -/
def FirstFitting (c : Context) (candidates : List Candidate) (e : Expr) (c' : Context) : Prop :=
  ∃ before x after c₁ node, candidates = before ++ x :: after ∧ PassedOver step fits c before c₁ ∧
    Ends (step x) c₁ (some (.ok node)) c' ∧ fits node = some e

/-- A node is that of the first candidate of some categories that is accepted. Other categories come after
its own. -/
def FirstAccepted (order : Category → List Candidate) (c : Context) (categories : List Category)
    (node : Node) (later : List Category) (c' : Context) : Prop :=
  ∃ earlier category before x after c₁, categories = earlier ++ category :: later ∧
    order category = before ++ x :: after ∧ TurnedDown step c (earlier.flatMap order ++ before) c₁ ∧
    Ends (step x) c₁ (some (.ok node)) c'

/-- The first candidate of some categories that is accepted does not fit. -/
def Misfit (order : Category → List Candidate) (c : Context) (categories later : List Category)
    (c' : Context) : Prop :=
  ∃ node, FirstAccepted step order c categories node later c' ∧ fits node = none

end Relations

section Relations

variable {step : Candidate → Parsing (Option (Except Miss Node))} {fits : Node → Option Expr}
  {order : Category → List Candidate}

theorem turnedDown_append {c c' : Context} {xs ys : List Candidate} :
    TurnedDown step c (xs ++ ys) c' ↔ ∃ c₁, TurnedDown step c xs c₁ ∧ TurnedDown step c₁ ys c' := by
  constructor
  · intro h
    induction xs generalizing c with
    | nil => exact ⟨c, .nil c, h⟩
    | cons x xs ih =>
      cases h with
      | leftOut first rest =>
        obtain ⟨c₁, xs, ys⟩ := ih rest
        exact ⟨c₁, .leftOut first xs, ys⟩
      | turnedDown first rest =>
        obtain ⟨c₁, xs, ys⟩ := ih rest
        exact ⟨c₁, .turnedDown first xs, ys⟩
  · rintro ⟨c₁, h, h'⟩
    induction h with
    | nil => exact h'
    | leftOut first _ ih => exact .leftOut first (ih h')
    | turnedDown first _ ih => exact .turnedDown first (ih h')

/-- What is turned down is passed over. -/
theorem TurnedDown.passedOver {c c' : Context} {xs : List Candidate} (h : TurnedDown step c xs c') :
    PassedOver step fits c xs c' := by
  induction h with
  | nil c => exact .nil c
  | leftOut first _ ih => exact .leftOut first ih
  | turnedDown first _ ih => exact .turnedDown first ih

/-- What is passed over is turned down, unless there is a first candidate among it that is accepted and does
not fit. -/
theorem PassedOver.turnedDown_or {c c' : Context} {xs : List Candidate}
    (h : PassedOver step fits c xs c') :
    TurnedDown step c xs c' ∨ ∃ before x after c₁ node c₂, xs = before ++ x :: after ∧
      TurnedDown step c before c₁ ∧ Ends (step x) c₁ (some (.ok node)) c₂ ∧ fits node = none := by
  induction h with
  | nil c => exact .inl (.nil c)
  | leftOut first _ ih =>
    rcases ih with rest | ⟨before, x, after, c₁, node, c₂, rfl, rest, accepted, unfit⟩
    · exact .inl (.leftOut first rest)
    · exact .inr ⟨_ :: before, x, after, c₁, node, c₂, rfl, .leftOut first rest, accepted, unfit⟩
  | turnedDown first _ ih =>
    rcases ih with rest | ⟨before, x, after, c₁, node, c₂, rfl, rest, accepted, unfit⟩
    · exact .inl (.turnedDown first rest)
    · exact .inr ⟨_ :: before, x, after, c₁, node, c₂, rfl, .turnedDown first rest, accepted, unfit⟩
  | unfit accepted unfit _ _ =>
    exact .inr ⟨[], _, _, _, _, _, rfl, .nil _, accepted, unfit⟩

/-- A candidate of some categories stands in one of them. -/
theorem eq_append_of_flatMap {categories : List Category} {before after : List Candidate}
    {x : Candidate} (h : categories.flatMap order = before ++ x :: after) :
    ∃ earlier category later before' after', categories = earlier ++ category :: later ∧
      order category = before' ++ x :: after' ∧ before = earlier.flatMap order ++ before' := by
  induction categories generalizing before with
  | nil => simp at h
  | cons category rest ih =>
    rw [List.flatMap_cons] at h
    rcases List.append_eq_append_iff.1 h with ⟨before', rfl, rest'⟩ | ⟨tail, own, rest'⟩
    · obtain ⟨earlier, category', later, before', after', rfl, own, rfl⟩ := ih rest'
      exact ⟨category :: earlier, category', later, before', after', rfl, own, by simp⟩
    · cases tail with
      | nil =>
        have within : rest.flatMap order = [] ++ x :: after := rest'.symm
        obtain ⟨earlier, category', later, before', after', rfl, own', same⟩ := ih within
        refine ⟨category :: earlier, category', later, before', after', rfl, own', ?_⟩
        rw [List.flatMap_cons, List.append_assoc, ← same, own, List.append_nil, List.append_nil]
      | cons y tail =>
        cases rest'
        exact ⟨[], category, rest, before, tail, rfl, own, rfl⟩

/-- The first of the candidates that is accepted is the first of their categories. -/
theorem firstAccepted_of_flatMap {categories : List Category} {before after : List Candidate}
    {x : Candidate} {c c₁ c' : Context} {node : Node}
    (h : categories.flatMap order = before ++ x :: after) (passed : TurnedDown step c before c₁)
    (accepted : Ends (step x) c₁ (some (.ok node)) c') :
    ∃ later, FirstAccepted step order c categories node later c' := by
  obtain ⟨earlier, category, later, before', after', split, own, rfl⟩ := eq_append_of_flatMap h
  exact ⟨later, earlier, category, before', x, after', c₁, split, own, passed, accepted⟩

/-- The first candidate that is accepted is the first that fits, if it fits. -/
theorem FirstAccepted.firstFitting {categories later : List Category} {c c' : Context} {node : Node}
    {e : Expr} (h : FirstAccepted step order c categories node later c') (fit : fits node = some e) :
    FirstFitting step fits c (categories.flatMap order) e c' := by
  obtain ⟨earlier, category, before, x, after, c₁, rfl, own, passed, accepted⟩ := h
  refine ⟨earlier.flatMap order ++ before, x, after ++ later.flatMap order, c₁, node, ?_,
    passed.passedOver, accepted, fit⟩
  simp only [List.flatMap_append, List.flatMap_cons, own, List.append_assoc, List.cons_append]

/-- Where nothing is accepted that does not fit, what is passed over is turned down. -/
theorem PassedOver.turnedDown_of_fitting {categories : List Category} {before after : List Candidate}
    {c c' : Context} (h : PassedOver step fits c before c')
    (within : categories.flatMap order = before ++ after)
    (fitting : ¬ ∃ later c₁, Misfit step fits order c categories later c₁) :
    TurnedDown step c before c' := by
  rcases h.turnedDown_or with passed | ⟨before', x, after', c₁, node, c₂, rfl, passed, accepted, unfit⟩
  · exact passed
  · have split : categories.flatMap order = before' ++ x :: (after' ++ after) := by simp [within]
    obtain ⟨later, first⟩ := firstAccepted_of_flatMap split passed accepted
    exact absurd ⟨later, c₂, node, first, unfit⟩ fitting

end Relations

section Runs

variable {r : Registry} {read : Reader} {line : Line} {start stop : Nat}

theorem tryCandidates_cons (admissible : Definition → Bool) (x : Candidate) (rank : Nat)
    (rest : List (Candidate × Nat)) :
    tryCandidates r read line start stop admissible ((x, rank) :: rest) = (do
      match ← consider r read line start stop admissible x with
      | some (.ok node) => pure (some node, [])
      | some (.error miss) =>
        let (found, attempts) ← tryCandidates r read line start stop admissible rest
        pure (found, { candidate := x, rank, miss } :: attempts)
      | none => tryCandidates r read line start stop admissible rest) := by
  simp only [tryCandidates, consider, bind_assoc]
  refine bind_congr fun _ => bind_congr fun c => ?_
  split
  · simp
  · simp only [bind_assoc, pure_bind]
    refine bind_congr fun _ => bind_congr fun result => ?_
    cases result <;> rfl

/-- What candidates are worth that are all turned down: they leave attempts behind. -/
theorem TurnedDown.tryCandidates_eq {admissible : Definition → Bool} {c c' : Context}
    {before : List (Candidate × Nat)}
    (h : TurnedDown (consider r read line start stop admissible) c (before.map Prod.fst) c') :
    ∃ attempts, ∀ rest,
      tryCandidates r read line start stop admissible (before ++ rest) c = (do
        let (found, more) ← tryCandidates r read line start stop admissible rest
        pure (found, attempts ++ more)) c' := by
  induction before generalizing c with
  | nil =>
    cases h
    exact ⟨[], fun rest => by simp⟩
  | cons first before ih =>
    obtain ⟨x, rank⟩ := first
    cases h with
    | leftOut left rest =>
      obtain ⟨attempts, others⟩ := ih rest
      refine ⟨attempts, fun rest => ?_⟩
      rw [List.cons_append, tryCandidates_cons, left.bind_apply]
      exact others rest
    | turnedDown down rest =>
      rename_i c₁ miss
      obtain ⟨attempts, others⟩ := ih rest
      refine ⟨{ candidate := x, rank, miss } :: attempts, fun rest => ?_⟩
      rw [List.cons_append, tryCandidates_cons, down.bind_apply]
      refine (bind_apply_congr (others rest)).trans ?_
      simp only [bind_assoc, pure_bind, List.cons_append]

/-- If candidates end without one that is accepted, all are turned down; else there is a first one. -/
theorem tryCandidates_ends {admissible : Definition → Bool} {c c' : Context}
    {candidates : List (Candidate × Nat)} {node? : Option Node} {attempts : List Attempt}
    (h : Ends (tryCandidates r read line start stop admissible candidates) c (node?, attempts) c') :
    (node? = none ∧
        TurnedDown (consider r read line start stop admissible) c (candidates.map Prod.fst) c') ∨
      ∃ node before x after c₁, node? = some node ∧ candidates.map Prod.fst = before ++ x :: after ∧
        TurnedDown (consider r read line start stop admissible) c before c₁ ∧
        Ends (consider r read line start stop admissible x) c₁ (some (.ok node)) c' := by
  induction candidates generalizing c attempts with
  | nil =>
    cases h
    exact .inl ⟨rfl, .nil _⟩
  | cons first rest ih =>
    obtain ⟨x, rank⟩ := first
    rw [tryCandidates_cons] at h
    obtain ⟨result, c₁, considered, h⟩ := h.of_bind
    match result with
    | some (.ok node) =>
      cases h
      exact .inr ⟨node, [], x, _, _, rfl, rfl, .nil _, considered⟩
    | some (.error miss) =>
      obtain ⟨⟨node?', attempts'⟩, c₂, h, same⟩ := h.of_bind
      cases same
      rcases ih h with ⟨rfl, others⟩ | ⟨node, before, y, after, c₃, rfl, split, others, accepted⟩
      · exact .inl ⟨rfl, .turnedDown considered others⟩
      · exact .inr ⟨node, x :: before, y, after, c₃, rfl, by rw [List.map_cons, split]; rfl,
          .turnedDown considered others, accepted⟩
    | none =>
      rcases ih h with ⟨rfl, others⟩ | ⟨node, before, y, after, c₃, rfl, split, others, accepted⟩
      · exact .inl ⟨rfl, .leftOut considered others⟩
      · exact .inr ⟨node, x :: before, y, after, c₃, rfl, by rw [List.map_cons, split]; rfl,
          .leftOut considered others, accepted⟩

section Categories

variable {target : Target}

/-- The candidates of a target, considered one after the other. -/
abbrev considering (r : Registry) (read : Reader) (line : Line) (start stop : Nat) (target : Target) :
    Candidate → Parsing (Option (Except Miss Node)) :=
  consider r read line start stop fun d => mayReturn r.types d target

/-- What categories are worth if all their candidates are turned down: they leave attempts behind. -/
theorem TurnedDown.readCategories_eq {c c' : Context} {earlier : List Category}
    (h : TurnedDown (considering r read line start stop target) c (earlier.flatMap r.candidates) c') :
    ∃ attempts, ∀ later,
      readCategories r read line start stop target (earlier ++ later) c = (do
        let (found, more) ← readCategories r read line start stop target later
        pure (found, attempts ++ more)) c' := by
  induction earlier generalizing c with
  | nil =>
    cases h
    exact ⟨[], fun later => by simp⟩
  | cons category rest ih =>
    obtain ⟨c₁, own, others⟩ := turnedDown_append.1 h
    rw [← List.zipIdx_map_fst 0 (r.candidates category)] at own
    obtain ⟨attempts, own⟩ := own.tryCandidates_eq
    obtain ⟨attempts', others⟩ := ih others
    refine ⟨attempts ++ attempts', fun later => ?_⟩
    have none : Ends (tryCategory r read line start stop category fun d => mayReturn r.types d target)
        c (none, attempts) c₁ := by
      have ends := own []
      simp only [List.append_nil, tryCandidates, pure_bind] at ends
      exact ends
    rw [List.cons_append, readCategories, none.bind_apply]
    refine (bind_apply_congr (others later)).trans ?_
    simp only [bind_assoc, pure_bind, List.append_assoc]

/-- Categories with a candidate that is accepted are worth its node if it fits, and else what the categories
behind are worth. -/
theorem FirstAccepted.readCategories_eq {c c' : Context} {categories later : List Category}
    {node : Node}
    (h : FirstAccepted (considering r read line start stop target) r.candidates c categories node
      later c') :
    ∃ attempts, readCategories r read line start stop target categories c =
      (match nodeExpr? r.types node target with
        | some e => pure (some e, attempts)
        | none => do
          let (found, more) ← readCategories r read line start stop target later
          pure (found, attempts ++ more) : Parsing (Option Expr × List Attempt)) c' := by
  obtain ⟨earlier, category, before, x, after, c₂, rfl, own, passed, accepted⟩ := h
  obtain ⟨c₁, others, passed⟩ := turnedDown_append.1 passed
  obtain ⟨attempts, others⟩ := others.readCategories_eq
  rw [← List.zipIdx_map_fst 0 before] at passed
  obtain ⟨attempts', passed⟩ := passed.tryCandidates_eq
  have tried : Ends (tryCategory r read line start stop category fun d => mayReturn r.types d target)
      c₁ (some node, attempts') c' := by
    rw [tryCategory, own, List.zipIdx_append, List.zipIdx_cons]
    refine (passed _).trans ?_
    rw [tryCandidates_cons, bind_assoc, accepted.bind_apply]
    simp only [pure_bind, List.append_nil]
    rfl
  refine ⟨attempts ++ attempts', (others (category :: later)).trans ?_⟩
  have own : readCategories r read line start stop target (category :: later) c₁ =
      (match nodeExpr? r.types node target with
        | some e => pure (some e, attempts')
        | none => do
          let (found, more) ← readCategories r read line start stop target later
          pure (found, attempts' ++ more) : Parsing (Option Expr × List Attempt)) c' := by
    rw [readCategories, tried.bind_apply]
    rfl
  refine (bind_apply_congr own).trans ?_
  cases nodeExpr? r.types node target with
  | some e => rfl
  | none => simp only [bind_assoc, pure_bind, List.append_assoc]

/-- If categories end, then either all their candidates are turned down, or there is a first one that is
accepted. -/
theorem readCategories_ends {c c' : Context} {categories : List Category} {e? : Option Expr}
    {attempts : List Attempt}
    (h : Ends (readCategories r read line start stop target categories) c (e?, attempts) c') :
    (e? = none ∧ TurnedDown (considering r read line start stop target) c
        (categories.flatMap r.candidates) c') ∨
      ∃ node later c₁,
        FirstAccepted (considering r read line start stop target) r.candidates c categories node later
          c₁ := by
  induction categories generalizing c attempts with
  | nil =>
    cases h
    exact .inl ⟨rfl, .nil _⟩
  | cons category rest ih =>
    rw [readCategories] at h
    obtain ⟨⟨node?, own⟩, c₁, tried, h⟩ := h.of_bind
    rcases tryCandidates_ends tried with
      ⟨rfl, turnedDown⟩ | ⟨node, before, x, after, c₂, rfl, split, turnedDown, accepted⟩
    · obtain ⟨⟨e?', later⟩, c₂, h, same⟩ := h.of_bind
      cases same
      rw [List.zipIdx_map_fst] at turnedDown
      rcases ih h with ⟨rfl, others⟩ | ⟨node, later, c₃, earlier, category', before, x, after, c₄,
        rfl, own, passed, accepted⟩
      · exact .inl ⟨rfl, turnedDown_append.2 ⟨c₁, turnedDown, others⟩⟩
      · refine .inr ⟨node, later, c₃, category :: earlier, category', before, x, after, c₄, rfl, own, ?_,
          accepted⟩
        rw [List.flatMap_cons, List.append_assoc]
        exact turnedDown_append.2 ⟨c₁, turnedDown, passed⟩
    · rw [List.zipIdx_map_fst] at split
      exact .inr ⟨node, rest, c₁, [], category, before, x, after, c₂, rfl, split, turnedDown, accepted⟩

/-- Where nothing is accepted that does not fit, all candidates are turned down or the first that is accepted is
found. -/
theorem readCategories_fitting {c c' : Context} {categories : List Category} {e? : Option Expr}
    {attempts : List Attempt}
    (fitting : ¬ ∃ later c₁, Misfit (considering r read line start stop target)
      (nodeExpr? r.types · target) r.candidates c categories later c₁)
    (h : Ends (readCategories r read line start stop target categories) c (e?, attempts) c') :
    (e? = none ∧ TurnedDown (considering r read line start stop target) c
        (categories.flatMap r.candidates) c') ∨
      ∃ e node later, e? = some e ∧ nodeExpr? r.types node target = some e ∧
        FirstAccepted (considering r read line start stop target) r.candidates c categories node later
          c' := by
  rcases readCategories_ends h with turnedDown | ⟨node, later, c₁, first⟩
  · exact .inl turnedDown
  · obtain ⟨attempts', same⟩ := first.readCategories_eq
    cases fit : nodeExpr? r.types node target with
    | none => exact absurd ⟨later, c₁, node, first, fit⟩ fitting
    | some e =>
      rw [fit] at same
      cases h.symm.trans same
      exact .inr ⟨e, node, later, rfl, fit, first⟩

/-- Where nothing is accepted that does not fit, an expression is found exactly if it is that of the first
candidate that is accepted and fits. -/
theorem readCategories_found_iff {c : Context} {categories : List Category}
    (fitting : ¬ ∃ later c₁, Misfit (considering r read line start stop target)
      (nodeExpr? r.types · target) r.candidates c categories later c₁) (e : Expr) (c' : Context) :
    (∃ attempts, Ends (readCategories r read line start stop target categories) c (some e, attempts) c') ↔
      FirstFitting (considering r read line start stop target) (nodeExpr? r.types · target) c
        (categories.flatMap r.candidates) e c' := by
  constructor
  · rintro ⟨attempts, h⟩
    rcases readCategories_fitting fitting h with ⟨none, -⟩ | ⟨e', node, later, same, fit, first⟩
    · cases none
    · cases same
      exact first.firstFitting fit
  · rintro ⟨before, x, after, c₁, node, split, passed, accepted, fit⟩
    have turnedDown := passed.turnedDown_of_fitting split fitting
    obtain ⟨later, first⟩ := firstAccepted_of_flatMap split turnedDown accepted
    obtain ⟨attempts, same⟩ := first.readCategories_eq
    dsimp only at fit
    rw [fit] at same
    exact ⟨attempts, same⟩

/-- Where nothing is accepted that does not fit, nothing is found exactly if all candidates are passed
over. -/
theorem readCategories_none_iff {c : Context} {categories : List Category}
    (fitting : ¬ ∃ later c₁, Misfit (considering r read line start stop target)
      (nodeExpr? r.types · target) r.candidates c categories later c₁) (c' : Context) :
    (∃ attempts, Ends (readCategories r read line start stop target categories) c (none, attempts) c') ↔
      PassedOver (considering r read line start stop target) (nodeExpr? r.types · target) c
        (categories.flatMap r.candidates) c' := by
  constructor
  · rintro ⟨attempts, h⟩
    rcases readCategories_fitting fitting h with ⟨-, turnedDown⟩ | ⟨e, node, later, same, -⟩
    · exact turnedDown.passedOver
    · cases same
  · intro passed
    have turnedDown := passed.turnedDown_of_fitting (List.append_nil _).symm fitting
    obtain ⟨attempts, same⟩ := turnedDown.readCategories_eq
    refine ⟨attempts ++ [], ?_⟩
    have ends := same []
    rw [List.append_nil] at ends
    exact ends

/-- Behind a candidate that is accepted and does not fit, the later categories decide. -/
theorem readCategories_misfit {c c₁ : Context} {categories later : List Category}
    (misfit : Misfit (considering r read line start stop target) (nodeExpr? r.types · target)
      r.candidates c categories later c₁) (e? : Option Expr) (c' : Context) :
    (∃ attempts, Ends (readCategories r read line start stop target categories) c (e?, attempts) c') ↔
      ∃ attempts, Ends (readCategories r read line start stop target later) c₁ (e?, attempts) c' := by
  obtain ⟨node, first, unfit⟩ := misfit
  obtain ⟨before, same⟩ := first.readCategories_eq
  dsimp only at unfit
  rw [unfit] at same
  constructor
  · rintro ⟨attempts, h⟩
    obtain ⟨⟨e?', attempts'⟩, c₂, others, h⟩ := Ends.of_bind (same.symm.trans h)
    cases h
    exact ⟨attempts', others⟩
  · rintro ⟨attempts, h⟩
    exact ⟨before ++ attempts, same.trans (h.bind rfl)⟩

theorem readSyntax_found {c c' : Context} {e : Expr} :
    Ends (readSyntax r read line start stop target) c (.found e) c' ↔
      ∃ attempts, Ends (readCategories r read line start stop target (categoriesFor target)) c
        (some e, attempts) c' := by
  unfold readSyntax
  constructor
  · intro h
    obtain ⟨⟨e?, attempts⟩, c₁, categories, h⟩ := h.of_bind
    cases e? with
    | some e' =>
      cases h
      exact ⟨attempts, categories⟩
    | none =>
      dsimp only at h
      split at h <;> cases h
  · rintro ⟨attempts, categories⟩
    exact categories.bind rfl

theorem readSyntax_rejected {c c' : Context} :
    (∃ reason, Ends (readSyntax r read line start stop target) c (.rejected reason) c') ↔
      ∃ attempts, Ends (readCategories r read line start stop target (categoriesFor target)) c
        (none, attempts) c' := by
  unfold readSyntax
  constructor
  · rintro ⟨reason, h⟩
    obtain ⟨⟨e?, attempts⟩, c₁, categories, h⟩ := h.of_bind
    cases e? with
    | some e' => cases h
    | none =>
      refine ⟨attempts, ?_⟩
      dsimp only at h
      split at h <;> cases h <;> exact categories
  · rintro ⟨attempts, categories⟩
    cases reason : attempts.findSome? Attempt.refusal? with
    | some reason' =>
      refine ⟨.refused reason', categories.bind ?_⟩
      simp only [reason]
      rfl
    | none =>
      refine ⟨.mismatch (line.text start stop) target, categories.bind ?_⟩
      simp only [reason]
      rfl

end Categories

end Runs

/-- A stretch has none of the other forms. Trying them leads from one state to another. -/
structure NoOtherForm (r : Registry) (read : Reader) (line : Line) (start stop : Nat) (target : Target)
    (c c' : Context) : Prop where
  something : (line.slice start stop).isEmpty = false
  braces : isEnclosed '{' '}' (line.slice start stop) = false
  literal : readLiteral? r.types (line.slice start stop) target = none
  lists : ∃ c₁, Ends (readParenthesised read line start stop target) c none c₁ ∧
    Ends (if target.single then pure none else readList r read line start stop target) c₁ none c'

variable {r : Registry} {read : Reader} {line : Line} {start stop : Nat} {target : Target}

/-- What has none of the other forms is read by the syntax of its target. -/
theorem NoOtherForm.readForms_eq {c c' : Context} (h : NoOtherForm r read line start stop target c c') :
    readForms r read line start stop target c = readSyntax r read line start stop target c' := by
  obtain ⟨c₁, parentheses, list⟩ := h.lists
  have spans {β : Type} (f : Span → Parsing β) :
      (spanOf line start stop >>= f) c = f (c.span (stretchOf line start stop)) c := rfl
  simp only [readForms, spans, h.something, Bool.false_eq_true, if_false]
  rw [parentheses.bind_apply]
  simp only [h.braces, h.literal, Bool.false_eq_true, if_false]
  split at list
  case isTrue single =>
    cases list
    rw [if_pos single, pure_bind]
  case isFalse several => rw [if_neg several, list.bind_apply]

/-- The candidates of a target in the order of trial: those of its categories, one category after the other. -/
def candidatesFor (r : Registry) (target : Target) : List Candidate :=
  (categoriesFor target).flatMap r.candidates

/-- **What has none of the other forms is read by the first candidate that is accepted and fits**, unless one
that does not fit is accepted before it. What comes after that one in its category is passed over, whatever it
would be worth, and the later categories decide. So the first candidate that fits is found exactly if the later
categories come to the same; and where no category comes later, exactly if it is not behind one that does not
fit. -/
theorem readForms_first_fitting {c c' : Context} (other : NoOtherForm r read line start stop target c c') :
    let step := considering r read line start stop target
    let fits node := nodeExpr? r.types node target
    let misfit := Misfit step fits r.candidates c' (categoriesFor target)
    let first := FirstFitting step fits c' (candidatesFor r target)
    ((¬ ∃ later c₁, misfit later c₁) →
      (∀ e c₂, Ends (readForms r read line start stop target) c (.found e) c₂ ↔ first e c₂) ∧
      ∀ c₂, (∃ reason, Ends (readForms r read line start stop target) c (.rejected reason) c₂) ↔
        PassedOver step fits c' (candidatesFor r target) c₂) ∧
    (∀ later c₁, misfit later c₁ →
      (∀ e c₂, Ends (readForms r read line start stop target) c (.found e) c₂ ↔
        ∃ attempts, Ends (readCategories r read line start stop target later) c₁ (some e, attempts) c₂) ∧
      ∀ c₂, (∃ reason, Ends (readForms r read line start stop target) c (.rejected reason) c₂) ↔
        ∃ attempts, Ends (readCategories r read line start stop target later) c₁ (none, attempts) c₂) ∧
    ((∀ e, (∃ c₂, Ends (readForms r read line start stop target) c (.found e) c₂) ↔ ∃ c₂, first e c₂) ↔
      ∀ later c₁, misfit later c₁ → ∀ e,
        (∃ c₂ attempts,
            Ends (readCategories r read line start stop target later) c₁ (some e, attempts) c₂) ↔
          ∃ c₂, first e c₂) ∧
    ((∀ later c₁, misfit later c₁ → later = []) →
      ((∀ e, (∃ c₂, Ends (readForms r read line start stop target) c (.found e) c₂) ↔ ∃ c₂, first e c₂) ↔
        ¬ ((∃ e c₂, first e c₂) ∧ ∃ c₁, misfit [] c₁))) := by
  intro step fits misfit first
  have found (e : Expr) (c₂ : Context) : Ends (readForms r read line start stop target) c (.found e) c₂ ↔
      ∃ attempts, Ends (readCategories r read line start stop target (categoriesFor target)) c'
        (some e, attempts) c₂ := by
    rw [Ends, other.readForms_eq]
    exact readSyntax_found
  have rejected (c₂ : Context) :
      (∃ reason, Ends (readForms r read line start stop target) c (.rejected reason) c₂) ↔
        ∃ attempts, Ends (readCategories r read line start stop target (categoriesFor target)) c'
          (none, attempts) c₂ := by
    simp only [Ends, other.readForms_eq]
    exact readSyntax_rejected
  have found_iff (fitting : ¬ ∃ later c₁, misfit later c₁) (e : Expr) (c₂ : Context) :
      Ends (readForms r read line start stop target) c (.found e) c₂ ↔ first e c₂ :=
    (found e c₂).trans (readCategories_found_iff fitting e c₂)
  have found_later {later : List Category} {c₁ : Context} (unfit : misfit later c₁) (e : Expr)
      (c₂ : Context) : Ends (readForms r read line start stop target) c (.found e) c₂ ↔
        ∃ attempts, Ends (readCategories r read line start stop target later) c₁ (some e, attempts) c₂ :=
    (found e c₂).trans (readCategories_misfit unfit (some e) c₂)
  have exactly : (∀ e, (∃ c₂, Ends (readForms r read line start stop target) c (.found e) c₂) ↔
        ∃ c₂, first e c₂) ↔
      ∀ later c₁, misfit later c₁ → ∀ e,
        (∃ c₂ attempts,
            Ends (readCategories r read line start stop target later) c₁ (some e, attempts) c₂) ↔
          ∃ c₂, first e c₂ := by
    constructor
    · intro law later c₁ unfit e
      exact (exists_congr (found_later unfit e)).symm.trans (law e)
    · intro same e
      by_cases fitting : ∃ later c₁, misfit later c₁
      · obtain ⟨later, c₁, unfit⟩ := fitting
        exact (exists_congr (found_later unfit e)).trans (same later c₁ unfit e)
      · exact exists_congr (found_iff fitting e)
  refine ⟨fun fitting => ⟨found_iff fitting, fun c₂ => ?_⟩, fun later c₁ unfit => ?_, exactly,
    fun last => exactly.trans ?_⟩
  · exact (rejected c₂).trans (readCategories_none_iff fitting c₂)
  · exact ⟨found_later unfit, fun c₂ => (rejected c₂).trans (readCategories_misfit unfit none c₂)⟩
  -- behind the last category nothing is found
  have nothing (c₁ : Context) (e : Expr) :
      ¬ ∃ c₂ attempts, Ends (readCategories r read line start stop target []) c₁ (some e, attempts) c₂ := by
    rintro ⟨c₂, attempts, ends⟩
    cases ends
  constructor
  · rintro same ⟨⟨e, fits⟩, c₁, unfit⟩
    exact nothing c₁ e ((same [] c₁ unfit e).2 fits)
  · intro exposed later c₁ unfit e
    cases last later c₁ unfit
    constructor
    · intro ends
      exact absurd ends (nothing c₁ e)
    · intro fits
      exact absurd ⟨⟨e, fits⟩, c₁, unfit⟩ exposed

/-- Whether a candidate that was considered was accepted, and then whether it fits. -/
def acceptedFitting? (types : TypeSystem) (target : Target) :
    Except Cause (Option (Except Miss Node)) → Option Bool
  | .ok (some (.ok node)) => some (nodeExpr? types node target).isSome
  | _ => none

theorem accepted_of_acceptedFitting? {types : TypeSystem} {x : Parsing (Option (Except Miss Node))}
    {c : Context} {fits : Bool} (h : acceptedFitting? types target (x c).1 = some fits) :
    ∃ node, Ends x c (some (.ok node)) (x c).2 ∧ (nodeExpr? types node target).isSome = fits := by
  cases ran : x c with
  | mk result c' =>
    rw [ran] at h
    unfold acceptedFitting? at h
    split at h
    next node same =>
      dsimp only at same
      subst same
      exact ⟨node, ran, Option.some.inj h⟩
    · cases h

theorem eq_pair {α : Type} [Inhabited α] {l : List α} (h : l.length = 2) :
    l = [l.getD 0 default, l.getD 1 default] := by
  cases l with
  | nil => simp at h
  | cons x l =>
    cases l with
    | nil => simp at h
    | cons y l =>
      have empty : l = [] := List.eq_nil_of_length_eq_zero (by simpa using h)
      rw [empty]
      rfl

/-- A vocabulary with an answer that may be anything, and one that is a number. -/
def answers : List Entry :=
  [.type { name := "object", plural := "objects", universal := true },
    .type { name := "number", plural := "numbers" },
    .definition { category := .expression, patterns := ["answer"], returns := some "object",
                  priority := 2 },
    .definition { category := .expression, patterns := ["answer"], returns := some "number",
                  priority := 1 }]

/-- Where a number is expected, the answer that may be anything hides the one that is a number. -/
theorem readForms_first_fitting_answers :
    let r := ((RegistryBuilder.withConfig {}).addAll answers).1.build
    let line := Line.ofString "answer"
    let target : Target := { types := [.one 1], single := true, acceptance := .all, conditions := false }
    (∃ e c₂, FirstFitting (considering r (r.reader 0) line 0 6 target) (nodeExpr? r.types · target) {}
        (candidatesFor r target) e c₂) ∧
      ∃ reason c₁, Ends (readForms r (r.reader 0) line 0 6 target) {} (.rejected reason) c₁ := by
  intro r line target
  let b := ((RegistryBuilder.withConfig {}).addAll answers).1
  let x := (b.patternsOf .expression).getD 0 default
  let y := (b.patternsOf .expression).getD 1 default
  have order : r.candidates .expression = [x, y] := by
    have sorted : x.precedes y = true := by decide +kernel
    have two : (b.patternsOf .expression).length = 2 := by decide +kernel
    have registered : b.patternsOf .expression = [x, y] := eq_pair two
    rw [RegistryBuilder.candidates_build, registered]
    exact List.mergeSort_of_pairwise (by simp [sorted])
  -- what considering a candidate comes to can be computed
  let step := considering r (r.reader 0) line 0 6 target
  have first : acceptedFitting? r.types target (step x {}).1 = some false := by decide +kernel
  have second : acceptedFitting? r.types target
      (step y ((step x {}).2.rollback ({} : Context).checkpoint)).1 = some true := by
    decide +kernel
  obtain ⟨anything, acceptedFirst, unfit⟩ := accepted_of_acceptedFitting? first
  obtain ⟨number, acceptedSecond, fit⟩ := accepted_of_acceptedFitting? second
  replace unfit : nodeExpr? r.types anything target = none := by simpa using unfit
  obtain ⟨e, fit⟩ := Option.isSome_iff_exists.1 fit
  have other : NoOtherForm r (r.reader 0) line 0 6 target {} {} := by
    refine ⟨by decide, by decide, Option.isNone_iff_eq_none.1 (by decide +kernel), {}, ?_, rfl⟩
    rw [readParenthesised, if_neg (by decide)]
    rfl
  obtain ⟨-, misfits, -, -⟩ := readForms_first_fitting other
  have misfit : Misfit step (nodeExpr? r.types · target) r.candidates {} (categoriesFor target) []
      (step x {}).2 :=
    ⟨anything, ⟨[], .expression, [], x, [y], {}, rfl, order, .nil _, acceptedFirst⟩, unfit⟩
  obtain ⟨reason, rejected⟩ := ((misfits [] _ misfit).2 _).2 ⟨[], rfl⟩
  refine ⟨⟨e, _, [x], y, [], _, number, ?_, .unfit acceptedFirst unfit (.nil _), acceptedSecond, fit⟩,
    reason, _, rejected⟩
  simp [candidatesFor, categoriesFor, order, target]

end Phrasebook.Parse
