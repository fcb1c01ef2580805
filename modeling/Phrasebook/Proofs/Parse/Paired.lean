import Phrasebook.Proofs.Parse.Pairing
import Phrasebook.Proofs.Parse.ShiftedList

/-!
# Readers in step

Two readers that are in step on the parts of corresponding stretches are in step on the stretches themselves:
the same pattern matches, the same list falls apart, the same definition accepts. So expressions and lines are
read in step at every depth of nesting.
-/

namespace Phrasebook.Parse.Pairing
open Text Pattern

/-- A text of one line stands in another one, and its stretches and spans correspond. -/
structure Sees (p : Pairing) (l l' : Line) (low low' high : Nat) : Prop where
  aligned : (l.before high).Aligned (l'.before (shift low low' high)) low low'
  low_le : low ≤ high
  stretches {start stop : Nat} : low ≤ start → start ≤ stop → stop ≤ high →
    p.stretches (stretchOf l start stop) (stretchOf l' (shift low low' start) (shift low low' stop))
  spans {start stop : Nat} (line column : Nat) : low ≤ start → start ≤ stop → stop ≤ high →
    Span.withinLine line column (l'.byteOffset (shift low low' start)) (l'.byteOffset (shift low low' stop)) =
      p.span (.withinLine line column (l.byteOffset start) (l.byteOffset stop))

/-- A line is read in two parses from its beginning. -/
theorem sees_same {p : Pairing} (same : p.span = id) (l : Line) : p.Sees l l 0 0 l.size where
  aligned := by
    rw [shift_zero, l.before_size]
    exact .refl l
  low_le := Nat.zero_le _
  stretches _ _ _ := by
    simp only [shift_zero]
    exact p.stretches_refl same _
  spans _ _ _ _ _ := by
    simp only [shift_zero]
    rw [same]
    rfl

namespace Sees

variable {p : Pairing} {l l' : Line} {low low' high start stop : Nat} (sees : p.Sees l l' low low' high)

include sees

theorem alignedBefore (h : low ≤ stop) (within : stop ≤ high) :
    (l.before stop).Aligned (l'.before (shift low low' stop)) low low' := by
  have aligned := sees.aligned.before h
  rwa [l.before_before within, l'.before_before ((shift_le_iff sees.low_le).2 within)] at aligned

theorem slice (hs : low ≤ start) (h : start ≤ stop) (within : stop ≤ high) :
    l'.slice (shift low low' start) (shift low low' stop) = l.slice start stop := by
  have same := sees.aligned.slice_shift hs (Nat.le_trans hs h)
  rwa [l.slice_before start within, l'.slice_before _ ((shift_le_iff sees.low_le).2 within)] at same

theorem text (hs : low ≤ start) (h : start ≤ stop) (within : stop ≤ high) :
    l'.text (shift low low' start) (shift low low' stop) = l.text start stop :=
  congrArg String.ofList (sees.slice hs h within)

theorem trimmed (hs : low ≤ start) (h : start ≤ stop) (within : stop ≤ high) :
    l'.trimmed (shift low low' start) (shift low low' stop) =
      (shift low low' (l.trimmed start stop).1, shift low low' (l.trimmed start stop).2) := by
  have same := (sees.alignedBefore (Nat.le_trans hs h) within).trimmed_shift hs (Nat.le_trans hs h)
  rwa [l.trimmed_before, l'.trimmed_before] at same

theorem span (hs : low ≤ start) (h : start ≤ stop) (within : stop ≤ high) {c d : Context}
    (states : p.States c d) :
    d.span (stretchOf l' (shift low low' start) (shift low low' stop)) = p.span (c.span (stretchOf l start stop)) := by
  obtain ⟨line, column⟩ := Prod.mk.inj states.position
  simp only [Context.span, line, column]
  exact sees.spans c.line c.column hs h within

end Sees

/-- A reading and the same reading in the other parse. -/
def Reads (p : Pairing) (a b : Reading) : Prop :=
  b = a.map (Expr.translate p.toTranslation)

/-- Two readers are in step. -/
def Readers (p : Pairing) (read read' : Reader) : Prop :=
  ∀ l l' low low' high, p.Sees l l' low low' high → ∀ start stop target, low ≤ start → start ≤ stop →
    stop ≤ high → p.InStep p.Reads (read l start stop target)
      (read' l' (shift low low' start) (shift low low' stop) target)

/-- The same pattern of corresponding definitions. -/
structure Candidates (p : Pairing) (a b : Candidate) : Prop where
  id : b.definition.id = p.definition a.definition.id
  name : b.definition.name = a.definition.name
  category : b.definition.category = a.definition.category
  returns : b.definition.returns = a.definition.returns
  decide (node : Node) : (a.definition.decide node).Corresponds p.toCorrespondence
    (b.definition.decide (node.translate p.toTranslation))
  patternIndex : b.patternIndex = a.patternIndex
  pattern : b.pattern = a.pattern

/-- Two registries whose definitions correspond are tried in the same order. -/
structure Registries (p : Pairing) (r r' : Registry) : Prop where
  types : r'.types = r.types
  config : r'.config = r.config
  candidates (category : Category) :
    List.Forall₂ p.Candidates (r.candidates category) (r'.candidates category)
  views {c d : Context} : p.States c d → p.views (r.view c) (r'.view d)

section Texts

variable {p : Pairing} {r r' : Registry} {read read' : Reader} {c d : Context}
  (registries : p.Registries r r')

include registries

theorem warnUnset_states (states : p.States c d) (reads : List (Span × String)) :
    p.States (warnUnset r reads c) (warnUnset r' (reads.map p.read) d) := by
  unfold warnUnset
  rw [registries.config]
  split
  · induction reads generalizing c d with
    | nil => exact states
    | cons read rest ih =>
      refine ih ?_
      have declared : d.isDeclared (p.read read).2 = c.isDeclared read.2 := by
        rw [Context.isDeclared, Context.isDeclared, states.scopes]
        rfl
      dsimp only
      rw [declared]
      split
      · exact states
      · exact states.report (p.warnings _ _)
  · exact states

variable (readers : p.Readers read read')

include readers

/-- **A text is read in step** where spans stay as they are. -/
theorem readText_states (same : p.span = id) (states : p.States c d) (text : String)
    (types : List PatternType) :
    (readText r' read' text types d).1 =
        (readText r read text types c).1.map (Expr.translate p.toTranslation) ∧
      p.States (readText r read text types c).2 (readText r' read' text types d).2 := by
  have ended := readers _ _ _ _ _ (sees_same same (Line.ofString text)) 0 _ (.ofTypes types)
    (Nat.le_refl 0) (Nat.zero_le _) (Nat.le_refl _) _ _ states.forget
  simp only [shift_zero] at ended
  simp only [readText]
  generalize read _ _ _ _ _ = a at ended
  generalize read' _ _ _ _ _ = b at ended
  obtain ⟨result, after⟩ := a
  obtain ⟨result', after'⟩ := b
  obtain ⟨results, states'⟩ := ended
  have restored := states.withRejections states'
  match result, result', results with
  | .error cause, .error _, rfl =>
    dsimp only
    rw [restored.place]
    exact ⟨rfl, restored⟩
  | .ok (.rejected reason), .ok _, rfl =>
    dsimp only [Match.Outcome.map]
    rw [restored.place, registries.types]
    exact ⟨rfl, restored⟩
  | .ok (.found e), .ok _, rfl =>
    dsimp only [Match.Outcome.map]
    rw [e.localReads_translate]
    exact ⟨rfl, warnUnset_states registries restored _⟩

/-- **Decisions that correspond are carried out in step.** -/
theorem carryOut_states {a b : Action} (corresponds : a.Corresponds p.toCorrespondence b)
    (states : p.States c d) :
    (carryOut r' read' b d).1 = (carryOut r read a c).1.map (Node.translate p.toTranslation) ∧
      p.States (carryOut r read a c).2 (carryOut r' read' b d).2 := by
  induction corresponds generalizing c d with
  | accept node => exact ⟨rfl, states⟩
  | reject reason => exact ⟨rfl, states⟩
  | look _ ih => exact ih _ _ (registries.views states) states
  | edit change _ ih => exact ih (states.edit change)
  | parse text types same _ ih =>
    have ended := readText_states registries readers same states text types
    simp only [carryOut]
    generalize readText r read text types c = a at ended
    generalize readText r' read' text types d = b at ended
    obtain ⟨result, c'⟩ := a
    obtain ⟨result', d'⟩ := b
    obtain ⟨rfl, states'⟩ := ended
    exact ih result states'

end Texts

/-- A candidate that was turned down, read in the other line. -/
def missShift (low low' : Nat) : Miss → Miss
  | .unmatched failure => .unmatched (failure.shift low low')
  | .refused reason => .refused reason

/-- Corresponding candidates were turned down at the same place in the order of trial. -/
structure Attempts (p : Pairing) (low low' : Nat) (a b : Attempt) : Prop where
  candidate : p.Candidates a.candidate b.candidate
  rank : b.rank = a.rank
  miss : b.miss = missShift low low' a.miss

/-- What came of trying candidates corresponds. -/
structure Tries (p : Pairing) (low low' : Nat) (a b : Option Node × List Attempt) : Prop where
  node : b.1 = a.1.map (Node.translate p.toTranslation)
  attempts : List.Forall₂ (p.Attempts low low') a.2 b.2

section Candidates

variable {p : Pairing} {r r' : Registry} {read read' : Reader} {l l' : Line}
  {low low' high start stop : Nat} {a b : Candidate}
  (readers : p.Readers read read') (sees : p.Sees l l' low low' high) (hs : low ≤ start)
  (h : start ≤ stop) (within : stop ≤ high)

theorem nodeOf_translate {p : Pairing} {a b : Candidate} (candidates : p.Candidates a b)
    (found : Match.Found Expr) (span : Span) :
    nodeOf b (found.map (Expr.translate p.toTranslation)) (p.span span) =
      (nodeOf a found span).translate p.toTranslation := by
  simp only [nodeOf, Node.translate, translateArguments_eq, candidates.id, candidates.name,
    candidates.category, candidates.returns, candidates.patternIndex]
  rfl

include readers sees hs h within

theorem matchCandidate_inStep (candidates : p.Candidates a b) :
    p.InStep
      (fun x y => y = (x.mapError (Match.Failure.shift low low')).map
        (Match.Found.map (Expr.translate p.toTranslation)))
      (matchCandidate read l start stop a)
      (matchCandidate read' l' (shift low low' start) (shift low low' stop) b) := by
  have trial : p.Trials ⟨a.definition.id, stretchOf l start stop⟩
      ⟨b.definition.id, stretchOf l' (shift low low' start) (shift low low' stop)⟩ :=
    ⟨candidates.id, sees.stretches hs h within⟩
  unfold matchCandidate
  rw [candidates.pattern]
  refine .bracket ?_ (fun _ _ states => states.push trial) fun _ _ states => states.pop
  refine Match.shifted_run p.composes (sees.alignedBefore (Nat.le_trans hs h) within) hs
    (Nat.le_trans hs h) fun q lower upper hl less le => ?_
  exact readers l l' low low' high sees lower upper _ hl (Nat.le_of_lt less) (Nat.le_trans le within)

variable (registries : p.Registries r r')

include registries

theorem tryCandidate_inStep (candidates : p.Candidates a b) :
    p.InStep
      (fun x y => y = (x.mapError (missShift low low')).map (Node.translate p.toTranslation))
      (tryCandidate r read l start stop a)
      (tryCandidate r' read' l' (shift low low' start) (shift low low' stop) b) := by
  intro c d states
  have matched := matchCandidate_inStep readers sees hs h within candidates c d states
  simp only [tryCandidate, Parsing.of]
  generalize matchCandidate read l start stop a c = x at matched
  generalize matchCandidate read' l' _ _ b d = y at matched
  obtain ⟨result, c'⟩ := x
  obtain ⟨result', d'⟩ := y
  obtain ⟨results, states'⟩ := matched
  cases result with
  | error cause =>
    cases result' with
    | ok => exact results.elim
    | error cause' =>
      obtain rfl : cause' = cause := results
      exact ⟨rfl, states.rollback states'⟩
  | ok outcome =>
    cases result' with
    | error => exact results.elim
    | ok outcome' =>
      obtain rfl : outcome' = _ := results
      cases outcome with
      | error failure => exact ⟨rfl, states.rollback states'⟩
      | ok found =>
        dsimp only [Except.mapError, Except.map]
        rw [sees.span hs h within states', nodeOf_translate candidates]
        have carried := carryOut_states registries readers (candidates.decide
          (nodeOf a found (c'.span (stretchOf l start stop)))) states'
        generalize carryOut r read _ c' = x at carried
        generalize carryOut r' read' _ d' = y at carried
        obtain ⟨result, c''⟩ := x
        obtain ⟨result', d''⟩ := y
        obtain ⟨rfl, states''⟩ := carried
        cases result with
        | ok node => exact ⟨rfl, states''⟩
        | error reason => exact ⟨rfl, states.rollback states''⟩

theorem tryCandidates_inStep {admissible admissible' : Definition → Bool}
    (same : ∀ a b, p.Candidates a b → admissible' b.definition = admissible a.definition)
    {xs ys : List (Candidate × Nat)}
    (candidates : List.Forall₂ (fun x y => p.Candidates x.1 y.1 ∧ y.2 = x.2) xs ys) :
    p.InStep (p.Tries low low') (tryCandidates r read l start stop admissible xs)
      (tryCandidates r' read' l' (shift low low' start) (shift low low' stop) admissible' ys) := by
  induction candidates with
  | nil => exact inStep_pure ⟨rfl, .nil⟩
  | @cons x y xs ys first rest ih =>
    obtain ⟨a, rank⟩ := x
    obtain ⟨b, _⟩ := y
    obtain ⟨candidate, rfl⟩ := first
    simp only [tryCandidates]
    refine inStep_checkCancelled.bind fun _ _ _ => ?_
    refine .context fun c d states => ?_
    have trying := states.isTrying (sees.stretches hs h within) a.definition.id
    rw [same a b candidate, candidate.id, trying]
    split
    · exact ih
    · refine (inStep_change fun c d states => states.tried).bind fun _ _ _ => ?_
      refine (tryCandidate_inStep readers sees hs h within registries candidate).bind
        fun result _ eq => ?_
      subst eq
      cases result with
      | ok node => exact inStep_pure ⟨rfl, .nil⟩
      | error miss =>
        refine ih.bind fun found found' tries => ?_
        exact inStep_pure ⟨tries.node, .cons ⟨candidate, rfl, rfl⟩ tries.attempts⟩

omit readers sees hs h within registries in
/-- Corresponding candidates have the same place in the order of trial. -/
theorem zipIdx_candidates {p : Pairing} {as bs : List Candidate}
    (candidates : List.Forall₂ p.Candidates as bs) (n : Nat) :
    List.Forall₂ (fun x y => p.Candidates x.1 y.1 ∧ y.2 = x.2) (as.zipIdx n) (bs.zipIdx n) := by
  induction candidates generalizing n with
  | nil => exact .nil
  | cons first _ ih => exact .cons ⟨first, rfl⟩ (ih (n + 1))

theorem tryCategory_inStep (category : Category) (admissible admissible' : Definition → Bool)
    (same : ∀ a b, p.Candidates a b → admissible' b.definition = admissible a.definition) :
    p.InStep (p.Tries low low') (tryCategory r read l start stop category admissible)
      (tryCategory r' read' l' (shift low low' start) (shift low low' stop) category admissible') :=
  tryCandidates_inStep readers sees hs h within registries same
    (zipIdx_candidates (registries.candidates category) 0)

end Candidates

section Fitting

variable (t : Translation)

theorem coerceExpr?_translate (types : TypeSystem) (e : Expr) (target : Target) :
    coerceExpr? types (e.translate t) target = (coerceExpr? types e target).map (Expr.translate t) := by
  simp only [coerceExpr?, e.type_translate, e.span_translate]
  split
  · rfl
  · induction target.types with
    | nil => rfl
    | cons type rest ih =>
      rw [List.findSome?_cons, List.findSome?_cons]
      cases types.path? e.type.type type.type with
      | none => exact ih
      | some chain => simp [Expr.translate]

theorem nodeExpr?_translate (types : TypeSystem) (node : Node) (target : Target) :
    nodeExpr? types (node.translate t) target = (nodeExpr? types node target).map (Expr.translate t) := by
  simp only [nodeExpr?, node.returns_translate, node.span_translate]
  cases node.returns with
  | none => rfl
  | some type =>
    dsimp only
    split
    · rfl
    · exact coerceExpr?_translate t types (.node node type node.span) target

theorem listType?_translate (items : List Expr) (target : Target) :
    listType? (items.map (Expr.translate t)) target = listType? items target := by
  cases items with
  | nil => rfl
  | cons first rest =>
    simp only [listType?, List.map_cons, List.all_cons, List.all_map, Function.comp_def,
      Expr.type_translate]
    rfl

theorem variableOf_translate (name : List Char) (span : Span) (target : Target) :
    variableOf name (t.span span) target = (variableOf name span target).map (Expr.translate t) := by
  simp only [variableOf]
  split
  · rfl
  split
  · rfl
  split
  · rfl
  split <;> rfl

end Fitting

section Forms

variable {p : Pairing} {r r' : Registry} {read read' : Reader} {l l' : Line}
  {low low' high start stop : Nat} (readers : p.Readers read read')
  (sees : p.Sees l l' low low' high) (hs : low ≤ start) (h : start ≤ stop) (within : stop ≤ high)

include readers sees hs within

theorem readParenthesised_inStep (h : start ≤ stop) (target : Target) :
    p.InStep (fun a b => b = a.map (Expr.translate p.toTranslation))
      (readParenthesised read l start stop target)
      (readParenthesised read' l' (shift low low' start) (shift low low' stop) target) := by
  unfold readParenthesised
  rw [sees.slice hs h within]
  split
  case isTrue enclosed =>
    have room : start + 2 ≤ stop := by
      rcases size_of_slice (length_of_isEnclosed (by decide) enclosed) with less | none
      · exact less
      · cases none
    have inner := readers l l' low low' high sees (start + 1) (stop - 1) target (Nat.le_succ_of_le hs)
      (by omega) (by omega)
    rw [shift_succ hs, shift_sub_one (by omega)] at inner
    refine inner.bind fun reading _ eq => ?_
    obtain rfl := eq
    cases reading <;> exact inStep_pure rfl
  case isFalse => exact inStep_pure rfl

theorem readItems_inStep (target : Target) {items : List (Nat × Nat)}
    (proper : ∀ item ∈ items, ProperPart start stop item) :
    p.InStep (fun a b => b = a.map (List.map (Expr.translate p.toTranslation)))
      (readItems read l target items) (readItems read' l' target (items.map (shiftItem low low'))) := by
  induction items with
  | nil => exact inStep_pure rfl
  | cons item rest ih =>
    have rest := ih fun item mem => proper item (List.mem_cons_of_mem _ mem)
    have part := proper item List.mem_cons_self
    simp only [readItems, List.map_cons, shiftItem]
    refine (readers l l' low low' high sees item.1 item.2 target (Nat.le_trans hs part.after)
      (Nat.le_of_lt part.some) (Nat.le_trans part.before within)).bind fun reading _ eq => ?_
    obtain rfl := eq
    cases reading with
    | rejected => exact inStep_pure rfl
    | found e =>
      refine rest.bind fun es? _ eq => ?_
      obtain rfl := eq
      cases es? <;> exact inStep_pure rfl

variable (registries : p.Registries r r')

include h registries

theorem readList_inStep (target : Target) :
    p.InStep (fun a b => b = a.map (Expr.translate p.toTranslation))
      (readList r read l start stop target)
      (readList r' read' l' (shift low low' start) (shift low low' stop) target) := by
  unfold readList
  rw [registries.config, splitList?_shift _ (sees.alignedBefore (Nat.le_trans hs h) within) hs]
  cases split : splitList? l start stop r.config.listSeparators with
  | none => exact inStep_pure rfl
  | some found =>
    obtain ⟨items, conjunction⟩ := found
    dsimp only [Option.map_some, Prod.map]
    refine .checkpoint fun before before' states => ?_
    refine (readItems_inStep readers sees hs within target.item (splitList?_properParts split)).bind
      fun items? _ eq => ?_
    obtain rfl := eq
    cases items? with
    | none =>
      refine (inStep_change fun c d states' => states.rollback states').bind fun _ _ _ => ?_
      exact inStep_pure rfl
    | some items =>
      refine .context fun c d states => inStep_pure ?_
      rw [sees.span hs h within states, listType?_translate]
      cases listType? items target with
      | none => rfl
      | some type =>
        simp only [Option.map_some, Expr.translate, translateItems_eq]
        rfl

theorem readCategories_inStep (target : Target) (categories : List Category) :
    p.InStep
      (fun a b => b.1 = a.1.map (Expr.translate p.toTranslation) ∧
        List.Forall₂ (p.Attempts low low') a.2 b.2)
      (readCategories r read l start stop target categories)
      (readCategories r' read' l' (shift low low' start) (shift low low' stop) target categories) := by
  induction categories with
  | nil => exact inStep_pure ⟨rfl, .nil⟩
  | cons category rest ih =>
    have same (a b : Candidate) (candidates : p.Candidates a b) :
        mayReturn r'.types b.definition target = mayReturn r.types a.definition target := by
      rw [mayReturn, mayReturn, candidates.returns, registries.types]
    simp only [readCategories]
    refine (tryCategory_inStep readers sees hs h within registries category _ _ same).bind fun a b tries => ?_
    obtain ⟨node?, attempts⟩ := a
    obtain ⟨_, attempts'⟩ := b
    obtain ⟨rfl, related⟩ := tries
    have fits : ((node?.map (Node.translate p.toTranslation)).bind
          fun node => nodeExpr? r'.types node target) =
        (node?.bind fun node => nodeExpr? r.types node target).map (Expr.translate p.toTranslation) := by
      cases node? with
      | none => rfl
      | some node =>
        rw [registries.types]
        exact nodeExpr?_translate _ r.types node target
    dsimp only
    rw [fits]
    cases node?.bind fun node => nodeExpr? r.types node target with
    | some e => exact inStep_pure ⟨rfl, related⟩
    | none =>
      refine ih.bind fun later later' tries => ?_
      exact inStep_pure ⟨tries.1, List.rel_append related tries.2⟩

omit readers sees hs within h registries in
/-- Corresponding attempts give the same reason. -/
theorem findSome?_refusal? {p : Pairing} {low low' : Nat} {as bs : List Attempt}
    (attempts : List.Forall₂ (p.Attempts low low') as bs) :
    bs.findSome? Attempt.refusal? = as.findSome? Attempt.refusal? := by
  induction attempts with
  | nil => rfl
  | @cons a b as bs first _ ih =>
    have same : b.refusal? = a.refusal? := by
      simp only [Attempt.refusal?, first.miss]
      cases a.miss <;> rfl
    rw [List.findSome?_cons, List.findSome?_cons, same, ih]

theorem readSyntax_inStep (target : Target) :
    p.InStep p.Reads (readSyntax r read l start stop target)
      (readSyntax r' read' l' (shift low low' start) (shift low low' stop) target) := by
  unfold readSyntax
  refine (readCategories_inStep readers sees hs h within registries target _).bind fun a b tries => ?_
  obtain ⟨e?, attempts⟩ := a
  obtain ⟨_, attempts'⟩ := b
  obtain ⟨rfl, related⟩ := tries
  cases e? with
  | some e => exact inStep_pure rfl
  | none =>
    simp only [Option.map_none, findSome?_refusal? related, sees.text hs h within]
    split <;> exact inStep_pure rfl

/-- **Every form of expression is read in step** if its parts are. -/
theorem readForms_inStep (target : Target) :
    p.InStep p.Reads (readForms r read l start stop target)
      (readForms r' read' l' (shift low low' start) (shift low low' stop) target) := by
  unfold readForms
  rw [sees.slice hs h within, registries.types]
  have span : p.InStep (fun a b => b = p.span a) (spanOf l start stop)
      (spanOf l' (shift low low' start) (shift low low' stop)) :=
    .context fun c d states => inStep_pure (sees.span hs h within states)
  refine span.bind fun span _ eq => ?_
  obtain rfl := eq
  split
  · exact inStep_pure rfl
  refine (readParenthesised_inStep readers sees hs within h target).bind fun e? _ eq => ?_
  obtain rfl := eq
  cases e? with
  | some e => exact inStep_pure rfl
  | none =>
    dsimp only [Option.map_none]
    split
    · rw [variableOf_translate]
      cases variableOf ((l.slice start stop).drop 1).dropLast span target <;> exact inStep_pure rfl
    split
    · exact inStep_pure rfl
    have syntax_ := readSyntax_inStep readers sees hs h within registries target
    split
    · exact syntax_
    · refine (readList_inStep readers sees hs h within registries target).bind fun e? _ eq => ?_
      obtain rfl := eq
      cases e? with
      | some e => exact inStep_pure rfl
      | none => exact syntax_

/-- The forms of the level below are in step, or there is no such level for either parse. -/
def Levels (p : Pairing) : Option Reader → Option Reader → Prop
  | none, none => True
  | some read, some read' => p.Readers read read'
  | _, _ => False

omit readers registries in
theorem readNested_inStep {forms forms' : Option Reader} (levels : p.Levels forms forms')
    (target : Target) :
    p.InStep p.Reads (readNested forms l start stop target)
      (readNested forms' l' (shift low low' start) (shift low low' stop) target) := by
  unfold readNested
  refine inStep_checkCancelled.bind fun _ _ _ => ?_
  match forms, forms', levels with
  | none, none, _ =>
    refine .context fun c d states => ?_
    rw [states.maxDepth]
    exact inStep_throw _
  | some read, some read', readers =>
    exact (readers l l' low low' high sees start stop target hs h within).bracket
      (fun _ _ states => states.deepen) fun _ _ states => states.leave

omit readers sees hs h within registries in
/-- **A level of nesting is read in step** if the level below is. -/
theorem readLevel_inStep (forms forms' : Option Reader) (levels : p.Levels forms forms') :
    p.Readers (readLevel forms) (readLevel forms') := by
  intro l l' low low' high sees start stop target hs h within
  obtain ⟨after, some, before⟩ := l.trimmed_bounds h
  simp only [readLevel]
  rw [sees.trimmed hs h within]
  generalize (l.trimmed start stop).1 = start₁ at after some
  generalize (l.trimmed start stop).2 = stop₁ at some before
  have hs₁ := Nat.le_trans hs after
  have within₁ := Nat.le_trans before within
  have stretches := sees.stretches hs₁ some within₁
  refine .context fun c d states => ?_
  have nested := readNested_inStep sees hs₁ some within₁ levels target
  rw [states.isStretchTried stretches, states.rejections target stretches]
  cases c.isStretchTried (stretchOf l start₁ stop₁) with
  | true =>
    simp only [Bool.not_true, Bool.false_eq_true, if_false]
    refine nested.bind fun reading _ eq => ?_
    obtain rfl := eq
    cases reading <;> exact inStep_pure rfl
  | false =>
    simp only [Bool.not_false, if_true]
    cases c.rejections.get? (stretchOf l start₁ stop₁, target) with
    | some reason => exact inStep_pure rfl
    | none =>
      refine nested.bind fun reading _ eq => ?_
      obtain rfl := eq
      cases reading with
      | found e => exact inStep_pure rfl
      | rejected reason =>
        refine (inStep_change fun c d states => states.remember stretches target reason).bind
          fun _ _ _ => ?_
        exact inStep_pure rfl

end Forms

/-- **Expressions are read in step** at every depth of nesting. -/
theorem reader_inStep {p : Pairing} {r r' : Registry} (registries : p.Registries r r') (levels : Nat) :
    p.Readers (r.reader levels) (r'.reader levels) := by
  induction levels with
  | zero => exact readLevel_inStep none none trivial
  | succ levels ih =>
    refine readLevel_inStep (some _) (some _) ?_
    intro l l' low low' high sees start stop target hs h within
    exact readForms_inStep ih sees hs h within registries target

end Phrasebook.Parse.Pairing
