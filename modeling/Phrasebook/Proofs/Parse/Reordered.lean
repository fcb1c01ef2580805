import Phrasebook.Proofs.Parse.PairedLine
import Phrasebook.Proofs.Registry.Order
import Phrasebook.Proofs.Registry.Reordered

/-!
# Definitions registered in another order

Where no two patterns of different definitions can be told apart only by the order in which they were
registered, that order does not matter: a line or an expression is parsed to the same node or the same error,
and the same is reported, declared and noted on the way. Only the numbers of the definitions differ.
-/

namespace Phrasebook
open Parse

/-- A state in which definitions have other numbers. -/
def Context.renumbered (ρ : Equiv.Perm Nat) (c : Context) : Context :=
  { c with
    trials := c.trials.map fun t => { t with definition := ρ t.definition }
    nearMisses := c.nearMisses.map (NearMiss.translate (.renumbering ρ))
    enclosing := c.enclosing.map ρ }

namespace Parse.Pairing

/-- Two parses of the same text whose definitions have other numbers. -/
def renumbering (ρ : Equiv.Perm Nat) : Pairing where
  toCorrespondence := .renumbering ρ
  stretches := Eq
  reported := []
  reported' := []
  asides a b := b = (a.1.map (NearMiss.translate (.renumbering ρ)), a.2)
  definition_inj same := ρ.injective same
  stretches_unique := @stretch_eq_iff
  stretches_refl _ _ := rfl
  warnings := unset_eq
  asides_tick same := by
    obtain ⟨rfl, rfl⟩ := Prod.mk.inj same
    rfl
  asides_misses found same := by
    obtain ⟨-, rfl⟩ := Prod.mk.inj same
    rfl

variable {ρ : Equiv.Perm Nat} {c d : Context}

theorem renumbering_states (c : Context) : (renumbering ρ).States c (c.renumbered ρ) where
  place := rfl
  scopes := rfl
  depth := rfl
  maxDepth := rfl
  cancellation := rfl
  enclosing := rfl
  trials := by
    refine List.forall₂_map_right_iff.2 (List.forall₂_same.2 fun t _ => ?_)
    exact ⟨rfl, rfl⟩
  rejections target same := by
    cases same
    rfl
  diagnostics := ⟨c.diagnostics, c.diagnostics, rfl, rfl, List.forall₂_same.2 fun _ _ => rfl⟩
  asides := rfl
  calm := .inl trivial

/-- States that correspond are the same but for the numbers of definitions, if they remember the same. -/
theorem States.eq_renumbered (states : (renumbering ρ).States c d) (rejections : d.rejections = c.rejections) :
    d = c.renumbered ρ := by
  obtain ⟨line, column⟩ := Prod.mk.inj states.position
  obtain ⟨new, new', first, second, related⟩ := states.diagnostics
  obtain rfl : new = new' := List.forall₂_eq_eq_eq ▸ related
  have diagnostics : d.diagnostics = c.diagnostics := second.trans first.symm
  have trials : d.trials = c.trials.map fun t => { t with definition := ρ t.definition } := by
    have trials := states.trials
    generalize c.trials = ts, d.trials = us at trials
    induction trials with
    | nil => rfl
    | @cons t u ts us first _ ih =>
      obtain ⟨definition, stretch⟩ := u
      obtain ⟨rfl, rfl⟩ : definition = ρ t.definition ∧ t.stretch = stretch :=
        ⟨first.definition, first.stretch⟩
      rw [ih, List.map_cons]
  have asides : (d.nearMisses, d.tried) = (c.nearMisses.map (NearMiss.translate (.renumbering ρ)), c.tried) :=
    states.asides
  obtain ⟨nearMisses, tried⟩ := Prod.mk.inj asides
  have enclosing : d.enclosing = c.enclosing.map ρ := states.enclosing
  have source := states.source
  have scopes := states.scopes
  have depth := states.depth
  have maxDepth := states.maxDepth
  have cancellation := states.cancellation
  cases d
  cases c
  simp only at *
  subst line column diagnostics trials nearMisses tried enclosing source scopes depth maxDepth cancellation
    rejections
  rfl

end Parse.Pairing

/-- The patterns of a category of definitions under other numbers correspond. -/
theorem patternsIn_renumbered {ρ : Equiv.Perm Nat} {ds ds' : List Definition}
    (related : List.Forall₂ (Definition.Renumbered ρ) ds ds') (category : Category) :
    List.Forall₂
      (fun x y => x.definition.Renumbered ρ y.definition ∧ (Pairing.renumbering ρ).Candidates x y)
      (patternsIn ds category) (patternsIn ds' category) := by
  have patterns {d d' : Definition} (same : d.Renumbered ρ d') (ps : List (Pattern × Nat)) :
      List.Forall₂
        (fun x y => x.definition.Renumbered ρ y.definition ∧ (Pairing.renumbering ρ).Candidates x y)
        (ps.map fun p => ⟨d, p.2, p.1⟩) (ps.map fun p => ⟨d', p.2, p.1⟩) := by
    refine List.forall₂_map_right_iff.2 (List.forall₂_map_left_iff.2 (List.forall₂_same.2 fun p _ => ?_))
    exact ⟨same, same.id, same.name, same.category, same.returns, same.decide, rfl, rfl⟩
  induction related with
  | nil => exact .nil
  | @cons d d' ds ds' same _ ih =>
    unfold patternsIn at ih ⊢
    simp only [List.filter_cons, same.category]
    split
    · rw [List.flatMap_cons, List.flatMap_cons, same.patterns]
      exact List.rel_append (patterns same _) ih
    · exact ih

namespace RegistryBuilder

variable {ρ : Equiv.Perm Nat} {b b' : RegistryBuilder}

theorem patternsOf_eq (b : RegistryBuilder) (category : Category) :
    b.patternsOf category = patternsIn b.definitions category := rfl

/-- The numbers of definitions differ from each other. -/
theorem Reachable.distinct (reachable : b.Reachable) : b.definitions.Pairwise fun d e => d.id ≠ e.id := by
  rw [List.pairwise_iff_getElem]
  intro i j hi hj less
  have numbered := reachable.numbered.id
  rw [numbered i _ (List.getElem?_eq_getElem hi), numbered j _ (List.getElem?_eq_getElem hj)]
  omega

/-- **The same patterns are tried in the same order**, if their ranks differ. -/
theorem Reordered.candidates (reordered : b.Reordered ρ b') (reachable' : b'.Reachable)
    (differ : b.RanksDiffer) (category : Category) :
    List.Forall₂ (Pairing.renumbering ρ).Candidates (b.build.candidates category)
      (b'.build.candidates category) := by
  obtain ⟨ds, related, perm⟩ := reordered.perm
  have patterns := patternsIn_renumbered related category
  have sorted := List.forall₂_mergeSort Candidate.precedes Candidate.precedes patterns
    fun x y x' y' first second => by
      simp only [Candidate.precedes, first.1.priority, second.1.priority, first.2.pattern,
        second.2.pattern]
  have moved : (patternsIn ds category).Perm (patternsIn b'.definitions category) :=
    (perm.filter _).flatMap_right _
  -- patterns that tie belong to one definition, in which they stand in the same order
  have one {x y : Candidate} (memX : x ∈ patternsIn b'.definitions category)
      (memY : y ∈ patternsIn b'.definitions category) (ties : x.Ties y) :
      x.definition.id = y.definition.id := by
    obtain ⟨x₀, memX₀, sameX, corresponds⟩ := List.exists_of_mem_forall₂ patterns (moved.mem_iff.2 memX)
    obtain ⟨y₀, memY₀, sameY, corresponds'⟩ := List.exists_of_mem_forall₂ patterns (moved.mem_iff.2 memY)
    rw [sameX.id, sameY.id]
    refine congrArg ρ (Classical.byContradiction fun different => ?_)
    refine differ category x₀ memX₀ y₀ memY₀ different ⟨?_, ?_⟩
    · rw [← sameX.priority, ← sameY.priority, ties.1]
    · rw [← corresponds.pattern, ← corresponds'.pattern, ties.2]
  have alike : (patternsIn ds category).mergeSort Candidate.precedes =
      (patternsIn b'.definitions category).mergeSort Candidate.precedes := by
    have distinct' : ds.Pairwise fun d e => d.id ≠ e.id :=
      (perm.pairwise_iff fun different => different.symm).2 reachable'.distinct
    have ordered {definitions : List Definition}
        (distinct : definitions.Pairwise fun d e => d.id ≠ e.id)
        (among : ∀ x ∈ patternsIn definitions category, x ∈ patternsIn b'.definitions category) :
        ((patternsIn definitions category).mergeSort Candidate.precedes).Pairwise fun x y =>
          x.precedes y = true ∧ (y.precedes x = true → x.patternIndex ≤ y.patternIndex) := by
      refine List.pairwise_mergeSort_of_ties Candidate.precedes_trans Candidate.precedes_total ?_
      refine (pairwise_patternsIn category distinct).imp_of_mem fun {x y} memX memY inOrder before after => ?_
      exact inOrder (one (among x memX) (among y memY) (Candidate.ties_of_precedes before after))
    refine List.Perm.eq_of_pairwise (fun x y memX memY before after => ?_)
      (ordered distinct' fun x => moved.mem_iff.1) (ordered reachable'.distinct fun x => id)
      ((List.mergeSort_perm _ _).trans (moved.trans (List.mergeSort_perm _ _).symm))
    have memX := moved.mem_iff.1 (List.mem_mergeSort.1 memX)
    have memY := List.mem_mergeSort.1 memY
    have sameId := one memX memY (Candidate.ties_of_precedes before.1 after.1)
    have ofX := mem_patternsOf reachable'.numbered memX
    have ofY := mem_patternsOf reachable'.numbered memY
    have sameDefinition : x.definition = y.definition :=
      Option.some.inj (ofX.definition.symm.trans (sameId ▸ ofY.definition))
    have sameIndex : x.patternIndex = y.patternIndex := Nat.le_antisymm (before.2 after.1) (after.2 before.1)
    have samePattern : x.pattern = y.pattern := by
      have there := ofX.pattern
      rw [sameDefinition, sameIndex, ofY.pattern] at there
      exact (Option.some.inj there).symm
    cases x
    cases y
    simp only at sameDefinition sameIndex samePattern
    rw [sameDefinition, sameIndex, samePattern]
  rw [candidates_build, candidates_build, patternsOf_eq, patternsOf_eq, ← alike]
  exact sorted.imp fun _ _ both => both.2

theorem Reordered.registries (reordered : b.Reordered ρ b') (reachable' : b'.Reachable)
    (differ : b.RanksDiffer) :
    (Pairing.renumbering ρ).Registries b.build b'.build where
  types := congrArg TypeBuilder.build reordered.types
  config := reordered.config
  candidates := reordered.candidates reachable' differ
  views states := by
    obtain ⟨line, column⟩ := Prod.mk.inj states.position
    exact ⟨states.source, line, column, states.scopes, states.depth, states.enclosing,
      congrArg Cancellation.isSet states.cancellation, congrArg TypeBuilder.build reordered.types,
      reordered.contextValues⟩

end RegistryBuilder

namespace Registry

theorem rejections_warnUnset (r : Registry) (reads : List (Span × String)) (c : Context) :
    (warnUnset r reads c).rejections = c.rejections := by
  obtain ⟨_, same⟩ := exists_warnUnset r reads c
  rw [same]

/-- What was turned down before a line counts again after it. -/
theorem rejections_parseLine (r : Registry) (category : Category) (text : String) (c : Context) :
    (r.parseLine category text c).2.rejections = c.rejections := by
  simp only [parseLine, parseLineBy]
  generalize matchLine r _ category _ _ = a
  obtain ⟨result, after⟩ := a
  rcases result with cause | ⟨none | node, _⟩
  · rfl
  · rfl
  · exact rejections_warnUnset r _ _

theorem rejections_parseExpression (r : Registry) (text : String) (types : List PatternType) (c : Context) :
    (r.parseExpression text types c).2.rejections = c.rejections := by
  simp only [parseExpression, readText]
  generalize r.reader _ _ _ _ _ _ = a
  obtain ⟨result, after⟩ := a
  rcases result with cause | e | reason
  · rfl
  · exact rejections_warnUnset r _ _
  · rfl

end Registry

/-- **The order of registration does not matter where ranks differ.** Lines and expressions are parsed to the
same nodes, or to the same errors with the same near misses, but for the numbers of the definitions. -/
theorem parse_reordered {ρ : Equiv.Perm Nat} {b b' : RegistryBuilder} (reachable' : b'.Reachable)
    (reordered : b.Reordered ρ b') (differ : b.RanksDiffer) (c : Context) :
    (∀ category text, b'.build.parseLine category text (c.renumbered ρ) =
      ((b.build.parseLine category text c).1.map (Node.translate (.renumbering ρ)),
        (b.build.parseLine category text c).2.renumbered ρ)) ∧
    (∀ text types, b'.build.parseExpression text types (c.renumbered ρ) =
      ((b.build.parseExpression text types c).1.map (Expr.translate (.renumbering ρ)),
        (b.build.parseExpression text types c).2.renumbered ρ)) := by
  have registries := reordered.registries reachable' differ
  have start := Pairing.renumbering_states (ρ := ρ) c
  constructor
  · intro category text
    obtain ⟨result, states⟩ := Pairing.parseLine_states registries rfl start category text
    refine Prod.ext result (states.eq_renumbered ?_)
    rw [Registry.rejections_parseLine, Registry.rejections_parseLine]
    rfl
  · intro text types
    obtain ⟨result, states⟩ := Pairing.parseExpression_states registries rfl start text types
    refine Prod.ext result (states.eq_renumbered ?_)
    rw [Registry.rejections_parseExpression, Registry.rejections_parseExpression]
    rfl

/-- The caller, of whom one can only speak in the block of a call, the definition with a number. -/
def callerIn (call : Nat) : Declaration :=
  ({ category := .expression, patterns := ["caller"], returns := some "number"
     decide := fun node => .look fun view =>
       if view.enclosing.contains call then .accept node else .reject "nobody calls" }, [])

/-- A vocabulary of calls, in an order in which the call is the first definition. -/
def callsFirst : List Declaration :=
  [({ category := .event, patterns := ["call"] }, []), callerIn 0,
    ({ category := .expression, patterns := ["%number% + %number%"], priority := 1,
       returns := some "number" }, []),
    ({ category := .effect, patterns := ["tell %number%"] }, [])]

/-- The same vocabulary in an order in which the call is the last definition. -/
def callsLast : List Declaration :=
  [({ category := .effect, patterns := ["tell %number%"] }, []), callerIn 3,
    ({ category := .expression, patterns := ["%number% + %number%"], priority := 1,
       returns := some "number" }, []),
    ({ category := .event, patterns := ["call"] }, [])]

theorem callerIn_renumbered (ρ : Equiv.Perm Nat) (call : Nat) :
    (callerIn call).Renumbered ρ (callerIn (ρ call)) where
  name := rfl
  category := rfl
  patterns := rfl
  priority := rfl
  returns := rfl
  values := rfl
  decide node := by
    refine .look fun view view' renumbered => ?_
    have same : view'.enclosing.contains (ρ call) = view.enclosing.contains call := by
      rw [renumbered.enclosing, Bool.eq_iff_iff, List.contains_iff_mem, List.contains_iff_mem,
        List.mem_map_of_injective ρ.injective]
    rw [same]
    split
    · exact .accept node
    · exact .reject "nobody calls"

instance (x y : Candidate) : Decidable (x.Ties y) :=
  inferInstanceAs (Decidable (_ ∧ _))

/-- What is told in the block of a call is the same in both orders. -/
theorem parse_reordered_calls :
    let b := ((RegistryBuilder.withConfig {}).addAll
      [.type { name := "number", plural := "numbers", literal := some fun s =>
        if s == "1" then some (.int 1) else none }]).1
    let first := (b.addAll (callsFirst.map Declaration.entry)).1
    let last := (b.addAll (callsLast.map Declaration.entry)).1
    let ρ : Equiv.Perm Nat := .swap 0 3
    first.RanksDiffer ∧ first.Reordered ρ last ∧
      last.build.parseLine .effect "tell caller + 1" { enclosing := [3] } =
        ((first.build.parseLine .effect "tell caller + 1" { enclosing := [0] }).1.map
            (Node.translate (.renumbering ρ)),
          (first.build.parseLine .effect "tell caller + 1" { enclosing := [0] }).2.renumbered ρ) := by
  intro b first last ρ
  have plain (spec : DefinitionSpec) (accepts : spec.decide = Action.accept) :
      Declaration.Renumbered ρ (spec, []) (spec, []) :=
    ⟨rfl, rfl, rfl, rfl, rfl, rfl, fun node => accepts ▸ .accept node⟩
  have moved (i : Nat) : Option.Rel (Declaration.Renumbered ρ) callsFirst[i]? callsLast[ρ i]? := by
    match i with
    | 0 => exact .some (plain _ rfl)
    | 1 => exact .some (callerIn_renumbered ρ 0)
    | 2 => exact .some (plain _ rfl)
    | 3 => exact .some (plain _ rfl)
    | i + 4 =>
      have still : ρ (i + 4) = i + 4 := Equiv.swap_apply_of_ne_of_ne (by omega) (by omega)
      rw [still]
      exact .none
  have differ : first.RanksDiffer := fun category => by cases category <;> decide +kernel
  have reordered : first.Reordered ρ last :=
    RegistryBuilder.addAll_reordered (by decide +kernel) (by decide +kernel) (by decide +kernel)
      (by decide +kernel) moved
  have reachable : last.Reachable :=
    RegistryBuilder.addAll_reachable _ (RegistryBuilder.addAll_reachable _ (.setConfig {} .new))
  refine ⟨differ, reordered, ?_⟩
  exact (parse_reordered reachable reordered differ { enclosing := [0] }).1 .effect "tell caller + 1"

end Phrasebook
