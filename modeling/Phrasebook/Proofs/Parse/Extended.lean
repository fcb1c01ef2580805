import Phrasebook.Parse.Line
import Phrasebook.Proofs.Parse.Respected
import Phrasebook.Proofs.Parse.WellTyped
import Phrasebook.Proofs.Registry.Extended

/-!
# More definitions of lines

Events, sections and effects are tried on whole lines only. So registering more of them does not change how any
expression is parsed, nor any line of a category to which nothing was added. Where all that is added ranks last,
a line that was accepted before still is, as the same node.
-/

namespace Phrasebook
open Text Parse

/-- Two registries have the same types, settings and context values, and try the same expressions and conditions
in the same order. -/
structure Registry.SameExpressions (r r' : Registry) : Prop where
  types : r'.types = r.types
  config : r'.config = r.config
  contextValues : r'.contextValues = r.contextValues
  candidates {category : Category} : category = .expression ∨ category = .condition →
    r'.candidates category = r.candidates category

/-- What is added to a builder besides expressions and conditions leaves these alone. -/
theorem RegistryBuilder.Grows.sameExpressions {b b' : RegistryBuilder} {added : List Definition}
    (grows : b.Grows added b') (lines : ∀ d ∈ added, d.category ≠ .expression ∧ d.category ≠ .condition) :
    b.build.SameExpressions b'.build where
  types := congrArg TypeBuilder.build grows.types
  config := grows.config
  contextValues := grows.contextValues
  candidates kind := by
    refine grows.candidates_same fun d mem same => ?_
    rw [← same] at kind
    exact kind.elim (lines d mem).1 (lines d mem).2

namespace Parse

/-- Being the same step is kept by whatever reading is put together from. -/
theorem respected_eq (line : Line) : Respected line fun _ x y => x = y where
  pure _ := rfl
  bind first second := by
    rw [first, funext second]
  checkCancelled := rfl
  isTrying _ _ _ := rfl
  countTrial := rfl
  lookBack _ _ _ := rfl
  remember _ _ _ _ := rfl
  spanOf _ _ := rfl
  orUndone same := congrArg orUndone same
  deeper same := congrArg (Parsing.bracket Context.deepen Context.leave) same

end Parse

namespace Registry.SameExpressions

variable {r r' : Registry} (same : r.SameExpressions r') {read : Reader}

include same

theorem warnUnset_eq (reads : List (Span × String)) : warnUnset r' reads = warnUnset r reads := by
  funext c
  rw [warnUnset, warnUnset, same.config]

theorem readText_eq (text : String) (types : List PatternType) :
    readText r' read text types = readText r read text types := by
  funext c
  simp only [readText, same.types, same.warnUnset_eq]

/-- A decision does the same in both registries. -/
theorem carryOut_eq (action : Action) : carryOut r' read action = carryOut r read action := by
  induction action with
  | accept | reject => rfl
  | look next ih =>
    funext c
    have view : r'.view c = r.view c := by rw [Registry.view, Registry.view, same.types, same.contextValues]
    simp only [carryOut, view, ih]
  | edit change next ih =>
    funext c
    rw [carryOut, carryOut, ih]
  | parse text types next ih =>
    funext c
    simp only [carryOut, same.readText_eq, ih]

theorem tryCandidate_eq (line : Line) (start stop : Nat) (x : Candidate) :
    tryCandidate r' read line start stop x = tryCandidate r read line start stop x := by
  unfold tryCandidate
  simp only [same.carryOut_eq]

/-- **Expressions are read alike** in both registries. -/
theorem reader_eq (levels : Nat) : r'.reader levels = r.reader levels := by
  induction levels with
  | zero => rfl
  | succ levels ih =>
    funext line start stop target
    rw [Registry.reader, Registry.reader, ih]
    refine (respected_eq line).readLevel fun start stop => (respected_eq line).readNested ?_
    exact (respected_eq line).readForms same.types.symm
      (fun category tried => (same.candidates (mem_categoriesFor tried)).symm)
      (fun _ _ x _ => same.tryCandidate_eq line start stop x) (by rw [same.config]) fun _ _ _ => rfl

theorem parseExpression_eq (text : String) (types : List PatternType) :
    r'.parseExpression text types = r.parseExpression text types := by
  funext c
  rw [Registry.parseExpression, Registry.parseExpression, same.reader_eq, same.readText_eq]

theorem lineResult_eq (category : Category) (text : String)
    (result : Except Cause (Option Node × List Attempt)) :
    lineResult r' category text result = lineResult r category text result := by
  unfold lineResult
  rw [same.types]
  simp only [same.warnUnset_eq]

theorem tryCandidates_eq (line : Line) (start stop : Nat) (admissible : Definition → Bool)
    (candidates : List (Candidate × Nat)) :
    tryCandidates r' read line start stop admissible candidates =
      tryCandidates r read line start stop admissible candidates :=
  (respected_eq line).tryCandidates admissible fun x _ => same.tryCandidate_eq line start stop x.1

/-- A line of a category with the same candidates is parsed alike. -/
theorem parseLine_eq {category : Category} (candidates : r'.candidates category = r.candidates category)
    (text : String) : r'.parseLine category text = r.parseLine category text := by
  funext c
  simp only [Registry.parseLine, parseLineBy, matchLine, tryCategory, same.reader_eq, same.tryCandidates_eq,
    same.lineResult_eq, candidates]

end Registry.SameExpressions

namespace Parse

/-- Candidates that are tried after one that succeeds make no difference. -/
theorem tryCandidates_append {r : Registry} {read : Reader} {line : Line} {start stop : Nat}
    {admissible : Definition → Bool} {candidates : List (Candidate × Nat)} (others : List (Candidate × Nat))
    {c c' : Context} {node : Node} {attempts : List Attempt}
    (found : Ends (tryCandidates r read line start stop admissible candidates) c (some node, attempts) c') :
    Ends (tryCandidates r read line start stop admissible (candidates ++ others)) c (some node, attempts) c' := by
  induction candidates generalizing c attempts with
  | nil => cases found
  | cons first rest ih =>
    obtain ⟨candidate, rank⟩ := first
    rw [tryCandidates_cons_steps] at found
    rw [List.cons_append, tryCandidates_cons_steps]
    obtain ⟨_, c₁, checked, found⟩ := found.of_bind
    refine checked.bind ?_
    obtain ⟨trying, c₂, looked, found⟩ := found.of_bind
    refine looked.bind ?_
    split at found
    next left =>
      rw [if_pos left]
      exact ih found
    next tried =>
      rw [if_neg tried]
      obtain ⟨_, c₃, counted, found⟩ := found.of_bind
      refine counted.bind ?_
      obtain ⟨result, c₄, ended, found⟩ := found.of_bind
      refine ended.bind ?_
      cases result with
      | ok node => exact found
      | error miss =>
        obtain ⟨⟨node?, attempts'⟩, c₅, later, found⟩ := found.of_bind
        cases found
        exact (ih later).bind rfl

end Parse

/-- A line that is accepted still is if more candidates are tried after the others. -/
theorem Registry.SameExpressions.parseLine_ok {r r' : Registry} (same : r.SameExpressions r')
    {category : Category} {more : List Candidate}
    (candidates : r'.candidates category = r.candidates category ++ more) {text : String} {c c' : Context}
    {node : Node} (parsed : r.parseLine category text c = (.ok node, c')) :
    r'.parseLine category text c = (.ok node, c') := by
  simp only [Registry.parseLine, parseLineBy, same.reader_eq, same.lineResult_eq] at parsed ⊢
  cases ran : matchLine r (r.reader c.remainingDepth) category (Line.ofString text)
      { c with nearMisses := [], rejections := {} } with
  | mk result after =>
    rw [ran] at parsed
    rcases result with cause | ⟨_ | found, attempts⟩
    · cases parsed
    · cases parsed
    have still : matchLine r' (r.reader c.remainingDepth) category (Line.ofString text)
        { c with nearMisses := [], rejections := {} } = (.ok (some found, attempts), after) := by
      simp only [matchLine] at ran ⊢
      split at ran
      next nonempty =>
        rw [if_pos nonempty, tryCategory, same.tryCandidates_eq, candidates, List.zipIdx_append]
        exact tryCandidates_append _ ran
      · cases ran
    rw [still]
    exact parsed

/-- An event, and more ways to print, which rank after the others and never work. -/
def furtherLines : List DefinitionSpec :=
  [{ category := .event, patterns := ["start"] },
    { category := .effect, patterns := ["print %object%", "print"], priority := -1
      decide := fun _ => .edit .cancel (.reject "not this way") }]

end Phrasebook
