import Phrasebook.Proofs.Parse.Paired

/-!
# Lines in step

Two parses of one text whose definitions correspond come to the same end: the same node, or the same error
with the same near misses. Only the numbers of the definitions are translated.
-/

namespace Phrasebook.Parse
open Text

section NearMiss

variable (t : Translation)

/-- Which near miss is the best does not depend on the definitions. -/
theorem best?_translate (misses : List NearMiss) :
    NearMiss.best? (misses.map (NearMiss.translate t)) = (NearMiss.best? misses).map (NearMiss.translate t) := by
  induction misses with
  | nil => rfl
  | cons miss rest ih =>
    simp only [List.map_cons, NearMiss.best?, ih]
    cases NearMiss.best? rest with
    | none => rfl
    | some other =>
      have same : (other.translate t).better (miss.translate t) = other.better miss := rfl
      simp only [Option.map_some, same]
      split <;> rfl

theorem describe_best?_translate (misses : List NearMiss) :
    (NearMiss.best? (misses.map (NearMiss.translate t))).map NearMiss.describe =
      (NearMiss.best? misses).map NearMiss.describe := by
  rw [best?_translate, Option.map_map]
  rfl

end NearMiss

namespace Pairing

variable {p : Pairing} {r r' : Registry} {read read' : Reader} {c d : Context}

theorem missShift_zero (miss : Miss) : missShift 0 0 miss = miss := by
  cases miss with
  | refused reason => rfl
  | unmatched failure =>
    obtain ⟨progress, reason⟩ := failure
    cases reason <;> simp [missShift, Match.Failure.shift, Match.Reason.shift]

theorem Attempts.nearMiss {a b : Attempt} (attempts : p.Attempts 0 0 a b) (types : TypeTable) (line : Line)
    (stop : Nat) : b.nearMiss types line stop = (a.nearMiss types line stop).translate p.toTranslation := by
  have miss : b.miss = a.miss := attempts.miss.trans (missShift_zero a.miss)
  simp only [Attempt.nearMiss, NearMiss.translate, miss, attempts.rank, attempts.candidate.category,
    attempts.candidate.id, attempts.candidate.pattern]

theorem nearMisses_translate {as bs : List Attempt} (attempts : List.Forall₂ (p.Attempts 0 0) as bs)
    (types : TypeTable) (line : Line) (stop : Nat) :
    bs.map (Attempt.nearMiss types line stop) =
      (as.map (Attempt.nearMiss types line stop)).map (NearMiss.translate p.toTranslation) := by
  induction attempts with
  | nil => rfl
  | cons first _ ih => rw [List.map_cons, List.map_cons, List.map_cons, first.nearMiss, ih]

section Lines

variable (registries : p.Registries r r') (readers : p.Readers read read') (same : p.span = id)

include registries readers same

theorem matchLine_inStep (category : Category) (line : Line) :
    p.InStep (p.Tries 0 0) (matchLine r read category line) (matchLine r' read' category line) := by
  simp only [matchLine]
  obtain ⟨-, some, within⟩ := line.trimmed_bounds (Nat.zero_le line.size)
  split
  · have tried := tryCategory_inStep readers (sees_same same line) (Nat.zero_le _) some within registries category
      (fun _ => true) (fun _ => true) fun _ _ _ => rfl
    simp only [shift_zero] at tried
    exact tried
  · exact inStep_pure ⟨rfl, .nil⟩

/-- **A line is parsed in step** with itself. -/
theorem parseLineBy_states (states : p.States c d) (category : Category) (text : String) :
    (parseLineBy r' read' category text d).1 =
        (parseLineBy r read category text c).1.map (Node.translate p.toTranslation) ∧
      p.States (parseLineBy r read category text c).2 (parseLineBy r' read' category text d).2 := by
  have ended := matchLine_inStep registries readers same category (Line.ofString text) _ _
    (states.withMisses []).forget
  simp only [parseLineBy]
  simp only [List.map_nil] at ended
  generalize matchLine r read _ _ _ = a at ended
  generalize matchLine r' read' _ _ _ = b at ended
  obtain ⟨result, after⟩ := a
  obtain ⟨result', after'⟩ := b
  obtain ⟨results, states'⟩ := ended
  have restored := states.withRejections states'
  match result, result', results with
  | .error cause, .error _, rfl =>
    simp only [lineResult]
    rw [restored.place]
    exact ⟨rfl, restored⟩
  | .ok (some node, _), .ok (some node', _), tries =>
    obtain rfl : node' = node.translate p.toTranslation := Option.some.inj tries.node
    simp only [lineResult, node.localReads_translate]
    exact ⟨rfl, warnUnset_states registries restored _⟩
  | .ok (none, attempts), .ok (none, attempts'), tries =>
    have misses := nearMisses_translate tries.attempts r.types.table (Line.ofString text)
      ((Line.ofString text).trimmed 0 (Line.ofString text).size).2
    simp only [lineResult, registries.types, misses, describe_best?_translate]
    have noted := restored.withMisses (attempts.map (Attempt.nearMiss r.types.table (Line.ofString text)
      ((Line.ofString text).trimmed 0 (Line.ofString text).size).2))
    rw [restored.place]
    exact ⟨rfl, noted⟩
  | .ok (some _, _), .ok (none, _), tries => cases tries.node
  | .ok (none, _), .ok (some _, _), tries => cases tries.node

omit readers in
theorem parseLine_states (states : p.States c d) (category : Category) (text : String) :
    (r'.parseLine category text d).1 =
        (r.parseLine category text c).1.map (Node.translate p.toTranslation) ∧
      p.States (r.parseLine category text c).2 (r'.parseLine category text d).2 := by
  unfold Registry.parseLine
  rw [states.remainingDepth]
  exact parseLineBy_states registries (reader_inStep registries _) same states category text

omit readers in
theorem parseExpression_states (states : p.States c d) (text : String) (types : List PatternType) :
    (r'.parseExpression text types d).1 =
        (r.parseExpression text types c).1.map (Expr.translate p.toTranslation) ∧
      p.States (r.parseExpression text types c).2 (r'.parseExpression text types d).2 := by
  unfold Registry.parseExpression
  rw [states.remainingDepth]
  exact readText_states registries (reader_inStep registries _) same states text types

end Lines

section Same

variable {cancels : Prop} (self : p.toCorrespondence = .same cancels)
  (may : cancels ∨
    ∀ category, ∀ x ∈ r.candidates category, ∀ node, (x.definition.decide node).NeverCancels)

include self may

/-- A registry goes in step with itself, where decisions may ask to cancel or never do. -/
theorem registries_same : p.Registries r r where
  types := rfl
  config := rfl
  candidates category := by
    have translation : p.toTranslation = {} := congrArg Correspondence.toTranslation self
    refine List.forall₂_same.2 fun x mem => ⟨?_, rfl, rfl, rfl, fun node => ?_, rfl, rfl⟩
    · rw [translation]
      rfl
    · rw [self]
      have same := Action.corresponds_same (may.imp_right fun never => never category x mem node)
      rwa [show node.translate (Correspondence.same cancels).toTranslation = node from node.translate_same]
  views {c d} states := by
    obtain ⟨line, column⟩ := Prod.mk.inj states.position
    have enclosing : d.enclosing = c.enclosing := by
      have related := states.enclosing
      rw [self] at related
      exact related.trans (List.map_id _)
    rw [self]
    show r.view c = r.view d
    simp only [Registry.view, states.source, line, column, states.scopes, states.depth, enclosing,
      states.cancellation]

/-- A line is parsed to the same end. -/
theorem parseLine_same (states : p.States c d) (category : Category) (text : String) :
    (r.parseLine category text d).1 = (r.parseLine category text c).1 ∧
      p.States (r.parseLine category text c).2 (r.parseLine category text d).2 := by
  have translation : p.toTranslation = {} := congrArg Correspondence.toTranslation self
  obtain ⟨results, after⟩ := parseLine_states (registries_same self may)
    (congrArg Translation.span translation) states category text
  rw [translation, Node.map_translate_same] at results
  exact ⟨results, after⟩

/-- An expression is parsed to the same end. -/
theorem parseExpression_same (states : p.States c d) (text : String) (types : List PatternType) :
    (r.parseExpression text types d).1 = (r.parseExpression text types c).1 ∧
      p.States (r.parseExpression text types c).2 (r.parseExpression text types d).2 := by
  have translation : p.toTranslation = {} := congrArg Correspondence.toTranslation self
  obtain ⟨results, after⟩ := parseExpression_states (registries_same self may)
    (congrArg Translation.span translation) states text types
  rw [translation, Expr.map_translate_same] at results
  exact ⟨results, after⟩

end Same

end Pairing

end Phrasebook.Parse
