import Phrasebook.Proofs.Registry.Ambiguities

/-!
# The order in which patterns are tried

After any calls, the patterns of a category stand in one order: by priority, then by the words that they require,
then by the number of their definition, then by their place among its patterns. Calls made later put further
patterns in between, and leave the order of those from before as it was.
-/

namespace Phrasebook

/-- Where the pattern of a candidate was registered. -/
def Candidate.place (c : Candidate) : PatternPlace :=
  (c.definition.id, c.patternIndex)

/-- One candidate has to stand before another: its priority is higher, or the same and it requires more words, or as
many and it was registered first. -/
def Candidate.Outranks (a b : Candidate) : Prop :=
  b.definition.priority < a.definition.priority ∨
    a.definition.priority = b.definition.priority ∧
      (b.pattern.specificity < a.pattern.specificity ∨
        a.pattern.specificity = b.pattern.specificity ∧ a.place.Precedes b.place)

namespace Candidate

variable {a b : Candidate}

theorem not_outranks_of_outranks (h : a.Outranks b) : ¬ b.Outranks a := by
  simp only [Outranks, PatternPlace.Precedes] at h ⊢
  omega

/-- A candidate that may stand before another, and has to where the other may as well, outranks it. -/
theorem outranks_of_precedes (before : a.precedes b = true) (tied : b.precedes a = true → a.place.Precedes b.place) :
    a.Outranks b := by
  simp only [precedes, Bool.or_eq_true, Bool.and_eq_true, decide_eq_true_eq, beq_iff_eq] at before tied
  rcases before with higher | ⟨level, longer⟩
  · exact .inl higher
  · refine .inr ⟨level, ?_⟩
    rcases Nat.lt_or_eq_of_le longer with longer | same
    · exact .inl longer
    · exact .inr ⟨same.symm, tied (.inr ⟨level.symm, Nat.le_of_eq same.symm⟩)⟩

end Candidate

/-- Definitions that stand at the places of their numbers come with growing numbers. -/
theorem Numbered.increasing {definitions : List Definition} (numbered : Numbered definitions) :
    definitions.Pairwise fun d e => d.id < e.id := by
  refine List.pairwise_iff_getElem.2 fun i j hi hj less => ?_
  rw [numbered.id i _ (List.getElem?_eq_getElem hi), numbered.id j _ (List.getElem?_eq_getElem hj)]
  exact less

/-- The patterns of a category are found in the order of registration. -/
theorem patternsIn_increasing {definitions : List Definition} (numbered : Numbered definitions) (category : Category) :
    (patternsIn definitions category).Pairwise fun a b => a.place.Precedes b.place := by
  refine List.pairwise_flatMap.2 ⟨fun d _ => ?_, ?_⟩
  · rw [List.pairwise_map, List.pairwise_iff_getElem]
    intro i j hi hj less
    refine .inr ⟨rfl, ?_⟩
    simpa only [Candidate.place, List.getElem_zipIdx, Nat.zero_add] using less
  · refine (numbered.increasing.filter _).imp fun {d e} less x memX y memY => ?_
    obtain ⟨_, -, rfl⟩ := List.mem_map.1 memX
    obtain ⟨_, -, rfl⟩ := List.mem_map.1 memY
    exact .inl less

namespace RegistryBuilder

variable {b b' : RegistryBuilder} {category : Category}

/-- The candidates of a category are the patterns of its definitions. -/
theorem mem_candidates (numbered : Numbered b.definitions) {c : Candidate} :
    c ∈ b.build.candidates category ↔
      PatternAt b.definitions c.place c.definition c.pattern ∧ c.definition.category = category := by
  rw [candidates_build, List.mem_mergeSort]
  constructor
  · intro mem
    have parts := mem_patternsOf numbered mem
    exact ⟨⟨parts.definition, parts.pattern⟩, parts.category⟩
  · rintro ⟨⟨definition, pattern⟩, rfl⟩
    have among : c.definition ∈ b.definitions.filter fun d => d.category == c.definition.category :=
      List.mem_filter.2 ⟨List.mem_of_getElem? definition, beq_self_eq_true _⟩
    refine List.mem_flatMap.2 ⟨c.definition, among, List.mem_map.2 ⟨(c.pattern, c.patternIndex), ?_, rfl⟩⟩
    exact List.mem_zipIdx_iff_getElem?.2 pattern

/-- The candidates of a category stand in the order of their ranks. -/
theorem candidates_outrank (numbered : Numbered b.definitions) :
    (b.build.candidates category).Pairwise Candidate.Outranks := by
  rw [candidates_build]
  have ties : (b.patternsOf category).Pairwise fun x y =>
      x.precedes y = true → y.precedes x = true → x.place.Precedes y.place :=
    (patternsIn_increasing numbered category).imp fun first _ _ => first
  have sorted := List.pairwise_mergeSort_of_ties Candidate.precedes_trans Candidate.precedes_total ties
  exact sorted.imp fun pair => Candidate.outranks_of_precedes pair.1 pair.2

theorem nodup_candidates (numbered : Numbered b.definitions) : (b.build.candidates category).Nodup := by
  refine (candidates_outrank numbered).imp ?_
  rintro x _ outranks rfl
  exact Candidate.not_outranks_of_outranks outranks outranks

/-- **Further definitions leave the order of the candidates as it was.** -/
theorem candidates_filter (numbered : Numbered b.definitions) (numbered' : Numbered b'.definitions)
    (kept : b.KeptIn b') :
    ((b'.build.candidates category).filter fun c => c.definition.id < b.definitions.length) =
      b.build.candidates category := by
  refine List.Perm.eq_of_pairwise (fun x y _ _ before after => ?_) ((candidates_outrank numbered').filter _)
    (candidates_outrank numbered) ?_
  · exact absurd after (Candidate.not_outranks_of_outranks before)
  · refine (List.perm_ext_iff_of_nodup ((nodup_candidates numbered').filter _) (nodup_candidates numbered)).2
      fun c => ?_
    obtain ⟨added, grown⟩ := kept.definitions
    have same (less : c.definition.id < b.definitions.length) :
        PatternAt b'.definitions c.place c.definition c.pattern ↔
          PatternAt b.definitions c.place c.definition c.pattern := by
      simp only [PatternAt, Candidate.place, ← grown, List.getElem?_append_left less]
    rw [List.mem_filter, mem_candidates numbered, mem_candidates numbered', decide_eq_true_eq]
    constructor
    · rintro ⟨⟨at_, kind⟩, less⟩
      exact ⟨(same less).1 at_, kind⟩
    · rintro ⟨at_, kind⟩
      have less : c.definition.id < b.definitions.length := (List.getElem?_eq_some_iff.1 at_.1).1
      exact ⟨⟨(same less).2 at_, kind⟩, less⟩

/-- What holds of the definitions of a builder, and goes on to hold when one more is made, holds after any calls. -/
theorem definitions_after {P : List Definition → Prop}
    (step : ∀ definitions types spec d, P definitions → d.Makes types spec definitions.length →
      P (definitions ++ [d]))
    (start : P b.definitions) (calls : List Registration) : P (b.after calls).definitions := by
  induction calls generalizing b with
  | nil => exact start
  | cons call rest ih =>
    have next : P (call.perform b).2.definitions := by
      cases ends : (call.perform b).1 with
      | error => rwa [Registration.perform_error ends]
      | ok =>
        have adds := Registration.adds_of_perform ends
        generalize (call.perform b).2 = b' at adds
        cases adds with
        | type | converter | contextValue | settings => exact start
        | definition makes => exact step _ _ _ _ start makes
    exact ih next

theorem numbered_after (numbered : Numbered b.definitions) (calls : List Registration) :
    Numbered (b.after calls).definitions :=
  definitions_after (fun _ _ _ _ numbered makes => numbered.snoc makes.id (mapM_compile_sound makes.patterns))
    numbered calls

/-- Whatever is called, a pattern is as specific as it requires words. -/
theorem specificity_after (start : ∀ d ∈ b.definitions, ∀ p ∈ d.patterns, p.specificity = p.root.requiredWords)
    (calls : List Registration) :
    ∀ d ∈ (b.after calls).definitions, ∀ p ∈ d.patterns, p.specificity = p.root.requiredWords := by
  refine definitions_after
    (P := fun definitions => ∀ d ∈ definitions, ∀ p ∈ d.patterns, p.specificity = p.root.requiredWords)
    (fun definitions types spec d before makes e mem p among => ?_) start calls
  rcases List.mem_append.1 mem with mem | mem
  · exact before e mem p among
  · rw [List.mem_singleton.1 mem] at among
    obtain ⟨resolve, source, compiled⟩ := isCompiled_of_mem_mapM makes.patterns p among
    obtain ⟨reading, -, -, parts⟩ := Pattern.compile_reads compiled
    rw [parts]

/-- **The order of the candidates.** After any calls, the candidates of a category are all patterns of the
definitions of the category, each once, by priority, then by specificity, which is the number of words that a pattern
requires, then by the order of registration. Whatever is called later, the candidates from before stand among the later
ones in the same order. -/
theorem candidates_after (config : Config) (calls : List Registration) (category : Category) :
    let b := (withConfig config).after calls
    let candidates := b.build.candidates category
    (∀ place d p, PatternAt b.definitions place d p ∧ d.category = category ↔
      ∃ c ∈ candidates, c.place = place ∧ c.definition = d ∧ c.pattern = p) ∧
    (candidates.map Candidate.place).Nodup ∧
    candidates.Pairwise Candidate.Outranks ∧
    (∀ c ∈ candidates, c.pattern.specificity = c.pattern.root.requiredWords) ∧
    ∀ later, candidates =
      ((b.after later).build.candidates category).filter fun c => c.definition.id < b.definitions.length := by
  intro b candidates
  have numbered : Numbered b.definitions := numbered_after (Reachable.new.setConfig config).numbered calls
  refine ⟨fun place d p => ?_, ?_, candidates_outrank numbered, fun c mem => ?_, fun later => ?_⟩
  · constructor
    · rintro ⟨at_, kind⟩
      let c : Candidate := { definition := d, patternIndex := place.2, pattern := p }
      have same : c.place = place := Prod.ext (numbered.id _ _ at_.1) rfl
      exact ⟨c, (mem_candidates numbered).2 ⟨same ▸ at_, kind⟩, same, rfl, rfl⟩
    · rintro ⟨c, mem, rfl, rfl, rfl⟩
      exact (mem_candidates numbered).1 mem
  · refine List.pairwise_map.2 ((candidates_outrank numbered).imp_of_mem fun {x y} memX memY outranks same => ?_)
    have atX := ((mem_candidates numbered).1 memX).1
    have atY := ((mem_candidates numbered).1 memY).1
    have sameDefinition : x.definition = y.definition := Option.some.inj (atX.1.symm.trans (same ▸ atY.1))
    have samePattern : x.pattern = y.pattern := by
      have there := atX.2
      rw [sameDefinition, same, atY.2] at there
      exact (Option.some.inj there).symm
    simp only [Candidate.Outranks, PatternPlace.Precedes, sameDefinition, samePattern, same] at outranks
    omega
  · have at_ := ((mem_candidates numbered).1 mem).1
    have none : ∀ d ∈ (withConfig config).definitions, ∀ p ∈ d.patterns, p.specificity = p.root.requiredWords :=
      fun _ mem => absurd mem List.not_mem_nil
    exact specificity_after none calls _ (List.mem_of_getElem? at_.1) _ (List.mem_of_getElem? at_.2)
  · exact (candidates_filter numbered (numbered_after numbered later) (keptIn_after b later)).symm

end RegistryBuilder

end Phrasebook
