import Phrasebook.Proofs.Parse.Alike

/-!
# Forms side by side

Two parses read every form of expression alike if they read its parts alike. The definitions that they try
decide by the node and the blocks around the line alone.
-/

namespace Phrasebook.Parse.Bond
open Text Pattern

variable {b : Bond} {r : Registry} {line : Line} {read read' : Reader} {start stop : Nat}

/-- Two readers are alike on the stretches of a line. -/
def AlikeReaders (b : Bond) (line : Line) (read read' : Reader) : Prop :=
  ∀ start stop target, start ≤ stop → stop ≤ line.size →
    b.Alike (stretchOf line start stop) (read line start stop target) (read' line start stop target)

/-- Two readers are alike on a part of a stretch. -/
theorem AlikeReaders.part (alike : b.AlikeReaders line read read') {start' stop' : Nat}
    (inside : stop ≤ line.size) (hs : start ≤ start') (h : start' ≤ stop') (ht : stop' ≤ stop)
    (target : Target) :
    b.Alike (stretchOf line start stop) (read line start' stop' target)
      (read' line start' stop' target) :=
  (alike start' stop' target h (Nat.le_trans ht inside)).widen (stretchOf_within hs ht)

variable (alike : b.AlikeReaders line read read') (inside : stop ≤ line.size)

include alike inside

theorem matchCandidate_alike (candidate : Candidate) :
    b.Alike (stretchOf line start stop) (matchCandidate read line start stop candidate)
      (matchCandidate read' line start stop candidate) :=
  .trying _ (Match.related_run (b.composes _) fun _ _ _ hs less ht =>
    alike.part inside hs (Nat.le_of_lt less) ht _)

theorem tryCandidate_alike {candidate : Candidate}
    (decides : DecidesByBlocks r candidate.definition.decide) :
    b.Alike (stretchOf line start stop) (tryCandidate r read line start stop candidate)
      (tryCandidate r read' line start stop candidate) := by
  intro c d kin trials
  unfold AlikeFrom Ends Stops tryCandidate Parsing.of
  rcases matchCandidate_alike alike inside candidate c d kin trials with
    ⟨cause, c', stops, fatal⟩ | ⟨result, c', d', ends, ends', kin', passes, passes'⟩
  · refine .inl ⟨cause, c'.rollback c.checkpoint, ?_, fatal⟩
    simp only [stops]
  · refine .inr ?_
    unfold Ends at ends ends'
    have kept := c'.keeps_rollback c.checkpoint
    have kept' := d'.keeps_rollback d.checkpoint
    simp only [ends, ends']
    cases result with
    | error failure =>
      exact ⟨_, _, _, rfl, rfl, kin'.keeps kept kept', passes.trans kept.passes,
        passes'.trans kept'.passes⟩
    | ok found =>
      obtain ⟨verdict, looks⟩ := decides
      have same := Context.enclosing_setting kin'.setting
      simp only [Context.span_setting kin'.setting, carryOut_verdict (looks _ _), same]
      cases verdict (nodeOf candidate found (d'.span (stretchOf line start stop))) d'.enclosing with
      | ok node => exact ⟨_, _, _, rfl, rfl, kin', passes, passes'⟩
      | error reason =>
        exact ⟨_, _, _, rfl, rfl, kin'.keeps kept kept', passes.trans kept.passes,
          passes'.trans kept'.passes⟩

theorem tryCandidates_alike (admissible : Definition → Bool) (candidates : List (Candidate × Nat))
    (decides : ∀ candidate ∈ candidates, DecidesByBlocks r candidate.1.definition.decide) :
    b.Alike (stretchOf line start stop)
      (tryCandidates r read line start stop admissible candidates)
      (tryCandidates r read' line start stop admissible candidates) := by
  induction candidates with
  | nil => exact alike_pure _
  | cons first rest ih =>
    obtain ⟨candidate, rank⟩ := first
    have rest := ih fun candidate mem => decides candidate (List.mem_cons_of_mem _ mem)
    simp only [tryCandidates]
    refine alike_checkCancelled.bind fun _ => ?_
    refine .context fun c d kin trials => ?_
    have trying : c.isTrying candidate.definition.id (stretchOf line start stop) =
        d.isTrying candidate.definition.id (stretchOf line start stop) := by
      rw [Bool.eq_iff_iff]
      simpa [Context.isTrying] using b.agree candidate.definition.id trials
    rw [trying]
    split
    · exact rest
    · have counts (c : Context) : c.Keeps { c with tried := c.tried + 1 } := ⟨rfl, rfl, rfl, rfl, rfl⟩
      refine (alike_change counts counts).bind fun _ => ?_
      refine (tryCandidate_alike alike inside (decides _ List.mem_cons_self)).bind fun result => ?_
      cases result with
      | ok node => exact alike_pure _
      | error miss => exact rest.bind fun result => alike_pure _

variable (decides : ∀ category, ∀ candidate ∈ r.candidates category,
  DecidesByBlocks r candidate.definition.decide)

include decides

theorem tryCategory_alike (category : Category) (admissible : Definition → Bool) :
    b.Alike (stretchOf line start stop)
      (tryCategory r read line start stop category admissible)
      (tryCategory r read' line start stop category admissible) := by
  refine tryCandidates_alike alike inside admissible _ fun candidate mem => ?_
  exact decides category candidate.1 (List.fst_mem_of_mem_zipIdx mem)

theorem readCategories_alike (target : Target) (categories : List Category) :
    b.Alike (stretchOf line start stop)
      (readCategories r read line start stop target categories)
      (readCategories r read' line start stop target categories) := by
  induction categories with
  | nil => exact alike_pure _
  | cons category rest ih =>
    rw [readCategories, readCategories]
    refine (tryCategory_alike alike inside decides category _).bind fun result => ?_
    obtain ⟨node?, attempts⟩ := result
    dsimp only
    split
    · exact alike_pure _
    · exact ih.bind fun result => alike_pure _

theorem readSyntax_alike (target : Target) :
    b.Alike (stretchOf line start stop) (readSyntax r read line start stop target)
      (readSyntax r read' line start stop target) := by
  unfold readSyntax
  refine (readCategories_alike alike inside decides target _).bind fun result => ?_
  obtain ⟨e?, attempts⟩ := result
  cases e? with
  | some e => exact alike_pure _
  | none =>
    dsimp only
    split <;> exact alike_pure _

/-- **Every form of expression is read alike** if its parts are. -/
theorem readForms_alike (target : Target) :
    b.Alike (stretchOf line start stop) (readForms r read line start stop target)
      (readForms r read' line start stop target) := by
  refine related_forms (b.composes _) (fun part target proper => ?_) (fun x y h => ?_) ?_ rfl rfl
    (fun room => ?_) (readSyntax_alike alike inside decides target)
  · exact alike.part inside proper.after (Nat.le_of_lt proper.some) proper.before target
  · refine .checkpoint fun p q => h.bind fun b? => ?_
    cases b? with
    | none =>
      exact (alike_change (Context.keeps_rollback · p) (Context.keeps_rollback · q)).bind
        fun _ => alike_pure _
    | some b => exact alike_pure _
  · refine .context fun c d kin _ => ?_
    rw [Context.span_setting kin.setting]
    exact alike_pure _
  · exact alike.part inside (Nat.le_succ start) (by omega) (Nat.sub_le stop 1) target

end Phrasebook.Parse.Bond
