import Phrasebook.Proofs.Match.Complete
import Phrasebook.Proofs.Match.SplitPoints

/-!
# Where the placeholders of a match were filled

A derivation goes forward through the line, so the stretches that fill its placeholders lie one behind the
other, in the order in which the placeholders are passed. None of them starts or ends within a word.
-/

namespace Phrasebook.Match
open Text Pattern

variable {α : Type}

/-- What fills the placeholder that is passed. -/
def Pick.filled? : Pick α → Option (Nat × α)
  | argument index (some value) => some (index, value)
  | _ => none

@[simp] theorem filled_labelPicks (label : Label) :
    (labelPicks (α := α) label).filterMap Pick.filled? = [] := by
  obtain ⟨mark, tag⟩ := label
  cases mark <;> cases tag <;> rfl

/-- A placeholder by its number, the stretch that fills it and what that stretch was read as. -/
structure Filling (α : Type) where
  index : Nat
  low : Nat
  high : Nat
  value : α

/-- A stretch was read for a placeholder, and lies between two places of the line. -/
structure Filling.Within (r : Reader α) (pos stop : Nat) (f : Filling α) : Prop where
  fills : r.fills f.index f.low f.high = some f.value
  after : pos ≤ f.low
  holds : f.low < f.high
  before : f.high ≤ stop
  inside : f.high ≤ r.stop
  starts : r.region.isBoundary f.low = true
  ends : r.region.isBoundary f.high = true

theorem Filling.Within.widen {r : Reader α} {pos stop pos' stop' : Nat} {f : Filling α}
    (h : f.Within r pos stop) (after : pos' ≤ pos) (before : stop ≤ stop') : f.Within r pos' stop' :=
  { h with after := Nat.le_trans after h.after, before := Nat.le_trans h.before before }

variable {r : Reader α} {after : Follow} {e : Element} {pos stop : Nat} {path : List (Pick α)}

theorem Reads.le (reads : Reads r after e pos stop path) : pos ≤ stop := by
  induction reads with
  | literal there => exact Nat.le_trans (r.region.le_skipBlanks _) (Line.le_of_matchFrom there)
  | space | skipped | absent | nil => exact Nat.le_refl _
  | taken _ ih => exact ih
  | branch _ _ ih => exact ih
  | filled _ ends | regex _ ends =>
    exact Nat.le_trans (r.region.le_skipBlanks _) (Nat.le_of_lt (bounds_of_mem_splitPoints ends).1)
  | cons _ _ ih ih' => exact Nat.le_trans ih ih'

/-- **The stretches that fill the placeholders of a derivation lie one behind the other**, in the order in which
the placeholders are passed. -/
theorem Reads.fillings (reads : Reads r after e pos stop path) :
    ∃ fillings : List (Filling α),
      path.filterMap Pick.filled? = fillings.map (fun f => (f.index, f.value)) ∧
      (∀ f ∈ fillings, f.Within r pos stop) ∧ fillings.Pairwise fun f g => f.high ≤ g.low := by
  have nothing {pos stop : Nat} : (∀ f ∈ ([] : List (Filling α)), f.Within r pos stop) ∧
      ([] : List (Filling α)).Pairwise fun f g => f.high ≤ g.low :=
    ⟨fun _ mem => (List.not_mem_nil mem).elim, .nil⟩
  induction reads with
  | literal | space | skipped | absent | regex | nil => exact ⟨[], rfl, nothing⟩
  | taken _ ih => exact ih
  | branch _ _ ih =>
    rw [List.filterMap_append, filled_labelPicks, List.nil_append]
    exact ih
  | @filled after index p pos stop value slot ends fills =>
    obtain ⟨⟨-, starts⟩, ⟨holds, stops⟩, -⟩ := mem_splitPoints.1 ends
    have inside := (bounds_of_mem_splitPoints ends).2
    refine ⟨[⟨index, r.region.skipBlanks pos, stop, value⟩], rfl, fun f mem => ?_, .cons (by simp) .nil⟩
    cases List.mem_singleton.1 mem
    exact ⟨fills, r.region.le_skipBlanks pos, holds, Nat.le_refl stop, inside, starts, stops⟩
  | cons first others ih ih' =>
    obtain ⟨fillings, same, within, ordered⟩ := ih
    obtain ⟨fillings', same', within', ordered'⟩ := ih'
    refine ⟨fillings ++ fillings', ?_, fun f mem => ?_, ?_⟩
    · rw [List.filterMap_append, same, same', List.map_append]
    · rcases List.mem_append.1 mem with mem | mem
      · exact (within f mem).widen (Nat.le_refl _) others.le
      · exact (within' f mem).widen first.le (Nat.le_refl _)
    · refine List.pairwise_append.2 ⟨ordered, ordered', fun f mem g mem' => ?_⟩
      exact Nat.le_trans (within f mem).before (within' g mem').after

/-- The numbers of the placeholders that are filled are among those that are passed. -/
theorem filled_sublist (path : List (Pick α)) :
    ((path.filterMap Pick.filled?).map Prod.fst).Sublist (path.filterMap Pick.slot?) := by
  induction path with
  | nil => exact .slnil
  | cons pick path ih =>
    cases pick with
    | argument index value =>
      cases value with
      | some value => exact ih.cons_cons index
      | none => exact ih.cons index
    | mark | tag | regex => exact ih

/-- A sound pattern has its placeholders in their order, so of two that are filled the one with the smaller
number is filled by the earlier stretch. -/
theorem Reads.filled_in_order (reads : Reads r after r.pattern.root pos stop path)
    (sound : r.pattern.Sound) :
    ∃ fillings : List (Filling α),
      (∀ index value, .argument index (some value) ∈ path →
        ∃ f ∈ fillings, f.index = index ∧ f.value = value) ∧
      (∀ f ∈ fillings, f.Within r pos stop) ∧
      ∀ f ∈ fillings, ∀ g ∈ fillings, f.index < g.index → f.high ≤ g.low := by
  obtain ⟨fillings, same, within, ordered⟩ := reads.fillings
  have increasing : fillings.Pairwise fun f g => f.index < g.index := by
    have passed := (filled_sublist path).trans reads.slots_sublist
    rw [sound.slots, same, List.map_map] at passed
    exact List.pairwise_map.1 (List.pairwise_lt_range.sublist passed)
  refine ⟨fillings, fun index value passed => ?_, within, ?_⟩
  · have mem : (index, value) ∈ fillings.map fun f => (f.index, f.value) := by
      rw [← same]
      exact List.mem_filterMap.2 ⟨_, passed, rfl⟩
    obtain ⟨f, among, same⟩ := List.mem_map.1 mem
    exact ⟨f, among, congrArg Prod.fst same, congrArg Prod.snd same⟩
  · intro f mem g mem' less
    obtain ⟨i, inside, rfl⟩ := List.mem_iff_getElem.1 mem
    obtain ⟨j, inside', rfl⟩ := List.mem_iff_getElem.1 mem'
    rcases Nat.lt_trichotomy i j with before | rfl | behind
    · exact List.pairwise_iff_getElem.1 ordered i j inside inside' before
    · exact absurd less (Nat.lt_irrefl _)
    · exact absurd (List.pairwise_iff_getElem.1 increasing j i inside' inside behind) (Nat.lt_asymm less)

end Phrasebook.Match
