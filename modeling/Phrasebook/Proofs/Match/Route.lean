import Phrasebook.Proofs.Match.Complete

/-!
# The route of a match through its tree

A route says which branches of a tree were taken and which placeholders were left out with the optional
parts and branches that were not. Every derivation has one, and a match reports the labels on it.
-/

namespace Phrasebook.Match
open Text Pattern

variable {α : Type}

/-- A route through an element: the labels of the branches that are taken, and the placeholders within
optional parts and branches that are not. -/
inductive Route : Element → List Label → List Nat → Prop where
  | literal {text} : Route (.literal text) [] []
  | space : Route .space [] []
  | placeholder {index} : Route (.placeholder index) [] []
  | regex {index} : Route (.regex index) [] []
  | taken {inner labels left} (inside : Route inner labels left) :
    Route (.optional inner) labels left
  | skipped {inner} : Route (.optional inner) [] inner.slots
  | branch {before label e behind labels left} (inside : Route e labels left) :
    Route (.choice (before ++ (label, e) :: behind)) (label :: labels)
      (Element.slotsOfBranches before ++ left ++ Element.slotsOfBranches behind)
  | nil : Route (.sequence []) [] []
  | cons {e rest labels labels' left left'} (first : Route e labels left)
    (others : Route (.sequence rest) labels' left') :
    Route (.sequence (e :: rest)) (labels ++ labels') (left ++ left')

/-- A route through an element and what a derivation picks up on it. -/
structure Follows (e : Element) (path : List (Pick α)) (labels : List Label) (left : List Nat) :
    Prop where
  route : Route e labels left
  marks : path.filterMap Pick.mark? = labels.filterMap Label.mark
  tags : path.filterMap Pick.tag? = labels.filterMap Label.tag
  slots : ∀ index ∈ e.slots, index ∈ path.filterMap Pick.slot? ∨ index ∈ left

@[simp] theorem marks_labelPicks (label : Label) :
    (labelPicks (α := α) label).filterMap Pick.mark? = [label].filterMap Label.mark := by
  obtain ⟨mark, tag⟩ := label
  cases mark <;> cases tag <;> rfl

@[simp] theorem tags_labelPicks (label : Label) :
    (labelPicks (α := α) label).filterMap Pick.tag? = [label].filterMap Label.tag := by
  obtain ⟨mark, tag⟩ := label
  cases mark <;> cases tag <;> rfl

/-- **Every derivation follows a route.** -/
theorem Reads.follows {r : Reader α} {after : Follow} {e : Element} {pos stop : Nat}
    {path : List (Pick α)} (reads : Reads r after e pos stop path) :
    ∃ labels left, Follows e path labels left := by
  have nothing {P : Nat → Prop} : ∀ index ∈ ([] : List Nat), P index :=
    fun _ mem => (List.not_mem_nil mem).elim
  induction reads with
  | literal => exact ⟨[], [], .literal, rfl, rfl, nothing⟩
  | space => exact ⟨[], [], .space, rfl, rfl, nothing⟩
  | skipped => exact ⟨[], _, .skipped, rfl, rfl, fun _ h => .inr h⟩
  | taken _ ih =>
    obtain ⟨labels, left, follows⟩ := ih
    exact ⟨labels, left, .taken follows.route, follows.marks, follows.tags, follows.slots⟩
  | @branch _ branches label e _ _ path among _ ih =>
    obtain ⟨labels, left, follows⟩ := ih
    obtain ⟨before, behind, rfl⟩ := List.append_of_mem among
    refine ⟨label :: labels, _, .branch follows.route, ?_, ?_, ?_⟩
    · rw [List.filterMap_append, marks_labelPicks, follows.marks, ← List.filterMap_append]
      rfl
    · rw [List.filterMap_append, tags_labelPicks, follows.tags, ← List.filterMap_append]
      rfl
    · intro index inside
      simp only [Element.slots, Element.slotsOfBranches_append, Element.slotsOfBranches,
        List.mem_append] at inside
      rw [List.filterMap_append, slots_labelPicks, List.nil_append]
      simp only [List.mem_append]
      rcases inside with inside | inside | inside
      · exact .inr (.inl (.inl inside))
      · rcases follows.slots index inside with passed | left
        · exact .inl passed
        · exact .inr (.inl (.inr left))
      · exact .inr (.inr inside)
  | filled | absent =>
    exact ⟨[], [], .placeholder, rfl, rfl, fun _ h => .inl (by simpa [Element.slots, Pick.slot?] using h)⟩
  | regex => exact ⟨[], [], .regex, rfl, rfl, nothing⟩
  | nil => exact ⟨[], [], .nil, rfl, rfl, nothing⟩
  | cons _ _ ih ih' =>
    obtain ⟨labels, left, follows⟩ := ih
    obtain ⟨labels', left', follows'⟩ := ih'
    refine ⟨labels ++ labels', left ++ left', .cons follows.route follows'.route, ?_, ?_, ?_⟩
    · rw [List.filterMap_append, List.filterMap_append, follows.marks, follows'.marks]
    · rw [List.filterMap_append, List.filterMap_append, follows.tags, follows'.tags]
    · intro index inside
      rw [List.filterMap_append, List.mem_append, List.mem_append]
      simp only [Element.slots, Element.slotsOfItems, List.mem_append] at inside
      rcases inside with inside | inside
      · rcases follows.slots index inside with passed | left
        · exact .inl (.inl passed)
        · exact .inr (.inl left)
      · rcases follows'.slots index inside with passed | left
        · exact .inl (.inr passed)
        · exact .inr (.inr left)

/-- What a reader has for a placeholder: something fills it, or it may stay empty. -/
def Reader.Supplies (r : Reader α) (index : Nat) (p : Placeholder) : Option α → Prop
  | some value => ∃ start stop, r.fills index start stop = some value
  | none => p.nullable = true

/-- Where a derivation passes a placeholder, the reader supplies it. -/
theorem Reads.argument {r : Reader α} {after : Follow} {e : Element} {pos stop : Nat}
    {path : List (Pick α)} (reads : Reads r after e pos stop path) {index : Nat} {value : Option α}
    (passed : .argument index value ∈ path) :
    ∃ p, r.pattern.placeholders[index]? = some p ∧ r.Supplies index p value := by
  induction reads with
  | literal | space | skipped | nil => cases passed
  | regex =>
    cases List.mem_singleton.1 passed
  | taken _ ih => exact ih passed
  | @branch _ _ label _ _ _ _ _ _ ih =>
    rcases List.mem_append.1 passed with here | inside
    · obtain ⟨mark, tag⟩ := label
      cases mark <;> cases tag <;> simp [labelPicks] at here
    · exact ih inside
  | filled slot _ fills =>
    cases List.mem_singleton.1 passed
    exact ⟨_, slot, _, _, fills⟩
  | absent slot nullable =>
    cases List.mem_singleton.1 passed
    exact ⟨_, slot, nullable⟩
  | cons _ _ ih ih' =>
    rcases List.mem_append.1 passed with here | behind
    · exact ih here
    · exact ih' behind

end Phrasebook.Match
