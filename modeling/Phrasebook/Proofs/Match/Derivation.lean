import Phrasebook.Match.Search
import Phrasebook.Proofs.Pattern.Compiled
import Phrasebook.Proofs.Pattern.Layout

/-!
# What it is for a line to match an element tree

A derivation leads through an element tree from one place of the line to another and picks up marks, tags,
arguments and the texts of regexes on its way. `Reads` says which derivations there are, and `Reader.ways`
lists them in the order of a depth-first search: optional parts before leaving them out, branches in their
order, and the ends of a capture in the order of `splitPoints`. `mem_ways` says that both are the same.
-/

namespace Phrasebook.Match
open Text Pattern

/-- What a derivation picks up at one place of the tree. -/
inductive Pick (α : Type) where
  | mark (value : Int64)
  | tag (name : String)
  /-- a placeholder with what fills it, or left out -/
  | argument (index : Nat) (value : Option α)
  | regex (text : String)
deriving Repr

namespace Pick

variable {α : Type}

/-- The mark that is picked up. -/
def mark? : Pick α → Option Int64
  | mark value => some value
  | _ => none

/-- The tag that is picked up. -/
def tag? : Pick α → Option String
  | tag name => some name
  | _ => none

/-- The text that is picked up for a regex. -/
def regex? : Pick α → Option String
  | regex text => some text
  | _ => none

/-- What is captured. -/
def capture? : Pick α → Option (Capture α)
  | mark _ => none
  | tag name => some (.tag name)
  | argument index value => some (.argument index value)
  | regex text => some (.regex text)

/-- The number of the placeholder that is passed. -/
def slot? : Pick α → Option Nat
  | argument index _ => some index
  | _ => none

end Pick

/-- What a label is worth. -/
def labelPicks {α : Type} (label : Label) : List (Pick α) :=
  (label.mark.map Pick.mark).toList ++ (label.tag.map Pick.tag).toList

/-- A line that is read up to a place, and what fills its placeholders. -/
structure Reader (α : Type) where
  pattern : Pattern
  line : Line
  stop : Nat
  isMatch : PatternRegex → List Char → Bool
  /-- what fills a placeholder, by its number and a stretch -/
  fills : Nat → Nat → Nat → Option α

namespace Reader

variable {α : Type}

/-- The part of the line that is read. -/
def region (r : Reader α) : Line :=
  r.line.before r.stop

/-- Nothing but blanks is left from a place on. -/
def AtEnd (r : Reader α) (pos : Nat) : Prop :=
  r.stop ≤ r.region.skipBlanks pos

instance (r : Reader α) (pos : Nat) : Decidable (r.AtEnd pos) :=
  inferInstanceAs (Decidable (_ ≤ _))

/-- The ends of a capture that starts at the first place that is no blank. -/
def endsFrom (r : Reader α) (after : Follow) (pos : Nat) : List Nat :=
  splitPoints r.region after (r.region.skipBlanks pos) r.stop

end Reader

/-- A derivation of an element that stands before something: from one place to another, with what it
picks up. -/
inductive Reads {α : Type} (r : Reader α) :
    Follow → Element → Nat → Nat → List (Pick α) → Prop where
  | literal {after text pos stop} (there : r.region.matchLiteral pos text = some stop) :
    Reads r after (.literal text) pos stop []
  | space {after pos} (apart : r.region.isBoundary (r.region.skipBlanks pos) = true) :
    Reads r after .space pos pos []
  | taken {after inner pos stop path} (inside : Reads r after inner pos stop path) :
    Reads r after (.optional inner) pos stop path
  | skipped {after inner pos} : Reads r after (.optional inner) pos pos []
  | branch {after branches label e pos stop path} (among : (label, e) ∈ branches)
    (inside : Reads r after e pos stop path) :
    Reads r after (.choice branches) pos stop (labelPicks label ++ path)
  | filled {after index p pos stop value} (slot : r.pattern.placeholders[index]? = some p)
    (ends : stop ∈ r.endsFrom after pos)
    (fills : r.fills index (r.region.skipBlanks pos) stop = some value) :
    Reads r after (.placeholder index) pos stop [.argument index (some value)]
  | absent {after index p pos} (slot : r.pattern.placeholders[index]? = some p)
    (nullable : p.nullable = true) :
    Reads r after (.placeholder index) pos pos [.argument index none]
  | regex {after index x pos stop} (slot : r.pattern.regexes[index]? = some x)
    (ends : stop ∈ r.endsFrom after pos)
    (fits : r.isMatch x (r.line.slice (r.region.skipBlanks pos) stop) = true) :
    Reads r after (.regex index) pos stop
      [.regex (String.ofList (r.line.slice (r.region.skipBlanks pos) stop))]
  | nil {after pos} : Reads r after (.sequence []) pos pos []
  | cons {after e rest pos mid stop path path'}
    (first : Reads r (Element.firstOfItems after rest) e pos mid path)
    (others : Reads r after (.sequence rest) mid stop path') :
    Reads r after (.sequence (e :: rest)) pos stop (path ++ path')

/-- A complete match of the pattern from a place on. -/
def Reader.Complete {α : Type} (r : Reader α) (start : Nat) (path : List (Pick α)) : Prop :=
  ∃ stop, Reads r { canEnd := true } r.pattern.root start stop path ∧ r.AtEnd stop

/-- A place at which a derivation stops, and what it picked up. -/
abbrev Arrival (α : Type) := Nat × List (Pick α)

namespace Reader

variable {α : Type}

/-- The ways to read a placeholder, the absent value last. -/
def placeholderWays (r : Reader α) (after : Follow) (pos index : Nat) : List (Arrival α) :=
  match r.pattern.placeholders[index]? with
  | none => []
  | some p =>
    (r.endsFrom after pos).filterMap (fun stop =>
      (r.fills index (r.region.skipBlanks pos) stop).map fun value =>
        (stop, [.argument index (some value)])) ++
    if p.nullable then [(pos, [.argument index none])] else []

/-- The ways to read a regex. -/
def regexWays (r : Reader α) (after : Follow) (pos index : Nat) : List (Arrival α) :=
  match r.pattern.regexes[index]? with
  | none => []
  | some x =>
    (r.endsFrom after pos).filterMap fun stop =>
      let text := r.line.slice (r.region.skipBlanks pos) stop
      if r.isMatch x text then some (stop, [.regex (String.ofList text)]) else none

mutual

/-- The ways to read an element that stands before something, in the order of a depth-first search. -/
def ways (r : Reader α) (after : Follow) (pos : Nat) : Element → List (Arrival α)
  | .literal text => ((r.region.matchLiteral pos text).map fun stop => (stop, [])).toList
  | .space => if r.region.isBoundary (r.region.skipBlanks pos) then [(pos, [])] else []
  | .optional inner => r.ways after pos inner ++ [(pos, [])]
  | .choice branches => r.waysOfBranches after pos branches
  | .placeholder index => r.placeholderWays after pos index
  | .regex index => r.regexWays after pos index
  | .sequence items => r.waysOfItems after pos items

/-- The ways to read the elements of a sequence one after the other. -/
def waysOfItems (r : Reader α) (after : Follow) (pos : Nat) : List Element → List (Arrival α)
  | [] => [(pos, [])]
  | e :: rest =>
    (r.ways (Element.firstOfItems after rest) pos e).flatMap fun (mid, path) =>
      (r.waysOfItems after mid rest).map fun (stop, path') => (stop, path ++ path')

/-- The ways to read one of several branches. -/
def waysOfBranches (r : Reader α) (after : Follow) (pos : Nat) :
    List (Label × Element) → List (Arrival α)
  | [] => []
  | (label, e) :: rest =>
    (r.ways after pos e).map (fun (stop, path) => (stop, labelPicks label ++ path)) ++
      r.waysOfBranches after pos rest

end

/-- The complete matches of the pattern from a place on, in the order of a depth-first search. -/
def completeWays (r : Reader α) (start : Nat) : List (List (Pick α)) :=
  ((r.ways { canEnd := true } start r.pattern.root).filter fun way => r.AtEnd way.1).map (·.2)

section Membership

variable {r : Reader α}

theorem mem_placeholderWays {after : Follow} {pos index stop : Nat} {path : List (Pick α)} :
    (stop, path) ∈ r.placeholderWays after pos index ↔
      Reads r after (.placeholder index) pos stop path := by
  unfold placeholderWays
  constructor
  · intro h
    split at h
    · cases h
    next p slot =>
    rcases List.mem_append.1 h with h | h
    · obtain ⟨end_, ends, h⟩ := List.mem_filterMap.1 h
      obtain ⟨value, fills, same⟩ := Option.map_eq_some_iff.1 h
      cases same
      exact .filled slot ends fills
    · split at h
      next nullable =>
        cases List.mem_singleton.1 h
        exact .absent slot nullable
      · cases h
  · intro h
    cases h with
    | filled slot ends fills =>
      simp only [slot]
      exact List.mem_append_left _ (List.mem_filterMap.2 ⟨_, ends, by rw [fills]; rfl⟩)
    | absent slot nullable =>
      simp only [slot]
      exact List.mem_append_right _ (by simp [nullable])

theorem mem_regexWays {after : Follow} {pos index stop : Nat} {path : List (Pick α)} :
    (stop, path) ∈ r.regexWays after pos index ↔ Reads r after (.regex index) pos stop path := by
  unfold regexWays
  constructor
  · intro h
    split at h
    · cases h
    next x slot =>
    obtain ⟨end_, ends, h⟩ := List.mem_filterMap.1 h
    dsimp only at h
    split at h
    next fits =>
      cases h
      exact .regex slot ends fits
    · cases h
  · intro h
    cases h with
    | regex slot ends fits =>
      simp only [slot]
      exact List.mem_filterMap.2 ⟨_, ends, if_pos fits⟩

mutual

/-- **The ways in the list are the derivations.** -/
theorem mem_ways {after : Follow} {pos stop : Nat} {path : List (Pick α)} :
    (e : Element) → ((stop, path) ∈ r.ways after pos e ↔ Reads r after e pos stop path)
  | .literal text => by
    rw [ways]
    constructor
    · intro h
      simp only [Option.mem_toList, Option.map_eq_some_iff] at h
      obtain ⟨stop, there, same⟩ := h
      cases same
      exact .literal there
    · rintro (there | _)
      simp [there]
  | .space => by
    rw [ways]
    constructor
    · intro h
      split at h
      next apart =>
        cases List.mem_singleton.1 h
        exact .space apart
      · cases h
    · intro h
      cases h with
      | space apart => simp [apart]
  | .optional inner => by
    rw [ways, List.mem_append, mem_ways inner, List.mem_singleton]
    constructor
    · rintro (inside | same)
      · exact .taken inside
      · cases same
        exact .skipped
    · intro h
      cases h with
      | taken inside => exact .inl inside
      | skipped => exact .inr rfl
  | .choice branches => by
    rw [ways, mem_waysOfBranches branches]
    constructor
    · rintro ⟨label, e, among, path, inside, rfl⟩
      exact .branch among inside
    · intro h
      cases h with
      | branch among inside => exact ⟨_, _, among, _, inside, rfl⟩
  | .placeholder index => by rw [ways, mem_placeholderWays]
  | .regex index => by rw [ways, mem_regexWays]
  | .sequence items => by rw [ways, mem_waysOfItems items]

theorem mem_waysOfItems {after : Follow} {pos stop : Nat} {path : List (Pick α)} :
    (items : List Element) →
      ((stop, path) ∈ r.waysOfItems after pos items ↔ Reads r after (.sequence items) pos stop path)
  | [] => by
    rw [waysOfItems, List.mem_singleton]
    constructor
    · intro same
      cases same
      exact .nil
    · intro h
      cases h
      rfl
  | e :: rest => by
    rw [waysOfItems, List.mem_flatMap]
    constructor
    · rintro ⟨⟨mid, path⟩, first, h⟩
      obtain ⟨⟨stop, path'⟩, others, same⟩ := List.mem_map.1 h
      cases same
      exact .cons ((mem_ways e).1 first) ((mem_waysOfItems rest).1 others)
    · intro h
      cases h with
      | cons first others =>
        exact ⟨_, (mem_ways e).2 first, List.mem_map.2 ⟨_, (mem_waysOfItems rest).2 others, rfl⟩⟩

theorem mem_waysOfBranches {after : Follow} {pos stop : Nat} {path : List (Pick α)} :
    (branches : List (Label × Element)) →
      ((stop, path) ∈ r.waysOfBranches after pos branches ↔
        ∃ label e, (label, e) ∈ branches ∧ ∃ path', Reads r after e pos stop path' ∧
          path = labelPicks label ++ path')
  | [] => by simp [waysOfBranches]
  | (label, e) :: rest => by
    rw [waysOfBranches, List.mem_append, mem_waysOfBranches rest]
    constructor
    · rintro (h | ⟨label, e, among, inside⟩)
      · obtain ⟨⟨stop, path'⟩, inside, same⟩ := List.mem_map.1 h
        cases same
        exact ⟨_, _, List.mem_cons_self, _, (mem_ways e).1 inside, rfl⟩
      · exact ⟨_, _, List.mem_cons_of_mem _ among, inside⟩
    · rintro ⟨label, e, among, path', inside, rfl⟩
      rcases List.mem_cons.1 among with same | among
      · cases same
        exact .inl (List.mem_map.2 ⟨_, (mem_ways e).2 inside, rfl⟩)
      · exact .inr ⟨_, _, among, _, inside, rfl⟩

end

/-- The complete matches in the list are all complete matches. -/
theorem mem_completeWays {start : Nat} {path : List (Pick α)} :
    path ∈ r.completeWays start ↔ r.Complete start path := by
  simp only [completeWays, List.mem_map, List.mem_filter, decide_eq_true_eq]
  constructor
  · rintro ⟨⟨stop, path⟩, ⟨inside, atEnd⟩, rfl⟩
    exact ⟨stop, (mem_ways _).1 inside, atEnd⟩
  · rintro ⟨stop, reads, atEnd⟩
    exact ⟨(stop, path), ⟨(mem_ways _).2 reads, atEnd⟩, rfl⟩

end Membership

end Reader

end Phrasebook.Match
