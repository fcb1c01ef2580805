import Phrasebook.Pattern

/-!
# What every compiled pattern keeps to

The tree of a pattern that compiles has the placeholders of the pattern from left to right in the order of
their numbers, each of them once, no choice without a branch and no literal without text. The invariant,
`Reading.Sound`, holds of the open groups while the tokens are read; `compile_sound` is the result.
-/

namespace Phrasebook.Pattern
open Text

namespace Element

mutual

/-- The numbers of the placeholders of an element, from left to right. -/
def slots : Element → List Nat
  | literal _ | space | regex _ => []
  | placeholder index => [index]
  | optional inner => inner.slots
  | choice branches => slotsOfBranches branches
  | sequence items => slotsOfItems items

/-- The numbers of the placeholders of a sequence. -/
def slotsOfItems : List Element → List Nat
  | [] => []
  | e :: rest => e.slots ++ slotsOfItems rest

/-- The numbers of the placeholders of the branches of a choice. -/
def slotsOfBranches : List (Label × Element) → List Nat
  | [] => []
  | (_, e) :: rest => e.slots ++ slotsOfBranches rest

end

mutual

/-- No choice within an element is without a branch, and no literal is empty. -/
def WellFormed : Element → Prop
  | literal text => text ≠ []
  | space | placeholder _ | regex _ => True
  | optional inner => inner.WellFormed
  | choice branches => branches ≠ [] ∧ WellFormedBranches branches
  | sequence items => WellFormedItems items

/-- All elements of a sequence are well-formed. -/
def WellFormedItems : List Element → Prop
  | [] => True
  | e :: rest => e.WellFormed ∧ WellFormedItems rest

/-- All branches of a choice are well-formed. -/
def WellFormedBranches : List (Label × Element) → Prop
  | [] => True
  | (_, e) :: rest => e.WellFormed ∧ WellFormedBranches rest

end

@[simp] theorem slotsOfItems_append (a b : List Element) :
    slotsOfItems (a ++ b) = slotsOfItems a ++ slotsOfItems b := by
  induction a with
  | nil => rfl
  | cons e a ih => simp only [List.cons_append, slotsOfItems, ih, List.append_assoc]

@[simp] theorem slotsOfBranches_append (a b : List (Label × Element)) :
    slotsOfBranches (a ++ b) = slotsOfBranches a ++ slotsOfBranches b := by
  induction a with
  | nil => rfl
  | cons e a ih => simp only [List.cons_append, slotsOfBranches, ih, List.append_assoc]

@[simp] theorem wellFormedItems_append {a b : List Element} :
    WellFormedItems (a ++ b) ↔ WellFormedItems a ∧ WellFormedItems b := by
  induction a with
  | nil => simp [WellFormedItems]
  | cons e a ih => simp only [List.cons_append, WellFormedItems, ih, and_assoc]

@[simp] theorem wellFormedBranches_append {a b : List (Label × Element)} :
    WellFormedBranches (a ++ b) ↔ WellFormedBranches a ∧ WellFormedBranches b := by
  induction a with
  | nil => simp [WellFormedBranches]
  | cons e a ih => simp only [List.cons_append, WellFormedBranches, ih, and_assoc]

/-- A label holds no literal. -/
theorem lit_notMem_label {text : List Char} (label : Label) : Instr.lit text ∉ label.code := by
  obtain ⟨mark, tag⟩ := label
  cases mark <;> cases tag <;> simp [Label.code]

mutual

/-- The literals in the code of a well-formed element are not empty. -/
theorem ne_nil_of_lit_mem {text : List Char} {start : Nat} :
    (e : Element) → e.WellFormed → Instr.lit text ∈ e.code start → text ≠ []
  | literal _, wellFormed, mem => by
    obtain rfl : text = _ := by simpa [code] using mem
    exact wellFormed
  | space, _, mem | placeholder _, _, mem | regex _, _, mem => by simp [code] at mem
  | optional inner, wellFormed, mem => by
    have mem : Instr.lit text ∈ inner.code (start + 1) := by simpa [code] using mem
    exact ne_nil_of_lit_mem inner wellFormed mem
  | choice branches, wellFormed, mem => by
    rw [code] at mem
    exact ne_nil_of_lit_mem_branches branches wellFormed.2 mem
  | sequence items, wellFormed, mem => by
    rw [code] at mem
    exact ne_nil_of_lit_mem_items items wellFormed mem

theorem ne_nil_of_lit_mem_items {text : List Char} {start : Nat} :
    (items : List Element) → WellFormedItems items → Instr.lit text ∈ itemsCode start items →
      text ≠ []
  | [], _, mem => by simp [itemsCode] at mem
  | e :: rest, wellFormed, mem => by
    rw [itemsCode, List.mem_append] at mem
    rcases mem with mem | mem
    · exact ne_nil_of_lit_mem e wellFormed.1 mem
    · exact ne_nil_of_lit_mem_items rest wellFormed.2 mem

theorem ne_nil_of_lit_mem_branches {text : List Char} {start goal : Nat} :
    (branches : List (Label × Element)) → WellFormedBranches branches →
      Instr.lit text ∈ branchesCode start goal branches → text ≠ []
  | [], _, mem => by simp [branchesCode] at mem
  | [(label, e)], wellFormed, mem => by
    rw [branchesCode, List.mem_append] at mem
    rcases mem with mem | mem
    · exact absurd mem (lit_notMem_label label)
    · exact ne_nil_of_lit_mem e wellFormed.1 mem
  | (label, e) :: b :: rest, wellFormed, mem => by
    simp only [branchesCode, List.mem_cons, List.mem_append, reduceCtorEq, false_or] at mem
    rcases mem with (mem | mem) | mem
    · exact absurd mem (lit_notMem_label label)
    · exact ne_nil_of_lit_mem e wellFormed.1 mem
    · exact ne_nil_of_lit_mem_branches (b :: rest) wellFormed.2 mem

end

theorem slots_ofBranches (branches : List (Label × Element)) :
    (ofBranches branches).slots = slotsOfBranches branches := by
  unfold ofBranches
  split
  · split <;> simp [slots, slotsOfBranches]
  · rw [slots]

theorem wellFormed_ofBranches {branches : List (Label × Element)} (some : branches ≠ [])
    (wellFormed : WellFormedBranches branches) : (ofBranches branches).WellFormed := by
  unfold ofBranches
  split
  · split
    · exact wellFormed.1
    · exact ⟨some, wellFormed⟩
  · exact ⟨some, wellFormed⟩

end Element

open Element

namespace Branch

/-- A word boundary is no placeholder and no choice. -/
theorem slotsOfItems_gap (c : Prop) [Decidable c] :
    slotsOfItems (if c then [.space] else []) = [] := by
  split <;> rfl

theorem wellFormedItems_gap (c : Prop) [Decidable c] :
    WellFormedItems (if c then [.space] else []) := by
  split <;> simp [WellFormedItems, WellFormed]

@[simp] theorem slots_push (b : Branch) (e : Element) :
    slotsOfItems (b.push e).items = slotsOfItems b.items ++ e.slots := by
  simp [push, slotsOfItems_gap, slotsOfItems]

@[simp] theorem slots_flush (b : Branch) : slotsOfItems b.flush.items = slotsOfItems b.items := by
  unfold flush
  dsimp only
  split
  · rfl
  · simp [slots]

@[simp] theorem slots_finish (b : Branch) : b.finish.2.slots = slotsOfItems b.items := by
  simp [finish, slots, slotsOfItems_gap]

@[simp] theorem nested_flush (b : Branch) : b.flush.nested = b.nested := by
  unfold flush
  dsimp only
  split <;> rfl

theorem nested_addBlank (b : Branch) : b.addBlank.nested = b.nested := by
  unfold addBlank
  split
  · rfl
  · split <;> rfl

theorem items_addBlank (b : Branch) : b.addBlank.items = b.items := by
  unfold addBlank
  split
  · rfl
  · split <;> rfl

theorem wellFormed_push {b : Branch} {e : Element} (h : WellFormedItems b.items) (he : e.WellFormed) :
    WellFormedItems (b.push e).items := by
  simp [push, wellFormedItems_gap, WellFormedItems, h, he]

theorem wellFormed_flush {b : Branch} (h : WellFormedItems b.items) : WellFormedItems b.flush.items := by
  unfold flush
  dsimp only
  split
  · exact h
  next text => exact wellFormed_push h fun empty => text (List.isEmpty_iff.2 empty)

theorem wellFormed_finish {b : Branch} (h : WellFormedItems b.items) : b.finish.2.WellFormed := by
  simp [finish, WellFormed, wellFormedItems_gap, wellFormed_flush h]

end Branch

namespace Group

/-- The numbers of the placeholders in a group that is open. -/
def slots (g : Group) : List Nat :=
  slotsOfBranches g.done ++ slotsOfItems g.branch.items

/-- What is in a group that is open is well-formed, and a group of blanks holds no placeholder. Its branches are
nested unless no bracket opened it. -/
structure Sound (g : Group) : Prop where
  nested : g.branch.nested = g.opener.isSome
  done : WellFormedBranches g.done
  items : WellFormedItems g.branch.items
  blank : g.isBlank = true → g.slots = []

theorem slots_branches (g : Group) : slotsOfBranches g.branches = g.slots := by
  simp [branches, slots, slotsOfBranches]

theorem Sound.branches {g : Group} (sound : g.Sound) : WellFormedBranches g.branches := by
  simp only [Group.branches, wellFormedBranches_append]
  exact ⟨sound.done, Branch.wellFormed_finish sound.items, trivial⟩

theorem branches_ne_nil (g : Group) : g.branches ≠ [] := by
  simp [branches]

theorem sound_start (opener : Option (Bracket × Nat)) : (start opener).Sound :=
  ⟨rfl, trivial, trivial, fun _ => rfl⟩

/-- A change of the present branch that adds so many placeholders, and none if only blanks were read. -/
theorem Sound.change {g : Group} (sound : g.Sound) (f : Branch → Branch) (blank : Bool)
    (new : List Nat) (nested : (f g.branch).nested = g.branch.nested)
    (items : WellFormedItems (f g.branch).items)
    (slots : slotsOfItems (f g.branch).items = slotsOfItems g.branch.items ++ new)
    (none : blank = true → new = []) :
    ((g.touched blank).onBranch f).Sound ∧ ((g.touched blank).onBranch f).slots = g.slots ++ new := by
  have longer : ((g.touched blank).onBranch f).slots = g.slots ++ new := by
    simp [Group.slots, onBranch, touched, slots]
  refine ⟨⟨nested.trans sound.nested, sound.done, items, fun isBlank => ?_⟩, longer⟩
  simp only [onBranch, touched, Bool.and_eq_true] at isBlank
  rw [longer, sound.blank isBlank.1, none isBlank.2]
  rfl

theorem Sound.nextBranch {g : Group} (sound : g.Sound) :
    (g.touched false).nextBranch.Sound ∧ (g.touched false).nextBranch.slots = g.slots := by
  refine ⟨⟨sound.nested, sound.branches, trivial, fun isBlank => ?_⟩, ?_⟩
  · simp [touched, Group.nextBranch] at isBlank
  · rw [← g.slots_branches]
    simp only [Group.nextBranch, Group.slots, slotsOfItems, List.append_nil]
    rfl

end Group

namespace Reading

/-- The numbers of the placeholders that were read, the open groups from the outside in. -/
def slots (r : Reading) : List Nat :=
  r.outer.reverse.flatMap Group.slots ++ r.group.slots

/-- What opened the groups, from the inside out. -/
def openers (r : Reading) : List (Option (Bracket × Nat)) :=
  (r.group :: r.outer).map Group.opener

/-- What holds while tokens are read: the placeholders in the open groups are those that were counted,
every placeholder knows its number, and only the outermost group was opened by no bracket. -/
structure Sound (r : Reading) : Prop where
  slots : r.slots = List.range r.placeholders.length
  numbered : r.placeholders.map Placeholder.index = List.range r.placeholders.length
  group : r.group.Sound
  outer : ∀ g ∈ r.outer, g.Sound
  opened : ∀ opener ∈ r.openers.dropLast, opener ≠ none

theorem sound_start : start.Sound :=
  ⟨rfl, rfl, Group.sound_start none, by simp [start], by simp [start, openers]⟩

/-- A reading that goes on in the innermost group and counts the placeholders that it adds. -/
theorem Sound.change {r : Reading} (sound : r.Sound) {group : Group} (new : List Placeholder)
    (regexes : List PatternRegex) (lastStop : Option Nat) (groupSound : group.Sound)
    (opener : group.opener = r.group.opener)
    (slots : group.slots = r.group.slots ++ new.map Placeholder.index)
    (numbered : new.map Placeholder.index = List.range' r.placeholders.length new.length) :
    Sound { r with group, placeholders := r.placeholders ++ new, regexes, lastStop } := by
  have counted : List.range r.placeholders.length ++ new.map Placeholder.index =
      List.range (r.placeholders ++ new).length := by
    have joined := @List.range'_append_1 0 r.placeholders.length new.length
    rwa [Nat.zero_add, ← List.range_eq_range', ← List.range_eq_range', ← numbered,
      ← List.length_append] at joined
  refine ⟨?_, ?_, groupSound, sound.outer, ?_⟩
  · rw [← counted, ← sound.slots]
    simp [Reading.slots, slots]
  · rw [← counted, ← sound.numbered, List.map_append]
  · simpa [openers, opener] using sound.opened

/-- A reading that goes on in the innermost group without a placeholder. -/
theorem Sound.keep {r : Reading} (sound : r.Sound) {group : Group} (groupSound : group.Sound)
    (opener : group.opener = r.group.opener) (slots : group.slots = r.group.slots) :
    Sound { r with group } := by
  have kept := sound.change [] r.regexes r.lastStop groupSound opener (by simpa using slots) rfl
  rwa [List.append_nil] at kept

/-- A placeholder is made of its number, its place, its flags and its types. -/
theorem eq_of_placeholderOf {resolve : String → Option PatternType} {index offset : Nat} {body : List Char}
    {p : Placeholder} (h : placeholderOf resolve index offset body = .ok p) :
    ∃ f names types, takeFlags {} (trimStart body) = .ok (f, names) ∧
      p = { index, types, nullable := f.nullable, acceptance := f.acceptance, conditions := f.conditions, offset,
            text := ['%'] ++ body ++ ['%'] } := by
  unfold placeholderOf at h
  cases flags : takeFlags {} (trimStart body) with
  | error => simp [flags, bind, Except.bind] at h
  | ok found =>
    simp only [flags, bind, Except.bind] at h
    split at h
    · cases h
    · split at h
      · cases h
      · cases h
        exact ⟨found.1, found.2, _, rfl, rfl⟩

/-- A placeholder knows the number that it was read with. -/
theorem index_placeholderOf {resolve : String → Option PatternType} {index offset : Nat}
    {body : List Char} {p : Placeholder}
    (h : placeholderOf resolve index offset body = .ok p) : p.index = index := by
  obtain ⟨_, _, _, -, rfl⟩ := eq_of_placeholderOf h
  rfl

/-- One more capture in the present branch. -/
theorem Sound.item {r : Reading} (sound : r.Sound) (e : Element) (wellFormed : e.WellFormed) :
    ((r.group.touched false).onBranch fun b => b.flush.push e).Sound ∧
      ((r.group.touched false).onBranch fun b => b.flush.push e).slots = r.group.slots ++ e.slots :=
  sound.group.change _ false e.slots (Branch.nested_flush _)
    (Branch.wellFormed_push (Branch.wellFormed_flush sound.group.items) wellFormed) (by simp) (by simp)

theorem addCapture_sound {r r' : Reading} {resolve : String → Option PatternType}
    {offset : Nat} {kind : CaptureKind} {body : List Char} {stop : Nat} (sound : r.Sound)
    (h : r.addCapture resolve offset kind body stop = .ok r') : r'.Sound := by
  unfold addCapture at h
  split at h
  · cases h
  cases kind with
  | placeholder =>
    dsimp only at h
    split at h
    · cases h
    next p read =>
      cases h
      have index := index_placeholderOf read
      obtain ⟨item, slots⟩ := sound.item (.placeholder p.index) trivial
      exact sound.change [p] r.regexes (some stop) item rfl slots (by simp [index])
  | regex =>
    dsimp only at h
    split at h
    · cases h
    next x read =>
      cases h
      obtain ⟨item, slots⟩ := sound.item (.regex r.regexes.length) trivial
      have read := sound.change [] (r.regexes ++ [x]) (some stop) item rfl slots rfl
      rwa [List.append_nil] at read

/-- The reading after the innermost group was closed, and the one around it goes on. -/
theorem Sound.leave {r : Reading} (sound : r.Sound) {parent group : Group} {outer : List Group}
    (around : r.outer = parent :: outer) (groupSound : group.Sound)
    (opener : group.opener = parent.opener) (slots : group.slots = parent.slots ++ r.group.slots) :
    Sound { r with group, outer } := by
  refine ⟨?_, sound.numbered, groupSound, fun g inside => ?_, ?_⟩
  · rw [← sound.slots]
    simp [Reading.slots, around, slots]
  · exact sound.outer g (by simp [around, inside])
  · intro o inside
    refine sound.opened o ?_
    simp only [openers, around, List.map_cons, List.dropLast_cons_cons, List.mem_cons]
    exact .inr (by simpa [openers, opener] using inside)

theorem close_sound {r r' : Reading} {bracket : Bracket} {offset : Nat} (sound : r.Sound)
    (h : r.close bracket offset = .ok r') : r'.Sound := by
  unfold close at h
  split at h
  next opened at_ parent outer opener around =>
    have parentSound : parent.Sound := sound.outer parent (by simp [around])
    -- a group that is not blank becomes an item of its parent
    have place (e : Element) (wellFormed : e.WellFormed) (slots : e.slots = r.group.slots) :
        Sound { r with group := (parent.touched false).onBranch fun b => b.push e, outer } := by
      obtain ⟨item, itemSlots⟩ := parentSound.change (fun b => b.push e) false e.slots rfl
        (Branch.wellFormed_push parentSound.items wellFormed) (Branch.slots_push _ e) (by simp)
      exact sound.leave around item rfl (by rw [itemSlots, slots])
    dsimp only at h
    split at h
    · cases h
    split at h
    next isBlank =>
      split at h
      · cases h
        obtain ⟨kept, same⟩ := parentSound.change id false [] rfl parentSound.items (by simp) (by simp)
        refine sound.leave around kept rfl ?_
        rw [sound.group.blank isBlank]
        exact same
      · cases h
    next =>
      cases bracket with
      | square =>
        cases h
        refine place _ (wellFormed_ofBranches (Group.branches_ne_nil _) sound.group.branches) ?_
        rw [Element.slots, slots_ofBranches, Group.slots_branches]
      | round =>
        cases h
        refine place _ ⟨Group.branches_ne_nil _, sound.group.branches⟩ ?_
        rw [Element.slots, Group.slots_branches]
  · cases h

/-- A reading that changes the present branch, but none of its items. -/
theorem Sound.onBranch {r : Reading} (sound : r.Sound) (blank : Bool) {f : Branch → Branch}
    (nested : (f r.group.branch).nested = r.group.branch.nested)
    (same : (f r.group.branch).items = r.group.branch.items) : (r.onBranch blank f).Sound := by
  obtain ⟨kept, slots⟩ := sound.group.change f blank [] nested (by rw [same]; exact sound.group.items)
    (by simp [same]) (by simp)
  exact sound.keep kept rfl (by simpa using slots)

/-- The reading inside a group that was just opened. -/
theorem Sound.open_ {r : Reading} (sound : r.Sound) (opener : Bracket × Nat) :
    Sound { r with
      group := .start (some opener)
      outer := (r.group.touched false).onBranch Branch.flush :: r.outer } := by
  obtain ⟨kept, slots⟩ := sound.group.change Branch.flush false [] (Branch.nested_flush _)
    (Branch.wellFormed_flush sound.group.items) (by simp) (by simp)
  refine ⟨?_, sound.numbered, Group.sound_start _, ?_, ?_⟩
  · rw [← sound.slots]
    simp only [Reading.slots, List.reverse_cons, List.flatMap_append, List.flatMap_cons,
      List.flatMap_nil, List.append_nil, slots]
    exact List.append_nil _
  · intro g inside
    rcases List.mem_cons.1 inside with rfl | inside
    · exact kept
    · exact sound.outer g inside
  · intro o inside
    simp only [openers, List.map_cons, List.dropLast_cons_cons, List.mem_cons] at inside
    rcases inside with rfl | inside
    · simp [Group.start]
    · exact sound.opened o inside

/-- Every token keeps the invariant. -/
theorem next_sound {resolve : String → Option PatternType} {r r' : Reading} {t : Located}
    (sound : r.Sound) (h : r.next resolve t = .ok r') : r'.Sound := by
  unfold next at h
  split at h
  next => cases h; exact sound.onBranch _ rfl rfl
  next => cases h; exact sound.onBranch _ (Branch.nested_addBlank _) (Branch.items_addBlank _)
  next => cases h; exact sound.onBranch _ rfl rfl
  next => cases h; exact sound.keep sound.group.nextBranch.1 rfl sound.group.nextBranch.2
  next => cases h; exact sound.open_ _
  next => exact close_sound sound h
  next => exact addCapture_sound sound h
  next => split at h <;> cases h
  next => cases h

/-- A group that no bracket opened is the outermost. -/
theorem Sound.outermost {r : Reading} (sound : r.Sound) (closed : r.group.opener = none) : r.outer = [] := by
  cases around : r.outer with
  | nil => rfl
  | cons parent outer => exact absurd closed (sound.opened _ (by simp [openers, around]))

/-- The tree that is read to the end holds the placeholders in their order. -/
theorem finish_sound {r : Reading} {root : Element} (sound : r.Sound)
    (h : r.finish = .ok root) :
    root.WellFormed ∧ root.slots = List.range r.placeholders.length := by
  unfold finish at h
  split at h
  · cases h
  next closed =>
  have outermost := sound.outermost closed
  split at h
  · cases h
  · cases h
    refine ⟨wellFormed_ofBranches (Group.branches_ne_nil _) sound.group.branches, ?_⟩
    rw [slots_ofBranches, Group.slots_branches, ← sound.slots]
    simp [Reading.slots, outermost]

end Reading

/-- The first token is read, and then the others. -/
theorem readAll_cons {resolve : String → Option PatternType} {r r' : Reading} {t : Located} {ts : List Located}
    (h : readAll resolve r (t :: ts) = .ok r') :
    ∃ next, r.next resolve t = .ok next ∧ readAll resolve next ts = .ok r' := by
  rw [readAll] at h
  cases step : r.next resolve t with
  | error => simp [step, bind, Except.bind] at h
  | ok next => exact ⟨next, rfl, by simpa [step, bind, Except.bind] using h⟩

/-- The tokens keep the invariant. -/
theorem readAll_sound {resolve : String → Option PatternType} {r r' : Reading} {ts : List Located}
    (sound : r.Sound) (h : readAll resolve r ts = .ok r') : r'.Sound := by
  induction ts generalizing r with
  | nil =>
    cases h
    exact sound
  | cons t ts ih =>
    obtain ⟨next, step, h⟩ := readAll_cons h
    exact ih (Reading.next_sound sound step) h

/-- What holds of a pattern that compiles: the program is that of its tree, the tree is well-formed, and
the placeholders stand in it in the order of their numbers. -/
structure Sound (p : Pattern) : Prop where
  program : p.program = (programOf p.root).toArray
  wellFormed : p.root.WellFormed
  slots : p.root.slots = List.range p.placeholders.length
  numbered : p.placeholders.map Placeholder.index = List.range p.placeholders.length

/-- A pattern that compiles was read to its end, and its parts are what was read. -/
theorem compile_reads {resolve : String → Option PatternType} {source : String} {p : Pattern}
    (h : Pattern.compile resolve source = .ok p) :
    ∃ reading, readAll resolve .start (tokens source) = .ok reading ∧ reading.finish = .ok p.root ∧
      p = { source, normalized := normalizeString source, root := p.root
            placeholders := reading.placeholders, regexes := reading.regexes
            program := (programOf p.root).toArray, specificity := p.root.requiredWords } := by
  unfold Pattern.compile at h
  dsimp only at h
  split at h
  · cases h
  next reading root result =>
  cases h
  cases read : readAll resolve .start (tokens source) with
  | error => simp [read, bind, Except.bind] at result
  | ok r =>
    cases finish : r.finish with
    | error => simp [read, finish, bind, Except.bind] at result
    | ok e =>
      simp only [read, finish, bind, Except.bind, pure, Except.pure, Except.ok.injEq,
        Prod.mk.injEq] at result
      obtain ⟨rfl, rfl⟩ := result
      exact ⟨r, rfl, finish, rfl⟩

/-- What is read to its end compiles. -/
theorem compile_of_reads {resolve : String → Option PatternType} {source : String} {reading : Reading} {root : Element}
    (read : readAll resolve .start (tokens source) = .ok reading) (finish : reading.finish = .ok root) :
    Pattern.compile resolve source =
      .ok { source, normalized := normalizeString source, root, placeholders := reading.placeholders,
            regexes := reading.regexes, program := (programOf root).toArray, specificity := root.requiredWords } := by
  simp only [Pattern.compile, read, finish, bind, Except.bind, pure, Except.pure]

/-- **Every pattern that compiles is sound.** -/
theorem compile_sound {resolve : String → Option PatternType} {source : String} {p : Pattern}
    (h : Pattern.compile resolve source = .ok p) : p.Sound := by
  obtain ⟨reading, read, finish, parts⟩ := compile_reads h
  have sound := readAll_sound Reading.sound_start read
  obtain ⟨wellFormed, slots⟩ := Reading.finish_sound sound finish
  rw [parts]
  exact ⟨rfl, wellFormed, slots, sound.numbered⟩

end Phrasebook.Pattern
