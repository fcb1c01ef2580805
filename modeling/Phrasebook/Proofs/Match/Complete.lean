import Phrasebook.Proofs.Match.DepthFirst

/-!
# What a match reports

A derivation passes every placeholder of its tree at most once, so its path says what each of them is
filled with. The main statement, `runWith_first_match`, says that a run of a compiled pattern reports the
first complete match in depth-first order, and fails if and only if there is none.
-/

namespace Phrasebook.Match
open Text Pattern

variable {α : Type}

/-- A match reports what was picked up on a path: what every placeholder that was passed is filled with and
nothing for the others, the marks combined, and the tags and the texts of regexes in their order. -/
structure Reports (placeholders : Nat) (path : List (Pick α)) (found : Found α) : Prop where
  length : found.arguments.length = placeholders
  passed : ∀ index value, .argument index value ∈ path → found.arguments[index]? = some value
  missed : ∀ index < placeholders, index ∉ path.filterMap Pick.slot? →
    found.arguments[index]? = some none
  mark : found.mark = (path.filterMap Pick.mark?).foldl (· ^^^ ·) 0
  tags : found.tags = path.filterMap Pick.tag?
  captures : found.captures = path.filterMap Pick.regex?

/-- A placeholder was passed on the path, and has the value that was picked up there, or was not and has
none. -/
theorem Reports.entry {placeholders : Nat} {path : List (Pick α)} {found : Found α}
    (reports : Reports placeholders path found) {index : Nat} (bound : index < placeholders) :
    (∃ value, .argument index value ∈ path ∧ found.arguments[index]? = some value) ∨
      index ∉ path.filterMap Pick.slot? ∧ found.arguments[index]? = some none := by
  by_cases passed : index ∈ path.filterMap Pick.slot?
  · obtain ⟨pick, among, same⟩ := List.mem_filterMap.1 passed
    cases pick with
    | mark | tag | regex => cases same
    | argument i value =>
      cases same
      exact .inl ⟨value, among, reports.passed index value among⟩
  · exact .inr ⟨passed, reports.missed index bound passed⟩

/-- An argument that is there was picked up on the path. -/
theorem Reports.passed_of_there {placeholders : Nat} {path : List (Pick α)} {found : Found α}
    (reports : Reports placeholders path found) {index : Nat} {value : α}
    (there : found.arguments[index]? = some (some value)) : .argument index (some value) ∈ path := by
  have bound : index < placeholders := reports.length ▸ (List.getElem?_eq_some_iff.1 there).1
  rcases reports.entry bound with ⟨value', among, here⟩ | ⟨-, nothing⟩
  · cases here.symm.trans there
    exact among
  · cases nothing.symm.trans there

/-- A branch has placeholders of its choice. -/
theorem slots_sublist_of_mem {branches : List (Label × Element)} {label : Label} {e : Element}
    (among : (label, e) ∈ branches) : e.slots.Sublist (Element.slotsOfBranches branches) := by
  induction branches with
  | nil => cases among
  | cons b branches ih =>
    rw [Element.slotsOfBranches]
    rcases List.mem_cons.1 among with rfl | among
    · exact List.sublist_append_left _ _
    · exact (ih among).trans (List.sublist_append_right _ _)

@[simp] theorem slots_labelPicks (label : Label) :
    (labelPicks (α := α) label).filterMap Pick.slot? = [] := by
  obtain ⟨mark, tag⟩ := label
  cases mark <;> cases tag <;> rfl

/-- A derivation passes placeholders of its tree in their order, each at most once. -/
theorem Reads.slots_sublist {r : Reader α} {after : Follow} {e : Element} {pos stop : Nat}
    {path : List (Pick α)} (reads : Reads r after e pos stop path) :
    (path.filterMap Pick.slot?).Sublist e.slots := by
  induction reads with
  | literal | space | skipped | regex | nil => exact List.nil_sublist _
  | taken _ ih => exact ih
  | branch among _ ih =>
    rw [List.filterMap_append, slots_labelPicks, List.nil_append, Element.slots]
    exact ih.trans (slots_sublist_of_mem among)
  | filled | absent => exact List.Sublist.refl _
  | cons _ _ ih ih' =>
    rw [List.filterMap_append, Element.slots, Element.slotsOfItems]
    exact ih.append (by simpa [Element.slots] using ih')

/-- The last value of a placeholder after one more capture. -/
def lastArgument (index : Nat) (last : Option α) : Capture α → Option α
  | .argument i value => if i == index then value else last
  | _ => last

theorem argumentOf_eq (index : Nat) (trail : List (Capture α)) :
    argumentOf index trail = trail.foldl (lastArgument index) none := rfl

/-- A path that passes a placeholder not leaves its value alone. -/
theorem foldl_lastArgument {index : Nat} {path : List (Pick α)} (last : Option α)
    (missed : index ∉ path.filterMap Pick.slot?) :
    (path.filterMap Pick.capture?).foldl (lastArgument index) last = last := by
  induction path with
  | nil => rfl
  | cons pick path ih =>
    cases pick with
    | argument i value =>
      simp only [List.filterMap_cons, Pick.slot?, List.mem_cons, not_or] at missed
      have other : (i == index) = false := by simpa using Ne.symm missed.1
      simpa [List.filterMap_cons, Pick.capture?, lastArgument, other] using ih missed.2
    | mark | tag | regex =>
      simp only [List.filterMap_cons, Pick.slot?] at missed
      simpa [List.filterMap_cons, Pick.capture?, lastArgument] using ih missed

/-- A path that passes every placeholder at most once says what each is filled with. -/
theorem argumentOf_path {index : Nat} {value : Option α} {path : List (Pick α)}
    (once : (path.filterMap Pick.slot?).Nodup) (passed : .argument index value ∈ path)
    (last : Option α) :
    (path.filterMap Pick.capture?).foldl (lastArgument index) last = value := by
  induction path generalizing last with
  | nil => cases passed
  | cons pick path ih =>
    cases pick with
    | argument i other =>
      simp only [List.filterMap_cons, Pick.slot?, List.nodup_cons] at once
      rcases List.mem_cons.1 passed with same | passed
      · cases same
        simpa [List.filterMap_cons, Pick.capture?, lastArgument] using
          foldl_lastArgument value once.1
      · simpa [List.filterMap_cons, Pick.capture?] using ih once.2 passed _
    | mark | tag | regex =>
      simp only [List.filterMap_cons, Pick.slot?] at once
      rcases List.mem_cons.1 passed with same | passed
      · cases same
      · simpa [List.filterMap_cons, Pick.capture?] using ih once passed _

/-- What the trail of a derivation reports. -/
theorem reports_ofTrail {placeholders : Nat} {path : List (Pick α)}
    (once : (path.filterMap Pick.slot?).Nodup)
    (known : ∀ index ∈ path.filterMap Pick.slot?, index < placeholders) :
    Reports placeholders path
      (.ofTrail placeholders ((path.filterMap Pick.mark?).foldl (· ^^^ ·) 0)
        (path.filterMap Pick.capture?)) where
  length := by simp [Found.ofTrail]
  passed index value passed := by
    have bound : index < placeholders :=
      known index (List.mem_filterMap.2 ⟨_, passed, rfl⟩)
    simp [Found.ofTrail, argumentOf_eq, argumentOf_path once passed, bound]
  missed index bound missed := by
    simp [Found.ofTrail, argumentOf_eq, foldl_lastArgument none missed, bound]
  mark := rfl
  tags := by
    simp only [Found.ofTrail, List.filterMap_filterMap]
    congr 1
    funext pick
    cases pick <;> rfl
  captures := by
    simp only [Found.ofTrail, List.filterMap_filterMap]
    congr 1
    funext pick
    cases pick <;> rfl

/-- A complete match of a sound pattern is reported as what its path says. -/
theorem Reader.Complete.reports {r : Reader α} {start : Nat} {path : List (Pick α)}
    (complete : r.Complete start path) (sound : r.pattern.Sound) :
    Reports r.pattern.placeholders.length path
      (.ofTrail r.pattern.placeholders.length ((path.filterMap Pick.mark?).foldl (· ^^^ ·) 0)
        (path.filterMap Pick.capture?)) := by
  obtain ⟨stop, reads, -⟩ := complete
  have inside := reads.slots_sublist
  rw [sound.slots] at inside
  refine reports_ofTrail (List.nodup_range.sublist inside) fun index passed => ?_
  exact List.mem_range.1 (inside.subset passed)

variable {ε σ ρ : Type}

namespace Task

variable {task : Task (ExceptT ε (StateM σ)) ρ α}

/-- What is found behind the tree. -/
theorem settles_finish (cut : task.Cut) (w : Way α) :
    task.Settles (task.finish w) fun fills =>
      if (task.reader fills).AtEnd w.pos then
        some (.ofTrail task.pattern.placeholders.length w.mark w.captures)
      else none := by
  have same (fills : Fills α) :
      (task.reader fills).AtEnd w.pos ↔ task.stop ≤ task.region.skipBlanks w.pos := by
    rw [Reader.AtEnd, cut.region]
    rfl
  unfold finish
  dsimp only
  split
  next nothing =>
    refine (settles_found _).congr fun fills => ?_
    rw [if_pos ((same fills).2 nothing)]
  next left =>
    refine (settles_fail _ _).congr fun fills => ?_
    rw [if_neg (fun atEnd => left ((same fills).1 atEnd))]

/-- The first way that leads to the end is the first complete match. -/
theorem firstOf_finish (r : Reader α) (start : Nat) (n : Nat) :
    firstOf (fun w _ =>
        if r.AtEnd w.pos then some (.ofTrail n w.mark w.captures) else none)
      { pos := start } r.fills (r.ways { canEnd := true } start r.pattern.root) =
      (r.completeWays start).head?.map fun path =>
        .ofTrail n ((path.filterMap Pick.mark?).foldl (· ^^^ ·) 0)
          (path.filterMap Pick.capture?) := by
  rw [Reader.completeWays, firstOf]
  induction r.ways { canEnd := true } start r.pattern.root with
  | nil => rfl
  | cons way ways ih =>
    rw [List.findSome?_cons, ih]
    by_cases atEnd : r.AtEnd way.1
    · simp [atEnd, Way.follow]
    · simp [atEnd]

/-- A table that says what is remembered, and otherwise what the resolver answers. -/
theorem exists_fills (answers : ¬ task.Refuses) (s : σ) {memory : Memory ρ α}
    (extends_ : task.Extends {} memory) :
    ∃ fills : Fills α, memory.Agrees fills ∧
      ∀ index p start stop, task.pattern.placeholders[index]? = some p →
        ∃ outcome, task.Gives index start stop outcome ∧
          fills index start stop = outcome.value? := by
  have each (index start stop : Nat) : ∃ value : Option α,
      (∀ outcome, memory.answers.get? (index, start, stop) = some outcome →
        value = outcome.value?) ∧
      ∀ p, task.pattern.placeholders[index]? = some p →
        ∃ outcome, task.Gives index start stop outcome ∧ value = outcome.value? := by
    cases known : memory.answers.get? (index, start, stop) with
    | some outcome =>
      have gives : task.Gives index start stop outcome := by
        rcases extends_.given index start stop outcome known with before | gives
        · simp at before
        · exact gives
      refine ⟨outcome.value?, fun other same => ?_, fun _ _ => ⟨outcome, gives, rfl⟩⟩
      cases same
      rfl
    | none =>
      cases slot : task.pattern.placeholders[index]? with
      | none =>
        refine ⟨none, fun _ none => ?_, fun _ none => ?_⟩
        · cases none
        · cases none
      | some p =>
        rcases fails_or_ends (task.resolve p start stop) s with fails | ⟨outcome, s', ends⟩
        · exact absurd ⟨p, start, stop, s, fails⟩ answers
        have gives : task.Gives index start stop outcome := ⟨p, s, s', slot, ends⟩
        refine ⟨outcome.value?, fun _ none => ?_, fun _ _ => ⟨outcome, gives, rfl⟩⟩
        cases none
  exact ⟨fun index start stop => Classical.choose (each index start stop),
    fun index start stop outcome known =>
      (Classical.choose_spec (each index start stop)).1 outcome known,
    fun index p start stop slot => (Classical.choose_spec (each index start stop)).2 p slot⟩

end Task

/-- A result reports the first complete match in depth-first order, and is a failure if and only if there
is none. -/
structure FirstMatch (r : Reader α) (start : Nat) (result : Except (Failure ρ) (Found α)) : Prop where
  reports : ∀ found, result = .ok found →
    ∃ path, (r.completeWays start).head? = some path ∧
      Reports r.pattern.placeholders.length path found
  fails : (∃ failure, result = .error failure) ↔ ∀ path, ¬ r.Complete start path

/-- A run of a sound pattern reports the first complete match that its answers allow, unless the resolver
refused. -/
theorem runWith_settles {pattern : Pattern} (sound : pattern.Sound)
    (isMatch : PatternRegex → List Char → Bool) (line : Line) (start stop : Nat)
    (resolve : Placeholder → Nat → Nat → ExceptT ε (StateM σ) (Outcome ρ α)) (s : σ) :
    let task : Task (ExceptT ε (StateM σ)) ρ α :=
      { pattern, line, region := line.before stop, start, stop, isMatch, resolve }
    (Fails (runWith isMatch pattern line start stop resolve) s ∧ task.Refuses) ∨
      ∃ memory result s', Ends (runWith isMatch pattern line start stop resolve) s result s' ∧
        task.Extends {} memory ∧ ∀ fills, memory.Agrees fills →
          FirstMatch (task.reader fills) start result := by
  intro task
  have cut : task.Cut := rfl
  have read : runWith isMatch pattern line start stop resolve = _ := task.loop_eq_read sound
  have settles := Task.settles_read cut (Task.settles_finish cut) 0 { canEnd := true }
    { pos := start } pattern.root
  rw [read]
  rcases settles {} s with ⟨fails, refuses⟩ | ⟨found, memory, s', ends, extends_, same⟩
  · exact .inl ⟨fails.bind, refuses⟩
  let result : Except (Failure ρ) (Found α) := found.elim (.error (memory.failure start)) .ok
  refine .inr ⟨memory, result, s', ends.bind ?_, extends_, fun fills agrees => ?_⟩
  · cases found <;> exact ends_pure _ _
  have first : found = ((task.reader fills).completeWays start).head?.map fun path =>
      .ofTrail pattern.placeholders.length ((path.filterMap Pick.mark?).foldl (· ^^^ ·) 0)
        (path.filterMap Pick.capture?) :=
    (same fills agrees).trans (Task.firstOf_finish (task.reader fills) start _)
  refine ⟨fun report ok => ?_, ?_⟩
  · cases found with
    | none => simp [result] at ok
    | some found =>
      obtain rfl : found = report := by simpa [result] using ok
      obtain ⟨path, head, rfl⟩ := Option.map_eq_some_iff.1 first.symm
      have complete := Reader.mem_completeWays.1 (List.mem_of_head? head)
      exact ⟨path, head, complete.reports sound⟩
  · have nothing : (∃ failure, result = .error failure) ↔ found = none := by
      cases found <;> simp [result]
    rw [nothing, first, Option.map_eq_none_iff, List.head?_eq_none_iff, List.eq_nil_iff_forall_not_mem]
    simp only [Reader.mem_completeWays]

/-- **A run of a compiled pattern reports the first complete match in depth-first order, and fails if and
only if there is none.** The resolver may change a state as long as it always answers; a placeholder is
filled with what it answered. -/
theorem runWith_first_match {resolveType : String → Option PatternType} {source : String}
    {pattern : Pattern} (compiled : Pattern.compile resolveType source = .ok pattern)
    (isMatch : PatternRegex → List Char → Bool) (line : Line) (start stop : Nat)
    (resolve : Placeholder → Nat → Nat → ExceptT ε (StateM σ) (Outcome ρ α))
    (answers : ∀ p start stop s, ∃ outcome s', Ends (resolve p start stop) s outcome s') (s : σ) :
    ∃ (fills : Nat → Nat → Nat → Option α) (result : Except (Failure ρ) (Found α)) (s' : σ),
      Ends (runWith isMatch pattern line start stop resolve) s result s' ∧
      (∀ index p start stop, pattern.placeholders[index]? = some p →
        ∃ outcome s s', Ends (resolve p start stop) s outcome s' ∧
          fills index start stop = outcome.value?) ∧
      FirstMatch { pattern, line, stop, isMatch, fills } start result := by
  let task : Task (ExceptT ε (StateM σ)) ρ α :=
    { pattern, line, region := line.before stop, start, stop, isMatch, resolve }
  have answering : ¬ task.Refuses := by
    rintro ⟨p, start, stop, s, e, s', fails⟩
    obtain ⟨outcome, s'', ends⟩ := answers p start stop s
    cases fails.symm.trans ends
  rcases runWith_settles (compile_sound compiled) isMatch line start stop resolve s with
    ⟨-, refuses⟩ | ⟨memory, result, s', ends, extends_, first⟩
  · exact absurd refuses answering
  obtain ⟨fills, agrees, given⟩ := Task.exists_fills answering s extends_
  refine ⟨fills, result, s', ends, fun index p start stop slot => ?_, first fills agrees⟩
  obtain ⟨outcome, ⟨p', s, s', slot', gives⟩, fills⟩ := given index p start stop slot
  cases Option.some.inj (slot'.symm.trans slot)
  exact ⟨outcome, s, s', gives, fills⟩

/-- A pattern with an optional part, a choice with a mark and a tag, and a slot that only longer stretches
fill. -/
theorem runWith_first_match_nested :
    ∃ pattern, Pattern.compile (fun _ => some { type := 0, single := true })
        "[early:set] %any% (1¦to|late:is) [2]" = .ok pattern ∧
      ∃ result, Ends (ε := Unit)
          (runWith (fun _ _ => true) pattern (Line.ofString "set a to b is 2") 0 15
            fun _ start stop => pure (if stop < start + 3 then .rejected () else .found stop))
          () result () ∧
        ∀ found, result = .ok found → ∃ path, Reports pattern.placeholders.length path found := by
  have compiles : (Pattern.compile (fun _ => some { type := 0, single := true })
      "[early:set] %any% (1¦to|late:is) [2]").toOption.isSome = true := by decide +kernel
  cases compiled : Pattern.compile (fun _ => some { type := 0, single := true })
      "[early:set] %any% (1¦to|late:is) [2]" with
  | error => simp [compiled, Except.toOption] at compiles
  | ok pattern =>
    obtain ⟨fills, result, s', ends, -, reports, -⟩ :=
      runWith_first_match compiled (fun _ _ => true) (Line.ofString "set a to b is 2") 0 15
        (fun _ start stop => pure (if stop < start + 3 then .rejected () else .found stop))
        (fun _ _ _ s => ⟨_, s, rfl⟩) ()
    refine ⟨pattern, rfl, result, ends, fun found ok => ?_⟩
    obtain ⟨path, -, reports⟩ := reports found ok
    exact ⟨path, reports⟩

end Phrasebook.Match
