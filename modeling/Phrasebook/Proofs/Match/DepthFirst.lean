import Phrasebook.Proofs.Match.Derivation
import Phrasebook.Proofs.Match.Reading
import Phrasebook.Proofs.Step

/-!
# The machine finds the first complete match

A resolver may change a state, may be asked in any state, and may end the run with an error. Each answer is
asked for once, so at the end of a run the memory holds a table of answers, and the run has followed the
derivations that this table allows. `Settles` says so of a search: its result is a function of every table
that agrees with what it remembers at its end.
-/

namespace Phrasebook.Match
open Text Pattern

variable {ε σ ρ α : Type}

/-- What fills the placeholders, by their numbers and a stretch. -/
abbrev Fills (α : Type) := Nat → Nat → Nat → Option α

/-- What an answer fills a placeholder with. -/
def Outcome.value? : Outcome ρ α → Option α
  | found value => some value
  | rejected _ => none

/-- A table says the same as the answers that are remembered. -/
def Memory.Agrees (memory : Memory ρ α) (fills : Fills α) : Prop :=
  ∀ index start stop outcome, memory.answers.get? (index, start, stop) = some outcome →
    fills index start stop = outcome.value?

/-- What the answers that are remembered fill placeholders with. -/
def Memory.fills (memory : Memory ρ α) : Fills α := fun index start stop =>
  (memory.answers.get? (index, start, stop)).bind Outcome.value?

theorem Memory.agrees_fills (memory : Memory ρ α) : memory.Agrees memory.fills := by
  intro index start stop outcome known
  rw [fills, known, Option.bind_some]

theorem Memory.fills_eq_some {memory : Memory ρ α} {index start stop : Nat} {value : α}
    (h : memory.fills index start stop = some value) :
    memory.answers.get? (index, start, stop) = some (.found value) := by
  obtain ⟨outcome, known, same⟩ := Option.bind_eq_some_iff.1 h
  cases outcome with
  | found => cases same; exact known
  | rejected => cases same

@[simp] theorem Memory.answers_fail (memory : Memory ρ α) (pos : Nat) (reason : Reason ρ) :
    (memory.fail pos reason).answers = memory.answers := by
  unfold fail
  split
  · rfl
  · split <;> rfl

namespace Task

variable (task : Task (ExceptT ε (StateM σ)) ρ α)

/-- The resolver gives an answer in some state. -/
def Gives (index start stop : Nat) (outcome : Outcome ρ α) : Prop :=
  ∃ p s s', task.pattern.placeholders[index]? = some p ∧
    Ends (task.resolve p start stop) s outcome s'

/-- A later memory: answers are kept, and new ones are those that the resolver gives. -/
structure Extends (memory memory' : Memory ρ α) : Prop where
  kept : ∀ (key : Nat × Nat × Nat) (outcome : Outcome ρ α),
    memory.answers.get? key = some outcome → memory'.answers.get? key = some outcome
  given : ∀ index start stop outcome, memory'.answers.get? (index, start, stop) = some outcome →
    memory.answers.get? (index, start, stop) = some outcome ∨ task.Gives index start stop outcome

variable {task}

theorem Extends.refl (memory : Memory ρ α) : task.Extends memory memory :=
  ⟨fun _ _ h => h, fun _ _ _ _ h => .inl h⟩

theorem Extends.trans {a b c : Memory ρ α} (ab : task.Extends a b) (bc : task.Extends b c) :
    task.Extends a c := by
  refine ⟨fun key outcome h => bc.kept key outcome (ab.kept key outcome h), ?_⟩
  intro index start stop outcome h
  rcases bc.given index start stop outcome h with h | gives
  · exact ab.given index start stop outcome h
  · exact .inr gives

theorem extends_fail (memory : Memory ρ α) (pos : Nat) (reason : Reason ρ) :
    task.Extends memory (memory.fail pos reason) :=
  ⟨fun _ _ h => by simpa using h, fun _ _ _ _ h => .inl (by simpa using h)⟩

/-- A table that agrees with a memory agrees with what was remembered before. -/
theorem Extends.agrees {a b : Memory ρ α} {fills : Fills α}
    (ab : task.Extends a b) (agrees : b.Agrees fills) : a.Agrees fills :=
  fun index start stop outcome h => agrees index start stop outcome (ab.kept _ _ h)

variable (task)

/-- The resolver ends with an error instead of an answer in some state. -/
def Refuses : Prop :=
  ∃ p start stop s, Fails (task.resolve p start stop) s

/-- A search ends, whatever is remembered, and finds what every table of answers says that agrees with
what is remembered then; unless the resolver refused. -/
def Settles (x : Search (ExceptT ε (StateM σ)) ρ α) (result : Fills α → Option (Found α)) : Prop :=
  ∀ memory s, (Fails (x memory) s ∧ task.Refuses) ∨
    ∃ found memory' s', Ends (x memory) s (found, memory') s' ∧ task.Extends memory memory' ∧
      ∀ fills, memory'.Agrees fills → found = result fills

variable {task}

theorem settles_found (f : Found α) : task.Settles (.found f) fun _ => some f :=
  fun memory s => .inr ⟨some f, memory, s, ends_pure _ s, .refl memory, fun _ _ => rfl⟩

theorem settles_stuck : task.Settles .stuck fun _ => none :=
  fun memory s => .inr ⟨none, memory, s, ends_pure _ s, .refl memory, fun _ _ => rfl⟩

theorem settles_fail (pos : Nat) (reason : Reason ρ) :
    task.Settles (.fail pos reason) fun _ => none :=
  fun memory s =>
    .inr ⟨none, memory.fail pos reason, s, ends_pure _ s, extends_fail memory pos reason,
      fun _ _ => rfl⟩

theorem Settles.or {x y : Search (ExceptT ε (StateM σ)) ρ α} {f g : Fills α → Option (Found α)}
    (hx : task.Settles x f) (hy : task.Settles y g) :
    task.Settles (x.or y) fun fills => (f fills).or (g fills) := by
  intro memory s
  rcases hx memory s with ⟨fails, refuses⟩ | ⟨found, memory', s', ends, extends_, same⟩
  · exact .inl ⟨fails.bind, refuses⟩
  cases found with
  | some found =>
    refine .inr ⟨some found, memory', s', ends.bind (ends_pure _ s'), extends_,
      fun fills agrees => ?_⟩
    dsimp only
    rw [← same fills agrees]
    rfl
  | none =>
    rcases hy memory' s' with ⟨fails, refuses⟩ | ⟨found', memory'', s'', ends', extends', same'⟩
    · exact .inl ⟨ends.bind_fails fails, refuses⟩
    refine .inr ⟨found', memory'', s'', ends.bind ends', extends_.trans extends',
      fun fills agrees => ?_⟩
    dsimp only
    rw [← same fills (extends'.agrees agrees), Option.none_or]
    exact same' fills agrees

theorem Settles.congr {x : Search (ExceptT ε (StateM σ)) ρ α} {f g : Fills α → Option (Found α)}
    (hx : task.Settles x f) (same : ∀ fills, f fills = g fills) : task.Settles x g :=
  funext same ▸ hx

theorem settles_first {β : Type} {x : β → Search (ExceptT ε (StateM σ)) ρ α}
    {f : β → Fills α → Option (Found α)} (bs : List β)
    (each : ∀ b, task.Settles (x b) (f b)) :
    task.Settles (.first (bs.map x)) fun fills => bs.findSome? fun b => f b fills := by
  induction bs with
  | nil => exact settles_stuck
  | cons b bs ih =>
    refine ((each b).or ih).congr fun fills => ?_
    rw [List.findSome?_cons]
    cases f b fills <;> rfl

/-- An answer is remembered from then on. -/
theorem answer_ends {index : Nat} {p : Placeholder}
    (slot : task.pattern.placeholders[index]? = some p) (start stop : Nat) (memory : Memory ρ α)
    (s : σ) :
    (Fails (task.answer memory index p start stop) s ∧ task.Refuses) ∨
      ∃ outcome memory' s', Ends (task.answer memory index p start stop) s (outcome, memory') s' ∧
        task.Extends memory memory' ∧ memory'.answers.get? (index, start, stop) = some outcome := by
  unfold answer
  split
  next outcome known => exact .inr ⟨outcome, memory, s, ends_pure _ s, .refl memory, known⟩
  next unknown =>
    rcases fails_or_ends (task.resolve p start stop) s with fails | ⟨outcome, s', ends⟩
    · exact .inl ⟨fails.bind, p, start, stop, s, fails⟩
    refine .inr ⟨outcome, _, s', ends.bind (ends_pure _ s'), ⟨fun key other h => ?_, ?_⟩,
      Table.get?_insert_self _ _ _⟩
    · have different : (index, start, stop) ≠ key := by
        rintro rfl
        rw [unknown] at h
        cases h
      rwa [Table.get?_insert_of_ne _ _ different]
    · intro index' start' stop' other h
      rw [Table.get?_insert] at h
      split at h
      next same =>
        cases same
        cases h
        exact .inr ⟨p, s, s', slot, ends⟩
      · exact .inl h

theorem settles_filling {index start stop : Nat} {p : Placeholder}
    (slot : task.pattern.placeholders[index]? = some p)
    {next : α → Search (ExceptT ε (StateM σ)) ρ α} {f : α → Fills α → Option (Found α)}
    (each : ∀ value, task.Settles (next value) (f value)) :
    task.Settles (task.filling index p start stop next) fun fills =>
      (fills index start stop).bind fun value => f value fills := by
  intro memory s
  rcases answer_ends slot start stop memory s with
    ⟨fails, refuses⟩ | ⟨outcome, memory', s', ends, extends_, known⟩
  · exact .inl ⟨fails.bind, refuses⟩
  cases outcome with
  | found value =>
    rcases each value memory' s' with
      ⟨fails, refuses⟩ | ⟨found, memory'', s'', ends', extends', same⟩
    · exact .inl ⟨ends.bind_fails fails, refuses⟩
    refine .inr ⟨found, memory'', s'', ends.bind ends', extends_.trans extends',
      fun fills agrees => ?_⟩
    dsimp only
    rw [agrees _ _ _ _ (extends'.kept _ _ known)]
    exact same fills agrees
  | rejected reason =>
    refine .inr ⟨none, memory'.fail start (.rejected reason), s', ends.bind (ends_pure _ s'),
      extends_.trans (extends_fail memory' _ _), fun fills agrees => ?_⟩
    dsimp only
    rw [agrees index start stop (.rejected reason) (by simpa using known)]
    rfl

end Task

namespace Way

/-- The way after a derivation that stops at a place. -/
def follow (w : Way α) (stop : Nat) (path : List (Pick α)) : Way α where
  pos := stop
  mark := (path.filterMap Pick.mark?).foldl (· ^^^ ·) w.mark
  captures := w.captures ++ path.filterMap Pick.capture?

@[simp] theorem pos_follow (w : Way α) (stop : Nat) (path : List (Pick α)) :
    (w.follow stop path).pos = stop := rfl

theorem follow_nil (w : Way α) (stop : Nat) : w.follow stop [] = { w with pos := stop } := by
  simp [follow]

theorem follow_follow (w : Way α) (mid stop : Nat) (path path' : List (Pick α)) :
    (w.follow mid path).follow stop path' = w.follow stop (path ++ path') := by
  simp [follow]

theorem follow_label (w : Way α) (label : Label) :
    w.enter label = w.follow w.pos (labelPicks label) := by
  obtain ⟨mark, tag⟩ := label
  cases mark <;> cases tag <;>
    simp [enter, follow, labelPicks, Pick.mark?, Pick.capture?, List.filterMap_cons]

end Way

theorem findSome?_filterMap {β γ δ : Type} (f : γ → Option δ) (g : β → Option γ) (bs : List β) :
    (bs.filterMap g).findSome? f = bs.findSome? fun b => (g b).bind f := by
  induction bs with
  | nil => rfl
  | cons b bs ih =>
    rw [List.filterMap_cons, List.findSome?_cons]
    cases g b with
    | none => exact ih
    | some c =>
      simp only [Option.bind_some]
      rw [List.findSome?_cons, ih]

theorem findSome?_flatMap {β γ δ : Type} (f : γ → Option δ) (g : β → List γ) (bs : List β) :
    (bs.flatMap g).findSome? f = bs.findSome? fun b => (g b).findSome? f := by
  induction bs with
  | nil => rfl
  | cons b bs ih =>
    rw [List.flatMap_cons, List.findSome?_append, List.findSome?_cons, ih]
    cases (g b).findSome? f <;> rfl

namespace Task

variable {task : Task (ExceptT ε (StateM σ)) ρ α}

/-- The reader of a task, given what fills its placeholders. -/
def reader (task : Task (ExceptT ε (StateM σ)) ρ α) (fills : Fills α) : Reader α where
  pattern := task.pattern
  line := task.line
  stop := task.stop
  isMatch := task.isMatch
  fills := fills

/-- What is found when ways are gone on with one after the other. -/
def firstOf (g : Way α → Fills α → Option (Found α)) (w : Way α) (fills : Fills α)
    (ways : List (Arrival α)) : Option (Found α) :=
  ways.findSome? fun way => g (w.follow way.1 way.2) fills

/-- The part of the line that is searched ends where the match has to end. -/
def Cut (task : Task (ExceptT ε (StateM σ)) ρ α) : Prop :=
  task.region = task.line.before task.stop

theorem Cut.region (cut : task.Cut) (fills : Fills α) : (task.reader fills).region = task.region :=
  cut.symm

/-- What is found behind one end of a placeholder. -/
def beyond (g : Way α → Fills α → Option (Found α)) (w : Way α) (index start : Nat)
    (fills : Fills α) : Option Nat → Option (Found α)
  | none => g (w.follow w.pos [.argument index none]) fills
  | some stop =>
    (fills index start stop).bind fun value =>
      g (w.follow stop [.argument index (some value)]) fills

/-- The ways of a placeholder are its ends that something fills. -/
theorem firstOf_placeholderWays (cut : task.Cut) {index : Nat} {p : Placeholder}
    (slot : task.pattern.placeholders[index]? = some p)
    (g : Way α → Fills α → Option (Found α)) (w : Way α) (after : Follow) (fills : Fills α) :
    firstOf g w fills ((task.reader fills).placeholderWays after w.pos index) =
      (task.endsOf p after (task.region.skipBlanks w.pos)).findSome?
        (beyond g w index (task.region.skipBlanks w.pos) fills) := by
  have slot' : (task.reader fills).pattern.placeholders[index]? = some p := slot
  simp only [Reader.placeholderWays, slot', Reader.endsFrom, cut.region, endsOf, firstOf,
    List.findSome?_append, List.findSome?_map, findSome?_filterMap]
  congr 1
  · congr 1
    funext stop
    cases found : fills index (task.region.skipBlanks w.pos) stop <;>
      simp [beyond, reader, found]
  · split <;> rfl

/-- The ways of a regex are its ends up to which it matches. -/
theorem firstOf_regexWays (cut : task.Cut) {index : Nat} {x : PatternRegex}
    (slot : task.pattern.regexes[index]? = some x) (g : Way α → Fills α → Option (Found α))
    (w : Way α) (after : Follow) (fills : Fills α) :
    firstOf g w fills ((task.reader fills).regexWays after w.pos index) =
      (splitPoints task.region after (task.region.skipBlanks w.pos) task.stop).findSome?
        fun stop =>
          let text := task.line.slice (task.region.skipBlanks w.pos) stop
          if task.isMatch x text then g (w.follow stop [.regex (String.ofList text)]) fills
          else none := by
  have slot' : (task.reader fills).pattern.regexes[index]? = some x := slot
  simp only [Reader.regexWays, slot', Reader.endsFrom, cut.region, firstOf, findSome?_filterMap]
  congr 1
  funext stop
  by_cases fits : task.isMatch x (task.line.slice (task.region.skipBlanks w.pos) stop) <;>
    simp [reader, fits]

theorem firstOf_flatMap {β : Type} (g : Way α → Fills α → Option (Found α)) (w : Way α)
    (fills : Fills α) (f : β → List (Arrival α)) (bs : List β) :
    firstOf g w fills (bs.flatMap f) = bs.findSome? fun b => firstOf g w fills (f b) :=
  findSome?_flatMap _ _ _

/-- Ways that begin with a derivation are ways behind it. -/
theorem firstOf_behind (g : Way α → Fills α → Option (Found α)) (w : Way α) (fills : Fills α)
    (mid : Nat) (path : List (Pick α)) (ways : List (Arrival α)) :
    firstOf g w fills (ways.map fun way => (way.1, path ++ way.2)) =
      firstOf g (w.follow mid path) fills ways := by
  simp only [firstOf, List.findSome?_map, Way.follow_follow]
  rfl

theorem firstOf_append (g : Way α → Fills α → Option (Found α)) (w : Way α) (fills : Fills α)
    (ways ways' : List (Arrival α)) :
    firstOf g w fills (ways ++ ways') =
      (firstOf g w fills ways).or (firstOf g w fills ways') :=
  List.findSome?_append

theorem firstOf_singleton (g : Way α → Fills α → Option (Found α)) (w : Way α) (fills : Fills α)
    (stop : Nat) (path : List (Pick α)) :
    firstOf g w fills [(stop, path)] = g (w.follow stop path) fills := by
  simp [firstOf]

theorem firstOf_waysOfBranches (g : Way α → Fills α → Option (Found α)) (w : Way α)
    (after : Follow) (fills : Fills α) (label : Label) (e : Element)
    (rest : List (Label × Element)) :
    firstOf g w fills ((task.reader fills).waysOfBranches after w.pos ((label, e) :: rest)) =
      (firstOf g (w.enter label) fills ((task.reader fills).ways after w.pos e)).or
        (firstOf g w fills ((task.reader fills).waysOfBranches after w.pos rest)) := by
  rw [Reader.waysOfBranches, firstOf_append, firstOf_behind g w fills w.pos, ← Way.follow_label]

section Read

variable (cut : task.Cut) {next : Onward (ExceptT ε (StateM σ)) ρ α}
  {g : Way α → Fills α → Option (Found α)} (each : ∀ w, task.Settles (next w) (g w))
include cut each

theorem settles_placeholder (pc : Nat) (after : Follow) (index : Nat) (w : Way α) :
    task.Settles (task.readPlaceholder pc after index w next) fun fills =>
      firstOf g w fills ((task.reader fills).placeholderWays after w.pos index) := by
  unfold readPlaceholder
  split
  next missing =>
    refine settles_stuck.congr fun fills => ?_
    simp [Reader.placeholderWays, reader, missing, firstOf]
  next p slot =>
    refine Settles.congr ?_ fun fills => (firstOf_placeholderWays cut slot g w after fills).symm
    dsimp only
    split
    next none =>
      rw [List.isEmpty_iff.1 none]
      exact settles_fail _ _
    next some =>
      refine settles_first _ fun end_ => ?_
      cases end_ with
      | none => exact each _
      | some stop => exact settles_filling slot fun value => each _

theorem settles_regex (pc : Nat) (after : Follow) (index : Nat) (w : Way α) :
    task.Settles (task.readRegex pc after index w next) fun fills =>
      firstOf g w fills ((task.reader fills).regexWays after w.pos index) := by
  unfold readRegex
  split
  next missing =>
    refine settles_stuck.congr fun fills => ?_
    simp [Reader.regexWays, reader, missing, firstOf]
  next x slot =>
    refine Settles.congr ?_ fun fills => (firstOf_regexWays cut slot g w after fills).symm
    dsimp only
    split
    next none =>
      rw [List.isEmpty_iff.1 none]
      exact settles_fail _ _
    next some =>
      refine settles_first _ fun stop => ?_
      dsimp only
      split
      · exact each _
      · exact settles_fail _ _

end Read

mutual

/-- **Reading an element is going on behind its ways one after the other.** -/
theorem settles_read (cut : task.Cut)
    {next : Onward (ExceptT ε (StateM σ)) ρ α} {g : Way α → Fills α → Option (Found α)}
    (each : ∀ w, task.Settles (next w) (g w)) (pc : Nat) (after : Follow) (w : Way α) :
    (e : Element) → task.Settles (task.read pc after w next e) fun fills =>
      firstOf g w fills ((task.reader fills).ways after w.pos e)
  | .literal text => by
    rw [Task.read, readLiteral]
    cases there : task.region.matchLiteral w.pos text with
    | none =>
      refine (settles_fail _ _).congr fun fills => ?_
      simp [Reader.ways, cut.region, there, firstOf]
    | some stop =>
      refine (each _).congr fun fills => ?_
      simp [Reader.ways, cut.region, there, firstOf, Way.follow_nil]
  | .space => by
    rw [Task.read, readSpace]
    split
    next apart =>
      refine (each w).congr fun fills => ?_
      simp [Reader.ways, cut.region, apart, firstOf, Way.follow_nil]
    next within =>
      refine (settles_fail _ _).congr fun fills => ?_
      simp [Reader.ways, cut.region, within, firstOf]
  | .optional inner => by
    rw [Task.read]
    refine ((settles_read cut each (pc + 1) after w inner).or (each w)).congr fun fills => ?_
    rw [Reader.ways, firstOf_append, firstOf_singleton, Way.follow_nil]
  | .choice branches => by
    rw [Task.read]
    refine (settles_readBranches cut each pc after w branches).congr fun fills => ?_
    rw [Reader.ways]
  | .placeholder index => by
    rw [Task.read]
    refine (settles_placeholder cut each pc after index w).congr fun fills => ?_
    rw [Reader.ways]
  | .regex index => by
    rw [Task.read]
    refine (settles_regex cut each pc after index w).congr fun fills => ?_
    rw [Reader.ways]
  | .sequence items => by
    rw [Task.read]
    refine (settles_readItems cut each pc after w items).congr fun fills => ?_
    rw [Reader.ways]

theorem settles_readItems (cut : task.Cut)
    {next : Onward (ExceptT ε (StateM σ)) ρ α} {g : Way α → Fills α → Option (Found α)}
    (each : ∀ w, task.Settles (next w) (g w)) (pc : Nat) (after : Follow) (w : Way α) :
    (items : List Element) → task.Settles (task.readItems pc after w next items) fun fills =>
      firstOf g w fills ((task.reader fills).waysOfItems after w.pos items)
  | [] => by
    rw [Task.readItems]
    refine (each w).congr fun fills => ?_
    rw [Reader.waysOfItems, firstOf_singleton, Way.follow_nil]
  | e :: rest => by
    rw [Task.readItems]
    have others (w : Way α) :=
      settles_readItems cut each (pc + e.codeSize) after w rest
    refine (settles_read cut others pc _ w e).congr fun fills => ?_
    rw [Reader.waysOfItems, firstOf_flatMap]
    refine congrArg (fun f => List.findSome? f _) (funext fun way => ?_)
    exact (firstOf_behind g w fills way.1 way.2 _).symm

theorem settles_readBranches (cut : task.Cut)
    {next : Onward (ExceptT ε (StateM σ)) ρ α} {g : Way α → Fills α → Option (Found α)}
    (each : ∀ w, task.Settles (next w) (g w)) (pc : Nat) (after : Follow) (w : Way α) :
    (branches : List (Label × Element)) →
      task.Settles (task.readBranches pc after w next branches) fun fills =>
        firstOf g w fills ((task.reader fills).waysOfBranches after w.pos branches)
  | [] => settles_stuck
  | [(label, e)] => by
    rw [Task.readBranches]
    refine (settles_read cut each _ after (w.enter label) e).congr fun fills => ?_
    rw [firstOf_waysOfBranches, Reader.waysOfBranches]
    exact Option.or_none.symm
  | (label, e) :: b :: rest => by
    simp only [Task.readBranches]
    have here := settles_read cut each (pc + 1 + label.code.length) after (w.enter label) e
    have others := settles_readBranches cut each
      (pc + label.code.length + e.codeSize + 2) after w (b :: rest)
    refine (here.or others).congr fun fills => ?_
    exact (firstOf_waysOfBranches g w after fills label e (b :: rest)).symm

end

end Task

end Phrasebook.Match
