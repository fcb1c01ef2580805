import Phrasebook.Parse.Line
import Phrasebook.Proofs.Parse.Forms
import Phrasebook.Proofs.Vocabulary

/-!
# What is remembered makes no difference

What was turned down once is turned down again without being read. A parse that reads everything afresh comes
to the same, though what is remembered was found out at another depth and while other definitions were being
tried. Two bonds say why. By `deeper`, a reading that is not stopped is the same at every greater depth and
whatever definitions are being tried outside the stretch. By `remembering`, every rejection that is remembered
is backed by such a reading, and every definition that has come to be tried is tried on a stretch around the
present one: where none is tried on this very stretch, none has come to be tried within it.
-/

namespace Phrasebook

namespace Parse
open Text

/-- Reads a stretch without asking what was turned down before, and without noting what is turned down
now. -/
def readAfresh (forms : Option Reader) (line : Line) (start stop : Nat) (target : Target) :
    Parsing Reading :=
  let (start, stop) := line.trimmed start stop
  readNested forms line start stop target

end Parse

namespace Registry
open Parse

/-- The forms of expressions that are nested at most so many levels deep, with their parts read afresh. -/
def freshForms (r : Registry) : Nat → Option Reader
  | 0 => none
  | levels + 1 => some (readForms r (readAfresh (r.freshForms levels)))

/-- Reads expressions that are nested at most so many levels deep, everything afresh. -/
def freshReader (r : Registry) (levels : Nat) : Reader :=
  readAfresh (r.freshForms levels)

/-- Parses a line as syntax of a category, with every expression read afresh. -/
def parseLineAfresh (r : Registry) (category : Category) (text : String) :
    StateM Context (Except Fault Node) := fun c =>
  parseLineBy r (r.freshReader c.remainingDepth) category text c

/-- Parses a text as an expression of one of some types, with every part of it read afresh. -/
def parseExpressionAfresh (r : Registry) (text : String) (types : List PatternType) :
    StateM Context (Except Fault Expr) := fun c =>
  readText r (r.freshReader c.remainingDepth) text types c

/-- The forms of expressions that are nested at most so many levels deep. -/
def forms (r : Registry) : Nat → Option Reader
  | 0 => none
  | levels + 1 => some (readForms r (r.reader levels))

theorem reader_eq (r : Registry) (levels : Nat) : r.reader levels = readLevel (r.forms levels) := by
  cases levels <;> rfl

end Registry

/-- A state of which only the setting is left, and some definitions that are being tried. -/
def Context.alone (c : Context) (trials : List Trial) : Context :=
  { c.setting with trials }

namespace Parse
open Text

variable {r : Registry} {line : Line}

namespace Bond

/-- Steps at a level of nesting are alike if the forms that are read there are. -/
theorem readNested_alike {b : Bond} {forms forms' : Reader} {start stop : Nat} {target : Target}
    (h : b.Alike (stretchOf line start stop) (forms line start stop target)
      (forms' line start stop target)) :
    b.Alike (stretchOf line start stop) (readNested (some forms) line start stop target)
      (readNested (some forms') line start stop target) :=
  alike_checkCancelled.bind fun _ => h.deeper

/-- Where no further level is allowed, a parse is stopped. -/
theorem readNested_none_alike {b : Bond} {s : Stretch} {start stop : Nat} {target : Target}
    (y : Parsing Reading) : b.Alike s (readNested none line start stop target) y := by
  intro c d kin trials
  by_cases set : c.cancellation.isSet = true
  · exact .inl ⟨.cancelled, c, cancelled_bind set _, .inl ⟨rfl, Cancellation.comes_of_isSet set⟩⟩
  · exact .inl ⟨.recursionLimit c.maxDepth, _, (ends_checkCancelled set).bind_apply, .inr ⟨_, rfl⟩⟩

/-- Readers are alike on a line if they are on stretches without blanks at their ends. -/
theorem alikeReaders_trimmed {b : Bond} {read read' : Reader}
    (h : ∀ start stop target, start ≤ stop → stop ≤ line.size →
      b.Alike (stretchOf line (line.trimmed start stop).1 (line.trimmed start stop).2)
        (read line start stop target) (read' line start stop target)) :
    b.AlikeReaders line read read' := by
  intro start stop target ordered inside
  obtain ⟨hs, -, ht⟩ := line.trimmed_bounds ordered
  exact (h start stop target ordered inside).widen (stretchOf_within hs ht)

/-- The second parse may go deeper, and is never cancelled if it was not before. The two agree on what they
try within the stretch. -/
def deeper : Bond where
  Holds _ := True
  Trials s ts us := ∀ t : Trial, t.stretch.Within s → (t ∈ ts ↔ t ∈ us)
  keeps _ _ _ := trivial
  narrow within agree t inside := agree t (inside.trans within)
  push definition agree t inside := by
    rw [List.mem_cons, List.mem_cons, agree t inside]
  agree definition agree := agree _ (.refl _)

end Bond

section Transparent

variable (decides : ∀ category, ∀ candidate ∈ r.candidates category,
  DecidesByBlocks r candidate.definition.decide)

include decides

/-- **A reading that is not stopped is the same with more levels.** -/
theorem readNested_deeper {levels more : Nat} (le : levels ≤ more) (start stop : Nat)
    (target : Target) (ordered : start ≤ stop) (inside : stop ≤ line.size) :
    Bond.deeper.Alike (stretchOf line start stop)
      (readNested (r.freshForms levels) line start stop target)
      (readNested (r.freshForms more) line start stop target) := by
  induction levels generalizing more start stop target with
  | zero => exact Bond.readNested_none_alike _
  | succ levels ih =>
    obtain ⟨more, rfl⟩ : ∃ n, more = n + 1 := ⟨more - 1, by omega⟩
    refine Bond.readNested_alike (Bond.readForms_alike ?_ inside decides target)
    refine Bond.alikeReaders_trimmed fun start stop target ordered inside => ?_
    obtain ⟨-, ordered', ht⟩ := line.trimmed_bounds ordered
    exact ih (Nat.le_of_succ_le_succ le) _ _ target ordered' (Nat.le_trans ht inside)

/-- A reading that is not stopped is the same with more levels, and where other definitions are being tried, if
those within the stretch are the same. -/
theorem readNested_elsewhere {levels more : Nat} (le : levels ≤ more) {start stop : Nat}
    (target : Target) (ordered : start ≤ stop) (inside : stop ≤ line.size) {c : Context}
    {base : List Trial} (untried : Bond.deeper.Trials (stretchOf line start stop) c.trials base) :
    Stops (readNested (r.freshForms levels) line start stop target) c ∨
      ∃ reading c' d', Ends (readNested (r.freshForms levels) line start stop target) c reading c' ∧
        Ends (readNested (r.freshForms more) line start stop target) (c.alone base) reading d' ∧
        c.Passes c' := by
  have alike := readNested_deeper decides le start stop target ordered inside c (c.alone base)
    ⟨rfl, Cancellation.notAfter_none _, trivial⟩ untried
  rcases alike with stops | ⟨reading, c', d', ends, ends', -, passes, -⟩
  · exact .inl stops
  · exact .inr ⟨reading, c', d', ends, ends', passes⟩

end Transparent

/-- A rejection is backed by a reading in a state, at some depth. -/
def Backed (r : Registry) (line : Line) (state : Context) (start stop : Nat) (target : Target)
    (reason : Rejection) : Prop :=
  ∃ levels c, Ends (readNested (r.freshForms levels) line start stop target) state
    (.rejected reason) c

/-- The second parse remembers what it turned down. All that it remembers is backed by readings where only what
was being tried at first is, and the two have come to try the same definitions since, on stretches around the
present one. -/
def Bond.remembering (r : Registry) (line : Line) (base : List Trial) : Bond where
  Holds d := ∀ start stop target reason, start ≤ stop → stop ≤ line.size →
    d.rejections.get? (stretchOf line start stop, target) = some reason →
    Backed r line (d.alone base) start stop target reason
  Trials s ts us := ts = us ∧ ∃ since, ts = since ++ base ∧ ∀ t ∈ since, s.Within t.stretch
  keeps setting rejections holds start stop target reason ordered inside found := by
    rw [Context.alone, setting]
    rw [rejections] at found
    exact holds start stop target reason ordered inside found
  narrow := by
    rintro a b ts us within ⟨same, since, all, around⟩
    exact ⟨same, since, all, fun t mem => within.trans (around t mem)⟩
  push := by
    rintro s ts us definition ⟨rfl, since, rfl, around⟩
    refine ⟨rfl, ⟨definition, s⟩ :: since, rfl, fun t mem => ?_⟩
    rcases List.mem_cons.1 mem with rfl | mem
    · exact .refl _
    · exact around t mem
  agree definition trials := by rw [trials.1]

section Transparent

variable {base : List Trial}

/-- Where no definition is tried on a stretch, but all that have come to be tried are on stretches around it,
none has come to be tried within it. -/
theorem untried_within {c : Context} {s : Stretch} {since : List Trial}
    (untried : c.isStretchTried s = false) (all : c.trials = since ++ base)
    (around : ∀ t ∈ since, s.Within t.stretch) : Bond.deeper.Trials s c.trials base := by
  intro t within
  rw [all, List.mem_append]
  refine ⟨fun mem => ?_, .inr⟩
  rcases mem with mem | mem
  · have same : t.stretch = s := within.antisymm (around t mem)
    rw [Context.isStretchTried, List.any_eq_false] at untried
    exact absurd (by simp [same]) (untried t (all ▸ List.mem_append_left base mem))
  · exact mem

/-- A rejection that is backed may be remembered. -/
theorem remembering_insert {d : Context} (holds : (Bond.remembering r line base).Holds d)
    {start stop : Nat} {target : Target} {reason : Rejection} (ordered : start ≤ stop)
    (inside : stop ≤ line.size) (backed : Backed r line (d.alone base) start stop target reason) :
    (Bond.remembering r line base).Holds
      { d with rejections := d.rejections.insert (stretchOf line start stop, target) reason } := by
  intro start' stop' target' reason' ordered' inside' found
  rw [Table.get?_insert] at found
  split at found
  case isTrue same =>
    obtain ⟨stretch, rfl⟩ := Prod.mk.inj same
    obtain ⟨rfl, rfl⟩ := stretchOf_inj (Nat.le_trans ordered inside) inside
      (Nat.le_trans ordered' inside') inside' stretch
    cases found
    exact backed
  case isFalse => exact holds start' stop' target' reason' ordered' inside' found

/-- A parse that has remembered nothing yet is tied to itself. -/
theorem remembering_nothing (line : Line) {c : Context} (fresh : c.rejections = {}) :
    (Bond.remembering r line c.trials).Kin c c ∧
      ∀ s, (Bond.remembering r line c.trials).Trials s c.trials c.trials := by
  refine ⟨⟨rfl, .refl _, ?_⟩, fun s => ⟨rfl, [], rfl, fun _ mem => (List.not_mem_nil mem).elim⟩⟩
  intro _ _ _ _ _ _ found
  simp [fresh] at found

variable (decides : ∀ category, ∀ candidate ∈ r.candidates category,
  DecidesByBlocks r candidate.definition.decide)

include decides

/-- A reading of what was turned down before turns it down again. -/
theorem readNested_backed (levels : Nat) {start stop : Nat} {target : Target} (ordered : start ≤ stop)
    (inside : stop ≤ line.size) {c : Context}
    (untried : Bond.deeper.Trials (stretchOf line start stop) c.trials base) {reason : Rejection}
    (backed : Backed r line (c.alone base) start stop target reason) :
    Stops (readNested (r.freshForms levels) line start stop target) c ∨
      ∃ c', Ends (readNested (r.freshForms levels) line start stop target) c (.rejected reason) c' ∧
        c.Passes c' := by
  obtain ⟨before, d, turnedDown⟩ := backed
  -- both readings are compared with one that goes as deep as either
  have common := readNested_elsewhere decides (Nat.le_max_right levels before) target ordered inside
    (c := c.alone base) fun _ _ => .rfl
  rcases common with stops | ⟨reading, _, e, ends, deep, -⟩
  · exact absurd turnedDown stops.not_ends
  obtain ⟨rfl, -⟩ := turnedDown.unique ends
  have now := readNested_elsewhere decides (Nat.le_max_left levels before) target ordered inside untried
  rcases now with stops | ⟨reading, c', e', ends, deep', passes⟩
  · exact .inl stops
  · obtain ⟨rfl, -⟩ := deep.unique deep'
    exact .inr ⟨c', ends, passes⟩

/-- **A level of nesting that remembers is like one that reads afresh**, if the levels below are. -/
theorem readLevel_alike {levels : Nat}
    (below : ∀ start stop target, start ≤ stop → stop ≤ line.size →
      (Bond.remembering r line base).Alike (stretchOf line start stop)
        (readNested (r.freshForms levels) line start stop target)
        (readNested (r.forms levels) line start stop target)) :
    (Bond.remembering r line base).AlikeReaders line (r.freshReader levels) (r.reader levels) := by
  rw [r.reader_eq]
  refine Bond.alikeReaders_trimmed fun low high target ordered inside => ?_
  obtain ⟨-, ordered, ht⟩ := line.trimmed_bounds ordered
  replace inside := Nat.le_trans ht inside
  simp only [Registry.freshReader, readAfresh, readLevel]
  generalize line.trimmed low high = trimmed at *
  obtain ⟨start, stop⟩ := trimmed
  refine .look fun c d kin trials => ?_
  have alike := below start stop target ordered inside c d kin trials
  cases tried : d.isStretchTried (stretchOf line start stop) with
  | true =>
    simp only [Bool.not_true, Bool.false_eq_true, if_false]
    rcases alike with stops | ⟨reading, c', d', ends, ends', rest⟩
    · exact .inl stops
    · refine .inr ⟨reading, c', d', ends, ends'.bind ?_, rest⟩
      cases reading <;> rfl
  | false =>
    obtain ⟨same, since, all, around⟩ := trials
    have untried : Bond.deeper.Trials (stretchOf line start stop) c.trials base := by
      refine untried_within ?_ all around
      rw [← tried, Context.isStretchTried, Context.isStretchTried, same]
    simp only [Bool.not_false, if_true]
    cases found : d.rejections.get? (stretchOf line start stop, target) with
    | some reason =>
      have backed := kin.holds start stop target reason ordered inside found
      rw [Context.alone, ← kin.setting] at backed
      rcases readNested_backed decides levels ordered inside untried backed with
        stops | ⟨c', ends, passes⟩
      · exact .inl stops
      · refine .inr ⟨.rejected reason, c', d, ends, rfl, ?_, passes, .refl d⟩
        exact ⟨passes.setting.trans kin.setting, passes.cancellation.trans kin.cancellation, kin.holds⟩
    | none =>
      rcases alike with stops | ⟨reading, c', d', ends, ends', kin', passes, passes'⟩
      · exact .inl stops
      cases reading with
      | found e => exact .inr ⟨.found e, c', d', ends, ends'.bind rfl, kin', passes, passes'⟩
      | rejected reason =>
        have backed : Backed r line (d'.alone base) start stop target reason := by
          rcases readNested_elsewhere decides (Nat.le_refl levels) target ordered inside untried with
            stops | ⟨reading, _, e, ends'', alone, -⟩
          · exact absurd ends stops.not_ends
          · obtain ⟨rfl, -⟩ := ends.unique ends''
            rw [Context.alone, passes'.setting, ← kin.setting]
            exact ⟨levels, e, alone⟩
        refine .inr ⟨.rejected reason, c', _, ends, ends'.bind rfl, ?_, passes,
          { passes' with }⟩
        exact ⟨kin'.setting, kin'.cancellation, remembering_insert kin'.holds ordered inside backed⟩

/-- **The reader that remembers is like the one that reads afresh**, however deep they may go. -/
theorem reader_alike (levels : Nat) :
    (Bond.remembering r line base).AlikeReaders line (r.freshReader levels) (r.reader levels) := by
  induction levels with
  | zero =>
    exact readLevel_alike decides fun _ _ _ _ _ => Bond.readNested_none_alike _
  | succ levels ih =>
    exact readLevel_alike decides fun start stop target ordered inside =>
      Bond.readNested_alike (Bond.readForms_alike ih inside decides target)

/-- Two parses of a line try its candidates alike, one of them afresh. -/
theorem matchLine_alike (line : Line) (levels : Nat) (category : Category) {c : Context}
    (fresh : c.rejections = {}) :
    (Bond.remembering r line c.trials).AlikeFrom c c (matchLine r (r.freshReader levels) category line)
      (matchLine r (r.reader levels) category line) := by
  obtain ⟨kin, trials⟩ := remembering_nothing (r := r) line fresh
  have inside : (line.trimmed 0 line.size).2 ≤ line.size :=
    (line.trimmed_bounds (Nat.zero_le _)).2.2
  unfold matchLine
  dsimp only
  split
  · exact Bond.tryCategory_alike (reader_alike decides levels) inside decides category _ c c kin
      (trials _)
  · exact Bond.alike_pure _ c c kin (trials (stretchOf line 0 0))

/-- Two parses read a whole text alike, one of them afresh. -/
theorem readWhole_alike (line : Line) (levels : Nat) (target : Target) {c : Context}
    (fresh : c.rejections = {}) :
    (Bond.remembering r line c.trials).AlikeFrom c c (r.freshReader levels line 0 line.size target)
      (r.reader levels line 0 line.size target) := by
  obtain ⟨kin, trials⟩ := remembering_nothing (r := r) line fresh
  exact reader_alike decides levels 0 line.size target (Nat.zero_le _) (Nat.le_refl _) c c kin
    (trials _)

end Transparent

section Cancelled

variable {c : Context} (set : c.cancellation.isSet = true)

include set

/-- A parse that was cancelled before ends at its first candidate, however expressions are read. -/
theorem matchLine_cancelled (read read' : Reader) (category : Category) (line : Line) :
    matchLine r read category line c = matchLine r read' category line c := by
  unfold matchLine tryCategory
  dsimp only
  split
  · cases (r.candidates category).zipIdx with
    | nil => rfl
    | cons first rest => exact (cancelled_bind set _).trans (cancelled_bind set _).symm
  · rfl

theorem freshReader_cancelled (levels start stop : Nat) (target : Target) :
    r.freshReader levels line start stop target c = (.error .cancelled, c) :=
  cancelled_bind set _

theorem reader_cancelled (fresh : c.rejections = {}) (levels start stop : Nat) (target : Target) :
    r.reader levels line start stop target c = (.error .cancelled, c) := by
  rw [r.reader_eq]
  have nothing (stretch : Stretch) (memorable : Bool) :
      (if memorable then c.rejections.get? (stretch, target) else none) = none := by
    cases memorable
    · rfl
    · simp [fresh]
  have looks {g : Context → Parsing Reading} : (Parsing.context >>= g) c = g c c := rfl
  simp only [readLevel, looks, nothing]
  have stops := cancelled_bind (β := Reading) set
  unfold readNested
  rw [bind_assoc]
  exact stops _

end Cancelled

/-- Reporting what is used before it is set leaves the near misses alone. -/
@[simp] theorem nearMisses_warnUnset (reads : List (Span × String)) (c : Context) :
    (warnUnset r reads c).nearMisses = c.nearMisses := by
  obtain ⟨_, same⟩ := exists_warnUnset r reads c
  rw [same]

/-- What a line is, and what came close to it, depends on the result of trying its candidates and on where the
line stands. -/
theorem lineResult_congr {category : Category} {text : String} {c d : Context}
    (setting : c.setting = d.setting) (nearMisses : c.nearMisses = d.nearMisses)
    (result : Option Node × List Attempt) :
    (lineResult r category text (.ok result) c).1 = (lineResult r category text (.ok result) d).1 ∧
      (lineResult r category text (.ok result) c).2.nearMisses =
        (lineResult r category text (.ok result) d).2.nearMisses := by
  obtain ⟨_ | node, attempts⟩ := result
  · simp [lineResult, Context.place_setting setting]
  · simp [lineResult, nearMisses]

end Parse

open Parse Text

/-- A request to cancel is not set yet, but will be. -/
def Cancellation.isDue (c : Cancellation) : Bool :=
  c.remaining.any (0 < ·)

theorem Cancellation.Comes.isDue {c : Cancellation} (comes : c.Comes) (unset : ¬ c.isSet = true) :
    c.isDue = true := by
  obtain ⟨k, checks⟩ := Option.ne_none_iff_exists'.1 comes
  have more : k ≠ 0 := by
    rintro rfl
    exact unset (by simp [isSet, checks])
  simp [Cancellation.isDue, checks, Nat.pos_of_ne_zero more]

/-- A parse from a state was stopped, at the recursion limit or by a request to cancel that came while it
ran. -/
def wasStopped {β : Type} (c : Context) : Except Fault β → Bool
  | .ok _ => false
  | .error fault =>
    match fault.cause with
    | .recursionLimit _ => true
    | .cancelled => c.cancellation.isDue
    | _ => false

section Transparent

variable {r : Registry} (decides : ∀ category, ∀ candidate ∈ r.candidates category,
  DecidesByBlocks r candidate.definition.decide) {c : Context}

include decides

theorem parseLine_eq_afresh {category : Category} {text : String}
    (ended : wasStopped c (r.parseLineAfresh category text c).1 = false) :
    (r.parseLine category text c).1 = (r.parseLineAfresh category text c).1 ∧
      (r.parseLine category text c).2.nearMisses =
        (r.parseLineAfresh category text c).2.nearMisses := by
  unfold Registry.parseLine Registry.parseLineAfresh parseLineBy at *
  by_cases set : c.cancellation.isSet = true
  · rw [matchLine_cancelled (c := { c with nearMisses := [], rejections := {} }) set
      (r.reader c.remainingDepth) (r.freshReader c.remainingDepth)]
    exact ⟨rfl, rfl⟩
  rcases matchLine_alike decides (Line.ofString text) c.remainingDepth category
      (c := { c with nearMisses := [], rejections := {} }) rfl with
    ⟨cause, c', stops, fatal⟩ | ⟨result, c', d', ends, ends', kin, passes, passes'⟩
  · simp only [stops, lineResult] at ended
    rcases fatal with ⟨rfl, comes⟩ | ⟨limit, rfl⟩
    · exact absurd (comes.isDue set) (by simpa [wasStopped] using ended)
    · simp [wasStopped] at ended
  · unfold Ends at ends ends'
    simp only [ends, ends']
    exact lineResult_congr (c := { d' with rejections := c.rejections })
      (d := { c' with rejections := c.rejections }) kin.setting.symm
      (passes'.nearMisses.trans passes.nearMisses.symm) result

theorem parseExpression_eq_afresh {text : String} {types : List PatternType}
    (ended : wasStopped c (r.parseExpressionAfresh text types c).1 = false) :
    (r.parseExpression text types c).1 = (r.parseExpressionAfresh text types c).1 := by
  unfold Registry.parseExpression Registry.parseExpressionAfresh readText at *
  by_cases set : c.cancellation.isSet = true
  · simp only [freshReader_cancelled (c := { c with rejections := {} }) set,
      reader_cancelled (c := { c with rejections := {} }) set rfl]
  rcases readWhole_alike decides (Line.ofString text) c.remainingDepth (.ofTypes types)
      (c := { c with rejections := {} }) rfl with
    ⟨cause, c', stops, fatal⟩ | ⟨result, c', d', ends, ends', kin, passes, passes'⟩
  · simp only [stops] at ended
    rcases fatal with ⟨rfl, comes⟩ | ⟨limit, rfl⟩
    · exact absurd (comes.isDue set) (by simpa [wasStopped] using ended)
    · simp [wasStopped] at ended
  · unfold Ends at ends ends'
    simp only [ends, ends']
    cases result with
    | found e => rfl
    | rejected reason =>
      have place := Context.place_setting (c := { d' with rejections := c.rejections })
        (d := { c' with rejections := c.rejections }) kin.setting.symm
      simp only [place]

end Transparent

/-- **What is remembered makes no difference.** In every registry whose definitions decide by the node and the
blocks around the line alone, a parse comes to the same as one that reads everything afresh, unless that one is
stopped: to the same node or the same failure, with the same near misses. -/
theorem parse_eq_afresh (r : Registry) (decides : ∀ category, ∀ candidate ∈ r.candidates category,
      DecidesByBlocks r candidate.definition.decide) (c : Context) :
    (∀ category text, wasStopped c (r.parseLineAfresh category text c).1 = false →
      (r.parseLine category text c).1 = (r.parseLineAfresh category text c).1 ∧
        (r.parseLine category text c).2.nearMisses =
          (r.parseLineAfresh category text c).2.nearMisses) ∧
    ∀ text types, wasStopped c (r.parseExpressionAfresh text types c).1 = false →
      (r.parseExpression text types c).1 = (r.parseExpressionAfresh text types c).1 :=
  ⟨fun _ _ => parseLine_eq_afresh decides, fun _ _ => parseExpression_eq_afresh decides⟩

/-- A vocabulary of sums, which may start with a sum. -/
def sumsOfSums : List Entry :=
  [.type { name := "number", plural := "numbers", literal := some fun s =>
      if s == "1" then some (.int 1) else none },
    .definition { category := .effect, patterns := ["print %number%"] },
    .definition { category := .expression, patterns := ["%number% + %number%"],
                  returns := some "number" }]

/-- A sum of which one part is no number comes to the same failure, remembered or afresh. -/
theorem parse_eq_afresh_sums :
    let r := ((RegistryBuilder.withConfig {}).addAll sumsOfSums).1.build
    (∀ category, ∀ candidate ∈ r.candidates category,
        DecidesByBlocks r candidate.definition.decide) ∧
      wasStopped {} (r.parseLineAfresh .effect "print 1 + x + 1" {}).1 = false ∧
      (r.parseLine .effect "print 1 + x + 1" {}).1 =
        (r.parseLineAfresh .effect "print 1 + x + 1" {}).1 := by
  intro r
  have reachable := RegistryBuilder.addAll_reachable sumsOfSums (.setConfig {} .new)
  have decides : ∀ d ∈ r.definitions, DecidesByBlocks r d.decide :=
    RegistryBuilder.addAll_decides
      (by simp [sumsOfSums, Entry.Decides, decidesByBlocks_accept])
      fun _ mem => (List.not_mem_nil mem).elim
  have decides : ∀ category, ∀ candidate ∈ r.candidates category,
      DecidesByBlocks r candidate.definition.decide := by
    intro category candidate among
    exact decides _ (List.mem_of_getElem? (reachable.lawful category candidate among).definition)
  have ended : wasStopped {} (r.parseLineAfresh .effect "print 1 + x + 1" {}).1 = false := by
    decide +kernel
  exact ⟨decides, ended, ((parse_eq_afresh r decides {}).1 .effect _ ended).1⟩

end Phrasebook
