import Mathlib.Data.String.Basic
import Phrasebook.Proofs.Decision
import Phrasebook.Proofs.Parse.Origin
import Phrasebook.Proofs.Parse.Respected
import Phrasebook.Proofs.Vocabulary

/-!
# A text within a line

A definition may have a text parsed while a line is being read. What was turned down on the line does not count
for the text, but what is being tried on the line still is: the stretches of the text are compared with stretches
of the line, although they are counted from other places. So a definition that the text needs may be left out,
and what the text comes to depends on where the line was being read. The main statement, `parse_overlooks`, says
how far: of what is being tried, only what ends within as many bytes as the text has makes a difference. A text
that is shorter than every stretch that is being tried is parsed as if nothing were.
-/

namespace Phrasebook
open Text Parse

section Bytes

/-- A line takes up at most so many bytes. -/
def Text.Line.FitsIn (l : Line) (n : Nat) : Prop :=
  String.utf8Len l.chars.toList ≤ n

namespace Text.Line

variable {l : Line} {n : Nat}

theorem FitsIn.byteOffset_le (fits : l.FitsIn n) (pos : Nat) : l.byteOffset pos ≤ n := by
  rw [byteOffset_eq]
  exact Nat.le_trans (String.utf8Len_le_of_sublist (List.take_sublist _ _)) fits

/-- No part of a line takes up more than the line. -/
theorem FitsIn.text_le (fits : l.FitsIn n) (start stop : Nat) : (l.text start stop).utf8ByteSize ≤ n := by
  have part : (l.slice start stop).Sublist l.chars.toList := by
    rw [slice, Array.toList_extract, List.extract_eq_take_drop]
    exact (List.take_sublist _ _).trans (List.drop_sublist _ _)
  rw [text, String.utf8ByteSize_ofList]
  exact Nat.le_trans (String.utf8Len_le_of_sublist part) fits

theorem fitsIn_ofString {text : String} (fits : text.utf8ByteSize ≤ n) : (ofString text).FitsIn n := by
  rwa [← String.ofList_toList (s := text), String.utf8ByteSize_ofList] at fits

end Text.Line

end Bytes

section Captures

variable {α : Type} {r : Match.Reader α} {after : Pattern.Follow} {e : Pattern.Element} {pos stop : Nat}
  {path : List (Match.Pick α)}

/-- What is picked up for a regex stands in the line. -/
theorem Match.Reads.text_of_regex (reads : Match.Reads r after e pos stop path) {text : String}
    (among : .regex text ∈ path) : ∃ low high, text = r.line.text low high := by
  induction reads with
  | literal | space | skipped | filled | absent | nil => simp at among
  | taken _ ih => exact ih among
  | @branch _ _ label _ _ _ _ _ _ ih =>
    rcases List.mem_append.1 among with labelled | among
    · simp [Match.labelPicks] at labelled
    · exact ih among
  | regex =>
    cases List.mem_singleton.1 among
    exact ⟨_, _, rfl⟩
  | cons _ _ ih ih' =>
    rcases List.mem_append.1 among with among | among
    · exact ih among
    · exact ih' among

/-- **What a match captures stands in the line.** -/
theorem Parse.Matches.capture_text {read : Reader} {line : Line} {start stop : Nat} {p : Pattern} (sound : p.Sound)
    {found : Match.Found Expr} (matches_ : Matches read line start stop p found) {capture : String}
    (among : capture ∈ found.captures) : ∃ low high, capture = line.text low high := by
  obtain ⟨fills, path, last, reads, reports, -⟩ := matches_.reads sound
  rw [reports.captures] at among
  obtain ⟨pick, passed, same⟩ := List.mem_filterMap.1 among
  cases pick with
  | mark | tag | argument => cases same
  | regex text =>
    cases same
    exact reads.text_of_regex passed

end Captures

/-- Every text that a decision has parsed takes up at most so many bytes, whatever it sees of the state and
whatever its texts are parsed as. -/
def Action.ParsesUpTo (n : Nat) : Action → Prop
  | .accept _ | .reject _ => True
  | .look next => ∀ view, (next view).ParsesUpTo n
  | .edit _ next => next.ParsesUpTo n
  | .parse text _ next => text.utf8ByteSize ≤ n ∧ ∀ result, (next result).ParsesUpTo n

/-- The texts that expressions and conditions have parsed take up at most so many bytes, if what they capture
does. -/
def Registry.ParsesUpTo (r : Registry) (n : Nat) : Prop :=
  ∀ category, category = .expression ∨ category = .condition → ∀ x ∈ r.candidates category,
    ∀ node : Node, (∀ capture ∈ node.captures, capture.utf8ByteSize ≤ n) →
      (x.definition.decide node).ParsesUpTo n

namespace Context

/-- A state in which only what ends within the first so many bytes is being tried. -/
def within (n : Nat) (c : Context) : Context :=
  { c with trials := c.trials.filter fun t => t.stretch.stop ≤ n }

variable {n : Nat} {stretch : Stretch}

theorem beside_within (n : Nat) : Beside (within n) :=
  fun _ _ _ _ => rfl

/-- Whether a definition is being tried on a stretch is seen among what ends where the stretch does. -/
theorem isTrying_within (ends : stretch.stop ≤ n) (c : Context) (definition : Nat) :
    (c.within n).isTrying definition stretch = c.isTrying definition stretch := by
  simp [isTrying, within, ends]

theorem isStretchTried_within (ends : stretch.stop ≤ n) (c : Context) :
    (c.within n).isStretchTried stretch = c.isStretchTried stretch := by
  rw [isStretchTried, isStretchTried, within, List.any_filter]
  refine congrArg (List.any c.trials) (funext fun t => ?_)
  by_cases same : t.stretch = stretch <;> simp [same, ends]

/-- Where everything that is being tried ends further behind, none of it is left. -/
theorem within_of_behind {c : Context} (behind : ∀ t ∈ c.trials, n < t.stretch.stop) :
    c.within n = { c with trials := [] } := by
  have none : (c.trials.filter fun t => t.stretch.stop ≤ n) = [] := by
    simpa [List.filter_eq_nil_iff] using behind
  rw [within, none]

end Context

namespace Parse

variable {β γ : Type} {n : Nat}

/-- To a step only what is being tried within the first so many bytes makes a difference, and the step leaves all
that is being tried alone. -/
def Overlooks (n : Nat) (step : Context → β × Context) : Prop :=
  ∀ c, (step c).2.trials = c.trials ∧ step (c.within n) = ((step c).1, (step c).2.within n)

theorem overlooks_pure (b : β) : Overlooks n (pure b : Parsing β) :=
  fun _ => ⟨rfl, rfl⟩

theorem Overlooks.bind {x : Parsing β} {f : β → Parsing γ} (first : Overlooks n x)
    (second : ∀ b, Overlooks n (f b)) : Overlooks n (x >>= f) := by
  intro c
  obtain ⟨kept, same⟩ := first c
  cases ran : x c with
  | mk result c' =>
    rw [ran] at kept same
    cases result with
    | error cause =>
      rw [bind_error ran, bind_error same]
      exact ⟨kept, rfl⟩
    | ok b =>
      obtain ⟨kept', same'⟩ := second b c'
      rw [Ends.bind_apply ran, Ends.bind_apply same]
      exact ⟨kept'.trans kept, same'⟩

theorem overlooks_checkCancelled : Overlooks n Parsing.checkCancelled := by
  intro c
  have same : (c.within n).cancellation = c.cancellation := rfl
  simp only [Parsing.checkCancelled, Parsing.of, same]
  split <;> exact ⟨rfl, rfl⟩

theorem Overlooks.orUndone {x : Parsing (Option β)} (h : Overlooks n x) : Overlooks n (orUndone x) := by
  have checkpoint : Overlooks n Parsing.checkpoint := fun _ => ⟨rfl, rfl⟩
  refine checkpoint.bind fun before => h.bind fun b? => ?_
  cases b? with
  | none =>
    have undo : Overlooks n (Parsing.change fun c => c.rollback before) := fun _ => ⟨rfl, rfl⟩
    exact undo.bind fun _ => overlooks_pure _
  | some b => exact overlooks_pure _

theorem Overlooks.bracket {x : Parsing β} (h : Overlooks n x) {enter leave : Context → Context}
    (enters : ∀ c, enter (c.within n) = (enter c).within n)
    (leaves : ∀ c c', c'.trials = (enter c).trials →
      (leave c').trials = c.trials ∧ leave (c'.within n) = (leave c').within n) :
    Overlooks n (Parsing.bracket enter leave x) := by
  intro c
  obtain ⟨kept, same⟩ := h (enter c)
  obtain ⟨left, same'⟩ := leaves c _ kept
  refine ⟨left, ?_⟩
  simp only [Parsing.bracket, Parsing.of, enters, same, same']
  rfl

/-- What is tried meanwhile and ends within the first bytes is seen, and no longer tried afterwards. -/
theorem Overlooks.trying {x : Parsing β} (h : Overlooks n x) {trial : Trial} (ends : trial.stretch.stop ≤ n) :
    Overlooks n (Parsing.bracket (fun c => { c with trials := trial :: c.trials })
      (fun c => { c with trials := c.trials.tail }) x) := by
  refine h.bracket (fun c => ?_) fun c c' kept => ?_
  · simp [Context.within, ends]
  · simp [Context.within, kept, ends]

/-- What was turned down on a stretch is looked up, or not, by what is being tried on it. -/
theorem overlooks_lookBack {stretch : Stretch} (ends : stretch.stop ≤ n) (target : Target) :
    Overlooks n (lookBack stretch target) := by
  refine fun c => ⟨rfl, Prod.ext ?_ rfl⟩
  have seen := Context.isStretchTried_within ends c
  show Except.ok (!(c.within n).isStretchTried stretch, if !(c.within n).isStretchTried stretch then _ else _) = _
  rw [seen]
  rfl

/-- Reading a line that fits looks no further. -/
theorem respected_overlooks {line : Line} (fits : line.FitsIn n) :
    Respected line fun _ x _ => Overlooks n x where
  pure := overlooks_pure
  bind := Overlooks.bind
  checkCancelled := overlooks_checkCancelled
  isTrying definition _ stop := fun c =>
    ⟨rfl, Prod.ext (congrArg Except.ok (Context.isTrying_within (fits.byteOffset_le stop) c definition)) rfl⟩
  countTrial := fun _ => ⟨rfl, rfl⟩
  lookBack _ stop target := overlooks_lookBack (fits.byteOffset_le stop) target
  remember _ _ _ _ := fun _ => ⟨rfl, rfl⟩
  spanOf _ _ := fun _ => ⟨rfl, rfl⟩
  orUndone := Overlooks.orUndone
  deeper h := h.bracket (fun _ => rfl) fun _ _ kept => ⟨kept, rfl⟩

section Reading

variable {r : Registry} {read : Reader} {text : String}

/-- A text is read as a line is, and local variables are reported whatever is being tried. -/
theorem Overlooks.readText (types : List PatternType)
    (parts : ∀ start stop target, Overlooks n (read (Line.ofString text) start stop target)) :
    Overlooks n (readText r read text types) := by
  intro c
  obtain ⟨kept, same⟩ := parts 0 (Line.ofString text).size (.ofTypes types) { c with rejections := {} }
  have started : ({ c.within n with rejections := {} } : Context) = Context.within n { c with rejections := {} } :=
    rfl
  simp only [Parse.readText, started, same]
  generalize read _ _ _ _ _ = ran at kept
  obtain ⟨result, after⟩ := ran
  rcases result with cause | e | reason
  · exact ⟨kept, rfl⟩
  · let c' : Context := { after with rejections := c.rejections }
    have warned := (Context.beside_within n).warnUnset r e.localReads c'
    obtain ⟨diagnostics, reported⟩ := exists_warnUnset r e.localReads c'
    have trials : (warnUnset r e.localReads c').trials = after.trials := by rw [reported]
    exact ⟨trials.trans kept, Prod.ext rfl warned⟩
  · exact ⟨kept, rfl⟩

/-- A decision is carried out alike if its texts are read alike. -/
theorem overlooks_carryOut
    (texts : ∀ text types, text.utf8ByteSize ≤ n → Overlooks n (Parse.readText r read text types))
    {action : Action} (short : action.ParsesUpTo n) : Overlooks n (carryOut r read action) := by
  induction action with
  | accept | reject => exact fun _ => ⟨rfl, rfl⟩
  | look next ih => exact fun c => ih (r.view c) (short (r.view c)) c
  | edit change next ih =>
    intro c
    obtain ⟨kept, same⟩ := ih short (change.apply c)
    have edited : change.apply (c.within n) = (change.apply c).within n := (Context.beside_within n).apply change c
    refine ⟨kept.trans (change.trials_apply c), ?_⟩
    simp only [carryOut, edited]
    exact same
  | parse text types next ih =>
    intro c
    obtain ⟨kept, same⟩ := texts text types short.1 c
    obtain ⟨kept', same'⟩ := ih _ (short.2 _) (Parse.readText r read text types c).2
    refine ⟨kept'.trans kept, ?_⟩
    simp only [carryOut, same]
    exact same'

variable {line : Line} {start stop : Nat}

/-- **A candidate is tried alike** if what it captures is no longer than the line and its texts are no longer
than the line may be. -/
theorem overlooks_tryCandidate (fits : line.FitsIn n) {x : Candidate} (sound : x.pattern.Sound)
    (short : ∀ node : Node, (∀ capture ∈ node.captures, capture.utf8ByteSize ≤ n) →
      (x.definition.decide node).ParsesUpTo n)
    (parts : ∀ line : Line, line.FitsIn n → ∀ start stop target, Overlooks n (read line start stop target)) :
    Overlooks n (tryCandidate r read line start stop x) := by
  let resolve (p : Pattern.Placeholder) (start stop : Nat) := read line start stop (.ofPlaceholder p)
  let matching := Match.run x.pattern line start stop resolve
  have matched : Overlooks n (matchCandidate read line start stop x) :=
    Overlooks.trying (x := matching)
      (@Match.related_run _ _ _ _ _ (respected_overlooks fits).toComposes _ _ _ _ _ resolve resolve
        fun p low high _ _ _ => parts line fits low high _)
      (fits.byteOffset_le stop)
  intro c
  obtain ⟨kept, same⟩ := matched c
  simp only [tryCandidate, Parsing.of, same]
  cases ran : matchCandidate read line start stop x c with
  | mk result c' =>
    rw [ran] at kept
    rcases result with cause | failure | found
    · exact ⟨kept, rfl⟩
    · exact ⟨kept, rfl⟩
    have captured : ∀ capture ∈ found.captures, capture.utf8ByteSize ≤ n := by
      intro capture among
      have matches_ := matchCandidate_matches x c _ c' ran found rfl
      obtain ⟨low, high, rfl⟩ := matches_.capture_text sound among
      exact fits.text_le low high
    let node := nodeOf x found (c'.span (stretchOf line start stop))
    obtain ⟨kept', same'⟩ := overlooks_carryOut (r := r) (fun text types le => Overlooks.readText types
      (parts (Line.ofString text) (Line.fitsIn_ofString le))) (short node captured) c'
    have span : (c'.within n).span (stretchOf line start stop) = c'.span (stretchOf line start stop) := rfl
    dsimp only
    rw [span, same']
    generalize carryOut r read (x.definition.decide node) c' = carried at kept' ⊢
    obtain ⟨node | reason, c''⟩ := carried
    · exact ⟨kept'.trans kept, rfl⟩
    · exact ⟨kept'.trans kept, rfl⟩

/-- **What is read within the first bytes is read alike**, however deep. -/
theorem overlooks_reader (lawful : r.Lawful) (short : r.ParsesUpTo n) (levels : Nat) (fits : line.FitsIn n)
    (start stop : Nat) (target : Target) : Overlooks n (r.reader levels line start stop target) := by
  refine @Respected.reader (fun _ x => Overlooks n x) r (Line.FitsIn · n) (fun _ => respected_overlooks)
    (fun line start stop target _ => ?_) (fun read below line start stop target fits category tried x among => ?_)
    levels line start stop target fits
  · exact overlooks_checkCancelled.bind fun _ _ => ⟨rfl, rfl⟩
  · exact overlooks_tryCandidate fits (lawful category x among).sound
      (short category (mem_categoriesFor tried) x among) fun line fits start stop target =>
        below line start stop target fits

end Reading

end Parse

/-- **A text within a line is confused by what ends within its own bytes, and by nothing else.** If the texts that
definitions have parsed take up at most so many bytes, a text that does as well comes to the same, leaves the same
behind, and leaves alone what is being tried, whatever is being tried that ends further behind, on whatever
line. If all of it does, the text is parsed as if nothing were being tried. -/
theorem parse_overlooks {b : RegistryBuilder} (reachable : b.Reachable) {n : Nat} (short : b.build.ParsesUpTo n)
    {text : String} (fits : text.utf8ByteSize ≤ n) (types : List PatternType) :
    (∀ levels, Overlooks n (readText b.build (b.build.reader levels) text types)) ∧
    Overlooks n (b.build.parseExpression text types) ∧
    ∀ levels c, (∀ t ∈ c.trials, n < t.stretch.stop) →
      readText b.build (b.build.reader levels) text types { c with trials := [] } =
        ((readText b.build (b.build.reader levels) text types c).1,
          { (readText b.build (b.build.reader levels) text types c).2 with trials := [] }) := by
  have overlooks (levels : Nat) : Overlooks n (readText b.build (b.build.reader levels) text types) :=
    Overlooks.readText types (overlooks_reader reachable.lawful short levels (Line.fitsIn_ofString fits))
  refine ⟨overlooks, fun c => overlooks c.remainingDepth c, fun levels c behind => ?_⟩
  obtain ⟨kept, same⟩ := overlooks levels c
  have left : ∀ t ∈ (readText b.build (b.build.reader levels) text types c).2.trials, n < t.stretch.stop := by
    rw [kept]
    exact behind
  rw [← Context.within_of_behind behind, same, Context.within_of_behind left]

/-- A decision that has what it captures parsed has no longer text parsed. -/
theorem parsesUpTo_parseCapture (typeName : String) (n : Nat) (node : Node)
    (captured : ∀ capture ∈ node.captures, capture.utf8ByteSize ≤ n) :
    (Clause.decision [.parseCapture typeName] node).ParsesUpTo n := by
  have first : (node.captures.headD "").utf8ByteSize ≤ n := by
    cases captures : node.captures with
    | nil => exact Nat.zero_le n
    | cons capture rest => exact captured capture (captures ▸ List.mem_cons_self)
  intro view
  dsimp only
  split
  · trivial
  · refine ⟨first, fun result => ?_⟩
    cases result <;> trivial

/-- A vocabulary in which one may ask for a number. What is asked for is parsed as a text of its own. -/
def inquiries : List Entry :=
  [.type { name := "number", plural := "numbers", literal := some fun s =>
      if s == "1" then some (.int 1) else none },
    .definition { category := .expression, patterns := ["ask <.+>"], returns := some "number"
                  decide := Clause.decision [.parseCapture "number"] }]

/-- While a stretch of nine bytes is being tried, five bytes are parsed as if nothing were; while the first five
are, they are not. -/
theorem parse_overlooks_inquiries :
    let b := ((RegistryBuilder.withConfig {}).addAll inquiries).1
    let numbers := (b.build.types.table.resolve "number").toList
    let parsed (trials : List Trial) := (b.build.parseExpression "ask 1" numbers { trials }).1
    b.build.ParsesUpTo 5 ∧ "ask 1".utf8ByteSize ≤ 5 ∧ (parsed []).toOption.isSome = true ∧
      parsed [⟨0, 0, 9⟩] = parsed [] ∧ (parsed [⟨0, 0, 5⟩]).toOption.isSome = false := by
  intro b numbers parsed
  have reachable : b.Reachable := RegistryBuilder.addAll_reachable inquiries (.setConfig {} .new)
  have short : b.build.ParsesUpTo 5 := by
    intro category _
    exact RegistryBuilder.candidates_decides (P := fun decide => ∀ node : Node,
        (∀ capture ∈ node.captures, capture.utf8ByteSize ≤ 5) → (decide node).ParsesUpTo 5)
      (by simpa [inquiries, Entry.Decides] using parsesUpTo_parseCapture "number" 5) category
  have fits : "ask 1".utf8ByteSize ≤ 5 := by decide
  obtain ⟨-, expression, -⟩ := parse_overlooks reachable short fits numbers
  have behind : parsed [] = parsed [⟨0, 0, 9⟩] := (Prod.ext_iff.1 (expression { trials := [⟨0, 0, 9⟩] }).2).1
  exact ⟨short, fits, by decide +kernel, behind.symm, by decide +kernel⟩

end Phrasebook
