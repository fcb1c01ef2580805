import Phrasebook.Proofs.Parse.Paired
import Phrasebook.Proofs.Vocabulary

/-!
# The same text elsewhere

What a stretch of a line is read as depends on its own text: where another line holds the same text, and both
stretches start at the edge of a word, the same is read there, with every offset and column further on by as
many bytes. Of the surroundings only what decisions may look at matters: the scopes, the blocks around the
line, its place, and the depth.
-/

namespace Phrasebook
open Text Parse

/-- A span so many bytes further on in its line. Columns stop at the greatest number. -/
def Span.further (n : Nat) (s : Span) : Span :=
  { s with start := s.start + n, stop := s.stop + n, column := min greatestPosition (s.column + n) }

/-- What stands so many bytes further on. -/
def Translation.further (n : Nat) : Translation where
  span := Span.further n

/-- Two parses of a text that stands so many bytes further on in the second. -/
def Correspondence.further (n : Nat) : Correspondence where
  toTranslation := .further n
  views := Eq
  reports _ _ := True

/-- A decision depends on a node and on what it sees, but not on where the node stands. It may report anything
about the place. -/
def DecidesAnywhere (decide : Node → Action) : Prop :=
  ∀ n node, (decide node).Corresponds (.further n) (decide (node.translate (.further n)))

namespace Context

/-- Two states have the same surroundings. -/
structure AgreesWith (c d : Context) : Prop where
  place : d.place = c.place
  scopes : d.scopes = c.scopes
  enclosing : d.enclosing = c.enclosing
  depth : d.depth = c.depth
  maxDepth : d.maxDepth = c.maxDepth
  cancellation : d.cancellation = c.cancellation

/-- No definition is being tried, and nothing was turned down before. -/
structure IsFresh (c : Context) : Prop where
  trials : c.trials = []
  rejections (key : Stretch × Target) : c.rejections.get? key = none

theorem AgreesWith.symm {c d : Context} (h : c.AgreesWith d) : d.AgreesWith c :=
  ⟨h.place.symm, h.scopes.symm, h.enclosing.symm, h.depth.symm, h.maxDepth.symm, h.cancellation.symm⟩

end Context

namespace Parse

/-- A result and the same result so many bytes further on. -/
def further (n : Nat) (result : Except Cause Reading) : Except Cause Reading :=
  result.map (Match.Outcome.map (Expr.translate (.further n)))

namespace Pairing

/-- Two parses of a text that stands so many bytes further on in the second. -/
def elsewhere (n : Nat) (reported reported' : List Diagnostic) : Pairing where
  toCorrespondence := .further n
  stretches a b := b = ⟨a.start + n, a.stop + n⟩
  reported := reported
  reported' := reported'
  asides _ _ := True
  definition_inj same := same
  stretches_unique := by
    rintro ⟨i, j⟩ ⟨i', j'⟩ _ _ rfl rfl
    simp only [Stretch.mk.injEq]
    omega
  stretches_refl := by
    intro same a
    have still : 0 + n = 0 := congrArg Span.start (congrFun same ⟨0, 0, 0, 0⟩)
    obtain rfl : n = 0 := by omega
    rfl
  warnings _ _ := trivial
  asides_tick _ := trivial
  asides_misses _ _ := trivial

variable {r : Registry} {l l' : Line} {start stop start' stop' n : Nat} {c d : Context}

theorem elsewhere_registries (reported reported' : List Diagnostic)
    (anywhere : ∀ category, ∀ candidate ∈ r.candidates category, DecidesAnywhere candidate.definition.decide) :
    (elsewhere n reported reported').Registries r r where
  types := rfl
  config := rfl
  candidates category := by
    refine List.forall₂_same.2 fun candidate mem => ?_
    exact ⟨rfl, rfl, rfl, rfl, anywhere category candidate mem n, rfl, rfl⟩
  views {c d} states := by
    obtain ⟨line, column⟩ := Prod.mk.inj states.position
    have enclosing : d.enclosing = c.enclosing := states.enclosing.trans (List.map_id _)
    show r.view c = r.view d
    simp only [Registry.view, states.source, line, column, states.scopes, states.depth, enclosing,
      states.cancellation]

theorem elsewhere_states (agree : c.AgreesWith d) (fresh : c.IsFresh) (fresh' : d.IsFresh) :
    (elsewhere n c.diagnostics d.diagnostics).States c d where
  place := agree.place
  scopes := agree.scopes
  depth := agree.depth
  maxDepth := agree.maxDepth
  cancellation := agree.cancellation
  enclosing := agree.enclosing.trans (List.map_id _).symm
  trials := by
    rw [fresh.trials, fresh'.trials]
    exact .nil
  rejections _ _ := by rw [fresh.rejections, fresh'.rejections]
  diagnostics := ⟨[], [], (List.append_nil _).symm, (List.append_nil _).symm, .nil⟩
  asides := trivial
  calm := .inl trivial

/-- A stretch is seen where its text stands, at so many bytes further on. -/
theorem elsewhere_sees {reported reported' : List Diagnostic} (h : start ≤ stop)
    (aligned : (l.before stop).Aligned (l'.before (shift start start' stop)) start start')
    (later : l'.byteOffset start' = l.byteOffset start + n) :
    (elsewhere n reported reported').Sees l l' start start' stop := by
  have bytes {pos : Nat} (hs : start ≤ pos) (ht : pos ≤ stop) :
      l'.byteOffset (shift start start' pos) = l.byteOffset pos + n := by
    have same := aligned.byteOffset_shift hs
    rw [l.byteOffset_before ht, l.byteOffset_before h, l'.byteOffset_before ((shift_le_iff h).2 ht),
      l'.byteOffset_before (Nat.le_trans (Nat.le_of_eq (shift_self start start').symm)
        ((shift_le_iff h).2 h))] at same
    omega
  refine ⟨aligned, h, fun hs le ht => ?_, fun line column hs le ht => ?_⟩
  · simp only [elsewhere, stretchOf, bytes hs (Nat.le_trans le ht), bytes (Nat.le_trans hs le) ht]
  · rw [bytes hs (Nat.le_trans le ht), bytes (Nat.le_trans hs le) ht]
    simp only [elsewhere, Correspondence.further, Translation.further, Span.further, Span.withinLine,
      Span.mk.injEq, true_and]
    omega

end Pairing

section Reader

variable {r : Registry} {l l' : Line} {start stop start' stop' : Nat} {c d : Context}
  (anywhere : ∀ category, ∀ candidate ∈ r.candidates category, DecidesAnywhere candidate.definition.decide)
  (h : start ≤ stop) (within : stop ≤ l.size) (h' : start' ≤ stop') (within' : stop' ≤ l'.size)
  (text : l'.slice start' stop' = l.slice start stop) (boundary : l.isBoundary start = true)
  (boundary' : l'.isBoundary start' = true) (agree : c.AgreesWith d) (fresh : c.IsFresh)
  (fresh' : d.IsFresh)

include anywhere h within h' within' text boundary boundary' agree fresh fresh'

/-- The same is read further on. -/
theorem reader_further {n : Nat} (later : l'.byteOffset start' = l.byteOffset start + n) (target : Target) :
    (r.reader d.remainingDepth l' start' stop' target d).1 =
      further n (r.reader c.remainingDepth l start stop target c).1 := by
  obtain ⟨rfl, aligned⟩ := Line.aligned_of_slice h within h' within' text boundary boundary'
  have states := Pairing.elsewhere_states (n := n) agree fresh fresh'
  have readers := Pairing.reader_inStep (Pairing.elsewhere_registries (n := n)
    c.diagnostics d.diagnostics anywhere) c.remainingDepth
  obtain ⟨results, -⟩ := readers l l' start start' stop (Pairing.elsewhere_sees h aligned later) start stop
    target (Nat.le_refl _) h (Nat.le_refl _) c d states
  rw [shift_self] at results
  rw [states.remainingDepth]
  generalize (r.reader c.remainingDepth l start stop target c).1 = a at results
  generalize (r.reader c.remainingDepth l' start' _ target d).1 = b at results
  match a, b, results with
  | .error cause, .error _, rfl => rfl
  | .ok reading, .ok _, rfl => rfl

/-- **What a stretch is read as depends on its own text.** Where the same text stands in another line, or at
another place of the line, the same is read: the same error, the same reason for which it is turned down, or
the same expression as many bytes further on as the text stands. -/
theorem reader_elsewhere (target : Target) :
    let result := (r.reader c.remainingDepth l start stop target c).1
    let result' := (r.reader d.remainingDepth l' start' stop' target d).1
    let bytes := l.byteOffset start
    let bytes' := l'.byteOffset start'
    (bytes ≤ bytes' → result' = further (bytes' - bytes) result) ∧
      (bytes' ≤ bytes → result = further (bytes - bytes') result') := by
  refine ⟨fun later => ?_, fun earlier => ?_⟩
  · exact reader_further anywhere h within h' within' text boundary boundary' agree fresh fresh'
      (Nat.add_sub_cancel' later).symm target
  · exact reader_further anywhere h' within' h within text.symm boundary' boundary agree.symm fresh' fresh
      (Nat.add_sub_cancel' earlier).symm target

end Reader

/-- A vocabulary of sums, each of which is reported where it stands, with the number of open scopes. -/
def reportedSums : List Entry :=
  [.type { name := "number", plural := "numbers", literal := some fun s =>
      if s == "1" then some (.int 1) else none },
    .definition
      { category := .expression, patterns := ["%number% + %number%"], returns := some "number"
        decide := Clause.decision [.reporting .info .other fun view => s!"sum in {view.scopes.length}"] }]

/-- An expression was found. -/
def isFound : Except Cause Reading → Bool
  | .ok (.found _) => true
  | _ => false

theorem decidesAnywhere_reporting (severity : Severity) (code : Code) (message : View → String) :
    DecidesAnywhere (Clause.decision [.reporting severity code message]) := by
  intro n node
  refine .look fun view _ same => ?_
  cases same
  exact .edit (.report trivial) (.accept node)

/-- A sum of sums is read in the middle of one line and in the middle of another, two bytes further on. -/
theorem reader_elsewhere_sums :
    let r := ((RegistryBuilder.withConfig {}).addAll reportedSums).1.build
    let target := Target.ofTypes (r.types.table.resolve "number").toList
    let result := (r.reader 64 (.ofString "put 1 + 1 + 1 there") 4 13 target {}).1
    (∃ e, result = .ok (.found e)) ∧
      (r.reader 64 (.ofString "print 1 + 1 + 1") 6 15 target {}).1 = further 2 result := by
  intro r target result
  have found : isFound result = true := by decide +kernel
  have anywhere : ∀ category, ∀ candidate ∈ r.candidates category,
      DecidesAnywhere candidate.definition.decide :=
    RegistryBuilder.candidates_decides (P := DecidesAnywhere)
      (by simp [reportedSums, Entry.Decides, decidesAnywhere_reporting])
  have fresh : ({} : Context).IsFresh := ⟨rfl, fun key => Table.get?_empty key⟩
  constructor
  · clear_value result
    rcases result with cause | e | reason
    · cases found
    · exact ⟨e, rfl⟩
    · cases found
  · exact (reader_elsewhere (r := r) (c := {}) (d := {}) anywhere (by decide) (by decide) (by decide)
      (by decide) (by decide +kernel) (by decide +kernel) (by decide +kernel)
      ⟨rfl, rfl, rfl, rfl, rfl, rfl⟩ fresh fresh target).1
      (by decide +kernel)

end Parse

end Phrasebook
