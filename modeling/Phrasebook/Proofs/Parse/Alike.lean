import Phrasebook.Proofs.Decision
import Phrasebook.Proofs.Parse.Parts
import Phrasebook.Proofs.Step

/-!
# Two parses side by side

Two parses of one line may run in states that differ: in their depth, in what they have remembered, in the
definitions that they are trying. A `Bond` says how far the states may differ, and `Bond.Alike` that two steps
come to the same result in such states, unless the first one is stopped by the recursion limit or a request
to cancel. Every way to put steps together keeps alike what was alike.
-/

namespace Phrasebook
open Text

namespace Cancellation

/-- A request is set, or will be. -/
def Comes (a : Cancellation) : Prop :=
  a.remaining ≠ none

theorem comes_of_isSet {a : Cancellation} (set : a.isSet = true) : a.Comes := by
  have now : a.remaining = some 0 := by simpa [isSet] using set
  simp [Comes, now]

theorem comes_tick (a : Cancellation) : a.tick.Comes ↔ a.Comes := by
  simp [Comes, tick]

/-- One request comes no later than another. -/
def NotAfter (a b : Cancellation) : Prop :=
  ∀ k, b.remaining = some k → ∃ j, j ≤ k ∧ a.remaining = some j

theorem NotAfter.refl (a : Cancellation) : a.NotAfter a :=
  fun k h => ⟨k, Nat.le_refl k, h⟩

theorem NotAfter.trans {a b c : Cancellation} (h : a.NotAfter b) (h' : b.NotAfter c) :
    a.NotAfter c := by
  intro k eq
  obtain ⟨j, le, eq⟩ := h' k eq
  obtain ⟨i, le', eq⟩ := h j eq
  exact ⟨i, Nat.le_trans le' le, eq⟩

theorem notAfter_none (a : Cancellation) : a.NotAfter {} :=
  fun _ h => nomatch h

theorem NotAfter.tick {a b : Cancellation} (h : a.NotAfter b) : a.tick.NotAfter b.tick := by
  intro k eq
  obtain ⟨n, before, rfl⟩ := Option.map_eq_some_iff.1 eq
  obtain ⟨j, le, eq⟩ := h n before
  exact ⟨j - 1, Nat.sub_le_sub_right le 1, by simp [Cancellation.tick, eq]⟩

theorem tick_notAfter (a : Cancellation) : a.tick.NotAfter a :=
  fun k h => ⟨k - 1, Nat.sub_le k 1, by simp [Cancellation.tick, h]⟩

/-- A request that comes no later than one that is set is set. -/
theorem NotAfter.isSet {a b : Cancellation} (h : a.NotAfter b) (set : b.isSet = true) :
    a.isSet = true := by
  obtain ⟨j, le, eq⟩ := h 0 (by simpa [Cancellation.isSet] using set)
  cases Nat.le_zero.1 le
  simpa [Cancellation.isSet] using eq

end Cancellation

namespace Context

/-- What of a state the results of a parse depend on: where the line stands, and the blocks around it. -/
def setting (c : Context) : Context where
  source := c.source
  line := c.line
  column := c.column
  enclosing := c.enclosing

theorem span_setting {c d : Context} (h : c.setting = d.setting) (stretch : Stretch) :
    c.span stretch = d.span stretch := by
  show c.setting.span stretch = d.setting.span stretch
  rw [h]

theorem enclosing_setting {c d : Context} (h : c.setting = d.setting) : c.enclosing = d.enclosing := by
  show c.setting.enclosing = d.setting.enclosing
  rw [h]

theorem place_setting {c d : Context} (h : c.setting = d.setting) : c.place = d.place := by
  show c.setting.place = d.setting.place
  rw [h]

/-- A step leaves the state much as it found it. -/
structure Passes (c c' : Context) : Prop where
  setting : c'.setting = c.setting
  trials : c'.trials = c.trials
  nearMisses : c'.nearMisses = c.nearMisses
  cancellation : c'.cancellation.NotAfter c.cancellation
  comes : c'.cancellation.Comes → c.cancellation.Comes

namespace Passes

theorem refl (c : Context) : c.Passes c := ⟨rfl, rfl, rfl, .refl _, id⟩

theorem trans {c c' c'' : Context} (h : c.Passes c') (h' : c'.Passes c'') : c.Passes c'' where
  setting := h'.setting.trans h.setting
  trials := h'.trials.trans h.trials
  nearMisses := h'.nearMisses.trans h.nearMisses
  cancellation := h'.cancellation.trans h.cancellation
  comes := h.comes ∘ h'.comes

end Passes

/-- A change touches neither the surroundings nor what was remembered. -/
structure Keeps (c c' : Context) : Prop where
  setting : c'.setting = c.setting
  trials : c'.trials = c.trials
  nearMisses : c'.nearMisses = c.nearMisses
  cancellation : c'.cancellation = c.cancellation
  rejections : c'.rejections = c.rejections

theorem Keeps.passes {c c' : Context} (h : c.Keeps c') : c.Passes c' :=
  ⟨h.setting, h.trials, h.nearMisses, h.cancellation ▸ .refl _, h.cancellation ▸ id⟩

theorem keeps_rollback (c : Context) (p : Checkpoint) : c.Keeps (c.rollback p) :=
  ⟨rfl, rfl, rfl, rfl, rfl⟩

theorem keeps_deepen (c : Context) : c.Keeps c.deepen := ⟨rfl, rfl, rfl, rfl, rfl⟩

theorem keeps_leave (c : Context) : c.Keeps c.leave := ⟨rfl, rfl, rfl, rfl, rfl⟩

end Context

namespace Parse

/-- A step is stopped, by the recursion limit or by a request to cancel. -/
def Stops {β : Type} (x : Parsing β) (c : Context) : Prop :=
  ∃ cause c', x c = (.error cause, c') ∧
    (cause = .cancelled ∧ c.cancellation.Comes ∨ ∃ limit, cause = .recursionLimit limit)

theorem Stops.bind {β γ : Type} {x : Parsing β} {f : β → Parsing γ} {c : Context} (h : Stops x c) :
    Stops (x >>= f) c := by
  obtain ⟨cause, c', stops, fatal⟩ := h
  exact ⟨cause, c', bind_error stops, fatal⟩

theorem Stops.after {β γ : Type} {x : Parsing β} {f : β → Parsing γ} {c c' : Context} {b : β}
    (first : Ends x c b c') (passes : c.Passes c') (h : Stops (f b) c') : Stops (x >>= f) c := by
  obtain ⟨cause, c'', stops, fatal⟩ := h
  exact ⟨cause, c'', first.bind_apply.trans stops, fatal.imp_left fun h => ⟨h.1, passes.comes h.2⟩⟩

theorem Stops.not_ends {β : Type} {x : Parsing β} {c c' : Context} {b : β} (h : Stops x c) :
    ¬ Ends x c b c' := by
  obtain ⟨cause, c'', stops, -⟩ := h
  intro ends
  cases stops.symm.trans ends

section Cancelled

variable {c : Context} {β : Type}

/-- A parse that is cancelled goes no further than the next check. -/
theorem cancelled_bind (set : c.cancellation.isSet = true) (rest : Unit → Parsing β) :
    (Parsing.checkCancelled >>= rest) c = (.error .cancelled, c) := by
  have stops : Parsing.checkCancelled c = (.error .cancelled, c) := by
    simp [Parsing.checkCancelled, Parsing.of, set]
  exact bind_error stops

theorem ends_checkCancelled (unset : ¬ c.cancellation.isSet = true) :
    Ends Parsing.checkCancelled c () { c with cancellation := c.cancellation.tick } := by
  simp [Ends, Parsing.checkCancelled, Parsing.of, unset]

/-- Where no request ever comes, a check changes nothing. -/
theorem ends_checkCancelled_calm (calm : c.cancellation = {}) : Ends Parsing.checkCancelled c () c := by
  have unset : ¬ c.cancellation.isSet = true := by
    rw [calm]
    decide
  have same : c.cancellation.tick = c.cancellation := by
    rw [calm]
    rfl
  have checked := ends_checkCancelled unset
  rwa [same] at checked

end Cancelled

/-- How the states of two parses of one line are tied to each other. -/
structure Bond where
  /-- what holds of the state of the second parse -/
  Holds : Context → Prop
  /-- how the definitions that the two are trying are related, for a stretch that both read -/
  Trials : Stretch → List Trial → List Trial → Prop
  keeps {c c' : Context} : c'.setting = c.setting → c'.rejections = c.rejections → Holds c → Holds c'
  narrow {a b : Stretch} {ts us : List Trial} : a.Within b → Trials b ts us → Trials a ts us
  push {s : Stretch} {ts us : List Trial} (definition : Nat) :
    Trials s ts us → Trials s (⟨definition, s⟩ :: ts) (⟨definition, s⟩ :: us)
  agree {s : Stretch} {ts us : List Trial} (definition : Nat) :
    Trials s ts us → (⟨definition, s⟩ ∈ ts ↔ ⟨definition, s⟩ ∈ us)

namespace Bond

variable {b : Bond} {s : Stretch} {β γ : Type}

/-- Two states are tied. -/
structure Kin (b : Bond) (c d : Context) : Prop where
  setting : c.setting = d.setting
  cancellation : c.cancellation.NotAfter d.cancellation
  holds : b.Holds d

theorem Kin.keeps {c c' d d' : Context} (kin : b.Kin c d) (first : c.Keeps c')
    (second : d.Keeps d') : b.Kin c' d' where
  setting := first.setting.trans (kin.setting.trans second.setting.symm)
  cancellation := by
    rw [first.cancellation, second.cancellation]
    exact kin.cancellation
  holds := b.keeps second.setting second.rejections kin.holds

/-- Two steps come to the same from two states, unless the first is stopped. -/
def AlikeFrom (b : Bond) (c d : Context) (x y : Parsing β) : Prop :=
  Stops x c ∨ ∃ result c' d', Ends x c result c' ∧ Ends y d result d' ∧ b.Kin c' d' ∧
    c.Passes c' ∧ d.Passes d'

/-- Two steps that read a stretch come to the same from states that are tied. -/
def Alike (b : Bond) (s : Stretch) (x y : Parsing β) : Prop :=
  ∀ c d, b.Kin c d → b.Trials s c.trials d.trials → b.AlikeFrom c d x y

theorem alike_pure (result : β) : b.Alike s (pure result) (pure result) :=
  fun c d kin _ => .inr ⟨result, c, d, rfl, rfl, kin, .refl c, .refl d⟩

theorem Alike.bind {x y : Parsing β} {f g : β → Parsing γ} (first : b.Alike s x y)
    (second : ∀ result, b.Alike s (f result) (g result)) : b.Alike s (x >>= f) (y >>= g) := by
  intro c d kin trials
  rcases first c d kin trials with stops | ⟨result, c', d', ends, ends', kin', passes, passes'⟩
  · exact .inl stops.bind
  · have trials' : b.Trials s c'.trials d'.trials := by
      rw [passes.trials, passes'.trials]
      exact trials
    rcases second result c' d' kin' trials' with
      stops | ⟨result', c'', d'', ends₂, ends₂', kin'', passes₂, passes₂'⟩
    · exact .inl (.after ends passes stops)
    · exact .inr ⟨result', c'', d'', ends.bind ends₂, ends'.bind ends₂', kin'',
        passes.trans passes₂, passes'.trans passes₂'⟩

/-- The steps that are alike, whatever their results are. -/
def relation (b : Bond) (s : Stretch) : StepRelation Parsing :=
  fun _ x y => b.Alike s x y

theorem composes (b : Bond) (s : Stretch) : (b.relation s).Composes :=
  ⟨alike_pure, Alike.bind⟩

/-- Steps that read a part of a stretch are steps that read the stretch. -/
theorem Alike.widen {part : Stretch} {x y : Parsing β} (h : b.Alike part x y)
    (within : part.Within s) : b.Alike s x y :=
  fun c d kin trials => h c d kin (b.narrow within trials)

/-- The rest of a parse may depend on the state as far as tied states agree. -/
theorem Alike.context {f g : Context → Parsing β}
    (h : ∀ c d, b.Kin c d → b.Trials s c.trials d.trials → b.Alike s (f c) (g d)) :
    b.Alike s (Parsing.context >>= f) (Parsing.context >>= g) :=
  fun c d kin trials => h c d kin trials c d kin trials

/-- The second step may look at its state on its own. -/
theorem Alike.look {x : Parsing β} {g : Context → Parsing β}
    (h : ∀ c d, b.Kin c d → b.Trials s c.trials d.trials → b.AlikeFrom c d x (g d)) :
    b.Alike s x (Parsing.context >>= g) := h

theorem Alike.checkpoint {f g : Checkpoint → Parsing β} (h : ∀ p q, b.Alike s (f p) (g q)) :
    b.Alike s (Parsing.checkpoint >>= f) (Parsing.checkpoint >>= g) :=
  fun c d kin trials => h c.checkpoint d.checkpoint c d kin trials

theorem alike_change {f g : Context → Context} (first : ∀ c : Context, c.Keeps (f c))
    (second : ∀ d : Context, d.Keeps (g d)) : b.Alike s (Parsing.change f) (Parsing.change g) :=
  fun c d kin _ => .inr ⟨(), f c, g d, rfl, rfl, kin.keeps (first c) (second d),
    (first c).passes, (second d).passes⟩

theorem alike_checkCancelled : b.Alike s Parsing.checkCancelled Parsing.checkCancelled := by
  intro c d kin _
  by_cases set : c.cancellation.isSet = true
  · refine .inl ⟨.cancelled, c, ?_, .inl ⟨rfl, Cancellation.comes_of_isSet set⟩⟩
    simp [Parsing.checkCancelled, Parsing.of, set]
  · have unset : ¬ d.cancellation.isSet = true := fun h => set (kin.cancellation.isSet h)
    refine .inr ⟨(), _, _, ends_checkCancelled set, ends_checkCancelled unset, ?_, ?_, ?_⟩
    · exact ⟨kin.setting, kin.cancellation.tick, b.keeps (c := d) rfl rfl kin.holds⟩
    · exact ⟨rfl, rfl, rfl, c.cancellation.tick_notAfter, c.cancellation.comes_tick.1⟩
    · exact ⟨rfl, rfl, rfl, d.cancellation.tick_notAfter, d.cancellation.comes_tick.1⟩

/-- A bracket ends as the step in it. -/
theorem ends_bracket {enter leave : Context → Context} {x : Parsing β} {c c' : Context} {result : β}
    (h : Ends x (enter c) result c') : Ends (Parsing.bracket enter leave x) c result (leave c') := by
  unfold Ends at h ⊢
  simp only [Parsing.bracket, Parsing.of, h]

theorem Stops.bracket {enter leave : Context → Context} {x : Parsing β} {c : Context}
    (enters : (enter c).cancellation = c.cancellation) (h : Stops x (enter c)) :
    Stops (Parsing.bracket enter leave x) c := by
  obtain ⟨cause, c', stops, fatal⟩ := h
  rw [enters] at fatal
  refine ⟨cause, leave c', ?_, fatal⟩
  simp only [Parsing.bracket, Parsing.of, stops]

/-- Steps at a level of nesting. -/
theorem Alike.deeper {x y : Parsing β} (h : b.Alike s x y) :
    b.Alike s (Parsing.bracket Context.deepen Context.leave x)
      (Parsing.bracket Context.deepen Context.leave y) := by
  intro c d kin trials
  have below := h c.deepen d.deepen (kin.keeps c.keeps_deepen d.keeps_deepen) trials
  rcases below with stops | ⟨result, c', d', ends, ends', kin', passes, passes'⟩
  · exact .inl (Stops.bracket rfl stops)
  · exact .inr ⟨result, c'.leave, d'.leave, ends_bracket ends, ends_bracket ends',
      kin'.keeps c'.keeps_leave d'.keeps_leave,
      c.keeps_deepen.passes.trans (passes.trans c'.keeps_leave.passes),
      d.keeps_deepen.passes.trans (passes'.trans d'.keeps_leave.passes)⟩

/-- Steps while a definition is being tried on the stretch. -/
theorem Alike.trying {x y : Parsing β} (definition : Nat) (h : b.Alike s x y) :
    b.Alike s
      (Parsing.bracket (fun c => { c with trials := ⟨definition, s⟩ :: c.trials })
        (fun c => { c with trials := c.trials.tail }) x)
      (Parsing.bracket (fun c => { c with trials := ⟨definition, s⟩ :: c.trials })
        (fun c => { c with trials := c.trials.tail }) y) := by
  intro c d kin trials
  have within := h { c with trials := ⟨definition, s⟩ :: c.trials }
    { d with trials := ⟨definition, s⟩ :: d.trials }
    ⟨kin.setting, kin.cancellation, b.keeps (c := d) rfl rfl kin.holds⟩ (b.push definition trials)
  rcases within with stops | ⟨result, c', d', ends, ends', kin', passes, passes'⟩
  · exact .inl (Stops.bracket rfl stops)
  · refine .inr ⟨result, _, _, ends_bracket ends, ends_bracket ends', ?_, ?_, ?_⟩
    · exact ⟨kin'.setting, kin'.cancellation, b.keeps (c := d') rfl rfl kin'.holds⟩
    · exact { passes with trials := by rw [passes.trials]; rfl }
    · exact { passes' with trials := by rw [passes'.trials]; rfl }

end Bond

end Parse

end Phrasebook
