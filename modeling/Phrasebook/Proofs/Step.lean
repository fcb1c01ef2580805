import Phrasebook.Context

/-!
# Steps that end

A step changes a state, and ends with a result or with an error. `Ends` and `Fails` say which, and go through
a sequence of steps one after the other. `Returns` says what holds of every result.
-/

namespace Phrasebook

variable {ε σ : Type}

/-- A step ends with a result. -/
def Ends {β : Type} (x : ExceptT ε (StateM σ) β) (s : σ) (result : β) (s' : σ) : Prop :=
  x s = (.ok result, s')

/-- A step ends with an error. -/
def Fails {β : Type} (x : ExceptT ε (StateM σ) β) (s : σ) : Prop :=
  ∃ e s', x s = (.error e, s')

/-- What is known of the result of something that may fail is known of a result. -/
theorem exists_of_map_toOption {β γ : Type} {x : Except ε β} {f : β → γ} {c : γ}
    (known : x.toOption.map f = some c) : ∃ b, x = .ok b ∧ f b = c := by
  cases x with
  | error e => cases known
  | ok b => exact ⟨b, rfl, Option.some.inj known⟩

theorem ends_pure {β : Type} (b : β) (s : σ) : Ends (ε := ε) (pure b) s b s := rfl

theorem fails_or_ends {β : Type} (x : ExceptT ε (StateM σ) β) (s : σ) :
    Fails x s ∨ ∃ b s', Ends x s b s' := by
  cases h : x s with
  | mk result s' =>
    cases result with
    | error e => exact .inl ⟨e, s', h⟩
    | ok b => exact .inr ⟨b, s', h⟩

/-- A step ends in one way. -/
theorem Ends.unique {β : Type} {x : ExceptT ε (StateM σ) β} {s s' s'' : σ} {b c : β}
    (h : Ends x s b s') (h' : Ends x s c s'') : b = c ∧ s' = s'' := by
  cases h.symm.trans h'
  exact ⟨rfl, rfl⟩

theorem Ends.not_fails {β : Type} {x : ExceptT ε (StateM σ) β} {s s' : σ} {b : β}
    (h : Ends x s b s') : ¬ Fails x s := by
  rintro ⟨e, s'', fails⟩
  cases h.symm.trans fails

section Bind

variable {β γ : Type} {x : ExceptT ε (StateM σ) β} {f : β → ExceptT ε (StateM σ) γ} {s s' s'' : σ}
  {b : β} {c : γ}

/-- What follows a step that ends with a result. -/
theorem Ends.bind_apply (first : Ends x s b s') : (x >>= f) s = f b s' := by
  unfold Ends at first
  simp only [Bind.bind, ExceptT.bind, ExceptT.mk, StateT.bind, first]
  rfl

/-- Nothing follows a step that ends with an error. -/
theorem bind_error {e : ε} (first : x s = (.error e, s')) : (x >>= f) s = (.error e, s') := by
  simp only [Bind.bind, ExceptT.bind, ExceptT.mk, StateT.bind, first]
  rfl

/-- Steps that come to the same are followed by the same. -/
theorem bind_apply_congr {y : ExceptT ε (StateM σ) β} (h : x s = y s') :
    (x >>= f) s = (y >>= f) s' := by
  simp only [Bind.bind, ExceptT.bind, ExceptT.mk, StateT.bind, h]

theorem Ends.bind (first : Ends x s b s') (second : Ends (f b) s' c s'') :
    Ends (x >>= f) s c s'' :=
  first.bind_apply.trans second

theorem Ends.bind_fails (first : Ends x s b s') (second : Fails (f b) s') :
    Fails (x >>= f) s := by
  obtain ⟨e, s'', fails⟩ := second
  exact ⟨e, s'', first.bind_apply.trans fails⟩

/-- What a sequence of two steps that ends consists of. -/
theorem Ends.of_bind (h : Ends (x >>= f) s c s'') :
    ∃ b s', Ends x s b s' ∧ Ends (f b) s' c s'' := by
  rcases fails_or_ends x s with ⟨e, s', fails⟩ | ⟨b, s', ends⟩
  · rw [Ends, bind_error fails] at h
    cases h
  · exact ⟨b, s', ends, ends.bind_apply.symm.trans h⟩

theorem Fails.bind (first : Fails x s) : Fails (x >>= f) s := by
  obtain ⟨e, s', fails⟩ := first
  exact ⟨e, s', bind_error fails⟩

end Bind

/-- Every result of a step satisfies a condition. -/
def Returns {β : Type} (x : ExceptT ε (StateM σ) β) (P : β → Prop) : Prop :=
  ∀ s b s', Ends x s b s' → P b

section Returns

variable {β γ : Type} {P : β → Prop} {Q : γ → Prop}

theorem returns_pure {b : β} (h : P b) : Returns (ε := ε) (σ := σ) (pure b) P := by
  rintro s b' s' ends
  cases ends
  exact h

theorem returns_any (x : ExceptT ε (StateM σ) β) : Returns x fun _ => True :=
  fun _ _ _ _ => trivial

theorem Returns.bind {x : ExceptT ε (StateM σ) β} {f : β → ExceptT ε (StateM σ) γ}
    (first : Returns x P) (second : ∀ b, P b → Returns (f b) Q) : Returns (x >>= f) Q := by
  intro s c s' ends
  obtain ⟨b, s'', first', second'⟩ := ends.of_bind
  exact second b (first s b s'' first') s'' c s' second'

theorem Returns.imp {Q : β → Prop} {x : ExceptT ε (StateM σ) β} (h : Returns x P)
    (weaker : ∀ b, P b → Q b) : Returns x Q :=
  fun s b s' ends => weaker b (h s b s' ends)

/-- A step whose result does not matter. -/
theorem Returns.after {x : ExceptT ε (StateM σ) β} {f : β → ExceptT ε (StateM σ) γ}
    (second : ∀ b, Returns (f b) Q) : Returns (x >>= f) Q :=
  (returns_any x).bind fun b _ => second b

end Returns

/-- A bracket around a step leaves its results alone. -/
theorem Returns.bracket {β : Type} {P : β → Prop} {x : Parsing β} (h : Returns x P)
    (enter leave : Context → Context) : Returns (Parsing.bracket enter leave x) P := by
  intro c b c' ends
  rcases fails_or_ends x (enter c) with ⟨e, after, fails⟩ | ⟨b', after, ends'⟩
  · simp only [Ends, Parsing.bracket, Parsing.of, fails] at ends
    cases ends
  · have := h _ _ _ ends'
    unfold Ends at ends'
    simp only [Ends, Parsing.bracket, Parsing.of, ends'] at ends
    cases ends
    exact this

end Phrasebook
