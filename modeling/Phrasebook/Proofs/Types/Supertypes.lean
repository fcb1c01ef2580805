import Phrasebook.Proofs.Parse.Fitting
import Phrasebook.Proofs.Registry.Calls

/-!
# Supertypes

A type names a supertype that was registered before it, so the way up from supertype to supertype ends. Assignability
follows this way, except that every type is assignable to a universal one. The two go together as long as no way up
leads from a universal type to one that is not: there a type may be assignable to the universal type, and the
universal type to its supertype, though the first type has nothing to do with that supertype.
-/

namespace Phrasebook
namespace TypeTable

variable {t : TypeTable} {a b c : TypeId} {path : List TypeId}

/-- The way up from a type: its supertype, the supertype of that, and so on to a type that has none. -/
inductive Climbs (t : TypeTable) : TypeId → List TypeId → Prop
  | top {id : TypeId} : t.supertype? id = none → Climbs t id []
  | up {id parent : TypeId} {path : List TypeId} :
    t.supertype? id = some parent → Climbs t parent path → Climbs t id (parent :: path)

/-- Every supertype was registered before the type that has it. -/
def Layered (t : TypeTable) : Prop :=
  ∀ id parent, t.supertype? id = some parent → parent < id

namespace Layered

variable (layered : t.Layered)

include layered

/-- A way up comes to an end. -/
theorem exists_climbs (id : TypeId) : ∃ path, t.Climbs id path := by
  induction id using Nat.strongRecOn with
  | ind id ih =>
    cases above : t.supertype? id with
    | none => exact ⟨[], .top above⟩
    | some parent =>
      obtain ⟨path, climbs⟩ := ih parent (layered id parent above)
      exact ⟨parent :: path, .up above climbs⟩

/-- One step of the way up. -/
theorem isBelow_step {parent : TypeId} (above : t.supertype? a = some parent) :
    t.isBelow a b = true ↔ parent = b ∨ t.isBelow parent b = true := by
  have earlier : parent < a := layered a parent above
  rw [isBelow, above]
  simp only [earlier, dite_true, Bool.or_eq_true, beq_iff_eq]

omit layered in
/-- A type without a supertype is below none. -/
theorem isBelow_top (none : t.supertype? a = none) : t.isBelow a b = false := by
  rw [isBelow, none]

/-- The types above another are those that its way up passes. -/
theorem isBelow_iff (climbs : t.Climbs a path) : t.isBelow a b = true ↔ b ∈ path := by
  induction climbs with
  | top none => simp [isBelow_top none]
  | up above _ ih => rw [layered.isBelow_step above, ih, List.mem_cons, eq_comm]

/-- What is above a type that is above another, is above the other. -/
theorem isBelow_trans (below : t.isBelow a b = true) (below' : t.isBelow b c = true) :
    t.isBelow a c = true := by
  obtain ⟨path, climbs⟩ := layered.exists_climbs a
  induction climbs with
  | top none =>
    rw [isBelow_top none] at below
    cases below
  | up above _ ih =>
    refine (layered.isBelow_step above).2 (.inr ?_)
    rcases (layered.isBelow_step above).1 below with rfl | below
    · exact below'
    · exact ih below

end Layered

/-- A type is assignable to itself, and to a registered type that is universal or above it. -/
theorem isAssignable_iff :
    t.isAssignable a b = true ↔
      a = b ∨ (t.entry? b).isSome = true ∧ (t.isUniversal b = true ∨ t.isBelow a b = true) := by
  unfold isAssignable isUniversal
  cases t.entry? b <;> simp

/-- **Assignability is transitive but for universal types with a supertype that is not universal.** To such a type
every type is assignable, and it is itself assignable to its supertype. -/
theorem Layered.isAssignable_trans (layered : t.Layered) (first : t.isAssignable a b = true)
    (second : t.isAssignable b c = true) :
    t.isAssignable a c = true ∨
      t.isUniversal b = true ∧ t.isUniversal c = false ∧ t.isBelow b c = true ∧ a ≠ b ∧ t.isBelow a b = false := by
  rcases isAssignable_iff.1 first with rfl | ⟨-, reaches⟩
  · exact .inl second
  rcases isAssignable_iff.1 second with rfl | ⟨registered, universal | below⟩
  · exact .inl first
  · exact .inl (isAssignable_iff.2 (.inr ⟨registered, .inl universal⟩))
  by_cases own : a = b ∨ t.isBelow a b = true
  · left
    refine isAssignable_iff.2 (.inr ⟨registered, .inr ?_⟩)
    rcases own with rfl | own
    · exact below
    · exact layered.isBelow_trans own below
  · obtain ⟨apart, notBelow⟩ := not_or.1 own
    by_cases universal : t.isUniversal c = true
    · exact .inl (isAssignable_iff.2 (.inr ⟨registered, .inl universal⟩))
    · exact .inr ⟨reaches.resolve_right notBelow, by simpa using universal, below, apart, by simpa using notBelow⟩

/-- What is known of the types so far: the names mean types that are registered, and every supertype was registered
before the type that has it. -/
structure Ordered (t : TypeTable) : Prop where
  named {name : String} {type : PatternType} : t.names.lookup name = some type → type.type < t.entries.size
  layered : t.Layered

/-- A type that is registered has a supertype that was registered before. -/
theorem Ordered.push {singular plural : String} {spec : TypeSpec} {supertype : Option TypeId}
    (ordered : t.Ordered) (known : ∀ parent, supertype = some parent → parent < t.entries.size) :
    Ordered { entries := t.entries.push { spec, supertype },
              names := (plural, .several t.entries.size) :: (singular, .one t.entries.size) :: t.names } where
  named {name type} means := by
    rw [Array.size_push]
    simp only [List.lookup_cons] at means
    split at means
    · cases means
      exact Nat.lt_succ_self _
    · split at means
      · cases means
        exact Nat.lt_succ_self _
      · exact Nat.lt_succ_of_lt (ordered.named means)
  layered id parent above := by
    simp only [supertype?, entry?, Array.getElem?_push] at above
    split at above
    next last =>
      rw [last]
      exact known parent above
    · exact ordered.layered id parent above

end TypeTable

namespace RegistryBuilder

variable {b b' : RegistryBuilder}

/-- A call that adds something keeps the types in order. -/
theorem ordered_of_adds {call : Registration} {answer : Registration.Answer} (adds : call.Adds b answer b')
    (ordered : b.types.table.Ordered) : b'.types.table.Ordered := by
  cases adds with
  | @type spec supertype singular plural known =>
    refine ordered.push fun parent above => ?_
    obtain ⟨found, rfl, rfl⟩ := Option.map_eq_some_iff.1 above
    obtain ⟨name, -, resolved⟩ := Option.map_eq_some_iff.1 known
    exact ordered.named resolved
  | converter | definition | contextValue | settings => exact ordered

/-- Whatever is called, the types are in order. -/
theorem ordered_after (ordered : b.types.table.Ordered) (calls : List Registration) :
    (b.after calls).types.table.Ordered := by
  induction calls generalizing b with
  | nil => exact ordered
  | cons call rest ih =>
    have next : (call.perform b).2.types.table.Ordered := by
      cases ends : (call.perform b).1 with
      | error => rwa [Registration.perform_error ends]
      | ok => exact ordered_of_adds (Registration.adds_of_perform ends) ordered
    exact ih next

/-- **Assignability after any calls.** It is reflexive. It is transitive, but for three types of which the middle one
is universal, the first is assignable to it for no other reason, and the last is a supertype of it that is not
universal. And the way up from every type ends, and passes just the types above it. -/
theorem isAssignable_after (config : Config) (calls : List Registration) :
    let t := ((withConfig config).after calls).build.types.table
    (∀ a, t.isAssignable a a = true) ∧
    (∀ a b c, t.isAssignable a b = true → t.isAssignable b c = true →
      t.isAssignable a c = true ∨
        t.isUniversal b = true ∧ t.isUniversal c = false ∧ t.isBelow b c = true ∧ a ≠ b ∧ t.isBelow a b = false) ∧
    ∀ a, ∃ path, t.Climbs a path ∧ ∀ b, t.isBelow a b = true ↔ b ∈ path := by
  intro t
  have start : (withConfig config).types.table.Ordered := ⟨nofun, nofun⟩
  have layered : t.Layered := (ordered_after start calls).layered
  refine ⟨Parse.isAssignable_self t, fun a b c => layered.isAssignable_trans, fun a => ?_⟩
  obtain ⟨path, climbs⟩ := layered.exists_climbs a
  exact ⟨path, climbs, fun b => layered.isBelow_iff climbs⟩

/-- A universal type with a supertype that is not universal. -/
def things : List Registration :=
  [.type { name := "thing", plural := "things" },
    .type { name := "object", plural := "objects", supertype := some "thing", universal := true },
    .type { name := "tool", plural := "tools", supertype := some "thing" },
    .type { name := "hammer", plural := "hammers", supertype := some "tool" },
    .type { name := "color", plural := "colors" }]

/-- A hammer is a tool and a tool is a thing, so a hammer is a thing. -/
theorem isAssignable_after_things :
    let t := ((withConfig {}).after things).build.types.table
    t.isAssignable 3 2 = true ∧ t.isAssignable 2 0 = true ∧ t.isAssignable 3 0 = true := by
  intro t
  have first : t.isAssignable 3 2 = true := by decide +kernel
  have second : t.isAssignable 2 0 = true := by decide +kernel
  have plain : t.isUniversal 2 = false := by decide +kernel
  refine ⟨first, second, ?_⟩
  rcases (isAssignable_after {} things).2.1 3 2 0 first second with third | ⟨universal, -⟩
  · exact third
  · rw [show t.isUniversal 2 = true from universal] at plain
    cases plain

/-- A color is an object and an object is a thing, but a color is no thing. -/
theorem not_isAssignable_trans :
    let t := ((withConfig {}).after things).build.types.table
    ¬ ∀ a b c, t.isAssignable a b = true → t.isAssignable b c = true → t.isAssignable a c = true := by
  intro t transitive
  have third : t.isAssignable 4 0 = true := transitive 4 1 0 (by decide +kernel) (by decide +kernel)
  have none : t.isAssignable 4 0 = false := by decide +kernel
  rw [none] at third
  cases third

end RegistryBuilder

end Phrasebook
