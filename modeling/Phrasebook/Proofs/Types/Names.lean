import Phrasebook.Proofs.Registry.Calls

/-!
# The names of types

A call that registers a type gives its two names a meaning, and no later call changes it: a call that would take one
of them fails, and a call that fails changes nothing. Only a type that has one name for both forms is different. The
name of several values is noted last, so for such a type the one name always means several values.
-/

namespace Phrasebook
namespace RegistryBuilder

variable {b b' : RegistryBuilder} {spec : TypeSpec} {id : TypeId}

/-- The two names of a type that is added mean it, and it takes the next place. -/
theorem names_of_adds (adds : (Registration.type spec).Adds b (.type id) b') :
    b'.types.table.entries.toList[id]?.map TypeEntry.spec = some spec ∧
      b'.resolve spec.plural = some (.several id) ∧
      b'.resolve spec.name = some
        (if TypeTable.key spec.name = TypeTable.key spec.plural then .several id else .one id) := by
  cases adds with
  | type singular plural known =>
    refine ⟨?_, ?_, ?_⟩
    · rw [Array.toList_push, List.getElem?_append_right (by simp)]
      simp
    · simp [RegistryBuilder.resolve, TypeTable.resolve]
    · by_cases same : TypeTable.key spec.name = TypeTable.key spec.plural
      · simp [RegistryBuilder.resolve, TypeTable.resolve, same]
      · simp [RegistryBuilder.resolve, TypeTable.resolve, List.lookup_cons, beq_eq_false_iff_ne.2 same, same]

/-- What a name means, it means after any calls. -/
theorem resolve_after {name : String} {type : PatternType} (means : b.resolve name = some type)
    (later : List Registration) : (b.after later).resolve name = some type :=
  (keptIn_after b later).names _ _ means

/-- A type stands at its place after any calls. -/
theorem entry?_after {entry : TypeEntry} (stands : b.types.table.entries.toList[id]? = some entry)
    (later : List Registration) : (b.after later).types.table.entry? id = some entry := by
  obtain ⟨added, grown⟩ := (keptIn_after b later).entries
  have within : id < b.types.table.entries.toList.length := (List.getElem?_eq_some_iff.1 stands).1
  rw [TypeTable.entry?, ← Array.getElem?_toList, ← grown, List.getElem?_append_left within, stands]

/-- **Registered names keep their meaning.** Once a call has registered a type, then after any further calls, in the
builder and in the types that are built from it, the type's plural name means several values of exactly this type, and
its singular name means one value of it, unless the two names are one and the same. -/
theorem names_after (registered : ((Registration.type spec).perform b).1 = .ok (.type id))
    (later : List Registration) :
    let after := ((Registration.type spec).perform b).2.after later
    let table := after.build.types.table
    table = after.types.table ∧
      (table.entry? id).map TypeEntry.spec = some spec ∧
      table.resolve spec.plural = some (.several id) ∧
      table.resolve spec.name = some
        (if TypeTable.key spec.name = TypeTable.key spec.plural then .several id else .one id) := by
  intro after table
  obtain ⟨stands, plural, singular⟩ := names_of_adds (Registration.adds_of_perform registered)
  obtain ⟨entry, stands, rfl⟩ := Option.map_eq_some_iff.1 stands
  -- building changes nothing of the table
  refine ⟨rfl, ?_, resolve_after plural later, resolve_after singular later⟩
  have there : table.entry? id = some entry := entry?_after stands later
  rw [there]
  rfl

/-- The type of cows, in any letter case and between blanks. -/
def cow : TypeSpec where
  name := "Cow"
  plural := " COWS "

/-- Calls of which the first would give a name of cows another meaning, and fails. -/
def furtherAnimals : List Registration :=
  [.type { name := "cows", plural := "herds" }, .type { name := "calf", plural := "calves", supertype := some "cow" }]

/-- The names of cows mean a cow and several, though a later call asks for one of them. -/
theorem names_after_furtherAnimals :
    let start := (Registration.type cow).perform (withConfig {})
    let table := (start.2.after furtherAnimals).build.types.table
    start.1 = .ok (.type 0) ∧ table.resolve " COWS " = some (.several 0) ∧ table.resolve "Cow" = some (.one 0) := by
  intro start table
  have registered : start.1 = .ok (.type 0) := rfl
  obtain ⟨-, -, plural, singular⟩ := names_after registered furtherAnimals
  have apart : TypeTable.key cow.name ≠ TypeTable.key cow.plural := by decide +kernel
  rw [if_neg apart] at singular
  exact ⟨registered, plural, singular⟩

/-- A type with one name for both forms: the name means several values. -/
example : ((withConfig {}).after [.type { name := "Sheep", plural := "sheep" }]).resolve "sheep" =
    some (.several 0) := by decide +kernel

end RegistryBuilder

end Phrasebook
