import Phrasebook.Proofs.Literal.Quoted
import Phrasebook.Proofs.Script.Quotes
import Phrasebook.Proofs.Vocabulary
import Phrasebook.Standard.Vocabulary

/-!
# Printing strings

With the standard vocabulary, strings that are printed come back out of a script as they were written into it. No
type but that of strings reads a text in quotes, and no effect but that of printing starts with its letter, so
nothing else can take a part of the line.
-/

namespace Phrasebook.Standard
open Text Pattern Parse

/-- The candidates of a category that do not start with another letter than a given one. -/
def startingWith (b : RegistryBuilder) (category : Category) (letter : Char) : List Candidate :=
  (b.patternsOf category).filter fun x => !x.startsOther letter

/-- The slot of the effect that prints. -/
def printSlot : Placeholder :=
  { index := 0, types := [.several 0], nullable := false, acceptance := .all, conditions := false, offset := 6,
    text := "%objects%".toList }

/-- The name of a candidate with the code and the slots of its pattern. -/
def shapeOf (x : Candidate) : String × Array Instr × List Placeholder :=
  (x.definition.name, x.pattern.program, x.pattern.placeholders)

/-- The shape of the effect that prints. -/
def printShape : String × Array Instr × List Placeholder :=
  ("print", #[.lit ('p' :: "rint".toList), .boundary, .slot 0 { canEnd := true }, .stop], [printSlot])

/-- A builder has objects as its first type and strings as its fourth, and its one effect that may start as
`print` does is the one that prints. -/
structure Prints (b : RegistryBuilder) : Prop where
  config : b.config = {}
  string : b.types.table.resolve "string" = some (.one 3)
  object : b.types.table.isAssignable 3 0 = true
  effect : (startingWith b .effect 'p').map shapeOf = [printShape]

instance (b : RegistryBuilder) : Decidable (Prints b) :=
  decidable_of_iff
    (b.config = {} ∧ b.types.table.resolve "string" = some (.one 3) ∧ b.types.table.isAssignable 3 0 = true ∧
      (startingWith b .effect 'p').map shapeOf = [printShape])
    ⟨fun ⟨config, string, object, effect⟩ => ⟨config, string, object, effect⟩,
      fun ⟨config, string, object, effect⟩ => ⟨config, string, object, effect⟩⟩

/-- The standard vocabulary is registered to its end, and what it comes to prints. -/
theorem addAll_prints :
    ((RegistryBuilder.withConfig {}).addAll vocabulary).2 = none ∧
      Prints ((RegistryBuilder.withConfig {}).addAll vocabulary).1 := by
  decide +kernel

/-- The type that an entry adds. -/
def typeOf? : Entry → Option TypeSpec
  | .type spec => some spec
  | .converter .. | .definition .. => none

/-- The decision of an entry, if it is a definition of a name. -/
def decisionOf? (name : String) : Entry → Option (Node → Action)
  | .definition spec _ => if spec.name.getD (spec.patterns.headD "") = name then some spec.decide else none
  | .type _ | .converter .. => none

section Builder

-- for any builder and not for the one of the vocabulary, which is evaluated above and nowhere else
variable {b : RegistryBuilder}

/-- All types of entries that add the standard types are standard types. -/
theorem spec_mem_types {entries : List Entry} (all : entries.filterMap typeOf? = types)
    (extends_ : (RegistryBuilder.withConfig {}).Extends entries b) {entry : TypeEntry}
    (mem : entry ∈ b.types.table.entries) : entry.spec ∈ types := by
  rcases extends_.types entry mem with mem | mem
  · exact absurd mem (Array.not_mem_empty entry)
  · rw [← all]
    exact List.mem_filterMap.2 ⟨_, mem, rfl⟩

/-- The effect that prints accepts whatever it prints. -/
theorem print_accepts (extends_ : (RegistryBuilder.withConfig {}).Extends vocabulary b) {d : Definition}
    (mem : d ∈ b.definitions) (name : d.name = "print") : d.decide = .accept := by
  have only : vocabulary.filterMap (decisionOf? "print") = [.accept] := rfl
  rcases extends_.definitions d mem with mem | ⟨spec, values, mem, follows⟩
  · cases mem
  · have same : spec.decide ∈ vocabulary.filterMap (decisionOf? "print") := by
      refine List.mem_filterMap.2 ⟨_, mem, ?_⟩
      rw [decisionOf?, ← follows.name, name, if_pos rfl]
    rw [only] at same
    rw [follows.decide]
    exact List.mem_singleton.1 same

/-- Literal strings are read where something is printed. -/
theorem Prints.readsQuotes (prints : Prints b) (extends_ : (RegistryBuilder.withConfig {}).Extends vocabulary b) :
    b.build.ReadsQuotes 3 (.ofPlaceholder printSlot) where
  takes := ⟨rfl, ⟨true, prints.string⟩, by
    show (b.types.table.isAssignable 3 0 || false) = true
    rw [prints.object, Bool.or_false]⟩
  several := rfl
  separators := ⟨["and", "or"], by
    show b.config.listSeparators = _
    rw [prints.config]⟩
  unread rest := fun _ mem => Literal.read?_quoted (spec_mem_types rfl extends_ mem) rest

/-- The effect that prints is a word, and the only effect that starts with its letter. -/
theorem Prints.hasWord (prints : Prints b) (extends_ : (RegistryBuilder.withConfig {}).Extends vocabulary b)
    (reachable : b.Reachable) :
    ∃ x, x.definition.category = .effect ∧ x.definition.name = "print" ∧
      b.build.HasWord .effect x 'p' "rint".toList printSlot := by
  have among (x : Candidate) : x ∈ b.build.candidates .effect ↔ x ∈ b.patternsOf .effect := by
    rw [RegistryBuilder.candidates_build, List.mem_mergeSort]
  obtain ⟨x, only, same⟩ := List.map_eq_singleton_iff.1 prints.effect
  simp only [shapeOf, printShape, Prod.mk.injEq] at same
  obtain ⟨name, program, placeholders⟩ := same
  have starts : x ∈ startingWith b .effect 'p' := by
    rw [only]
    exact List.mem_singleton_self x
  have mem : x ∈ b.build.candidates .effect := (among x).2 (List.mem_filter.1 starts).1
  have of := reachable.lawful .effect x mem
  have accepts : x.definition.decide = .accept :=
    print_accepts extends_ (List.mem_of_getElem? of.definition) name
  refine ⟨x, of.category, name, ⟨program, placeholders, rfl, accepts⟩, by decide, by decide, mem, ?_⟩
  intro y mem
  cases other : y.startsOther 'p' with
  | true => exact .inr rfl
  | false =>
    have found : y ∈ startingWith b .effect 'p' :=
      List.mem_filter.2 ⟨(among y).1 mem, by rw [other]; rfl⟩
    rw [only] at found
    exact .inl (List.mem_singleton.1 found)

end Builder

/-- A registry has the effect that prints, and reads literal strings behind it. -/
structure PrintsStrings (r : Registry) : Prop where
  config : r.config = {}
  effect : ∃ x, x.definition.category = .effect ∧ x.definition.name = "print" ∧
    r.HasWord .effect x 'p' "rint".toList printSlot
  reads : r.ReadsQuotes 3 (.ofPlaceholder printSlot)

theorem Prints.printsStrings {b : RegistryBuilder} (prints : Prints b)
    (extends_ : (RegistryBuilder.withConfig {}).Extends vocabulary b) (reachable : b.Reachable) :
    PrintsStrings b.build :=
  ⟨prints.config, prints.hasWord extends_ reachable, prints.readsQuotes extends_⟩

/-- The standard registry is one. -/
theorem registry_printsStrings : ∃ r, registry {} = .ok r ∧ PrintsStrings r := by
  obtain ⟨complete, prints⟩ := addAll_prints
  have start : (RegistryBuilder.withConfig {}).Reachable := .setConfig {} .new
  exact ⟨_, RegistryBuilder.ofVocabulary_complete complete,
    prints.printsStrings (RegistryBuilder.addAll_extends _ vocabulary)
      (RegistryBuilder.addAll_reachable vocabulary start)⟩

/-- A text between double quotes, with every quote in it doubled. -/
def quoted (text : String) : String :=
  String.ofList (quote text.toList)

theorem toList_quoted (text : String) : (quoted text).toList = quote text.toList :=
  String.toList_ofList

/-- Quoted strings with commas between them are the literal strings of their texts. -/
theorem intercalate_quoted (strings : List String) :
    (", ".intercalate (strings.map quoted)).toList = quotes (strings.map String.toList) := by
  induction strings with
  | nil => rfl
  | cons s rest ih =>
    cases rest with
    | nil => exact toList_quoted s
    | cons next rest =>
      have comma : ", ".toList = [',', ' '] := by decide
      simp only [List.map_cons] at ih ⊢
      rw [String.intercalate_cons_cons, quotes_cons_cons, String.toList_append, String.toList_append, ih, comma,
        toList_quoted, List.append_assoc]
      rfl

/-- **Strings that are printed survive a script**, whatever they hold: the script is one statement that prints, and
its argument is the string itself, or if there are several the list of them in their order. -/
theorem print_strings (strings : List String) (some_ : strings ≠ []) (oneLine : ∀ s ∈ strings, '\n' ∉ s.toList) :
    ∃ r node argument, registry {} = .ok r ∧
      r.parseScript ("print " ++ ", ".intercalate (strings.map quoted)) r.newContext =
        .ok { statements := [{ node, children := [] }], diagnostics := [] } ∧
      node.category = .effect ∧ node.name = "print" ∧ node.arguments = [some argument] ∧
      (∀ s, strings = [s] → argument.value? = some (.string s)) ∧
      (2 ≤ strings.length → ∃ items type span, argument = .list items .and type span ∧
        items.map Expr.value? = strings.map fun s => some (.string s)) := by
  obtain ⟨r, registered, printsStrings⟩ := registry_printsStrings
  obtain ⟨x, category, name, has⟩ := printsStrings.effect
  have texts : strings.map String.toList ≠ [] := fun none => some_ (List.map_eq_nil_iff.1 none)
  have lineless : ∀ text ∈ strings.map String.toList, '\n' ∉ text := by
    intro text mem
    obtain ⟨s, among, rfl⟩ := List.mem_map.1 mem
    exact oneLine s among
  have source : ("print " ++ ", ".intercalate (strings.map quoted)).toList =
      ('p' :: "rint".toList) ++ ' ' :: quotes (strings.map String.toList) := by
    have word : "print ".toList = ('p' :: "rint".toList) ++ [' '] := by decide
    rw [String.toList_append, intercalate_quoted, word, List.append_assoc]
    rfl
  obtain ⟨node, given, parsed⟩ := has.parseScript_quotes printsStrings.reads (by decide) (by decide)
    (by rw [printsStrings.config]; decide) (by rw [printsStrings.config]) texts lineless
  obtain ⟨argument, arguments, isStrings⟩ := given.argument
  rw [← source, String.ofList_toList] at parsed
  refine ⟨r, node, argument, registered, parsed, given.category.trans category, given.name.trans name, arguments, ?_, ?_⟩
  · rintro s rfl
    have single : argument.value? = some (.string (String.ofList s.toList)) := isStrings
    rwa [String.ofList_toList] at single
  · intro several
    obtain ⟨items, type, span, list, values⟩ := isStrings.several (by rwa [List.length_map])
    refine ⟨items, type, span, list, ?_⟩
    rw [values, List.map_map]
    simp only [Function.comp_def, String.ofList_toList]

/-- Signs of every other scanner stand in the strings, and the strings come back whole. -/
theorem print_strings_signs :
    ∃ r node items type span, registry {} = .ok r ∧
      r.parseScript "print \"## \"\"and\"\": 100%\", \"1, 2 or (\x7b3\x7d)\"" r.newContext =
        .ok { statements := [{ node, children := [] }], diagnostics := [] } ∧
      node.arguments = [some (.list items .and type span)] ∧
      items.map Expr.value? =
        [some (.string "## \"and\": 100%"), some (.string "1, 2 or (\x7b3\x7d)")] := by
  have source : "print " ++ ", ".intercalate (["## \"and\": 100%", "1, 2 or (\x7b3\x7d)"].map quoted) =
      "print \"## \"\"and\"\": 100%\", \"1, 2 or (\x7b3\x7d)\"" := by
    decide
  obtain ⟨r, node, argument, registered, parsed, -, -, arguments, -, list⟩ :=
    print_strings ["## \"and\": 100%", "1, 2 or (\x7b3\x7d)"] (by decide) (by decide)
  obtain ⟨items, type, span, rfl, values⟩ := list (by decide)
  rw [source] at parsed
  exact ⟨r, node, items, type, span, registered, parsed, arguments, values⟩

end Phrasebook.Standard
