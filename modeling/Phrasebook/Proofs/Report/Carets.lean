import Phrasebook.Proofs.Script.Places
import Phrasebook.Report.Excerpt

/-!
# Where the carets stand

Under the source line of a diagnostic, the carets begin as many characters from its start as there are bytes before
the reported column, and they go on to the end of its text. So they stand under the character that is reported
exactly if no character before it takes up more than one byte, and too far to the right otherwise. Main statement:
`parseScript_carets`.
-/

namespace Phrasebook.Report
open Text Terminal Script

section Bytes

variable {text : List Char}

theorem length_le_utf8Len (text : List Char) : text.length ≤ String.utf8Len text := by
  induction text with
  | nil => exact Nat.le_refl 0
  | cons c text ih =>
    have positive := c.utf8Size_pos
    rw [String.utf8Len_cons, List.length_cons]
    omega

/-- A text has as many characters as bytes exactly if each of them takes up one byte. -/
theorem length_eq_utf8Len_iff : text.length = String.utf8Len text ↔ ∀ c ∈ text, c.utf8Size = 1 := by
  induction text with
  | nil => simp
  | cons c text ih =>
    have positive := c.utf8Size_pos
    have few := length_le_utf8Len text
    rw [String.utf8Len_cons, List.length_cons, List.forall_mem_cons, ← ih]
    omega

end Bytes

/-- A diagnostic and the line that it is about, with some carets under it, as far from the start of the line as there
are blanks before them. -/
def underlined (name : String) (d : Diagnostic) (line : List Char) (lead carets : Nat) : String :=
  let number := toString d.line
  let gutter := repeated ' ' number.length
  let text := String.ofList line
  let blanks := repeated ' ' lead
  let marker := repeated '^' carets
  s!"{d.severity.name}[{d.code.name}]: {d.message}\n" ++ s!"  --> {name}:{d.line}:{d.column}\n" ++
    s!" {gutter} |\n" ++ s!" {number} | {text}\n" ++ s!" {gutter} | {blanks}{marker}\n"

variable {name source : String} {d : Diagnostic} {line : List Char}

/-- A diagnostic whose line is there is shown with carets from its column to the end of the line's text. -/
theorem diagnosticText_eq (there : sourceLine? source d.line = some line) :
    diagnosticText false name source d =
      underlined name d line (d.column - 1) (max 1 ((trimEnd line).length - (d.column - 1))) := by
  have own (s : String) : toString s = s := rfl
  rw [← String.toList_inj]
  simp [diagnosticText, there, excerpt, underlined, severityLabel, paintIf, caretRange, own]

/-- The line that a diagnostic names is shown, as long as there are no more lines than can be counted. -/
theorem sourceLine?_of_marks {k : Nat} {written : List Char} (marks : Marks source d k line written)
    (few : k < greatestPosition) : sourceLine? source d.line = some line := by
  have number : d.line = k + 1 := by rw [marks.number, Nat.min_eq_right few]
  rw [number]
  exact marks.there

end Phrasebook.Report

namespace Phrasebook
open Text Parse Script Report

/-- **Where the carets stand.** Every diagnostic of a script whose line is shown has its first caret as many characters
from the start of the line as its column counts bytes before it, and the last one at the end of the text, or there is
but one. So a character that begins at the column has the first caret under it exactly if all characters before it
take up one byte, and the caret is too far to the right if not. If no definition reports anything itself, every
diagnostic names a character of the source, and that line is shown; doubled number signs before the character move
the caret to the left. -/
theorem parseScript_carets {b : RegistryBuilder} {source : String} {c : Context} {s : Script}
    (parsed : b.build.parseScript source c = .ok s) {d : Diagnostic} (among : d ∈ s.diagnostics) (name : String) :
    (∀ line, sourceLine? source d.line = some line →
      ∃ carets, diagnosticText false name source d = underlined name d line (d.column - 1) carets ∧
        (d.column - 1 < (trimEnd line).length → d.column - 1 + carets = (trimEnd line).length) ∧
        ((trimEnd line).length ≤ d.column - 1 → carets = 1) ∧
        ∀ written, written <+: line → String.utf8Len written = d.column - 1 →
          written.length ≤ d.column - 1 ∧ (written.length = d.column - 1 ↔ ∀ ch ∈ written, ch.utf8Size = 1)) ∧
    (b.Reachable → (∀ e ∈ b.definitions, KeepsMatches e.decide) →
      (∀ e ∈ b.definitions, ∀ node, (e.decide node).IsSilent) → c.diagnostics = [] →
        ∃ k line written, Marks source d k line written ∧
          (k < greatestPosition → String.utf8Len written < greatestPosition →
            sourceLine? source d.line = some line ∧ String.utf8Len written = d.column - 1 + lostSigns written)) := by
  refine ⟨fun line there => ⟨_, diagnosticText_eq there, fun inside => ?_, fun outside => ?_,
    fun written _ bytes => ?_⟩, fun reachable keeps silent clean => ?_⟩
  · omega
  · rw [Nat.sub_eq_zero_of_le outside, Nat.max_eq_left (Nat.zero_le 1)]
  · rw [← bytes]
    exact ⟨length_le_utf8Len written, length_eq_utf8Len_iff⟩
  · obtain ⟨k, line, written, marks⟩ := parseScript_marks reachable keeps silent clean parsed d among
    refine ⟨k, line, written, marks, fun few short => ⟨sourceLine?_of_marks marks few, ?_⟩⟩
    have column := marks.column
    have bytes := marks.bytes
    omega

/-- A script with a letter of two bytes before a local variable that is not set. -/
def accentSource : String :=
  "note \u00e9 with \x7b_x\x7d"

/-- Thirteen bytes but only twelve characters stand before the variable, and the first of the carets has thirteen
blanks before it. -/
theorem parseScript_carets_note :
    let b := ((RegistryBuilder.withConfig { allowTopLevel := true }).addAll notes).1
    ∃ s d, b.build.parseScript accentSource {} = .ok s ∧ s.diagnostics = [d] ∧
      diagnosticText false "notes" accentSource d = underlined "notes" d accentSource.toList 13 3 ∧
      ∃ written, Marks accentSource d 0 accentSource.toList written ∧ written.length = 12 := by
  intro b
  have places : (b.build.parseScript accentSource {}).toOption.map (fun s => s.diagnostics.map fun d =>
      (d.line, d.column)) = some [(1, 14)] := by
    decide +kernel
  have reachable : b.Reachable := RegistryBuilder.addAll_reachable notes (.setConfig _ .new)
  have keeps : ∀ d ∈ b.definitions, KeepsMatches d.decide :=
    RegistryBuilder.addAll_decides
      (by simp [notes, Entry.Decides, keepsMatches_accept]) fun _ mem => (List.not_mem_nil mem).elim
  have silent : ∀ d ∈ b.definitions, ∀ node, (d.decide node).IsSilent :=
    RegistryBuilder.addAll_decides (P := fun decide => ∀ node, (decide node).IsSilent)
      (by simp [notes, Entry.Decides, Action.IsSilent, Action.ParsesNothing, Action.Reports])
      fun _ mem => (List.not_mem_nil mem).elim
  cases parsed : b.build.parseScript accentSource {} with
  | error cause =>
    rw [parsed] at places
    cases places
  | ok s =>
    rw [parsed] at places
    obtain ⟨d, one, place⟩ := List.map_eq_singleton_iff.1 (Option.some.inj places)
    obtain ⟨number, column⟩ := Prod.mk.inj place
    obtain ⟨shown, marked⟩ := parseScript_carets parsed (one ▸ List.mem_singleton_self d) "notes"
    have there : sourceLine? accentSource d.line = some accentSource.toList := by
      rw [number]
      decide +kernel
    obtain ⟨carets, text, ends, -⟩ := shown _ there
    rw [column] at text ends
    obtain rfl : carets = 3 := Nat.add_left_cancel (ends (by decide +kernel))
    refine ⟨s, d, rfl, one, text, ?_⟩
    obtain ⟨k, line, written, marks, bytes⟩ := marked reachable keeps silent rfl
    have single : lines accentSource.toList = [accentSource.toList] := by decide +kernel
    have there := marks.there
    rw [single] at there
    obtain ⟨inside, rfl⟩ := List.getElem?_eq_some_iff.1 there
    obtain rfl : k = 0 := Nat.lt_one_iff.1 inside
    obtain ⟨first, -, ahead⟩ := marks.first
    have starts : written <+: accentSource.toList := (List.prefix_append written [first]).trans ahead
    have short : String.utf8Len written < greatestPosition := by
      have few : String.utf8Len accentSource.toList < greatestPosition := by decide +kernel
      exact Nat.lt_of_le_of_lt (String.utf8Len_le_of_prefix starts) few
    obtain ⟨-, bytes⟩ := bytes (by decide) short
    rw [column] at bytes
    -- of all texts that the line starts with, only one has so many bytes
    have each : ∀ n ∈ List.range 17, String.utf8Len (accentSource.toList.take n) =
        14 - 1 + lostSigns (accentSource.toList.take n) → n = 12 := by
      decide +kernel
    have length : accentSource.toList.length = 16 := by decide +kernel
    have fewer := starts.length_le
    refine ⟨written, marks, each written.length (List.mem_range.2 (by omega)) ?_⟩
    rw [← List.prefix_iff_eq_take.1 starts]
    exact bytes

end Phrasebook
