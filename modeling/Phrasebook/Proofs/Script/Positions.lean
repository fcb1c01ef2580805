import Phrasebook.Proofs.Parse.Located
import Phrasebook.Proofs.Script.Accounting
import Phrasebook.Proofs.Script.Attempts
import Phrasebook.Proofs.Text.Layout

/-!
# Positions in the source as it is written

A row is what is left of a line without its comment, and without the blanks at its ends. So whatever was read of a row
starts behind some text that is written in the line, and the column of its span counts the bytes of that text, as far
as it is left: every doubled number sign before it, which stands for one sign, makes the column too small by one. The
blanks in front of the row count. Main statement: `parseScript_written`.
-/

namespace Phrasebook
open Text Parse

namespace Script

/-- How many number signs of a text are not left of it, because each is the second of two that stand for one. -/
def lostSigns (written : List Char) : Nat :=
  written.length - (stripComment written).length

/-- A part of a tree stands in a line, of which a row is left, behind the text that is written there before it. -/
structure StandsBehind (line : List Char) (row : Row) (written : List Char) (x : Part) : Prop where
  /-- the character that the part starts with is the same in the line and in the row -/
  first : ∃ first, isBlank first = false ∧ written ++ [first] <+: line ∧
    trimStart (stripComment written) ++ [first] <+: row.text
  start : x.span.start = String.utf8Len (trimStart (stripComment written))
  line : x.span.line = row.number
  /-- the column counts the bytes that are left of the text -/
  column : x.span.column = min greatestPosition (String.utf8Len (stripComment written) + 1)
  bytes : String.utf8Len written = String.utf8Len (stripComment written) + lostSigns written

section Comment

/-- A text is what is left of what is written, from within a nesting on: it has lost nothing but number signs, each of
which takes up one byte. -/
structure IsLeft (n : Nesting) (written left : List Char) : Prop where
  strips : stripFrom n written = left
  bytes : String.utf8Len written + left.length = String.utf8Len left + written.length

namespace IsLeft

variable {n : Nesting} {written left : List Char}

theorem nil (n : Nesting) : IsLeft n [] [] := ⟨rfl, rfl⟩

/-- What a text has lost are the signs that are not left of it. -/
theorem lost (h : IsLeft {} written left) : String.utf8Len written = String.utf8Len left + lostSigns written := by
  have strips : stripComment written = left := h.strips
  have bytes := h.bytes
  have fewer := (stripFrom_sublist {} written).length_le
  rw [h.strips] at fewer
  rw [lostSigns, strips]
  omega

theorem covered (h : IsLeft (n.next '#') written left) (covers : n.covers = true) :
    IsLeft n ('#' :: written) ('#' :: left) := by
  have bytes := h.bytes
  refine ⟨?_, by simp only [String.utf8Len_cons, List.length_cons]; omega⟩
  rw [stripFrom.eq_def]
  simp only [covers, if_true, h.strips]

theorem doubled (h : IsLeft n written left) (bare : ¬ n.covers = true) :
    IsLeft n ('#' :: '#' :: written) ('#' :: left) := by
  have bytes := h.bytes
  have sign : Char.utf8Size '#' = 1 := rfl
  refine ⟨?_, by simp only [String.utf8Len_cons, List.length_cons, sign]; omega⟩
  rw [stripFrom.eq_def]
  simp only [bare, Bool.false_eq_true, if_false, h.strips]

theorem other {c : Char} (h : IsLeft (n.next c) written left) (word : c ≠ '#') :
    IsLeft n (c :: written) (c :: left) := by
  have bytes := h.bytes
  refine ⟨?_, by simp only [String.utf8Len_cons, List.length_cons]; omega⟩
  rw [stripFrom, h.strips]
  exact word

end IsLeft

/-- What is left of a line before a character is left of what is written before the character. -/
theorem exists_written {n : Nesting} {line before : List Char} {first : Char}
    (left : before ++ [first] <+: stripFrom n line) :
    ∃ written, written ++ [first] <+: line ∧ IsLeft n written before := by
  fun_induction stripFrom n line generalizing before with
  | case1 => exact absurd (List.prefix_nil.1 left) (by simp)
  | case2 n rest covers ih =>
    cases before with
    | nil => exact ⟨[], List.cons_prefix_cons.2 ⟨(List.cons_prefix_cons.1 left).1, List.nil_prefix⟩, .nil n⟩
    | cons c before =>
      obtain ⟨rfl, later⟩ := List.cons_prefix_cons.1 left
      obtain ⟨written, starts, isLeft⟩ := ih later
      exact ⟨'#' :: written, List.cons_prefix_cons.2 ⟨rfl, starts⟩, isLeft.covered covers⟩
  | case3 n bare rest ih =>
    cases before with
    | nil => exact ⟨[], List.cons_prefix_cons.2 ⟨(List.cons_prefix_cons.1 left).1, List.nil_prefix⟩, .nil n⟩
    | cons c before =>
      obtain ⟨rfl, later⟩ := List.cons_prefix_cons.1 left
      obtain ⟨written, starts, isLeft⟩ := ih later
      refine ⟨'#' :: '#' :: written, ?_, isLeft.doubled bare⟩
      exact List.cons_prefix_cons.2 ⟨rfl, List.cons_prefix_cons.2 ⟨rfl, starts⟩⟩
  | case4 => exact absurd (List.prefix_nil.1 left) (by simp)
  | case5 n c rest word ih =>
    cases before with
    | nil => exact ⟨[], List.cons_prefix_cons.2 ⟨(List.cons_prefix_cons.1 left).1, List.nil_prefix⟩, .nil n⟩
    | cons d before =>
      obtain ⟨rfl, later⟩ := List.cons_prefix_cons.1 left
      obtain ⟨written, starts, isLeft⟩ := ih later
      exact ⟨d :: written, List.cons_prefix_cons.2 ⟨rfl, starts⟩, isLeft.other word⟩

end Comment

section Row

/-- A row stands behind blanks in what is left of its line, and starts with no blank. -/
theorem Row.of_ofLine? {line : List Char} {index : Nat} {row : Row} (h : Row.ofLine? line index = some row) :
    ∃ blanks, (∀ c ∈ blanks, isBlank c = true) ∧ blanks ++ row.text <+: stripComment line ∧
      (∀ c ∈ row.text.head?, isBlank c = false) ∧ row.column = min greatestPosition (String.utf8Len blanks + 1) := by
  unfold Row.ofLine? at h
  dsimp only at h
  split at h
  · cases h
  · cases h
    generalize trimmed : trimEnd (stripComment line) = content
    have ahead : content.take (content.length - (trimStart content).length) = content.takeWhile isBlank := by
      have split := List.takeWhile_append_dropWhile (p := isBlank) (l := content)
      have length := congrArg List.length split
      rw [List.length_append] at length
      have here : content.length - (trimStart content).length = (content.takeWhile isBlank).length := by
        unfold trimStart
        omega
      rw [here]
      exact List.prefix_iff_eq_take.1 (List.takeWhile_prefix isBlank) |>.symm
    refine ⟨content.takeWhile isBlank, fun c mem => List.mem_takeWhile_imp mem, ?_, ?_, ?_⟩
    · show content.takeWhile isBlank ++ content.dropWhile isBlank <+: _
      rw [List.takeWhile_append_dropWhile, ← trimmed, trimEnd]
      have ended := (List.dropWhile_suffix isBlank (l := (stripComment line).reverse)).reverse
      rwa [List.reverse_reverse] at ended
    · exact fun c first => not_isBlank_of_mem_head?_dropWhile first
    · dsimp only
      rw [ahead, Line.byteOffset_eq]
      simp [Line.ofList]

variable {line : List Char} {index : Nat} {row : Row} {text : String} {d : Context} {x : Part}

/-- **What is read of a row stands behind some text in the line.** -/
theorem exists_standsBehind (h : Row.ofLine? line index = some row) (starts : text.toList <+: row.text)
    (inLine : d.line = row.number) (atColumn : d.column = row.column) (stands : x.StandsIn (Line.ofString text))
    (locates : d.Locates x.span) : ∃ written, StandsBehind line row written x := by
  obtain ⟨blanks, blank, left, solid, column⟩ := Row.of_ofLine? h
  obtain ⟨start, stop, covers, stretch⟩ := stands
  have inside : start < text.toList.length := by
    have inside := Nat.lt_of_lt_of_le stretch.holds stretch.inside
    rwa [Line.ofString, Line.size_ofList] at inside
  -- the row up to the first character of the part
  have before : text.toList.take start ++ [text.toList[start]] <+: row.text := by
    rw [List.take_append_getElem]
    exact (List.take_prefix _ _).trans starts
  have bytes : x.span.start = String.utf8Len (text.toList.take start) := by
    rw [covers.start, Line.byteOffset_eq]
    simp [Line.ofString, Line.ofList]
  have whole : (blanks ++ text.toList.take start) ++ [text.toList[start]] <+: stripComment line := by
    rw [List.append_assoc]
    exact ((List.prefix_append_right_inj blanks).2 before).trans left
  obtain ⟨written, ahead, isLeft⟩ := exists_written whole
  have strips : stripComment written = blanks ++ text.toList.take start := isLeft.strips
  have trimmed : trimStart (stripComment written) = text.toList.take start := by
    rw [strips]
    exact trimStart_blanks blank solid ((List.take_prefix _ _).trans starts)
  refine ⟨written, ⟨text.toList[start], ?_, ahead, ?_⟩, ?_, ?_, ?_, ?_⟩
  · have first := stretch.first
    rw [Line.blankAt_iff] at first
    simpa [Line.ofString, Line.ofList, inside] using first
  · rw [trimmed]
    exact before
  · rw [trimmed, bytes]
  · rw [locates]
    exact inLine
  · rw [locates]
    show min greatestPosition (d.column + min greatestPosition x.span.start) = _
    rw [atColumn, column, bytes, strips, String.utf8Len_append]
    omega
  · rw [strips]
    exact isLeft.lost

end Row

end Script

/-- **Where the parts of a script stand in its source as it is written.** Every node of the script was read from a row,
and each of its parts starts in the line of the row behind some text, with the same character in the line and in the
row. Its line is the number of that line. Its column is that of the character, but for the doubled number signs before
it: each of them makes the column too small by one. The definitions may not change what was matched, except for its
type. -/
theorem parseScript_written {b : RegistryBuilder} (reachable : b.Reachable)
    (keeps : ∀ d ∈ b.definitions, KeepsMatches d.decide) {source : String} {c : Context} {s : Script}
    (parsed : b.build.parseScript source c = .ok s) :
    ∃ judged, b.build.judgements source c = .ok judged ∧ ∀ node ∈ Script.nodesIn s.statements, ∃ k n row line,
      Script.IsRow source k n row ∧ (lines source.toList)[k]? = some line ∧ Script.nodeAt judged n = some node ∧
      ∀ x : Part, x.Within (.node node) → ∃ written, Script.StandsBehind line row written x ∧
        (k < greatestPosition → String.utf8Len written < greatestPosition →
          x.span.line = k + 1 ∧ String.utf8Len written = x.span.column - 1 + Script.lostSigns written) := by
  obtain ⟨judged, o, c', judges, rows, run, statements, -⟩ := Registry.parseScript_run parsed
  refine ⟨judged, judges, fun node among => ?_⟩
  obtain ⟨kept, -, same⟩ := run.nodes
  rw [← statements] at same
  -- the node is that of a row
  obtain ⟨n, accepted⟩ : ∃ n, Script.nodeAt judged n = some node := by
    have mem : some node ∈ kept.map (Script.nodeAt judged) := same ▸ List.mem_map_of_mem among
    obtain ⟨n, -, here⟩ := List.mem_map.1 mem
    exact ⟨n, here⟩
  obtain ⟨j, at_, found⟩ := Option.bind_eq_some_iff.1 accepted
  obtain ⟨k, isRow⟩ : ∃ k, Script.IsRow source k n j.row := by
    refine Script.exists_isRow ?_
    rw [← rows, List.getElem?_map, at_, Option.map_some]
  obtain ⟨line, there, placed⟩ := isRow.line
  refine ⟨k, n, j.row, line, isRow, there, accepted, fun x within => ?_⟩
  -- and it was parsed where the row stands
  obtain ⟨o, c₀, c₁, ends⟩ := run.judges (List.mem_of_getElem? at_)
  obtain ⟨category, text, d, d', starts, inLine, atColumn, parses⟩ := Script.parsed_of_judge ends found
  obtain ⟨stands, locates⟩ := parseLine_located reachable keeps parses x within
  obtain ⟨written, behind⟩ := Script.exists_standsBehind placed starts inLine atColumn stands locates
  refine ⟨written, behind, fun few short => ⟨?_, ?_⟩⟩
  · rw [behind.line, Script.number_of_ofLine? placed]
    omega
  · have column := behind.column
    have bytes := behind.bytes
    omega

/-- A vocabulary with notes, which are texts, on numbers. -/
def notes : List Entry :=
  [.type { name := "number", plural := "numbers", literal := some fun s =>
      if s == "3" then some (.int 3) else none },
    .definition { category := .effect, patterns := ["note <.+> with %number%"] }]

/-- A script with a number behind a sign that is written as two. -/
def noteSource : String :=
  "note ## with 3"

/-- Thirteen bytes are written before the number in its line, but its column is thirteen. -/
theorem parseScript_written_note :
    let b := ((RegistryBuilder.withConfig { allowTopLevel := true }).addAll notes).1
    ∃ s, b.build.parseScript noteSource {} = .ok s ∧
      (Script.nodesIn s.statements).flatMap (fun node => node.arguments.map fun e? => e?.map fun e => e.span.column) =
        [some 13] ∧
      ∀ node ∈ Script.nodesIn s.statements, ∀ x : Part, x.Within (.node node) →
        ∃ row written, Script.StandsBehind noteSource.toList row written x ∧ x.span.line = 1 ∧
          String.utf8Len written = x.span.column - 1 + Script.lostSigns written := by
  intro b
  have columns : (b.build.parseScript noteSource {}).toOption.map (fun s => (Script.nodesIn s.statements).flatMap
      fun node => node.arguments.map fun e? => e?.map fun e => e.span.column) = some [some 13] := by
    decide +kernel
  have reachable : b.Reachable := RegistryBuilder.addAll_reachable notes (.setConfig _ .new)
  have keeps : ∀ d ∈ b.definitions, KeepsMatches d.decide :=
    RegistryBuilder.addAll_decides
      (by simp [notes, Entry.Decides, keepsMatches_accept]) fun _ mem => (List.not_mem_nil mem).elim
  cases parsed : b.build.parseScript noteSource {} with
  | error cause =>
    rw [parsed] at columns
    cases columns
  | ok s =>
    rw [parsed] at columns
    refine ⟨s, rfl, Option.some.inj columns, fun node among x within => ?_⟩
    obtain ⟨judged, -, all⟩ := parseScript_written reachable keeps parsed
    obtain ⟨k, n, row, line, -, there, -, stands⟩ := all node among
    have one : lines noteSource.toList = [noteSource.toList] := by decide +kernel
    rw [one] at there
    obtain ⟨inside, rfl⟩ := List.getElem?_eq_some_iff.1 there
    obtain rfl : k = 0 := Nat.lt_one_iff.1 inside
    obtain ⟨written, behind, exact_⟩ := stands x within
    have short : String.utf8Len written < greatestPosition := by
      obtain ⟨first, -, ahead, -⟩ := behind.first
      have fewer := String.utf8Len_le_of_prefix ((List.prefix_append written [first]).trans ahead)
      have few : String.utf8Len noteSource.toList < greatestPosition := by decide +kernel
      exact Nat.lt_of_le_of_lt fewer few
    exact ⟨row, written, behind, exact_ (by decide) short⟩

end Phrasebook
