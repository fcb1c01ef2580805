import Phrasebook.Proofs.Script.Calm
import Phrasebook.Proofs.Script.Positions
import Phrasebook.Proofs.Script.Quotes
import Phrasebook.Proofs.Script.Rejected
import Phrasebook.Proofs.Script.SourceName
import Phrasebook.Repl

/-!
# Statements in a conversation and in a script

A conversation and a script take the comment off a line, cut the blanks off it and try it as an effect and as a
condition, each in its own order and with its own treatment of what cannot be tried any further. For an entry that
is one statement they agree: both come to the same text, the text is tried in the same states, and the entry is
answered with a node exactly if the script is that node.
-/

namespace Phrasebook
open Text Parse Script

namespace Script

section Comment

variable {text blanks : List Char}

theorem isBlank_head_stripFrom {n : Nesting} (solid : ∀ c ∈ text.head?, isBlank c = false) :
    ∀ c ∈ (stripFrom n text).head?, isBlank c = false := by
  fun_cases stripFrom n text with
  | case1 => exact nofun
  | case2 rest covers => exact solid
  | case3 bare rest => exact solid
  | case4 => exact nofun
  | case5 c rest other => exact solid

/-- Of blanks at the end, only blanks are left. -/
theorem stripFrom_blanks (n : Nesting) (text : List Char) (blank : ∀ c ∈ blanks, isBlank c = true) :
    ∃ left, (∀ c ∈ left, isBlank c = true) ∧ stripFrom n (text ++ blanks) = stripFrom n text ++ left := by
  fun_induction stripFrom n text with
  | case1 n => exact ⟨stripFrom n blanks, fun c mem => blank c ((stripFrom_sublist n blanks).subset mem), rfl⟩
  | case2 n rest covers ih =>
    obtain ⟨left, blank', same⟩ := ih
    refine ⟨left, blank', ?_⟩
    rw [List.cons_append, List.cons_append, ← same, stripFrom.eq_def]
    simp only [covers, if_true]
  | case3 n bare rest ih =>
    obtain ⟨left, blank', same⟩ := ih
    refine ⟨left, blank', ?_⟩
    rw [List.cons_append, List.cons_append, List.cons_append, ← same, stripFrom.eq_def]
    simp only [bare, Bool.false_eq_true, if_false]
  | case4 n rest bare single =>
    -- no blank is the second of two number signs
    refine ⟨[], List.forall_mem_nil _, ?_⟩
    rw [List.cons_append, stripFrom.eq_def]
    simp only [bare, Bool.false_eq_true, if_false]
    split
    next rest' doubled =>
      cases rest with
      | nil =>
        rw [List.nil_append] at doubled
        exact absurd (blank '#' (doubled ▸ List.mem_cons_self)) (by decide)
      | cons d rest =>
        rw [List.cons_append] at doubled
        cases doubled
        exact (single rest rfl).elim
    · rfl
  | case5 n c rest other ih =>
    obtain ⟨left, blank', same⟩ := ih
    refine ⟨left, blank', ?_⟩
    rw [List.cons_append, List.cons_append, ← same, stripFrom]
    exact other

end Comment

section Row

variable {r : Registry} {c c' : Context}

/-- The statement that a row was understood as, if it was. -/
def understood (node? : Option Node) : List Statement :=
  (node?.map fun node => { node, children := [] }).toList

/-- A script of one row at the margin that is no header is what the row is understood as. -/
theorem parseScript_single (calm : c.IsCalm) (allowed : r.config.allowTopLevel = true) {source : String}
    {line : List Char} {row : Row} (one : lines source.toList = [line]) (here : Row.ofLine? line 0 = some row)
    (margin : row.indent = 0) (body : row.header? = none) {node? : Option Node}
    (reads : Ends (readStatement r (String.ofList row.text)) { c with line := row.number, column := row.column }
      node? c') :
    r.parseScript source c = .ok { statements := understood node?, diagnostics := c'.diagnostics } := by
  have read : Ends (readRow r {} row) c { statements := understood node? } c' := by
    have moved : Ends (Parsing.change fun c =>
        Outline.leave {} row.indent { c with line := row.number, column := row.column }) c ()
        { c with line := row.number, column := row.column } := rfl
    unfold readRow
    refine moved.bind ?_
    rw [margin]
    show Ends (Script.readText r row {}) _ _ _
    unfold Script.readText
    simp only [body, allowed, Bool.not_true, Bool.and_false, Bool.false_eq_true, if_false]
    refine reads.bind ?_
    cases node? <;> rfl
  have all : Ends (readLines r {} (lines source.toList).zipIdx) c { statements := understood node? } c' := by
    rw [one, List.zipIdx_cons, List.zipIdx_nil]
    unfold readLines
    refine (ends_checkCancelled_calm calm).bind ?_
    simp only [here]
    exact read.bind rfl
  have parsed := Registry.parseScript_of_ends all
  rw [parsed]
  cases node? <;> exact congrArg Except.ok (congrArg _ (List.append_nil _))

end Row

end Script

namespace Repl
open Report Terminal

/-- An entry is one statement: one line that starts with neither a blank nor a colon, and on which there is something
before a comment that does not end in a colon. -/
structure IsStatement (entry : String) : Prop where
  oneLine : '\n' ∉ entry.toList
  solid : ∀ c ∈ entry.toList.head?, isBlank c = false
  noCommand : entry.toList.head? ≠ some ':'
  something : isBlankText (stripComment entry.toList) = false
  body : (trimEnd (stripComment entry.toList)).getLast? ≠ some ':'

namespace IsStatement

variable {entry : String} (h : IsStatement entry)

include h

theorem ne_nil : entry.toList ≠ [] := by
  intro nothing
  have something := h.something
  rw [nothing] at something
  cases something

theorem lines_eq : lines entry.toList = [entry.toList] :=
  lines_of_none h.ne_nil h.oneLine

theorem text_solid : ∀ c ∈ (stripComment entry.toList).head?, isBlank c = false :=
  isBlank_head_stripFrom h.solid

theorem text_ne_nil : trimEnd (stripComment entry.toList) ≠ [] := by
  intro nothing
  obtain ⟨blanks, blank, same⟩ := exists_blanks (stripComment entry.toList)
  rw [nothing, List.nil_append] at same
  have all : isBlankText (stripComment entry.toList) = true := List.all_eq_true.2 (same ▸ blank)
  rw [h.something] at all
  cases all

/-- **In a conversation** the blanks are cut off first, then the comment is taken off, and then what blanks are left
are cut off. -/
theorem request : Request.read entry = .statement (String.ofList (trimEnd (stripComment entry.toList))) := by
  have cut : trim entry.toList = trimEnd entry.toList :=
    congrArg trimEnd (trimStart_solid h.solid (List.prefix_refl _))
  -- the blanks behind the entry leave blanks behind its text, if any
  have text : trim (stripComment (trimEnd entry.toList)) = trimEnd (stripComment entry.toList) := by
    obtain ⟨blanks, blank, same⟩ := exists_blanks entry.toList
    obtain ⟨left, blank', stripped⟩ := stripFrom_blanks {} (trimEnd entry.toList) blank
    rw [same] at stripped
    have starts : stripComment (trimEnd entry.toList) <+: stripComment entry.toList := ⟨left, stripped.symm⟩
    rw [trim, trimStart_solid h.text_solid starts]
    unfold stripComment
    rw [stripped, trimEnd_blanks blank']
  have noBlock : opensBlock entry.toList = false := by
    rw [opensBlock, h.lines_eq]
    exact beq_eq_false_iff_ne.2 h.body
  unfold Request.read
  dsimp only
  rw [cut]
  split
  next command colon =>
    obtain ⟨behind, same⟩ := isPrefix_trimEnd entry.toList
    rw [colon] at same
    exact (h.noCommand (by rw [← same]; rfl)).elim
  · rw [noBlock, text]
    rfl

/-- **In a script** the comment is taken off first, and then blanks are cut off. -/
theorem row : Row.ofLine? entry.toList 0 =
    some { number := 1, indent := 0, column := 1, text := trimEnd (stripComment entry.toList) } := by
  have started := trimStart_solid h.text_solid (isPrefix_trimEnd _)
  have some_ : (trimEnd (stripComment entry.toList)).isEmpty = false := List.isEmpty_eq_false_iff.2 h.text_ne_nil
  unfold Row.ofLine?
  dsimp only
  rw [started, some_, Nat.sub_self]
  rfl

end IsStatement

section Parse

variable {r : Registry} {c c' : Context}

/-- The script of an entry that is one statement is what the text of the entry is understood as. -/
theorem IsStatement.parseScript {entry : String} (h : IsStatement entry) (calm : c.IsCalm)
    (allowed : r.config.allowTopLevel = true) (line : c.line = 1) (column : c.column = 1) {node? : Option Node}
    (reads : Ends (readStatement r (String.ofList (trimEnd (stripComment entry.toList)))) c node? c') :
    r.parseScript entry c = .ok { statements := understood node?, diagnostics := c'.diagnostics } := by
  have body : (Row.mk 1 0 1 (trimEnd (stripComment entry.toList))).header? = none :=
    if_neg fun colon => h.body (beq_iff_eq.1 colon)
  have start : { c with line := 1, column := 1 } = c := by
    cases c
    cases line
    cases column
    rfl
  rw [← start] at reads
  exact parseScript_single calm allowed h.lines_eq h.row rfl body reads

variable (never : ∀ category, ∀ x ∈ r.candidates category, ∀ node, (x.definition.decide node).NeverCancels)

include never

/-- **A statement is understood in a conversation as in a script**: both come to the same node in the same state, or
neither comes to one. -/
theorem parseStatement_readStatement (s : Repl) (known : s.registry = r) (calm : c.IsCalm) (text : String) :
    (∃ node c', s.parseStatement text c = (.ok node, c') ∧ Ends (readStatement r text) c (some node) c') ∨
    ∃ fault c₁ c', s.parseStatement text c = (.error fault, c₁) ∧ Ends (readStatement r text) c none c' := by
  subst known
  unfold parseStatement readStatement
  cases first : s.registry.parseLine .effect text c with
  | mk result c₁ =>
    obtain ⟨calm₁, causes⟩ := parseLine_calm never calm first
    have tried := attempt_calm never calm first
    cases result with
    | ok node => exact .inl ⟨node, c₁, rfl, tried.bind rfl⟩
    | error fault =>
      rcases causes fault rfl with ⟨near, cause⟩ | ⟨limit, cause⟩
      · -- no effect fits, so both try a condition
        have fatal : fault.isFatal = false := by rw [Fault.isFatal, cause]; rfl
        simp only [fatal, Bool.false_eq_true, if_false]
        cases second : s.registry.parseLine .condition text c₁ with
        | mk result c₂ =>
          have tried' := attempt_calm never calm₁ second
          cases result with
          | ok node =>
            refine .inl ⟨node, c₂, rfl, tried.bind ?_⟩
            simp only [cause]
            exact tried'.bind rfl
          | error other =>
            refine .inr ⟨_, c₂, c₂.report (.ofFault (c₂.span ⟨0, text.utf8ByteSize⟩) fault), rfl, tried.bind ?_⟩
            simp only [cause]
            exact tried'.bind rfl
      · -- the limit ends the statement for both
        have fatal : fault.isFatal = true := by rw [Fault.isFatal, cause]; rfl
        simp only [fatal, if_true]
        refine .inr ⟨fault, c₁, c₁.report (.ofFault (c₁.span ⟨0, text.utf8ByteSize⟩) fault), rfl, tried.bind ?_⟩
        simp only [cause]
        rfl

end Parse

/-- A text shows diagnostics about another one in their order: each with its severity, its code and its message, then
with its place, and then with the line that it is about, if the other text has that line. -/
inductive Shows (colors : Bool) (text : String) : List Diagnostic → String → Prop where
  | nil : Shows colors text [] ""
  | cons (d : Diagnostic) {rest : List Diagnostic} {shown : String} (others : Shows colors text rest shown) :
    Shows colors text (d :: rest)
      (paintIf colors (severityCode d.severity) d.severity.name ++ paintIf colors "1" ("[" ++ d.code.name ++ "]") ++
          ": " ++ d.message ++ "\n" ++
        ("  " ++ paintIf colors "1;34" "-->" ++ " " ++ sourceName ++ ":" ++ toString d.line ++ ":" ++
          toString d.column ++ "\n") ++
        ((sourceLine? text d.line).map (excerpt colors d)).getD "" ++ shown)

theorem shows_diagnosticsText (s : Repl) (text : String) (ds : List Diagnostic) :
    Shows s.colors text ds (s.diagnosticsText text ds) := by
  induction ds with
  | nil => exact .nil
  | cons d rest ih =>
    have first : s.diagnosticsText text (d :: rest) =
        diagnosticText s.colors sourceName text d ++ s.diagnosticsText text rest := String.join_cons
    rw [first]
    exact .cons d ih

/-- **A conversation and a script agree on statements.** A conversation that has just begun answers an entry that is
one statement with a node exactly if the script of the entry is that node, and before the node it shows just what the
script reports; otherwise it answers with an error, and the script has no node and reports one error. The script may
have the name that entries have, or any other or none if no decision looks at it. -/
theorem answer_parseScript {s : Repl} (fresh : s.locals = []) (allowed : s.registry.config.allowTopLevel = true)
    (never : ∀ category, ∀ x ∈ s.registry.candidates category, ∀ node, (x.definition.decide node).NeverCancels)
    {source : Option String} (named : source = some sourceName ∨ s.registry.IgnoresSource) {entry : String}
    (statement : IsStatement entry) :
    let text := String.ofList (trimEnd (stripComment entry.toList))
    let script := s.registry.parseScript entry { s.registry.newContext with source }
    (∃ node diagnostics shown, script = .ok { statements := [{ node, children := [] }], diagnostics } ∧
      Shows s.colors text diagnostics shown ∧
      (s.answer entry).2 = .ok (shown ++
        if s.showTree then statementTree s.registry 0 { node, children := [] }
        else node.category.name ++ " '" ++ node.name ++ "'\n")) ∨
    ∃ fault d, (s.answer entry).2 = .error fault ∧ script = .ok { statements := [], diagnostics := [d] } ∧
      d.isError = true := by
  intro text script
  have calm : s.newContext.IsCalm := rfl
  have same : script = s.registry.parseScript entry s.newContext := by
    rcases named with rfl | ignores
    · rfl
    · exact (parseScript_withSource ignores entry { s.registry.newContext with source } (some sourceName)).symm
  have answered : (s.answer entry).2 = (s.answerStatement text).2 := by
    rw [answer, statement.request]
    rfl
  rw [same, answered]
  unfold answerStatement
  rw [fresh, List.foldl_nil]
  rcases parseStatement_readStatement never s rfl calm text with
    ⟨node, c', parsed, reads⟩ | ⟨fault, c₁, c', parsed, reads⟩
  · refine .inl ⟨node, c'.diagnostics, s.diagnosticsText text c'.diagnostics, ?_, shows_diagnosticsText s text _, ?_⟩
    · exact statement.parseScript calm allowed rfl rfl reads
    · rw [parsed]
      rfl
  · have script := statement.parseScript calm allowed rfl rfl reads
    obtain ⟨fault', nearMisses, tried, left⟩ := readStatement_none never calm reads
    rw [left] at script
    exact .inr ⟨fault, _, by rw [parsed], script, rfl⟩

/-- A vocabulary with an effect and a condition, which reports what it sees. -/
def notices : List Entry :=
  [.type { name := "number", plural := "numbers", literal := some fun s =>
      if s == "1" then some (.int 1) else none },
    .definition { category := .effect, patterns := ["print %number%"] },
    .definition { category := .condition, patterns := ["notice <.+>"]
                  decide := Clause.decision [.reporting .info .other Clause.describeView] }]

/-- The first entry is a condition with a doubled number sign, a comment and blanks behind it; the second is nothing
that is known. The script has no name. -/
theorem answer_parseScript_notices :
    let s : Repl := { registry := ((RegistryBuilder.withConfig {}).addAll notices).1.build }
    let parsed (entry : String) := s.registry.parseScript entry s.registry.newContext
    (∃ node d shown, parsed "notice ## # twice \t" =
        .ok { statements := [{ node, children := [] }], diagnostics := [d] } ∧
      Shows true "notice #" [d] shown ∧
      (s.answer "notice ## # twice \t").2 =
        .ok (shown ++ statementTree s.registry 0 { node, children := [] })) ∧
    ∃ fault d, (s.answer "print 2 # once").2 = .error fault ∧
      parsed "print 2 # once" = .ok { statements := [], diagnostics := [d] } ∧ d.isError = true := by
  intro s parsed
  have never : ∀ category, ∀ x ∈ s.registry.candidates category, ∀ node, (x.definition.decide node).NeverCancels :=
    RegistryBuilder.candidates_decides (P := fun decide => ∀ node, (decide node).NeverCancels)
      (by simp [notices, Entry.Decides, Action.NeverCancels, Clause.decision, Clause.reporting])
  have ignores : s.registry.IgnoresSource :=
    have looks (node : Node) : (Clause.decision [.reporting .info .other Clause.describeView] node).IgnoresSource :=
      fun _ => ⟨fun _ => rfl, trivial⟩
    RegistryBuilder.candidates_decides (P := fun decide => ∀ node, (decide node).IgnoresSource)
      (by simpa [notices, Entry.Decides, Action.IgnoresSource] using looks)
  have known : IsStatement "notice ## # twice \t" :=
    ⟨by decide, by rintro _ ⟨⟩; rfl, by decide, by decide +kernel, by decide +kernel⟩
  have unknown : IsStatement "print 2 # once" :=
    ⟨by decide, by rintro _ ⟨⟩; rfl, by decide, by decide +kernel, by decide +kernel⟩
  let shape (script : Script) := (script.statements.length, script.diagnostics.length)
  constructor
  · have one : (parsed "notice ## # twice \t").toOption.map shape = some (1, 1) := by decide +kernel
    obtain ⟨found, same, lengths⟩ := exists_of_map_toOption one
    rcases @answer_parseScript s rfl (by decide +kernel) never none (.inr ignores) _ known with
      ⟨node, diagnostics, shown, script, displays, answer⟩ | ⟨_, _, _, script, _⟩
    · cases same.symm.trans script
      obtain ⟨d, rfl⟩ : ∃ d, diagnostics = [d] := List.length_eq_one_iff.1 (Prod.mk.inj lengths).2
      have text : String.ofList (trimEnd (stripComment "notice ## # twice \t".toList)) = "notice #" := by
        decide +kernel
      rw [text] at displays
      exact ⟨node, d, shown, script, displays, answer⟩
    · cases same.symm.trans script
      cases lengths
  · have nothing : (parsed "print 2 # once").toOption.map shape = some (0, 1) := by decide +kernel
    obtain ⟨found, same, lengths⟩ := exists_of_map_toOption nothing
    rcases @answer_parseScript s rfl (by decide +kernel) never none (.inr ignores) _ unknown with
      ⟨node, diagnostics, shown, script, _⟩ | failed
    · cases same.symm.trans script
      cases lengths
    · exact failed

/-- A vocabulary with an effect that turns its node down in a conversation. -/
def unspoken : List Entry :=
  [.definition
    { category := .effect, patterns := ["whisper"],
      decide := fun node => .look fun view =>
        if view.source == some sourceName then .reject "not in a conversation" else .accept node }]

/-- **A decision that looks at the name of the source can tell a conversation from a script** without a name: the
script is a node, and the entry is answered with an error. -/
theorem answer_unlike_parseScript :
    let s : Repl := { registry := ((RegistryBuilder.withConfig {}).addAll unspoken).1.build }
    s.registry.config.allowTopLevel = true ∧
    (∀ category, ∀ x ∈ s.registry.candidates category, ∀ node, (x.definition.decide node).NeverCancels) ∧
    IsStatement "whisper" ∧
    (∃ script, s.registry.parseScript "whisper" s.registry.newContext = .ok script ∧
      script.statements.length = 1 ∧ script.diagnostics.length = 0) ∧
    ∃ fault, (s.answer "whisper").2 = .error fault := by
  intro s
  have never : ∀ category, ∀ x ∈ s.registry.candidates category, ∀ node,
      (x.definition.decide node).NeverCancels := by
    refine RegistryBuilder.candidates_decides (P := fun decide => ∀ node, (decide node).NeverCancels) ?_
    simp only [unspoken, Entry.Decides, List.forall_mem_singleton]
    intro node view
    dsimp only
    split <;> trivial
  have statement : IsStatement "whisper" :=
    ⟨by decide, by rintro _ ⟨⟩; rfl, by decide, by decide +kernel, by decide +kernel⟩
  have node : (s.registry.parseScript "whisper" s.registry.newContext).toOption.map
      (fun script => (script.statements.length, script.diagnostics.length)) = some (1, 0) := by decide +kernel
  have fails : (s.answer "whisper").2.toOption.isNone = true := by decide +kernel
  obtain ⟨script, parsed, lengths⟩ := exists_of_map_toOption node
  refine ⟨by decide +kernel, never, statement, ⟨script, parsed, Prod.mk.inj lengths⟩, ?_⟩
  cases answered : (s.answer "whisper").2 with
  | error fault => exact ⟨fault, rfl⟩
  | ok shown =>
    rw [answered] at fails
    cases fails

end Repl

end Phrasebook
