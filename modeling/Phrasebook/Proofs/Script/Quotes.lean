import Phrasebook.Proofs.Parse.Word
import Phrasebook.Script

/-!
# Scripts of one line with literal strings

A line of a word with literal strings behind it goes through a script as it stands: no quote, number sign or
colon in a string takes a part of it away. So the script is the one statement that the line is parsed as.
-/

namespace Phrasebook.Script
open Text Parse

section Comment

variable {n n' n'' : Nesting} {text more : List Char}

/-- The removal of comments leaves a text alone, and goes on behind it within another nesting. -/
def Spares (n : Nesting) (text : List Char) (n' : Nesting) : Prop :=
  ∀ more, stripFrom n (text ++ more) = text ++ stripFrom n' more

theorem Spares.append (first : Spares n text n') (second : Spares n' more n'') : Spares n (text ++ more) n'' := by
  intro rest
  rw [List.append_assoc, first, second, List.append_assoc]

theorem spares_char {c : Char} (harmless : c = '#' → n.covers = true) : Spares n [c] (n.next c) := by
  intro rest
  by_cases sign : c = '#'
  · subst sign
    rw [List.cons_append, List.nil_append, stripFrom.eq_def]
    simp only [harmless rfl, if_true]
    rfl
  · rw [List.cons_append, List.nil_append, stripFrom]
    · rfl
    · exact sign

/-- Within quotes everything is left alone, up to the quote that ends them. -/
theorem spares_doubled (text : List Char) (quoted : n.quoted = true) :
    Spares n (doubleQuotes text ++ ['"']) { n with quoted := false } := by
  have turn (n : Nesting) : n.next '"' = { n with quoted := !n.quoted } := rfl
  have quote (n : Nesting) : Spares n ['"'] (n.next '"') := spares_char fun sign => absurd sign (by decide)
  induction text with
  | nil =>
    have ends := quote n
    rwa [turn, quoted] at ends
  | cons c text ih =>
    by_cases doubled : c = '"'
    · subst doubled
      have back : (n.next '"').next '"' = n := by
        rw [turn, turn]
        simp
      have pair := (quote n).append (quote (n.next '"'))
      rw [back] at pair
      exact pair.append ih
    · have stays : n.next c = n := by simp [Nesting.next, doubled, quoted]
      have covers : n.covers = true := by simp [Nesting.covers, quoted]
      have one : Spares n [c] (n.next c) := spares_char fun _ => covers
      rw [stays] at one
      have same : doubleQuotes (c :: text) = c :: doubleQuotes text := by simp [doubleQuotes, doubled]
      rw [same]
      exact one.append ih

theorem spares_quote (text : List Char) (unquoted : n.quoted = false) : Spares n (quote text) n := by
  have first : Spares n ['"'] { n with quoted := true } := by
    have first : Spares n ['"'] (n.next '"') := spares_char fun sign => absurd sign (by decide)
    have opened : n.next '"' = { n with quoted := true } := by simp [Nesting.next, unquoted]
    rwa [opened] at first
  have rest : Spares { n with quoted := true } (doubleQuotes text ++ ['"']) { n with quoted := false } :=
    spares_doubled text rfl
  have shut : { n with quoted := false } = n := by rw [← unquoted]
  rw [shut] at rest
  exact first.append rest

/-- A character that neither starts a comment nor opens or closes anything. -/
def isPlain (c : Char) : Bool :=
  c != '#' && c != '"' && c != '{' && c != '}'

theorem spares_plain (text : List Char) (plain : text.all isPlain = true) : Spares n text n := by
  induction text with
  | nil => exact fun _ => rfl
  | cons c text ih =>
    obtain ⟨harmless, rest⟩ := Bool.and_eq_true_iff.1 plain
    simp only [isPlain, Bool.and_eq_true, bne_iff_ne] at harmless
    obtain ⟨⟨⟨sign, quote⟩, opening⟩, closing⟩ := harmless
    have stays : n.next c = n := by simp [Nesting.next, quote, opening, closing]
    have one : Spares n [c] (n.next c) := spares_char fun h => absurd h sign
    rw [stays] at one
    exact one.append (ih rest)

theorem spares_quotes (text : List Char) (texts : List (List Char)) (unquoted : n.quoted = false) :
    Spares n (quotes (text :: texts)) n := by
  induction texts generalizing text with
  | nil => exact spares_quote text unquoted
  | cons next texts ih =>
    rw [quotes_cons_cons]
    exact (spares_quote text unquoted).append ((spares_plain [',', ' '] (by decide)).append (ih next))

/-- **No part of a literal string is a comment.** -/
theorem stripComment_quotes {word : List Char} (plain : word.all isPlain = true) (text : List Char)
    (texts : List (List Char)) :
    stripComment (word ++ ' ' :: quotes (text :: texts)) = word ++ ' ' :: quotes (text :: texts) := by
  have spared : Spares {} (word ++ ([' '] ++ quotes (text :: texts))) {} :=
    (spares_plain word plain).append ((spares_plain [' '] (by decide)).append (spares_quotes text texts rfl))
  have whole := spared []
  rwa [stripFrom, List.append_nil] at whole

end Comment

section Lines

/-- A text without a separator is one piece. -/
theorem splitOn_of_none {separates : Char → Bool} {text : List Char} (none : ∀ c ∈ text, separates c = false) :
    splitOn separates text = [text] := by
  induction text with
  | nil => rfl
  | cons c text ih =>
    have rest := ih fun d mem => none d (List.mem_cons_of_mem c mem)
    simp only [splitOn, none c List.mem_cons_self, rest, Bool.false_eq_true, if_false]

/-- A text without a line feed is one line. -/
theorem lines_of_none {text : List Char} (some_ : text ≠ []) (none : '\n' ∉ text) : Text.lines text = [text] := by
  have one : splitOn (· == '\n') text = [text] :=
    splitOn_of_none fun c mem => beq_eq_false_iff_ne.2 fun feed => none (feed ▸ mem)
  obtain ⟨c, text, rfl⟩ := List.exists_cons_of_ne_nil some_
  rw [Text.lines, one]
  rfl

theorem mem_doubleQuotes {c : Char} {text : List Char} (h : c ∈ doubleQuotes text) : c ∈ text := by
  induction text with
  | nil => exact h
  | cons d text ih =>
    unfold doubleQuotes at h
    split at h
    next quote =>
      have quote : d = '"' := beq_iff_eq.1 quote
      subst quote
      simp only [List.mem_cons] at h ⊢
      rcases h with h | h | h
      · exact .inl h
      · exact .inl h
      · exact .inr (ih h)
    · rcases List.mem_cons.1 h with rfl | h
      · exact List.mem_cons_self
      · exact List.mem_cons_of_mem d (ih h)

theorem mem_quote {c : Char} {text : List Char} (h : c ∈ quote text) : c = '"' ∨ c ∈ text := by
  rcases List.mem_cons.1 h with h | h
  · exact .inl h
  · rcases List.mem_append.1 h with h | h
    · exact .inr (mem_doubleQuotes h)
    · exact .inl (List.mem_singleton.1 h)

/-- Whatever stands in literal strings stands in one of them, or is a quote, a comma or a space. -/
theorem mem_quotes {c : Char} {texts : List (List Char)} (h : c ∈ quotes texts) :
    c ∈ ['"', ',', ' '] ∨ ∃ text ∈ texts, c ∈ text := by
  have within {text : List Char} {texts : List (List Char)} (mem : text ∈ texts) (h : c ∈ quote text) :
      c ∈ ['"', ',', ' '] ∨ ∃ text ∈ texts, c ∈ text := by
    rcases mem_quote h with rfl | h
    · exact .inl List.mem_cons_self
    · exact .inr ⟨text, mem, h⟩
  induction texts with
  | nil => cases h
  | cons text texts ih =>
    cases texts with
    | nil => exact within List.mem_cons_self h
    | cons next texts =>
      rw [quotes_cons_cons] at h
      rcases List.mem_append.1 h with h | h
      · exact within List.mem_cons_self h
      · rcases List.mem_cons.1 h with rfl | h
        · exact .inl (by simp)
        rcases List.mem_cons.1 h with rfl | h
        · exact .inl (by simp)
        · exact (ih h).imp_right fun ⟨text', mem, h⟩ => ⟨text', List.mem_cons_of_mem text mem, h⟩

end Lines

section Row

variable {line inner : List Char} {d e : Char}

/-- A line without blanks at its ends and without a comment is a row of its own, at the margin. -/
theorem ofLine?_solid (spared : stripComment line = line) (shape : line = d :: inner ++ [e])
    (left : isBlank d = false) (right : isBlank e = false) (index : Nat) :
    Row.ofLine? line index =
      some { number := min greatestPosition (index + 1), indent := 0, column := min greatestPosition 1,
             text := line } := by
  have ended : trimEnd line = line := by
    rw [shape, trimEnd, List.reverse_append, List.reverse_singleton, List.singleton_append,
      List.dropWhile_cons_of_neg (by rw [right]; exact Bool.false_ne_true), List.reverse_cons, List.reverse_reverse]
  have started : trimStart line = line := by
    rw [shape, trimStart, List.cons_append,
      List.dropWhile_cons_of_neg (by rw [left]; exact Bool.false_ne_true)]
  have some_ : line.isEmpty = false := by
    rw [shape]
    rfl
  unfold Row.ofLine?
  dsimp only
  rw [spared, ended, started, some_, Nat.sub_self]
  rfl

/-- A row that does not end in a colon is no header. -/
theorem header?_of_last {row : Row} (shape : row.text = d :: inner ++ [e]) (other : e ≠ ':') :
    row.header? = none := by
  have last : row.text.getLast? = some e := by
    rw [shape]
    exact List.getLast?_concat
  have different : (some e == some ':') = false := by
    simp [other]
  rw [Row.header?, last, different]
  rfl

/-- A row at the margin that is parsed as an effect is the first statement. -/
theorem ends_readRow_effect {r : Registry} {row : Row} {node : Node} {c c' : Context}
    (allowed : r.config.allowTopLevel = true) (margin : row.indent = 0) (body : row.header? = none)
    (parsed : r.parseLine .effect (String.ofList row.text) { c with line := row.number, column := row.column } =
      (.ok node, c')) :
    Ends (readRow r {} row) c { statements := [{ node, children := [] }] } c' := by
  have attempted : Ends (attempt r .effect (String.ofList row.text))
      { c with line := row.number, column := row.column } (.ok node) c' := by
    simp only [Ends, attempt, Parsing.of, parsed]
  have statement : Ends (readStatement r (String.ofList row.text))
      { c with line := row.number, column := row.column } (some node) c' := attempted.bind rfl
  have read : Ends (readText r row {}) { c with line := row.number, column := row.column }
      { statements := [{ node, children := [] }] } c' := by
    unfold readText
    simp only [body, allowed, Bool.not_true, Bool.and_false, Bool.false_eq_true, if_false]
    exact statement.bind rfl
  have moved : Ends (Parsing.change fun c =>
      Outline.leave {} row.indent { c with line := row.number, column := row.column }) c ()
      { c with line := row.number, column := row.column } := rfl
  unfold readRow
  refine moved.bind ?_
  rw [margin]
  exact read

/-- A script of one row that is parsed as an effect is that effect, and nothing is reported. -/
theorem parseScript_effect {r : Registry} {source : String} {row : Row} {node : Node} {nearMisses : List NearMiss}
    {tried : Nat} (allowed : r.config.allowTopLevel = true) (one : Text.lines source.toList = [line])
    (here : Row.ofLine? line 0 = some row) (margin : row.indent = 0) (body : row.header? = none)
    (parsed : r.parseLine .effect (String.ofList row.text)
        { r.newContext with line := row.number, column := row.column } =
      (.ok node, { r.newContext with line := row.number, column := row.column, nearMisses, tried })) :
    r.parseScript source r.newContext =
      .ok { statements := [{ node, children := [] }], diagnostics := [] } := by
  have read := ends_readRow_effect allowed margin body parsed
  have all : Ends (readLines r {} [(line, 0)]) r.newContext { statements := [{ node, children := [] }] }
      { r.newContext with line := row.number, column := row.column, nearMisses, tried } := by
    unfold readLines
    refine (ends_checkCancelled_calm rfl).bind ?_
    simp only [here]
    exact read.bind rfl
  unfold Registry.parseScript
  unfold Ends at all
  rw [one, List.zipIdx_cons, List.zipIdx_nil, all]
  rfl

end Row

end Phrasebook.Script

namespace Phrasebook.Registry
open Text Pattern Parse Script

/-- **A script of a word and literal strings** is one statement with the strings as its argument, and nothing is
reported, whatever the strings hold. -/
theorem HasWord.parseScript_quotes {r : Registry} {x : Candidate} {letter : Char} {word : List Char}
    {p : Placeholder} {string : TypeId} {texts : List (List Char)} (has : r.HasWord .effect x letter word p)
    (reads : r.ReadsQuotes string (.ofPlaceholder p)) (plain : (letter :: word).all isPlain = true)
    (oneLine : '\n' ∉ letter :: word) (deep : 2 ≤ r.config.maxDepth) (allowed : r.config.allowTopLevel = true)
    (some_ : texts ≠ []) (lineless : ∀ text ∈ texts, '\n' ∉ text) :
    ∃ node, x.Given texts node ∧
      r.parseScript (String.ofList ((letter :: word) ++ ' ' :: quotes texts)) r.newContext =
        .ok { statements := [{ node, children := [] }], diagnostics := [] } := by
  let line := (letter :: word) ++ ' ' :: quotes texts
  let row : Row :=
    { number := min greatestPosition (0 + 1), indent := 0, column := min greatestPosition 1, text := line }
  obtain ⟨inner, shape⟩ : ∃ inner, line = letter :: inner ++ ['"'] := quotes_behind some_ letter word
  have spared : stripComment line = line := by
    obtain ⟨text, texts, rfl⟩ := List.exists_cons_of_ne_nil some_
    exact stripComment_quotes plain text texts
  have here : Row.ofLine? line 0 = some row := ofLine?_solid spared shape has.solid (by decide) 0
  have body : row.header? = none := header?_of_last shape (by decide)
  have one : Text.lines (String.ofList line).toList = [line] := by
    rw [String.toList_ofList]
    refine lines_of_none (by rw [shape]; exact List.cons_ne_nil _ _) fun mem => ?_
    rcases List.mem_append.1 mem with mem | mem
    · exact oneLine mem
    · rcases List.mem_cons.1 mem with blank | mem
      · exact absurd blank (by decide)
      · rcases mem_quotes mem with mem | ⟨text, among, mem⟩
        · exact absurd mem (by decide)
        · exact lineless text among mem
  obtain ⟨levels, enough⟩ : ∃ levels, r.config.maxDepth = levels + 2 := ⟨_, (Nat.sub_add_cancel deep).symm⟩
  obtain ⟨node, tried, given, parsed⟩ := has.parseLine_quotes
    (c := { r.newContext with line := row.number, column := row.column }) reads enough rfl rfl some_
  exact ⟨node, given, parseScript_effect allowed one here rfl body parsed⟩

end Phrasebook.Registry
