import Phrasebook.Proofs.Pattern.Literals
import Phrasebook.Proofs.Pattern.Plain

/-!
# Reading a pattern text letter by letter

The tree of a pattern is read from tokens, and tokens are cut out of the text with a look ahead for the ends of
labels and captures. `Scan` reads the same tree letter by letter. It is told the label of every branch, so that it
need not look ahead, and it passes over what the tree does not depend on. `foldl_tokensFrom` says that it reads what
the tokens give, if no blank is escaped. A scan does not tell a letter from its small form, nor a run of blanks from one
space (`step_lowerChar`, `step_space`, `step_step_space`), and `compile_alike` is the result: patterns whose texts
have the same small letters and the same words, and whose branches have the same labels, have the same tree.
-/

namespace Phrasebook.Pattern
open Text

/-- A branch starts behind the token. -/
def Token.startsBranch : Token → Bool
  | opening _ | bar => true
  | _ => false

/-- The label with which tokens start. -/
def firstLabel : List Located → Option Label
  | ⟨_, .label label⟩ :: _ => some label
  | _ => none

/-- The labels of the branches that start behind a token. -/
def laterLabels : List Located → List (Option Label)
  | [] => []
  | t :: rest => if t.token.startsBranch then firstLabel rest :: laterLabels rest else laterLabels rest

/-- The label of every branch, in the order in which the branches start. -/
def branchLabels (ts : List Located) : List (Option Label) :=
  firstLabel ts :: laterLabels ts

/-- The flags with one more, if the character is a flag that does not conflict with them. -/
def Flags.add? (f : Flags) (c : Char) : Option Flags :=
  match c with
  | '-' => some { f with nullable := true }
  | '=' => some { f with conditions := true }
  | '*' => if f.acceptance == .nonLiterals then none else some { f with acceptance := .literals }
  | '~' => if f.acceptance == .literals then none else some { f with acceptance := .nonLiterals }
  | _ => none

/-- What a scan is reading. -/
inductive Mode where
  | text
  /-- the character behind a backslash -/
  | escape
  | label (label : Label)
  /-- the flags of a placeholder; blanks in front of the first one are passed over -/
  | flags (f : Flags) (started : Bool)
  /-- the types of a placeholder with these flags -/
  | types (f : Flags)
  | regex
  /-- the character behind a backslash in a regex -/
  | regexEscape

/-- A scan: what is being read, the labels of the branches that are still to come, and what has been read. -/
structure Scan where
  mode : Mode := .text
  labels : List (Option Label)
  reading : Except Refusal Reading

namespace Scan

/-- Goes on with text after something was read. -/
def feed (s : Scan) (f : Reading → Except Refusal Reading) : Scan :=
  { s with mode := .text, reading := (s.reading.bind f).map Reading.plain }

/-- Reads a token that is no capture. -/
def read (s : Scan) (t : Token) : Scan :=
  s.feed fun r => r.next (fun _ => none) ⟨0, t⟩

/-- Starts a branch. -/
def branch (s : Scan) : Scan :=
  match s.labels with
  | [] => s
  | none :: labels => { s with labels }
  | some label :: labels => { s with mode := .label label, labels }

/-- Reads a character. A blank that is escaped is refused. -/
def step (s : Scan) (c : Char) : Scan :=
  match s.mode with
  | .text =>
    if c == '\\' then { s with mode := .escape }
    else
      match captureOf? c with
      | some .placeholder => { s with mode := .flags {} false }
      | some .regex => { s with mode := .regex }
      | none =>
        let s := s.read (simpleToken c).1
        if (simpleToken c).2 then s.branch else s
  | .escape => if isBlank c then s.feed fun _ => .error (0, .danglingEscape) else s.read (.letter c)
  | .label label => if c == ':' || c == '¦' then s.read (.label label) else s
  | .flags f started =>
    if c == '%' then s.feed fun r => .ok (r.addFlags f)
    else if isBlank c && !started then s
    else
      match f.add? c with
      | some f => { s with mode := .flags f true }
      | none => { s with mode := .types f }
  | .types f => if c == '%' then s.feed fun r => .ok (r.addFlags f) else s
  | .regex =>
    if c == '>' then s.feed fun r => .ok r.addRegex
    else if c == '\\' then { s with mode := .regexEscape }
    else s
  | .regexEscape => { s with mode := .regex }

/-- The scan before the first character. -/
def start (labels : List (Option Label)) : Scan :=
  branch { labels, reading := .ok Reading.start.plain }

/-- The characters with a meaning of their own in a pattern text. -/
def signs : List Char :=
  ['\\', '%', '<', '>', '[', ']', '(', ')', '|', ':', '¦', '-', '=', '*', '~']

/-- A character has a meaning of its own in a pattern text. -/
def isSign (c : Char) : Bool :=
  signs.contains c

/-- A character of a kind that no sign is of is no sign. -/
theorem not_isSign_of {kind : Char → Bool} (none : signs.all (fun d => !kind d) = true) {c : Char}
    (h : kind c = true) : isSign c = false := by
  rw [Bool.eq_false_iff]
  intro sign
  have other := List.all_eq_true.mp none c (List.contains_iff_mem.mp sign)
  rw [h] at other
  cases other

theorem not_isSign_of_isBlank {c : Char} (blank : isBlank c = true) : isSign c = false :=
  not_isSign_of (by decide) blank

theorem not_isSign_of_isWordChar {c : Char} (word : isWordChar c = true) : isSign c = false :=
  not_isSign_of (by decide +kernel) word

theorem captureOf?_of_not_isSign {c : Char} (other : isSign c = false) : captureOf? c = none := by
  simp_all [isSign, signs, captureOf?]

theorem simpleToken_of_not_isSign {c : Char} (other : isSign c = false) :
    simpleToken c = (if isBlank c then .blank else .letter c, false) := by
  unfold simpleToken
  split <;> simp_all [isSign, signs]

theorem add?_of_not_isSign {c : Char} (other : isSign c = false) (f : Flags) : f.add? c = none := by
  unfold Flags.add?
  split <;> simp_all [isSign, signs]

/-- What a scan makes of a character without a meaning of its own. -/
def letter (s : Scan) (c : Char) : Scan :=
  match s.mode with
  | .text | .escape => s.read (.letter c)
  | .label _ | .types _ | .regex => s
  | .flags f _ => { s with mode := .types f }
  | .regexEscape => { s with mode := .regex }

theorem step_eq_letter {c : Char} (other : isSign c = false) (solid : isBlank c = false) (s : Scan) :
    s.step c = s.letter c := by
  have apart := other
  simp only [isSign, signs, List.contains_cons, Bool.or_eq_false_iff] at apart
  obtain ⟨mode, labels, reading⟩ := s
  cases mode <;>
    simp [step, letter, apart, solid, captureOf?_of_not_isSign other, simpleToken_of_not_isSign other,
      add?_of_not_isSign other]

/-- What a scan makes of a blank. -/
def blank (s : Scan) : Scan :=
  match s.mode with
  | .text => s.read .blank
  | .escape => s.feed fun _ => .error (0, .danglingEscape)
  | .label _ | .flags _ false | .types _ | .regex => s
  | .flags f true => { s with mode := .types f }
  | .regexEscape => { s with mode := .regex }

theorem step_eq_blank {c : Char} (blank : isBlank c = true) (s : Scan) : s.step c = s.blank := by
  have other := not_isSign_of_isBlank blank
  have apart := other
  simp only [isSign, signs, List.contains_cons, Bool.or_eq_false_iff] at apart
  obtain ⟨mode, labels, reading⟩ := s
  cases mode with
  | flags f started =>
    cases started <;> simp [step, Scan.blank, apart, blank, add?_of_not_isSign other]
  | _ =>
    simp [step, Scan.blank, apart, blank, captureOf?_of_not_isSign other, simpleToken_of_not_isSign other]

/-- Every blank is read as a space. -/
theorem step_space {c : Char} (blank : isBlank c = true) (s : Scan) : s.step c = s.step ' ' := by
  rw [step_eq_blank blank, step_eq_blank (by decide)]

/-- A reading that is fed twice is fed both one after the other. -/
theorem feed_feed (s : Scan) {f g h : Reading → Except Refusal Reading}
    (both : ∀ r, (((f r).map Reading.plain).bind g).map Reading.plain = (h r).map Reading.plain) :
    (s.feed f).feed g = s.feed h := by
  obtain ⟨mode, labels, reading⟩ := s
  cases reading with
  | error => rfl
  | ok r => exact congrArg (fun reading => ({ mode := .text, labels, reading } : Scan)) (both r)

/-- A second space changes nothing. -/
theorem step_step_space (s : Scan) : (s.step ' ').step ' ' = s.step ' ' := by
  have space : isBlank ' ' = true := by decide
  rw [step_eq_blank space, step_eq_blank space]
  obtain ⟨mode, labels, reading⟩ := s
  cases mode with
  | text =>
    refine feed_feed _ fun r => congrArg Except.ok ?_
    show ((r.onBranch true Branch.addBlank).plain.onBranch true Branch.addBlank).plain = _
    rw [Reading.onBranch_plain _ _ (Branch.addBlank_plain _), Reading.onBranch_onBranch]
    simp only [Branch.addBlank_addBlank]
  | escape => exact feed_feed _ fun _ => rfl
  | flags f started => cases started <;> rfl
  | _ => rfl

/-- Two letters in a row are read as any character with their small form is. -/
theorem read_letter_letter (s : Scan) {c d e : Char} (small : lowerChar c = lowerChar d ++ lowerChar e) :
    (s.read (.letter d)).read (.letter e) = s.read (.letter c) := by
  refine feed_feed _ fun r => congrArg Except.ok ?_
  show ((r.onBranch false fun b => b.addLetter d).plain.onBranch false fun b => b.addLetter e).plain =
    (r.onBranch false fun b => b.addLetter c).plain
  rw [Reading.onBranch_plain _ _ (by simp), Reading.onBranch_onBranch]
  simp only [Branch.addLetter, small, List.append_assoc]

/-- A letter is read as the letters of its small form are. -/
theorem letter_lowerChar (s : Scan) (c : Char) : (lowerChar c).foldl letter s = s.letter c := by
  by_cases dotted : c = '\u0130'
  · subst dotted
    have small : lowerChar '\u0130' = ['i', '\u0307'] := by decide
    have parts : lowerChar '\u0130' = lowerChar 'i' ++ lowerChar '\u0307' := by decide +kernel
    rw [small]
    obtain ⟨mode, labels, reading⟩ := s
    cases mode with
    | text | escape => exact read_letter_letter _ parts
    | _ => rfl
  · obtain ⟨d, small⟩ := lowerChar_eq_singleton dotted
    have own : lowerChar d = [d] := lowerChar_of_mem (small ▸ List.mem_singleton_self d)
    have same : s.read (.letter d) = s.read (.letter c) := by
      have branch : (fun b : Branch => b.addLetter d) = fun b => b.addLetter c := by
        simp only [Branch.addLetter, small, own]
      simp only [read, Reading.next, branch]
    rw [small, List.foldl_cons, List.foldl_nil]
    unfold letter
    split <;> simp only [same]

/-- A character is read as the letters of its small form are. -/
theorem step_lowerChar (s : Scan) (c : Char) : (lowerChar c).foldl step s = s.step c := by
  rcases lowerChar_eq c with own | ⟨word, letters⟩
  · rw [own]
    rfl
  -- all of it are letters, so that a step is the same as reading a letter
  have solid : isBlank c = false := by
    rw [Bool.eq_false_iff]
    intro blank
    rw [not_isWordChar_of_isBlank blank] at word
    cases word
  have other : ∀ d ∈ lowerChar c, isSign d = false := by
    by_cases dotted : c = '\u0130'
    · subst dotted
      have small : lowerChar '\u0130' = ['i', '\u0307'] := by decide
      rw [small]
      simp [isSign, signs]
    · obtain ⟨d, small⟩ := lowerChar_eq_singleton dotted
      rw [small]
      simpa using not_isSign_of_isWordChar (letters d small)
  rw [step_eq_letter (not_isSign_of_isWordChar word) solid, ← letter_lowerChar]
  refine List.foldl_ext _ _ _ fun s d mem => ?_
  exact step_eq_letter (other d mem) (not_isBlank_of_mem_lowerChar solid mem) s

/-- Blanks in front of a pattern are passed over. -/
theorem step_start (labels : List (Option Label)) : (start labels).step ' ' = start labels := by
  have space : isBlank ' ' = true := by decide
  rw [step_eq_blank space]
  cases labels with
  | nil => rfl
  | cons label labels => cases label <;> rfl

/-- A flag is read, or ends the flags. -/
theorem takeFlags_cons {f g : Flags} {c : Char} {cs names : List Char}
    (h : takeFlags f (c :: cs) = .ok (g, names)) :
    match f.add? c with
    | some f => takeFlags f cs = .ok (g, names)
    | none => g = f := by
  unfold takeFlags at h
  unfold Flags.add?
  split at h
  · exact h
  · exact h
  · split at h
    · cases h
    next fits => simpa [fits] using h
  · split at h
    · cases h
    next fits => simpa [fits] using h
  · cases h
    split <;> simp_all

section Runs

variable {labels : List (Option Label)} {reading : Except Refusal Reading} {cs body rest : List Char}

/-- The rest of a label is passed over, and the label read where it ends. -/
theorem foldl_label {found label : Label} {text : List Char} (h : takeLabel? cs = some (found, text, rest)) :
    cs.foldl step { mode := .label label, labels, reading } =
      rest.foldl step (read { labels, reading } (.label label)) := by
  unfold takeLabel? at h
  split at h
  next sign cs' behind =>
    split at h
    next ends =>
      obtain ⟨_, -, same⟩ := Option.map_eq_some_iff.1 h
      cases same
      have pass (word : List Char) (letters : ∀ c ∈ word, isLabelChar c = true) :
          word.foldl step { mode := .label label, labels, reading } = { mode := .label label, labels, reading } := by
        induction word with
        | nil => rfl
        | cons c word ih =>
          have inside : (c == ':' || c == '¦') = false := by
            rw [Bool.eq_false_iff]
            intro sign
            have := letters c List.mem_cons_self
            simp only [Bool.or_eq_true, beq_iff_eq] at sign
            rcases sign with rfl | rfl <;> revert this <;> decide
          rw [List.foldl_cons]
          simp only [step, inside, Bool.false_eq_true, if_false]
          exact ih fun d mem => letters d (List.mem_cons_of_mem c mem)
      rw [← List.takeWhile_append_dropWhile (p := isLabelChar) (l := cs), List.foldl_append, behind,
        pass _ fun c => List.mem_takeWhile_imp, List.foldl_cons]
      simp only [step, ends, if_true]
      rfl
    next => cases h
  · cases h

/-- The types of a placeholder are passed over. -/
theorem foldl_types {f : Flags} (h : takePlaceholder? cs = some (body, rest)) :
    cs.foldl step { mode := .types f, labels, reading } =
      rest.foldl step (feed { labels, reading } fun r => .ok (r.addFlags f)) := by
  fun_induction takePlaceholder? cs generalizing body with
  | case1 => cases h
  | case2 => cases h; rfl
  | case3 c cs other ih =>
    obtain ⟨⟨body, rest⟩, found, same⟩ := Option.map_eq_some_iff.1 h
    cases same
    have percent : (c == '%') = false := by simpa using other
    rw [List.foldl_cons, ← ih found]
    simp [step, percent]

/-- The flags of a placeholder are read up to its types. -/
theorem foldl_flags {f g : Flags} {names : List Char} {started : Bool}
    (h : takePlaceholder? cs = some (body, rest))
    (flags : takeFlags f (if started then body else trimStart body) = .ok (g, names)) :
    cs.foldl step { mode := .flags f started, labels, reading } =
      rest.foldl step (feed { labels, reading } fun r => .ok (r.addFlags g)) := by
  fun_induction takePlaceholder? cs generalizing body f started with
  | case1 => cases h
  | case2 =>
    cases h
    have same : g = f := by cases started <;> cases flags <;> rfl
    rw [same]
    rfl
  | case3 c cs other ih =>
    obtain ⟨⟨body, rest⟩, found, same⟩ := Option.map_eq_some_iff.1 h
    cases same
    have percent : (c == '%') = false := by simpa using other
    rw [List.foldl_cons]
    by_cases passed : (isBlank c && !started) = true
    · obtain ⟨blank, first⟩ := Bool.and_eq_true_iff.1 passed
      obtain rfl : started = false := by simpa using first
      have here : takeFlags f (if false = true then body else trimStart body) = .ok (g, names) := by
        simpa [trimStart, blank] using flags
      rw [← ih found here]
      simp [step, percent, blank]
    · have here : takeFlags f (c :: body) = .ok (g, names) := by
        cases started <;> simp_all [trimStart]
      have next := takeFlags_cons here
      cases more : f.add? c with
      | some f' =>
        rw [more] at next
        have next : takeFlags f' (if true = true then body else trimStart body) = .ok (g, names) := next
        rw [← ih found next]
        simp [step, percent, passed, more]
      | none =>
        rw [more] at next
        rw [next, ← foldl_types found]
        simp [step, percent, passed, more]

/-- The body of a regex is passed over. -/
theorem foldl_regex (h : takeRegex? cs = some (body, rest)) :
    cs.foldl step { mode := .regex, labels, reading } =
      rest.foldl step (feed { labels, reading } fun r => .ok r.addRegex) := by
  fun_induction takeRegex? cs generalizing body with
  | case1 => cases h
  | case2 => cases h; rfl
  | case3 c cs ih =>
    obtain ⟨⟨body, rest⟩, found, same⟩ := Option.map_eq_some_iff.1 h
    cases same
    exact ih found
  | case4 c cs closed escaped ih =>
    obtain ⟨⟨body, rest⟩, found, same⟩ := Option.map_eq_some_iff.1 h
    cases same
    have plain : (c == '\\') = false := by
      rw [beq_eq_false_iff_ne]
      rintro rfl
      cases cs with
      | nil => cases found
      | cons d cs => exact escaped d cs rfl rfl
    have inside : (c == '>') = false := by simpa using closed
    rw [List.foldl_cons, ← ih found]
    simp [step, inside, plain]

end Runs

/-- The scan before the characters of some tokens, at the start of a branch or within one. -/
def before (branchStart : Bool) (ts : List Located) (r : Reading) : Scan :=
  if branchStart then branch { labels := branchLabels ts, reading := .ok r.plain }
  else { labels := laterLabels ts, reading := .ok r.plain }

theorem before_of_firstLabel {ts : List Located} (none : firstLabel ts = none) (branchStart : Bool) (r : Reading) :
    before branchStart ts r = { labels := laterLabels ts, reading := .ok r.plain } := by
  cases branchStart <;> simp [before, branch, branchLabels, none]

/-- A token that is no capture is read from a scan as from the tokens. -/
theorem read_eq {resolve : String → Option PatternType} {r r' : Reading} {offset : Nat} {token : Token}
    (other : ∀ kind body stop, token ≠ .capture kind body stop) (h : r.next resolve ⟨offset, token⟩ = .ok r')
    (mode : Mode) (labels : List (Option Label)) :
    read { mode, labels, reading := .ok r.plain } token = { labels, reading := .ok r'.plain } :=
  congrArg (fun reading => ({ labels, reading } : Scan)) (Reading.next_plain other h)

theorem eq_of_captureOf? {c : Char} {kind : CaptureKind} (opens : captureOf? c = some kind) : c = kind.opener := by
  unfold captureOf? at opens
  split at opens
  next percent =>
    cases opens
    exact beq_iff_eq.1 percent
  next =>
    split at opens
    next less =>
      cases opens
      exact beq_iff_eq.1 less
    next => cases opens

theorem startsBranch_simpleToken (c : Char) : (simpleToken c).1.startsBranch = (simpleToken c).2 := by
  unfold simpleToken
  split <;> try rfl
  dsimp only
  split <;> rfl

theorem simpleToken_ne_capture (c : Char) (kind : CaptureKind) (body : List Char) (stop : Nat) :
    (simpleToken c).1 ≠ .capture kind body stop := by
  unfold simpleToken
  split <;> try simp
  split <;> simp

theorem firstLabel_simpleToken (c : Char) (offset : Nat) (ts : List Located) :
    firstLabel (⟨offset, (simpleToken c).1⟩ :: ts) = none := by
  unfold simpleToken
  split <;> try rfl
  dsimp only
  split <;> rfl

/-- **A scan of a text reads what its tokens give**, if no blank is escaped. -/
theorem foldl_tokensFrom {resolve : String → Option PatternType} {offset : Nat} {branchStart : Bool} {cs : List Char}
    {r r' : Reading} (h : readAll resolve r (tokensFrom offset branchStart cs) = .ok r')
    (unescaped : ∀ t ∈ tokensFrom offset branchStart cs, t.token.isEscapedBlank = false) :
    cs.foldl step (before branchStart (tokensFrom offset branchStart cs) r) =
      { labels := [], reading := .ok r'.plain } := by
  fun_induction tokensFrom offset branchStart cs generalizing r with
  | case1 offset branchStart cs label text rest found _ _ ih =>
    obtain ⟨next, here, h⟩ := readAll_cons h
    have further := ih h fun t mem => unescaped t (List.mem_cons_of_mem _ mem)
    cases branchStart with
    | false => cases found
    | true =>
      have other : ∀ kind body stop, Token.label label ≠ .capture kind body stop := by simp
      refine (foldl_label found).trans ?_
      rw [read_eq other here]
      exact further
  | case2 =>
    cases h
    rw [before_of_firstLabel rfl]
    rfl
  | case3 =>
    obtain ⟨_, here, -⟩ := readAll_cons h
    cases here
  | case4 offset branchStart c rest _ ih =>
    obtain ⟨next, here, h⟩ := readAll_cons h
    have further := ih h fun t mem => unescaped t (List.mem_cons_of_mem _ mem)
    have solid : isBlank c = false := unescaped _ List.mem_cons_self
    have other : ∀ kind body stop, Token.letter c ≠ .capture kind body stop := by simp
    have escaped (s : Scan) (text : s.mode = .text) : (s.step '\\').step c = s.read (.letter c) := by
      obtain ⟨mode, labels, reading⟩ := s
      cases text
      simp [step, solid, read, feed]
    rw [before_of_firstLabel rfl, List.foldl_cons, List.foldl_cons, escaped _ rfl, read_eq other here]
    exact further
  | case5 offset branchStart c rest _ _ kind =>
    obtain ⟨_, here, -⟩ := readAll_cons h
    unfold Reading.next at here
    dsimp only at here
    split at here <;> cases here
  | case6 offset branchStart c rest _ _ kind opens body rest' found =>
    rename_i ih
    obtain ⟨next, here, h⟩ := readAll_cons h
    have further := ih h fun t mem => unescaped t (List.mem_cons_of_mem _ mem)
    rw [before_of_firstLabel rfl, List.foldl_cons]
    cases kind with
    | placeholder =>
      obtain ⟨f, names, flags, same⟩ := Reading.addPlaceholder_plain here
      obtain rfl : c = '%' := eq_of_captureOf? opens
      have flags : takeFlags {} (if false = true then body else trimStart body) = .ok (f, names) := flags
      refine (foldl_flags found flags).trans (Eq.trans ?_ further)
      exact congrArg (fun reading => rest'.foldl step { labels := _, reading := .ok reading }) same
    | regex =>
      have here : r.addCapture resolve offset .regex body _ = .ok next := here
      have same := Reading.addRegex_plain here
      obtain rfl : c = '<' := eq_of_captureOf? opens
      refine (foldl_regex found).trans (Eq.trans ?_ further)
      exact congrArg (fun reading => rest'.foldl step { labels := _, reading := .ok reading }) same
  | case7 offset branchStart c rest single double opens token starts simple _ ih =>
    obtain ⟨next, here, h⟩ := readAll_cons h
    have further := ih h fun t mem => unescaped t (List.mem_cons_of_mem _ mem)
    obtain ⟨rfl, rfl⟩ := Prod.ext_iff.1 simple
    have plain : (c == '\\') = false := by
      rw [beq_eq_false_iff_ne]
      rintro rfl
      cases rest with
      | nil => exact single rfl rfl
      | cons d rest => exact double d rest rfl rfl
    have unlabelled : firstLabel (⟨offset, (simpleToken c).1⟩ ::
        tokensFrom (offset + c.utf8Size) (simpleToken c).2 rest) = none := firstLabel_simpleToken c _ _
    have read := read_eq (simpleToken_ne_capture c) here
    rw [before_of_firstLabel unlabelled, List.foldl_cons, ← further]
    simp only [step, plain, opens, read, laterLabels, startsBranch_simpleToken, before, branchLabels]
    cases (simpleToken c).2 <;> rfl

end Scan

/-- A scan that a space left within text was within text before. -/
theorem Scan.of_step_space {s : Scan} {labels : List (Option Label)} {r : Reading}
    (h : s.step ' ' = { labels, reading := .ok r }) :
    ∃ r', s = { labels, reading := .ok r' } ∧ (r'.onBranch true Branch.addBlank).plain = r := by
  rw [step_eq_blank (by decide)] at h
  obtain ⟨mode, labels', reading⟩ := s
  cases mode with
  | text =>
    cases reading with
    | error => cases h
    | ok r' =>
      cases h
      exact ⟨r', rfl, rfl⟩
  | escape => cases reading <;> cases h
  | flags f started => cases started <;> cases h
  | _ => cases h

/-- What is read of a pattern that compiles depends on the labels of its branches and on the small letters of its
words only. -/
theorem foldl_small {resolve : String → Option PatternType} {source : String} {p : Pattern}
    (h : Pattern.compile resolve source = .ok p) (unescaped : ¬ EscapesBlank source) :
    ∃ r, ((join [' '] (words source.toList)).flatMap lowerChar).foldl Scan.step
        (.start (branchLabels (tokens source))) = { labels := [], reading := .ok r } ∧
      r.finish = .ok p.root ∧ r.placeholders.map Placeholder.plain = p.placeholders.map Placeholder.plain := by
  obtain ⟨reading, read, finish, parts⟩ := compile_reads h
  have placeholders : p.placeholders = reading.placeholders := by rw [parts]
  have solid : ∀ t ∈ tokens source, t.token.isEscapedBlank = false := fun t mem => by
    rw [Bool.eq_false_iff]
    exact fun blank => unescaped ⟨t, mem, blank⟩
  have whole : source.toList.foldl Scan.step (.start (branchLabels (tokens source))) =
      { labels := [], reading := .ok reading.plain } := Scan.foldl_tokensFrom read solid
  -- blanks in front are passed over, and the letters are read as their small forms
  obtain ⟨trail, few, spaced⟩ := foldl_words (fun s c blank => Scan.step_space blank s) Scan.step_step_space source.toList
  have lead : (leadingSpace source.toList).foldl Scan.step (.start (branchLabels (tokens source))) =
      .start (branchLabels (tokens source)) := by
    unfold leadingSpace
    split
    · exact Scan.step_start _
    · rfl
  have small : (join [' '] (words source.toList)).foldl Scan.step (.start (branchLabels (tokens source))) =
      ((join [' '] (words source.toList)).flatMap lowerChar).foldl Scan.step
        (.start (branchLabels (tokens source))) := by
    rw [List.foldl_flatMap]
    simp only [Scan.step_lowerChar]
  rw [spaced, List.foldl_append, List.foldl_append, lead, small] at whole
  rcases few with rfl | rfl
  · exact ⟨reading.plain, whole, Reading.finish_plain.2 finish, by simp [placeholders, Reading.plain, Placeholder.plain]⟩
  · -- the blank at the end makes no difference to the branch, which no bracket holds
    obtain ⟨r, before, same⟩ := Scan.of_step_space whole
    have closed : reading.group.opener = none := by
      unfold Reading.finish at finish
      split at finish
      · cases finish
      · assumption
    have nested : r.group.branch.nested = false := by
      have kept := congrArg (fun r : Reading => r.group.branch.nested) same
      have outer := (readAll_sound Reading.sound_start read).group.nested
      rw [closed] at outer
      exact (Branch.nested_addBlank _).symm.trans (kept.trans outer)
    refine ⟨r, before, Reading.finish_addBlank nested (Reading.finish_plain.1 ?_), ?_⟩
    · rw [same]
      exact Reading.finish_plain.2 finish
    · rw [placeholders]
      exact congrArg Reading.placeholders same

/-- **Patterns whose texts hold the same words up to letter case, and whose branches have the same labels, have the
same tree**, and placeholders with the same flags, unless a blank is escaped. -/
theorem compile_alike {resolve resolve' : String → Option PatternType} {source source' : String} {p p' : Pattern}
    (h : Pattern.compile resolve source = .ok p) (h' : Pattern.compile resolve' source' = .ok p')
    (unescaped : ¬ EscapesBlank source) (unescaped' : ¬ EscapesBlank source')
    (labels : branchLabels (tokens source) = branchLabels (tokens source'))
    (small : (join [' '] (words source.toList)).flatMap lowerChar =
      (join [' '] (words source'.toList)).flatMap lowerChar) :
    p.root = p'.root ∧ p.placeholders.map Placeholder.plain = p'.placeholders.map Placeholder.plain := by
  obtain ⟨r, read, finish, placeholders⟩ := foldl_small h unescaped
  obtain ⟨r', read', finish', placeholders'⟩ := foldl_small h' unescaped'
  rw [small, labels, read'] at read
  obtain rfl : r' = r := by
    have same := congrArg Scan.reading read
    exact Except.ok.inj same
  exact ⟨Except.ok.inj (finish.symm.trans finish'), placeholders.symm.trans placeholders'⟩

end Phrasebook.Pattern
