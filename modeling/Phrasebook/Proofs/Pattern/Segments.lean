import Phrasebook.Proofs.Literal.Integer
import Phrasebook.Proofs.Pattern.Compiled

/-!
# Patterns of words and integers

The plainest patterns are words and slots for integers with single spaces between them. Words that stand next to each
other are one literal of the pattern, so the words are first put together into phrases (`merge`), which changes neither
the pattern nor the lines that it is meant for. `compile_segments` says that such a pattern compiles, and to which
tree: the phrases in small letters and the slots, with boundaries between them.
-/

namespace Phrasebook.Pattern
open Text Literal

/-- A part of a line: a word, or an integer for which the pattern of the line has a slot. -/
inductive Segment where
  | word (text : List Char)
  | integer (n : Int64)
deriving DecidableEq, Repr

namespace Segment

/-- The name of the type of slots. -/
def slotType : List Char :=
  ['i', 'n', 't', 'e', 'g', 'e', 'r']

/-- The part of the pattern. -/
def pattern : Segment → List Char
  | word text => text
  | integer _ => '%' :: slotType ++ ['%']

/-- The part of the line. -/
def line : Segment → List Char
  | word text => text
  | integer n => decimal n

/-- The integer that fills the slot. -/
def integer? : Segment → Option Int64
  | word _ => none
  | integer n => some n

/-- The segment is a word. -/
def isWord : Segment → Bool
  | word _ => true
  | integer _ => false

/-- A character that stands for itself in a pattern. -/
def isPlain (c : Char) : Bool :=
  !isBlank c && !(['\\', '|', '[', ']', '(', ')', '%', '<', ':', '¦'].contains c)

/-- A word has some letter, and only characters that stand for themselves. -/
def IsPlain : Segment → Prop
  | word text => text ≠ [] ∧ ∀ c ∈ text, isPlain c = true
  | integer _ => True

instance : DecidablePred IsPlain
  -- the library decides a statement about all characters by trying each of them
  | word text => @instDecidableAnd _ _ inferInstance (List.decidableBAll _ text)
  | integer _ => inferInstanceAs (Decidable True)

theorem isBlank_of_isPlain {c : Char} (plain : isPlain c = true) : isBlank c = false := by
  simp only [isPlain, Bool.and_eq_true, Bool.not_eq_true'] at plain
  exact plain.1

/-- A character that stands for itself is none of the signs of patterns. -/
theorem ne_of_isPlain {c d : Char} (plain : isPlain c = true) (sign : isPlain d = false) : c ≠ d := by
  rintro rfl
  rw [plain] at sign
  cases sign

/-- The text of a phrase: words with single spaces between them. -/
structure IsPhrase (text : List Char) : Prop extends Spaced text where
  starts : ∃ c rest, text = c :: rest ∧ isBlank c = false
  plain : ∀ c ∈ text, c = ' ' ∨ isPlain c = true

theorem isPhrase_of_isPlain {text : List Char} (plain : (word text).IsPlain) : IsPhrase text := by
  obtain ⟨some, plain⟩ := plain
  have solid : ∀ c ∈ text, isBlank c = false := fun c mem => isBlank_of_isPlain (plain c mem)
  have spaced : SingleSpaced text := by simpa using SingleSpaced.nil.append_solid solid
  refine ⟨⟨spaced, fun last => ?_⟩, ?_, fun c mem => .inr (plain c mem)⟩
  · exact absurd (solid _ (List.mem_of_getLast? last)) (by decide)
  · obtain ⟨c, rest, rfl⟩ := List.exists_cons_of_ne_nil some
    exact ⟨c, rest, rfl, solid c List.mem_cons_self⟩

/-- A phrase ends with a letter. -/
theorem IsPhrase.ends {text : List Char} (phrase : IsPhrase text) :
    ∃ before c, text = before ++ [c] ∧ isBlank c = false := by
  obtain ⟨d, rest, rfl, -⟩ := phrase.starts
  obtain ⟨before, c, same⟩ := (List.eq_nil_or_concat (d :: rest)).resolve_left (List.cons_ne_nil d rest)
  rw [List.concat_eq_append] at same
  refine ⟨before, c, same, ?_⟩
  rw [Bool.eq_false_iff]
  intro blank
  have space := phrase.solid c (by simp [same]) blank
  exact phrase.last (by simp [same, space])

/-- Two phrases are one with a space between them. -/
theorem IsPhrase.append {a b : List Char} (left : IsPhrase a) (right : IsPhrase b) : IsPhrase (a ++ ' ' :: b) := by
  obtain ⟨d, more, rfl, solid⟩ := right.starts
  have letter : d ≠ ' ' := by
    rintro rfl
    exact absurd solid (by decide)
  refine ⟨⟨⟨fun c mem blank => ?_, List.isChain_append.2 ⟨left.apart, ?_, ?_⟩⟩, fun last => ?_⟩, ?_, fun c mem => ?_⟩
  · rcases List.mem_append.1 mem with mem | mem
    · exact left.solid c mem blank
    · rcases List.mem_cons.1 mem with rfl | mem
      · rfl
      · exact right.solid c mem blank
  · exact List.isChain_cons_cons.2 ⟨fun _ => letter, right.apart⟩
  · intro c final _ _ space
    exact absurd (space ▸ final) left.last
  · apply right.last
    simpa using last
  · obtain ⟨c, rest, rfl, first⟩ := left.starts
    exact ⟨c, rest ++ ' ' :: d :: more, rfl, first⟩
  · rcases List.mem_append.1 mem with mem | mem
    · exact left.plain c mem
    · rcases List.mem_cons.1 mem with rfl | mem
      · exact .inl rfl
      · exact right.plain c mem

/-- A segment in front of others. A word joins the phrase that it stands in front of. -/
def before : Segment → List Segment → List Segment
  | word a, word b :: more => word (a ++ ' ' :: b) :: more
  | s, more => s :: more

/-- The segments with every run of words as one phrase. -/
def merge : List Segment → List Segment
  | [] => []
  | s :: rest => s.before (merge rest)

/-- Segments of which words are phrases, and no two phrases stand next to each other. -/
structure Merged (segments : List Segment) : Prop where
  phrases : ∀ text, word text ∈ segments → IsPhrase text
  apart : segments.IsChain fun a b => a.isWord = true → b.isWord = false

theorem Merged.tail {s : Segment} {segments : List Segment} (h : Merged (s :: segments)) : Merged segments :=
  ⟨fun text mem => h.phrases text (List.mem_cons_of_mem s mem), h.apart.tail⟩

theorem Merged.before {s : Segment} {segments : List Segment} (plain : s.IsPlain) (h : Merged segments) :
    Merged (s.before segments) := by
  have chain {t : Segment} {rest : List Segment} (h : Merged (t :: rest)) := List.isChain_cons.1 h.apart
  match s, segments with
  | word a, word b :: more =>
    have phrase := (isPhrase_of_isPlain plain).append (h.phrases b List.mem_cons_self)
    refine ⟨fun text mem => ?_, List.isChain_cons.2 ⟨(chain h).1, (chain h).2⟩⟩
    rcases List.mem_cons.1 mem with first | mem
    · cases first
      exact phrase
    · exact h.phrases text (List.mem_cons_of_mem _ mem)
  | word a, [] =>
    refine ⟨fun text mem => ?_, .singleton _⟩
    cases List.mem_singleton.1 mem
    exact isPhrase_of_isPlain plain
  | word a, integer n :: more =>
    refine ⟨fun text mem => ?_, List.isChain_cons_cons.2 ⟨fun _ => rfl, h.apart⟩⟩
    rcases List.mem_cons.1 mem with first | mem
    · cases first
      exact isPhrase_of_isPlain plain
    · exact h.phrases text mem
  | integer n, more =>
    refine ⟨fun text mem => ?_, List.isChain_cons.2 ⟨nofun, h.apart⟩⟩
    rcases List.mem_cons.1 mem with first | mem
    · cases first
    · exact h.phrases text mem

theorem merged_merge {segments : List Segment} (plain : ∀ s ∈ segments, s.IsPlain) : Merged (merge segments) := by
  induction segments with
  | nil => exact ⟨nofun, .nil⟩
  | cons s rest ih =>
    have others := ih fun t mem => plain t (List.mem_cons_of_mem s mem)
    exact others.before (plain s List.mem_cons_self)

theorem before_ne_nil (s : Segment) (segments : List Segment) : s.before segments ≠ [] := by
  unfold before
  split <;> exact List.cons_ne_nil _ _

theorem merge_ne_nil {segments : List Segment} (some : segments ≠ []) : merge segments ≠ [] := by
  obtain ⟨s, rest, rfl⟩ := List.exists_cons_of_ne_nil some
  exact before_ne_nil s _

/-- Putting a word into a phrase changes no text in which words stand for themselves. -/
theorem join_before {text : Segment → List Char} (words : ∀ a, text (word a) = a) (s : Segment)
    (segments : List Segment) :
    join [' '] ((s.before segments).map text) = join [' '] (text s :: segments.map text) := by
  match s, segments with
  | word a, word b :: more =>
    cases more <;> simp [before, join, words]
  | word a, [] | word a, integer n :: more | integer n, more => rfl

/-- Merging changes no such text. -/
theorem join_merge {text : Segment → List Char} (words : ∀ a, text (word a) = a) (segments : List Segment) :
    join [' '] ((merge segments).map text) = join [' '] (segments.map text) := by
  induction segments with
  | nil => rfl
  | cons s rest ih =>
    rw [merge, join_before words]
    cases rest with
    | nil => rfl
    | cons t rest =>
      obtain ⟨u, more, same⟩ := List.exists_cons_of_ne_nil (merge_ne_nil (List.cons_ne_nil t rest))
      rw [same] at ih ⊢
      exact congrArg (text s ++ [' '] ++ ·) ih

/-- A phrase holds the letters of words, and spaces. -/
theorem mem_of_mem_merge {segments : List Segment} {text : List Char} (mem : word text ∈ merge segments) {c : Char}
    (inside : c ∈ text) : c = ' ' ∨ ∃ a, word a ∈ segments ∧ c ∈ a := by
  induction segments generalizing text with
  | nil => cases mem
  | cons s rest ih =>
    have later {text : List Char} (mem : word text ∈ merge rest) (inside : c ∈ text) :
        c = ' ' ∨ ∃ a, word a ∈ s :: rest ∧ c ∈ a :=
      (ih mem inside).imp_right fun ⟨a, among, here⟩ => ⟨a, List.mem_cons_of_mem s among, here⟩
    rw [merge] at mem
    unfold before at mem
    split at mem
    next a b more same =>
      rcases List.mem_cons.1 mem with first | mem
      · cases first
        rcases List.mem_append.1 inside with here | here
        · exact .inr ⟨a, List.mem_cons_self, here⟩
        · rcases List.mem_cons.1 here with rfl | here
          · exact .inl rfl
          · exact later (same ▸ List.mem_cons_self) here
      · exact later (same ▸ List.mem_cons_of_mem _ mem) inside
    next =>
      rcases List.mem_cons.1 mem with rfl | mem
      · exact .inr ⟨text, List.mem_cons_self, inside⟩
      · exact later mem inside

theorem integers_merge (segments : List Segment) :
    (merge segments).filterMap integer? = segments.filterMap integer? := by
  induction segments with
  | nil => rfl
  | cons s rest ih =>
    have here : ∀ others, (s.before others).filterMap integer? = (s :: others).filterMap integer? := by
      intro others
      match s, others with
      | word a, word b :: more | word a, [] | word a, integer n :: more | integer n, more => rfl
    rw [merge, here, List.filterMap_cons, List.filterMap_cons, ih]

/-- The segments as a pattern. -/
def patternOf (segments : List Segment) : List Char :=
  join [' '] (segments.map pattern)

/-- The segments as a line. -/
def lineOf (segments : List Segment) : List Char :=
  join [' '] (segments.map line)

theorem lineOf_cons_cons (s t : Segment) (rest : List Segment) :
    lineOf (s :: t :: rest) = s.line ++ ' ' :: lineOf (t :: rest) := by
  simp [lineOf, join]

/-- The line of segments starts with that of the first one. -/
theorem lineOf_cons (s : Segment) (rest : List Segment) : ∃ more, lineOf (s :: rest) = s.line ++ more := by
  cases rest with
  | nil => exact ⟨[], (List.append_nil _).symm⟩
  | cons t rest => exact ⟨_, lineOf_cons_cons s t rest⟩

/-- The line of segments starts with no blank. -/
theorem lineOf_starts {segments : List Segment} (some_ : segments ≠ []) (merged : Merged segments) :
    ∃ c more, lineOf segments = c :: more ∧ isBlank c = false := by
  obtain ⟨s, rest, rfl⟩ := List.exists_cons_of_ne_nil some_
  obtain ⟨c, first, shape, solid⟩ : ∃ c first, s.line = c :: first ∧ isBlank c = false := by
    cases s with
    | word text => exact (merged.phrases text List.mem_cons_self).starts
    | integer n => exact decimal_starts n
  obtain ⟨more, same⟩ := lineOf_cons s rest
  exact ⟨c, first ++ more, by rw [same, shape, List.cons_append], solid⟩

/-- The line of segments ends with no blank. -/
theorem lineOf_ends {segments : List Segment} (some_ : segments ≠ []) (merged : Merged segments) :
    ∃ before c, lineOf segments = before ++ [c] ∧ isBlank c = false := by
  induction segments with
  | nil => exact absurd rfl some_
  | cons s rest ih =>
    cases rest with
    | nil =>
      cases s with
      | word text => exact (merged.phrases text List.mem_cons_self).ends
      | integer n => exact decimal_ends n
    | cons t rest =>
      obtain ⟨before, c, shape, solid⟩ := ih (List.cons_ne_nil t rest) merged.tail
      refine ⟨s.line ++ ' ' :: before, c, ?_, solid⟩
      rw [lineOf_cons_cons, shape, List.append_assoc, List.cons_append]

/-- The integers of the segments. -/
def integersOf (segments : List Segment) : List Int64 :=
  segments.filterMap integer?

theorem integersOf_cons (s : Segment) (rest : List Segment) :
    integersOf (s :: rest) = integersOf [s] ++ integersOf rest := by
  cases s <;> rfl

/-- The element of a segment, if it is a slot with a number. -/
def element (index : Nat) : Segment → Element
  | word text => .literal (text.flatMap lowerChar)
  | integer _ => .placeholder index

/-- The elements of segments, the slots numbered from some number on. -/
def elements (index : Nat) : List Segment → List Element
  | [] => []
  | [s] => [s.element index]
  | s :: rest => s.element index :: .space :: elements (index + (integersOf [s]).length) rest

theorem elements_cons_cons (index : Nat) (s t : Segment) (rest : List Segment) :
    elements index (s :: t :: rest) =
      s.element index :: .space :: elements (index + (integersOf [s]).length) (t :: rest) := rfl

/-- The elements of segments start with that of the first one. -/
theorem elements_cons (index : Nat) (s : Segment) (rest : List Segment) :
    ∃ more, elements index (s :: rest) = s.element index :: more := by
  cases rest with
  | nil => exact ⟨[], rfl⟩
  | cons t rest => exact ⟨_, elements_cons_cons index s t rest⟩

theorem elements_ne_nil {segments : List Segment} (some_ : segments ≠ []) (index : Nat) : elements index segments ≠ [] := by
  unfold elements
  split
  · exact absurd rfl some_
  · exact List.cons_ne_nil _ _
  · exact List.cons_ne_nil _ _

/-- No sign of a label stands in the pattern of segments. -/
theorem no_label {segments : List Segment} (merged : Merged segments) {c : Char} (mem : c ∈ patternOf segments) :
    c ≠ ':' ∧ c ≠ '¦' := by
  rcases mem_join mem with rfl | ⟨part, among, mem⟩
  · decide
  obtain ⟨s, inside, rfl⟩ := List.mem_map.1 among
  cases s with
  | word text =>
    rcases (merged.phrases text inside).plain c mem with rfl | plain
    · decide
    · exact ⟨ne_of_isPlain plain (by decide), ne_of_isPlain plain (by decide)⟩
  | integer n =>
    have all : (integer n).pattern.all (fun c => c != ':' && c != '¦') = true := rfl
    simpa using List.all_eq_true.1 all c mem

/-- A boundary behind some items, if there are any. -/
def boundaryBehind (items : List Element) : List Element :=
  if items.isEmpty then [] else [.space]

/-- The small letters of a phrase end with a letter. -/
theorem IsPhrase.small_eq {text : List Char} (phrase : IsPhrase text) :
    ∃ first last, text.flatMap lowerChar = first ++ [last] ∧ isBlank last = false := by
  obtain ⟨before, final, rfl, solid⟩ := phrase.ends
  obtain ⟨first, last, small⟩ := List.eq_nil_or_concat (lowerChar final) |>.resolve_left (lowerChar_ne_nil final)
  rw [List.concat_eq_append] at small
  refine ⟨before.flatMap lowerChar ++ first, last, by simp [small], ?_⟩
  exact not_isBlank_of_mem_lowerChar solid (by simp [small])

end Segment

section Tokens

variable {offset : Nat} {c : Char} {cs rest : List Char}

theorem simpleToken_of_isPlain (plain : Segment.isPlain c = true) : simpleToken c = (.letter c, false) := by
  have other {d : Char} (sign : Segment.isPlain d = false) : c ≠ d := Segment.ne_of_isPlain plain sign
  unfold simpleToken
  split
  · exact absurd rfl (other (by decide))
  · exact absurd rfl (other (by decide))
  · exact absurd rfl (other (by decide))
  · exact absurd rfl (other (by decide))
  · exact absurd rfl (other (by decide))
  · simp [Segment.isBlank_of_isPlain plain]

theorem captureOf?_of_isPlain (plain : Segment.isPlain c = true) : captureOf? c = none := by
  have percent : (c == '%') = false := beq_eq_false_iff_ne.2 (Segment.ne_of_isPlain plain (by decide))
  have less : (c == '<') = false := beq_eq_false_iff_ne.2 (Segment.ne_of_isPlain plain (by decide))
  simp [captureOf?, percent, less]

/-- A character that starts neither an escape nor a capture. -/
theorem tokensFrom_simple (single : c ≠ '\\') (none : captureOf? c = none) :
    tokensFrom offset false (c :: rest) =
      ⟨offset, (simpleToken c).1⟩ :: tokensFrom (offset + c.utf8Size) (simpleToken c).2 rest := by
  rw [tokensFrom]
  · simp [labelAt?, none]
  · exact fun same => absurd same single
  · exact fun _ _ same => absurd same single

theorem tokensFrom_letter (plain : Segment.isPlain c = true) :
    tokensFrom offset false (c :: rest) = ⟨offset, .letter c⟩ :: tokensFrom (offset + c.utf8Size) false rest := by
  rw [tokensFrom_simple (Segment.ne_of_isPlain plain (by decide)) (captureOf?_of_isPlain plain),
    simpleToken_of_isPlain plain]

theorem tokensFrom_space :
    tokensFrom offset false (' ' :: rest) = ⟨offset, .blank⟩ :: tokensFrom (offset + 1) false rest :=
  tokensFrom_simple (by decide) (by decide)

theorem tokensFrom_capture {kind : CaptureKind} {body cs : List Char} (opens : captureOf? c = some kind)
    (ends : takeCapture? kind rest = some (body, cs)) :
    tokensFrom offset false (c :: rest) = ⟨offset, .capture kind body (offset + 2 + byteLength body)⟩ ::
      tokensFrom (offset + 2 + byteLength body) false cs := by
  have single : c ≠ '\\' := by
    rintro rfl
    have none : captureOf? '\\' = none := rfl
    rw [none] at opens
    cases opens
  rw [tokensFrom]
  · simp [labelAt?, opens]
    split
    next none =>
      rw [Option.attach_eq_none_iff.1 none] at ends
      cases ends
    next body' cs' found same =>
      cases found.symm.trans ends
      rfl
  · exact fun same => absurd same single
  · exact fun _ _ same => absurd same single

theorem tokensFrom_slot (n : Int64) :
    tokensFrom offset false ((Segment.integer n).pattern ++ rest) =
      ⟨offset, .capture .placeholder Segment.slotType (offset + 9)⟩ :: tokensFrom (offset + 9) false rest := by
  have ends : takeCapture? .placeholder (Segment.slotType ++ '%' :: rest) = some (Segment.slotType, rest) := by
    simp [Segment.slotType, takeCapture?, takePlaceholder?]
  have shape : (Segment.integer n).pattern ++ rest = '%' :: (Segment.slotType ++ '%' :: rest) := by
    simp [Segment.pattern]
  rw [shape]
  exact tokensFrom_capture rfl ends

theorem tokensFrom_nil : tokensFrom offset false [] = [] := by
  rw [tokensFrom]
  simp [labelAt?]

/-- Where no sign ends a label there is none. -/
theorem takeLabel?_eq_none (plain : ∀ c ∈ cs, c ≠ ':' ∧ c ≠ '¦') : takeLabel? cs = none := by
  unfold takeLabel?
  split
  next c rest behind =>
    have mem : c ∈ cs := (List.dropWhile_sublist isLabelChar).subset (behind ▸ List.mem_cons_self)
    obtain ⟨colon, bar⟩ := plain c mem
    simp [colon, bar]
  next => rfl

theorem tokensFrom_unlabelled (none : takeLabel? cs = none) : tokensFrom offset true cs = tokensFrom offset false cs := by
  rw [tokensFrom.eq_def, tokensFrom.eq_def offset false]
  have unlabelled : labelAt? true cs = Option.none := none
  split
  next label text rest found here => cases found.symm.trans unlabelled
  next => simp [labelAt?]

end Tokens

namespace Branch
open Segment

/-- A branch behind some items, with nothing of its literal read. -/
def behind (items : List Element) : Branch where
  items := items
  space := !items.isEmpty
  nested := false

theorem flush_behind (items : List Element) : (behind items).flush = behind items := rfl

theorem push_behind (items : List Element) (e : Element) :
    (behind items).push e = { items := items ++ boundaryBehind items ++ [e], nested := false } := by
  cases items <;> rfl

/-- A branch whose items are some when it ends here, or when a space follows. Behind a slot nothing of a literal is
read. -/
structure Ends (b : Branch) (items : List Element) (literal : Bool) : Prop where
  finish : b.finish = ({}, .sequence items)
  flush : b.addBlank.flush = behind items
  fresh : literal = false → b.addBlank = behind items

theorem ends_slot (items : List Element) (index : Nat) :
    ((behind items).push (.placeholder index)).Ends (items ++ boundaryBehind items ++ [.placeholder index]) false := by
  have blank : ((behind items).push (.placeholder index)).addBlank =
      behind (items ++ boundaryBehind items ++ [.placeholder index]) := by
    rw [push_behind]
    simp [addBlank, behind]
  refine ⟨?_, ?_, fun _ => blank⟩
  · rw [push_behind]
    simp [Branch.finish, Branch.flush, trimEnd]
  · rw [blank, flush_behind]

/-- A literal that is left without the blank at its end becomes an item. -/
theorem flush_literal {b : Branch} {text : List Char} (trimmed : trimEnd b.literal = text) (some_ : text ≠ []) :
    b.flush =
      { ({ b with literal := [] }).push (.literal text) with space := decide (text.length < b.literal.length) } := by
  unfold flush
  rw [trimmed]
  exact if_neg (by simpa using some_)

theorem ends_phrase {text : List Char} (phrase : IsPhrase text) (items : List Element) :
    Ends { behind items with literal := text.flatMap lowerChar }
      (items ++ boundaryBehind items ++ [.literal (text.flatMap lowerChar)]) true := by
  obtain ⟨first, last, small, solid⟩ := phrase.small_eq
  have other : last ≠ ' ' := by
    rintro rfl
    exact absurd solid (by decide)
  have some_ : first ++ [last] ≠ [] := by simp
  have whole : trimEnd (first ++ [last]) = first ++ [last] := by simp [trimEnd, solid]
  have ended : trimEnd (first ++ [last] ++ [' ']) = first ++ [last] := by
    have blank : isBlank ' ' = true := by decide
    simp [trimEnd, solid, blank]
  rw [small]
  refine ⟨?_, ?_, fun slot => Bool.noConfusion slot⟩
  · have flush := flush_literal (b := { behind items with literal := first ++ [last] }) whole some_
    rw [Branch.finish, flush]
    cases items <;> simp [push, behind, boundaryBehind]
  · have blank : ({ behind items with literal := first ++ [last] } : Branch).addBlank =
        { behind items with literal := first ++ [last] ++ [' '] } := by
      simp [addBlank, other]
    have flush := flush_literal (b := { behind items with literal := first ++ [last] ++ [' '] }) ended some_
    rw [blank, flush]
    cases items <;> simp [push, behind, boundaryBehind]

end Branch

/-- A placeholder takes one value of a type. -/
structure Placeholder.TakesOne (p : Placeholder) (type : TypeId) : Prop where
  types : p.types = [.one type]
  needed : p.nullable = false
  acceptance : p.acceptance = .all
  conditions : p.conditions = false

/-- A reading outside of all groups with only slots for one value of a type so far. -/
structure Reading.IsFlat (r : Reading) (b : Branch) (slots : Nat) (type : TypeId) : Prop where
  opener : r.group.opener = none
  done : r.group.done = []
  branch : r.group.branch = b
  slots : r.placeholders.length = slots
  takes : ∀ p ∈ r.placeholders, p.TakesOne type

theorem Reading.IsFlat.onBranch {r : Reading} {b : Branch} {slots : Nat} {type : TypeId} (flat : r.IsFlat b slots type)
    (blank : Bool) (f : Branch → Branch) : (r.onBranch blank f).IsFlat (f b) slots type :=
  { flat with branch := congrArg f flat.branch }

section Read

variable {resolve : String → Option PatternType} {type : TypeId} {offset slots : Nat} {rest : List Char} {b : Branch}
  {r : Reading}

/-- What is read of the first of some tokens. -/
theorem readAll_next {r' : Reading} {t : Located} {ts : List Located} (step : r.next resolve t = .ok r') :
    readAll resolve r (t :: ts) = readAll resolve r' ts := by
  rw [readAll, step]
  rfl

variable (offset) in
/-- The letters of a phrase are read into the literal. -/
theorem readAll_letters {text : List Char} (flat : r.IsFlat b slots type)
    (plain : ∀ c ∈ text, c = ' ' ∨ Segment.isPlain c = true) (apart : text.IsChain fun a b => a = ' ' → b ≠ ' ')
    (edge : text.head? = some ' ' → b.literal ≠ [] ∧ b.literal.getLast? ≠ some ' ') :
    ∃ r' offset', readAll resolve r (tokensFrom offset false (text ++ rest)) =
        readAll resolve r' (tokensFrom offset' false rest) ∧
      r'.IsFlat { b with literal := b.literal ++ text.flatMap lowerChar } slots type ∧
      r'.lastStop = r.lastStop ∧ offset ≤ offset' := by
  induction text generalizing r b offset with
  | nil =>
    refine ⟨r, offset, rfl, ?_, rfl, Nat.le_refl offset⟩
    rwa [List.flatMap_nil, List.append_nil]
  | cons c text ih =>
    have others : ∀ d ∈ text, d = ' ' ∨ Segment.isPlain d = true := fun d mem => plain d (List.mem_cons_of_mem c mem)
    rw [List.cons_append, List.flatMap_cons, ← List.append_assoc]
    rcases plain c List.mem_cons_self with rfl | letter
    · obtain ⟨nonempty, last⟩ := edge rfl
      have blank : b.addBlank = { b with literal := b.literal ++ [' '] } := by
        simp [Branch.addBlank, nonempty, last]
      have next : text.head? = some ' ' → b.addBlank.literal ≠ [] ∧ b.addBlank.literal.getLast? ≠ some ' ' := by
        intro space
        obtain ⟨more, rfl⟩ := List.head?_eq_some_iff.1 space
        exact absurd rfl ((List.isChain_cons_cons.1 apart).1 rfl)
      obtain ⟨r', offset', read, flat', last, ahead⟩ :=
        ih (offset + 1) (flat.onBranch true Branch.addBlank) others apart.tail next
      rw [blank] at flat'
      refine ⟨r', offset', ?_, flat', last, by omega⟩
      rw [tokensFrom_space, readAll_next rfl, read]
    · have solid := Segment.isBlank_of_isPlain letter
      have next : text.head? = some ' ' → (b.addLetter c).literal ≠ [] ∧
          (b.addLetter c).literal.getLast? ≠ some ' ' := by
        intro _
        refine ⟨fun empty => lowerChar_ne_nil c (List.append_eq_nil_iff.1 empty).2, fun last => ?_⟩
        rw [Branch.addLetter, List.getLast?_append_of_ne_nil _ (lowerChar_ne_nil c)] at last
        exact absurd (not_isBlank_of_mem_lowerChar solid (List.mem_of_getLast? last)) (by decide)
      obtain ⟨r', offset', read, flat', last, ahead⟩ :=
        ih (offset + c.utf8Size) (flat.onBranch false fun b => b.addLetter c) others apart.tail next
      refine ⟨r', offset', ?_, flat', last, by omega⟩
      rw [tokensFrom_letter letter, readAll_next rfl, read]

variable (offset) in
/-- The placeholder of a slot. -/
theorem placeholderOf_slotType (integer : resolve "integer" = some (.one type)) (index : Nat) :
    ∃ p, placeholderOf resolve index offset Segment.slotType = .ok p ∧ p.index = index ∧ p.TakesOne type := by
  have flags : takeFlags {} (trimStart Segment.slotType) = .ok ({}, Segment.slotType) := by decide
  have some_ : isBlankText Segment.slotType = false := by decide
  have names : splitOn (· == '/') Segment.slotType = [Segment.slotType] := by decide
  have trimmed : trim Segment.slotType = Segment.slotType := by decide
  have full : Segment.slotType.isEmpty = false := rfl
  have found : resolve (String.ofList Segment.slotType) = some (.one type) := integer
  have types : typesOf resolve [Segment.slotType] = .ok [.one type] := by
    simp [typesOf, trimmed, full, found]
  refine ⟨{ index, types := [.one type], nullable := false, acceptance := .all, conditions := false, offset,
            text := ['%'] ++ Segment.slotType ++ ['%'] }, ?_, rfl, rfl, rfl, rfl, rfl⟩
  unfold placeholderOf
  simp only [flags, bind, Except.bind, some_, names, types, Bool.false_eq_true, if_false]
  rfl

open Segment in
variable (offset rest) in
/-- **A segment is read** as its element. -/
theorem readAll_segment (integer : resolve "integer" = some (.one type)) {s : Segment} {items : List Element}
    (phrase : ∀ text, s = .word text → IsPhrase text) (flat : r.IsFlat b slots type) (flush : b.flush = .behind items)
    (fresh : s.isWord = true → b = .behind items) (before : ∀ stop, r.lastStop = some stop → stop < offset) :
    ∃ r' b' offset', readAll resolve r (tokensFrom offset false (s.pattern ++ rest)) =
        readAll resolve r' (tokensFrom offset' false rest) ∧
      r'.IsFlat b' (slots + (integersOf [s]).length) type ∧
      b'.Ends (items ++ boundaryBehind items ++ [s.element slots]) s.isWord ∧
      ∀ stop, r'.lastStop = some stop → stop ≤ offset' := by
  cases s with
  | word text =>
    have phrase := phrase text rfl
    have start : b = .behind items := fresh rfl
    subst start
    have edge : text.head? = some ' ' → (Branch.behind items).literal ≠ [] ∧
        (Branch.behind items).literal.getLast? ≠ some ' ' := by
      intro space
      obtain ⟨c, more, rfl, solid⟩ := phrase.starts
      cases space
      exact absurd solid (by decide)
    obtain ⟨r', offset', read, flat', last, ahead⟩ := readAll_letters offset flat phrase.plain phrase.apart edge
    refine ⟨r', _, offset', read, flat', Branch.ends_phrase phrase items, fun stop same => ?_⟩
    have := before stop (last ▸ same)
    omega
  | integer n =>
    obtain ⟨p, found, index, one⟩ := placeholderOf_slotType offset integer r.placeholders.length
    have free : (r.lastStop == some offset) = false := by
      rw [beq_eq_false_iff_ne]
      intro same
      exact absurd (before offset same) (Nat.lt_irrefl offset)
    let r' := { r with lastStop := some (offset + 9), placeholders := r.placeholders ++ [p] }.onBranch false fun b =>
      b.flush.push (.placeholder p.index)
    have next : r.next resolve ⟨offset, .capture .placeholder Segment.slotType (offset + 9)⟩ =
        .ok r' := by
      show r.addCapture resolve offset .placeholder _ _ = _
      simp only [Reading.addCapture, free, found, Bool.false_eq_true, if_false]
      rfl
    have read : readAll resolve r (tokensFrom offset false ((Segment.integer n).pattern ++ rest)) =
        readAll resolve r' (tokensFrom (offset + 9) false rest) := by
      rw [tokensFrom_slot, readAll_next next]
    refine ⟨r', _, offset + 9, read, ⟨flat.opener, flat.done, 
      congrArg (fun b : Branch => b.flush.push (.placeholder p.index)) flat.branch, ?_, fun q mem => ?_⟩, ?_, ?_⟩
    · show (r.placeholders ++ [p]).length = _
      rw [List.length_append, flat.slots]
      rfl
    · rcases List.mem_append.1 mem with mem | mem
      · exact flat.takes q mem
      · cases List.mem_singleton.1 mem
        exact one
    · rw [flush, index, flat.slots]
      exact Branch.ends_slot items slots
    · rintro stop same
      cases same
      exact Nat.le_refl _

open Segment in
variable (offset) in
/-- **The segments of a pattern are read** as their elements, with boundaries between them. -/
theorem readAll_segments (integer : resolve "integer" = some (.one type)) {segments : List Segment}
    {items : List Element} (some_ : segments ≠ []) (merged : Merged segments) (flat : r.IsFlat b slots type)
    (flush : b.flush = .behind items) (fresh : ∀ s ∈ segments.head?, s.isWord = true → b = .behind items)
    (before : ∀ stop, r.lastStop = some stop → stop < offset) :
    ∃ r' b', readAll resolve r (tokensFrom offset false (patternOf segments)) = .ok r' ∧
      r'.IsFlat b' (slots + (integersOf segments).length) type ∧
      b'.finish = ({}, .sequence (items ++ boundaryBehind items ++ elements slots segments)) := by
  induction segments generalizing r b slots offset items with
  | nil => exact absurd rfl some_
  | cons s rest ih =>
    have phrase : ∀ text, s = .word text → IsPhrase text := by
      rintro text rfl
      exact merged.phrases text List.mem_cons_self
    cases rest with
    | nil =>
      obtain ⟨r', b', offset', read, flat', ends, -⟩ := readAll_segment offset [] integer phrase flat
        flush (fresh s rfl) before
      refine ⟨r', b', ?_, flat', ends.finish⟩
      show readAll resolve r (tokensFrom offset false s.pattern) = _
      rw [List.append_nil, tokensFrom_nil] at read
      exact read
    | cons t rest =>
      obtain ⟨r', b', offset', read, flat', ends, last⟩ := readAll_segment offset (' ' :: patternOf (t :: rest))
        integer phrase flat flush (fresh s rfl) before
      have apart : t.isWord = true → b'.addBlank = .behind (items ++ boundaryBehind items ++ [s.element slots]) := by
        intro isWord
        apply ends.fresh
        have other := (List.isChain_cons_cons.1 merged.apart).1
        grind
      obtain ⟨r'', b'', read', flat'', finish⟩ := ih (offset' + 1) (List.cons_ne_nil t rest) merged.tail
        (flat'.onBranch true Branch.addBlank) ends.flush (fun u first => by cases first; exact apart)
        fun stop same => Nat.lt_succ_of_le (last stop same)
      refine ⟨r'', b'', ?_, ?_, ?_⟩
      · have shape : patternOf (s :: t :: rest) = s.pattern ++ ' ' :: patternOf (t :: rest) := by
          simp [patternOf, join]
        rw [shape, read, tokensFrom_space, readAll_next rfl, read']
      · have count : (integersOf (s :: t :: rest)).length =
            (integersOf [s]).length + (integersOf (t :: rest)).length := by
          rw [integersOf_cons, List.length_append]
        rw [count, ← Nat.add_assoc]
        exact flat''
      · rw [finish]
        simp [boundaryBehind, elements]

end Read

open Segment in
/-- **A pattern of words and slots compiles** to the elements of its segments. -/
theorem compile_segments {resolve : String → Option PatternType} {type : TypeId}
    (integer : resolve "integer" = some (.one type)) {segments : List Segment} (some_ : segments ≠ [])
    (merged : Merged segments) :
    ∃ p, Pattern.compile resolve (String.ofList (patternOf segments)) = .ok p ∧
      p.root = .sequence (elements 0 segments) ∧ p.placeholders.length = (integersOf segments).length ∧
      ∀ q ∈ p.placeholders, q.TakesOne type := by
  have flat : Reading.start.IsFlat (.behind []) 0 type := ⟨rfl, rfl, rfl, rfl, nofun⟩
  obtain ⟨r, b, read, flat', finish⟩ := readAll_segments 0 integer some_ merged flat rfl
    (fun _ _ _ => rfl) nofun
  have tokens : tokens (String.ofList (patternOf segments)) = tokensFrom 0 false (patternOf segments) := by
    rw [tokens, String.toList_ofList]
    exact tokensFrom_unlabelled (takeLabel?_eq_none fun c mem => no_label merged mem)
  have finish : r.finish = .ok (.sequence (elements 0 segments)) := by
    have branches : r.group.branches = [({}, .sequence (elements 0 segments))] := by
      rw [Group.branches, flat'.done, flat'.branch, finish]
      rfl
    have root : Element.ofBranches r.group.branches = .sequence (elements 0 segments) := by
      rw [branches]
      rfl
    obtain ⟨e, es, shape⟩ := List.exists_cons_of_ne_nil (elements_ne_nil some_ 0)
    rw [shape] at root ⊢
    simp only [Reading.finish, flat'.opener, root]
  exact ⟨_, compile_of_reads (by rw [tokens, read]) finish, rfl, flat'.slots.trans (Nat.zero_add _), flat'.takes⟩

end Phrasebook.Pattern
