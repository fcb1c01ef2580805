import Mathlib.Data.List.Chain
import Mathlib.Data.List.TakeWhile
import Phrasebook.Proofs.Text.Edges
import Phrasebook.Proofs.Text.LetterCase
import Phrasebook.Proofs.Text.Trim

/-!
# Texts that differ in layout and letter case

Two texts hold the same words up to letter case, and are laid out differently: blanks stand around them, and
several of any kind between two words. `SameText` says so of what is left of two texts; it is kept by every step
of reading that skips blanks or takes a letter, and `matchFrom_corresponds` says that a literal is found in both
or in none.
-/

namespace Phrasebook.Text

/-- The small form of a blank is the blank. -/
theorem lowerChar_of_isBlank {c : Char} (blank : isBlank c = true) : lowerChar c = [c] := by
  rcases lowerChar_eq c with own | ⟨word, -⟩
  · exact own
  · rw [not_isWordChar_of_isBlank blank] at word
    cases word

/-- What is the same up to letter case is a blank or none together. -/
theorem isBlank_eq_of_lowerChar_eq {a b : Char} (same : lowerChar a = lowerChar b) : isBlank a = isBlank b := by
  have one {a b : Char} (same : lowerChar a = lowerChar b) (blank : isBlank a = true) : isBlank b = true := by
    have other := not_isWordChar_of_sameLetter (sameLetter_iff.2 same.symm) (not_isWordChar_of_isBlank blank)
    rcases lowerChar_eq b with own | ⟨word, -⟩
    · rw [lowerChar_of_isBlank blank, own] at same
      cases same
      exact blank
    · rw [other] at word
      cases word
  rw [Bool.eq_iff_iff]
  exact ⟨one same, one same.symm⟩

/-- What is the same up to letter case makes up words or makes up none together. -/
theorem isWordChar_eq_of_lowerChar_eq {a b : Char} (same : lowerChar a = lowerChar b) :
    isWordChar a = isWordChar b := by
  cases word : isWordChar b with
  | false => exact not_isWordChar_of_sameLetter (sameLetter_iff.2 same) word
  | true =>
    cases word' : isWordChar a with
    | true => rfl
    | false =>
      rw [not_isWordChar_of_sameLetter (sameLetter_iff.2 same.symm) word'] at word
      cases word

/-- The small form of what is no blank holds no blank. -/
theorem not_isBlank_of_mem_lowerChar {c d : Char} (solid : isBlank c = false) (mem : d ∈ lowerChar c) :
    isBlank d = false := by
  by_cases dotted : c = '\u0130'
  · subst dotted
    have small : lowerChar '\u0130' = ['i', '\u0307'] := by decide
    rw [small] at mem
    simp only [List.mem_cons, List.not_mem_nil, or_false] at mem
    rcases mem with rfl | rfl <;> decide
  · obtain ⟨e, small⟩ := lowerChar_eq_singleton dotted
    rw [small, List.mem_singleton] at mem
    subst mem
    have own : lowerChar d = [d] := lowerChar_of_mem (small ▸ List.mem_singleton_self d)
    rw [← isBlank_eq_of_lowerChar_eq (small.trans own.symm)]
    exact solid

section Words

variable {c d : Char} {text : List Char}

theorem splitOn_isBlank_cons (solid : isBlank c = false) (text : List Char) :
    ∃ piece pieces, splitOn isBlank text = piece :: pieces ∧
      splitOn isBlank (c :: text) = (c :: piece) :: pieces := by
  cases split : splitOn isBlank text with
  | nil => exact absurd split (splitOn_ne_nil _ _)
  | cons piece pieces => exact ⟨piece, pieces, rfl, by simp [splitOn, solid, split]⟩

@[simp] theorem words_nil : words [] = [] := rfl

/-- A blank in front of a text is part of no word. -/
theorem words_blank (blank : isBlank c = true) (text : List Char) : words (c :: text) = words text := by
  simp [words, splitOn, blank]

/-- A letter in front of a blank, or at the end, is a word of its own. -/
theorem words_single (solid : isBlank c = false) (edge : ∀ d ∈ text.head?, isBlank d = true) :
    words (c :: text) = [c] :: words text := by
  cases text with
  | nil => simp [words, splitOn, solid]
  | cons d text =>
    have blank : isBlank d = true := edge d rfl
    simp [words, splitOn, solid, blank]

/-- A letter in front of another one belongs to its word. -/
theorem words_longer (solid : isBlank c = false) (solid' : isBlank d = false) (text : List Char) :
    ∃ word others, words (d :: text) = word :: others ∧ word ≠ [] ∧
      words (c :: d :: text) = (c :: word) :: others := by
  obtain ⟨piece, pieces, -, split⟩ := splitOn_isBlank_cons solid' text
  refine ⟨d :: piece, pieces.filter fun w => !w.isEmpty, ?_, nofun, ?_⟩
  · simp [words, split]
  · rw [words, splitOn]
    simp [solid, split]

/-- The words of a text that starts with a letter: the first one starts with it too. -/
theorem words_solid (solid : isBlank c = false) (text : List Char) :
    ∃ word others, words (c :: text) = (c :: word) :: others := by
  obtain ⟨piece, pieces, -, split⟩ := splitOn_isBlank_cons solid text
  exact ⟨piece, pieces.filter fun w => !w.isEmpty, by simp [words, split]⟩

/-- A text of blanks holds no word. -/
theorem words_eq_nil_iff : words text = [] ↔ ∀ c ∈ text, isBlank c = true := by
  induction text with
  | nil => simp
  | cons c text ih =>
    cases blank : isBlank c with
    | true => simp [words_blank blank, ih, blank]
    | false =>
      obtain ⟨word, others, split⟩ := words_solid blank text
      simp [split, blank]

/-- The blanks in front of a text are part of no word. -/
theorem words_dropWhile (text : List Char) : words (text.dropWhile isBlank) = words text := by
  induction text with
  | nil => rfl
  | cons c text ih =>
    cases blank : isBlank c with
    | true => rw [List.dropWhile_cons_of_pos blank, words_blank blank, ih]
    | false => rw [List.dropWhile_cons_of_neg (by simp [blank])]

/-- A change of letters that takes none for a blank changes the words letter by letter. -/
theorem words_map {f : Char → Char} (keeps : ∀ c, isBlank (f c) = isBlank c) (text : List Char) :
    words (text.map f) = (words text).map (List.map f) := by
  induction text with
  | nil => rfl
  | cons c text ih =>
    cases blank : isBlank c with
    | true => rw [List.map_cons, words_blank ((keeps c).trans blank), words_blank blank, ih]
    | false =>
      have blank' := (keeps c).trans blank
      cases text with
      | nil => rw [List.map_cons, words_single blank' (by simp), words_single blank (by simp)]; rfl
      | cons d text =>
        cases other : isBlank d with
        | true =>
          have edge : ∀ e ∈ (d :: text).head?, isBlank e = true := by simp [other]
          have edge' : ∀ e ∈ ((d :: text).map f).head?, isBlank e = true := by simp [keeps, other]
          rw [List.map_cons, words_single blank' edge', words_single blank edge, ih]
          rfl
        | false =>
          obtain ⟨word, others, split, -, longer⟩ := words_longer blank other text
          obtain ⟨word', others', split', -, longer'⟩ :=
            words_longer blank' ((keeps d).trans other) (text.map f)
          rw [List.map_cons, split', split, List.map_cons, List.cons.injEq] at ih
          rw [List.map_cons, List.map_cons, longer', longer, List.map_cons, List.map_cons, ih.1, ih.2]

/-- The words hold no blank, and none of them is empty. -/
theorem solid_of_mem_words {word : List Char} (mem : word ∈ words text) :
    word ≠ [] ∧ ∀ c ∈ word, isBlank c = false := by
  induction text generalizing word with
  | nil => cases mem
  | cons c text ih =>
    cases blank : isBlank c with
    | true =>
      rw [words_blank blank] at mem
      exact ih mem
    | false =>
      cases text with
      | nil =>
        rw [words_single blank (by simp)] at mem
        obtain rfl : word = [c] := by simpa using mem
        exact ⟨nofun, by simpa using blank⟩
      | cons d text =>
        cases other : isBlank d with
        | true =>
          rw [words_single blank (by simp [other])] at mem
          rcases List.mem_cons.1 mem with rfl | mem
          · exact ⟨nofun, by simpa using blank⟩
          · exact ih mem
        | false =>
          obtain ⟨first, others, split, -, longer⟩ := words_longer blank other text
          rw [longer] at mem
          rcases List.mem_cons.1 mem with rfl | mem
          · refine ⟨nofun, fun e inside => ?_⟩
            rcases List.mem_cons.1 inside with rfl | inside
            · exact blank
            · exact (ih (split ▸ List.mem_cons_self)).2 e inside
          · exact ih (split ▸ List.mem_cons_of_mem _ mem)

/-- A word in front of a blank, or at the end. -/
theorem words_append {word : List Char} (some : word ≠ []) (solid : ∀ c ∈ word, isBlank c = false)
    (edge : ∀ d ∈ text.head?, isBlank d = true) : words (word ++ text) = word :: words text := by
  induction word with
  | nil => exact absurd rfl some
  | cons c word ih =>
    have here := solid c List.mem_cons_self
    cases word with
    | nil => exact words_single here edge
    | cons d word =>
      have whole := ih nofun fun e mem => solid e (List.mem_cons_of_mem c mem)
      obtain ⟨first, others, split, -, longer⟩ := words_longer here (solid d (by simp)) (word ++ text)
      rw [List.cons_append] at whole
      rw [whole, List.cons.injEq] at split
      rw [List.cons_append, List.cons_append, longer, split.1, split.2]

/-- What stands in a text that was put together of words. -/
theorem mem_join {ws : List (List Char)} (mem : c ∈ join [' '] ws) : c = ' ' ∨ ∃ w ∈ ws, c ∈ w := by
  induction ws with
  | nil => cases mem
  | cons w ws ih =>
    cases ws with
    | nil => exact .inr ⟨w, List.mem_cons_self, mem⟩
    | cons v ws =>
      have mem : c ∈ w ++ [' '] ++ join [' '] (v :: ws) := mem
      rw [List.mem_append, List.mem_append, List.mem_singleton] at mem
      rcases mem with (mem | mem) | mem
      · exact .inr ⟨w, List.mem_cons_self, mem⟩
      · exact .inl mem
      · exact (ih mem).imp id fun ⟨u, among, mem⟩ => ⟨u, List.mem_cons_of_mem w among, mem⟩

/-- The words of a text that was put together of words are those words. -/
theorem words_join {ws : List (List Char)} (solid : ∀ w ∈ ws, w ≠ [] ∧ ∀ c ∈ w, isBlank c = false) :
    words (join [' '] ws) = ws := by
  induction ws with
  | nil => rfl
  | cons w ws ih =>
    obtain ⟨some, letters⟩ := solid w List.mem_cons_self
    have others := ih fun v mem => solid v (List.mem_cons_of_mem w mem)
    cases ws with
    | nil =>
      have alone : words (w ++ []) = [w] := words_append some letters nofun
      rwa [List.append_nil] at alone
    | cons v ws =>
      have space : isBlank ' ' = true := by decide
      show words (w ++ [' '] ++ join [' '] (v :: ws)) = _
      rw [List.append_assoc, words_append some letters (by simp [space])]
      show w :: words (' ' :: join [' '] (v :: ws)) = _
      rw [words_blank space, others]

/-- The space that stands for the blanks in front of a text. -/
def leadingSpace (text : List Char) : List Char :=
  if text.head?.any isBlank then [' '] else []

/-- What takes every blank for a space and does not tell two spaces from one goes through a text as through its
words with single spaces between them, and one space in front of and behind them if there were blanks. -/
theorem foldl_words {σ : Type} {f : σ → Char → σ} (space : ∀ s c, isBlank c = true → f s c = f s ' ')
    (twice : ∀ s, f (f s ' ') ' ' = f s ' ') (text : List Char) :
    ∃ trail, (trail = [] ∨ trail = [' ']) ∧
      ∀ s, text.foldl f s = (leadingSpace text ++ join [' '] (words text) ++ trail).foldl f s := by
  induction text with
  | nil => exact ⟨[], .inl rfl, fun _ => rfl⟩
  | cons c text ih =>
    obtain ⟨trail, few, same⟩ := ih
    cases blank : isBlank c with
    | true =>
      refine ⟨trail, few, fun s => ?_⟩
      rw [List.foldl_cons, space s c blank, same, words_blank blank]
      by_cases lead : text.head?.any isBlank = true <;> simp [leadingSpace, lead, blank, twice]
    | false =>
      have first : leadingSpace (c :: text) = [] := by simp [leadingSpace, blank]
      cases text with
      | nil =>
        have one : words [c] = [[c]] := words_single blank nofun
        exact ⟨[], .inl rfl, fun s => by simp [first, one, join]⟩
      | cons d text =>
        cases other : isBlank d with
        | true =>
          have lead : leadingSpace (d :: text) = [' '] := by simp [leadingSpace, other]
          rw [words_single blank (by simp [other])]
          cases behind : words (d :: text) with
          | nil =>
            refine ⟨[' '], .inr rfl, fun s => ?_⟩
            rw [List.foldl_cons, same, first, lead, behind]
            rcases few with rfl | rfl <;> simp [join, twice]
          | cons word others =>
            refine ⟨trail, few, fun s => ?_⟩
            rw [List.foldl_cons, same, first, lead, behind]
            simp [join]
        | false =>
          have lead : leadingSpace (d :: text) = [] := by simp [leadingSpace, other]
          obtain ⟨word, others, split, -, longer⟩ := words_longer blank other text
          refine ⟨trail, few, fun s => ?_⟩
          rw [List.foldl_cons, same, first, lead, longer, split]
          cases others <;> rfl

/-- A text in small letters of ASCII whose words stand one space apart. -/
def normalizeAscii (text : List Char) : List Char :=
  join [' '] (words (text.map lowerAscii))

/-- Texts that differ in the letter case of ASCII and in layout hold the same words up to letter case. -/
theorem words_of_normalizeAscii {text' : List Char} (same : normalizeAscii text = normalizeAscii text') :
    (words text).map (List.map lowerChar) = (words text').map (List.map lowerChar) := by
  have small (text : List Char) :
      (words (normalizeAscii text)).map (List.map lowerChar) = (words text).map (List.map lowerChar) := by
    rw [normalizeAscii, words_join fun w mem => solid_of_mem_words mem,
      words_map fun c => isBlank_eq_of_lowerChar_eq (lowerChar_lowerAscii c), List.map_map]
    refine List.map_congr_left fun word _ => ?_
    simp only [Function.comp_apply, List.map_map]
    exact List.map_congr_left fun c _ => lowerChar_lowerAscii c
  rw [← small text, ← small text', same]

/-- What is left without the blanks in front starts with a letter. -/
theorem not_isBlank_of_mem_head?_dropWhile (mem : d ∈ (text.dropWhile isBlank).head?) : isBlank d = false := by
  have first := List.head?_dropWhile_not isBlank text
  rw [Option.mem_def.1 mem] at first
  simpa using first

/-- Texts that start with a letter and hold the same words go on with the same words, and the first word ends in
both or in none. -/
theorem words_cons_same {c' : Char} {text' : List Char} (solid : isBlank c = false) (solid' : isBlank c' = false)
    (same : (words (c :: text)).map (List.map lowerChar) = (words (c' :: text')).map (List.map lowerChar)) :
    lowerChar c = lowerChar c' ∧ (words text).map (List.map lowerChar) = (words text').map (List.map lowerChar) ∧
      ∀ d ∈ text.head?, ∀ d' ∈ text'.head?, isBlank d = isBlank d' := by
  have next (text : List Char) : (∀ d ∈ text.head?, isBlank d = true) ∨
      ∃ d more, text = d :: more ∧ isBlank d = false := by
    cases text with
    | nil => exact .inl nofun
    | cons d more =>
      cases blank : isBlank d with
      | true => exact .inl fun e mem => by cases mem; exact blank
      | false => exact .inr ⟨d, more, rfl, blank⟩
  rcases next text with edge | ⟨d, more, rfl, solidNext⟩ <;>
    rcases next text' with edge' | ⟨d', more', rfl, solidNext'⟩
  · rw [words_single solid edge, words_single solid' edge'] at same
    simp only [List.map_cons, List.cons.injEq, List.map_nil, and_true] at same
    exact ⟨same.1, same.2, fun d mem d' mem' => by rw [edge d mem, edge' d' mem']⟩
  · obtain ⟨word, others, -, long, longer⟩ := words_longer solid' solidNext' more'
    rw [words_single solid edge, longer] at same
    simp only [List.map_cons, List.cons.injEq, List.map_nil, List.nil_eq, List.map_eq_nil_iff] at same
    exact absurd same.1.2 long
  · obtain ⟨word, others, -, long, longer⟩ := words_longer solid solidNext more
    rw [words_single solid' edge', longer] at same
    simp only [List.map_cons, List.cons.injEq, List.map_nil, List.map_eq_nil_iff] at same
    exact absurd same.1.2 long
  · obtain ⟨word, others, split, -, longer⟩ := words_longer solid solidNext more
    obtain ⟨word', others', split', -, longer'⟩ := words_longer solid' solidNext' more'
    rw [longer, longer'] at same
    simp only [List.map_cons, List.cons.injEq] at same
    refine ⟨same.1.1, by rw [split, split', List.map_cons, List.map_cons, same.1.2, same.2], ?_⟩
    rintro e ⟨⟩ e' ⟨⟩
    rw [solidNext, solidNext']

end Words

/-- What is left of two texts that hold the same up to letter case and layout. Blanks stand in front of both or
of none, unless there is nothing else. -/
inductive SameText : List Char → List Char → Prop where
  | ended {text text' : List Char} (blank : ∀ c ∈ text, isBlank c = true)
    (blank' : ∀ c ∈ text', isBlank c = true) : SameText text text'
  | letter {c c' : Char} {text text' : List Char} (solid : isBlank c = false)
    (same : lowerChar c = lowerChar c') (rest : SameText text text') : SameText (c :: text) (c' :: text')
  | gap {b b' : Char} {text text' : List Char} (blank : isBlank b = true) (blank' : isBlank b' = true)
    (rest : SameText (text.dropWhile isBlank) (text'.dropWhile isBlank)) : SameText (b :: text) (b' :: text')

namespace SameText

/-- Texts with the same words are the same, if blanks stand in front of both or of none. -/
theorem of_words {text text' : List Char}
    (same : (words text).map (List.map lowerChar) = (words text').map (List.map lowerChar))
    (edge : ∀ c ∈ text.head?, ∀ c' ∈ text'.head?, isBlank c = isBlank c') : SameText text text' := by
  by_cases none : words text = []
  · have none' : words text' = [] := by
      rwa [none, List.map_nil, eq_comm, List.map_eq_nil_iff] at same
    exact .ended (words_eq_nil_iff.1 none) (words_eq_nil_iff.1 none')
  match text, text' with
  | [], _ => exact absurd words_nil none
  | c :: text, [] =>
    rw [words_nil, List.map_nil, List.map_eq_nil_iff] at same
    exact absurd same none
  | c :: text, c' :: text' =>
    have both : isBlank c = isBlank c' := edge c rfl c' rfl
    cases blank : isBlank c with
    | true =>
      rw [blank] at both
      rw [words_blank blank, words_blank both.symm, ← words_dropWhile text, ← words_dropWhile text'] at same
      have shorter := (List.dropWhile_sublist isBlank (l := text)).length_le
      refine .gap blank both.symm (of_words same fun d mem d' mem' => ?_)
      rw [not_isBlank_of_mem_head?_dropWhile mem, not_isBlank_of_mem_head?_dropWhile mem']
    | false =>
      rw [blank] at both
      obtain ⟨first, rest, aligned⟩ := words_cons_same blank both.symm same
      exact .letter blank first (of_words rest aligned)
termination_by text.length

end SameText

/-- A text that has no blank but the space, and no two spaces in a row. -/
structure SingleSpaced (text : List Char) : Prop where
  solid : ∀ c ∈ text, isBlank c = true → c = ' '
  apart : text.IsChain fun a b => a = ' ' → b ≠ ' '

namespace SingleSpaced

variable {text : List Char}

theorem nil : SingleSpaced [] :=
  ⟨nofun, .nil⟩

theorem of_prefix {part : List Char} (h : SingleSpaced text) (starts : part <+: text) : SingleSpaced part :=
  ⟨fun c mem => h.solid c (starts.subset mem), h.apart.prefix starts⟩

/-- Characters that are no blanks may stand behind anything. -/
theorem append_solid {more : List Char} (h : SingleSpaced text) (solid : ∀ c ∈ more, isBlank c = false) :
    SingleSpaced (text ++ more) := by
  have letter {c : Char} (mem : c ∈ more) : c ≠ ' ' := by
    rintro rfl
    exact absurd (solid _ mem) (by decide)
  refine ⟨fun c mem blank => ?_, List.isChain_append.2 ⟨h.apart, ?_, ?_⟩⟩
  · rcases List.mem_append.1 mem with mem | mem
    · exact h.solid c mem blank
    · rw [solid c mem] at blank
      cases blank
  · exact List.Pairwise.isChain (List.pairwise_of_forall_mem_list fun _ _ _ mem _ => letter mem)
  · intro _ _ _ first _
    exact letter (List.mem_of_mem_head? first)

/-- A space may stand behind what ends with none. -/
theorem append_space (h : SingleSpaced text) (last : text.getLast? ≠ some ' ') : SingleSpaced (text ++ [' ']) := by
  refine ⟨fun c mem blank => ?_, List.isChain_append.2 ⟨h.apart, .singleton _, ?_⟩⟩
  · rcases List.mem_append.1 mem with mem | mem
    · exact h.solid c mem blank
    · exact List.mem_singleton.1 mem
  · rintro c final - - rfl
    exact absurd final last

end SingleSpaced

/-- A text of words with single spaces between them, from some place within it on: there is no space at the end
either. -/
structure Spaced (text : List Char) : Prop extends SingleSpaced text where
  last : text.getLast? ≠ some ' '

/-- Without the blanks at its end a text does not end with a space. -/
theorem SingleSpaced.trimEnd {text : List Char} (h : SingleSpaced text) : Spaced (trimEnd text) := by
  have starts : Text.trimEnd text <+: text := by
    have ends := List.reverse_prefix.2 (List.dropWhile_suffix (l := text.reverse) isBlank)
    rwa [List.reverse_reverse] at ends
  refine ⟨h.of_prefix starts, fun last => ?_⟩
  rw [Text.trimEnd, List.getLast?_reverse] at last
  have solid := List.head?_dropWhile_not isBlank text.reverse
  rw [last] at solid
  exact absurd solid (by decide)

theorem Spaced.tail {c : Char} {text : List Char} (spaced : Spaced (c :: text)) : Spaced text := by
  refine ⟨⟨fun d mem => spaced.solid d (List.mem_cons_of_mem c mem), spaced.apart.tail⟩, fun last => ?_⟩
  cases text with
  | nil => cases last
  | cons d text => exact spaced.last (by rwa [List.getLast?_cons_cons])

/-- A letter stands behind every space. -/
theorem Spaced.letter {text : List Char} (spaced : Spaced (' ' :: text)) :
    ∃ c more, text = c :: more ∧ c ≠ ' ' ∧ isBlank c = false := by
  cases text with
  | nil => exact absurd rfl spaced.last
  | cons c more =>
    have other : c ≠ ' ' := (List.isChain_cons_cons.1 spaced.apart).1 rfl
    refine ⟨c, more, rfl, other, ?_⟩
    cases blank : isBlank c with
    | false => rfl
    | true => exact absurd (spaced.solid c (by simp) blank) other

namespace Line

variable {l l' : Line} {i i' : Nat}

/-- What stands from a position on. -/
def rest (l : Line) (i : Nat) : List Char :=
  l.chars.toList.drop i

theorem getElem?_eq_head?_rest (l : Line) (i : Nat) : l.chars[i]? = (l.rest i).head? := by
  rw [rest, List.head?_drop, Array.getElem?_toList]

theorem rest_succ {c : Char} {text : List Char} (h : l.rest i = c :: text) : l.rest (i + 1) = text := by
  rw [rest, ← List.drop_drop]
  show (l.rest i).drop 1 = text
  rw [h]
  rfl

/-- Skipping blanks leaves what stands behind them. -/
theorem rest_skipBlanks (l : Line) (i : Nat) : l.rest (l.skipBlanks i) = (l.rest i).dropWhile isBlank := by
  fun_induction skipBlanks l i with
  | case1 i inside blank ih =>
    have here : l.rest i = l.chars[i] :: l.rest (i + 1) := by
      rw [rest, rest, ← Array.getElem_toList, ← List.drop_eq_getElem_cons]
    rw [ih, here, List.dropWhile_cons_of_pos blank]
  | case2 i inside solid =>
    have here : l.rest i = l.chars[i] :: l.rest (i + 1) := by
      rw [rest, rest, ← Array.getElem_toList, ← List.drop_eq_getElem_cons]
    rw [here, List.dropWhile_cons_of_neg solid]
  | case3 i outside =>
    have nothing : l.rest i = [] := by simpa [rest] using outside
    rw [nothing]
    rfl

/-- Nothing is left from a position on if and only if it is the end. -/
theorem rest_eq_nil_iff : l.rest i = [] ↔ l.size ≤ i := by
  simp [rest, size]

theorem skipBlanks_of_solid {c : Char} {text : List Char} (h : l.rest i = c :: text) (solid : isBlank c = false) :
    l.skipBlanks i = i := by
  refine skipBlanks_of_not_blankAt ?_
  simp [BlankAt, getElem?_eq_head?_rest, h, solid]

theorem lt_skipBlanks_of_blank {c : Char} {text : List Char} (h : l.rest i = c :: text) (blank : isBlank c = true) :
    i < l.skipBlanks i := by
  have ahead := l.le_skipBlanks i
  rcases Nat.eq_or_lt_of_le ahead with same | less
  · have stays := l.not_blankAt_skipBlanks i
    rw [← same, BlankAt, getElem?_eq_head?_rest, h] at stays
    exact absurd (by simpa using blank) stays
  · exact less

/-- A position at which blanks were skipped is a boundary. -/
theorem isBoundary_of_lt_skipBlanks (less : i < l.skipBlanks i) : l.isBoundary (l.skipBlanks i) = true := by
  obtain ⟨k, same⟩ : ∃ k, l.skipBlanks i = k + 1 := ⟨l.skipBlanks i - 1, by omega⟩
  rw [same]
  exact isBoundary_succ (blankAt_of_lt_skipBlanks (i := i) (by omega) (by omega))

/-- A position behind which nothing is left is a boundary. -/
theorem isBoundary_of_rest_nil (h : l.rest i = []) : l.isBoundary i = true := by
  simp [isBoundary, wordAfter, getElem?_eq_head?_rest, h]

/-- Positions of two lines behind which the same stands up to letter case and layout, and which a word may run
across or not alike, once blanks are skipped. -/
structure Corresponds (l l' : Line) (i i' : Nat) : Prop where
  text : SameText (l.rest i) (l'.rest i')
  boundary : l.isBoundary (l.skipBlanks i) = l'.isBoundary (l'.skipBlanks i')

/-- The starts of lines with the same words correspond. -/
theorem corresponds_zero
    (same : (words (l.rest 0)).map (List.map lowerChar) = (words (l'.rest 0)).map (List.map lowerChar)) :
    l.Corresponds l' (l.skipBlanks 0) (l'.skipBlanks 0) := by
  have first (l : Line) : l.isBoundary (l.skipBlanks 0) = true := by
    rcases Nat.eq_or_lt_of_le (Nat.zero_le (l.skipBlanks 0)) with none | some
    · rw [← none]
      rfl
    · exact isBoundary_of_lt_skipBlanks some
  refine ⟨?_, by rw [skipBlanks_skipBlanks, skipBlanks_skipBlanks, first, first]⟩
  rw [rest_skipBlanks, rest_skipBlanks]
  rw [← words_dropWhile (l.rest 0), ← words_dropWhile (l'.rest 0)] at same
  exact .of_words same fun d mem d' mem' => by
    rw [not_isBlank_of_mem_head?_dropWhile mem, not_isBlank_of_mem_head?_dropWhile mem']

namespace Corresponds

theorem skip (h : l.Corresponds l' i i') : l.Corresponds l' (l.skipBlanks i) (l'.skipBlanks i') := by
  refine ⟨?_, by rw [skipBlanks_skipBlanks, skipBlanks_skipBlanks, h.boundary]⟩
  rw [rest_skipBlanks, rest_skipBlanks]
  have text := h.text
  generalize l.rest i = left at text
  generalize l'.rest i' = left' at text
  cases text with
  | ended blank blank' =>
    rw [List.dropWhile_eq_nil_iff.2 blank, List.dropWhile_eq_nil_iff.2 blank']
    exact .ended nofun nofun
  | letter solid same rest =>
    have solid' := (isBlank_eq_of_lowerChar_eq same).symm.trans solid
    rw [List.dropWhile_cons_of_neg (by simp [solid]), List.dropWhile_cons_of_neg (by simp [solid'])]
    exact .letter solid same rest
  | gap blank blank' rest =>
    rw [List.dropWhile_cons_of_pos blank, List.dropWhile_cons_of_pos blank']
    exact rest

/-- Nothing but blanks is left in one line if and only if nothing else is left in the other. -/
theorem size_le_iff (h : l.Corresponds l' i i') :
    l.size ≤ l.skipBlanks i ↔ l'.size ≤ l'.skipBlanks i' := by
  rw [← rest_eq_nil_iff, ← rest_eq_nil_iff]
  have text := h.skip.text
  have edge : ∀ {l : Line} {i : Nat}, ∀ d ∈ (l.rest (l.skipBlanks i)).head?, isBlank d = false := by
    intro l i d mem
    rw [rest_skipBlanks] at mem
    exact not_isBlank_of_mem_head?_dropWhile mem
  have solid := edge (l := l) (i := i)
  have solid' := edge (l := l') (i := i')
  generalize l.rest (l.skipBlanks i) = left at text solid
  generalize l'.rest (l'.skipBlanks i') = left' at text solid'
  cases text with
  | ended blank blank' =>
    have nothing {text : List Char} (blank : ∀ c ∈ text, isBlank c = true)
        (solid : ∀ d ∈ text.head?, isBlank d = false) : text = [] := by
      cases text with
      | nil => rfl
      | cons c text =>
        have := blank c List.mem_cons_self
        rw [solid c rfl] at this
        cases this
    rw [nothing blank solid, nothing blank' solid']
  | letter => simp
  | gap blank =>
    have := solid _ rfl
    rw [blank] at this
    cases this

/-- Behind a letter that both lines have, positions correspond again. -/
theorem letter {c c' : Char} {text text' : List Char} (here : l.rest i = c :: text) (here' : l'.rest i' = c' :: text')
    (same : lowerChar c = lowerChar c') (rest : SameText text text') : l.Corresponds l' (i + 1) (i' + 1) := by
  have left := rest_succ here
  have left' := rest_succ here'
  have before : l.wordBefore (i + 1) = isWordChar c := by simp [wordBefore, getElem?_eq_head?_rest, here]
  have before' : l'.wordBefore (i' + 1) = isWordChar c' := by simp [wordBefore, getElem?_eq_head?_rest, here']
  refine ⟨by rw [left, left']; exact rest, ?_⟩
  cases rest with
  | ended blank blank' =>
    have final {l : Line} {i : Nat} {text : List Char} (left : l.rest i = text)
        (blank : ∀ c ∈ text, isBlank c = true) : l.isBoundary (l.skipBlanks i) = true :=
      isBoundary_of_rest_nil (by rw [rest_skipBlanks, left, List.dropWhile_eq_nil_iff.2 blank])
    rw [final left blank, final left' blank']
  | letter solid next =>
    have solid' := (isBlank_eq_of_lowerChar_eq next).symm.trans solid
    rw [skipBlanks_of_solid left solid, skipBlanks_of_solid left' solid']
    simp only [isBoundary, before, before', wordAfter, getElem?_eq_head?_rest, left, left', List.head?_cons,
      Option.any_some, isWordChar_eq_of_lowerChar_eq same, isWordChar_eq_of_lowerChar_eq next]
  | gap blank blank' =>
    rw [isBoundary_of_lt_skipBlanks (lt_skipBlanks_of_blank left blank),
      isBoundary_of_lt_skipBlanks (lt_skipBlanks_of_blank left' blank')]

end Corresponds

/-- A space of a literal stands for the blanks at its place, of which there is one at least. -/
theorem matchFrom_space (l : Line) (literal : List Char) (i : Nat) :
    l.matchFrom (' ' :: literal) i =
      if l.skipBlanks i = i then none else l.matchFrom literal (l.skipBlanks i) := by
  simp only [matchFrom, beq_self_eq_true, if_true, beq_iff_eq]

/-- Where a text starts with no letter, no letter is found. -/
theorem matchFrom_of_blank {c : Char} {literal : List Char} (word : c ≠ ' ') (solid : isBlank c = false)
    (blank : ∀ d ∈ (l.rest i).head?, isBlank d = true) : l.matchFrom (c :: literal) i = none := by
  have space : (c == ' ') = false := beq_eq_false_iff_ne.2 word
  simp only [matchFrom, space, Bool.false_eq_true, if_false, getElem?_eq_head?_rest]
  cases head : (l.rest i).head? with
  | none => rfl
  | some d =>
    have other : sameLetter d c = false := by
      rw [Bool.eq_false_iff]
      intro same
      have both := isBlank_eq_of_lowerChar_eq (sameLetter_iff.1 same)
      rw [blank d head, solid] at both
      cases both
    simp [other]

/-- **A literal is found at corresponding positions of both lines or of none**, and ends at corresponding ones. -/
theorem matchFrom_corresponds {literal : List Char} (spaced : Spaced literal) (h : l.Corresponds l' i i') :
    Option.Rel (l.Corresponds l') (l.matchFrom literal i) (l'.matchFrom literal i') := by
  induction literal generalizing i i' with
  | nil => exact .some h
  | cons c literal ih =>
    have text := h.text
    by_cases space : c = ' '
    · subst space
      obtain ⟨d, more, rfl, word, solid⟩ := spaced.letter
      have further := ih spaced.tail h.skip
      generalize left : l.rest i = rest at text
      generalize left' : l'.rest i' = rest' at text
      cases text with
      | ended blank blank' =>
        -- a blank may be left in one line alone, but no letter behind it
        have none {l : Line} {i : Nat} {text : List Char} (left : l.rest i = text)
            (blank : ∀ c ∈ text, isBlank c = true) : l.matchFrom (' ' :: d :: more) i = none := by
          have behind : l.matchFrom (d :: more) (l.skipBlanks i) = none := by
            refine matchFrom_of_blank word solid fun e mem => ?_
            rw [rest_skipBlanks, left, List.dropWhile_eq_nil_iff.2 blank] at mem
            cases mem
          rw [matchFrom_space, behind, ite_self]
        rw [none left blank, none left' blank']
        exact .none
      | letter solid same =>
        have solid' := (isBlank_eq_of_lowerChar_eq same).symm.trans solid
        rw [matchFrom_space, matchFrom_space, if_pos (skipBlanks_of_solid left solid),
          if_pos (skipBlanks_of_solid left' solid')]
        exact .none
      | gap blank blank' =>
        have less := lt_skipBlanks_of_blank left blank
        have less' := lt_skipBlanks_of_blank left' blank'
        rw [matchFrom_space, matchFrom_space, if_neg (Nat.ne_of_gt less), if_neg (Nat.ne_of_gt less')]
        exact further
    · have solid : isBlank c = false := by
        cases blank : isBlank c with
        | false => rfl
        | true => exact absurd (spaced.solid c List.mem_cons_self blank) space
      generalize left : l.rest i = rest at text
      generalize left' : l'.rest i' = rest' at text
      cases text with
      | ended blank blank' =>
        rw [matchFrom_of_blank space solid fun d mem => blank d (left ▸ List.mem_of_mem_head? mem),
          matchFrom_of_blank space solid fun d mem => blank' d (left' ▸ List.mem_of_mem_head? mem)]
        exact .none
      | @letter f f' _ _ _ same rest =>
        have further := ih spaced.tail (.letter left left' same rest)
        have letters : sameLetter f c = sameLetter f' c := by
          rw [Bool.eq_iff_iff, sameLetter_iff, sameLetter_iff, same]
        have other : (c == ' ') = false := beq_eq_false_iff_ne.2 space
        simp only [matchFrom, other, Bool.false_eq_true, if_false, getElem?_eq_head?_rest, left, left',
          List.head?_cons, letters]
        split
        · exact further
        · exact .none
      | gap blank blank' =>
        rw [matchFrom_of_blank space solid fun d mem => by rw [left] at mem; cases mem; exact blank,
          matchFrom_of_blank space solid fun d mem => by rw [left'] at mem; cases mem; exact blank']
        exact .none

end Line

end Phrasebook.Text
