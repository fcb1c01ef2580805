import Phrasebook.Terminal.Highlight

/-!
# A highlighted line on a terminal

A terminal takes a text apart into characters that it shows and escape sequences that it obeys. What it shows
of a highlighted line is the line, and the sequences turn a color on and off by turns.
-/

namespace Phrasebook.Terminal

/-- What a terminal takes from a text: a character to show or an escape sequence. -/
inductive Token where
  | character (c : Char)
  | sequence (text : List Char)
deriving DecidableEq, Repr

/-- The character of a token that is shown. -/
def Token.character? : Token → Option Char
  | character c => some c
  | sequence _ => none

/-- The escape sequence of a token that is none to show. -/
def Token.sequence? : Token → Option (List Char)
  | character _ => none
  | sequence text => some text

/-- The tokens of a text, from within a sequence of which `begun` has been read. A sequence goes from the escape
character to the next `m`, or to the end of the text. -/
def tokensFrom (begun : Option (List Char)) : List Char → List Token
  | [] => begun.toList.map .sequence
  | c :: rest =>
    match begun with
    | none => if c == escape then tokensFrom (some [c]) rest else .character c :: tokensFrom none rest
    | some text =>
      if c == 'm' then .sequence (text ++ [c]) :: tokensFrom none rest else tokensFrom (some (text ++ [c])) rest

/-- A text without its escape sequences. -/
def shown (text : List Char) : List Char :=
  (tokensFrom none text).filterMap Token.character?

/-- The escape sequences of a text, in order. -/
def sequences (text : List Char) : List (List Char) :=
  (tokensFrom none text).filterMap Token.sequence?

/-- The escape sequence of a style. It does not reset. -/
def IsColor (text : List Char) : Prop :=
  (∃ style : Style, text = sequence style.code) ∧ text ≠ reset

/-- Colors and resets by turns, with a color first and a reset last. -/
inductive Alternates : List (List Char) → Prop where
  | nil : Alternates []
  | cons {color : List Char} {rest : List (List Char)} (is : IsColor color) (alternates : Alternates rest) :
      Alternates (color :: reset :: rest)

theorem isColor_sequence (style : Style) : IsColor (sequence style.code) := by
  refine ⟨⟨style, rfl⟩, ?_⟩
  cases style <;> decide

section Tokens

variable {text more : List Char}

/-- A text without escape characters is shown as it is. -/
theorem tokensFrom_plain (plain : escape ∉ text) :
    tokensFrom none (text ++ more) = text.map .character ++ tokensFrom none more := by
  induction text with
  | nil => rfl
  | cons c text ih =>
    have other : (c == escape) = false := beq_false_of_ne (List.ne_of_not_mem_cons plain).symm
    have rest := ih (List.not_mem_of_not_mem_cons plain)
    rw [List.cons_append, tokensFrom, other, List.map_cons, List.cons_append, ← rest]
    rfl

/-- A sequence goes on up to its `m`. -/
theorem tokensFrom_begun (unended : 'm' ∉ text) (begun : List Char) :
    tokensFrom (some begun) (text ++ 'm' :: more) =
      .sequence (begun ++ text ++ ['m']) :: tokensFrom none more := by
  induction text generalizing begun with
  | nil =>
    rw [List.append_nil, List.nil_append, tokensFrom]
    rfl
  | cons c text ih =>
    have other : (c == 'm') = false := beq_false_of_ne (List.ne_of_not_mem_cons unended).symm
    have rest := ih (List.not_mem_of_not_mem_cons unended) (begun ++ [c])
    rw [List.append_cons begun c text, ← rest, List.cons_append, tokensFrom, other]
    rfl

/-- The sequence of a code without an `m` is read as one. -/
theorem tokensFrom_sequence {code : String} (unended : 'm' ∉ code.toList) :
    tokensFrom none (sequence code ++ more) = .sequence (sequence code) :: tokensFrom none more := by
  have unended : 'm' ∉ '[' :: code.toList := List.not_mem_cons_of_ne_of_not_mem (by decide) unended
  have read : tokensFrom (some [escape]) ('[' :: code.toList ++ 'm' :: more) = _ := tokensFrom_begun unended [escape]
  have shape : sequence code ++ more = escape :: ('[' :: code.toList ++ 'm' :: more) := by
    simp [sequence]
  rw [shape]
  exact read

end Tokens

/-- The tokens that a piece is painted with. -/
def Piece.tokens (p : Piece) : List Token :=
  match p.style with
  | none => p.text.map .character
  | some style => .sequence (sequence style.code) :: (p.text.map .character ++ [.sequence reset])

/-- A painted piece is read as its characters, between the color of its style and a reset if it has one. -/
theorem Piece.tokensFrom_render {p : Piece} (plain : escape ∉ p.text) (more : List Char) :
    tokensFrom none (p.render ++ more) = p.tokens ++ tokensFrom none more := by
  obtain ⟨style?, text⟩ := p
  cases style? with
  | none => exact tokensFrom_plain plain
  | some style =>
    have unended : 'm' ∉ style.code.toList := by cases style <;> decide
    simp only [Piece.render, Piece.tokens, paint, List.append_assoc]
    rw [tokensFrom_sequence unended, tokensFrom_plain plain, reset, tokensFrom_sequence (by decide)]
    simp

/-- What is read of painted pieces is read of one after the other. -/
theorem tokensFrom_pieces {ps : List Piece} (plain : ∀ p ∈ ps, escape ∉ p.text) :
    tokensFrom none (ps.flatMap Piece.render) = ps.flatMap Piece.tokens := by
  induction ps with
  | nil => rfl
  | cons p ps ih =>
    obtain ⟨first, rest⟩ := List.forall_mem_cons.1 plain
    rw [List.flatMap_cons, List.flatMap_cons, p.tokensFrom_render first, ih rest]

/-- Painted pieces show their texts. -/
theorem shown_pieces {ps : List Piece} (plain : ∀ p ∈ ps, escape ∉ p.text) :
    shown (ps.flatMap Piece.render) = ps.flatMap Piece.text := by
  have characters (text : List Char) : (text.map Token.character).filterMap Token.character? = text := by
    simp [List.filterMap_map, Function.comp_def, Token.character?]
  have one (p : Piece) : p.tokens.filterMap Token.character? = p.text := by
    unfold Piece.tokens
    split
    · exact characters p.text
    · rw [List.filterMap_cons_none rfl, List.filterMap_append, characters]
      exact List.append_nil p.text
  rw [shown, tokensFrom_pieces plain, List.filterMap_flatMap]
  exact congrArg (ps.flatMap ·) (funext one)

/-- The sequences of painted pieces are a color and a reset for each piece that has a style. -/
theorem alternates_pieces {ps : List Piece} (plain : ∀ p ∈ ps, escape ∉ p.text) :
    Alternates (sequences (ps.flatMap Piece.render)) := by
  have none_ (text : List Char) : (text.map Token.character).filterMap Token.sequence? = [] := by
    simp [List.filterMap_map, Function.comp_def, Token.sequence?]
  rw [sequences, tokensFrom_pieces plain]
  clear plain
  induction ps with
  | nil => exact .nil
  | cons p ps ih =>
    obtain ⟨style?, text⟩ := p
    rw [List.flatMap_cons, List.filterMap_append]
    cases style? with
    | none =>
      simpa only [Piece.tokens, none_, List.nil_append] using ih
    | some style =>
      have both : (Piece.tokens ⟨some style, text⟩).filterMap Token.sequence? = [sequence style.code, reset] := by
        simp only [Piece.tokens, List.filterMap_cons, List.filterMap_append, none_, Token.sequence?]
        rfl
      rw [both]
      exact .cons (isColor_sequence style) ih

section Pieces

variable (keywords : List String) (line : List Char)

/-- The pieces of a line are the line. -/
theorem pieces_text : (pieces keywords line).flatMap Piece.text = line := by
  fun_induction pieces keywords line with
  | case1 => rfl
  | case2 c rest next ih => rw [List.flatMap_cons, ih, nextPiece_append]

theorem highlightPieces_text : (highlightPieces keywords line).flatMap Piece.text = line := by
  unfold highlightPieces
  split
  · exact List.append_nil line
  · exact pieces_text keywords line

variable {line}

/-- **Highlighting only adds color.** A terminal shows a highlighted line without escape characters as the line
itself, and its escape sequences are colors and resets by turns, from a color to a reset. -/
theorem shown_highlight (plain : escape ∉ line) :
    shown (highlight keywords line) = line ∧ Alternates (sequences (highlight keywords line)) := by
  have whole := highlightPieces_text keywords line
  have parts : ∀ p ∈ highlightPieces keywords line, escape ∉ p.text := fun p mem among =>
    plain (whole ▸ List.mem_flatMap.2 ⟨p, mem, among⟩)
  refine ⟨?_, alternates_pieces parts⟩
  rw [highlight, shown_pieces parts, whole]

/-- A string without an end and a keyword. -/
theorem shown_highlight_unended :
    shown (highlight ["print"] "print \"\x7ba".toList) = "print \"\x7ba".toList ∧
      Alternates (sequences (highlight ["print"] "print \"\x7ba".toList)) :=
  shown_highlight ["print"] (by decide)

end Pieces

end Phrasebook.Terminal
