import Phrasebook.Standard.Types

/-!
# No literal starts with a quote

Numbers, booleans, lengths of time and times of day are written without quotes. So none of their readers takes
a text that starts with one, whatever stands behind it.
-/

namespace Phrasebook.Literal
open Text

/-- Without the blanks at its ends a text that starts with a quote still does. -/
theorem trim_quoted (rest : List Char) : ∃ rest', trim ('"' :: rest) = '"' :: rest' := by
  have solid : isBlank '"' = false := by decide
  have start : trimStart ('"' :: rest) = '"' :: rest := by
    simp [trimStart, solid]
  rw [trim, start, trimEnd, List.reverse_cons, List.dropWhile_append]
  split
  · exact ⟨[], by simp [solid]⟩
  · exact ⟨(rest.reverse.dropWhile isBlank).reverse, by simp⟩

theorem number?_quoted (rest : List Char) : number? (String.ofList ('"' :: rest)) = none := by
  obtain ⟨rest', trimmed⟩ := trim_quoted rest
  have unsigned : Decimal.takeSign ('"' :: rest') = (false, '"' :: rest') := rfl
  have other : isDigit '"' = false := by decide
  have unread : Decimal.readDecimal? ('"' :: rest') = none := by
    simp [Decimal.readDecimal?, other]
  simp only [number?, String.toList_ofList, trimmed, unsigned, unread]

theorem integer?_quoted (rest : List Char) : integer? (String.ofList ('"' :: rest)) = none := by
  simp only [integer?, number?_quoted]

theorem boolean?_quoted (rest : List Char) : boolean? (String.ofList ('"' :: rest)) = none := by
  obtain ⟨rest', trimmed⟩ := trim_quoted rest
  have word : (lowerAsciiString (trimString (String.ofList ('"' :: rest)))).toList.head? = some '"' := by
    simp only [trimString, lowerAsciiString, String.toList_ofList, trimmed, List.map_cons, List.head?_cons]
    rfl
  have other {s : String} (different : s.toList.head? ≠ some '"') :
      (lowerAsciiString (trimString (String.ofList ('"' :: rest))) == s) = false := by
    refine beq_eq_false_iff_ne.2 fun same => different ?_
    rw [← same, word]
  have true_ := other (s := "true") (by decide)
  have false_ := other (s := "false") (by decide)
  simp only [boolean?, true_, false_, Bool.false_eq_true, if_false]

/-- The first of the words of a length of time keeps the quote in front of it. -/
theorem durationWords_quoted (rest : List Char) :
    ∃ word words, durationWords (String.ofList ('"' :: rest)) = ('"' :: word) :: words := by
  have small : lower ('"' :: rest) = '"' :: lowerAfter ['"'] rest := rfl
  have first (cs : List Char) : ∃ word ws, words ('"' :: cs) = ('"' :: word) :: ws := by
    have solid : isBlank '"' = false := by decide
    simp only [words, splitOn, solid, Bool.false_eq_true, if_false]
    cases splitOn isBlank cs with
    | nil => exact ⟨[], [], by simp⟩
    | cons piece pieces => exact ⟨piece, pieces.filter fun w => !w.isEmpty, by simp⟩
  unfold durationWords
  rw [String.toList_ofList, small]
  exact first _

theorem duration?_quoted (rest : List Char) : duration? (String.ofList ('"' :: rest)) = none := by
  obtain ⟨word, words, all⟩ := durationWords_quoted rest
  have amount : amount? ('"' :: word) = none := by
    have article : ('"' :: word == ['a'] || '"' :: word == ['a', 'n']) = false := by simp
    simp only [amount?, article, number?_quoted, Option.bind_none, Bool.false_eq_true, if_false]
  rw [duration?, all]
  cases words with
  | nil => rfl
  | cons unit rest =>
    simp only [sumDurations?, amount]
    cases readUnits.find? fun u => String.ofList unit == u.singular || String.ofList unit == u.plural <;> rfl

theorem time?_quoted (rest : List Char) : time? (String.ofList ('"' :: rest)) = none := by
  obtain ⟨rest', trimmed⟩ := trim_quoted rest
  have hour (least : Nat) (cs : List Char) : timeField? least ('"' :: cs) = none := by
    have other : isDigit '"' = false := by decide
    simp [timeField?, other]
  obtain ⟨first, pieces, all⟩ : ∃ first pieces,
      splitOn (· == ':') ('"' :: rest') = ('"' :: first) :: pieces := by
    have other : ('"' == ':') = false := by decide
    simp only [splitOn, other, Bool.false_eq_true, if_false]
    cases splitOn (· == ':') rest' with
    | nil => exact ⟨[], [], rfl⟩
    | cons piece pieces => exact ⟨piece, pieces, rfl⟩
  unfold time?
  rw [String.toList_ofList, trimmed, all]
  rcases pieces with _ | ⟨_, _ | ⟨_, _ | ⟨_, _⟩⟩⟩
  · rfl
  · simp [hour]
  · simp [hour]
  · rfl

/-- **No standard type reads a text in quotes.** -/
theorem read?_quoted {spec : TypeSpec} (standard : spec ∈ Standard.types) (rest : List Char) :
    spec.read? (String.ofList ('"' :: rest)) = none := by
  simp only [Standard.types, List.mem_cons, List.not_mem_nil, or_false] at standard
  rcases standard with rfl | rfl | rfl | rfl | rfl | rfl | rfl
  · rfl
  · simp only [TypeSpec.read?, Option.bind_some, number?_quoted]
  · simp only [TypeSpec.read?, Option.bind_some, integer?_quoted]
  · rfl
  · simp only [TypeSpec.read?, Option.bind_some, boolean?_quoted]
  · simp only [TypeSpec.read?, Option.bind_some, duration?_quoted, Option.map_none]
  · simp only [TypeSpec.read?, Option.bind_some, time?_quoted, Option.map_none]

end Phrasebook.Literal
