import Phrasebook.Pattern.Element

/-!
# Tokens of a pattern text

The text of a pattern is first cut into tokens: brackets, bars, labels, blanks, letters and captures,
each with the offset at which it starts. A capture or an escape that the text breaks off is a token of
its own and the last one.
-/

namespace Phrasebook.Pattern
open Text

/-- The two kinds of group. -/
inductive Bracket where
  | square
  | round
deriving DecidableEq, Repr, Inhabited

namespace Bracket

/-- The character that opens a bracket. -/
def opener : Bracket → Char
  | square => '['
  | round => '('

/-- The character that closes a bracket. -/
def closer : Bracket → Char
  | square => ']'
  | round => ')'

end Bracket

/-- The two kinds of capture. -/
inductive CaptureKind where
  | placeholder
  | regex
deriving DecidableEq, Repr, Inhabited

/-- The character that a capture starts with. -/
def CaptureKind.opener : CaptureKind → Char
  | placeholder => '%'
  | regex => '<'

/-- A piece of a pattern text. -/
inductive Token where
  | opening (bracket : Bracket)
  | closing (bracket : Bracket)
  /-- between two branches -/
  | bar
  | label (label : Label)
  | blank
  /-- a character of a literal, whether it is escaped or not -/
  | letter (c : Char)
  /-- the text between the ends of a capture, and where the capture stops -/
  | capture (kind : CaptureKind) (body : List Char) (stop : Nat)
  /-- a capture without an end -/
  | openCapture (kind : CaptureKind)
  /-- a backslash at the end -/
  | openEscape
deriving DecidableEq, Repr, Inhabited

/-- The number of bytes of a text. -/
def byteLength (cs : List Char) : Nat :=
  cs.foldl (fun n c => n + c.utf8Size) 0

/-- The body of a regex and what follows its end. A backslash and the character after it belong to the
body, whatever they are. -/
def takeRegex? : List Char → Option (List Char × List Char)
  | [] => none
  | '>' :: rest => some ([], rest)
  | '\\' :: c :: rest => (takeRegex? rest).map fun (body, rest) => ('\\' :: c :: body, rest)
  | c :: rest => (takeRegex? rest).map fun (body, rest) => (c :: body, rest)

/-- The body of a placeholder and what follows its end. -/
def takePlaceholder? : List Char → Option (List Char × List Char)
  | [] => none
  | '%' :: rest => some ([], rest)
  | c :: rest => (takePlaceholder? rest).map fun (body, rest) => (c :: body, rest)

/-- The body of a capture and what follows it. -/
def takeCapture? : CaptureKind → List Char → Option (List Char × List Char)
  | .placeholder => takePlaceholder?
  | .regex => takeRegex?

/-- A character that a label may hold. -/
def isLabelChar (c : Char) : Bool :=
  ('a' ≤ c && c ≤ 'z') || ('A' ≤ c && c ≤ 'Z') || isDigit c || c == '_'

/-- The value of digits, if it fits into a mark. -/
def markOf? (digits : List Char) : Option Int64 :=
  let n := digits.foldl (fun n c => 10 * n + (c.toNat - '0'.toNat)) 0
  if n ≤ Int64.maxValue.toInt then some (Int64.ofNat n) else none

/-- The label that a word stands for: digits are a mark, and a word that starts with no digit a tag. -/
def labelOf? (word : List Char) : Option Label :=
  match word with
  | [] => none
  | c :: _ =>
    if word.all isDigit then (markOf? word).map fun m => { mark := some m }
    else if isDigit c then none
    else some { tag := some (String.ofList word) }

/-- A label at the start of a branch, its text with the sign that ends it, and what follows. -/
def takeLabel? (cs : List Char) : Option (Label × List Char × List Char) :=
  match cs.dropWhile isLabelChar with
  | c :: rest =>
    if c == ':' || c == '¦' then
      let word := cs.takeWhile isLabelChar
      (labelOf? word).map fun label => (label, word ++ [c], rest)
    else none
  | [] => none

/-- A label where a branch starts. -/
def labelAt? (branchStart : Bool) (cs : List Char) : Option (Label × List Char × List Char) :=
  if branchStart then takeLabel? cs else none

/-- What follows a regular expression is shorter than what was read. -/
theorem length_takeRegex? {cs body rest : List Char} (h : takeRegex? cs = some (body, rest)) :
    rest.length < cs.length := by
  fun_induction takeRegex? cs generalizing body rest with
  | case1 => cases h
  | case2 => cases h; simp
  | case3 c r ih =>
    obtain ⟨⟨b, r'⟩, h', e⟩ := Option.map_eq_some_iff.1 h
    cases e
    have := ih h'
    simp only [List.length_cons]
    omega
  | case4 c r _ _ ih =>
    obtain ⟨⟨b, r'⟩, h', e⟩ := Option.map_eq_some_iff.1 h
    cases e
    have := ih h'
    simp only [List.length_cons]
    omega

/-- What follows a placeholder is shorter than what was read. -/
theorem length_takePlaceholder? {cs body rest : List Char}
    (h : takePlaceholder? cs = some (body, rest)) : rest.length < cs.length := by
  fun_induction takePlaceholder? cs generalizing body rest with
  | case1 => cases h
  | case2 => cases h; simp
  | case3 c r _ ih =>
    obtain ⟨⟨b, r'⟩, h', e⟩ := Option.map_eq_some_iff.1 h
    cases e
    have := ih h'
    simp only [List.length_cons]
    omega

/-- What follows a capture is shorter than what was read. -/
theorem length_takeCapture? {kind : CaptureKind} {cs body rest : List Char}
    (h : takeCapture? kind cs = some (body, rest)) : rest.length < cs.length := by
  cases kind with
  | placeholder => exact length_takePlaceholder? h
  | regex => exact length_takeRegex? h

/-- What follows a label is shorter than what was read. -/
theorem length_takeLabel? {cs text rest : List Char} {label : Label}
    (h : takeLabel? cs = some (label, text, rest)) : rest.length < cs.length := by
  unfold takeLabel? at h
  split at h
  · rename_i c r hd
    split at h
    · obtain ⟨l, _, e⟩ := Option.map_eq_some_iff.1 h
      cases e
      have := (List.dropWhile_sublist isLabelChar (l := cs)).length_le
      rw [hd] at this
      simp only [List.length_cons] at this
      omega
    · cases h
  · cases h

/-- A label at the start of a branch leaves a shorter rest. -/
theorem length_labelAt? {branchStart : Bool} {cs text rest : List Char} {label : Label}
    (h : labelAt? branchStart cs = some (label, text, rest)) : rest.length < cs.length := by
  cases branchStart with
  | true => exact length_takeLabel? h
  | false => cases h

/-- A token and the offset at which it starts. -/
structure Located where
  offset : Nat
  token : Token
deriving DecidableEq, Repr, Inhabited

/-- The token of a character that is no part of a longer one, and whether a branch starts behind it. -/
def simpleToken (c : Char) : Token × Bool :=
  match c with
  | '[' => (.opening .square, true)
  | '(' => (.opening .round, true)
  | ']' => (.closing .square, false)
  | ')' => (.closing .round, false)
  | '|' => (.bar, true)
  | c => (if isBlank c then .blank else .letter c, false)

/-- The kind of capture that a character starts. -/
def captureOf? (c : Char) : Option CaptureKind :=
  if c == '%' then some .placeholder else if c == '<' then some .regex else none

/-- The tokens of a text that starts at an offset, and at the start of a branch or within one. -/
def tokensFrom (offset : Nat) (branchStart : Bool) (cs : List Char) : List Located :=
  match (labelAt? branchStart cs).attach with
  | some ⟨(label, text, rest), h⟩ =>
    have := length_labelAt? h
    ⟨offset, .label label⟩ :: tokensFrom (offset + byteLength text) false rest
  | none =>
    match cs with
    | [] => []
    | ['\\'] => [⟨offset, .openEscape⟩]
    | '\\' :: c :: rest => ⟨offset, .letter c⟩ :: tokensFrom (offset + 1 + c.utf8Size) false rest
    | c :: rest =>
      match captureOf? c with
      | some kind =>
        match (takeCapture? kind rest).attach with
        | none => [⟨offset, .openCapture kind⟩]
        | some ⟨(body, rest'), h⟩ =>
          have := length_takeCapture? h
          let stop := offset + 2 + byteLength body
          ⟨offset, .capture kind body stop⟩ :: tokensFrom stop false rest'
      | none =>
        let (token, branchStart) := simpleToken c
        ⟨offset, token⟩ :: tokensFrom (offset + c.utf8Size) branchStart rest
termination_by cs.length

/-- The tokens of a pattern text. -/
def tokens (text : String) : List Located :=
  tokensFrom 0 true text.toList

end Phrasebook.Pattern
