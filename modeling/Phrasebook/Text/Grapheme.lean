import Phrasebook.Text.Joining

/-!
# Graphemes

A grapheme is what a reader takes for one character. A text is cut into graphemes from left to right:
each character either continues the grapheme before it or begins one, as the rules of Unicode for
extended grapheme clusters say. The graphemes of a text add up to the text (`flatten_graphemes`), and
none is empty (`ne_nil_of_mem_graphemes`).
-/

namespace Phrasebook.Text

/-- A pictograph with its extenders, last character first. -/
def endsPictograph (cluster : List Char) : Bool :=
  ((cluster.dropWhile (joining · == .extender)).head?).any (joining · == .pictograph)

/-- The number of regional indicators at the end is odd, so that the last one lacks its other half. -/
def endsHalfFlag (cluster : List Char) : Bool :=
  (cluster.takeWhile (joining · == .regional)).length % 2 == 1

/-- A consonant whose vowel is taken away, so that the next consonant is written with it. -/
def endsLinked (cluster : List Char) : Bool :=
  (cluster.takeWhile isConjunctMark).any isConjunctLinker &&
    ((cluster.dropWhile isConjunctMark).head?).any isConjunctConsonant

/-- A character continues a grapheme, whose characters are given last first. -/
def continues : List Char → Char → Bool
  | [], _ => false
  | last :: earlier, c =>
    let a := joining last
    let b := joining c
    if a == .carriageReturn && b == .lineFeed then true
    else if a.isAlone || b.isAlone then false
    else
      b.isMark || a == .prepended || a.inSyllable b ||
        (b == .pictograph && a == .joiner && endsPictograph earlier) ||
        (b == .regional && endsHalfFlag (last :: earlier)) ||
        (isConjunctConsonant c && endsLinked (last :: earlier))

/-- The graphemes of a text after the beginning of one, which is given last character first. -/
def graphemesAfter (cluster : List Char) : List Char → List (List Char)
  | [] => [cluster.reverse]
  | c :: rest =>
    if continues cluster c then graphemesAfter (c :: cluster) rest
    else cluster.reverse :: graphemesAfter [c] rest

/-- The graphemes of a text. -/
def graphemes : List Char → List (List Char)
  | [] => []
  | c :: rest => graphemesAfter [c] rest

/-- Nothing is lost after the beginning of a grapheme. -/
theorem flatten_graphemesAfter (cluster cs : List Char) :
    (graphemesAfter cluster cs).flatten = cluster.reverse ++ cs := by
  induction cs generalizing cluster with
  | nil => simp [graphemesAfter]
  | cons c rest ih =>
    simp only [graphemesAfter]
    split
    · simp [ih]
    · simp [ih]

/-- The graphemes of a text add up to the text. -/
theorem flatten_graphemes (cs : List Char) : (graphemes cs).flatten = cs := by
  cases cs with
  | nil => rfl
  | cons c rest => simp [graphemes, flatten_graphemesAfter]

/-- No grapheme is empty after the beginning of one. -/
theorem ne_nil_of_mem_graphemesAfter {cluster cs g : List Char} (h : cluster ≠ [])
    (hg : g ∈ graphemesAfter cluster cs) : g ≠ [] := by
  induction cs generalizing cluster with
  | nil => simp_all [graphemesAfter]
  | cons c rest ih =>
    simp only [graphemesAfter] at hg
    split at hg
    · exact ih (List.cons_ne_nil c cluster) hg
    · rcases List.mem_cons.1 hg with rfl | hg
      · simpa using h
      · exact ih (List.cons_ne_nil c []) hg

/-- No grapheme is empty. -/
theorem ne_nil_of_mem_graphemes {cs g : List Char} (hg : g ∈ graphemes cs) : g ≠ [] := by
  cases cs with
  | nil => simp [graphemes] at hg
  | cons c rest => exact ne_nil_of_mem_graphemesAfter (List.cons_ne_nil c []) hg

end Phrasebook.Text
