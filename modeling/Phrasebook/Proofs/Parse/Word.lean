import Phrasebook.Parse.Line
import Phrasebook.Proofs.Match.Word
import Phrasebook.Proofs.Parse.FirstFitting
import Phrasebook.Proofs.Parse.Quotes

/-!
# Lines that start with a word

A line is parsed by the one definition that starts with its word, if all others of the category start with other
letters, in whatever order they are tried. The rest of the line is read as the argument.
-/

namespace Phrasebook
open Text Pattern

/-- A candidate is a word with a placeholder behind it, and accepts whatever fills the placeholder. -/
structure Candidate.IsWord (x : Candidate) (word : List Char) (p : Placeholder) : Prop where
  program : x.pattern.program = #[.lit word, .boundary, .slot 0 { canEnd := true }, .stop]
  placeholders : x.pattern.placeholders = [p]
  needed : p.nullable = false
  accepts : x.definition.decide = .accept

/-- A candidate starts with another letter. -/
def Candidate.startsOther (letter : Char) (x : Candidate) : Bool :=
  match x.pattern.program[0]? with
  | some (Instr.lit (c :: _)) => c != ' ' && !sameLetter letter c
  | _ => false

/-- A node is of the definition of a candidate, with literal strings as its only argument. -/
structure Candidate.Given (x : Candidate) (texts : List (List Char)) (node : Node) : Prop where
  category : node.category = x.definition.category
  name : node.name = x.definition.name
  argument : ∃ argument, node.arguments = [some argument] ∧ Parse.IsStrings argument texts

namespace Registry

/-- Nothing captures a part of the literal strings that stand for a target. -/
structure ReadsQuotes (r : Registry) (string : TypeId) (target : Target) : Prop where
  takes : Parse.TakesStrings r.types string target
  several : target.single = false
  separators : ∃ others, r.config.listSeparators = "," :: others
  unread : ∀ rest, Parse.Unread r.types.table (String.ofList ('"' :: rest))

/-- A candidate of a category is a word, and no other candidate of the category starts with its letter. -/
structure HasWord (r : Registry) (category : Category) (x : Candidate) (letter : Char) (word : List Char)
    (p : Placeholder) : Prop where
  isWord : x.IsWord (letter :: word) p
  spaceless : ' ' ∉ letter :: word
  solid : isBlank letter = false
  among : x ∈ r.candidates category
  others : ∀ y ∈ r.candidates category, y = x ∨ y.startsOther letter = true

end Registry

namespace Context

/-- The state while a definition is tried on a stretch. -/
def trying (definition : Nat) (s : Stretch) (c : Context) : Context :=
  { c with trials := ⟨definition, s⟩ :: c.trials }

theorem rollback_checkpoint (c : Context) : c.rollback c.checkpoint = c := by
  simp [rollback, checkpoint]

end Context

namespace Parse

variable {r : Registry} {read : Reader} {line : Line} {start : Nat} {c c' : Context} {x : Candidate}

/-- A candidate is matched while it counts as being tried. -/
theorem ends_matchCandidate {stop : Nat} {result : Except (Match.Failure Rejection) (Match.Found Expr)}
    (run : Ends (Match.run x.pattern line start stop fun p low high => read line low high (.ofPlaceholder p))
      (c.trying x.definition.id (stretchOf line start stop)) result c') :
    Ends (matchCandidate read line start stop x) c result { c' with trials := c'.trials.tail } := by
  unfold Ends Context.trying at run
  simp only [Ends, matchCandidate, Parsing.bracket, Parsing.of, run]

/-- A candidate that starts with another letter is turned down, and leaves the state as it was. -/
theorem ends_tryCandidate_other {letter : Char} {text : List Char} (other : x.startsOther letter = true)
    (here : line.Stands start (letter :: text)) (solid : isBlank letter = false) (c : Context) :
    ∃ miss, Ends (tryCandidate r read line start line.size x) c (.error miss) c := by
  obtain ⟨e, word, first, space, different⟩ : ∃ e word, x.pattern.program[0]? = some (.lit (e :: word)) ∧
      e ≠ ' ' ∧ sameLetter letter e = false := by
    unfold Candidate.startsOther at other
    split at other
    next e word first =>
      simp only [Bool.and_eq_true, bne_iff_ne, Bool.not_eq_true'] at other
      exact ⟨e, word, first, other⟩
    next => cases other
  obtain ⟨failure, run⟩ : ∃ failure, ∀ d : Context, Ends (Match.run x.pattern line start line.size
      fun p low high => read line low high (.ofPlaceholder p)) d (.error failure) d :=
    Match.ends_run_other first here solid space different
  have matched : Ends (matchCandidate read line start line.size x) c (.error failure) c :=
    ends_matchCandidate (run (c.trying x.definition.id (stretchOf line start line.size)))
  refine ⟨.unmatched failure, ?_⟩
  unfold Ends at matched
  simp only [Ends, tryCandidate, Parsing.of, matched, c.rollback_checkpoint]

/-- A candidate that is the word of a line is accepted with what the rest of the line is read as. -/
theorem ends_tryCandidate_word {word inner : List Char} {d e : Char} {p : Placeholder} {argument : Expr}
    (isWord : x.IsWord word p) (solid : ' ' ∉ word)
    (here : line.Stands start (word ++ ' ' :: (d :: inner ++ [e])))
    (whole : start + (word ++ ' ' :: (d :: inner ++ [e])).length = line.size)
    (begins : line.skipBlanks start = start) (left : isBlank d = false) (right : isBlank e = false)
    (reads : Ends (read line (start + word.length + 1) line.size (.ofPlaceholder p))
      (c.trying x.definition.id (stretchOf line start line.size)) (.found argument)
      (c.trying x.definition.id (stretchOf line start line.size))) :
    Ends (tryCandidate r read line start line.size x) c
      (.ok (nodeOf x { arguments := [some argument], mark := 0, captures := [], tags := [] }
        (c.span (stretchOf line start line.size)))) c := by
  have matched : Ends (matchCandidate read line start line.size x) c
      (.ok { arguments := [some argument], mark := 0, captures := [], tags := [] }) c :=
    ends_matchCandidate (Match.ends_run_word isWord.program isWord.placeholders isWord.needed solid here whole begins
      left right reads)
  unfold Ends at matched
  simp only [Ends, tryCandidate, Parsing.of, matched, isWord.accepts]
  rfl

section Several

variable {stop : Nat} {admissible : Definition → Bool}

/-- A candidate that nothing rules out is tried. -/
theorem ends_consider {result : Except Miss Node} (calm : c.cancellation = {}) (idle : c.trials = [])
    (all : ∀ d, admissible d = true)
    (tries : Ends (tryCandidate r read line start stop x) { c with tried := c.tried + 1 } result c') :
    Ends (consider r read line start stop admissible x) c (some result) c' := by
  have new : (!admissible x.definition || c.isTrying x.definition.id (stretchOf line start stop)) = false := by
    simp [all, Context.isTrying, idle]
  have asked : Ends Parsing.context c c c := rfl
  have counted : Ends (Parsing.change fun c => { c with tried := c.tried + 1 }) c ()
      { c with tried := c.tried + 1 } := rfl
  unfold consider
  refine (ends_checkCancelled_calm calm).bind (asked.bind ?_)
  rw [if_neg (by rw [new]; exact Bool.false_ne_true)]
  exact counted.bind (tries.bind rfl)

/-- **The one candidate that fits is found** among others that are turned down, in whatever order they are
tried. -/
theorem ends_tryCandidates_only {holds : Node → Prop} {candidates : List (Candidate × Nat)}
    (calm : c.cancellation = {}) (idle : c.trials = []) (all : ∀ d, admissible d = true)
    (among : x ∈ candidates.map Prod.fst)
    (fits : ∀ tried, ∃ node, holds node ∧
      Ends (tryCandidate r read line start stop x) { c with tried } (.ok node) { c with tried })
    (others : ∀ y ∈ candidates.map Prod.fst, y = x ∨
      ∀ d, ∃ miss, Ends (tryCandidate r read line start stop y) d (.error miss) d) :
    ∃ node attempts tried, holds node ∧ Ends (tryCandidates r read line start stop admissible candidates) c
      (some node, attempts) { c with tried } := by
  induction candidates generalizing c with
  | nil => cases among
  | cons first rest ih =>
    obtain ⟨y, rank⟩ := first
    rw [tryCandidates_cons]
    rcases others y List.mem_cons_self with rfl | turned
    · obtain ⟨node, good, found⟩ := fits (c.tried + 1)
      exact ⟨node, [], _, good, (ends_consider calm idle all found).bind rfl⟩
    · obtain ⟨miss, fails⟩ := turned { c with tried := c.tried + 1 }
      have later : x ∈ rest.map Prod.fst := by
        rcases List.mem_cons.1 among with rfl | later
        · obtain ⟨node, -, found⟩ := fits (c.tried + 1)
          cases (fails.unique found).1
        · exact later
      obtain ⟨node, attempts, tried, good, found⟩ := ih (c := { c with tried := c.tried + 1 }) calm idle later fits
        fun z mem => others z (List.mem_cons_of_mem _ mem)
      exact ⟨node, _, tried, good, (ends_consider calm idle all fails).bind (found.bind rfl)⟩

end Several

/-- A line that a node without variables is found on leaves little behind. -/
theorem parseLine_of_found {category : Category} {text : String} {node : Node} {attempts : List Attempt} {tried : Nat}
    (found : Ends (matchLine r (r.reader c.remainingDepth) category (Line.ofString text))
      { c with nearMisses := [], rejections := {} } (some node, attempts)
      { c with nearMisses := [], rejections := {}, tried })
    (readless : node.localReads = []) :
    r.parseLine category text c = (.ok node, { c with nearMisses := [], tried }) := by
  unfold Ends at found
  have quiet (c : Context) : warnUnset r [] c = c := by
    unfold warnUnset
    split
    · rfl
    · rfl
  simp only [Registry.parseLine, parseLineBy, found, lineResult, readless, quiet]

end Parse

namespace Registry
open Parse

variable {r : Registry} {category : Category} {x : Candidate} {letter : Char} {word : List Char} {p : Placeholder}
  {string : TypeId} {line : Line} {c : Context} {texts : List (List Char)}

/-- The candidate that is a word is accepted on a line of the word and literal strings. -/
theorem HasWord.ends_tryCandidate (has : r.HasWord category x letter word p)
    (reads : r.ReadsQuotes string (.ofPlaceholder p)) (levels : Nat) (calm : c.cancellation = {})
    (fresh : c.rejections = {}) (some_ : texts ≠ [])
    (here : line.Stands 0 ((letter :: word) ++ ' ' :: quotes texts))
    (whole : ((letter :: word) ++ ' ' :: quotes texts).length = line.size) :
    ∃ node, (x.Given texts node ∧ node.localReads = []) ∧
      Ends (tryCandidate r (r.reader (levels + 2)) line 0 line.size x) c (.ok node) c := by
  obtain ⟨separators, first⟩ := reads.separators
  have behind : line.Stands (0 + (letter :: word).length + 1) (quotes texts) := here.right.tail
  have rest : 0 + (letter :: word).length + 1 + (quotes texts).length = line.size := by
    rw [← whole, List.length_append, List.length_cons (a := ' ')]
    omega
  obtain ⟨argument, ends, strings, readless⟩ :=
    ends_reader_quotes (c := c.trying x.definition.id (stretchOf line 0 line.size)) reads.takes reads.several first
      levels calm fresh some_ (fun rest => literal?_unread (reads.unread rest) _) behind rest
  obtain ⟨text, texts, rfl⟩ := List.exists_cons_of_ne_nil some_
  obtain ⟨inner, shape⟩ := quotes_eq text texts
  rw [shape] at here whole
  refine ⟨_, ⟨⟨rfl, rfl, argument, rfl, strings⟩, ?_⟩, ends_tryCandidate_word has.isWord has.spaceless here
    (by rw [Nat.zero_add]; exact whole) (here.skipBlanks has.solid) (by decide) (by decide) ends⟩
  simp only [nodeOf, Node.localReads, readsOfArguments, readless, List.append_nil]

/-- **A line of a word and literal strings** is parsed as the syntax of the word with the strings as its argument,
and nothing is reported. -/
theorem HasWord.parseLine_quotes (has : r.HasWord category x letter word p)
    (reads : r.ReadsQuotes string (.ofPlaceholder p)) {levels : Nat} (deep : c.remainingDepth = levels + 2)
    (calm : c.cancellation = {}) (idle : c.trials = []) (some_ : texts ≠ []) :
    ∃ node tried, x.Given texts node ∧
      r.parseLine category (String.ofList ((letter :: word) ++ ' ' :: quotes texts)) c =
        (.ok node, { c with nearMisses := [], tried }) := by
  let chars := (letter :: word) ++ ' ' :: quotes texts
  let line := Line.ofList chars
  have here : line.Stands 0 chars := Line.stands_ofList chars
  have whole : chars.length = line.size := (Line.size_ofList chars).symm
  have others : ∀ y ∈ (r.candidates category).zipIdx.map Prod.fst, y = x ∨ ∀ d, ∃ miss,
      Ends (tryCandidate r (r.reader (levels + 2)) line 0 line.size y) d (.error miss) d := by
    intro y mem
    rw [List.zipIdx_map_fst] at mem
    rcases has.others y mem with same | other
    · exact .inl same
    · exact .inr (ends_tryCandidate_other other here has.solid)
  have among : x ∈ (r.candidates category).zipIdx.map Prod.fst := by
    rw [List.zipIdx_map_fst]
    exact has.among
  obtain ⟨node, attempts, tried, ⟨given, readless⟩, found⟩ :=
    ends_tryCandidates_only (c := { c with nearMisses := [], rejections := {} }) calm idle (fun _ => rfl) among
      (fun tried => has.ends_tryCandidate (c := { c with nearMisses := [], rejections := {}, tried }) reads levels
        calm rfl some_ here whole) others
  have trimmed : line.trimmed 0 line.size = (0, line.size) := by
    obtain ⟨inner, shape⟩ := quotes_behind some_ letter word
    have shape : chars = letter :: inner ++ ['"'] := shape
    rw [shape] at here whole
    have trimmed := here.trimmed (by decide) (Line.Stands.skipBlanks here has.solid)
    rwa [Nat.zero_add, whole] at trimmed
  have some_ : 0 < line.size := here.lt_size
  have same : Line.ofString (String.ofList chars) = line := by
    rw [Line.ofString, String.toList_ofList]
  have matched : Ends (matchLine r (r.reader c.remainingDepth) category (Line.ofString (String.ofList chars)))
      { c with nearMisses := [], rejections := {} } (some node, attempts)
      { c with nearMisses := [], rejections := {}, tried } := by
    unfold matchLine
    rw [deep, same, trimmed]
    dsimp only
    rw [if_pos some_]
    exact found
  exact ⟨node, tried, given, parseLine_of_found matched readless⟩

end Registry

end Phrasebook
