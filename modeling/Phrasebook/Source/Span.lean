/-!
# Places in a source

Lines and columns count from one and stop at the greatest number of thirty-two bits; the start and end
of a span are offsets in bytes from the start of the text that was parsed.
-/

namespace Phrasebook

/-- The greatest line or column number. -/
def greatestPosition : Nat := UInt32.size - 1

/-- A stretch of a line. -/
structure Span where
  start : Nat
  stop : Nat
  line : Nat
  column : Nat
deriving DecidableEq, Repr, Inhabited

namespace Span

/-- The span of `start` to `stop` in a text that begins at a column of a line. -/
def withinLine (line column start stop : Nat) : Span where
  start := start
  stop := stop
  line := line
  column := min greatestPosition (column + min greatestPosition start)

/-- From the start of one span to the end of another. -/
def through (a b : Span) : Span :=
  { a with stop := b.stop }

/-- The number of bytes. -/
def length (s : Span) : Nat :=
  s.stop - s.start

/-- The span covers no byte. -/
def isEmpty (s : Span) : Bool :=
  s.start == s.stop

/-- The characters of a text that begin within the span, which starts and ends between characters. -/
def text (s : Span) (source : List Char) : List Char :=
  go 0 source
where
  go (at_ : Nat) : List Char → List Char
    | [] => []
    | c :: rest =>
      if s.stop ≤ at_ then []
      else if s.start ≤ at_ then c :: go (at_ + c.utf8Size) rest
      else go (at_ + c.utf8Size) rest

end Span

end Phrasebook
