import Phrasebook.Proofs.Pattern.Compiled
import Phrasebook.Proofs.Pattern.Layout
import Phrasebook.Proofs.Text.Layout

/-!
# The literals of a pattern

A literal of a pattern is read letter by letter, and a run of blanks within it is one space. So its words stand
one space apart, unless the text of the pattern escapes a blank. The invariant, `Reading.Tidy`, holds of the open
groups while the tokens are read; `compile_spaced` is the result.
-/

namespace Phrasebook.Pattern
open Text

namespace Element

mutual

/-- The literals of an element, from left to right. -/
def literals : Element → List (List Char)
  | literal text => [text]
  | space | placeholder _ | regex _ => []
  | optional inner => inner.literals
  | choice branches => literalsOfBranches branches
  | sequence items => literalsOfItems items

/-- The literals of a sequence. -/
def literalsOfItems : List Element → List (List Char)
  | [] => []
  | e :: rest => e.literals ++ literalsOfItems rest

/-- The literals of the branches of a choice. -/
def literalsOfBranches : List (Label × Element) → List (List Char)
  | [] => []
  | (_, e) :: rest => e.literals ++ literalsOfBranches rest

end

@[simp] theorem literalsOfItems_append (a b : List Element) :
    literalsOfItems (a ++ b) = literalsOfItems a ++ literalsOfItems b := by
  induction a with
  | nil => rfl
  | cons e a ih => simp only [List.cons_append, literalsOfItems, ih, List.append_assoc]

@[simp] theorem literalsOfBranches_append (a b : List (Label × Element)) :
    literalsOfBranches (a ++ b) = literalsOfBranches a ++ literalsOfBranches b := by
  induction a with
  | nil => rfl
  | cons e a ih => simp only [List.cons_append, literalsOfBranches, ih, List.append_assoc]

theorem literals_ofBranches (branches : List (Label × Element)) :
    (ofBranches branches).literals = literalsOfBranches branches := by
  unfold ofBranches
  split
  · split <;> simp [literals, literalsOfBranches]
  · rw [literals]

mutual

/-- The literals in the code of an element are its own. -/
theorem mem_literals_of_lit_mem {text : List Char} {start : Nat} :
    (e : Element) → Instr.lit text ∈ e.code start → text ∈ e.literals
  | literal _, mem => by simpa [code, literals] using mem
  | space, mem | placeholder _, mem | regex _, mem => by simp [code] at mem
  | optional inner, mem => by
    have mem : Instr.lit text ∈ inner.code (start + 1) := by simpa [code] using mem
    exact mem_literals_of_lit_mem inner mem
  | choice branches, mem => by
    rw [code] at mem
    exact mem_literals_of_lit_mem_branches branches mem
  | sequence items, mem => by
    rw [code] at mem
    exact mem_literals_of_lit_mem_items items mem

theorem mem_literals_of_lit_mem_items {text : List Char} {start : Nat} :
    (items : List Element) → Instr.lit text ∈ itemsCode start items → text ∈ literalsOfItems items
  | [], mem => by simp [itemsCode] at mem
  | e :: rest, mem => by
    rw [itemsCode, List.mem_append] at mem
    rw [literalsOfItems, List.mem_append]
    rcases mem with mem | mem
    · exact .inl (mem_literals_of_lit_mem e mem)
    · exact .inr (mem_literals_of_lit_mem_items rest mem)

theorem mem_literals_of_lit_mem_branches {text : List Char} {start goal : Nat} :
    (branches : List (Label × Element)) → Instr.lit text ∈ branchesCode start goal branches →
      text ∈ literalsOfBranches branches
  | [], mem => by simp [branchesCode] at mem
  | [(label, e)], mem => by
    rw [branchesCode, List.mem_append] at mem
    rw [literalsOfBranches, List.mem_append]
    rcases mem with mem | mem
    · exact absurd mem (lit_notMem_label label)
    · exact .inl (mem_literals_of_lit_mem e mem)
  | (label, e) :: b :: rest, mem => by
    simp only [branchesCode, List.mem_cons, List.mem_append, reduceCtorEq, false_or] at mem
    rw [literalsOfBranches, List.mem_append]
    rcases mem with (mem | mem) | mem
    · exact absurd mem (lit_notMem_label label)
    · exact .inl (mem_literals_of_lit_mem e mem)
    · exact .inr (mem_literals_of_lit_mem_branches (b :: rest) mem)

end

end Element

open Element

namespace Branch

/-- What holds of a branch that is being read: words of its literals stand one space apart. -/
structure Tidy (b : Branch) : Prop where
  literal : SingleSpaced b.literal
  items : ∀ text ∈ literalsOfItems b.items, Spaced text

variable {b : Branch}

/-- A word boundary is no literal. -/
theorem literalsOfItems_gap (c : Prop) [Decidable c] : literalsOfItems (if c then [.space] else []) = [] := by
  split <;> rfl

theorem Tidy.addBlank (tidy : b.Tidy) : b.addBlank.Tidy := by
  unfold Branch.addBlank
  split
  · exact ⟨tidy.literal, tidy.items⟩
  · split
    · exact tidy
    next other => exact ⟨tidy.literal.append_space (by simpa using other), tidy.items⟩

theorem Tidy.addLetter {c : Char} (tidy : b.Tidy) (solid : isBlank c = false) : (b.addLetter c).Tidy :=
  ⟨tidy.literal.append_solid fun _ mem => not_isBlank_of_mem_lowerChar solid mem, tidy.items⟩

theorem Tidy.push {e : Element} (tidy : b.Tidy) (spaced : ∀ text ∈ e.literals, Spaced text) : (b.push e).Tidy := by
  refine ⟨tidy.literal, fun text mem => ?_⟩
  simp only [Branch.push, literalsOfItems_append, literalsOfItems_gap, literalsOfItems, List.append_nil,
    List.mem_append] at mem
  rcases mem with mem | mem
  · exact tidy.items text mem
  · exact spaced text mem

theorem Tidy.flush (tidy : b.Tidy) : b.flush.Tidy := by
  have empty : Tidy { b with literal := [] } := ⟨.nil, tidy.items⟩
  unfold Branch.flush
  dsimp only
  split
  · exact empty
  · have literal := empty.push (e := .literal (trimEnd b.literal)) fun text mem => by
      rw [List.mem_singleton.1 mem]
      exact tidy.literal.trimEnd
    exact ⟨literal.literal, literal.items⟩

theorem Tidy.finish (tidy : b.Tidy) : ∀ text ∈ b.finish.2.literals, Spaced text := by
  simpa [Branch.finish, literals, literalsOfItems_gap] using tidy.flush.items

end Branch

namespace Group

/-- What holds of an open group: words of its literals stand one space apart. -/
structure Tidy (g : Group) : Prop where
  done : ∀ text ∈ literalsOfBranches g.done, Spaced text
  branch : g.branch.Tidy

variable {g : Group}

theorem tidy_start (opener : Option (Bracket × Nat)) : (start opener).Tidy :=
  ⟨nofun, .nil, nofun⟩

theorem Tidy.branches (tidy : g.Tidy) : ∀ text ∈ literalsOfBranches g.branches, Spaced text := by
  intro text mem
  simp only [Group.branches, literalsOfBranches_append, literalsOfBranches, List.append_nil, List.mem_append] at mem
  rcases mem with mem | mem
  · exact tidy.done text mem
  · exact tidy.branch.finish text mem

theorem Tidy.change (tidy : g.Tidy) (blank : Bool) {f : Branch → Branch} (kept : (f g.branch).Tidy) :
    ((g.touched blank).onBranch f).Tidy :=
  ⟨tidy.done, kept⟩

theorem Tidy.nextBranch (tidy : g.Tidy) : (g.touched false).nextBranch.Tidy :=
  ⟨tidy.branches, .nil, nofun⟩

end Group

namespace Reading

/-- What holds while tokens are read. -/
structure Tidy (r : Reading) : Prop where
  group : r.group.Tidy
  outer : ∀ g ∈ r.outer, g.Tidy

variable {resolve : String → Option PatternType} {r r' : Reading}

theorem tidy_start : start.Tidy :=
  ⟨Group.tidy_start none, nofun⟩

theorem Tidy.onBranch (tidy : r.Tidy) (blank : Bool) {f : Branch → Branch} (kept : (f r.group.branch).Tidy) :
    (r.onBranch blank f).Tidy :=
  ⟨tidy.group.change blank kept, tidy.outer⟩

theorem Tidy.addCapture {offset stop : Nat} {kind : CaptureKind} {body : List Char} (tidy : r.Tidy)
    (h : r.addCapture resolve offset kind body stop = .ok r') : r'.Tidy := by
  have item (e : Element) (none : e.literals = []) :
      ((r.group.touched false).onBranch fun b => b.flush.push e).Tidy := by
    refine tidy.group.change false (tidy.group.branch.flush.push fun text mem => ?_)
    rw [none] at mem
    cases mem
  unfold Reading.addCapture at h
  split at h
  · cases h
  · cases kind with
    | placeholder =>
      dsimp only at h
      split at h
      · cases h
      next p _ =>
        cases h
        exact ⟨item (.placeholder p.index) rfl, tidy.outer⟩
    | regex =>
      dsimp only at h
      split at h
      · cases h
      · cases h
        exact ⟨item (.regex r.regexes.length) rfl, tidy.outer⟩

theorem Tidy.close {bracket : Bracket} {offset : Nat} (tidy : r.Tidy) (h : r.close bracket offset = .ok r') :
    r'.Tidy := by
  unfold Reading.close at h
  split at h
  next opened at_ parent outer _ around =>
    have parentTidy : parent.Tidy := tidy.outer parent (by simp [around])
    have others : ∀ g ∈ outer, g.Tidy := fun g inside => tidy.outer g (by simp [around, inside])
    -- a group that is not blank becomes an item of its parent
    have place (e : Element) (same : e.literals = literalsOfBranches r.group.branches) :
        ((parent.touched false).onBranch fun b => b.push e).Tidy :=
      parentTidy.change false (parentTidy.branch.push (same ▸ tidy.group.branches))
    dsimp only at h
    split at h
    · cases h
    split at h
    · split at h
      · cases h
        exact ⟨parentTidy.change false (f := id) parentTidy.branch, others⟩
      · cases h
    · cases bracket with
      | square =>
        cases h
        exact ⟨place _ (by rw [literals, literals_ofBranches]), others⟩
      | round =>
        cases h
        exact ⟨place _ (by rw [literals]), others⟩
  · cases h

/-- Every token keeps the invariant, unless it is an escaped blank. -/
theorem Tidy.next {t : Located} (tidy : r.Tidy) (solid : ∀ c, t.token = .letter c → isBlank c = false)
    (h : r.next resolve t = .ok r') : r'.Tidy := by
  unfold Reading.next at h
  split at h
  next => cases h; exact tidy.onBranch _ ⟨tidy.group.branch.literal, tidy.group.branch.items⟩
  next => cases h; exact tidy.onBranch _ tidy.group.branch.addBlank
  next c letter => cases h; exact tidy.onBranch _ (tidy.group.branch.addLetter (solid c letter))
  next => cases h; exact ⟨tidy.group.nextBranch, tidy.outer⟩
  next =>
    cases h
    refine ⟨Group.tidy_start _, fun g inside => ?_⟩
    rcases List.mem_cons.1 inside with rfl | inside
    · exact tidy.group.change _ tidy.group.branch.flush
    · exact tidy.outer g inside
  next => exact tidy.close h
  next => exact tidy.addCapture h
  next => split at h <;> cases h
  next => cases h

theorem Tidy.finish {root : Element} (tidy : r.Tidy) (h : r.finish = .ok root) :
    ∀ text ∈ root.literals, Spaced text := by
  unfold Reading.finish at h
  split at h
  · cases h
  · split at h
    · cases h
    · cases h
      rw [literals_ofBranches]
      exact tidy.group.branches

end Reading

/-- The tokens keep the invariant, if none is an escaped blank. -/
theorem Reading.Tidy.readAll {resolve : String → Option PatternType} {r r' : Reading} {ts : List Located}
    (tidy : r.Tidy) (solid : ∀ t ∈ ts, ∀ c, t.token = .letter c → isBlank c = false)
    (h : readAll resolve r ts = .ok r') : r'.Tidy := by
  induction ts generalizing r with
  | nil =>
    cases h
    exact tidy
  | cons t ts ih =>
    obtain ⟨next, step, h⟩ := readAll_cons h
    have kept := tidy.next (solid t List.mem_cons_self) step
    exact ih kept (fun t' mem => solid t' (List.mem_cons_of_mem t mem)) h

/-- A blank that is a letter of a literal, which only an escape makes of it. -/
def Token.isEscapedBlank : Token → Bool
  | .letter c => isBlank c
  | _ => false

/-- A blank of a pattern text is escaped. -/
def EscapesBlank (source : String) : Prop :=
  ∃ t ∈ tokens source, t.token.isEscapedBlank = true

instance (source : String) : Decidable (EscapesBlank source) :=
  inferInstanceAs (Decidable (∃ t ∈ tokens source, t.token.isEscapedBlank = true))

/-- **The words of every literal of a compiled pattern stand one space apart**, unless a blank is escaped. -/
theorem compile_spaced {resolve : String → Option PatternType} {source : String} {p : Pattern}
    (h : Pattern.compile resolve source = .ok p) (plain : ¬ EscapesBlank source) :
    ∀ text ∈ p.root.literals, Spaced text := by
  have solid : ∀ t ∈ tokens source, ∀ c, t.token = .letter c → isBlank c = false := by
    intro t mem c letter
    rw [Bool.eq_false_iff]
    exact fun blank => plain ⟨t, mem, by rw [letter]; exact blank⟩
  obtain ⟨reading, read, finish, -⟩ := compile_reads h
  exact (Reading.tidy_start.readAll solid read).finish finish

end Phrasebook.Pattern
