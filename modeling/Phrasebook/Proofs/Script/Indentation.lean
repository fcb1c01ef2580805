import Phrasebook.Proofs.Script.Verdict

/-!
# What the indentation says

Which row belongs to the block of which header is said by the indentations of the rows alone: a row belongs to
the last header before it which it is indented more than, as are all rows between. Only headers that are well
indented themselves count, and all rows of a block are indented as its first. `Nested` says which statements
these blocks make of the rows that were accepted, and leaves no choice (`Nested.unique`).
-/

namespace Phrasebook.Script

section Rows

variable (rows : List Row)

/-- The indentation of a row. -/
def indentAt (i : Nat) : Nat :=
  (rows[i]?.map Row.indent).getD 0

/-- A row ends in a colon. -/
def IsHeader (i : Nat) : Prop :=
  ∃ row header, rows[i]? = some row ∧ row.header? = some header

/-- All rows between two are indented more than the first. -/
def Clear (i j : Nat) : Prop :=
  i < j ∧ ∀ k, i < k → k < j → indentAt rows i < indentAt rows k

/-- A later row is indented more than a row, and so are all rows between them. -/
def Around (i j : Nat) : Prop :=
  Clear rows i j ∧ indentAt rows i < indentAt rows j

/-- A row is well indented: it stands at the margin if it is in no block, and else it is indented as the first
row in the innermost block around it. A block has a header that is well indented. -/
def WellIndented (j : Nat) : Prop :=
  ((∀ i, (_ : i < j) → IsHeader rows i → WellIndented i → ¬ Around rows i j) ∧ indentAt rows j = 0) ∨
    ∃ i, ∃ _ : i < j, (IsHeader rows i ∧ WellIndented i ∧ Around rows i j ∧
      ∀ i', (_ : i' < j) → IsHeader rows i' → WellIndented i' → Around rows i' j → i' ≤ i) ∧
        indentAt rows j = indentAt rows (i + 1)
termination_by j

/-- A row opens a block. -/
def IsBlock (i : Nat) : Prop :=
  IsHeader rows i ∧ WellIndented rows i

/-- The innermost block around a row, if there is one. -/
def ParentIs : Option Nat → Nat → Prop
  | none, j => ∀ i, IsBlock rows i → ¬ Around rows i j
  | some i, j => IsBlock rows i ∧ Around rows i j ∧
      ∀ i', IsBlock rows i' → Around rows i' j → i' ≤ i

/-- The indentation that is expected of a row. -/
def Expects (j e : Nat) : Prop :=
  (ParentIs rows none j ∧ e = 0) ∨ ∃ i, ParentIs rows (some i) j ∧ e = indentAt rows (i + 1)

end Rows

variable {rows : List Row}

theorem Around.lt {i j : Nat} (h : Around rows i j) : i < j := h.1.1

theorem Clear.around {i j k : Nat} (h : Clear rows i k) (lt : i < j) (lt' : j < k) : Around rows i j :=
  ⟨⟨lt, fun m above below => h.2 m above (Nat.lt_trans below lt')⟩, h.2 j lt lt'⟩

/-- A block that lasts up to a row, or is the row itself, lasts up to the next one. -/
theorem clear_succ {i n : Nat} : Clear rows i (n + 1) ↔ Around rows i n ∨ i = n := by
  constructor
  · intro h
    by_cases last : i = n
    · exact .inr last
    · have lt := h.1
      exact .inl (h.around (by omega) (Nat.lt_succ_self n))
  · rintro (h | rfl)
    · refine ⟨Nat.lt_succ_of_lt h.lt, fun k above below => ?_⟩
      by_cases last : k = n
      · rw [last]
        exact h.2
      · exact h.1.2 k above (by omega)
    · exact ⟨Nat.lt_succ_self i, fun k above below => by omega⟩

/-- What is around a row with blocks is around the rows in these blocks. -/
theorem Around.clear {i j n : Nat} (h : Around rows i j) (h' : Clear rows j n) : Clear rows i n := by
  refine ⟨Nat.lt_trans h.lt h'.1, fun k above below => ?_⟩
  rcases Nat.lt_trichotomy k j with before | rfl | after
  · exact h.1.2 k above before
  · exact h.2
  · exact Nat.lt_trans h.2 (h'.2 k after below)

/-- A row is around no row from the first on that is not indented more. -/
theorem not_around_of_le {i n j : Nat} (lt : i < n) (outside : indentAt rows n ≤ indentAt rows i)
    (le : n ≤ j) : ¬ Around rows i j := by
  intro h
  rcases Nat.eq_or_lt_of_le le with rfl | after
  · exact Nat.not_lt.2 outside h.2
  · exact Nat.not_lt.2 outside (h.1.2 n lt after)

theorem ParentIs.unique {p p' : Option Nat} {j : Nat} (h : ParentIs rows p j)
    (h' : ParentIs rows p' j) : p = p' := by
  cases p with
  | none =>
    cases p' with
    | none => rfl
    | some i => exact absurd h'.2.1 (h i h'.1)
  | some i =>
    cases p' with
    | none => exact absurd h.2.1 (h' i h.1)
    | some i' => rw [Nat.le_antisymm (h'.2.2 i h.1 h.2.1) (h.2.2 i' h'.1 h'.2.1)]

/-- **A row is well indented if it is indented as is expected.** -/
theorem wellIndented_iff {j : Nat} : WellIndented rows j ↔ Expects rows j (indentAt rows j) := by
  rw [WellIndented]
  refine or_congr (and_congr_left' ?_) (exists_congr fun i => ?_)
  · constructor
    · intro h i block around
      exact h i around.lt block.1 block.2 around
    · intro h i _ header well
      exact h i ⟨header, well⟩
  · constructor
    · rintro ⟨lt, ⟨header, well, around, last⟩, same⟩
      exact ⟨⟨⟨header, well⟩, around, fun i' block within =>
        last i' within.lt block.1 block.2 within⟩, same⟩
    · rintro ⟨⟨block, around, last⟩, same⟩
      exact ⟨around.lt, ⟨block.1, block.2, around, fun i' _ header well => last i' ⟨header, well⟩⟩, same⟩

/-- The blocks around a row, innermost first, start with its parent. -/
theorem parentIs_head? {blocks : List Nat} {j : Nat} (sorted : blocks.Pairwise (· > ·))
    (mem : ∀ i, i ∈ blocks ↔ IsBlock rows i ∧ Around rows i j) : ParentIs rows blocks.head? j := by
  cases blocks with
  | nil =>
    intro i block around
    exact List.not_mem_nil ((mem i).2 ⟨block, around⟩)
  | cons i rest =>
    have first := (mem i).1 List.mem_cons_self
    refine ⟨first.1, first.2, fun i' block around => ?_⟩
    rcases List.mem_cons.1 ((mem i').2 ⟨block, around⟩) with rfl | later
    · exact Nat.le_refl i'
    · exact Nat.le_of_lt (List.rel_of_pairwise_cons sorted later)

/-- Some indentation is expected of every row with blocks around it, and only one. -/
theorem Expects.unique {j e e' : Nat} (h : Expects rows j e) (h' : Expects rows j e') : e = e' := by
  rcases h with ⟨parent, rfl⟩ | ⟨i, parent, rfl⟩ <;> rcases h' with ⟨parent', rfl⟩ | ⟨i', parent', rfl⟩
  · rfl
  · cases parent.unique parent'
  · cases parent.unique parent'
  · cases parent.unique parent'
    rfl

/-- The node of a row, if it was accepted. -/
def nodeAt (judged : List Judgement) (i : Nat) : Option Node :=
  judged[i]?.bind fun j => j.verdict.node?

/-- Statements are what the indentation makes of the rows before one: one statement for each row that was
accepted and whose innermost block is the one of `parent` (the margin if there is none), in the order of the
rows. The statements in it are those of the rows whose innermost block it is, up to the last row. -/
inductive Nested (judged : List Judgement) : (parent : Option Nat) → Nat → List Statement → Prop where
  | none (parent) : Nested judged parent 0 []
  | skip {parent n statements} : Nested judged parent n statements →
    (ParentIs (judged.map Judgement.row) parent n → nodeAt judged n = none) →
      Nested judged parent (n + 1) statements
  | row {parent n statements node children} : Nested judged parent n statements →
    ParentIs (judged.map Judgement.row) parent n → nodeAt judged n = some node →
      Nested judged (some n) judged.length children →
        Nested judged parent (n + 1) (statements ++ [⟨node, children⟩])

/-- The indentation leaves no choice. -/
theorem Nested.unique {judged : List Judgement} {parent : Option Nat} {n : Nat}
    {statements statements' : List Statement} (h : Nested judged parent n statements)
    (h' : Nested judged parent n statements') : statements = statements' := by
  induction h generalizing statements' with
  | none =>
    cases h'
    rfl
  | skip _ rejected ih =>
    cases h' with
    | skip before _ => exact ih before
    | row _ within accepted _ =>
      rw [rejected within] at accepted
      cases accepted
  | row _ within accepted _ before_ih children_ih =>
    cases h' with
    | skip _ rejected =>
      rw [rejected within] at accepted
      cases accepted
    | row before _ accepted' children =>
      cases accepted.symm.trans accepted'
      rw [before_ih before, children_ih children]

/-- Rows that are not in a block do not matter for it. -/
theorem Nested.extend {judged : List Judgement} {parent : Option Nat} {m n : Nat}
    {statements : List Statement} (h : Nested judged parent m statements) (le : m ≤ n)
    (others : ∀ j, m ≤ j → j < n → ¬ ParentIs (judged.map Judgement.row) parent j) :
    Nested judged parent n statements := by
  induction le with
  | refl => exact h
  | @step n le ih =>
    refine (ih fun j above below => others j above (Nat.lt_succ_of_lt below)).skip fun within => ?_
    exact absurd within (others n le (Nat.lt_succ_self n))

/-- No row is in the block of one that opens none. -/
theorem nested_nil {judged : List Judgement} {parent : Option Nat} {n : Nat}
    (others : ∀ j, j < n → ¬ ParentIs (judged.map Judgement.row) parent j) :
    Nested judged parent n [] :=
  Nested.extend (.none parent) (Nat.zero_le n) fun j _ below => others j below

end Phrasebook.Script
