import Phrasebook.Proofs.Script.Indentation

/-!
# The blocks around a row

What the indentation of the rows says can be computed row by row: whether a row opens a block depends only on the
blocks that the rows before it have opened. So there is a list of the blocks around a row, and the last of them is
its parent. What a row sets is in force as long as its parent lasts.
-/

namespace Phrasebook.Script

section Compute

variable (rows : List Row)

instance : DecidablePred (IsHeader rows) := fun i =>
  decidable_of_iff ((rows[i]?.bind Row.header?).isSome = true) <| by
    rw [Option.isSome_iff_exists]
    constructor
    · rintro ⟨header, found⟩
      obtain ⟨row, here, isHeader⟩ := Option.bind_eq_some_iff.1 found
      exact ⟨row, header, here, isHeader⟩
    · rintro ⟨row, header, here, isHeader⟩
      exact ⟨header, Option.bind_eq_some_iff.2 ⟨row, here, isHeader⟩⟩

instance (i j : Nat) : Decidable (Clear rows i j) :=
  decidable_of_iff (i < j ∧ ∀ k < j, i < k → indentAt rows i < indentAt rows k) <|
    and_congr_right fun _ => forall_congr' fun _ => forall_comm

instance (i j : Nat) : Decidable (Around rows i j) :=
  inferInstanceAs (Decidable (Clear rows i j ∧ indentAt rows i < indentAt rows j))

/-- The indentation that is expected of a row among some blocks. -/
def expectedIn (blocks : List Nat) (j : Nat) : Nat :=
  match (blocks.filter fun i => Around rows i j).getLast? with
  | none => 0
  | some i => indentAt rows (i + 1)

/-- The blocks that the first rows open. -/
def blocksBefore : Nat → List Nat
  | 0 => []
  | n + 1 =>
    if IsHeader rows n ∧ indentAt rows n = expectedIn rows (blocksBefore n) n then blocksBefore n ++ [n]
    else blocksBefore n

end Compute

section Blocks

variable {rows : List Row} {i j n : Nat}

/-- The blocks around a row, in order, end with its parent. -/
theorem parentIs_getLast? {blocks : List Nat} (sorted : blocks.Pairwise (· < ·))
    (mem : ∀ i, i ∈ blocks ↔ IsBlock rows i ∧ Around rows i j) : ParentIs rows blocks.getLast? j := by
  have parent : ParentIs rows blocks.reverse.head? j :=
    parentIs_head? (List.pairwise_reverse.2 sorted) fun i => by rw [List.mem_reverse, mem]
  rwa [List.head?_reverse] at parent

/-- A row is indented as is expected of it among the blocks around it if it is well indented. -/
theorem wellIndented_iff_expectedIn {blocks : List Nat} (sorted : blocks.Pairwise (· < ·))
    (mem : ∀ i, i ∈ blocks ↔ IsBlock rows i ∧ i < j) :
    WellIndented rows j ↔ indentAt rows j = expectedIn rows blocks j := by
  have parent : ParentIs rows (blocks.filter fun i => Around rows i j).getLast? j := by
    refine parentIs_getLast? (sorted.filter _) fun i => ?_
    rw [List.mem_filter, mem, decide_eq_true_eq]
    exact ⟨fun ⟨⟨block, _⟩, around⟩ => ⟨block, around⟩, fun ⟨block, around⟩ => ⟨⟨block, around.lt⟩, around⟩⟩
  rw [wellIndented_iff, expectedIn]
  generalize (blocks.filter fun i => Around rows i j).getLast? = p at parent
  cases p with
  | none =>
    constructor
    · intro expects
      exact expects.unique (.inl ⟨parent, rfl⟩)
    · exact fun same => .inl ⟨parent, same⟩
  | some i =>
    constructor
    · intro expects
      exact expects.unique (.inr ⟨i, parent, rfl⟩)
    · exact fun same => .inr ⟨i, parent, same⟩

theorem blocksBefore_spec (rows : List Row) (n : Nat) : (blocksBefore rows n).Pairwise (· < ·) ∧
    ∀ i, i ∈ blocksBefore rows n ↔ IsBlock rows i ∧ i < n := by
  induction n with
  | zero => exact ⟨.nil, fun i => by simp [blocksBefore]⟩
  | succ n ih =>
    obtain ⟨sorted, mem⟩ := ih
    have block : IsBlock rows n ↔
        IsHeader rows n ∧ indentAt rows n = expectedIn rows (blocksBefore rows n) n :=
      and_congr_right fun _ => wellIndented_iff_expectedIn sorted mem
    rw [blocksBefore]
    by_cases here : IsBlock rows n
    · rw [if_pos (block.1 here)]
      constructor
      · refine List.pairwise_append.2 ⟨sorted, List.pairwise_singleton _ _, fun i first j last => ?_⟩
        rw [List.mem_singleton.1 last]
        exact ((mem i).1 first).2
      · intro i
        rw [List.mem_append, mem, List.mem_singleton]
        constructor
        · rintro (⟨block, before⟩ | rfl)
          · exact ⟨block, Nat.lt_succ_of_lt before⟩
          · exact ⟨here, Nat.lt_succ_self i⟩
        · rintro ⟨block, before⟩
          rcases Nat.lt_succ_iff_lt_or_eq.1 before with before | rfl
          · exact .inl ⟨block, before⟩
          · exact .inr rfl
    · rw [if_neg fun holds => here (block.2 holds)]
      refine ⟨sorted, fun i => ?_⟩
      rw [mem]
      refine and_congr_right fun isBlock => ⟨Nat.lt_succ_of_lt, fun before => ?_⟩
      rcases Nat.lt_succ_iff_lt_or_eq.1 before with before | rfl
      · exact before
      · exact absurd isBlock here

/-- Whether a row opens a block is computed from the rows before it. -/
instance (rows : List Row) : DecidablePred (IsBlock rows) := fun i =>
  decidable_of_iff (i ∈ blocksBefore rows (i + 1)) <| by
    rw [(blocksBefore_spec rows (i + 1)).2]
    exact and_iff_left (Nat.lt_succ_self i)

/-- The blocks around a row, from the outside in. -/
def blocksAround (rows : List Row) (n : Nat) : List Nat :=
  (List.range n).filter fun i => IsBlock rows i ∧ Around rows i n

theorem mem_blocksAround : i ∈ blocksAround rows n ↔ IsBlock rows i ∧ Around rows i n := by
  rw [blocksAround, List.mem_filter, List.mem_range, decide_eq_true_eq]
  exact ⟨And.right, fun h => ⟨h.2.lt, h⟩⟩

theorem sorted_blocksAround (rows : List Row) (n : Nat) : (blocksAround rows n).Pairwise (· < ·) :=
  List.pairwise_lt_range.filter _

/-- The last block around a row is its parent, and there is no other. -/
theorem parentIs_iff {p : Option Nat} : ParentIs rows p n ↔ (blocksAround rows n).getLast? = p := by
  have parent : ParentIs rows (blocksAround rows n).getLast? n :=
    parentIs_getLast? (sorted_blocksAround rows n) fun i => mem_blocksAround
  constructor
  · exact parent.unique
  · rintro rfl
    exact parent

/-- What is set on a row is in force on a later one: the innermost block around the first, if there is one, is
around the later one. -/
def InForce (rows : List Row) (i j : Nat) : Prop :=
  i ≤ j ∧ ∀ b, ParentIs rows (some b) i → Around rows b j

instance (rows : List Row) (i j : Nat) : Decidable (InForce rows i j) :=
  decidable_of_iff (i ≤ j ∧ ∀ b ∈ (blocksAround rows i).getLast?, Around rows b j) <|
    and_congr_right fun _ => forall_congr' fun b => by rw [parentIs_iff]; rfl

/-- It is in force on a later row exactly if its parent is around that row, or it has none. -/
theorem inForce_iff {p : Option Nat} (parent : ParentIs rows p i) (le : i ≤ j) :
    InForce rows i j ↔ ∀ b ∈ p, Around rows b j := by
  constructor
  · rintro ⟨-, inside⟩ b rfl
    exact inside b parent
  · intro inside
    refine ⟨le, fun b isParent => inside b ?_⟩
    exact parent.unique isParent

end Blocks

end Phrasebook.Script
