import Mathlib.Data.List.Basic
import Phrasebook.Proofs.Parse.Stretch
import Phrasebook.Proofs.Text.Aligned

/-!
# The same list in two lines

A list falls apart at the same separators in two lines that hold the same text, so its items stand at
corresponding places.
-/

namespace Phrasebook.Parse
open Text Pattern

section Lists

variable {l l' : Line} {low low' start pos : Nat} (aligned : l.Aligned l' low low')

include aligned

theorem separatorAt?_shift (separators : List String) (hs : low ≤ start) (h : low ≤ pos) :
    separatorAt? l' (shift low low' start) (shift low low' pos) separators =
      (separatorAt? l start pos separators).map fun (sep, after) => (sep, shift low low' after) := by
  induction separators with
  | nil => rfl
  | cons sep rest ih =>
    have later : low ≤ l.skipBlanks pos := Nat.le_trans h (l.le_skipBlanks pos)
    have same : (shift low low' (l.skipBlanks pos) != shift low low' pos) = (l.skipBlanks pos != pos) := by
      rw [bne, bne, shift_beq later h]
    simp only [separatorAt?, aligned.isBoundary_shift h, aligned.matchLiteral_shift _ h,
      aligned.skipBlanks_shift h, shift_beq h hs, same, ih]
    split
    · rfl
    · cases found : l.matchLiteral pos sep.toList with
      | none => rfl
      | some after =>
        have behind : low ≤ after := Nat.le_trans later (Line.le_of_matchFrom found)
        simp only [Option.map_some, aligned.isBoundary_shift behind]
        split <;> rfl

end Lists

/-- An item of a list, read in the other line. -/
def shiftItem (low low' : Nat) (item : Nat × Nat) : Nat × Nat :=
  (shift low low' item.1, shift low low' item.2)

/-- What is known of a list, read in the other line. -/
def ListScan.shift (low low' : Nat) (s : ListScan) : ListScan :=
  { s with
    items := s.items.map (shiftItem low low')
    itemStart := Text.shift low low' s.itemStart }

theorem ListScan.next_shift (low low' : Nat) (s : ListScan) (c : Char) :
    (s.shift low low').next c = (s.next c).shift low low' := by
  simp only [next, apply_ite (ListScan.shift low low')]
  rfl

theorem ListScan.separate_shift (low low' : Nat) (s : ListScan) (pos : Nat) (sep : String) (after : Nat) :
    (s.shift low low').separate (Text.shift low low' pos) sep (Text.shift low low' after) =
      (s.separate pos sep after).shift low low' := by
  simp [separate, ListScan.shift, shiftItem]

/-- A character changes nothing about the item in which it stands. -/
theorem ListScan.itemStart_next (s : ListScan) (c : Char) : (s.next c).itemStart = s.itemStart := by
  simp only [next, apply_ite ListScan.itemStart, ite_self]

section Lists

variable {l l' : Line} {low low' start stop pos : Nat} (aligned : l.Aligned l' low low')

include aligned

theorem splitItems_shift (separators : List String) {s : ListScan} (hs : low ≤ s.itemStart)
    (h : low ≤ pos) :
    splitItems l' separators (s.shift low low') (shift low low' pos) =
      (splitItems l separators s pos).map (Prod.map (List.map (shiftItem low low')) id) := by
  have inside' {pos : Nat} (h : low ≤ pos) (inside : pos < l.chars.size) :
      ∃ inside' : shift low low' pos < l'.chars.size, l'.chars[shift low low' pos] = l.chars[pos] := by
    have less : shift low low' pos < l'.chars.size := (aligned.lt_size_iff h).2 inside
    have same := aligned.getElem?_shift h
    rw [Array.getElem?_eq_getElem inside, Array.getElem?_eq_getElem less] at same
    exact ⟨less, Option.some.inj same⟩
  have start' (s : ListScan) : (s.shift low low').itemStart = shift low low' s.itemStart := rfl
  have items' (s : ListScan) : (s.shift low low').items = s.items.map (shiftItem low low') := rfl
  have size' : l'.chars.size = shift low low' l.chars.size := aligned.size_shift
  have free' (s : ListScan) (c : Char) : (s.shift low low').isFree c = s.isFree c := rfl
  have slice' {start : Nat} (hs : low ≤ start) :
      l'.slice (shift low low' start) (shift low low' l.chars.size) = l.slice start l.chars.size :=
    aligned.slice_shift hs aligned.low_le
  fun_induction splitItems l separators s pos with
  | case1 s pos inside c s' free none ih =>
    obtain ⟨less, same⟩ := inside' h inside
    have hs' : low ≤ s'.itemStart := (s.itemStart_next c).symm ▸ hs
    rw [splitItems, dif_pos less]
    simp only [same, ListScan.next_shift]
    rw [free', if_pos free, start', separatorAt?_shift aligned separators hs' h, none]
    dsimp only [Option.map_none]
    rw [← shift_succ h, ih hs' (Nat.le_succ_of_le h)]
  | case2 s pos inside c s' free sep after found blank =>
    obtain ⟨less, same⟩ := inside' h inside
    have hs' : low ≤ s'.itemStart := (s.itemStart_next c).symm ▸ hs
    rw [splitItems, dif_pos less]
    simp only [same, ListScan.next_shift]
    rw [free', if_pos free, start', separatorAt?_shift aligned separators hs' h, found]
    dsimp only [Option.map_some]
    rw [aligned.slice_shift hs' h, if_pos blank]
    rfl
  | case3 s pos inside c s' free sep after found solid ih =>
    obtain ⟨less, same⟩ := inside' h inside
    have hs' : low ≤ s'.itemStart := (s.itemStart_next c).symm ▸ hs
    have behind : low ≤ after := Nat.le_trans h (le_of_separatorAt? found)
    rw [splitItems, dif_pos less]
    simp only [same, ListScan.next_shift]
    rw [free', if_pos free, start', separatorAt?_shift aligned separators hs' h, found]
    dsimp only [Option.map_some]
    rw [aligned.slice_shift hs' h, if_neg solid, ListScan.separate_shift, ← shift_succ h, ← shift_max,
      ih behind (by omega)]
  | case4 s pos inside c s' taken ih =>
    obtain ⟨less, same⟩ := inside' h inside
    have hs' : low ≤ s'.itemStart := (s.itemStart_next c).symm ▸ hs
    rw [splitItems, dif_pos less]
    simp only [same, ListScan.next_shift]
    rw [free', if_neg taken, ← shift_succ h, ih hs' (Nat.le_succ_of_le h)]
  | case5 s pos outside none =>
    have outside' : ¬ shift low low' pos < l'.chars.size := mt (aligned.lt_size_iff h).1 outside
    rw [splitItems, dif_neg outside']
    rw [items', start', size', slice' hs, List.isEmpty_map]
    rw [if_pos none]
    rfl
  | case6 s pos outside several =>
    have outside' : ¬ shift low low' pos < l'.chars.size := mt (aligned.lt_size_iff h).1 outside
    rw [splitItems, dif_neg outside']
    rw [items', start', size', slice' hs, List.isEmpty_map]
    rw [if_neg several]
    simp [ListScan.shift, shiftItem]

omit aligned in
/-- **A list has corresponding items** in lines that hold the same text. -/
theorem splitList?_shift (separators : List String)
    (aligned : (l.before stop).Aligned (l'.before (shift low low' stop)) low low') (hs : low ≤ start) :
    splitList? l' (shift low low' start) (shift low low' stop) separators =
      (splitList? l start stop separators).map (Prod.map (List.map (shiftItem low low')) id) :=
  splitItems_shift aligned separators (s := { itemStart := start }) hs hs

end Lists

end Phrasebook.Parse
