import Mathlib.Data.List.Sort
import Mathlib.Logic.Equiv.Defs
import Phrasebook.Proofs.Registry

/-!
# The order of registration

Definitions may be registered in one order or in another; they get other numbers then, and the patterns of a
category are found in another order. Where no two patterns of different definitions have the same priority and
the same number of required words, the order in which they are tried is the same nevertheless.
-/

namespace List

/-- What a stable sort of a list looks like: its tied elements are related as they were before. -/
theorem pairwise_mergeSort_of_ties {α : Type} {le : α → α → Bool} {R : α → α → Prop} {xs : List α}
    (trans : ∀ a b c, le a b = true → le b c = true → le a c = true)
    (total : ∀ a b, (le a b || le b a) = true)
    (ties : xs.Pairwise fun a b => le a b = true → le b a = true → R a b) :
    (xs.mergeSort le).Pairwise fun a b => le a b = true ∧ (le b a = true → R a b) := by
  rw [← mergeSort_zipIdx, pairwise_map]
  have distinct : ((xs.zipIdx).mergeSort (zipIdxLE le)).Pairwise fun x y => x.2 ≠ y.2 := by
    refine ((mergeSort_perm _ _).pairwise_iff fun different => different.symm).2 ?_
    refine pairwise_iff_getElem.2 fun i j _ _ less => ?_
    simp only [getElem_zipIdx]
    omega
  refine ((pairwise_mergeSort (zipIdxLE_trans trans) (zipIdxLE_total total) xs.zipIdx).and distinct).imp_of_mem ?_
  rintro ⟨a, i⟩ ⟨b, j⟩ memA memB ⟨before, different⟩
  have hereA := mem_zipIdx_iff_getElem?.1 (mem_mergeSort.1 memA)
  have hereB := mem_zipIdx_iff_getElem?.1 (mem_mergeSort.1 memB)
  simp only [zipIdxLE] at before hereA hereB different ⊢
  split at before
  next le₁ =>
    refine ⟨le₁, fun le₂ => ?_⟩
    rw [if_pos le₂, decide_eq_true_eq] at before
    obtain ⟨boundA, rfl⟩ := getElem?_eq_some_iff.1 hereA
    obtain ⟨boundB, rfl⟩ := getElem?_eq_some_iff.1 hereB
    exact pairwise_iff_getElem.1 ties i j boundA boundB (Nat.lt_of_le_of_ne before different) le₁ le₂
  next => cases before

/-- Lists that correspond element by element are sorted alike, if their elements compare alike. -/
theorem forall₂_mergeSort {α β : Type} {R : α → β → Prop} (le : α → α → Bool) (le' : β → β → Bool)
    {xs : List α} {ys : List β} (related : Forall₂ R xs ys)
    (same : ∀ a b a' b', R a a' → R b b' → le a b = le' a' b') :
    Forall₂ R (xs.mergeSort le) (ys.mergeSort le') := by
  obtain ⟨length, zipped⟩ := forall₂_iff_zip.1 related
  have sortedX := map_mergeSort (f := Prod.fst) (l := xs.zip ys) (r := fun x y => le x.1 y.1) (s := le)
    fun _ _ _ _ => rfl
  have sortedY := map_mergeSort (f := Prod.snd) (l := xs.zip ys) (r := fun x y => le x.1 y.1) (s := le')
    fun x memX y memY => same _ _ _ _ (zipped memX) (zipped memY)
  rw [map_fst_zip (Nat.le_of_eq length)] at sortedX
  rw [map_snd_zip (Nat.le_of_eq length.symm)] at sortedY
  rw [← sortedX, ← sortedY, forall₂_map_left_iff, forall₂_map_right_iff, forall₂_same]
  exact fun x mem => zipped (mem_mergeSort.1 mem)

/-- What corresponds to an element of the second list is one of the first. -/
theorem exists_of_mem_forall₂ {α β : Type} {R : α → β → Prop} {xs : List α} {ys : List β}
    (related : Forall₂ R xs ys) {y : β} (mem : y ∈ ys) : ∃ x ∈ xs, R x y := by
  induction related with
  | nil => cases mem
  | cons first _ ih =>
    rcases mem_cons.1 mem with rfl | mem
    · exact ⟨_, mem_cons_self, first⟩
    · obtain ⟨x, memX, related⟩ := ih mem
      exact ⟨x, mem_cons_of_mem _ memX, related⟩

end List

namespace Phrasebook

/-- One candidate may stand before another, and another before a third: then the first before the third. -/
theorem Candidate.precedes_trans (a b c : Candidate) (h : a.precedes b = true) (h' : b.precedes c = true) :
    a.precedes c = true := by
  simp only [precedes, Bool.or_eq_true, Bool.and_eq_true, decide_eq_true_eq, beq_iff_eq] at h h' ⊢
  omega

/-- Of two candidates one may stand before the other. -/
theorem Candidate.precedes_total (a b : Candidate) : (a.precedes b || b.precedes a) = true := by
  simp only [precedes, Bool.or_eq_true, Bool.and_eq_true, decide_eq_true_eq, beq_iff_eq]
  omega

/-- Two candidates cannot be told apart by priority and required words. -/
def Candidate.Ties (a b : Candidate) : Prop :=
  a.definition.priority = b.definition.priority ∧ a.pattern.specificity = b.pattern.specificity

theorem Candidate.ties_of_precedes {a b : Candidate} (h : a.precedes b = true) (h' : b.precedes a = true) :
    a.Ties b := by
  simp only [precedes, Bool.or_eq_true, Bool.and_eq_true, decide_eq_true_eq, beq_iff_eq] at h h'
  unfold Ties
  omega

/-- The patterns of a category of some definitions, in order. -/
def patternsIn (definitions : List Definition) (category : Category) : List Candidate :=
  (definitions.filter fun d => d.category == category).flatMap fun definition =>
    definition.patterns.zipIdx.map fun (pattern, patternIndex) => { definition, patternIndex, pattern }

/-- The patterns of one definition stand in their order, wherever those of others stand. -/
theorem pairwise_patternsIn {definitions : List Definition} (category : Category)
    (distinct : definitions.Pairwise fun d e => d.id ≠ e.id) :
    (patternsIn definitions category).Pairwise fun x y =>
      x.definition.id = y.definition.id → x.patternIndex ≤ y.patternIndex := by
  refine List.pairwise_flatMap.2 ⟨fun d _ => ?_, ?_⟩
  · rw [List.pairwise_map, List.pairwise_iff_getElem]
    intro i j hi hj less _
    simp only [List.getElem_zipIdx]
    omega
  · refine (distinct.filter _).imp fun {d e} different x memX y memY same => ?_
    obtain ⟨_, -, rfl⟩ := List.mem_map.1 memX
    obtain ⟨_, -, rfl⟩ := List.mem_map.1 memY
    exact absurd same different

/-- In each category, any two patterns of different definitions differ in priority or in the number of words
that they require. -/
def RegistryBuilder.RanksDiffer (b : RegistryBuilder) : Prop :=
  ∀ category, ∀ x ∈ b.patternsOf category, ∀ y ∈ b.patternsOf category,
    x.definition.id ≠ y.definition.id → ¬ x.Ties y

end Phrasebook
