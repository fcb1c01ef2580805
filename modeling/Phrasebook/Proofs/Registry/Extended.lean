import Phrasebook.Proofs.Registry.Order

/-!
# Registering more definitions

Definitions that are registered after others leave those where they are: they come with the same numbers and in
the same order. In a category to which nothing is added the same patterns are tried in the same order, and where
all that is added ranks last, the patterns from before are tried first, in the same order.
-/

namespace List

/-- A stable sort sorts two lists one after the other, if no element of the second has to stand before one of the
first. -/
theorem mergeSort_append_of_le {α : Type} {le : α → α → Bool} {xs ys : List α}
    (trans : ∀ a b c, le a b = true → le b c = true → le a c = true)
    (total : ∀ a b, (le a b || le b a) = true) (ordered : ∀ x ∈ xs, ∀ y ∈ ys, le x y = true) :
    (xs ++ ys).mergeSort le = xs.mergeSort le ++ ys.mergeSort le := by
  induction xs with
  | nil => simp
  | cons a xs ih =>
    obtain ⟨before, behind, whole, others, less⟩ := mergeSort_cons trans total a (xs ++ ys)
    obtain ⟨before', behind', first, rest, less'⟩ := mergeSort_cons trans total a xs
    have same : before ++ behind = before' ++ (behind' ++ ys.mergeSort le) := by
      rw [← others, ih fun x mem => ordered x (mem_cons_of_mem a mem), rest, append_assoc]
    have above {before behind zs : List α} (sorted : zs.mergeSort le = before ++ a :: behind) :
        ∀ b ∈ behind, le a b = true := by
      have pairs := pairwise_mergeSort trans total zs
      rw [sorted] at pairs
      exact (pairwise_cons.1 (pairwise_append.1 pairs).2.1).1
    -- either way `a` stands behind what has to stand before it
    have higher : ∀ b ∈ behind' ++ ys.mergeSort le, le a b = true := by
      intro b mem
      rcases mem_append.1 mem with mem | mem
      · exact above first b mem
      · exact ordered a mem_cons_self b (mem_mergeSort.1 mem)
    have lower {zs : List α} (less : ∀ b ∈ zs, (!le a b) = true) : zs.filter (le a) = [] := by
      refine filter_eq_nil_iff.2 fun b mem => ?_
      have := less b mem
      simpa using this
    have filtered := congrArg (filter (le a)) same
    rw [filter_append, filter_append, lower less, lower less', filter_eq_self.2 (above whole),
      filter_eq_self.2 higher, nil_append, nil_append] at filtered
    rw [filtered, append_cancel_right_eq] at same
    rw [cons_append, whole, first, same, filtered, append_assoc, cons_append]

end List

namespace Phrasebook

/-- In a category, no pattern of a definition with one of the first numbers is tried after one of a definition
with another number. -/
def Registry.TriesFirst (r : Registry) (count : Nat) (category : Category) : Prop :=
  (r.candidates category).Pairwise fun x y => y.definition.id < count → x.definition.id < count

namespace RegistryBuilder

/-- Adds several definitions, one after the other. -/
def registerAll (b : RegistryBuilder) : List DefinitionSpec → Except Cause RegistryBuilder
  | [] => .ok b
  | spec :: rest => do
    let (b, _) ← b.register spec
    b.registerAll rest

/-- A builder has some definitions more than another, at the end, and nothing else. -/
structure Grows (b : RegistryBuilder) (added : List Definition) (b' : RegistryBuilder) : Prop where
  definitions : b'.definitions = b.definitions ++ added
  types : b'.types = b.types
  config : b'.config = b.config
  contextValues : b'.contextValues = b.contextValues
  id : ∀ d ∈ added, b.definitions.length ≤ d.id

/-- **Registering definitions adds them at the end**, each in its category. -/
theorem registerAll_grows {b b' : RegistryBuilder} {specs : List DefinitionSpec}
    (registers : b.registerAll specs = .ok b') :
    ∃ added, b.Grows added b' ∧ ∀ d ∈ added, ∃ spec ∈ specs, d.category = spec.category := by
  induction specs generalizing b with
  | nil =>
    cases registers
    exact ⟨[], ⟨(List.append_nil _).symm, rfl, rfl, rfl, nofun⟩, nofun⟩
  | cons spec specs ih =>
    obtain ⟨⟨b₁, id⟩, step, registers⟩ := bind_eq_ok registers
    obtain ⟨d, first⟩ := registered step
    obtain ⟨added, grows, kinds⟩ := ih registers
    refine ⟨d :: added, ⟨?_, grows.types.trans first.types, grows.config.trans first.config,
      grows.contextValues.trans first.contextValues, fun d' mem => ?_⟩, fun d' mem => ?_⟩
    · rw [grows.definitions, first.definitions, List.append_assoc, List.singleton_append]
    · rcases List.mem_cons.1 mem with rfl | mem
      · exact Nat.le_of_eq first.id.symm
      · have later := grows.id d' mem
        rw [first.definitions, List.length_append] at later
        omega
    · rcases List.mem_cons.1 mem with rfl | mem
      · exact ⟨spec, List.mem_cons_self, first.category⟩
      · obtain ⟨other, among, same⟩ := kinds d' mem
        exact ⟨other, List.mem_cons_of_mem spec among, same⟩

namespace Grows

variable {b b' : RegistryBuilder} {added : List Definition} (grows : b.Grows added b') {category : Category}

include grows

theorem patternsOf_append : b'.patternsOf category = b.patternsOf category ++ patternsIn added category := by
  simp only [patternsOf, patternsIn, grows.definitions, List.filter_append, List.flatMap_append]

/-- In a category to which nothing is added, the same patterns are tried. -/
theorem candidates_same (none : ∀ d ∈ added, d.category ≠ category) :
    b'.build.candidates category = b.build.candidates category := by
  have nothing : patternsIn added category = [] := by
    have others : (added.filter fun d => d.category == category) = [] :=
      List.filter_eq_nil_iff.2 fun d mem => by simpa using none d mem
    rw [patternsIn, others, List.flatMap_nil]
  rw [candidates_build, candidates_build, grows.patternsOf_append, nothing, List.append_nil]

/-- Where nothing that is added has to stand before a pattern from before, it is tried after these. -/
theorem candidates_append
    (ordered : ∀ x ∈ b.patternsOf category, ∀ y ∈ patternsIn added category, x.precedes y = true) :
    b'.build.candidates category =
      b.build.candidates category ++ (patternsIn added category).mergeSort Candidate.precedes := by
  rw [candidates_build, candidates_build, grows.patternsOf_append]
  exact List.mergeSort_append_of_le Candidate.precedes_trans Candidate.precedes_total ordered

theorem id_patternsIn {y : Candidate} (mem : y ∈ patternsIn added category) :
    b.definitions.length ≤ y.definition.id := by
  obtain ⟨d, among, inside⟩ := List.mem_flatMap.1 mem
  obtain ⟨_, -, rfl⟩ := List.mem_map.1 inside
  exact grows.id d (List.mem_filter.1 among).1

/-- **The patterns from before are tried first** where their ranks allow it, since those registered first stand
first among those of one rank. -/
theorem triesFirst_iff (numbered : Numbered b.definitions) :
    b'.build.TriesFirst b.definitions.length category ↔
      ∀ x ∈ b.patternsOf category, ∀ y ∈ patternsIn added category, x.precedes y = true := by
  have old {x : Candidate} (mem : x ∈ b.patternsOf category) : x.definition.id < b.definitions.length :=
    (List.getElem?_eq_some_iff.1 (mem_patternsOf numbered mem).definition).1
  constructor
  · intro first x memX y memY
    have new := grows.id_patternsIn memY
    have among {z : Candidate} (mem : z ∈ b.patternsOf category ++ patternsIn added category) :
        z ∈ (b'.patternsOf category).mergeSort Candidate.precedes := by
      rw [List.mem_mergeSort, grows.patternsOf_append]
      exact mem
    have sorted := List.pairwise_mergeSort Candidate.precedes_trans Candidate.precedes_total
      (b'.patternsOf category)
    rw [Registry.TriesFirst, candidates_build] at first
    have older := old memX
    obtain ⟨i, hi, rfl⟩ := List.getElem_of_mem (among (List.mem_append_left _ memX))
    obtain ⟨j, hj, rfl⟩ := List.getElem_of_mem (among (List.mem_append_right _ memY))
    rcases Nat.lt_trichotomy i j with less | rfl | less
    · exact List.pairwise_iff_getElem.1 sorted i j hi hj less
    · omega
    · have wrong := List.pairwise_iff_getElem.1 first j i hj hi less older
      omega
  · intro ordered
    rw [Registry.TriesFirst, grows.candidates_append ordered, candidates_build]
    have before {x : Candidate} (mem : x ∈ (b.patternsOf category).mergeSort Candidate.precedes) :
        x.definition.id < b.definitions.length := old (List.mem_mergeSort.1 mem)
    refine List.pairwise_append.2 ⟨?_, ?_, fun x memX _ _ _ => before memX⟩
    · exact List.pairwise_of_forall_mem_list fun x memX _ _ _ => before memX
    · refine List.pairwise_of_forall_mem_list fun _ _ y memY older => ?_
      have new := grows.id_patternsIn (List.mem_mergeSort.1 memY)
      omega

end Grows

end RegistryBuilder

end Phrasebook
