import Phrasebook.Proofs.Pattern.Numbering

/-!
# Well-formed programs

The program of a pattern that compiles ends where it ends and nowhere else, every instruction leads to later ones, and
every number of a capture is taken by one instruction. `Within` says of the code of an element that it leads ahead and
no further than behind the element; `compile_wellFormed` is the result.
-/

namespace Phrasebook

namespace Pattern
open Text

namespace Instr

/-- Where an instruction leads that stands at some place. -/
def targets (pc : Nat) : Instr → List Nat
  | split prefer other => [prefer, other]
  | jump target => [target]
  | stop => []
  | lit _ | boundary | slot .. | regex .. | mark _ | tag _ => [pc + 1]

/-- The number of a capture of some kind that an instruction stands for. -/
def number? (kind : CaptureKind) (instr : Instr) : Option Nat :=
  instr.capture?.bind (CaptureId.number? kind)

theorem targets_withFollow (follow : Follow) (pc : Nat) (instr : Instr) :
    (instr.withFollow follow).targets pc = instr.targets pc := by
  cases instr <;> rfl

theorem withFollow_eq_stop {follow : Follow} {instr : Instr} : instr.withFollow follow = stop ↔ instr = stop := by
  cases instr <;> simp [withFollow]

theorem withFollow_eq_lit {follow : Follow} {instr : Instr} {text : List Char} :
    instr.withFollow follow = lit text ↔ instr = lit text := by
  cases instr <;> simp [withFollow]

end Instr

/-- None of some instructions, which stand one after the other from a place on, is the end, and all of them lead ahead
and to a limit at most. -/
def Within (limit : Nat) : Nat → List Instr → Prop
  | _, [] => True
  | start, instr :: rest =>
    (instr ≠ .stop ∧ ∀ target ∈ instr.targets start, start < target ∧ target ≤ limit) ∧ Within limit (start + 1) rest

section Within

variable {limit start : Nat} {code before behind : List Instr}

theorem within_append :
    Within limit start (before ++ behind) ↔
      Within limit start before ∧ Within limit (start + before.length) behind := by
  induction before generalizing start with
  | nil => simp [Within]
  | cons instr before ih =>
    rw [List.cons_append, Within, Within, ih, List.length_cons]
    rw [show start + 1 + before.length = start + (before.length + 1) by omega]
    exact and_assoc.symm

theorem within_cons {instr : Instr} :
    Within limit start (instr :: code) ↔
      (instr ≠ .stop ∧ ∀ target ∈ instr.targets start, start < target ∧ target ≤ limit) ∧
        Within limit (start + 1) code := Iff.rfl

/-- An instruction that leads to the next one. -/
theorem within_singleton {instr : Instr} (next : instr.targets start = [start + 1]) (bound : start + 1 ≤ limit) :
    Within limit start [instr] := by
  refine ⟨⟨fun stops => ?_, fun target leads => ?_⟩, trivial⟩
  · rw [stops] at next
    cases next
  · rw [next] at leads
    obtain rfl := List.mem_singleton.1 leads
    exact ⟨Nat.lt_succ_self start, bound⟩

theorem Within.getElem? {i : Nat} {instr : Instr} (within : Within limit start code) (found : code[i]? = some instr) :
    instr ≠ .stop ∧ ∀ target ∈ instr.targets (start + i), start + i < target ∧ target ≤ limit := by
  induction code generalizing start i with
  | nil => simp at found
  | cons first code ih =>
    cases i with
    | zero =>
      obtain rfl : first = instr := by simpa using found
      exact within.1
    | succ i =>
      rw [show start + (i + 1) = start + 1 + i by omega]
      exact ih within.2 (by simpa using found)

theorem within_label (label : Label) (bound : start + label.code.length ≤ limit) : Within limit start label.code := by
  obtain ⟨mark, tag⟩ := label
  cases mark with
  | none =>
    cases tag with
    | none => trivial
    | some => exact within_singleton rfl bound
  | some =>
    cases tag with
    | none => exact within_singleton rfl bound
    | some =>
      have bound : start + 2 ≤ limit := bound
      exact (@within_append limit start [_] [_]).2 ⟨within_singleton rfl (by omega), within_singleton rfl (by omega)⟩

end Within

namespace Element

mutual

/-- **The code of an element** leads ahead, and no further than behind the element. -/
theorem within_code {limit start : Nat} : (e : Element) → start + e.codeSize ≤ limit → Within limit start (e.code start)
  | .literal _, bound | .space, bound | .placeholder _, bound | .regex _, bound => within_singleton rfl bound
  | .optional inner, bound => by
    rw [codeSize] at bound
    rw [code, within_cons]
    refine ⟨⟨nofun, fun target leads => ?_⟩, within_code inner (by omega)⟩
    simp only [Instr.targets, List.mem_cons, List.not_mem_nil, or_false] at leads
    omega
  | .choice branches, bound => by
    rw [codeSize] at bound
    rw [code]
    exact within_branchesCode branches (Nat.le_refl _) bound
  | .sequence items, bound => by
    rw [codeSize] at bound
    rw [code]
    exact within_itemsCode items bound

theorem within_itemsCode {limit start : Nat} : (items : List Element) → start + itemsSize items ≤ limit →
    Within limit start (itemsCode start items)
  | [], _ => trivial
  | e :: rest, bound => by
    rw [itemsSize] at bound
    rw [itemsCode, within_append, length_code]
    exact ⟨within_code e (by omega), within_itemsCode rest (by omega)⟩

/-- The splits of a choice lead to its next branch, and the jumps behind it. -/
theorem within_branchesCode {limit start goal : Nat} : (branches : List (Label × Element)) →
    start + branchesSize branches ≤ goal → goal ≤ limit → Within limit start (branchesCode start goal branches)
  | [], _, _ => trivial
  | [(label, e)], before, bound => by
    rw [branchesSize] at before
    rw [branchesCode, within_append]
    exact ⟨within_label label (by omega), within_code e (by omega)⟩
  | (label, e) :: b :: rest, before, bound => by
    simp only [branchesSize] at before
    have others := @within_branchesCode limit (start + label.code.length + e.codeSize + 2) goal (b :: rest)
      (by omega) bound
    simp only [branchesCode, List.cons_append, within_cons, within_append, length_code, List.length_append]
    refine ⟨⟨nofun, fun target leads => ?_⟩, ⟨within_label label (by omega), within_code e (by omega)⟩,
      ⟨nofun, fun target leads => ?_⟩, ?_⟩
    · simp only [Instr.targets, List.mem_cons, List.not_mem_nil, or_false] at leads
      omega
    · simp only [Instr.targets, List.mem_cons, List.not_mem_nil, or_false] at leads
      omega
    · rwa [show start + 1 + (label.code.length + e.codeSize) + 1 = start + label.code.length + e.codeSize + 2 by omega]

end

end Element

/-- How many captures of a kind a pattern has. -/
def count (p : Pattern) : CaptureKind → Nat
  | .placeholder => p.placeholders.length
  | .regex => p.regexes.length

/-- What the program of a pattern keeps to: it ends with the end, which stands nowhere else; every instruction leads
ahead, and to the end at most; the captures of each kind have all their numbers in the order of the program, each of
them once; and no literal is empty. -/
structure WellFormed (p : Pattern) : Prop where
  ends : p.program.back? = some .stop
  once : ∀ pc, p.program[pc]? = some .stop → pc + 1 = p.program.size
  forward : ∀ pc instr, p.program[pc]? = some instr →
    ∀ target ∈ instr.targets pc, pc < target ∧ target < p.program.size
  numbered : ∀ kind, p.program.toList.filterMap (Instr.number? kind) = List.range (p.count kind)
  literals : ∀ text, Instr.lit text ∈ p.program → text ≠ []

variable {resolve : String → Option PatternType} {source : String} {p : Pattern}

/-- The instructions of a program: those of its tree, each with what may follow it, and the end. -/
theorem getElem?_program (h : compile resolve source = .ok p) (pc : Nat) :
    p.program[pc]? =
      (plainCode p.root)[pc]?.map (Instr.withFollow (followAt (plainCode p.root) (pc + 1))) := by
  rw [(compile_sound h).program, List.getElem?_toArray, getElem?_programOf]

theorem size_program (h : compile resolve source = .ok p) : p.program.size = p.root.codeSize + 1 := by
  have same (pc : Nat) : p.program.size ≤ pc ↔ (plainCode p.root).length ≤ pc := by
    rw [← Array.getElem?_eq_none_iff, ← List.getElem?_eq_none_iff, getElem?_program h, Option.map_eq_none_iff]
  have size : p.program.size = (plainCode p.root).length := by
    have := same p.program.size
    have := same (plainCode p.root).length
    omega
  rw [size, plainCode, List.length_append, Element.length_code]
  rfl

/-- An instruction of a program is the end, or one of the tree with what may follow it. -/
theorem program_cases (h : compile resolve source = .ok p) {pc : Nat} {instr : Instr}
    (found : p.program[pc]? = some instr) :
    (pc = p.root.codeSize ∧ instr = .stop) ∨
      ∃ plain follow, (p.root.code 0)[pc]? = some plain ∧ instr = plain.withFollow follow := by
  rw [getElem?_program h] at found
  obtain ⟨plain, there, rfl⟩ := Option.map_eq_some_iff.1 found
  rw [plainCode, List.getElem?_append, Element.length_code] at there
  split at there
  · exact .inr ⟨plain, _, there, rfl⟩
  · cases place : pc - p.root.codeSize with
    | zero =>
      obtain rfl : plain = .stop := by simpa [place] using there.symm
      exact .inl ⟨by omega, rfl⟩
    | succ => simp [place] at there

/-- The captures of each kind have all their numbers in the order of the program. -/
theorem numbered_compile (h : compile resolve source = .ok p) (kind : CaptureKind) :
    p.program.toList.filterMap (Instr.number? kind) = List.range (p.count kind) := by
  obtain ⟨reading, read, -, parts⟩ := compile_reads h
  have counts := (Reading.apart_start.readAll (tokens_chain source) read).counts kind
  have same : reading.count kind = p.count kind := by
    rw [parts]
    cases kind <;> rfl
  have numbers : p.program.toList.filterMap (Instr.number? kind) =
      (p.program.toList.filterMap Instr.capture?).filterMap (CaptureId.number? kind) := by
    rw [List.filterMap_filterMap]
    rfl
  rw [numbers, (compile_inTextOrder h).program, filterMap_numbered, ← same, ← counts, List.count_filterMap,
    List.range_eq_range']
  rfl

/-- **The program of a pattern that compiles is well-formed.** -/
theorem compile_wellFormed (h : compile resolve source = .ok p) : p.WellFormed := by
  have size := size_program h
  have within : Within p.root.codeSize 0 (p.root.code 0) :=
    Element.within_code p.root (Nat.le_of_eq (Nat.zero_add _))
  refine ⟨?_, fun pc found => ?_, fun pc instr found target leads => ?_, numbered_compile h, fun text mem => ?_⟩
  · rw [Array.back?_eq_getElem?, size, getElem?_program h, Nat.add_sub_cancel, plainCode_stop]
    rfl
  · rcases program_cases h found with ⟨rfl, -⟩ | ⟨plain, follow, there, stops⟩
    · exact size.symm
    · exact absurd (Instr.withFollow_eq_stop.1 stops.symm) (within.getElem? there).1
  · rcases program_cases h found with ⟨-, rfl⟩ | ⟨plain, follow, there, rfl⟩
    · cases leads
    · rw [Instr.targets_withFollow] at leads
      have bounds := (within.getElem? there).2 target (by rwa [Nat.zero_add])
      omega
  · obtain ⟨pc, inside, found⟩ := Array.mem_iff_getElem.1 mem
    have found : p.program[pc]? = some (.lit text) := Array.getElem?_eq_some_iff.2 ⟨inside, found⟩
    rcases program_cases h found with ⟨-, stops⟩ | ⟨plain, follow, there, same⟩
    · cases stops
    · rw [Instr.withFollow_eq_lit.1 same.symm] at there
      exact Element.ne_nil_of_lit_mem p.root (compile_sound h).wellFormed (List.mem_of_getElem? there)

/-- The number of a capture of a well-formed program is that of a capture of the pattern. -/
theorem WellFormed.number_lt (wellFormed : p.WellFormed) {kind : CaptureKind} {pc index : Nat} {instr : Instr}
    (found : p.program[pc]? = some instr) (number : instr.number? kind = some index) : index < p.count kind := by
  have mem : index ∈ p.program.toList.filterMap (Instr.number? kind) :=
    List.mem_filterMap.2 ⟨instr, List.mem_of_getElem? (by rwa [Array.getElem?_toList]), number⟩
  rw [wellFormed.numbered kind] at mem
  exact List.mem_range.1 mem

/-- A well-formed program has a placeholder for every slot. -/
theorem WellFormed.exists_placeholder (wellFormed : p.WellFormed) {pc index : Nat} {follow : Follow}
    (found : p.program[pc]? = some (.slot index follow)) : ∃ slot, p.placeholders[index]? = some slot :=
  ⟨_, List.getElem?_eq_getElem (@WellFormed.number_lt _ wellFormed .placeholder _ _ _ found rfl)⟩

/-- A well-formed program has a regex wherever it needs one. -/
theorem WellFormed.exists_regex (wellFormed : p.WellFormed) {pc index : Nat} {follow : Follow}
    (found : p.program[pc]? = some (.regex index follow)) : ∃ x, p.regexes[index]? = some x :=
  ⟨_, List.getElem?_eq_getElem (@WellFormed.number_lt _ wellFormed .regex _ _ _ found rfl)⟩

end Pattern

end Phrasebook
