import Mathlib.Data.List.Perm.Subperm
import Phrasebook.Proofs.Pattern.WellFormed

/-!
# Going through a program

What may follow a capture is what a search from the next instruction comes upon first, and what a program expects from
a place on is put together on the way along preferred branches. Both are said here with a budget of instructions, and
with nothing to give where an instruction, a placeholder or a regex is missing: `collect?` and `remainder?`. In a
well-formed program no more instructions are looked at than it has, and nothing is missing (`collect?_eq_some`,
`remainder?_eq_some`).
-/

namespace Phrasebook.Pattern
open Text

namespace Follow

variable {a b c : Follow}

@[simp] theorem empty_union (f : Follow) : ({} : Follow).union f = f := by
  simp [union]

@[simp] theorem union_empty (f : Follow) : f.union {} = f := by
  simp [union]

theorem union_assoc (a b c : Follow) : (a.union b).union c = a.union (b.union c) := by
  simp only [union, Bool.or_assoc, List.filter_append, List.append_assoc, List.filter_filter, Follow.mk.injEq,
    and_true, List.append_cancel_left_eq]
  refine List.filter_congr fun l _ => ?_
  cases inA : a.literals.contains l <;> cases inB : b.literals.contains l <;> simp_all

/-- One adds nothing to another. -/
def Covers (a b : Follow) : Prop :=
  a.union b = a

theorem covers_iff :
    a.Covers b ↔ (∀ l ∈ b.literals, l ∈ a.literals) ∧ (b.canEnd = true → a.canEnd = true) ∧
      (b.isOpen = true → a.isOpen = true) := by
  obtain ⟨literals, canEnd, isOpen⟩ := a
  obtain ⟨literals', canEnd', isOpen'⟩ := b
  simp [Covers, union, List.filter_eq_nil_iff]

theorem Covers.union (covers : a.Covers c) (b : Follow) : (a.union b).Covers c := by
  obtain ⟨literals, canEnd, isOpen⟩ := covers_iff.1 covers
  refine covers_iff.2 ⟨fun l mem => List.mem_append_left _ (literals l mem), fun ends => ?_, fun opens => ?_⟩
  · simp [Follow.union, canEnd ends]
  · simp [Follow.union, isOpen opens]

theorem covers_union (a b : Follow) : (a.union b).Covers b := by
  refine covers_iff.2 ⟨fun l mem => ?_, fun ends => ?_, fun opens => ?_⟩
  · by_cases known : l ∈ a.literals
    · exact List.mem_append_left _ known
    · exact List.mem_append_right _ (List.mem_filter.2 ⟨mem, by simpa using known⟩)
  · simp [union, ends]
  · simp [union, opens]

end Follow

namespace Instr

/-- What an instruction adds itself to what comes first. -/
def own : Instr → Follow
  | lit text => { literals := [text] }
  | slot .. | regex .. => { isOpen := true }
  | stop => { canEnd := true }
  | boundary | split .. | jump _ | mark _ | tag _ => {}

/-- Where else to look for what comes first, if an instruction takes nothing of the line. -/
def onward (pc : Nat) : Instr → List Nat
  | boundary | mark _ | tag _ => [pc + 1]
  | jump target => [target]
  | split prefer other => [prefer, other]
  | lit _ | slot .. | regex .. | stop => []

theorem mem_targets_of_mem_onward {pc target : Nat} {instr : Instr} (leads : target ∈ instr.onward pc) :
    target ∈ instr.targets pc := by
  cases instr <;> first | exact leads | cases leads

theorem first_eq (follow : Nat → Follow) (pc : Nat) (instr : Instr) :
    instr.first follow pc = instr.own.union (((instr.onward pc).map follow).foldr Follow.union {}) := by
  cases instr <;> simp [first, own, onward]

end Instr

/-- Goes through places of a program, of which the first is looked at next, and takes in what comes first there. Each
place is looked at once, and no more places than the budget allows. -/
def collect? (program : Array Instr) (budget : Nat) (seen : List Nat) (set : Follow) : List Nat → Option Follow
  | [] => some set
  | pc :: work =>
    if pc ∈ seen then collect? program budget seen set work
    else
      match budget with
      | 0 => none
      | budget + 1 =>
        match program[pc]? with
        | none => none
        | some instr => collect? program budget (pc :: seen) (set.union instr.own) (instr.onward pc ++ work)
termination_by work => (budget, work.length)
decreasing_by
  · exact Prod.Lex.right _ (Nat.lt_succ_self _)
  · exact Prod.Lex.left _ _ (Nat.lt_succ_self _)

section Collect

/-- What may come first at each place of a program, all of whose instructions lead ahead. -/
structure FirstAt (program : Array Instr) (follow : Nat → Follow) : Prop where
  rule : ∀ pc instr, program[pc]? = some instr → follow pc = instr.first follow pc
  forward : ∀ pc instr, program[pc]? = some instr → ∀ target ∈ instr.targets pc, pc < target ∧ target < program.size

/-- The places that were looked at are places of the program, and what is left of the budget is enough for the
others. -/
structure Budgeted (program : Array Instr) (budget : Nat) (seen : List Nat) : Prop where
  nodup : seen.Nodup
  inside : ∀ pc ∈ seen, pc < program.size
  rest : seen.length + budget = program.size

variable {program : Array Instr} {follow : Nat → Follow} {budget low pc : Nat} {seen places places' : List Nat}
  {f f' : Follow}

theorem collect?_seen {set : Follow} {work : List Nat} (old : pc ∈ seen) :
    collect? program budget seen set (pc :: work) = collect? program budget seen set work := by
  rw [collect?.eq_def]
  simp only [old, if_true]

theorem collect?_new {set : Follow} {work : List Nat} {instr : Instr} (new : pc ∉ seen)
    (found : program[pc]? = some instr) :
    collect? program (budget + 1) seen set (pc :: work) =
      collect? program budget (pc :: seen) (set.union instr.own) (instr.onward pc ++ work) := by
  rw [collect?.eq_def]
  simp only [new, if_false, found]

theorem Budgeted.exists_succ (budgeted : Budgeted program budget seen) (inside : pc < program.size) (new : pc ∉ seen) :
    ∃ rest, budget = rest + 1 ∧ Budgeted program rest (pc :: seen) := by
  have nodup : (pc :: seen).Nodup := List.nodup_cons.2 ⟨new, budgeted.nodup⟩
  have within : ∀ s ∈ pc :: seen, s < program.size := List.forall_mem_cons.2 ⟨inside, budgeted.inside⟩
  have few : (pc :: seen).length ≤ (List.range program.size).length :=
    (nodup.subperm fun s mem => List.mem_range.2 (within s mem)).length_le
  rw [List.length_range, List.length_cons] at few
  have rest := budgeted.rest
  refine ⟨budget - 1, by omega, nodup, within, ?_⟩
  rw [List.length_cons]
  omega

/-- Looking at some places takes in what comes first there, if what comes first at the places that were looked at, from
a place on, was taken in before. -/
def TakesIn (program : Array Instr) (follow : Nat → Follow) (low : Nat) (places : List Nat) (f : Follow) : Prop :=
  ∀ budget seen set work, Budgeted program budget seen → (∀ s ∈ seen, low ≤ s → set.Covers (follow s)) →
    ∃ budget' seen', Budgeted program budget' seen' ∧
      collect? program budget seen set (places ++ work) = collect? program budget' seen' (set.union f) work ∧
      ∀ s ∈ seen', s ∈ seen ∨ (set.union f).Covers (follow s)

theorem takesIn_nil : TakesIn program follow low [] {} := by
  intro budget seen set work budgeted _
  refine ⟨budget, seen, budgeted, ?_, fun s mem => .inl mem⟩
  rw [List.nil_append, Follow.union_empty]

theorem TakesIn.append (first : TakesIn program follow low places f) (second : TakesIn program follow low places' f') :
    TakesIn program follow low (places ++ places') (f.union f') := by
  intro budget seen set work budgeted covered
  obtain ⟨budget₁, seen₁, budgeted₁, goes₁, new₁⟩ := first budget seen set (places' ++ work) budgeted covered
  have covered₁ : ∀ s ∈ seen₁, low ≤ s → (set.union f).Covers (follow s) := fun s mem le =>
    (new₁ s mem).elim (fun old => (covered s old le).union f) id
  obtain ⟨budget₂, seen₂, budgeted₂, goes₂, new₂⟩ := second budget₁ seen₁ _ work budgeted₁ covered₁
  rw [Follow.union_assoc] at goes₂ new₂
  refine ⟨budget₂, seen₂, budgeted₂, ?_, fun s mem => ?_⟩
  · rw [List.append_assoc, goes₁, goes₂]
  · rcases new₂ s mem with mem | covers
    · refine (new₁ s mem).imp_right fun covers => ?_
      rw [← Follow.union_assoc]
      exact covers.union f'
    · exact .inr covers

theorem takesIn_places (each : ∀ pc ∈ places, TakesIn program follow low [pc] (follow pc)) :
    TakesIn program follow low places ((places.map follow).foldr Follow.union {}) := by
  induction places with
  | nil => exact takesIn_nil
  | cons pc places ih =>
    obtain ⟨first, others⟩ := List.forall_mem_cons.1 each
    exact first.append (ih others)

/-- A place ahead does not depend on what was taken in before it. -/
theorem TakesIn.from_ {low' : Nat} (takes : TakesIn program follow low' places f) (le : low ≤ low') :
    TakesIn program follow low places f := fun budget seen set work budgeted covered =>
  takes budget seen set work budgeted fun s mem le' => covered s mem (Nat.le_trans le le')

/-- Looking at a place takes in what comes first there. What comes first at a place that was looked at before was taken
in, as all that it leads to stands ahead of it and was looked at before anything else. -/
theorem FirstAt.takesIn (first : FirstAt program follow) (pc : Nat) (inside : pc < program.size) :
    TakesIn program follow pc [pc] (follow pc) := by
  induction left : program.size - pc using Nat.strongRecOn generalizing pc with
  | ind n ih =>
    intro budget seen set work budgeted covered
    rw [List.singleton_append]
    by_cases old : pc ∈ seen
    · rw [collect?_seen old, covered pc old (Nat.le_refl pc)]
      exact ⟨budget, seen, budgeted, rfl, fun s mem => .inl mem⟩
    obtain ⟨instr, found⟩ : ∃ instr, program[pc]? = some instr := ⟨_, Array.getElem?_eq_getElem inside⟩
    obtain ⟨rest, rfl, fewer⟩ := budgeted.exists_succ inside old
    have ahead : TakesIn program follow (pc + 1) (instr.onward pc)
        (((instr.onward pc).map follow).foldr Follow.union {}) := by
      refine takesIn_places fun target leads => ?_
      have bounds := first.forward pc instr found target (Instr.mem_targets_of_mem_onward leads)
      exact (ih (program.size - target) (by omega) target bounds.2 rfl).from_ bounds.1
    obtain ⟨budget', seen', budgeted', goes, new⟩ := ahead rest (pc :: seen) (set.union instr.own) work fewer
      fun s mem le => by
        rcases List.mem_cons.1 mem with rfl | mem
        · omega
        · exact (covered s mem (by omega)).union _
    rw [Follow.union_assoc, ← Instr.first_eq, ← first.rule pc instr found] at goes new
    refine ⟨budget', seen', budgeted', ?_, fun s mem => ?_⟩
    · rw [collect?_new old found, goes]
    · rcases new s mem with mem | covers
      · rcases List.mem_cons.1 mem with rfl | mem
        · exact .inr (Follow.covers_union set _)
        · exact .inl mem
      · exact .inr covers

/-- **The search for what comes first** at a place ends, looks at no place twice and at none outside of the program. -/
theorem FirstAt.collects (first : FirstAt program follow) (inside : pc < program.size) :
    collect? program program.size [] {} [pc] = some (follow pc) := by
  have budgeted : Budgeted program program.size [] := ⟨List.nodup_nil, nofun, Nat.zero_add _⟩
  obtain ⟨_, _, -, goes, -⟩ := first.takesIn pc inside program.size [] {} [] budgeted nofun
  rw [List.append_nil] at goes
  rw [goes, Follow.empty_union, collect?]

end Collect

section Remainder

variable {program : Array Instr} {placeholders : List Placeholder} {regexes : List PatternRegex} {pc : Nat}

/-- What one instruction puts out while the rest of a pattern is written, and where the rest goes on. -/
def Remainder.next (placeholders : List Placeholder) (regexes : List PatternRegex) (pc : Nat) (r : Remainder) :
    Instr → Nat × Remainder
  | .lit text => (pc + 1, r.add text false)
  | .slot index _ => (pc + 1, match placeholders[index]? with
    | some p => r.add p.text true
    | none => r)
  | .regex index _ => (pc + 1, match regexes[index]? with
    | some x => r.add (['<'] ++ x.source ++ ['>']) true
    | none => r)
  | .boundary => (pc + 1, { r with space := true })
  | .split prefer _ => (prefer, r)
  | .jump target => (target, r)
  | .mark _ | .tag _ | .stop => (pc + 1, r)

theorem remainder_eq {pc : Nat} {instr : Instr} (found : program[pc]? = some instr) (more : instr ≠ .stop)
    (r : Remainder) :
    remainder program placeholders regexes pc r =
      if pc < (r.next placeholders regexes pc instr).1 then
        remainder program placeholders regexes (r.next placeholders regexes pc instr).1
          (r.next placeholders regexes pc instr).2
      else (r.next placeholders regexes pc instr).2.text := by
  rw [remainder]
  split
  next none => simp [found] at none
  next stop =>
    rw [found] at stop
    exact absurd (Option.some.inj stop) more
  next instr' _ here =>
    obtain rfl : instr' = instr := Option.some.inj (here.symm.trans found)
    by_cases ahead : pc < (r.next placeholders regexes pc instr').1
    · rw [if_pos ahead]
      cases instr' with
      | stop => exact absurd rfl more
      | _ => exact dif_pos ahead
    · rw [if_neg ahead]
      cases instr' with
      | stop => exact absurd rfl more
      | _ => exact dif_neg ahead

theorem remainder_ended (ends : program[pc]? = none ∨ program[pc]? = some .stop) (r : Remainder) :
    remainder program placeholders regexes pc r = r.text := by
  rw [remainder]
  split <;> simp_all

/-- What one instruction puts out, if the pattern has the capture that it stands for. -/
def Remainder.next? (placeholders : List Placeholder) (regexes : List PatternRegex) (pc : Nat) (r : Remainder) :
    Instr → Option (Nat × Remainder)
  | .slot index _ => placeholders[index]?.map fun p => (pc + 1, r.add p.text true)
  | .regex index _ => regexes[index]?.map fun x => (pc + 1, r.add (['<'] ++ x.source ++ ['>']) true)
  | instr => some (r.next placeholders regexes pc instr)

/-- Writes what a program expects from a place on, with a budget of instructions, and if nothing is missing. -/
def remainder? (program : Array Instr) (placeholders : List Placeholder) (regexes : List PatternRegex) :
    (budget pc : Nat) → Remainder → Option (List Char)
  | 0, _, _ => none
  | budget + 1, pc, r =>
    match program[pc]? with
    | none => none
    | some instr =>
      if instr = .stop then some r.text
      else
        match r.next? placeholders regexes pc instr with
        | none => none
        | some (target, r) => remainder? program placeholders regexes budget target r

end Remainder

section WellFormed

variable {p : Pattern}

/-- Nothing is missing in a well-formed program. -/
theorem WellFormed.next? (wellFormed : p.WellFormed) {pc : Nat} {instr : Instr} (found : p.program[pc]? = some instr)
    (r : Remainder) :
    r.next? p.placeholders p.regexes pc instr = some (r.next p.placeholders p.regexes pc instr) := by
  cases instr with
  | slot index follow =>
    obtain ⟨slot, there⟩ := wellFormed.exists_placeholder found
    simp [Remainder.next?, Remainder.next, there]
  | regex index follow =>
    obtain ⟨x, there⟩ := wellFormed.exists_regex found
    simp [Remainder.next?, Remainder.next, there]
  | _ => rfl

/-- Writing goes on where an instruction leads. -/
theorem next_mem_targets (placeholders : List Placeholder) (regexes : List PatternRegex) (pc : Nat) {instr : Instr}
    (more : instr ≠ .stop) (r : Remainder) : (r.next placeholders regexes pc instr).1 ∈ instr.targets pc := by
  cases instr with
  | stop => exact absurd rfl more
  | _ => simp [Remainder.next, Instr.targets]

/-- **What a well-formed program expects** is written with no more instructions than there are from the place on. -/
theorem WellFormed.remainder?_eq_some (wellFormed : p.WellFormed) {budget pc : Nat} (inside : pc < p.program.size)
    (enough : p.program.size ≤ pc + budget) (r : Remainder) :
    remainder? p.program p.placeholders p.regexes budget pc r =
      some (remainder p.program p.placeholders p.regexes pc r) := by
  induction budget generalizing pc r with
  | zero => omega
  | succ budget ih =>
    have found := Array.getElem?_eq_getElem inside
    generalize p.program[pc] = instr at found
    rw [remainder?]
    simp only [found]
    by_cases more : instr = .stop
    · subst more
      rw [remainder_ended (.inr found), if_pos rfl]
    · have bounds := wellFormed.forward pc instr found _ (next_mem_targets p.placeholders p.regexes pc more r)
      rw [remainder_eq found more, if_pos bounds.1, if_neg more, wellFormed.next? found]
      exact ih bounds.2 (by omega) _

end WellFormed

/-- What may follow a capture, as its instruction knows it. -/
def Instr.follow? : Instr → Option Follow
  | slot _ follow | regex _ follow => some follow
  | _ => none

theorem Instr.ahead_of_targets {pc : Nat} {instr : Instr} (forward : ∀ target ∈ instr.targets pc, pc < target) :
    instr.Ahead pc := by
  cases instr with
  | split prefer other => exact ⟨forward prefer (by simp [targets]), forward other (by simp [targets])⟩
  | jump target => exact forward target (by simp [targets])
  | _ => trivial

theorem Instr.first_withFollow (follow : Follow) (first : Nat → Follow) (pc : Nat) (instr : Instr) :
    (instr.withFollow follow).first first pc = instr.first first pc := by
  cases instr <;> rfl

section Compiled

variable {resolve : String → Option PatternType} {source : String} {p : Pattern}

theorem firstAt_compile (h : compile resolve source = .ok p) : FirstAt p.program (followAt (plainCode p.root)) where
  rule pc instr found := by
    have forward := (compile_wellFormed h).forward pc instr found
    rw [getElem?_program h] at found
    obtain ⟨plain, there, rfl⟩ := Option.map_eq_some_iff.1 found
    rw [Instr.first_withFollow]
    refine followAt_eq there (Instr.ahead_of_targets fun target leads => (forward target ?_).1)
    rwa [Instr.targets_withFollow]
  forward := (compile_wellFormed h).forward

/-- **Every capture of a compiled pattern knows what may follow it**: what the search from the next instruction comes
upon first. The search ends from every instruction. -/
theorem collect?_eq_some (h : compile resolve source = .ok p) :
    (∀ pc, pc < p.program.size → ∃ follow, collect? p.program p.program.size [] {} [pc] = some follow) ∧
      ∀ pc instr follow, p.program[pc]? = some instr → instr.follow? = some follow →
        collect? p.program p.program.size [] {} [pc + 1] = some follow := by
  have first := firstAt_compile h
  refine ⟨fun pc inside => ⟨_, first.collects inside⟩, fun pc instr follow found knows => ?_⟩
  have next : pc + 1 ∈ instr.targets pc := by
    cases instr <;> simp [Instr.follow?] at knows <;> simp [Instr.targets]
  rw [first.collects (first.forward pc instr found _ next).2]
  rw [getElem?_program h] at found
  obtain ⟨plain, -, rfl⟩ := Option.map_eq_some_iff.1 found
  cases plain <;> simp [Instr.follow?, Instr.withFollow] at knows <;> rw [knows]

end Compiled

end Phrasebook.Pattern
