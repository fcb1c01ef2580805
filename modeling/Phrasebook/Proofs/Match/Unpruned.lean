import Phrasebook.Proofs.Match.Complete
import Phrasebook.Proofs.Match.SplitPoints

/-!
# No match is lost to what follows a capture

A capture is only tried up to places at which what follows it in its program may start. A capture that may
be followed by anything is tried up to every boundary at which nothing is open, and to the end of the
stretch. `runWith_unpruned` says that a pattern with such captures matches the same: an end that is left out
leads to no match, because the search behind it finds nothing (`Spared.admits`), and the others keep their
order.
-/

namespace Phrasebook

namespace Pattern

/-- Anything may follow, or nothing. -/
def Follow.anything : Follow where
  canEnd := true
  isOpen := true

/-- The pattern with captures that anything may follow. -/
def unpruned (p : Pattern) : Pattern :=
  { p with program := p.program.map (Instr.withFollow .anything) }

theorem Instr.withFollow_withFollow (a b : Follow) (instr : Instr) :
    (instr.withFollow a).withFollow b = instr.withFollow b := by
  cases instr <;> rfl

end Pattern

namespace Match
open Text Pattern

section Ends

variable {l : Line} {follow : Follow} {start stop pos x : Nat}

/-- A capture that anything may follow reaches to every boundary at which nothing is open, and to the end of
the stretch. -/
theorem reaches_anything :
    Reaches l .anything start stop pos ↔
      (start < pos ∧ pos < stop ∧ pos < l.size ∧ (bracketsAt l start pos).isOpen = false ∧
        l.isBoundary pos = true) ∨ pos = stop := by
  have starts : stopsBefore l .anything pos = l.isBoundary pos := by
    simp [stopsBefore, Follow.anything]
  constructor
  · rintro (isStop | ⟨-, last⟩)
    · exact .inl ⟨isStop.after, isStop.before, isStop.inside, isStop.closed, starts ▸ isStop.starts⟩
    · exact .inr last
  · rintro (⟨after, before, inside, closed, boundary⟩ | last)
    · exact .inl ⟨after, before, inside, closed, starts.trans boundary⟩
    · exact .inr ⟨rfl, last⟩

/-- A place is a boundary if it is one without the blanks before it. -/
theorem isBoundary_of_dropBlanks (boundary : l.isBoundary (l.dropBlanks start pos) = true) :
    l.isBoundary pos = true := by
  rcases Nat.eq_or_lt_of_le (l.dropBlanks_le start pos) with same | dropped
  · rwa [same] at boundary
  · have within : l.dropBlanks start pos ≤ pos - 1 := Nat.le_sub_one_of_lt dropped
    have blank : l.BlankAt (pos - 1) := Line.blankAt_of_dropBlanks_le within (by omega)
    rw [show pos = pos - 1 + 1 by omega]
    exact Line.isBoundary_succ blank

/-- Every end of a capture is one that it may have whatever follows. -/
theorem mem_splitPoints_anything (mem : x ∈ splitPoints l follow start stop) :
    x ∈ splitPoints l .anything start stop := by
  obtain ⟨starts, bounds, pos, reaches, rfl⟩ := mem_splitPoints.1 mem
  refine mem_splitPoints.2 ⟨starts, bounds, pos, reaches_anything.2 ?_, rfl⟩
  rcases reaches with isStop | ⟨-, last⟩
  · exact .inl ⟨isStop.after, isStop.before, isStop.inside, isStop.closed,
      isBoundary_of_dropBlanks bounds.2⟩
  · exact .inr last

/-- What may follow a capture that ends at a place is there, blanks apart. -/
inductive Admits (l : Line) (stop : Nat) (follow : Follow) (pos : Nat) : Prop where
  | capture (isOpen : follow.isOpen = true)
  | ending (canEnd : follow.canEnd = true) (nothing : stop ≤ l.skipBlanks pos)
  | literal (text : List Char) (expected : text ∈ follow.literals) (some : text ≠ [])
      (there : (l.matchLiteral pos text).isSome = true)

theorem Admits.union_left {a b : Follow} (h : Admits l stop a pos) : Admits l stop (a.union b) pos := by
  cases h with
  | capture isOpen => exact .capture (by simp [Follow.union, isOpen])
  | ending canEnd nothing => exact .ending (by simp [Follow.union, canEnd]) nothing
  | literal text expected some there => exact .literal text (by simp [Follow.union, expected]) some there

theorem Admits.union_right {a b : Follow} (h : Admits l stop b pos) : Admits l stop (a.union b) pos := by
  cases h with
  | capture isOpen => exact .capture (by simp [Follow.union, isOpen])
  | ending canEnd nothing => exact .ending (by simp [Follow.union, canEnd]) nothing
  | literal text expected some there =>
    refine .literal text ?_ some there
    by_cases known : text ∈ a.literals <;> simp [Follow.union, known, expected]

/-- A literal that is not empty starts with a character of the line that is no blank. -/
theorem lt_size_of_matchFrom {text : List Char} (some : text ≠ [])
    (there : (l.matchFrom text (l.skipBlanks pos)).isSome = true) : l.skipBlanks pos < l.size := by
  cases text with
  | nil => exact absurd rfl some
  | cons c text =>
    simp only [Line.matchFrom, Line.skipBlanks_skipBlanks, beq_self_eq_true, if_true] at there
    split at there
    · cases there
    · split at there
      next found read => exact Line.lt_size_of_getElem? read
      next => cases there

/-- **An end is not left out where what may follow the capture is there.** -/
theorem Admits.mem_splitPoints (short : l.size ≤ stop) (mem : x ∈ splitPoints l .anything start stop)
    (admits : Admits l stop follow x) : x ∈ splitPoints l follow start stop := by
  have bound := (bounds_of_mem_splitPoints mem).2
  obtain ⟨starts, ⟨after, boundary⟩, pos, reaches, drops⟩ := Match.mem_splitPoints.1 mem
  have solid : ¬ l.BlankAt (x - 1) := by
    rw [← drops] at after ⊢
    exact Line.not_blankAt_dropBlanks after
  suffices goal : ∃ pos, Reaches l follow start stop pos ∧ l.dropBlanks start pos = x from
    Match.mem_splitPoints.2 ⟨starts, ⟨after, boundary⟩, goal⟩
  cases admits with
  | capture isOpen =>
    refine ⟨pos, ?_, drops⟩
    rcases reaches_anything.1 reaches with ⟨after, before, inside, closed, boundary⟩ | last
    · exact .inl ⟨after, before, inside, closed, by simp [stopsBefore, isOpen, boundary]⟩
    · exact .inr ⟨by simp [isOpen], last⟩
  | ending canEnd nothing =>
    refine ⟨stop, .inr ⟨by simp [canEnd], rfl⟩, Line.dropBlanks_eq after bound ?_ solid⟩
    intro k from_ before
    exact Line.blankAt_of_lt_skipBlanks from_ (Nat.lt_of_lt_of_le before nothing)
  | literal text expected some there =>
    -- the capture may as well reach to the literal, up to which there are only blanks
    have inside : l.skipBlanks x < l.size := lt_size_of_matchFrom some there
    have ahead := l.le_skipBlanks x
    have within : x ≤ pos := drops ▸ l.dropBlanks_le start pos
    have blanks {n : Nat} (le : x ≤ n) : ∀ k, n ≤ k → k < l.skipBlanks x → l.BlankAt k :=
      fun k from_ before => Line.blankAt_of_lt_skipBlanks (Nat.le_trans le from_) before
    have reached : pos ≤ l.skipBlanks x := by
      rcases Nat.lt_or_ge (l.skipBlanks x) pos with less | le
      · have blank := Line.blankAt_of_dropBlanks_le (Nat.le_trans (Nat.le_of_eq drops) ahead) less
        exact absurd blank (l.not_blankAt_skipBlanks x)
      · exact le
    have drops' : l.dropBlanks start (l.skipBlanks x) = x :=
      Line.dropBlanks_eq after ahead (blanks (Nat.le_refl x)) solid
    have closed : (bracketsAt l start (l.skipBlanks x)).isOpen = false := by
      rw [bracketsAt_blanks (by omega) reached (blanks within)]
      rcases reaches_anything.1 reaches with ⟨-, -, -, closed, -⟩ | last
      · exact closed
      · omega
    have here : literalStarts l (l.skipBlanks x) text = true := by
      have boundary' : l.isBoundary (l.skipBlanks x) = true := by
        rw [← drops'] at boundary
        exact isBoundary_of_dropBlanks boundary
      simp only [literalStarts, boundary', Line.skipBlanks_skipBlanks, Bool.or_true, beq_self_eq_true,
        Bool.true_and]
      exact there
    have starts : stopsBefore l follow (l.skipBlanks x) = true := by
      simp only [stopsBefore, Bool.or_eq_true, List.any_eq_true]
      exact .inr ⟨text, expected, here⟩
    exact ⟨l.skipBlanks x, .inl ⟨by omega, by omega, inside, closed, starts⟩, drops'⟩

/-- Elements that give nothing may be left out of a growing list. -/
theorem findSome?_of_subset {β : Type} {f : Nat → Option β} {xs ys : List Nat}
    (growsX : xs.Pairwise (· < ·)) (growsY : ys.Pairwise (· < ·)) (subset : ∀ x ∈ xs, x ∈ ys)
    (nothing : ∀ y ∈ ys, y ∉ xs → f y = none) : ys.findSome? f = xs.findSome? f := by
  induction ys generalizing xs with
  | nil =>
    have empty : xs = [] := List.eq_nil_iff_forall_not_mem.2 fun x mem => by simpa using subset x mem
    rw [empty]
  | cons y ys ih =>
    by_cases head : y ∈ xs
    · cases xs with
      | nil => cases head
      | cons x xs =>
        -- nothing comes before the least element of the longer list
        have same : x = y := by
          rcases List.mem_cons.1 (subset x List.mem_cons_self) with same | later
          · exact same
          · have less := List.rel_of_pairwise_cons growsY later
            rcases List.mem_cons.1 head with same | behind
            · exact same.symm
            · have := List.rel_of_pairwise_cons growsX behind
              omega
        subst same
        rw [List.findSome?_cons, List.findSome?_cons]
        rw [ih growsX.of_cons growsY.of_cons (fun z mem => ?_) (fun z mem new => ?_)]
        · have less := List.rel_of_pairwise_cons growsX mem
          rcases List.mem_cons.1 (subset z (List.mem_cons_of_mem _ mem)) with rfl | later
          · omega
          · exact later
        · have less := List.rel_of_pairwise_cons growsY mem
          refine nothing z (List.mem_cons_of_mem _ mem) fun known => ?_
          rcases List.mem_cons.1 known with rfl | known
          · omega
          · exact new known
    · rw [List.findSome?_cons, nothing y List.mem_cons_self head]
      refine ih growsX growsY.of_cons (fun x mem => ?_) fun z mem new =>
        nothing z (List.mem_cons_of_mem _ mem) new
      rcases List.mem_cons.1 (subset x mem) with rfl | later
      · exact absurd mem head
      · exact later

/-- The first end behind which something is found is not left out. -/
theorem findSome?_splitPoints {β : Type} {f : Nat → Option β} (short : l.size ≤ stop)
    (only : ∀ x, f x ≠ none → Admits l stop follow x) :
    (splitPoints l .anything start stop).findSome? f = (splitPoints l follow start stop).findSome? f := by
  refine findSome?_of_subset pairwise_splitPoints pairwise_splitPoints
    (fun x mem => mem_splitPoints_anything mem) fun x mem left => ?_
  cases found : f x with
  | none => rfl
  | some => exact absurd ((only x (by simp [found])).mem_splitPoints short mem) left

end Ends

variable {ε σ ρ α : Type}

namespace Task

/-- The task with a pattern whose captures anything may follow. -/
def unpruned (task : Task (ExceptT ε (StateM σ)) ρ α) : Task (ExceptT ε (StateM σ)) ρ α :=
  { task with pattern := task.pattern.unpruned }

variable {task : Task (ExceptT ε (StateM σ)) ρ α} {root : Element} {follows : Nat → Follow}

theorem Cut.short (cut : task.Cut) : task.region.size ≤ task.stop := by
  rw [cut, Line.size_before]
  exact Nat.min_le_left _ _

theorem laid_unpruned (laid : task.Laid root follows) : task.unpruned.Laid root fun _ => .anything := by
  intro pc
  have instr : task.unpruned.pattern.program[pc]? =
      task.pattern.program[pc]?.map (Instr.withFollow .anything) := Array.getElem?_map ..
  rw [instr, laid, Option.map_map]
  congr 1
  funext instr
  exact Instr.withFollow_withFollow _ _ instr

/-- From an instruction on, the searches for a pattern with and without pruning find the same, and they find
something only if what may come first at the instruction is there. -/
structure Spared (task : Task (ExceptT ε (StateM σ)) ρ α) (root : Element) (pc : Nat) (w : Way α)
    (f : Fills α → Option (Found α)) : Prop where
  pruned : task.Settles (task.searchAt pc w) f
  unpruned : task.unpruned.Settles (task.unpruned.searchAt pc w) f
  admits : ∀ fills, f fills ≠ none → Admits task.region task.stop (followAt (plainCode root) pc) w.pos

variable {pc : Nat} {w : Way α}

theorem spared_stuck (stuck : task.exec (w.at_ pc) = .stuck)
    (stuck' : task.unpruned.exec (w.at_ pc) = .stuck) : Spared task root pc w fun _ => none := by
  refine ⟨?_, ?_, fun _ found => absurd rfl found⟩
  · rw [searchAt, search_stuck stuck]
    exact settles_stuck
  · rw [searchAt, search_stuck stuck']
    exact settles_stuck

/-- An instruction that leads to another one at the same place. -/
theorem Spared.before {target : Nat} {w' : Way α} {f : Fills α → Option (Found α)}
    (spared : Spared task root target w' f) (stays : w'.pos = w.pos)
    (here : task.searchAt pc w = task.searchAt target w')
    (here' : task.unpruned.searchAt pc w = task.unpruned.searchAt target w')
    (same : followAt (plainCode root) pc = followAt (plainCode root) target) :
    Spared task root pc w f := by
  refine ⟨?_, ?_, fun fills found => ?_⟩
  · rw [here]
    exact spared.pruned
  · rw [here']
    exact spared.unpruned
  · rw [same, ← stays]
    exact spared.admits fills found

/-- An instruction that leads to two others. -/
theorem Spared.or {prefer other : Nat} {f g : Fills α → Option (Found α)}
    (preferred : Spared task root prefer w f) (others : Spared task root other w g)
    (here : task.searchAt pc w = (task.searchAt prefer w).or (task.searchAt other w))
    (here' : task.unpruned.searchAt pc w =
      (task.unpruned.searchAt prefer w).or (task.unpruned.searchAt other w))
    (same : followAt (plainCode root) pc =
      (followAt (plainCode root) prefer).union (followAt (plainCode root) other)) :
    Spared task root pc w fun fills => (f fills).or (g fills) := by
  refine ⟨?_, ?_, fun fills found => ?_⟩
  · rw [here]
    exact preferred.pruned.or others.pruned
  · rw [here']
    exact preferred.unpruned.or others.unpruned
  · rw [same]
    cases first : f fills with
    | some => exact (preferred.admits fills (by simp [first])).union_left
    | none => exact (others.admits fills (by simpa [first] using found)).union_right

/-- The last instruction finds something if nothing of the stretch is left. -/
theorem spared_finish (cut : task.Cut) (here : task.searchAt pc w = task.finish w)
    (here' : task.unpruned.searchAt pc w = task.unpruned.finish w)
    (same : followAt (plainCode root) pc = { canEnd := true }) :
    Spared task root pc w fun fills =>
      if (task.reader fills).AtEnd w.pos then
        some (.ofTrail task.pattern.placeholders.length w.mark w.captures)
      else none := by
  have cut' : task.unpruned.Cut := cut
  refine ⟨?_, ?_, fun fills found => ?_⟩
  · rw [here]
    exact settles_finish cut w
  · rw [here']
    exact settles_finish cut' w
  · rw [same]
    split at found
    next atEnd =>
      rw [Reader.AtEnd, cut.region] at atEnd
      exact .ending rfl atEnd
    next => exact absurd rfl found

section Read

variable (cut : task.Cut) {g : Way α → Fills α → Option (Found α)}
  (next : ∀ w, Spared task root (pc + 1) w (g w))
include cut next

/-- An instruction that reads an element, of which the same ways lead on to something. -/
theorem spared_read {e : Element}
    (here : task.searchAt pc w =
      task.read pc (followAt (plainCode root) (pc + 1)) w (task.searchAt (pc + 1)) e)
    (here' : task.unpruned.searchAt pc w =
      task.unpruned.read pc .anything w (task.unpruned.searchAt (pc + 1)) e)
    (same : ∀ fills, firstOf g w fills ((task.unpruned.reader fills).ways .anything w.pos e) =
      firstOf g w fills ((task.reader fills).ways (followAt (plainCode root) (pc + 1)) w.pos e))
    (admits : ∀ fills,
      firstOf g w fills ((task.reader fills).ways (followAt (plainCode root) (pc + 1)) w.pos e) ≠ none →
        Admits task.region task.stop (followAt (plainCode root) pc) w.pos) :
    Spared task root pc w fun fills =>
      firstOf g w fills ((task.reader fills).ways (followAt (plainCode root) (pc + 1)) w.pos e) := by
  refine ⟨?_, ?_, admits⟩
  · rw [here]
    exact settles_read cut (fun w => (next w).pruned) pc _ w e
  · have cut' : task.unpruned.Cut := cut
    rw [here']
    exact (settles_read cut' (fun w => (next w).unpruned) pc .anything w e).congr same

/-- The ends of a placeholder that are left out lead on to nothing. -/
theorem firstOf_placeholderWays_unpruned (index : Nat) (fills : Fills α) :
    firstOf g w fills ((task.unpruned.reader fills).placeholderWays .anything w.pos index) =
      firstOf g w fills
        ((task.reader fills).placeholderWays (followAt (plainCode root) (pc + 1)) w.pos index) := by
  cases slot : task.pattern.placeholders[index]? with
  | none =>
    have slot' : (task.reader fills).pattern.placeholders[index]? = none := slot
    have slot'' : (task.unpruned.reader fills).pattern.placeholders[index]? = none := slot
    rw [Reader.placeholderWays, Reader.placeholderWays, slot', slot'']
  | some p =>
    have ends := firstOf_placeholderWays cut slot g w (followAt (plainCode root) (pc + 1)) fills
    have cut' : task.unpruned.Cut := cut
    have ends' := firstOf_placeholderWays cut' slot g w .anything fills
    rw [ends, ends', endsOf, endsOf, List.findSome?_append, List.findSome?_append, List.findSome?_map,
      List.findSome?_map]
    congr 1
    refine findSome?_splitPoints (Cut.short cut) fun stop found => ?_
    obtain ⟨result, found⟩ := Option.ne_none_iff_exists'.1 found
    obtain ⟨value, -, found⟩ := Option.bind_eq_some_iff.1 found
    exact (next _).admits fills (Option.ne_none_iff_exists'.2 ⟨result, found⟩)

/-- The ends of a regex that are left out lead on to nothing. -/
theorem firstOf_regexWays_unpruned (index : Nat) (fills : Fills α) :
    firstOf g w fills ((task.unpruned.reader fills).regexWays .anything w.pos index) =
      firstOf g w fills
        ((task.reader fills).regexWays (followAt (plainCode root) (pc + 1)) w.pos index) := by
  cases slot : task.pattern.regexes[index]? with
  | none =>
    have slot' : (task.reader fills).pattern.regexes[index]? = none := slot
    have slot'' : (task.unpruned.reader fills).pattern.regexes[index]? = none := slot
    rw [Reader.regexWays, Reader.regexWays, slot', slot'']
  | some x =>
    have ends := firstOf_regexWays cut slot g w (followAt (plainCode root) (pc + 1)) fills
    have cut' : task.unpruned.Cut := cut
    have ends' := firstOf_regexWays cut' slot g w .anything fills
    rw [ends, ends']
    refine findSome?_splitPoints (Cut.short cut) fun stop found => ?_
    dsimp only at found
    split at found
    · exact (next _).admits fills found
    · exact absurd rfl found

end Read

section Instructions

variable (cut : task.Cut) (laid : task.Laid root (followAt (plainCode root)))
  {g : Way α → Fills α → Option (Found α)} (next : ∀ w, Spared task root (pc + 1) w (g w))
include cut laid next

theorem exists_spared_lit {text : List Char} (solid : text ≠ [])
    (found : (plainCode root)[pc]? = some (.lit text)) : ∃ f, Spared task root pc w f := by
  refine ⟨_, spared_read cut next (e := .literal text) (searchAt_lit laid w found)
    (searchAt_lit (laid_unpruned laid) w found) (fun fills => ?_) fun fills found' => ?_⟩
  · rw [Reader.ways, Reader.ways]
    rfl
  · rw [followAt_eq found trivial]
    refine .literal text List.mem_cons_self solid ?_
    cases there : task.region.matchLiteral w.pos text with
    | none => simp [Reader.ways, cut.region, there, firstOf] at found'
    | some => rfl

theorem exists_spared_boundary (found : (plainCode root)[pc]? = some .boundary) :
    ∃ f, Spared task root pc w f := by
  refine ⟨_, spared_read cut next (e := .space) (searchAt_boundary laid w found)
    (searchAt_boundary (laid_unpruned laid) w found) (fun fills => ?_) fun fills found' => ?_⟩
  · rw [Reader.ways, Reader.ways]
    rfl
  · rw [followAt_eq found trivial]
    rw [Reader.ways] at found'
    split at found'
    · rw [firstOf_singleton, Way.follow_nil] at found'
      exact (next _).admits fills found'
    · exact absurd rfl found'

theorem exists_spared_slot {index : Nat} {follow : Follow}
    (found : (plainCode root)[pc]? = some (.slot index follow)) : ∃ f, Spared task root pc w f := by
  refine ⟨_, spared_read cut next (e := .placeholder index) (searchAt_slot laid w found)
    (searchAt_slot (laid_unpruned laid) w found) (fun fills => ?_) fun _ _ => ?_⟩
  · rw [Reader.ways, Reader.ways]
    exact firstOf_placeholderWays_unpruned cut next index fills
  · rw [followAt_eq found trivial]
    exact .capture rfl

theorem exists_spared_regex {index : Nat} {follow : Follow}
    (found : (plainCode root)[pc]? = some (.regex index follow)) : ∃ f, Spared task root pc w f := by
  refine ⟨_, spared_read cut next (e := .regex index) (searchAt_regex laid w found)
    (searchAt_regex (laid_unpruned laid) w found) (fun fills => ?_) fun _ _ => ?_⟩
  · rw [Reader.ways, Reader.ways]
    exact firstOf_regexWays_unpruned cut next index fills
  · rw [followAt_eq found trivial]
    exact .capture rfl

end Instructions

/-- **From every instruction on, no match is lost.** -/
theorem exists_spared (cut : task.Cut) (laid : task.Laid root (followAt (plainCode root)))
    (solid : ∀ text, Instr.lit text ∈ plainCode root → text ≠ []) (pc : Nat) (w : Way α) :
    ∃ f, Spared task root pc w f := by
  -- programs only lead forward
  generalize left : (plainCode root).length - pc = n
  induction n using Nat.strongRecOn generalizing pc w with
  | ind n ih =>
  have laid' := laid_unpruned laid
  cases found : (plainCode root)[pc]? with
  | none =>
    have missing : task.pattern.program[pc]? = none := by rw [laid, found, Option.map_none]
    have missing' : task.unpruned.pattern.program[pc]? = none := by rw [laid', found, Option.map_none]
    exact ⟨_, spared_stuck (by simp [exec, Way.at_, missing]) (by simp [exec, Way.at_, missing'])⟩
  | some instr =>
    have inside : pc < (plainCode root).length := (List.getElem?_eq_some_iff.1 found).1
    have program := program_eq laid found
    have program' := program_eq laid' found
    have ahead {target : Nat} (lt : pc < target) (w : Way α) : ∃ f, Spared task root target w f :=
      ih _ (by omega) target w rfl
    obtain ⟨g, next⟩ := Classical.skolem.1 (ahead (Nat.lt_succ_self pc))
    cases instr with
    | lit text => exact exists_spared_lit cut laid next (solid text (List.mem_of_getElem? found)) found
    | boundary => exact exists_spared_boundary cut laid next found
    | slot => exact exists_spared_slot cut laid next found
    | regex => exact exists_spared_regex cut laid next found
    | split prefer other =>
      by_cases forward : pc < prefer ∧ pc < other
      · obtain ⟨f, preferred⟩ := ahead forward.1 w
        obtain ⟨f', others⟩ := ahead forward.2 w
        exact ⟨_, preferred.or others (searchAt_split laid w found forward)
          (searchAt_split laid' w found forward) (followAt_eq found forward)⟩
      · have stays : ¬ ((decide (pc < prefer) && decide (pc < other)) = true) := by simpa using forward
        refine ⟨_, spared_stuck ?_ ?_⟩
        · simp only [exec, Way.at_, program, Instr.withFollow]
          exact if_neg stays
        · simp only [exec, Way.at_, program', Instr.withFollow]
          exact if_neg stays
    | jump target =>
      by_cases forward : pc < target
      · obtain ⟨f, next⟩ := ahead forward w
        exact ⟨f, next.before rfl (searchAt_jump laid w found forward)
          (searchAt_jump laid' w found forward) (followAt_eq found forward)⟩
      · refine ⟨_, spared_stuck ?_ ?_⟩
        · simp only [exec, Way.at_, program, Instr.withFollow]
          exact if_neg forward
        · simp only [exec, Way.at_, program', Instr.withFollow]
          exact if_neg forward
    | mark value =>
      exact ⟨_, (next { w with mark := w.mark ^^^ value }).before rfl (searchAt_mark laid w found)
        (searchAt_mark laid' w found) (followAt_eq found trivial)⟩
    | tag name =>
      exact ⟨_, (next { w with captures := w.captures ++ [.tag name] }).before rfl
        (searchAt_tag laid w found) (searchAt_tag laid' w found) (followAt_eq found trivial)⟩
    | stop =>
      exact ⟨_, spared_finish cut (searchAt_stop laid w found) (searchAt_stop laid' w found)
        (followAt_eq found trivial)⟩

/-- A run whose search settles gives what a table of answers says that agrees with what is remembered in the
end. -/
theorem Settles.ends_loop {f : Fills α → Option (Found α)} (answers : ¬ task.Refuses)
    (settles : task.Settles (task.searchAt 0 { pos := task.start }) f) (s : σ) :
    ∃ memory result s', Ends (task.loop (some { pc := 0, pos := task.start }) [] [] {}) s result s' ∧
      task.Extends {} memory ∧ ∀ fills, memory.Agrees fills → result.toOption = f fills := by
  rw [task.loop_eq_search _ {} rfl]
  rcases settles {} s with ⟨-, refuses⟩ | ⟨found, memory, s', ends, extends_, same⟩
  · exact absurd refuses answers
  refine ⟨memory, found.elim (.error (memory.failure task.start)) .ok, s', ends.bind ?_, extends_,
    fun fills agrees => ?_⟩
  · cases found <;> exact ends_pure _ _
  · rw [← same fills agrees]
    cases found <;> rfl

/-- Tables that say the same about the placeholders of a pattern agree with the same answers. -/
theorem Extends.agrees_of_eq {memory : Memory ρ α} (extends_ : task.Extends {} memory)
    {fills fills' : Fills α} (agrees : memory.Agrees fills')
    (same : ∀ index p, task.pattern.placeholders[index]? = some p → fills index = fills' index) :
    memory.Agrees fills := by
  intro index start stop outcome known
  rw [← agrees index start stop outcome known]
  rcases extends_.given index start stop outcome known with before | ⟨p, -, -, slot, -⟩
  · simp at before
  · rw [same index p slot]

end Task

/-- A table holds for every placeholder of a pattern what a resolver answers in some state. -/
def FilledBy (pattern : Pattern) (resolve : Placeholder → Nat → Nat → ExceptT ε (StateM σ) (Outcome ρ α))
    (fills : Fills α) : Prop :=
  ∀ index p start stop, pattern.placeholders[index]? = some p →
    ∃ outcome s s', Ends (resolve p start stop) s outcome s' ∧ fills index start stop = outcome.value?

/-- A resolver fills a placeholder with the same in every state. -/
def Steady (resolve : Placeholder → Nat → Nat → ExceptT ε (StateM σ) (Outcome ρ α)) : Prop :=
  ∀ p start stop s₁ s₂ outcome₁ outcome₂ s₁' s₂', Ends (resolve p start stop) s₁ outcome₁ s₁' →
    Ends (resolve p start stop) s₂ outcome₂ s₂' → outcome₁.value? = outcome₂.value?

/-- A steady resolver allows one table only. -/
theorem FilledBy.unique {pattern : Pattern}
    {resolve : Placeholder → Nat → Nat → ExceptT ε (StateM σ) (Outcome ρ α)} {fills fills' : Fills α}
    (filled : FilledBy pattern resolve fills) (filled' : FilledBy pattern resolve fills')
    (steady : Steady resolve) (index : Nat) (p : Placeholder)
    (slot : pattern.placeholders[index]? = some p) : fills index = fills' index := by
  funext start stop
  obtain ⟨outcome, s, s', ends, same⟩ := filled index p start stop slot
  obtain ⟨outcome', t, t', ends', same'⟩ := filled' index p start stop slot
  rw [same, same', steady p start stop s t outcome outcome' s' t' ends ends']

/-- **Pruning loses no match.** A run of a compiled pattern, and a run in which every capture is tried up to
every boundary at which nothing is open and up to the end of the stretch, both end if the resolver always
answers. They find the same, or both nothing, if they were given the same answers; so they do with every
resolver whose answers do not depend on a state, since it knows of one answer only. -/
theorem runWith_unpruned {resolveType : String → Option PatternType} {source : String}
    {pattern : Pattern} (compiled : Pattern.compile resolveType source = .ok pattern)
    (isMatch : PatternRegex → List Char → Bool) (line : Line) (start stop : Nat)
    (resolve : Placeholder → Nat → Nat → ExceptT ε (StateM σ) (Outcome ρ α))
    (answers : ∀ p start stop s, ∃ outcome s', Ends (resolve p start stop) s outcome s') (s : σ) :
    ∃ (result result' : Except (Failure ρ) (Found α)) (s' s'' : σ),
      Ends (runWith isMatch pattern line start stop resolve) s result s' ∧
      Ends (runWith isMatch pattern.unpruned line start stop resolve) s result' s'' ∧
      (Steady resolve → result.toOption = result'.toOption) ∧
      ∃ fills fills', FilledBy pattern resolve fills ∧ FilledBy pattern resolve fills' ∧
        ((∀ index p, pattern.placeholders[index]? = some p → fills index = fills' index) →
          result.toOption = result'.toOption) := by
  let task : Task (ExceptT ε (StateM σ)) ρ α :=
    { pattern, line, region := line.before stop, start, stop, isMatch, resolve }
  have cut : task.Cut := rfl
  have answering : ¬ task.Refuses := by
    rintro ⟨p, start, stop, s, e, s', fails⟩
    obtain ⟨outcome, s'', ends⟩ := answers p start stop s
    cases fails.symm.trans ends
  have answering' : ¬ task.unpruned.Refuses := answering
  have sound := compile_sound compiled
  have laid : task.Laid pattern.root (followAt (plainCode pattern.root)) :=
    Task.laid_programOf sound.program
  have solid : ∀ text, Instr.lit text ∈ plainCode pattern.root → text ≠ [] := by
    intro text mem
    have mem : Instr.lit text ∈ pattern.root.code 0 := by simpa [plainCode] using mem
    exact Element.ne_nil_of_lit_mem pattern.root sound.wellFormed mem
  obtain ⟨f, spared⟩ := Task.exists_spared cut laid solid 0 { pos := start }
  obtain ⟨memory, result, s', ends, extends_, found⟩ := spared.pruned.ends_loop answering s
  obtain ⟨memory', result', s'', ends', extends', found'⟩ := spared.unpruned.ends_loop answering' s
  obtain ⟨fills, agrees, given⟩ := Task.exists_fills answering s extends_
  obtain ⟨fills', agrees', given'⟩ := Task.exists_fills answering' s extends'
  have filled {fills : Fills α}
      (given : ∀ index p start stop, pattern.placeholders[index]? = some p →
        ∃ outcome, task.Gives index start stop outcome ∧ fills index start stop = outcome.value?) :
      FilledBy pattern resolve fills := by
    intro index p start stop slot
    obtain ⟨outcome, ⟨p', s, s', slot', gives⟩, same⟩ := given index p start stop slot
    cases Option.some.inj (slot'.symm.trans slot)
    exact ⟨outcome, s, s', gives, same⟩
  have alike (same : ∀ index p, pattern.placeholders[index]? = some p → fills index = fills' index) :
      result.toOption = result'.toOption := by
    rw [found fills agrees, found' fills (extends'.agrees_of_eq agrees' same)]
  exact ⟨result, result', s', s'', ends, ends',
    fun steady => alike ((filled given).unique (filled given') steady),
    fills, fills', filled given, filled given', alike⟩

/-- A pattern of two captures with a literal between them, which stands in the line three times, once within
quotes. -/
theorem runWith_unpruned_to :
    ∃ pattern, Pattern.compile (fun _ => some { type := 0, single := true }) "set %any% to %any%" =
        .ok pattern ∧
      ∃ result result', Ends (ε := Unit)
          (runWith (fun _ _ => true) pattern (Line.ofString "set a to \"b to c\" to d") 0 22
            fun _ start stop => pure (if stop < start + 3 then .rejected () else .found stop))
          () result () ∧
        Ends (ε := Unit)
          (runWith (fun _ _ => true) pattern.unpruned (Line.ofString "set a to \"b to c\" to d") 0 22
            fun _ start stop => pure (if stop < start + 3 then .rejected () else .found stop))
          () result' () ∧
        result.toOption = result'.toOption := by
  have compiles : (Pattern.compile (fun _ => some { type := 0, single := true })
      "set %any% to %any%").toOption.isSome = true := by decide +kernel
  cases compiled : Pattern.compile (fun _ => some { type := 0, single := true })
      "set %any% to %any%" with
  | error => simp [compiled, Except.toOption] at compiles
  | ok pattern =>
    obtain ⟨result, result', s', s'', ends, ends', same, -⟩ :=
      runWith_unpruned compiled (fun _ _ => true) (Line.ofString "set a to \"b to c\" to d") 0 22
        (fun _ start stop => pure (if stop < start + 3 then .rejected () else .found stop))
        (fun _ _ _ s => ⟨_, s, rfl⟩) ()
    refine ⟨pattern, rfl, result, result', ends, ends', same ?_⟩
    intro p start stop s₁ s₂ outcome₁ outcome₂ s₁' s₂' ends₁ ends₂
    cases ends₁
    cases ends₂
    rfl

/-- A resolver that turns down the first stretch that it is asked for is not steady: if nothing is left out, it is
asked for a shorter one first, and the match is found that is missed otherwise. -/
example :
    let resolve : Placeholder → Nat → Nat → ExceptT Unit (StateM Bool) (Outcome Unit Unit) :=
      fun _ _ _ asked => (.ok (if asked then .found () else .rejected ()), true)
    let succeeds (pattern : Pattern) : Bool :=
      let run := runWith (fun _ _ => true) pattern (Line.ofString "set a b to c") 0 12 resolve
      ((run false).1.toOption.bind Except.toOption).isSome
    (Pattern.compile (fun _ => some { type := 0, single := true }) "set %any% to %any%").toOption.map
      (fun pattern => (succeeds pattern, succeeds pattern.unpruned)) = some (false, true) := by decide +kernel

end Match

end Phrasebook
