import Mathlib.Data.List.Chain
import Phrasebook.Proofs.Pattern.Literals
import Phrasebook.Proofs.Pattern.Passage

/-!
# Captures that nothing separates

Two captures that touch in the text of a pattern are refused. But what stands between two captures in the text may
leave nothing between them in the tree: a bracket, or a blank that is escaped. This is the only way in which
captures of a pattern that compiles come to follow each other without a literal or a word boundary between them, as
`compile_setApart` says. The invariant, `Reading.Apart`, holds of the open groups while the tokens are read.
-/

namespace Phrasebook.Pattern
open Text Element Passage

/-- The kind of capture that a token is. -/
def Token.captureKind? : Token → Option CaptureKind
  | .capture kind _ _ => some kind
  | _ => none

/-- A token that may leave nothing in the tree between what stands on its two sides: a bracket or an escaped blank. -/
def Token.mayVanish : Token → Bool
  | .opening _ | .closing _ => true
  | token => token.isEscapedBlank

/-- A capture is the token that stands behind some others. -/
structure CaptureId.StandsAt (c : CaptureId) (before : List Located) (t : Located) : Prop where
  kind : t.token.captureKind? = some c.kind
  index : before.countP (fun t => t.token.captureKind? == some c.kind) = c.index

instance (c : CaptureId) (before : List Located) (t : Located) : Decidable (c.StandsAt before t) :=
  decidable_of_iff (t.token.captureKind? = some c.kind ∧
      before.countP (fun t => t.token.captureKind? == some c.kind) = c.index)
    ⟨fun ⟨kind, index⟩ => ⟨kind, index⟩, fun ⟨kind, index⟩ => ⟨kind, index⟩⟩

/-- Between a capture and a later one stands a token that may vanish. -/
def SetApart (ts : List Located) (a b : CaptureId) : Prop :=
  ∃ before first between second behind, ts = before ++ first :: (between ++ second :: behind) ∧
    a.StandsAt before first ∧ b.StandsAt (before ++ first :: between) second ∧
    ∃ t ∈ between, t.token.mayVanish = true

section Tokens

/-- A capture is one of some tokens. -/
def WasRead (ts : List Located) (a : CaptureId) : Prop :=
  ∃ before first behind, ts = before ++ first :: behind ∧ a.StandsAt before first

/-- A capture is one of some tokens, and a token behind it may vanish. -/
def Shielded (ts : List Located) (a : CaptureId) : Prop :=
  ∃ before first behind, ts = before ++ first :: behind ∧ a.StandsAt before first ∧
    ∃ t ∈ behind, t.token.mayVanish = true

/-- A capture is the last of some tokens. -/
def IsLast (ts : List Located) (a : CaptureId) : Prop :=
  ∃ before first, ts = before ++ [first] ∧ a.StandsAt before first

variable {ts : List Located} {t : Located} {a b : CaptureId}

theorem WasRead.snoc (read : WasRead ts a) (t : Located) : WasRead (ts ++ [t]) a := by
  obtain ⟨before, first, behind, rfl, stands⟩ := read
  exact ⟨before, first, behind ++ [t], by simp, stands⟩

theorem Shielded.snoc (shielded : Shielded ts a) (t : Located) : Shielded (ts ++ [t]) a := by
  obtain ⟨before, first, behind, rfl, stands, t', among, vanishes⟩ := shielded
  exact ⟨before, first, behind ++ [t], by simp, stands, t', List.mem_append_left _ among, vanishes⟩

theorem SetApart.snoc (apart : SetApart ts a b) (t : Located) : SetApart (ts ++ [t]) a b := by
  obtain ⟨before, first, between, second, behind, rfl, stands, stands', vanishes⟩ := apart
  exact ⟨before, first, between, second, behind ++ [t], by simp, stands, stands', vanishes⟩

theorem WasRead.shielded (read : WasRead ts a) (vanishes : t.token.mayVanish = true) : Shielded (ts ++ [t]) a := by
  obtain ⟨before, first, behind, rfl, stands⟩ := read
  exact ⟨before, first, behind ++ [t], by simp, stands, t, by simp, vanishes⟩

theorem Shielded.setApart (shielded : Shielded ts a) (stands' : b.StandsAt ts t) : SetApart (ts ++ [t]) a b := by
  obtain ⟨before, first, behind, rfl, stands, vanishes⟩ := shielded
  exact ⟨before, first, behind, t, [], by simp, stands, stands', vanishes⟩

theorem CaptureId.StandsAt.isLast (stands : a.StandsAt ts t) : IsLast (ts ++ [t]) a :=
  ⟨ts, t, rfl, stands⟩

theorem IsLast.wasRead (last : IsLast ts a) : WasRead ts a := by
  obtain ⟨before, first, rfl, stands⟩ := last
  exact ⟨before, first, [], rfl, stands⟩

theorem IsLast.token (last : IsLast ts a) :
    ∃ t ∈ ts.getLast?, ∃ kind body stop, t.token = .capture kind body stop := by
  obtain ⟨before, first, rfl, stands⟩ := last
  have some_ := stands.kind
  unfold Token.captureKind? at some_
  split at some_
  next kind body stop capture => exact ⟨first, by simp, kind, body, stop, capture⟩
  · cases some_

theorem ne_capture (other : t.token.captureKind? = none) {kind : CaptureKind} {body : List Char} {stop : Nat} :
    t.token ≠ .capture kind body stop := by
  intro same
  rw [same] at other
  cases other

/-- A token stands where the one before it stops, if that is a capture, and it is no label then. -/
def Located.Precedes (t t' : Located) : Prop :=
  ∀ kind body stop, t.token = .capture kind body stop → t'.offset = stop ∧ ∀ label, t'.token ≠ .label label

/-- **The tokens of a text follow each other**, and the first stands where the text starts. -/
theorem tokensFrom_chain (offset : Nat) (branchStart : Bool) (cs : List Char) :
    (tokensFrom offset branchStart cs).IsChain Located.Precedes ∧
      ∀ t ∈ (tokensFrom offset branchStart cs).head?,
        t.offset = offset ∧ (branchStart = false → ∀ label, t.token ≠ .label label) := by
  have first {offset : Nat} {branchStart : Bool} {token : Token} {ts : List Located}
      (unlabelled : branchStart = false → ∀ label, token ≠ .label label) :
      ∀ t ∈ (⟨offset, token⟩ :: ts : List Located).head?,
        t.offset = offset ∧ (branchStart = false → ∀ label, t.token ≠ .label label) := by
    intro t among
    cases among
    exact ⟨rfl, unlabelled⟩
  fun_induction tokensFrom offset branchStart cs with
  | case1 offset branchStart cs label text rest found _ _ ih =>
    refine ⟨List.isChain_cons.2 ⟨fun _ _ => nofun, ih.1⟩, first fun within => ?_⟩
    rw [within] at found
    cases found
  | case2 => exact ⟨.nil, nofun⟩
  | case3 => exact ⟨.singleton _, first fun _ => nofun⟩
  | case4 offset branchStart c rest _ ih =>
    exact ⟨List.isChain_cons.2 ⟨fun _ _ => nofun, ih.1⟩, first fun _ => nofun⟩
  | case5 => exact ⟨.singleton _, first fun _ => nofun⟩
  | case6 offset branchStart c rest _ _ kind opens body rest' found =>
    rename_i ih
    refine ⟨List.isChain_cons.2 ⟨fun t' among kind' body' stop' same => ?_, ih.1⟩, first fun _ => nofun⟩
    cases same
    exact ⟨(ih.2 t' among).1, (ih.2 t' among).2 rfl⟩
  | case7 offset branchStart c rest single double opens token starts simple _ ih =>
    have other : (simpleToken c).1.captureKind? = none ∧ ∀ label, (simpleToken c).1 ≠ .label label := by
      unfold simpleToken
      split
      · exact ⟨rfl, nofun⟩
      · exact ⟨rfl, nofun⟩
      · exact ⟨rfl, nofun⟩
      · exact ⟨rfl, nofun⟩
      · exact ⟨rfl, nofun⟩
      · dsimp only
        split <;> exact ⟨rfl, nofun⟩
    rw [simple] at other
    refine ⟨List.isChain_cons.2 ⟨fun t' _ kind body stop same => ?_, ih.1⟩, first fun _ => other.2⟩
    have same : token = .capture kind body stop := same
    rw [same] at other
    cases other.1

theorem tokens_chain (source : String) : (tokens source).IsChain Located.Precedes :=
  (tokensFrom_chain 0 true source.toList).1

end Tokens

namespace Group

/-- What each way through the branches of an open group passes over, up to where the present one was read. -/
def passages (g : Group) : List Passage :=
  passagesOfBranches g.done ++ g.branch.passages

variable {g : Group} {a b c : CaptureId}

theorem holds_branches (holds : Holds (passagesOfBranches g.branches) c) : Holds g.passages c := by
  rw [branches, passagesOfBranches_append] at holds
  rcases holds_append holds with ⟨w, among, mem⟩ | holds
  · exact ⟨w, List.mem_append_left _ among, mem⟩
  · simp only [passagesOfBranches, List.append_nil] at holds
    obtain ⟨w, among, mem⟩ := Branch.holds_finish holds
    exact ⟨w, List.mem_append_right _ among, mem⟩

theorem joins_branches (joins : Joins (passagesOfBranches g.branches) a b) : Joins g.passages a b := by
  rw [branches, passagesOfBranches_append] at joins
  rcases joins_append joins with ⟨w, among, leads⟩ | joins
  · exact ⟨w, List.mem_append_left _ among, leads⟩
  · simp only [passagesOfBranches, List.append_nil] at joins
    obtain ⟨w, among, leads⟩ := Branch.joins_finish joins
    exact ⟨w, List.mem_append_right _ among, leads⟩

/-- What changes the present branch changes the passages of the group accordingly. -/
theorem holds_onBranch {f : Branch → Branch} {blank : Bool} {P : Prop}
    (branch : Holds (f g.branch).passages c → Holds g.branch.passages c ∨ P)
    (holds : Holds ((g.touched blank).onBranch f).passages c) : Holds g.passages c ∨ P := by
  rcases holds_append holds with ⟨w, among, mem⟩ | holds
  · exact .inl ⟨w, List.mem_append_left _ among, mem⟩
  · refine (branch holds).imp_left fun ⟨w, among, mem⟩ => ?_
    exact ⟨w, List.mem_append_right _ among, mem⟩

theorem joins_onBranch {f : Branch → Branch} {blank : Bool} {P : Prop}
    (branch : Joins (f g.branch).passages a b → Joins g.branch.passages a b ∨ P)
    (joins : Joins ((g.touched blank).onBranch f).passages a b) : Joins g.passages a b ∨ P := by
  rcases joins_append joins with ⟨w, among, leads⟩ | joins
  · exact .inl ⟨w, List.mem_append_left _ among, leads⟩
  · refine (branch joins).imp_left fun ⟨w, among, leads⟩ => ?_
    exact ⟨w, List.mem_append_right _ among, leads⟩

theorem holds_of_leavesOpen (opens : LeavesOpen g.branch.passages a) : Holds g.passages a := by
  obtain ⟨w, among, mem⟩ := opens.holds
  exact ⟨w, List.mem_append_right _ among, mem⟩

end Group

namespace Reading

/-- How many captures of a kind were read. -/
def count (r : Reading) : CaptureKind → Nat
  | .placeholder => r.placeholders.length
  | .regex => r.regexes.length

/-- What holds while tokens are read. Captures that follow each other in the tree are set apart by a token that may
vanish; what stands in the groups around the innermost one is shielded from all that is still read; and what is left
open at the end of the present branch is shielded as well, unless it is the last token. -/
structure Apart (ts : List Located) (r : Reading) : Prop where
  counts : ∀ kind, ts.countP (fun t => t.token.captureKind? == some kind) = r.count kind
  lastStop : ∀ t ∈ ts.getLast?, ∀ kind body stop, t.token = .capture kind body stop → r.lastStop = some stop
  read : ∀ g ∈ r.group :: r.outer, ∀ c, Holds g.passages c → WasRead ts c
  apart : ∀ g ∈ r.group :: r.outer, ∀ a b, Joins g.passages a b → SetApart ts a b
  outer : ∀ g ∈ r.outer, ∀ c, Holds g.passages c → Shielded ts c
  nested : (r.group :: r.outer).Pairwise fun g h =>
    ∀ a b, Holds h.passages a → Holds g.passages b → SetApart ts a b
  bare : r.group.branch.IsBare → ∀ a, LeavesOpen r.group.branch.passages a →
    Shielded ts a ∨ IsLast ts a ∧ r.group.branch.literal = []

variable {ts : List Located} {t : Located} {resolve : String → Option PatternType} {r r' : Reading}

theorem apart_start : Apart [] start where
  counts kind := by cases kind <;> rfl
  lastStop := nofun
  read g among c holds := by
    obtain rfl := List.mem_singleton.1 among
    exact absurd holds not_holds_nil
  apart g among a b joins := by
    obtain rfl := List.mem_singleton.1 among
    exact absurd joins.holds not_holds_nil
  outer := nofun
  nested := List.pairwise_singleton _ _
  bare _ a opens := absurd opens.holds not_holds_nil

section Step

variable (apart : r.Apart ts)

include apart

theorem Apart.counts_snoc (other : t.token.captureKind? = none) (placeholders : r'.placeholders = r.placeholders)
    (regexes : r'.regexes = r.regexes) (kind : CaptureKind) :
    (ts ++ [t]).countP (fun t => t.token.captureKind? == some kind) = r'.count kind := by
  have same : r'.count kind = r.count kind := by cases kind <;> simp [count, placeholders, regexes]
  rw [same, ← apart.counts kind, List.countP_append, List.countP_singleton, other]
  rfl

omit apart in
theorem lastStop_snoc (other : t.token.captureKind? = none) {last : Option Nat} :
    ∀ t' ∈ (ts ++ [t]).getLast?, ∀ kind body stop, t'.token = .capture kind body stop → last = some stop := by
  intro t' among kind body stop capture
  obtain rfl : t = t' := by simpa using among
  exact absurd capture (ne_capture other)

/-- What is read next may change the innermost group: it may add a capture, which it may join with captures that are
shielded from it. -/
theorem Apart.change (counts : ∀ kind, (ts ++ [t]).countP (fun t => t.token.captureKind? == some kind) = r'.count kind)
    (lastStop : ∀ kind body stop, t.token = .capture kind body stop → r'.lastStop = some stop)
    (outer : r'.outer = r.outer)
    (holds : ∀ c, Holds r'.group.passages c → Holds r.group.passages c ∨ c.StandsAt ts t)
    (joins : ∀ a b, Joins r'.group.passages a b → Joins r.group.passages a b ∨ Shielded ts a ∧ b.StandsAt ts t)
    (bare : r'.group.branch.IsBare → ∀ a, LeavesOpen r'.group.branch.passages a →
      Shielded (ts ++ [t]) a ∨ IsLast (ts ++ [t]) a ∧ r'.group.branch.literal = []) : r'.Apart (ts ++ [t]) where
  counts := counts
  lastStop t' among := by
    obtain rfl : t = t' := by simpa using among
    exact lastStop
  read g among c holds' := by
    rw [outer] at among
    rcases List.mem_cons.1 among with rfl | among
    · rcases holds c holds' with before | stands
      · exact (apart.read _ List.mem_cons_self c before).snoc t
      · exact stands.isLast.wasRead
    · exact (apart.read g (List.mem_cons_of_mem _ among) c holds').snoc t
  apart g among a b joins' := by
    rw [outer] at among
    rcases List.mem_cons.1 among with rfl | among
    · rcases joins a b joins' with before | ⟨shielded, stands⟩
      · exact (apart.apart _ List.mem_cons_self a b before).snoc t
      · exact shielded.setApart stands
    · exact (apart.apart g (List.mem_cons_of_mem _ among) a b joins').snoc t
  outer g among c holds' := by
    rw [outer] at among
    exact (apart.outer g among c holds').snoc t
  nested := by
    rw [outer]
    obtain ⟨first, others⟩ := List.pairwise_cons.1 apart.nested
    refine List.pairwise_cons.2 ⟨fun h among a b before inside => ?_, others.imp fun related a b before inside => ?_⟩
    · rcases holds b inside with inside | stands
      · exact (first h among a b before inside).snoc t
      · exact (apart.outer h among a before).setApart stands
    · exact (related a b before inside).snoc t
  bare := bare

/-- A token that adds no item to the present branch. -/
theorem Apart.onBranch {blank : Bool} {f : Branch → Branch} (other : t.token.captureKind? = none)
    (items : (f r.group.branch).items = r.group.branch.items)
    (bare : (f r.group.branch).IsBare → ∀ a, LeavesOpen r.group.branch.passages a →
      Shielded (ts ++ [t]) a ∨ IsLast (ts ++ [t]) a ∧ (f r.group.branch).literal = []) :
    (r.onBranch blank f).Apart (ts ++ [t]) := by
  have same : (f r.group.branch).passages = r.group.branch.passages := congrArg passagesOfItems items
  have group : ((r.group.touched blank).onBranch f).passages = r.group.passages :=
    congrArg (passagesOfBranches r.group.done ++ ·) same
  exact apart.change (apart.counts_snoc other rfl rfl) (fun _ _ _ capture => absurd capture (ne_capture other)) rfl
    (fun c holds => .inl (group ▸ holds)) (fun a b joins => .inl (group ▸ joins))
    fun isBare a opens => bare isBare a (same ▸ opens)

/-- No label is read behind a capture. -/
theorem Apart.label {label : Label} (follows : ∀ t' ∈ ts.getLast?, t'.Precedes t) (here : t.token = .label label) :
    (r.onBranch false fun b => { b with label }).Apart (ts ++ [t]) := by
  refine apart.onBranch (by rw [here]; rfl) rfl fun bare a opens => ?_
  rcases apart.bare bare a opens with shielded | ⟨last, -⟩
  · exact .inl (shielded.snoc t)
  · obtain ⟨t', among, kind, body, stop, capture⟩ := last.token
    exact absurd here ((follows t' among kind body stop capture).2 label)

/-- A blank that is no part of a literal separates; one that is goes on with the literal. -/
theorem Apart.blank (here : t.token = .blank) : (r.onBranch true Branch.addBlank).Apart (ts ++ [t]) := by
  have before (bare : r.group.branch.IsBare) (some_ : r.group.branch.literal ≠ []) (a : CaptureId)
      (opens : LeavesOpen r.group.branch.passages a) : Shielded (ts ++ [t]) a := by
    rcases apart.bare bare a opens with shielded | ⟨-, none⟩
    · exact shielded.snoc t
    · exact absurd none some_
  refine apart.onBranch (by rw [here]; rfl) (by unfold Branch.addBlank; split <;> [rfl; split <;> rfl])
    fun bare a opens => .inl ?_
  unfold Branch.addBlank at bare
  split at bare
  · cases bare.1
  next some_ =>
    have some_ : r.group.branch.literal ≠ [] := fun none => some_ (by rw [none]; rfl)
    split at bare
    · exact before bare some_ a opens
    · obtain ⟨space, blank⟩ := bare
      have blank : isBlankText r.group.branch.literal = true :=
        List.all_eq_true.2 fun c mem => List.all_eq_true.1 blank c (List.mem_append_left _ mem)
      exact before ⟨space, blank⟩ some_ a opens

/-- A letter is a part of a literal, unless it is an escaped blank. -/
theorem Apart.letter {c : Char} (here : t.token = .letter c) :
    (r.onBranch false fun b => b.addLetter c).Apart (ts ++ [t]) := by
  refine apart.onBranch (by rw [here]; rfl) rfl fun bare a opens => .inl ?_
  have vanishes : t.token.mayVanish = true := by
    rw [here]
    show isBlank c = true
    cases solid : isBlank c with
    | true => rfl
    | false =>
      obtain ⟨d, letters, small⟩ := List.exists_cons_of_ne_nil (lowerChar_ne_nil c)
      have mem : d ∈ lowerChar c := small ▸ List.mem_cons_self
      have blank := List.all_eq_true.1 bare.2 d (List.mem_append_right _ mem)
      rw [not_isBlank_of_mem_lowerChar solid mem] at blank
      cases blank
  exact (apart.read _ List.mem_cons_self a (Group.holds_of_leavesOpen opens)).shielded vanishes

/-- A bar starts a branch with nothing in it. -/
theorem Apart.bar (here : t.token = .bar) :
    Apart (ts ++ [t]) { r with group := (r.group.touched false).nextBranch } := by
  have other : t.token.captureKind? = none := by rw [here]; rfl
  refine apart.change (apart.counts_snoc other rfl rfl) (fun _ _ _ capture => absurd capture (ne_capture other)) rfl
    (fun c holds => .inl ?_) (fun a b joins => .inl ?_) fun _ a opens => absurd opens.holds not_holds_nil
  · exact Group.holds_branches ((holds_append holds).resolve_right not_holds_nil)
  · exact Group.joins_branches ((joins_append joins).resolve_right fun joins => not_holds_nil joins.holds)

/-- A bracket opens a group with nothing in it, and shields it from all that was read. -/
theorem Apart.opening {bracket : Bracket} (here : t.token = .opening bracket) (opener : Option (Bracket × Nat)) :
    Apart (ts ++ [t]) { r with
      group := .start opener
      outer := (r.group.touched false).onBranch Branch.flush :: r.outer } := by
  have vanishes : t.token.mayVanish = true := by rw [here]; rfl
  have other : t.token.captureKind? = none := by rw [here]; rfl
  let flushed := (r.group.touched false).onBranch Branch.flush
  have holds (c : CaptureId) (holds : Holds flushed.passages c) : Holds r.group.passages c :=
    (Group.holds_onBranch (P := False) (fun holds => .inl (Branch.holds_flush holds)) holds).resolve_right id
  have joins (a b : CaptureId) (joins : Joins flushed.passages a b) : Joins r.group.passages a b :=
    (Group.joins_onBranch (P := False) (fun joins => .inl (Branch.joins_flush joins)) joins).resolve_right id
  have before (c : CaptureId) (h : Holds flushed.passages c) : WasRead ts c :=
    apart.read _ List.mem_cons_self c (holds c h)
  refine ⟨apart.counts_snoc other rfl rfl, lastStop_snoc other, fun g among c h => ?_, fun g among a b h => ?_,
    fun g among c h => ?_, ?_, fun _ a opens => ?_⟩
  · rcases List.mem_cons.1 among with rfl | among
    · exact absurd h not_holds_nil
    rcases List.mem_cons.1 among with rfl | among
    · exact (before c h).snoc t
    · exact (apart.read g (List.mem_cons_of_mem _ among) c h).snoc t
  · rcases List.mem_cons.1 among with rfl | among
    · exact absurd h.holds not_holds_nil
    rcases List.mem_cons.1 among with rfl | among
    · exact (apart.apart _ List.mem_cons_self a b (joins a b h)).snoc t
    · exact (apart.apart g (List.mem_cons_of_mem _ among) a b h).snoc t
  · rcases List.mem_cons.1 among with rfl | among
    · exact (before c h).shielded vanishes
    · exact (apart.outer g among c h).snoc t
  · obtain ⟨first, others⟩ := List.pairwise_cons.1 apart.nested
    refine List.pairwise_cons.2 ⟨fun h among a b _ inside => absurd inside not_holds_nil, ?_⟩
    refine List.pairwise_cons.2 ⟨fun h among a b outside inside => ?_, others.imp fun related a b outside inside => ?_⟩
    · exact (first h among a b outside (holds b inside)).snoc t
    · exact (related a b outside inside).snoc t
  · exact absurd opens.holds not_holds_nil

omit apart in
/-- What closing a group does: the group around it goes on, with what was read in both. -/
theorem close_cases {bracket : Bracket} {offset : Nat} (h : r.close bracket offset = .ok r') :
    ∃ parent, r.outer = parent :: r'.outer ∧ r'.placeholders = r.placeholders ∧ r'.regexes = r.regexes ∧
      (∀ c, Holds r'.group.passages c → Holds parent.passages c ∨ Holds r.group.passages c) ∧
      ∀ a b, Joins r'.group.passages a b →
        Joins parent.passages a b ∨ Joins r.group.passages a b ∨ Holds parent.passages a ∧ Holds r.group.passages b := by
  unfold close at h
  split at h
  next opened at_ parent outer _ around =>
    -- a group that is not blank becomes an item of the group around it
    have holds (e : Element) (inner : ∀ c, Holds e.passages c → Holds r.group.passages c) (c : CaptureId)
        (h : Holds ((parent.touched false).onBranch (·.push e)).passages c) :
        Holds parent.passages c ∨ Holds r.group.passages c :=
      Group.holds_onBranch (fun h => (Branch.holds_push h).imp_right (inner c)) h
    have joins (e : Element) (inner : ∀ c, Holds e.passages c → Holds r.group.passages c)
        (inner' : ∀ a b, Joins e.passages a b → Joins r.group.passages a b) (a b : CaptureId)
        (h : Joins ((parent.touched false).onBranch (·.push e)).passages a b) :
        Joins parent.passages a b ∨ Joins r.group.passages a b ∨
          Holds parent.passages a ∧ Holds r.group.passages b := by
      refine Group.joins_onBranch (fun h => (Branch.joins_push h).imp_right fun h => ?_) h
      exact h.imp (inner' a b) fun ⟨⟨_, opens⟩, h⟩ => ⟨Group.holds_of_leavesOpen opens, inner b h⟩
    dsimp only at h
    split at h
    · cases h
    split at h
    · split at h
      · cases h
        exact ⟨parent, around, rfl, rfl, fun c => .inl, fun a b => .inl⟩
      · cases h
    · cases bracket with
      | square =>
        cases h
        have inner (c : CaptureId) (h : Holds (Element.optional (.ofBranches r.group.branches)).passages c) :
            Holds r.group.passages c := by
          rw [Element.passages, passages_ofBranches] at h
          exact Group.holds_branches ((@holds_append _ [[]] _ h).resolve_left not_holds_nil)
        refine ⟨parent, around, rfl, rfl, holds _ inner, joins _ inner fun a b h => ?_⟩
        rw [Element.passages, passages_ofBranches] at h
        exact Group.joins_branches ((@joins_append [[]] _ _ _ h).resolve_left fun h => not_holds_nil h.holds)
      | round =>
        cases h
        refine ⟨parent, around, rfl, rfl, holds _ fun c h => ?_, joins _ (fun c h => ?_) fun a b h => ?_⟩
        · exact Group.holds_branches (by rwa [Element.passages] at h)
        · exact Group.holds_branches (by rwa [Element.passages] at h)
        · exact Group.joins_branches (by rwa [Element.passages] at h)
  · cases h

/-- A bracket closes a group, and shields all that was read from what is read behind it. -/
theorem Apart.closing {bracket : Bracket} {offset : Nat} (here : t.token = .closing bracket)
    (h : r.close bracket offset = .ok r') : r'.Apart (ts ++ [t]) := by
  have vanishes : t.token.mayVanish = true := by rw [here]; rfl
  have other : t.token.captureKind? = none := by rw [here]; rfl
  obtain ⟨parent, around, placeholders, regexes, holds, joins⟩ := close_cases h
  obtain ⟨first, others⟩ := List.pairwise_cons.1 apart.nested
  rw [around] at first others
  obtain ⟨first', others⟩ := List.pairwise_cons.1 others
  have inOuter : parent ∈ r.outer := around ▸ List.mem_cons_self
  have further {g : Group} (among : g ∈ r'.outer) : g ∈ r.outer := around ▸ List.mem_cons_of_mem _ among
  have read (c : CaptureId) (h : Holds r'.group.passages c) : WasRead ts c := by
    rcases holds c h with h | h
    · exact apart.read parent (List.mem_cons_of_mem _ inOuter) c h
    · exact apart.read _ List.mem_cons_self c h
  refine ⟨apart.counts_snoc other placeholders regexes, lastStop_snoc other, fun g among c h => ?_,
    fun g among a b h => ?_, fun g among c h => ?_, ?_, fun _ a opens => .inl ?_⟩
  · rcases List.mem_cons.1 among with rfl | among
    · exact (read c h).snoc t
    · exact (apart.read g (List.mem_cons_of_mem _ (further among)) c h).snoc t
  · rcases List.mem_cons.1 among with rfl | among
    · rcases joins a b h with h | h | ⟨outside, inside⟩
      · exact (apart.apart parent (List.mem_cons_of_mem _ inOuter) a b h).snoc t
      · exact (apart.apart _ List.mem_cons_self a b h).snoc t
      · exact (first parent List.mem_cons_self a b outside inside).snoc t
    · exact (apart.apart g (List.mem_cons_of_mem _ (further among)) a b h).snoc t
  · exact (apart.outer g (further among) c h).snoc t
  · refine List.pairwise_cons.2 ⟨fun g among a b outside inside => ?_, others.imp fun related a b outside inside => ?_⟩
    · rcases holds b inside with inside | inside
      · exact (first' g among a b outside inside).snoc t
      · exact (first g (List.mem_cons_of_mem _ among) a b outside inside).snoc t
    · exact (related a b outside inside).snoc t
  · exact (read a (Group.holds_of_leavesOpen opens)).shielded vanishes

omit apart in
/-- What reading a capture does: it does not touch the capture before it, and becomes an item of the present
branch. -/
theorem addCapture_cases {offset stop : Nat} {kind : CaptureKind} {body : List Char}
    (h : r.addCapture resolve offset kind body stop = .ok r') :
    r.lastStop ≠ some offset ∧ r'.lastStop = some stop ∧ r'.outer = r.outer ∧
      (∀ kind', r'.count kind' = r.count kind' + if kind = kind' then 1 else 0) ∧
      r'.group = (r.group.touched false).onBranch fun b => b.flush.push (CaptureId.mk kind (r.count kind)).element := by
  unfold addCapture at h
  split at h
  · cases h
  next apart =>
  have apart : r.lastStop ≠ some offset := fun touches => apart (beq_iff_eq.2 touches)
  cases kind with
  | placeholder =>
    dsimp only at h
    split at h
    · cases h
    next p found =>
      cases h
      refine ⟨apart, rfl, rfl, fun kind' => ?_, ?_⟩
      · cases kind' <;> simp [count, Reading.onBranch]
      · rw [Reading.onBranch, index_placeholderOf found]
        rfl
  | regex =>
    dsimp only at h
    split at h
    · cases h
    next x found =>
      cases h
      refine ⟨apart, rfl, rfl, fun kind' => ?_, rfl⟩
      cases kind' <;> simp [count, Reading.onBranch]

/-- **A capture is joined only with captures that are shielded from it**: the last token is none that it could be
joined with, since the two would touch. -/
theorem Apart.capture {kind : CaptureKind} {body : List Char} {stop : Nat}
    (follows : ∀ t' ∈ ts.getLast?, t'.Precedes t) (here : t.token = .capture kind body stop)
    (h : r.addCapture resolve t.offset kind body stop = .ok r') : r'.Apart (ts ++ [t]) := by
  obtain ⟨apart_, lastStop, outer, counts, group⟩ := addCapture_cases h
  have passages := passages_element ⟨kind, r.count kind⟩
  generalize (CaptureId.mk kind (r.count kind)).element = e at group passages
  have stands : CaptureId.StandsAt ⟨kind, r.count kind⟩ ts t := ⟨by rw [here]; rfl, apart.counts kind⟩
  have only {c : CaptureId} (holds : Holds e.passages c) : c = ⟨kind, r.count kind⟩ := by
    obtain ⟨w, among, mem⟩ := holds
    rw [passages] at among
    rw [List.mem_singleton.1 among] at mem
    simpa using mem
  have alone {a b : CaptureId} : ¬ Joins e.passages a b := by
    rintro ⟨w, among, ahead, between, behind, same, -⟩
    rw [passages] at among
    rw [List.mem_singleton.1 among] at same
    have length := congrArg List.length same
    simp at length
    omega
  have literal : r.group.branch.flush.literal = [] := by
    unfold Branch.flush
    dsimp only
    split <;> rfl
  have shielded {a : CaptureId} (opens : r.group.branch.flush.space = false ∧
      LeavesOpen r.group.branch.flush.passages a) : Shielded ts a := by
    obtain ⟨bare, opens⟩ := Branch.bare_of_flush opens
    rcases apart.bare bare a opens with shielded | ⟨last, -⟩
    · exact shielded
    · obtain ⟨t', among, kind', body', stop', capture⟩ := last.token
      have stops := apart.lastStop t' among kind' body' stop' capture
      rw [← (follows t' among kind' body' stop' capture).1] at stops
      exact absurd stops apart_
  refine apart.change (fun kind' => ?_) (fun kind' body' stop' same => ?_) outer (fun c holds => ?_)
    (fun a b joins => ?_) fun _ a opens => ?_
  · rw [counts, ← apart.counts kind', List.countP_append, List.countP_singleton, here]
    simp [Token.captureKind?]
  · rw [here] at same
    cases same
    exact lastStop
  · rw [group] at holds
    refine Group.holds_onBranch (fun holds => ?_) holds
    refine (Branch.holds_push holds).imp Branch.holds_flush fun holds => ?_
    rw [only holds]
    exact stands
  · rw [group] at joins
    refine Group.joins_onBranch (fun joins => ?_) joins
    rcases Branch.joins_push joins with joins | joins | ⟨opens, holds⟩
    · exact .inl (Branch.joins_flush joins)
    · exact absurd joins alone
    · rw [only holds]
      exact .inr ⟨shielded opens, stands⟩
  · rw [group] at opens ⊢
    rcases Branch.leavesOpen_push opens with opens | ⟨opens, -⟩
    · rw [only opens.holds]
      exact .inr ⟨stands.isLast, literal⟩
    · exact .inl ((shielded opens).snoc t)

/-- Every token keeps the invariant, if it follows the one before it. -/
theorem Apart.next (follows : ∀ t' ∈ ts.getLast?, t'.Precedes t) (h : r.next resolve t = .ok r') :
    r'.Apart (ts ++ [t]) := by
  unfold Reading.next at h
  split at h
  next label here => cases h; exact apart.label follows here
  next here => cases h; exact apart.blank here
  next c here => cases h; exact apart.letter here
  next here => cases h; exact apart.bar here
  next bracket here => cases h; exact apart.opening here _
  next bracket here => exact apart.closing here h
  next kind body stop here => exact apart.capture follows here h
  next => split at h <;> cases h
  next => cases h

theorem Apart.finish {root : Element} (h : r.finish = .ok root) {a b : CaptureId} (joins : Joins root.passages a b) :
    SetApart ts a b := by
  unfold Reading.finish at h
  split at h
  · cases h
  · split at h
    · cases h
    · cases h
      rw [passages_ofBranches] at joins
      exact apart.apart _ List.mem_cons_self a b (Group.joins_branches joins)

end Step

/-- The tokens keep the invariant, if they follow each other. -/
theorem Apart.readAll {more : List Located} (apart : r.Apart ts) (follow : (ts ++ more).IsChain Located.Precedes)
    (h : readAll resolve r more = .ok r') : r'.Apart (ts ++ more) := by
  induction more generalizing ts r with
  | nil =>
    cases h
    rwa [List.append_nil]
  | cons t more ih =>
    obtain ⟨next, step, h⟩ := readAll_cons h
    have follows : ∀ t' ∈ ts.getLast?, t'.Precedes t := fun t' among =>
      (List.isChain_append.1 follow).2.2 t' among t rfl
    rw [List.append_cons] at follow ⊢
    exact ih (apart.next follows step) follow h

end Reading

/-- Tokens that are read are read one part after the other. -/
theorem exists_readAll_append {resolve : String → Option PatternType} {r r' : Reading} {ts more : List Located}
    (h : readAll resolve r (ts ++ more) = .ok r') :
    ∃ mid, readAll resolve r ts = .ok mid ∧ readAll resolve mid more = .ok r' := by
  induction ts generalizing r with
  | nil => exact ⟨r, rfl, h⟩
  | cons t ts ih =>
    obtain ⟨next, step, h⟩ := readAll_cons h
    obtain ⟨mid, first, second⟩ := ih h
    refine ⟨mid, ?_, second⟩
    rw [readAll, step]
    exact first

/-- No two captures of a text that is read touch each other. -/
theorem not_touching {resolve : String → Option PatternType} {r' : Reading} {before behind : List Located}
    {first second : Located} {kind : CaptureKind} (capture : first.token.captureKind? = some kind)
    (follow : (before ++ first :: second :: behind).IsChain Located.Precedes)
    (h : readAll resolve .start (before ++ first :: second :: behind) = .ok r') :
    second.token.captureKind? = none := by
  rw [List.append_cons] at follow h
  obtain ⟨mid, read, h⟩ := exists_readAll_append h
  obtain ⟨next, step, -⟩ := readAll_cons h
  obtain ⟨ahead, -, follows⟩ := List.isChain_append.1 follow
  have apart := Reading.apart_start.readAll ahead read
  have last : first ∈ (before ++ [first]).getLast? := by simp
  unfold Token.captureKind? at capture
  split at capture
  next kind body stop here =>
    have stops := apart.lastStop first last kind body stop here
    rw [← (follows first last second rfl kind body stop here).1] at stops
    cases here' : second.token with
    | capture kind' body' stop' =>
      have step : mid.addCapture resolve second.offset kind' body' stop' = .ok next := by
        rwa [Reading.next, here'] at step
      exact absurd stops (Reading.addCapture_cases step).1
    | _ => rfl
  · cases capture

/-- **Captures that nothing separates are set apart by a bracket or an escaped blank.** No two captures of a pattern
that compiles touch each other in its text; and if a way through its tree leads from one capture to another and
passes over no literal and no word boundary between them, then a bracket or an escaped blank stands between the two
in the text. -/
theorem compile_setApart {resolve : String → Option PatternType} {source : String} {p : Pattern}
    (h : Pattern.compile resolve source = .ok p) :
    (∀ before first second behind, tokens source = before ++ first :: second :: behind →
      first.token.captureKind? = none ∨ second.token.captureKind? = none) ∧
    ∀ a b, Joins p.root.passages a b → SetApart (tokens source) a b := by
  obtain ⟨reading, read, finish, -⟩ := compile_reads h
  have follow := tokens_chain source
  constructor
  · intro before first second behind same
    rw [same] at read follow
    cases capture : first.token.captureKind? with
    | none => exact .inl rfl
    | some kind => exact .inr (not_touching capture follow read)
  · intro a b joins
    exact (Reading.apart_start.readAll follow read).finish finish joins

/-- A group comes between two numbers in the text, but not in the tree: the only way through it leads from the one to
the other. -/
theorem compile_setApart_grouped :
    let resolve (name : String) := if name == "number" then some (PatternType.mk 0 true) else none
    let source := "(%number%)%number%"
    let first : CaptureId := ⟨.placeholder, 0⟩
    let second : CaptureId := ⟨.placeholder, 1⟩
    ∃ p, Pattern.compile resolve source = .ok p ∧ p.root.passages = [[.capture first, .capture second]] ∧
      SetApart (tokens source) first second := by
  intro resolve source first second
  have ways : (Pattern.compile resolve source).toOption.map (fun p => p.root.passages) =
      some [[.capture first, .capture second]] := by decide +kernel
  cases compiled : Pattern.compile resolve source with
  | error cause =>
    rw [compiled] at ways
    cases ways
  | ok p =>
    rw [compiled] at ways
    have passages : p.root.passages = [[.capture first, .capture second]] := Option.some.inj ways
    have joins : Joins p.root.passages first second :=
      ⟨_, passages ▸ List.mem_cons_self, [], [], [], rfl, List.not_mem_nil⟩
    exact ⟨p, rfl, passages, (compile_setApart compiled).2 first second joins⟩

end Phrasebook.Pattern
