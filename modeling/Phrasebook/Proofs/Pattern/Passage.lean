import Mathlib.Data.List.TakeWhile
import Phrasebook.Pattern.Reader

/-!
# Passages through a pattern

A way through the tree of a pattern passes over some of its captures and, between them, over literals and word
boundaries. `Element.passages` lists what each way passes over. Two captures can be told apart on a way if a literal
or a boundary comes between them. Here is what the passages of a branch become while the branch is being read.
-/

namespace Phrasebook.Pattern
open Text

/-- Which capture of a pattern: the captures of each kind are numbered on their own. -/
structure CaptureId where
  kind : CaptureKind
  index : Nat
deriving DecidableEq, Repr

/-- The element of a capture. -/
def CaptureId.element : CaptureId → Element
  | ⟨.placeholder, index⟩ => .placeholder index
  | ⟨.regex, index⟩ => .regex index

/-- What a way through a pattern passes over. -/
inductive Stage where
  | capture (c : CaptureId)
  /-- a literal or a word boundary -/
  | separator
deriving DecidableEq, Repr

/-- What one way through a pattern passes over, in this order. -/
abbrev Passage := List Stage

/-- The ways that go on behind some ways as some others do. -/
def along (first second : List Passage) : List Passage :=
  first.flatMap fun w => second.map (w ++ ·)

namespace Element

mutual

/-- What each way through an element passes over. -/
def passages : Element → List Passage
  | literal _ | space => [[.separator]]
  | optional inner => [] :: inner.passages
  | choice branches => passagesOfBranches branches
  | placeholder index => [[.capture ⟨.placeholder, index⟩]]
  | regex index => [[.capture ⟨.regex, index⟩]]
  | sequence items => passagesOfItems items

/-- What each way through a sequence passes over. -/
def passagesOfItems : List Element → List Passage
  | [] => [[]]
  | e :: rest => along e.passages (passagesOfItems rest)

/-- What each way through one of the branches passes over. -/
def passagesOfBranches : List (Label × Element) → List Passage
  | [] => []
  | (_, e) :: rest => e.passages ++ passagesOfBranches rest

end

end Element

namespace Passage
open Element

/-- A way leads from one capture to another, and passes over no separator between them. -/
def Leads (w : Passage) (a b : CaptureId) : Prop :=
  ∃ ahead between behind, w = ahead ++ .capture a :: (between ++ .capture b :: behind) ∧ .separator ∉ between

/-- A way passes over no separator behind a capture. -/
def Trails (w : Passage) (a : CaptureId) : Prop :=
  ∃ ahead behind, w = ahead ++ .capture a :: behind ∧ .separator ∉ behind

/-- Some way passes over a capture. -/
def Holds (ways : List Passage) (c : CaptureId) : Prop :=
  ∃ w ∈ ways, .capture c ∈ w

/-- Some way leads from one capture to another without a separator between them. -/
def Joins (ways : List Passage) (a b : CaptureId) : Prop :=
  ∃ w ∈ ways, Leads w a b

/-- Some way passes over no separator behind a capture. -/
def LeavesOpen (ways : List Passage) (a : CaptureId) : Prop :=
  ∃ w ∈ ways, Trails w a

section Passages

variable {w w' : Passage} {first second : List Passage} {a b c : CaptureId}

theorem mem_along : w ∈ along first second ↔ ∃ u ∈ first, ∃ v ∈ second, u ++ v = w := by
  simp only [along, List.mem_flatMap, List.mem_map]

theorem Trails.append (trails : Trails (w ++ w') a) : Trails w' a ∨ Trails w a ∧ .separator ∉ w' := by
  obtain ⟨ahead, behind, same, clear⟩ := trails
  rcases List.append_eq_append_iff.1 same with ⟨later, -, rfl⟩ | ⟨part, rfl, rest⟩
  · exact .inl ⟨later, behind, rfl, clear⟩
  · cases part with
    | nil => exact .inl ⟨[], behind, rest.symm, clear⟩
    | cons stage part =>
      rw [List.cons_append] at rest
      obtain ⟨rfl, rfl⟩ := List.cons.inj rest
      rw [List.mem_append, not_or] at clear
      exact .inr ⟨⟨ahead, part, rfl, clear.1⟩, clear.2⟩

/-- A way that leads from a capture of its first part to one of its second part passes over no separator at the end
of the first. -/
theorem Leads.append (leads : Leads (w ++ w') a b) :
    Leads w a b ∨ Leads w' a b ∨ Trails w a ∧ .capture b ∈ w' := by
  obtain ⟨ahead, between, behind, same, clear⟩ := leads
  rcases List.append_eq_append_iff.1 same with ⟨later, -, rfl⟩ | ⟨part, rfl, rest⟩
  · exact .inr (.inl ⟨later, between, behind, rfl, clear⟩)
  cases part with
  | nil => exact .inr (.inl ⟨[], between, behind, rest.symm, clear⟩)
  | cons stage part =>
    rw [List.cons_append] at rest
    obtain ⟨rfl, later⟩ := List.cons.inj rest
    rcases List.append_eq_append_iff.1 later with ⟨part', rfl, rest'⟩ | ⟨part', rfl, rfl⟩
    · cases part' with
      | nil =>
        refine .inr (.inr ⟨⟨ahead, between, by rw [List.append_nil], clear⟩, ?_⟩)
        rw [← List.nil_append w', ← rest']
        exact List.mem_cons_self
      | cons stage part' =>
        rw [List.cons_append] at rest'
        obtain ⟨rfl, rfl⟩ := List.cons.inj rest'
        exact .inl ⟨ahead, between, part', rfl, clear⟩
    · rw [List.mem_append, not_or] at clear
      refine .inr (.inr ⟨⟨ahead, part, rfl, clear.1⟩, ?_⟩)
      exact List.mem_append_right _ List.mem_cons_self

theorem holds_along (holds : Holds (along first second) c) : Holds first c ∨ Holds second c := by
  obtain ⟨_, among, mem⟩ := holds
  obtain ⟨u, ahead, v, behind, rfl⟩ := mem_along.1 among
  rcases List.mem_append.1 mem with mem | mem
  · exact .inl ⟨u, ahead, mem⟩
  · exact .inr ⟨v, behind, mem⟩

theorem joins_along (joins : Joins (along first second) a b) :
    Joins first a b ∨ Joins second a b ∨ LeavesOpen first a ∧ Holds second b := by
  obtain ⟨_, among, leads⟩ := joins
  obtain ⟨u, ahead, v, behind, rfl⟩ := mem_along.1 among
  rcases leads.append with leads | leads | ⟨trails, mem⟩
  · exact .inl ⟨u, ahead, leads⟩
  · exact .inr (.inl ⟨v, behind, leads⟩)
  · exact .inr (.inr ⟨⟨u, ahead, trails⟩, v, behind, mem⟩)

theorem leavesOpen_along (opens : LeavesOpen (along first second) a) :
    LeavesOpen second a ∨ LeavesOpen first a ∧ ∃ w ∈ second, .separator ∉ w := by
  obtain ⟨_, among, trails⟩ := opens
  obtain ⟨u, ahead, v, behind, rfl⟩ := mem_along.1 among
  rcases trails.append with trails | ⟨trails, clear⟩
  · exact .inl ⟨v, behind, trails⟩
  · exact .inr ⟨⟨u, ahead, trails⟩, v, behind, clear⟩

/-- A way over nothing passes over no capture. -/
theorem not_holds_nil : ¬ Holds [[]] c := by
  rintro ⟨w, among, mem⟩
  rw [List.mem_singleton.1 among] at mem
  cases mem

theorem Leads.mem (leads : Leads w a b) : .capture a ∈ w ∧ .capture b ∈ w := by
  obtain ⟨ahead, between, behind, rfl, -⟩ := leads
  simp

theorem Trails.mem (trails : Trails w a) : .capture a ∈ w := by
  obtain ⟨ahead, behind, rfl, -⟩ := trails
  simp

theorem Joins.holds {ways : List Passage} (joins : Joins ways a b) : Holds ways a := by
  obtain ⟨w, among, leads⟩ := joins
  exact ⟨w, among, leads.mem.1⟩

theorem LeavesOpen.holds {ways : List Passage} (opens : LeavesOpen ways a) : Holds ways a := by
  obtain ⟨w, among, trails⟩ := opens
  exact ⟨w, among, trails.mem⟩

end Passages

section Append

variable {xs ys : List Element} {branches branches' : List (Label × Element)} {w : Passage} {c : CaptureId}

theorem mem_passagesOfItems_append :
    w ∈ passagesOfItems (xs ++ ys) ↔ w ∈ along (passagesOfItems xs) (passagesOfItems ys) := by
  induction xs generalizing w with
  | nil => simp [passagesOfItems, along]
  | cons e xs ih =>
    simp only [List.cons_append, passagesOfItems, mem_along, ih]
    constructor
    · rintro ⟨u, first, _, ⟨v, second, v', third, rfl⟩, rfl⟩
      exact ⟨u ++ v, ⟨u, first, v, second, rfl⟩, v', third, List.append_assoc u v v'⟩
    · rintro ⟨_, ⟨u, first, v, second, rfl⟩, v', third, rfl⟩
      exact ⟨u, first, v ++ v', ⟨v, second, v', third, rfl⟩, (List.append_assoc u v v').symm⟩

theorem mem_passagesOfItems_snoc {e : Element} :
    w ∈ passagesOfItems (xs ++ [e]) ↔ w ∈ along (passagesOfItems xs) e.passages := by
  rw [mem_passagesOfItems_append]
  simp [passagesOfItems, along]

@[simp] theorem passagesOfBranches_append :
    passagesOfBranches (branches ++ branches') = passagesOfBranches branches ++ passagesOfBranches branches' := by
  induction branches with
  | nil => rfl
  | cons b branches ih =>
    obtain ⟨label, e⟩ := b
    simp only [List.cons_append, passagesOfBranches, ih, List.append_assoc]

theorem passages_element (c : CaptureId) : c.element.passages = [[.capture c]] := by
  obtain ⟨kind, index⟩ := c
  cases kind <;> rfl

theorem passages_ofBranches (branches : List (Label × Element)) :
    (ofBranches branches).passages = passagesOfBranches branches := by
  unfold ofBranches
  split
  · split <;> simp [passages, passagesOfBranches]
  · rw [passages]

theorem holds_append {ways ways' : List Passage} (holds : Holds (ways ++ ways') c) : Holds ways c ∨ Holds ways' c := by
  obtain ⟨w, among, mem⟩ := holds
  exact (List.mem_append.1 among).imp (fun among => ⟨w, among, mem⟩) fun among => ⟨w, among, mem⟩

theorem joins_append {ways ways' : List Passage} {a b : CaptureId} (joins : Joins (ways ++ ways') a b) :
    Joins ways a b ∨ Joins ways' a b := by
  obtain ⟨w, among, leads⟩ := joins
  exact (List.mem_append.1 among).imp (fun among => ⟨w, among, leads⟩) fun among => ⟨w, among, leads⟩

end Append

end Passage

namespace Branch
open Element Passage

/-- What each way through the items that were read passes over. -/
def passages (b : Branch) : List Passage :=
  passagesOfItems b.items

/-- Nothing that separates captures stands behind the items that were read. -/
def IsBare (b : Branch) : Prop :=
  b.space = false ∧ isBlankText b.literal = true

variable {b : Branch} {e : Element} {items : List Element} {a c : CaptureId}

section Gap

/-- Where there is a boundary, it is passed over. -/
theorem not_holds_gap (p : Bool) : ¬ Holds (passagesOfItems (if p then [Element.space] else [])) c := by
  rintro ⟨w, among, mem⟩
  cases p <;> simp [passagesOfItems, Element.passages, along] at among <;> simp [among] at mem

theorem holds_gap {p : Bool} (holds : Holds (passagesOfItems (items ++ if p then [Element.space] else [])) c) :
    Holds (passagesOfItems items) c := by
  obtain ⟨w, among, mem⟩ := holds
  exact (holds_along ⟨w, mem_passagesOfItems_append.1 among, mem⟩).resolve_right (not_holds_gap p)

theorem joins_gap {p : Bool} (joins : Joins (passagesOfItems (items ++ if p then [Element.space] else [])) a c) :
    Joins (passagesOfItems items) a c := by
  obtain ⟨w, among, leads⟩ := joins
  rcases joins_along ⟨w, mem_passagesOfItems_append.1 among, leads⟩ with joins | joins | ⟨-, holds⟩
  · exact joins
  · exact absurd joins.holds (not_holds_gap p)
  · exact absurd holds (not_holds_gap p)

theorem leavesOpen_gap {p : Bool}
    (opens : LeavesOpen (passagesOfItems (items ++ if p then [Element.space] else [])) a) :
    p = false ∧ LeavesOpen (passagesOfItems items) a := by
  obtain ⟨w, among, trails⟩ := opens
  rcases leavesOpen_along ⟨w, mem_passagesOfItems_append.1 among, trails⟩ with later | ⟨before, v, gap, clear⟩
  · exact absurd later.holds (not_holds_gap p)
  · refine ⟨?_, before⟩
    cases p with
    | false => rfl
    | true =>
      simp [passagesOfItems, Element.passages, along] at gap
      simp [gap] at clear

end Gap

section Push

theorem holds_push (holds : Holds (b.push e).passages c) : Holds b.passages c ∨ Holds e.passages c := by
  obtain ⟨w, among, mem⟩ := holds
  exact (holds_along ⟨w, mem_passagesOfItems_snoc.1 among, mem⟩).imp_left holds_gap

/-- An item goes on behind a capture that was left open only if no blank stands between them. A blank before the
first item is no boundary, but no capture stands before it either. -/
theorem unspaced_of_leavesOpen_gap (opens : LeavesOpen (passagesOfItems
      (b.items ++ if b.space && (b.nested || !b.items.isEmpty) then [Element.space] else [])) a) :
    b.space = false ∧ LeavesOpen b.passages a := by
  obtain ⟨none, before⟩ := leavesOpen_gap opens
  refine ⟨?_, before⟩
  cases spaced : b.space with
  | false => rfl
  | true =>
    rw [spaced, Bool.true_and, Bool.or_eq_false_iff] at none
    have empty : b.items = [] := by simpa using none.2
    rw [empty] at before
    exact absurd before.holds not_holds_nil

theorem joins_push (joins : Joins (b.push e).passages a c) :
    Joins b.passages a c ∨ Joins e.passages a c ∨ (b.space = false ∧ LeavesOpen b.passages a) ∧ Holds e.passages c := by
  obtain ⟨w, among, leads⟩ := joins
  rcases joins_along ⟨w, mem_passagesOfItems_snoc.1 among, leads⟩ with joins | joins | ⟨opens, holds⟩
  · exact .inl (joins_gap joins)
  · exact .inr (.inl joins)
  · exact .inr (.inr ⟨unspaced_of_leavesOpen_gap opens, holds⟩)

theorem leavesOpen_push (opens : LeavesOpen (b.push e).passages a) :
    LeavesOpen e.passages a ∨ (b.space = false ∧ LeavesOpen b.passages a) ∧ ∃ w ∈ e.passages, .separator ∉ w := by
  obtain ⟨w, among, trails⟩ := opens
  exact (leavesOpen_along ⟨w, mem_passagesOfItems_snoc.1 among, trails⟩).imp_right
    (And.imp_left unspaced_of_leavesOpen_gap)

end Push

section Flush

/-- Ending a literal adds at most separators. -/
theorem flush_cases (b : Branch) :
    isBlankText b.literal = true ∧ b.flush.passages = b.passages ∧ b.flush.space = b.space ∨
    ∃ text, b.flush.passages = ({ b with literal := [] }.push (.literal text)).passages := by
  unfold flush
  dsimp only
  split
  next blank =>
    refine .inl ⟨List.all_eq_true.2 fun c mem => ?_, rfl, rfl⟩
    rw [List.isEmpty_iff, trimEnd, List.reverse_eq_nil_iff, List.dropWhile_eq_nil_iff] at blank
    exact blank c (List.mem_reverse.2 mem)
  · exact .inr ⟨trimEnd b.literal, rfl⟩

theorem not_holds_literal {text : List Char} : ¬ Holds (Element.literal text).passages c := by
  rintro ⟨w, among, mem⟩
  rw [Element.passages, List.mem_singleton] at among
  simp [among] at mem

theorem holds_flush (holds : Holds b.flush.passages c) : Holds b.passages c := by
  rcases b.flush_cases with ⟨-, same, -⟩ | ⟨text, same⟩
  · rwa [same] at holds
  · rw [same] at holds
    exact (holds_push holds).resolve_right not_holds_literal

theorem joins_flush (joins : Joins b.flush.passages a c) : Joins b.passages a c := by
  rcases b.flush_cases with ⟨-, same, -⟩ | ⟨text, same⟩
  · rwa [same] at joins
  · rw [same] at joins
    rcases joins_push joins with joins | joins | ⟨-, holds⟩
    · exact joins
    · exact absurd joins.holds not_holds_literal
    · exact absurd holds not_holds_literal

theorem leavesOpen_flush (opens : LeavesOpen b.flush.passages a) :
    isBlankText b.literal = true ∧ b.flush.space = b.space ∧ LeavesOpen b.passages a := by
  rcases b.flush_cases with ⟨blank, same, space⟩ | ⟨text, same⟩
  · rw [same] at opens
    exact ⟨blank, space, opens⟩
  · rw [same] at opens
    rcases leavesOpen_push opens with opens | ⟨-, w, among, clear⟩
    · exact absurd opens.holds not_holds_literal
    · rw [Element.passages, List.mem_singleton] at among
      simp [among] at clear

end Flush

theorem holds_finish (holds : Holds b.finish.2.passages c) : Holds b.passages c := by
  rw [finish, Element.passages] at holds
  exact holds_flush (holds_gap holds)

theorem joins_finish (joins : Joins b.finish.2.passages a c) : Joins b.passages a c := by
  rw [finish, Element.passages] at joins
  exact joins_flush (joins_gap joins)

/-- An item behind a literal that is ended: it goes on behind a capture only if nothing separates them. -/
theorem bare_of_flush (opens : b.flush.space = false ∧ LeavesOpen b.flush.passages a) :
    b.IsBare ∧ LeavesOpen b.passages a := by
  obtain ⟨blank, space, opens'⟩ := leavesOpen_flush opens.2
  exact ⟨⟨space ▸ opens.1, blank⟩, opens'⟩

end Branch

end Phrasebook.Pattern
