import Phrasebook.Pattern.Program

/-!
# Where the instructions of an element stand

A program holds the code of its element tree in one piece, every element's code at the place that was
computed for it, and ends with one more instruction. `Placed` says that code stands at a place. What may
follow a capture is computed from the instructions behind it; `followAt_element` says the same of the
tree: it is what comes first in what follows the capture.
-/

namespace Phrasebook.Pattern
open Text

/-- Instructions stand one after the other from a place on. -/
def Placed (code : List Instr) : Nat → List Instr → Prop
  | _, [] => True
  | start, instr :: rest => code[start]? = some instr ∧ Placed code (start + 1) rest

theorem placed_append {code : List Instr} {start : Nat} {a b : List Instr} :
    Placed code start (a ++ b) ↔ Placed code start a ∧ Placed code (start + a.length) b := by
  induction a generalizing start with
  | nil => simp [Placed]
  | cons instr a ih =>
    rw [List.cons_append, Placed, Placed, ih, and_assoc, List.length_cons]
    rw [show start + 1 + a.length = start + (a.length + 1) by omega]

theorem placed_cons {code : List Instr} {start : Nat} {instr : Instr} {rest : List Instr} :
    Placed code start (instr :: rest) ↔
      code[start]? = some instr ∧ Placed code (start + 1) rest := Iff.rfl

/-- A list stands in itself. -/
theorem placed_self (before code : List Instr) :
    Placed (before ++ code) before.length code := by
  induction code generalizing before with
  | nil => trivial
  | cons instr code ih =>
    refine ⟨by simp, ?_⟩
    simpa using ih (before ++ [instr])

/-- The parts of a branch that is not the last of its choice. -/
structure BranchPlaced (code : List Instr) (start goal : Nat) (label : Label) (e : Element)
    (rest : List (Label × Element)) (next : Nat) : Prop where
  splits : code[start]? = some (.split (start + 1) next)
  labelled : Placed code (start + 1) label.code
  inner : Placed code (start + 1 + label.code.length) (e.code (start + 1 + label.code.length))
  jumps : code[start + 1 + label.code.length + e.codeSize]? = some (.jump goal)
  others : Placed code next (Element.branchesCode next goal rest)

namespace Element

mutual

/-- The code of an element has the size that the layout counts with. -/
theorem length_code (start : Nat) : (e : Element) → (e.code start).length = e.codeSize
  | .literal _ | .space | .placeholder _ | .regex _ => rfl
  | .optional inner => by
    rw [code, codeSize, List.length_cons, length_code]
  | .choice branches => by
    rw [code, codeSize, length_branchesCode]
  | .sequence items => by
    rw [code, codeSize, length_itemsCode]

theorem length_itemsCode (start : Nat) :
    (items : List Element) → (itemsCode start items).length = itemsSize items
  | [] => rfl
  | e :: rest => by
    rw [itemsCode, itemsSize, List.length_append, length_code, length_itemsCode]

theorem length_branchesCode (start goal : Nat) :
    (branches : List (Label × Element)) →
      (branchesCode start goal branches).length = branchesSize branches
  | [] => rfl
  | [(label, e)] => by
    rw [branchesCode, branchesSize, List.length_append, length_code]
  | (label, e) :: b :: rest => by
    simp only [branchesCode, branchesSize, List.length_cons, List.length_append, length_code,
      length_branchesCode]
    omega

end

mutual

/-- What may come first where an element stands before something. -/
def first (after : Follow) : Element → Follow
  | literal text => { literals := [text] }
  | space => after
  | optional inner => (inner.first after).union after
  | choice branches => firstOfBranches after branches
  | placeholder _ | regex _ => { isOpen := true }
  | sequence items => firstOfItems after items

/-- What may come first in a sequence. -/
def firstOfItems (after : Follow) : List Element → Follow
  | [] => after
  | e :: rest => e.first (firstOfItems after rest)

/-- What may come first in one of several branches. -/
def firstOfBranches (after : Follow) : List (Label × Element) → Follow
  | [] => after
  | [(_, e)] => e.first after
  | (_, e) :: rest => (e.first after).union (firstOfBranches after rest)

end

end Element

theorem branchPlaced {code : List Instr} {start goal : Nat} {label : Label} {e : Element}
    {b : Label × Element} {rest : List (Label × Element)}
    (placed : Placed code start (Element.branchesCode start goal ((label, e) :: b :: rest))) :
    BranchPlaced code start goal label e (b :: rest)
      (start + label.code.length + e.codeSize + 2) := by
  simp only [Element.branchesCode] at placed
  rw [placed_append, List.cons_append, placed_cons, placed_append] at placed
  obtain ⟨⟨splits, labelled, inner⟩, jumps, others⟩ := placed
  simp only [List.length_cons, List.length_append, Element.length_code] at jumps others
  refine ⟨splits, labelled, inner, ?_, ?_⟩
  · rw [← jumps]
    congr 1
    omega
  · rwa [show start + (label.code.length + e.codeSize + 1) + 1 =
      start + label.code.length + e.codeSize + 2 by omega] at others

/-- What may follow at a place of some code. -/
def followAt (code : List Instr) (pc : Nat) : Follow :=
  (followTable 0 code).getD pc {}

namespace Instr

/-- An instruction leads to later ones only. -/
def Ahead (pc : Nat) : Instr → Prop
  | split prefer other => pc < prefer ∧ pc < other
  | jump target => pc < target
  | _ => True

/-- What may come first at an instruction, given what may come first where it leads. -/
def first (follow : Nat → Follow) (pc : Nat) : Instr → Follow
  | lit text => { literals := [text] }
  | slot .. | regex .. => { isOpen := true }
  | stop => { canEnd := true }
  | boundary | mark _ | tag _ => follow (pc + 1)
  | jump target => follow target
  | split prefer other => (follow prefer).union (follow other)

/-- Only places ahead matter. -/
theorem first_congr {follow follow' : Nat → Follow} {pc : Nat} {instr : Instr}
    (ahead : instr.Ahead pc) (same : ∀ target, pc < target → follow target = follow' target) :
    instr.first follow pc = instr.first follow' pc := by
  cases instr with
  | lit | slot | regex | stop => rfl
  | boundary | mark | tag => exact same _ (Nat.lt_succ_self pc)
  | jump target => exact same _ ahead
  | split prefer other => rw [first, first, same _ ahead.1, same _ ahead.2]

end Instr

theorem followTable_cons (at_ : Nat) (instr : Instr) (code : List Instr) :
    followTable at_ (instr :: code) =
      instr.first (fun target => (followTable (at_ + 1) code).getD (target - (at_ + 1)) {}) at_ ::
        followTable (at_ + 1) code := by
  cases instr <;> rfl

theorem length_followTable (at_ : Nat) (code : List Instr) :
    (followTable at_ code).length = code.length := by
  induction code generalizing at_ with
  | nil => rfl
  | cons instr code ih => rw [followTable_cons, List.length_cons, List.length_cons, ih]

/-- The entries of the table meet the rule of their instructions. -/
theorem getD_followTable (at_ : Nat) (code : List Instr) {i : Nat} {instr : Instr}
    (found : code[i]? = some instr) (ahead : instr.Ahead (at_ + i)) :
    (followTable at_ code).getD i {} =
      instr.first (fun target => (followTable at_ code).getD (target - at_) {}) (at_ + i) := by
  induction code generalizing at_ i with
  | nil => simp at found
  | cons x code ih =>
    have later : ∀ target, at_ < target →
        (followTable (at_ + 1) code).getD (target - (at_ + 1)) {} =
          (followTable at_ (x :: code)).getD (target - at_) {} := by
      intro target lt
      rw [show target - at_ = target - (at_ + 1) + 1 by omega, followTable_cons,
        List.getD_cons_succ]
    cases i with
    | zero =>
      obtain rfl : x = instr := by simpa using found
      rw [show (followTable at_ (x :: code)).getD 0 {} = _ from
        congrArg (List.getD · 0 {}) (followTable_cons at_ x code)]
      exact Instr.first_congr ahead later
    | succ i =>
      have shift : at_ + (i + 1) = at_ + 1 + i := by omega
      rw [shift] at ahead ⊢
      rw [show (followTable at_ (x :: code)).getD (i + 1) {} = _ from
        congrArg (List.getD · (i + 1) {}) (followTable_cons at_ x code), List.getD_cons_succ]
      rw [ih (at_ + 1) (by simpa using found) ahead]
      exact Instr.first_congr ahead fun target lt => later target (by omega)

/-- What may come first at a place meets the rule of the instruction there. -/
theorem followAt_eq {code : List Instr} {pc : Nat} {instr : Instr} (found : code[pc]? = some instr)
    (ahead : instr.Ahead pc) : followAt code pc = instr.first (followAt code) pc := by
  have := getD_followTable 0 code found (by rwa [Nat.zero_add])
  simp only [Nat.zero_add, Nat.sub_zero] at this
  exact this

/-- A label adds nothing to what may come first. -/
theorem followAt_label {code : List Instr} {start : Nat} (label : Label)
    (placed : Placed code start label.code) :
    followAt code start = followAt code (start + label.code.length) := by
  obtain ⟨mark, tag⟩ := label
  cases mark <;> cases tag <;> simp_all [Label.code, Placed]
  · rw [followAt_eq placed trivial]; rfl
  · rw [followAt_eq placed trivial]; rfl
  · rw [followAt_eq placed.1 trivial, Instr.first, followAt_eq placed.2 trivial]; rfl

mutual

/-- **What may come first at the code of an element** is what comes first in the element, before what
may come first behind it. -/
theorem followAt_element {code : List Instr} {start : Nat} :
    (e : Element) → Placed code start (e.code start) →
      followAt code start = e.first (followAt code (start + e.codeSize))
  | .literal text, placed => followAt_eq placed.1 trivial
  | .space, placed => followAt_eq placed.1 trivial
  | .placeholder _, placed => followAt_eq placed.1 trivial
  | .regex _, placed => followAt_eq placed.1 trivial
  | .optional inner, placed => by
    rw [Element.code] at placed
    rw [followAt_eq placed.1 ⟨by omega, by omega⟩, Instr.first, followAt_element inner placed.2]
    rw [Element.first, Element.codeSize]
    rw [show start + 1 + inner.codeSize = start + (inner.codeSize + 1) by omega]
  | .choice branches, placed => by
    rw [Element.code] at placed
    exact followAt_branches branches placed rfl
  | .sequence items, placed => by
    rw [Element.code] at placed
    exact followAt_items items placed

theorem followAt_items {code : List Instr} {start : Nat} :
    (items : List Element) → Placed code start (Element.itemsCode start items) →
      followAt code start =
        Element.firstOfItems (followAt code (start + Element.itemsSize items)) items
  | [], _ => rfl
  | e :: rest, placed => by
    rw [Element.itemsCode, placed_append, Element.length_code] at placed
    rw [followAt_element e placed.1, followAt_items rest placed.2, Element.firstOfItems,
      Element.itemsSize, Nat.add_assoc]

theorem followAt_branches {code : List Instr} {start goal : Nat} :
    (branches : List (Label × Element)) →
      Placed code start (Element.branchesCode start goal branches) →
      goal = start + Element.branchesSize branches →
      followAt code start = Element.firstOfBranches (followAt code goal) branches
  | [], _, same => by rw [same]; rfl
  | [(label, e)], placed, same => by
    rw [Element.branchesCode, placed_append] at placed
    rw [followAt_label label placed.1, followAt_element e placed.2, Element.firstOfBranches]
    rw [same, Element.branchesSize, Nat.add_assoc]
  | (label, e) :: b :: rest, placed, same => by
    have parts := branchPlaced placed
    simp only [Element.branchesSize] at same
    have inner : followAt code (start + 1) = e.first (followAt code goal) := by
      rw [followAt_label label parts.labelled, followAt_element e parts.inner,
        followAt_eq parts.jumps (show _ < goal by omega), Instr.first]
    rw [followAt_eq parts.splits ⟨by omega, by omega⟩, Instr.first, inner,
      followAt_branches (b :: rest) parts.others (by omega)]
    simp only [Element.firstOfBranches]

end

/-- An instruction with what may follow it, if it captures. -/
def Instr.withFollow (follow : Follow) : Instr → Instr
  | .slot index _ => .slot index follow
  | .regex index _ => .regex index follow
  | instr => instr

theorem getElem?_withFollow (code : List Instr) (table : List Follow)
    (same : table.length = code.length) (i : Nat) :
    (withFollow code table)[i]? = code[i]?.map (Instr.withFollow (table.getD (i + 1) {})) := by
  induction code generalizing table i with
  | nil => simp [withFollow]
  | cons instr code ih =>
    cases table with
    | nil => simp at same
    | cons follow table =>
      have step := ih table (by simpa using same)
      cases i with
      | zero => cases instr <;> cases table <;> simp [withFollow, Instr.withFollow]
      | succ i => cases instr <;> simpa [withFollow] using step i

/-- The code of an element tree before captures know what may follow them. -/
def plainCode (root : Element) : List Instr :=
  root.code 0 ++ [.stop]

/-- **The instructions of a program** are those of its tree and a last one; what may follow a capture is
what may come first at the next instruction. -/
theorem getElem?_programOf (root : Element) (pc : Nat) :
    (programOf root)[pc]? =
      (plainCode root)[pc]?.map (Instr.withFollow (followAt (plainCode root) (pc + 1))) :=
  getElem?_withFollow _ _ (length_followTable 0 _) pc

/-- The code of the tree stands at the start of the program. -/
theorem placed_root (root : Element) : Placed (plainCode root) 0 (root.code 0) :=
  (placed_append.1 (placed_self [] (plainCode root))).1

/-- The last instruction stands behind the code of the tree. -/
theorem plainCode_stop (root : Element) : (plainCode root)[root.codeSize]? = some .stop := by
  simp [plainCode, Element.length_code]

/-- At the end nothing but the end may come. -/
theorem followAt_stop (root : Element) :
    followAt (plainCode root) root.codeSize = { canEnd := true } :=
  followAt_eq (plainCode_stop root) trivial

end Phrasebook.Pattern
