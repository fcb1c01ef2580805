import Phrasebook.Proofs.Pattern.Compiled

/-!
# What the tree of a pattern depends on

Reading the tokens of a pattern keeps more than the tree needs: where brackets and captures stand, how captures are
spelled and what their types are, and whether blanks stood where they make no boundary. `Reading.plain` forgets all
that. What is kept is the same whether it is forgotten before a token is read or after (`next_plain`,
`addPlaceholder_plain`, `addRegex_plain`), and it determines the tree (`finish_plain`).
-/

namespace Phrasebook.Pattern
open Text

/-- A branch that notes a blank before the next item only where the blank makes a boundary. -/
def Branch.plain (b : Branch) : Branch :=
  { b with space := b.space && (b.nested || !b.items.isEmpty) }

namespace Branch

variable {b : Branch}

@[simp] theorem plain_plain (b : Branch) : b.plain.plain = b.plain := by
  simp [plain]

@[simp] theorem plain_push (b : Branch) (e : Element) : b.plain.push e = b.push e := by
  simp [plain, push]

@[simp] theorem plain_addLetter (b : Branch) (c : Char) : b.plain.addLetter c = (b.addLetter c).plain := rfl

/-- A second blank in a row makes no difference. -/
@[simp] theorem addBlank_addBlank (b : Branch) : b.addBlank.addBlank = b.addBlank := by
  unfold addBlank
  split
  next => simp
  next => split <;> simp

@[simp] theorem addBlank_plain (b : Branch) : b.plain.addBlank.plain = b.addBlank.plain := by
  have literal : b.plain.literal = b.literal := rfl
  simp only [addBlank, literal]
  split
  · rfl
  · split
    · exact b.plain_plain
    · simp [plain]

@[simp] theorem flush_plain (b : Branch) : b.plain.flush.plain = b.flush.plain := by
  have push : { b.plain with literal := [] }.push (.literal (trimEnd b.literal)) =
      { b with literal := [] }.push (.literal (trimEnd b.literal)) :=
    plain_push { b with literal := [] } _
  have literal : b.plain.literal = b.literal := rfl
  simp only [flush, literal]
  split
  · exact plain_plain { b with literal := [] }
  · rw [push]

/-- A capture is added alike. -/
@[simp] theorem push_flush_plain (b : Branch) (e : Element) : b.plain.flush.push e = b.flush.push e := by
  rw [← plain_push, flush_plain, plain_push]

/-- A finished branch has a boundary at its end only where a blank makes one. -/
theorem finish_eq (b : Branch) :
    b.finish = (b.flush.plain.label, .sequence (b.flush.plain.items ++
      if b.flush.plain.space && b.flush.plain.nested && !b.flush.plain.items.isEmpty then [.space] else [])) := by
  have gap : (b.flush.plain.space && b.flush.plain.nested && !b.flush.plain.items.isEmpty) =
      (b.flush.space && b.flush.nested && !b.flush.items.isEmpty) := by
    show ((b.flush.space && (b.flush.nested || !b.flush.items.isEmpty)) && b.flush.nested &&
      !b.flush.items.isEmpty) = _
    cases b.flush.space <;> cases b.flush.nested <;> cases b.flush.items.isEmpty <;> rfl
  rw [gap]
  rfl

@[simp] theorem finish_plain (b : Branch) : b.plain.finish = b.finish := by
  rw [finish_eq, finish_eq, flush_plain]

/-- A blank at the end of a branch that is not nested makes no difference. -/
theorem finish_addBlank {b : Branch} (nested : b.nested = false) : b.addBlank.finish = b.finish := by
  have outer (b : Branch) (nested : b.nested = false) : b.finish = (b.flush.label, .sequence b.flush.items) := by
    simp [finish, nested]
  have same : b.addBlank.flush.label = b.flush.label ∧ b.addBlank.flush.items = b.flush.items := by
    unfold addBlank
    split
    next empty => simp_all [flush, List.isEmpty_iff, trimEnd]
    next =>
      split
      · exact ⟨rfl, rfl⟩
      next =>
        have trimmed : trimEnd (b.literal ++ [' ']) = trimEnd b.literal := by
          simp [trimEnd, show isBlank ' ' = true by decide]
        unfold flush
        simp only [trimmed]
        split <;> exact ⟨rfl, rfl⟩
  rw [outer b nested, outer _ ((nested_addBlank b).trans nested), same.1, same.2]

end Branch

/-- A group that forgets where it was opened. Whether anything stands in it counts only if it can be closed. -/
def Group.plain (g : Group) : Group :=
  { g with
    opener := g.opener.map fun opener => (opener.1, 0)
    branch := g.branch.plain
    isEmpty := g.isEmpty && g.opener.isSome
    isBlank := g.isBlank && g.opener.isSome }

namespace Group

@[simp] theorem plain_plain (g : Group) : g.plain.plain = g.plain := by
  simp [plain, Function.comp_def]

@[simp] theorem branches_plain (g : Group) : g.plain.branches = g.branches := by
  show g.done ++ [g.branch.plain.finish] = _
  rw [Branch.finish_plain]
  rfl

/-- A change of the present branch does not depend on what is forgotten, if it is so for the branch. -/
theorem change_plain (g : Group) (blank : Bool) {f : Branch → Branch}
    (same : (f g.branch.plain).plain = (f g.branch).plain) :
    ((g.plain.touched blank).onBranch f).plain = ((g.touched blank).onBranch f).plain := by
  have opener : g.plain.opener.isSome = g.opener.isSome := by simp [plain]
  have opened : (g.plain.opener.map fun opener => (opener.1, 0)) = g.opener.map fun opener => (opener.1, 0) := by
    simp [plain, Function.comp_def]
  simp only [plain, onBranch, touched] at same opener opened ⊢
  simp only [same, opener, opened, Bool.false_and]
  cases g.isBlank <;> cases blank <;> cases g.opener.isSome <;> rfl

theorem nextBranch_plain (g : Group) :
    (g.plain.touched false).nextBranch.plain = (g.touched false).nextBranch.plain := by
  have opened : (g.plain.opener.map fun opener => (opener.1, 0)) = g.opener.map fun opener => (opener.1, 0) := by
    simp [plain, Function.comp_def]
  have done : (g.plain.touched false).branches = (g.touched false).branches := g.branches_plain
  have nested : (g.plain.touched false).branch.nested = (g.touched false).branch.nested := rfl
  simp only [nextBranch, done, nested]
  simp only [plain, touched, Bool.false_and, Bool.and_false, opened] at opened ⊢

end Group

/-- A placeholder with its flags only. -/
def Placeholder.plain (p : Placeholder) : Placeholder :=
  { p with types := [], offset := 0, text := [] }

/-- The placeholder that flags make, with nothing else known of it. -/
def Flags.placeholder (f : Flags) (index : Nat) : Placeholder where
  index := index
  types := []
  nullable := f.nullable
  acceptance := f.acceptance
  conditions := f.conditions
  offset := 0
  text := []

/-- A regex of which nothing is known. -/
def PatternRegex.unknown : PatternRegex where
  source := []
  regex := .empty

/-- A reading that forgets what the tree does not depend on. -/
def Reading.plain (r : Reading) : Reading where
  group := r.group.plain
  outer := r.outer.map Group.plain
  placeholders := r.placeholders.map Placeholder.plain
  regexes := r.regexes.map fun _ => .unknown

namespace Reading

/-- Reads a placeholder of which the flags are known. -/
def addFlags (r : Reading) (f : Flags) : Reading :=
  Reading.onBranch { r with placeholders := r.placeholders ++ [f.placeholder r.placeholders.length] } false
    fun b => b.flush.push (.placeholder r.placeholders.length)

/-- Reads a regex of which nothing is known. -/
def addRegex (r : Reading) : Reading :=
  Reading.onBranch { r with regexes := r.regexes ++ [.unknown] } false
    fun b => b.flush.push (.regex r.regexes.length)

variable {resolve : String → Option PatternType} {r r' : Reading}

@[simp] theorem plain_plain (r : Reading) : r.plain.plain = r.plain := by
  simp [plain, Function.comp_def, Placeholder.plain]

theorem plain_congr {s : Reading} (group : r.group.plain = s.group.plain)
    (outer : r.outer.map Group.plain = s.outer.map Group.plain)
    (placeholders : r.placeholders.map Placeholder.plain = s.placeholders.map Placeholder.plain)
    (regexes : r.regexes.length = s.regexes.length) : r.plain = s.plain := by
  simp only [plain, group, outer, placeholders, List.map_const', regexes]

/-- Readings that go on with groups that are alike are alike. -/
theorem plain_groups (r : Reading) {group group' : Group} {outer outer' : List Group}
    (same : group.plain = group'.plain) (around : outer.map Group.plain = outer'.map Group.plain) :
    Reading.plain { r.plain with group, outer } = Reading.plain { r with group := group', outer := outer' } :=
  plain_congr same around (by simp [plain, Placeholder.plain]) (by simp [plain])

theorem onBranch_plain (r : Reading) (blank : Bool) {f : Branch → Branch}
    (same : (f r.group.branch.plain).plain = (f r.group.branch).plain) :
    (r.plain.onBranch blank f).plain = (r.onBranch blank f).plain :=
  r.plain_groups (r.group.change_plain blank same) (by simp [plain, Function.comp_def])

/-- Two changes of the branch, one after the other. -/
theorem onBranch_onBranch (r : Reading) (blank : Bool) (f g : Branch → Branch) :
    (r.onBranch blank f).onBranch blank g = r.onBranch blank fun b => g (f b) := by
  simp [onBranch, Group.touched, Group.onBranch]

/-- A capture becomes an item alike, whatever is forgotten before. -/
theorem item_plain (r : Reading) (e : Element) {placeholders placeholders' : List Placeholder}
    {regexes regexes' : List PatternRegex} {lastStop : Option Nat}
    (same : placeholders.map Placeholder.plain = placeholders'.map Placeholder.plain)
    (counted : regexes.length = regexes'.length) :
    (onBranch { r.plain with placeholders, regexes } false fun b => b.flush.push e).plain =
      (onBranch { r with placeholders := placeholders', regexes := regexes', lastStop } false
        fun b => b.flush.push e).plain :=
  plain_congr (r.group.change_plain false (by simp)) (by simp [onBranch, plain, Function.comp_def]) same counted

/-- A bracket closes alike, whatever is forgotten before. -/
theorem close_plain {bracket : Bracket} {offset : Nat} (h : r.close bracket offset = .ok r') :
    (r.plain.close bracket 0).map Reading.plain = .ok r'.plain := by
  unfold close at h
  split at h
  next opened at_ parent outer opener around =>
    -- the group around the closed one goes on
    have place (e : Element) : ((parent.plain.touched false).onBranch fun b => b.push e).plain =
        ((parent.touched false).onBranch fun b => b.push e).plain :=
      parent.change_plain false (by rw [Branch.plain_push])
    have kept : (parent.plain.touched false).plain = (parent.touched false).plain :=
      parent.change_plain false (f := id) (by simp)
    have plainOpener : r.plain.group.opener = some (opened, 0) := by simp [plain, Group.plain, opener]
    have plainOuter : r.plain.outer = parent.plain :: outer.map Group.plain := by simp [plain, around]
    have isBlank : r.plain.group.isBlank = r.group.isBlank := by simp [plain, Group.plain, opener]
    have isEmpty : r.plain.group.isEmpty = r.group.isEmpty := by simp [plain, Group.plain, opener]
    have branches : r.plain.group.branches = r.group.branches := r.group.branches_plain
    have others : (outer.map Group.plain).map Group.plain = outer.map Group.plain := by simp [Function.comp_def]
    dsimp only at h
    simp only [close, plainOpener, plainOuter, isBlank, isEmpty, branches]
    split at h
    · cases h
    next matching =>
      rw [if_neg matching]
      split at h
      next nothing =>
        rw [if_pos nothing]
        split at h
        next optional =>
          cases h
          rw [if_pos optional]
          exact congrArg Except.ok (r.plain_groups kept others)
        next => cases h
      next something =>
        rw [if_neg something]
        cases bracket with
        | square =>
          cases h
          exact congrArg Except.ok (r.plain_groups (place _) others)
        | round =>
          cases h
          exact congrArg Except.ok (r.plain_groups (place _) others)
  · cases h

/-- The next token but a capture is read alike, whatever is forgotten before. -/
theorem next_plain {offset : Nat} {token : Token} (other : ∀ kind body stop, token ≠ .capture kind body stop)
    (h : r.next resolve ⟨offset, token⟩ = .ok r') :
    (r.plain.next (fun _ => none) ⟨0, token⟩).map Reading.plain = .ok r'.plain := by
  have around : r.plain.outer.map Group.plain = r.outer.map Group.plain := by simp [plain, Function.comp_def]
  cases token with
  | label label =>
    cases h
    exact congrArg Except.ok (r.onBranch_plain false (Branch.plain_plain { r.group.branch with label }))
  | blank =>
    cases h
    exact congrArg Except.ok (r.onBranch_plain true (Branch.addBlank_plain _))
  | letter c =>
    cases h
    exact congrArg Except.ok (r.onBranch_plain false (by simp))
  | bar =>
    cases h
    exact congrArg Except.ok (r.plain_groups r.group.nextBranch_plain around)
  | opening bracket =>
    cases h
    refine congrArg Except.ok (r.plain_groups rfl ?_)
    rw [List.map_cons, List.map_cons, around]
    exact congrArg (· :: _) (r.group.change_plain false (Branch.flush_plain _))
  | closing bracket => exact close_plain h
  | capture kind body stop => exact absurd rfl (other kind body stop)
  | openCapture kind =>
    unfold next at h
    dsimp only at h
    split at h <;> cases h
  | openEscape => cases h

/-- A placeholder is read alike, whatever is forgotten before. -/
theorem addPlaceholder_plain {offset stop : Nat} {body : List Char}
    (h : r.addCapture resolve offset .placeholder body stop = .ok r') :
    ∃ f names, takeFlags {} (trimStart body) = .ok (f, names) ∧ (r.plain.addFlags f).plain = r'.plain := by
  unfold addCapture at h
  split at h
  · cases h
  dsimp only at h
  split at h
  · cases h
  next p read =>
    cases h
    obtain ⟨f, names, types, flags, rfl⟩ := eq_of_placeholderOf read
    have counted : r.plain.placeholders.length = r.placeholders.length := by simp [plain]
    refine ⟨f, names, flags, ?_⟩
    rw [addFlags, counted]
    exact r.item_plain _ (by simp [plain, Flags.placeholder, Placeholder.plain]) (by simp [plain])

/-- A regex is read alike, whatever is forgotten before. -/
theorem addRegex_plain {offset stop : Nat} {body : List Char}
    (h : r.addCapture resolve offset .regex body stop = .ok r') : r.plain.addRegex.plain = r'.plain := by
  unfold addCapture at h
  split at h
  · cases h
  dsimp only at h
  split at h
  · cases h
  next x read =>
    cases h
    have counted : r.plain.regexes.length = r.regexes.length := by simp [plain]
    rw [addRegex, counted]
    exact r.item_plain _ (by simp [plain, Placeholder.plain]) (by simp [plain])

/-- The tree is the same, whatever is forgotten before. -/
theorem finish_plain {root : Element} : r.plain.finish = .ok root ↔ r.finish = .ok root := by
  have branches : r.plain.group.branches = r.group.branches := r.group.branches_plain
  unfold finish
  cases opener : r.group.opener with
  | some opened =>
    have plainOpener : r.plain.group.opener = some (opened.1, 0) := by simp [plain, Group.plain, opener]
    simp [plainOpener]
  | none =>
    have plainOpener : r.plain.group.opener = none := by simp [plain, Group.plain, opener]
    simp only [plainOpener, branches]

/-- A blank at the end of a pattern makes no difference. -/
theorem finish_addBlank {root : Element} (nested : r.group.branch.nested = false)
    (h : (r.onBranch true Branch.addBlank).finish = .ok root) : r.finish = .ok root := by
  have branches : (r.onBranch true Branch.addBlank).group.branches = r.group.branches := by
    show r.group.done ++ [r.group.branch.addBlank.finish] = _
    rw [Branch.finish_addBlank nested]
    rfl
  unfold finish at h ⊢
  rwa [branches] at h

end Reading

end Phrasebook.Pattern
