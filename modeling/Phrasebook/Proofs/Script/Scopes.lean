import Mathlib.Data.List.Forall2
import Phrasebook.Proofs.Parse.Declared
import Phrasebook.Proofs.Script.Around
import Phrasebook.Proofs.Script.OpenBlocks

/-!
# Scopes follow the blocks

Where accepted nodes only declare names, a parse has one scope for each block around the line that it reads, and
one for the margin, and in each of them the names that the rows in this block have declared (`Scoped`). The
definitions of the headers that were accepted are the blocks it knows of. So it is known at every row which local
variables are set.
-/

namespace Phrasebook.Script
open Text Parse

/-- A warning about a local variable that is not set. -/
def isUnset (d : Diagnostic) : Bool :=
  d.code == .unsetVariable

/-- The warning about a local variable that is not set. -/
def unsetWarning (read : Span × String) : Diagnostic :=
  .warning read.1 .unsetVariable ("local variable \x7b" ++ read.2 ++ "\x7d is used before it is set")

section Rows

variable (names : Node → List String) (judged : List Judgement)

/-- The keys of the names that a row declares, if it was accepted. -/
def keysAt (i : Nat) : List String :=
  (((nodeAt judged i).map names).getD []).map Context.nameKey

/-- A name is declared on a row, or on one before it whose innermost block is still open there. -/
def IsSet (j : Nat) (name : String) : Prop :=
  ∃ i, InForce (judged.map Judgement.row) i j ∧ Context.nameKey name ∈ keysAt names judged i

instance (j : Nat) (name : String) : Decidable (IsSet names judged j name) :=
  decidable_of_iff (∃ i, i < j + 1 ∧ InForce (judged.map Judgement.row) i j ∧
      Context.nameKey name ∈ keysAt names judged i) <|
    exists_congr fun _ => and_iff_right_of_imp fun h => Nat.lt_succ_of_le h.1.1

/-- The local variables that an accepted row reads though they are not set. -/
def unsetReads (j : Nat) : List (Span × String) :=
  (((nodeAt judged j).map Node.localReads).getD []).filter fun read => ¬ IsSet names judged j read.2

/-- The names in the scope of a block, or of the margin, are those that the first rows in it have declared. -/
def Holds (n : Nat) (parent : Option Nat) (scope : List String) : Prop :=
  ∀ key, key ∈ scope ↔
    ∃ i < n, ParentIs (judged.map Judgement.row) parent i ∧ key ∈ keysAt names judged i

/-- A state knows the open blocks, the innermost first: those whose headers were accepted by their definitions,
and all of them by their scopes. -/
structure Scoped (n : Nat) (blocks : List Nat) (c : Context) : Prop where
  enclosing : c.enclosing = blocks.reverse.filterMap fun i => (nodeAt judged i).map Node.definition
  scopes : List.Forall₂ (Holds names judged n) (blocks.map some ++ [none]) c.scopes

end Rows

variable {names : Node → List String} {judged : List Judgement} {n : Nat} {blocks : List Nat} {c c' : Context}

theorem Scoped.length (h : Scoped names judged n blocks c) : c.scopes.length = 1 + blocks.length := by
  rw [← h.scopes.length_eq, List.length_append, List.length_map, List.length_singleton, Nat.add_comm]

/-- No name is in the scope of a block before its first row. -/
theorem holds_nil {p : Option Nat} (none : ∀ i < n, ¬ ParentIs (judged.map Judgement.row) p i) :
    Holds names judged n p [] := by
  intro key
  constructor
  · intro mem
    cases mem
  · rintro ⟨i, before, parent, -⟩
    exact (none i before parent).elim

/-- Before the first row nothing is declared, and no block is open. -/
theorem scoped_zero (enclosing : c.enclosing = []) (scopes : c.scopes = [[]]) : Scoped names judged 0 [] c := by
  refine ⟨enclosing, ?_⟩
  rw [scopes]
  exact .cons (holds_nil fun i before => absurd before (Nat.not_lt_zero i)) .nil

/-- A row does not matter for scopes that are not those of its parent. -/
theorem Holds.succ {p : Option Nat} {scope : List String} (h : Holds names judged n p scope)
    (other : ¬ ParentIs (judged.map Judgement.row) p n) : Holds names judged (n + 1) p scope := by
  intro key
  rw [h key]
  constructor
  · rintro ⟨i, before, found⟩
    exact ⟨i, Nat.lt_succ_of_lt before, found⟩
  · rintro ⟨i, before, parent, found⟩
    rcases Nat.lt_succ_iff_lt_or_eq.1 before with before | rfl
    · exact ⟨i, before, parent, found⟩
    · exact (other parent).elim

/-- A row declares its names in the scope of its parent. -/
theorem Holds.declare {p : Option Nat} {scope scope' : List String} (h : Holds names judged n p scope)
    (parent : ParentIs (judged.map Judgement.row) p n)
    (declared : ∀ key, key ∈ scope' ↔ key ∈ scope ∨ key ∈ keysAt names judged n) :
    Holds names judged (n + 1) p scope' := by
  intro key
  rw [declared, h key]
  constructor
  · rintro (⟨i, before, found⟩ | found)
    · exact ⟨i, Nat.lt_succ_of_lt before, found⟩
    · exact ⟨n, Nat.lt_succ_self n, parent, found⟩
  · rintro ⟨i, before, within, found⟩
    rcases Nat.lt_succ_iff_lt_or_eq.1 before with before | rfl
    · exact .inl ⟨i, before, within, found⟩
    · exact .inr found

section Leave

/-- The outermost scope is never closed, but every other one is. -/
theorem popScope_eq {scope : List String} {outer : List (List String)} (scopes : c.scopes = scope :: outer)
    (some_ : outer ≠ []) : c.popScope = { c with scopes := outer } := by
  obtain ⟨first, rest, rfl⟩ := List.exists_cons_of_ne_nil some_
  unfold Context.popScope
  rw [scopes]

/-- A block is left by its definition and its scope. -/
theorem Scoped.leave {i : Nat} (h : Scoped names judged n (i :: blocks) c) {b : OpenBlock}
    (frame : b.frame = blockAt judged n i) : Scoped names judged n blocks (b.leave c) := by
  have header : b.header = nodeAt judged i := congrArg OpenBlock.header frame
  obtain ⟨enclosing, scopes⟩ := h
  rw [List.reverse_cons, List.filterMap_append] at enclosing
  rw [List.map_cons, List.cons_append] at scopes
  cases scopes' : c.scopes with
  | nil =>
    rw [scopes'] at scopes
    cases scopes
  | cons scope outer =>
    rw [scopes'] at scopes
    obtain ⟨-, scopes⟩ := List.forall₂_cons.1 scopes
    have some_ : outer ≠ [] := by
      rintro rfl
      have length := scopes.length_eq
      simp at length
    unfold OpenBlock.leave
    rw [header]
    cases accepted : nodeAt judged i with
    | none =>
      rw [popScope_eq scopes' some_]
      refine ⟨?_, scopes⟩
      rw [show c.enclosing = _ from enclosing]
      simp [accepted]
    | some node =>
      have left : c.leaveBlock = { c with enclosing := c.enclosing.dropLast, scopes := outer } :=
        popScope_eq (c := { c with enclosing := c.enclosing.dropLast }) scopes' some_
      have known : Scoped names judged n blocks c.leaveBlock := by
        rw [left]
        refine ⟨?_, scopes⟩
        show c.enclosing.dropLast = _
        rw [enclosing]
        simp [accepted]
      dsimp only
      split
      · exact ⟨known.enclosing, known.scopes⟩
      · exact known

/-- Blocks are left one after the other, from the inside out. -/
theorem Scoped.leaveAll (closed : List Nat) (h : Scoped names judged n (closed ++ blocks) c) {bs : List OpenBlock}
    (frames : bs.map OpenBlock.frame = closed.map (blockAt judged n)) :
    Scoped names judged n blocks (bs.foldl (fun c b => b.leave c) c) := by
  induction closed generalizing bs c with
  | nil =>
    rw [List.map_eq_nil_iff.1 frames]
    exact h
  | cons i closed ih =>
    obtain ⟨b, rest, rfl, same, others⟩ := List.map_eq_cons_iff.1 frames
    exact ih (h.leave same) others

/-- **When a row is read, the state knows the blocks around it.** -/
theorem Scoped.entered {o : Outline} (h : Scoped names judged n blocks c) (opened : OpenAt judged n o blocks)
    {row : Row} (here : indentAt (judged.map Judgement.row) n = row.indent) :
    Scoped names judged n (goingOn judged n blocks)
      (o.leave row.indent { c with line := row.number, column := row.column }) := by
  rw [opened.goingOn_eq]
  unfold Outline.leave
  refine Scoped.leaveAll (blocks.takeWhile fun i =>
    indentAt (judged.map Judgement.row) n ≤ indentAt (judged.map Judgement.row) i) ?_ ?_
  · rw [List.takeWhile_append_dropWhile]
    exact ⟨h.enclosing, h.scopes⟩
  · -- what a block tells of its indentation is in its frame
    have frames := congrArg (List.takeWhile (OpenBlock.isOutside row.indent)) opened.frames
    rw [List.takeWhile_map, List.takeWhile_map] at frames
    rw [here]
    exact frames

end Leave

section Judge

/-- What a row leaves behind once it is judged: if it was accepted, the names of its node are declared, and the
local variables are reported that are not declared then. -/
structure RowLeft (r : Registry) (names : Node → List String) (node? : Option Node) (c c' : Context) : Prop where
  enclosing : c'.enclosing = c.enclosing
  scopes : c'.scopes = (c.edited (((node?.map names).getD []).map .declare)).scopes
  unset : c'.diagnostics.filter isUnset = c.diagnostics.filter isUnset ++
    (node?.map fun node => unsetWarnings r node.localReads c').getD []

variable {r : Registry} {node? : Option Node}

namespace RowLeft

/-- Nothing is left behind but reports about other things. -/
theorem none {added : List Diagnostic} (enclosing : c'.enclosing = c.enclosing) (scopes : c'.scopes = c.scopes)
    (diagnostics : c'.diagnostics = c.diagnostics ++ added) (other : ∀ d ∈ added, isUnset d = false) :
    RowLeft r names none c c' := by
  refine ⟨enclosing, scopes, ?_⟩
  have nothing : added.filter isUnset = [] := List.filter_eq_nil_iff.2 fun d mem => by simp [other d mem]
  rw [diagnostics, List.filter_append, nothing]
  rfl

theorem trans {c'' : Context} (h : RowLeft r names Option.none c c') (h' : RowLeft r names node? c' c'') :
    RowLeft r names node? c c'' where
  enclosing := h'.enclosing.trans h.enclosing
  scopes := h'.scopes.trans (Context.scopes_edited h.scopes _)
  unset := by
    have nothing := h.unset
    rw [Option.map_none, Option.getD_none, List.append_nil] at nothing
    rw [h'.unset, nothing]

theorem report (d : Diagnostic) (other : isUnset d = false) : RowLeft r names Option.none c (c.report d) :=
  none rfl rfl rfl fun d' mem => by rwa [List.mem_singleton.1 mem]

end RowLeft

/-- No cause is reported under the code of local variables. -/
theorem isUnset_ofFault (span : Span) (fault : Fault) : isUnset (.ofFault span fault) = false := by
  show (Code.ofCause fault.cause == .unsetVariable) = false
  cases fault.cause <;> rfl

theorem filter_unsetWarnings (reads : List (Span × String)) (c : Context) :
    (unsetWarnings r reads c).filter isUnset = unsetWarnings r reads c := by
  refine List.filter_eq_self.2 fun d mem => ?_
  unfold unsetWarnings at mem
  split at mem
  · obtain ⟨read, -, rfl⟩ := List.mem_map.1 mem
    rfl
  · cases mem

variable (only : r.OnlyDeclares names)

include only

theorem rowLeft_attempt {category : Category} {text : String} {result : Except Fault Node}
    (ends : Ends (attempt r category text) c result c') : RowLeft r names result.toOption c c' := by
  have parsed := ends_attempt ends
  cases result with
  | ok node =>
    obtain ⟨setting, scopes, diagnostics⟩ := parseLine_declared only parsed
    have enclosing : c'.setting.enclosing = c.setting.enclosing := congrArg Context.enclosing setting
    refine ⟨enclosing, scopes, ?_⟩
    rw [diagnostics, List.filter_append, filter_unsetWarnings]
    rfl
  | error fault =>
    obtain ⟨left, -⟩ := parseLine_leaves_nil parsed
    have enclosing : c'.setting.enclosing = c.setting.enclosing := congrArg Context.enclosing left.setting
    have nothing : c'.diagnostics = c.diagnostics := left.diagnostics
    exact .none enclosing left.scopes (nothing.trans (List.append_nil _).symm) fun _ mem => nomatch mem

omit only in
theorem rowLeft_understand {first : Parsing (Except Fault Node)} {second : Fault → Parsing (Except Fault Node)}
    {text : String}
    (tries : ∀ {c result c'}, Ends first c result c' → RowLeft r names result.toOption c c')
    (others : ∀ fault {c result c'}, Ends (second fault) c result c' → RowLeft r names result.toOption c c')
    (ends : Ends (understand first second text) c node? c') : RowLeft r names node? c c' := by
  obtain ⟨result, c₁, tried, ends⟩ := ends.of_bind
  have left := tries tried
  cases result with
  | ok node =>
    cases ends
    exact left
  | error fault =>
    obtain ⟨result, c₂, tried, ends⟩ := ends.of_bind
    have left' := others fault tried
    cases result with
    | ok node =>
      cases ends
      exact left.trans left'
    | error other =>
      obtain ⟨_, c₃, reported, ends⟩ := ends.of_bind
      cases reported
      cases ends
      exact left.trans (left'.trans (.report _ (isUnset_ofFault _ fault)))

omit only in
theorem rowLeft_error (fault : Fault) {result : Except Fault Node}
    (ends : Ends (pure (.error fault) : Parsing (Except Fault Node)) c result c') :
    RowLeft r names result.toOption c c' := by
  cases ends
  exact .none rfl rfl (List.append_nil _).symm fun _ mem => nomatch mem

theorem rowLeft_readHeader {atMargin : Bool} {text : String} (ends : Ends (readHeader r atMargin text) c node? c') :
    RowLeft r names node? c c' := by
  rw [readHeader_eq] at ends
  refine rowLeft_understand (rowLeft_attempt only) (fun fault {c result c'} ends => ?_) ends
  split at ends
  · exact rowLeft_attempt only ends
  · exact rowLeft_error fault ends

theorem rowLeft_readStatement {text : String} (ends : Ends (readStatement r text) c node? c') :
    RowLeft r names node? c c' := by
  rw [readStatement_eq] at ends
  refine rowLeft_understand (rowLeft_attempt only) (fun fault {c result c'} ends => ?_) ends
  split at ends
  · exact rowLeft_error fault ends
  · exact rowLeft_attempt only ends

/-- **What a row leaves behind** that is read in a state in which the blocks are left before it. -/
theorem rowLeft_judge {o : Outline} {row : Row} {verdict : Verdict} (ends : Ends (judge r o row) c verdict c') :
    RowLeft r names verdict.node? (o.leave row.indent { c with line := row.number, column := row.column }) c' := by
  cases judgedRow_of_ends ends with
  | misplaced _ reported =>
    cases reported
    exact .report _ rfl
  | text _ ends =>
    cases judgedText_of_ends ends with
    | header _ read => exact rowLeft_readHeader only read
    | stray _ _ reported =>
      cases reported
      exact .report _ rfl
    | statement _ _ read => exact rowLeft_readStatement only read

end Judge

section Row

variable {r : Registry} {o : Outline}

/-- Names are declared in the innermost scope. -/
theorem scopes_declare {scope : List String} {outer : List (List String)} (scopes : c.scopes = scope :: outer)
    (added : List String) : ∃ scope', (c.edited (added.map .declare)).scopes = scope' :: outer ∧
      ∀ key, key ∈ scope' ↔ key ∈ scope ∨ key ∈ added.map Context.nameKey := by
  induction added generalizing c scope with
  | nil => exact ⟨scope, scopes, fun key => by simp⟩
  | cons name rest ih =>
    have one : (c.declare name).scopes = (if scope.contains (Context.nameKey name) then scope
        else scope ++ [Context.nameKey name]) :: outer := by
      unfold Context.declare
      rw [scopes]
    obtain ⟨scope', others, mem⟩ := ih one
    refine ⟨scope', others, fun key => ?_⟩
    rw [mem, List.map_cons, List.mem_cons, ← or_assoc]
    refine or_congr_left ?_
    split
    next known =>
      have known : Context.nameKey name ∈ scope := List.contains_iff_mem.1 known
      exact ⟨.inl, fun h => h.elim id fun same => same ▸ known⟩
    next => rw [List.mem_append, List.mem_singleton]

/-- A row does not matter for the scopes of other blocks than its parent. -/
theorem holds_others {parents : List (Option Nat)} {scopes : List (List String)}
    (others : ∀ p ∈ parents, ¬ ParentIs (judged.map Judgement.row) p n)
    (h : List.Forall₂ (Holds names judged n) parents scopes) :
    List.Forall₂ (Holds names judged (n + 1)) parents scopes := by
  induction h with
  | nil => exact .nil
  | cons first _ ih =>
    exact .cons (first.succ (others _ List.mem_cons_self)) (ih fun p mem => others p (List.mem_cons_of_mem _ mem))

/-- Of the blocks around a row and the margin the innermost is its parent, and no other. -/
theorem StandsAt.parents (stands : StandsAt judged n o blocks) :
    ∃ first others, blocks.map some ++ [none] = first :: others ∧ ParentIs (judged.map Judgement.row) first n ∧
      ∀ p ∈ others, ¬ ParentIs (judged.map Judgement.row) p n := by
  have parent := parentIs_head? stands.sorted stands.mem
  have sorted := stands.sorted
  cases blocks with
  | nil => exact ⟨none, [], rfl, parent, fun _ mem => (List.not_mem_nil mem).elim⟩
  | cons b rest =>
    refine ⟨some b, rest.map some ++ [none], rfl, parent, fun p mem within => ?_⟩
    rcases List.mem_append.1 mem with mem | mem
    · obtain ⟨b', inside, rfl⟩ := List.mem_map.1 mem
      have before : b' < b := List.rel_of_pairwise_cons sorted inside
      obtain rfl : b' = b := Option.some.inj (within.unique parent)
      exact absurd before (Nat.lt_irrefl b')
    · rw [List.mem_singleton.1 mem] at within
      cases within.unique parent

/-- **A row declares its names in the block that it stands in.** -/
theorem Scoped.declare (h : Scoped names judged n blocks c) (stands : StandsAt judged n o blocks)
    (left : RowLeft r names (nodeAt judged n) c c') : Scoped names judged (n + 1) blocks c' := by
  refine ⟨left.enclosing.trans h.enclosing, ?_⟩
  obtain ⟨first, others, same, parent, alone⟩ := stands.parents
  have scopes := h.scopes
  rw [same] at scopes ⊢
  cases known : c.scopes with
  | nil =>
    rw [known] at scopes
    cases scopes
  | cons scope outer =>
    rw [known] at scopes
    obtain ⟨holds, scopes⟩ := List.forall₂_cons.1 scopes
    obtain ⟨scope', declared, mem⟩ := scopes_declare known (((nodeAt judged n).map names).getD [])
    rw [left.scopes, declared]
    exact .cons (holds.declare parent mem) (holds_others alone scopes)

/-- A header opens a block, in which nothing is declared yet. -/
theorem Scoped.enter (h : Scoped names judged (n + 1) blocks c) {b : OpenBlock} (header : b.header = nodeAt judged n) :
    Scoped names judged (n + 1) (n :: blocks) (b.enter c) := by
  have empty : Holds names judged (n + 1) (some n) [] := by
    refine holds_nil fun i before parent => ?_
    have after := parent.2.1.lt
    omega
  have scopes : List.Forall₂ (Holds names judged (n + 1)) ((n :: blocks).map some ++ [none]) ([] :: c.scopes) :=
    .cons empty h.scopes
  unfold OpenBlock.enter
  rw [header]
  cases accepted : nodeAt judged n with
  | none =>
    refine ⟨?_, scopes⟩
    show c.enclosing = _
    rw [h.enclosing, List.reverse_cons, List.filterMap_append]
    simp [accepted]
  | some node =>
    refine ⟨?_, scopes⟩
    show c.enclosing ++ [node.definition] = _
    rw [h.enclosing, List.reverse_cons, List.filterMap_append]
    simp [accepted]

/-- A name is declared exactly if it is set. -/
theorem Scoped.isDeclared (h : Scoped names judged (n + 1) blocks c) (stands : StandsAt judged n o blocks)
    (name : String) : c.isDeclared name = true ↔ IsSet names judged n name := by
  have among {parents : List (Option Nat)} {scopes : List (List String)}
      (h : List.Forall₂ (Holds names judged (n + 1)) parents scopes) (key : String) :
      (∃ scope ∈ scopes, key ∈ scope) ↔ ∃ p ∈ parents, ∃ i < n + 1,
        ParentIs (judged.map Judgement.row) p i ∧ key ∈ keysAt names judged i := by
    induction h with
    | nil => simp
    | cons first _ ih => simp only [List.mem_cons, exists_eq_or_imp, ih, first key]
  have declared : c.isDeclared name = true ↔ ∃ scope ∈ c.scopes, Context.nameKey name ∈ scope := by
    simp only [Context.isDeclared, List.any_eq_true, List.contains_iff_mem]
  rw [declared, among h.scopes]
  constructor
  · rintro ⟨p, mem, i, before, parent, found⟩
    refine ⟨i, (inForce_iff parent (Nat.le_of_lt_succ before)).2 ?_, found⟩
    rintro b rfl
    rcases List.mem_append.1 mem with mem | mem
    · obtain ⟨b', inside, same⟩ := List.mem_map.1 mem
      cases same
      exact ((stands.mem b).1 inside).2
    · cases List.mem_singleton.1 mem
  · rintro ⟨i, inForce, found⟩
    have parent : ParentIs (judged.map Judgement.row) (blocksAround (judged.map Judgement.row) i).getLast? i :=
      parentIs_iff.2 rfl
    have inside := (inForce_iff parent inForce.1).1 inForce
    refine ⟨_, ?_, i, Nat.lt_succ_of_le inForce.1, parent, found⟩
    cases last : (blocksAround (judged.map Judgement.row) i).getLast? with
    | none => exact List.mem_append_right _ (List.mem_singleton_self none)
    | some b =>
      rw [last] at parent inside
      exact List.mem_append_left _ (List.mem_map_of_mem ((stands.mem b).2 ⟨parent.1, inside b rfl⟩))

/-- **A name is set on a row** if it was declared when the row was read, or if the row declares it. -/
theorem Scoped.isSet_iff (h : Scoped names judged n blocks c) (stands : StandsAt judged n o blocks)
    (left : RowLeft r names (nodeAt judged n) c c') (name : String) :
    IsSet names judged n name ↔ c.isDeclared name = true ∨ Context.nameKey name ∈ keysAt names judged n := by
  rw [← (h.declare stands left).isDeclared stands name]
  cases known : c.scopes with
  | nil =>
    have length := h.length
    rw [known, List.length_nil] at length
    omega
  | cons scope outer =>
    obtain ⟨scope', declared, mem⟩ := scopes_declare known (((nodeAt judged n).map names).getD [])
    simp only [Context.isDeclared, left.scopes, declared, known, List.any_cons, Bool.or_eq_true,
      List.contains_iff_mem, mem, keysAt]
    rw [or_right_comm]

/-- Blocks that end report nothing about local variables. -/
theorem isUnset_warnings {indent : Nat} {w : Diagnostic} (mem : w ∈ o.warnings indent) : isUnset w = false := by
  obtain ⟨b, -, warns⟩ := List.mem_filterMap.1 mem
  unfold OpenBlock.warning? at warns
  split at warns
  · obtain ⟨node, -, rfl⟩ := Option.map_eq_some_iff.1 warns
    rfl
  · cases warns

variable (only : r.OnlyDeclares names) (warns : r.config.warnUnsetLocals = true)

include only warns

/-- **A row reports the local variables that it reads though they are not set**, and the state knows the blocks
after it. -/
theorem Scoped.row (h : Scoped names judged n blocks c) (opened : OpenAt judged n o blocks) {row : Row}
    {verdict : Verdict} (here : judged[n]? = some { row, verdict }) {c₁ c₂ : Context} {o₁ : Outline}
    (judges : Ends (judge r o row) c verdict c₁)
    (settles : Ends (settle (o.moved row.indent) row verdict) c₁ o₁ c₂) :
    Scoped names judged (n + 1) (blocksAfter n (goingOn judged n blocks) verdict) c₂ ∧
      c₂.diagnostics.filter isUnset =
        c.diagnostics.filter isUnset ++ (unsetReads names judged n).map unsetWarning := by
  have indent : indentAt (judged.map Judgement.row) n = row.indent := by
    rw [indentAt, List.getElem?_map, here]
    rfl
  have node : nodeAt judged n = verdict.node? := by rw [nodeAt, here, Option.bind_some]
  have stands := (opened.moved indent).1
  have left := rowLeft_judge only judges
  rw [← node] at left
  have declared := (h.entered opened indent).declare stands left
  have reported : c₁.diagnostics.filter isUnset =
      c.diagnostics.filter isUnset ++ (unsetReads names judged n).map unsetWarning := by
    have before := (o.adds_leave row.indent { c with line := row.number, column := row.column }).diagnostics
    have others : (o.warnings row.indent).filter isUnset = [] :=
      List.filter_eq_nil_iff.2 fun w mem => by simp [isUnset_warnings mem]
    rw [left.unset, before, List.filter_append, others, List.append_nil]
    congr 1
    unfold unsetReads
    cases nodeAt judged n with
    | none => rfl
    | some node =>
      simp only [Option.map_some, Option.getD_some, unsetWarnings, warns, if_true]
      have same : (node.localReads.filter fun read => !c₁.isDeclared read.2) =
          node.localReads.filter fun read => ¬ IsSet names judged n read.2 := by
        refine List.filter_congr fun read _ => ?_
        rw [Bool.eq_iff_iff]
        simp [← declared.isDeclared stands read.2]
      rw [same]
      rfl
  cases verdict with
  | misplaced expected =>
    cases settles
    exact ⟨declared, reported⟩
  | stray =>
    cases settles
    exact ⟨declared, reported⟩
  | header node? =>
    cases settles
    refine ⟨declared.enter node.symm, ?_⟩
    rw [← reported]
    unfold OpenBlock.enter
    split <;> rfl
  | statement node? =>
    cases node? <;>
    · cases settles
      exact ⟨declared, reported⟩

/-- **After the first rows** the state knows the blocks that are open, and what was reported about local variables
are those that these rows read though they are not set. -/
theorem Run.knows {first : List Judgement} (run : Run r {} c first o c') (rest : List Judgement)
    (start : Scoped names (first ++ rest) 0 [] c) :
    ∃ blocks, OpenAt (first ++ rest) first.length o blocks ∧ Scoped names (first ++ rest) first.length blocks c' ∧
      c'.diagnostics.filter isUnset = c.diagnostics.filter isUnset ++
        (List.range first.length).flatMap fun j => (unsetReads names (first ++ rest) j).map unsetWarning := by
  refine run.invariant (I := fun n o c' => ∃ blocks, OpenAt (first ++ rest) n o blocks ∧
    Scoped names (first ++ rest) n blocks c' ∧ c'.diagnostics.filter isUnset = c.diagnostics.filter isUnset ++
      (List.range n).flatMap fun j => (unsetReads names (first ++ rest) j).map unsetWarning)
    (fun n o c ⟨blocks, opened, knows, reported⟩ => ⟨blocks, opened, ⟨knows.enclosing, knows.scopes⟩, reported⟩)
    ?_ ⟨[], openAt_zero _, start, (List.append_nil _).symm⟩
  rintro n row verdict here o c₀ c₁ o₁ c₂ ⟨blocks, opened, knows, reported⟩ judges settles
  have here : (first ++ rest)[n]? = some { row, verdict } := by
    rw [List.getElem?_append_left (List.getElem?_eq_some_iff.1 here).1, here]
  obtain ⟨-, -, -, after, -⟩ := opened.read (b := Bounds.none) (fun _ => rfl)
    (fun _ _ _ _ _ _ _ => Bounds.within_none _ _) here judges settles
  obtain ⟨knows', reported'⟩ := knows.row only warns opened here judges settles
  refine ⟨_, after, knows', ?_⟩
  rw [reported', reported, List.append_assoc, List.range_succ, List.flatMap_append, List.flatMap_singleton]

end Row

/-- The blocks that go on with a row are those around it, the innermost first. -/
theorem OpenAt.reverse_goingOn {o : Outline} (h : OpenAt judged n o blocks) :
    (goingOn judged n blocks).reverse = blocksAround (judged.map Judgement.row) n := by
  have sorted : (goingOn judged n blocks).reverse.Pairwise (· < ·) :=
    List.pairwise_reverse.2 (h.sorted.filter _)
  have asymm (i j : Nat) (lt : i < j) (lt' : j < i) : i = j := absurd lt' (Nat.lt_asymm lt)
  refine List.Perm.eq_of_pairwise (fun i j _ _ => asymm i j) sorted (sorted_blocksAround _ n) ?_
  refine (List.perm_ext_iff_of_nodup (sorted.imp Nat.ne_of_lt) ((sorted_blocksAround _ n).imp Nat.ne_of_lt)).2
    fun i => ?_
  rw [List.mem_reverse, h.mem_goingOn, mem_blocksAround]

/-- A state in which a row is parsed knows the blocks around it, and what was set in them. -/
structure KnowsBlocks (names : Node → List String) (source : String) (judged : List Judgement) (n : Nat)
    (c : Context) : Prop where
  /-- the definitions of the headers that were accepted, from the outside in -/
  enclosing : c.enclosing =
    (blocksAround (rowsOf source) n).filterMap fun i => (nodeAt judged i).map Node.definition
  /-- a scope for every block, accepted or not, and one for the margin -/
  scopes : c.scopes.length = 1 + (blocksAround (rowsOf source) n).length
  /-- what is set on the row was declared before, or the row declares it -/
  declared (name : String) :
    IsSet names judged n name ↔ c.isDeclared name = true ∨ Context.nameKey name ∈ keysAt names judged n

end Phrasebook.Script

namespace Phrasebook.Registry
open Script Parse

/-- Reads the lines of a script before one of its rows, and comes to the row: the blocks are left that end with it. -/
def comeTo (r : Registry) (source : String) (k : Nat) (row : Row) : Parsing Outline := do
  let o ← readLines r {} ((Text.lines source.toList).take k).zipIdx
  Parsing.checkCancelled
  Parsing.change fun c => o.leave row.indent { c with line := row.number, column := row.column }
  pure o

/-- Judges a row that was come to. -/
def judgeHere (r : Registry) (o : Outline) (row : Row) : Parsing Verdict :=
  match o.expected? row.indent with
  | some expected => do
    reportLine (String.ofList row.text) (row.misplacedError expected)
    pure (.misplaced expected)
  | none => judgeText r (o.moved row.indent) row

/-- A state in which a row of a script is parsed, to the verdict that there is on it. -/
inductive ParsesRow (r : Registry) (source : String) (c : Context) (judged : List Judgement) (k n : Nat) (row : Row)
    (d : Context) : Prop where
  | intro {o : Outline} {verdict : Verdict} {d' : Context} : Ends (r.comeTo source k row) c o d →
    Ends (r.judgeHere o row) d verdict d' → judged[n]? = some { row, verdict } →
      ParsesRow r source c judged k n row d

variable {r : Registry} {source : String} {c : Context} {names : Node → List String}

/-- **Every row is parsed in a state that knows the blocks around it**, and the local variables that are reported
are those that some row reads though they are not set. -/
theorem parseScript_scoped (only : r.OnlyDeclares names) (warns : r.config.warnUnsetLocals = true)
    (enclosing : c.enclosing = []) (scopes : c.scopes = [[]]) {s : Script} (parsed : r.parseScript source c = .ok s) :
    ∃ judged, r.judgements source c = .ok judged ∧ judged.map Judgement.row = rowsOf source ∧
      (∀ k n row, IsRow source k n row →
        ∃ d, r.ParsesRow source c judged k n row d ∧ KnowsBlocks names source judged n d) ∧
      s.diagnostics.filter isUnset = c.diagnostics.filter isUnset ++
        (List.range judged.length).flatMap fun j => (unsetReads names judged j).map unsetWarning := by
  obtain ⟨judged, o, c', judges, rows, run, -, diagnostics⟩ := parseScript_run parsed
  refine ⟨judged, judges, rows, fun k n row isRow => ?_, ?_⟩
  · obtain ⟨js, verdict, ks, o, c₁, c₂, c₃, rfl, rfl, reads, run, check, judging⟩ := judged_before judges isRow
    obtain ⟨blocks, opened, knows, -⟩ := run.knows only warns ({ row, verdict } :: ks) (scoped_zero enclosing scopes)
    have left := rowLeft_judge only judging
    obtain ⟨_, d, came, here⟩ := judging.of_bind
    refine ⟨d, ⟨reads.bind (check.bind (came.bind (ends_pure o d))), here, by simp⟩, ?_⟩
    cases came
    obtain rfl : c₂ = _ := eq_of_checkCancelled check
    have indent : indentAt ((js ++ { row, verdict } :: ks).map Judgement.row) js.length = row.indent := by
      rw [rows, indentAt, isRow.getElem?_rowsOf]
      rfl
    have ticked := Scoped.mk (c := { c₁ with cancellation := c₁.cancellation.tick }) knows.enclosing knows.scopes
    have entered := ticked.entered opened indent
    have around := opened.reverse_goingOn
    rw [rows] at around
    have node : nodeAt (js ++ { row, verdict } :: ks) js.length = verdict.node? := by simp [nodeAt]
    rw [← node] at left
    constructor
    · rw [entered.enclosing, around]
    · rw [entered.length, ← around, List.length_reverse]
    · exact entered.isSet_iff (opened.moved indent).1 left
  · obtain ⟨blocks, -, -, reported⟩ := run.knows only warns [] (scoped_zero enclosing scopes)
    rw [List.append_nil] at reported
    have others : (o.warnings 0).filter isUnset = [] :=
      List.filter_eq_nil_iff.2 fun w mem => by simp [isUnset_warnings mem]
    rw [diagnostics, (o.adds_leave 0 c').diagnostics, List.filter_append, others, List.append_nil, reported]

end Phrasebook.Registry
