import Phrasebook.Proofs.Pattern.Apart
import Phrasebook.Proofs.Pattern.Layout

/-!
# How captures are numbered

The captures of a pattern are numbered while its text is read, those of each kind on their own. Groups are dropped
again only if they hold nothing but blanks, so every capture of the text has its place in the tree, and the captures
stand there and in the program in the order of the text (`captures_readAll`, `captures_programOf`).
-/

namespace Phrasebook.Pattern
open Text

/-- Captures of these kinds, one after the other, each with the next number of its kind. -/
def numbered (next : CaptureKind → Nat) : List CaptureKind → List CaptureId
  | [] => []
  | kind :: kinds => ⟨kind, next kind⟩ :: numbered (fun kind' => next kind' + if kind = kind' then 1 else 0) kinds

/-- The number of a capture, if it is of some kind. -/
def CaptureId.number? (kind : CaptureKind) (c : CaptureId) : Option Nat :=
  if c.kind = kind then some c.index else none

/-- The numbers of each kind come one after the other. -/
theorem filterMap_numbered (kind : CaptureKind) (next : CaptureKind → Nat) (kinds : List CaptureKind) :
    (numbered next kinds).filterMap (CaptureId.number? kind) = List.range' (next kind) (kinds.count kind) := by
  induction kinds generalizing next with
  | nil => rfl
  | cons first kinds ih =>
    rw [numbered, List.filterMap_cons, ih]
    by_cases same : first = kind
    · subst same
      simp [CaptureId.number?, List.range'_succ]
    · simp [CaptureId.number?, same]

section Order

/-- Tokens that start at a place or behind it, in the order in which they start. -/
structure Ordered (offset : Nat) (ts : List Located) : Prop where
  pairwise : ts.Pairwise fun t t' => t.offset < t'.offset
  bound : ∀ t ∈ ts, offset ≤ t.offset

theorem ordered_nil (offset : Nat) : Ordered offset [] := ⟨.nil, nofun⟩

/-- A token in front of others that start behind it. -/
theorem Ordered.cons {offset next : Nat} {ts : List Located} (ordered : Ordered next ts) (less : offset < next)
    (token : Token) : Ordered offset (⟨offset, token⟩ :: ts) where
  pairwise := List.pairwise_cons.2 ⟨fun t mem => Nat.lt_of_lt_of_le less (ordered.bound t mem), ordered.pairwise⟩
  bound := List.forall_mem_cons.2
    ⟨Nat.le_refl _, fun t mem => Nat.le_trans (Nat.le_of_lt less) (ordered.bound t mem)⟩

/-- A label is written with the sign that ends it. -/
theorem byteLength_label {branchStart : Bool} {cs text rest : List Char} {label : Label}
    (h : labelAt? branchStart cs = some (label, text, rest)) : 0 < byteLength text := by
  cases branchStart with
  | false => cases h
  | true =>
    rw [labelAt?, if_pos rfl, takeLabel?] at h
    split at h
    · split at h
      · obtain ⟨_, -, same⟩ := Option.map_eq_some_iff.1 h
        cases same
        rw [byteLength, List.foldl_append]
        exact Nat.lt_of_lt_of_le (Char.utf8Size_pos _) (Nat.le_add_left _ _)
      · cases h
    · cases h

/-- **The tokens of a text** come in the order of the text. -/
theorem tokensFrom_ordered (offset : Nat) (branchStart : Bool) (cs : List Char) :
    Ordered offset (tokensFrom offset branchStart cs) := by
  fun_induction tokensFrom offset branchStart cs with
  | case1 offset branchStart cs label text rest found _ _ ih =>
    exact ih.cons (Nat.lt_add_of_pos_right (byteLength_label found)) _
  | case2 => exact ordered_nil _
  | case3 offset => exact (ordered_nil (offset + 1)).cons (Nat.lt_succ_self _) _
  | case4 offset branchStart c rest _ ih => exact ih.cons (by omega) _
  | case5 offset => exact (ordered_nil (offset + 1)).cons (Nat.lt_succ_self _) _
  | case6 offset branchStart c rest _ _ kind opens body rest' found =>
    rename_i ih
    exact ih.cons (by omega) _
  | case7 offset branchStart c rest single double opens token starts simple _ ih =>
    exact ih.cons (Nat.lt_add_of_pos_right (Char.utf8Size_pos c)) _

end Order

/-- What a placeholder is in a text: where it starts, and how it is written. -/
def Located.placeholder? (t : Located) : Option (Nat × List Char) :=
  match t.token with
  | .capture .placeholder body _ => some (t.offset, ['%'] ++ body ++ ['%'])
  | _ => none

/-- The source of a regex in a text. -/
def Located.regex? (t : Located) : Option (List Char) :=
  match t.token with
  | .capture .regex body _ => some body
  | _ => none

/-- A token that is no capture is no placeholder and no regex. -/
theorem Located.written_of_other {t : Located} (other : t.token.captureKind? = none) :
    t.placeholder? = none ∧ t.regex? = none := by
  obtain ⟨offset, token⟩ := t
  cases token with
  | capture => cases other
  | _ => exact ⟨rfl, rfl⟩

/-- The capture that an instruction stands for. -/
def Instr.capture? : Instr → Option CaptureId
  | slot index _ => some ⟨.placeholder, index⟩
  | regex index _ => some ⟨.regex, index⟩
  | _ => none

namespace Element

mutual

/-- The captures of an element, from left to right. -/
def captures : Element → List CaptureId
  | literal _ | space => []
  | placeholder index => [⟨.placeholder, index⟩]
  | regex index => [⟨.regex, index⟩]
  | optional inner => inner.captures
  | choice branches => capturesOfBranches branches
  | sequence items => capturesOfItems items

/-- The captures of a sequence. -/
def capturesOfItems : List Element → List CaptureId
  | [] => []
  | e :: rest => e.captures ++ capturesOfItems rest

/-- The captures of the branches of a choice. -/
def capturesOfBranches : List (Label × Element) → List CaptureId
  | [] => []
  | (_, e) :: rest => e.captures ++ capturesOfBranches rest

end

@[simp] theorem capturesOfItems_append (a b : List Element) :
    capturesOfItems (a ++ b) = capturesOfItems a ++ capturesOfItems b := by
  induction a with
  | nil => rfl
  | cons e a ih => simp only [List.cons_append, capturesOfItems, ih, List.append_assoc]

@[simp] theorem capturesOfBranches_append (a b : List (Label × Element)) :
    capturesOfBranches (a ++ b) = capturesOfBranches a ++ capturesOfBranches b := by
  induction a with
  | nil => rfl
  | cons e a ih => simp only [List.cons_append, capturesOfBranches, ih, List.append_assoc]

theorem captures_ofBranches (branches : List (Label × Element)) :
    (ofBranches branches).captures = capturesOfBranches branches := by
  unfold ofBranches
  split
  · split <;> simp [captures, capturesOfBranches]
  · rw [captures]

theorem captures_element (c : CaptureId) : c.element.captures = [c] := by
  obtain ⟨kind, index⟩ := c
  cases kind <;> rfl

/-- A label captures nothing. -/
theorem captures_label (label : Label) : label.code.filterMap Instr.capture? = [] := by
  obtain ⟨mark, tag⟩ := label
  cases mark <;> cases tag <;> rfl

mutual

/-- The code of an element captures what the element does. -/
theorem captures_code (start : Nat) : (e : Element) → (e.code start).filterMap Instr.capture? = e.captures
  | .literal _ | .space | .placeholder _ | .regex _ => rfl
  | .optional inner => by
    rw [code, captures, ← captures_code (start + 1) inner]
    rfl
  | .choice branches => by rw [code, captures, captures_branchesCode]
  | .sequence items => by rw [code, captures, captures_itemsCode]

theorem captures_itemsCode (start : Nat) :
    (items : List Element) → (itemsCode start items).filterMap Instr.capture? = capturesOfItems items
  | [] => rfl
  | e :: rest => by rw [itemsCode, capturesOfItems, List.filterMap_append, captures_code, captures_itemsCode]

theorem captures_branchesCode (start goal : Nat) : (branches : List (Label × Element)) →
    (branchesCode start goal branches).filterMap Instr.capture? = capturesOfBranches branches
  | [] => rfl
  | [(label, e)] => by
    rw [branchesCode, List.filterMap_append, captures_label, captures_code]
    simp [capturesOfBranches]
  | (label, e) :: b :: rest => by
    have later := captures_branchesCode (start + label.code.length + e.codeSize + 2) goal (b :: rest)
    simp only [branchesCode, capturesOfBranches, List.filterMap_append, List.filterMap_cons, Instr.capture?,
      captures_label, captures_code, later]
    rfl

end

end Element

open Element

/-- What may follow a capture does not tell which it is. -/
theorem captures_withFollow (code : List Instr) (table : List Follow) :
    (withFollow code table).filterMap Instr.capture? = code.filterMap Instr.capture? := by
  fun_induction withFollow code table with
  | case1 index follow rest _ later ih => simpa [Instr.capture?] using ih
  | case2 index follow rest _ later ih => simpa [Instr.capture?] using ih
  | case3 instr rest _ later _ _ ih => rw [List.filterMap_cons, List.filterMap_cons, ih]
  | case4 => rfl

/-- **The captures of a program** are those of its tree. -/
theorem captures_programOf (root : Element) : (programOf root).filterMap Instr.capture? = root.captures := by
  rw [programOf, captures_withFollow, List.filterMap_append, captures_code]
  exact List.append_nil _

namespace Branch

variable {b : Branch}

theorem captures_gap (c : Prop) [Decidable c] : capturesOfItems (if c then [.space] else []) = [] := by
  split <;> rfl

theorem captures_push (b : Branch) (e : Element) :
    capturesOfItems (b.push e).items = capturesOfItems b.items ++ e.captures := by
  simp [push, captures_gap, capturesOfItems]

theorem captures_flush (b : Branch) : capturesOfItems b.flush.items = capturesOfItems b.items := by
  unfold flush
  dsimp only
  split
  · rfl
  · simp [captures_push, captures]

theorem captures_finish (b : Branch) : b.finish.2.captures = capturesOfItems b.items := by
  simp [finish, captures, captures_gap, captures_flush]

end Branch

namespace Group

variable {g : Group}

/-- The captures of an open group. -/
def captures (g : Group) : List CaptureId :=
  capturesOfBranches g.done ++ capturesOfItems g.branch.items

theorem captures_branches (g : Group) : capturesOfBranches g.branches = g.captures := by
  simp [branches, captures, capturesOfBranches, Branch.captures_finish]

theorem captures_start (opener : Option (Bracket × Nat)) : (start opener).captures = [] := rfl

theorem captures_touched (g : Group) (blank : Bool) : (g.touched blank).captures = g.captures := rfl

/-- A group that is taken to hold nothing but blanks holds nothing that captures. -/
def Drops (g : Group) : Prop :=
  g.isBlank = true → g.captures = []

theorem captures_onBranch {f : Branch → Branch} {blank : Bool} {new : List CaptureId}
    (items : capturesOfItems (f g.branch).items = capturesOfItems g.branch.items ++ new) :
    ((g.touched blank).onBranch f).captures = g.captures ++ new := by
  simp [captures, onBranch, touched, items]

/-- Only what captures nothing leaves a group blank. -/
theorem Drops.onBranch {f : Branch → Branch} {blank : Bool} {new : List CaptureId} (drops : g.Drops)
    (items : capturesOfItems (f g.branch).items = capturesOfItems g.branch.items ++ new)
    (either : blank = false ∨ new = []) :
    ((g.touched blank).onBranch f).Drops := by
  intro isBlank
  simp only [Group.onBranch, touched, Bool.and_eq_true] at isBlank
  rcases either with solid | rfl
  · rw [isBlank.2] at solid
    cases solid
  · rw [captures_onBranch items, drops isBlank.1]
    rfl

end Group

namespace Reading

variable {resolve : String → Option PatternType} {r r' : Reading} {t : Located} {ts : List Located}

/-- The captures that were read, those of the open groups from the outside in. -/
def captures (r : Reading) : List CaptureId :=
  r.outer.reverse.flatMap Group.captures ++ r.group.captures

/-- What reading a token does to the captures: the token adds one, if it is a capture, and none is dropped. -/
structure Takes (r : Reading) (t : Located) (r' : Reading) : Prop where
  drops : ∀ g ∈ r'.group :: r'.outer, g.Drops
  captures : r'.captures = r.captures ++ (t.token.captureKind?.map fun kind => ⟨kind, r.count kind⟩).toList
  placeholders : r'.placeholders.map (fun p => (p.offset, p.text)) =
    r.placeholders.map (fun p => (p.offset, p.text)) ++ t.placeholder?.toList
  regexes : r'.regexes.map PatternRegex.source = r.regexes.map PatternRegex.source ++ t.regex?.toList

/-- A regex is written as its body. -/
theorem source_regexOf {body : List Char} {x : PatternRegex} (h : regexOf body = .ok x) : x.source = body := by
  unfold regexOf at h
  split at h
  · cases h
  · split at h <;> cases h
    rfl

section Step

variable (drops : ∀ g ∈ r.group :: r.outer, g.Drops)

omit drops in
/-- A token that is no capture adds none. -/
theorem takes_other (other : t.token.captureKind? = none) (drops : ∀ g ∈ r'.group :: r'.outer, g.Drops)
    (captures : r'.captures = r.captures) (placeholders : r'.placeholders = r.placeholders)
    (regexes : r'.regexes = r.regexes) : Takes r t r' := by
  obtain ⟨noPlaceholder, noRegex⟩ := Located.written_of_other other
  exact ⟨drops, by simp [captures, other], by simp [placeholders, noPlaceholder], by simp [regexes, noRegex]⟩

include drops

/-- A token that changes the present branch, but none of its items. -/
theorem takes_onBranch (other : t.token.captureKind? = none) (blank : Bool) {f : Branch → Branch}
    (items : (f r.group.branch).items = r.group.branch.items) : Takes r t (r.onBranch blank f) := by
  have same : capturesOfItems (f r.group.branch).items = capturesOfItems r.group.branch.items ++ [] := by
    rw [items, List.append_nil]
  have captures := @Group.captures_onBranch _ _ blank _ same
  obtain ⟨first, others⟩ := List.forall_mem_cons.1 drops
  refine takes_other other (List.forall_mem_cons.2 ⟨first.onBranch same (.inr rfl), others⟩) ?_ rfl rfl
  simp [Reading.captures, Reading.onBranch, captures]

/-- A closed group is dropped only if it holds no capture. -/
theorem takes_close {bracket : Bracket} (other : t.token.captureKind? = none)
    (h : r.close bracket t.offset = .ok r') : Takes r t r' := by
  obtain ⟨first, others⟩ := List.forall_mem_cons.1 drops
  unfold close at h
  split at h
  next opened at_ parent outer opener around =>
    rw [around] at others
    obtain ⟨parentDrops, others⟩ := List.forall_mem_cons.1 others
    -- a group that is not blank becomes an item of its parent
    have place (e : Element) (same : e.captures = r.group.captures) :
        Takes r t { r with group := (parent.touched false).onBranch fun b => b.push e, outer } := by
      have items := Branch.captures_push parent.branch e
      have grown := @Group.captures_onBranch parent (fun b => b.push e) false _ items
      refine takes_other other (List.forall_mem_cons.2 ⟨parentDrops.onBranch items (.inl rfl), others⟩) ?_ rfl rfl
      simp [Reading.captures, around, grown, same]
    dsimp only at h
    split at h
    · cases h
    split at h
    next isBlank =>
      split at h
      · cases h
        have none := first isBlank
        refine takes_other other (List.forall_mem_cons.2 ⟨fun isBlank => ?_, others⟩) ?_ rfl rfl
        · simp [Group.touched] at isBlank
        · simp [Reading.captures, around, none, Group.captures_touched]
      · cases h
    next =>
      cases bracket with
      | square =>
        cases h
        refine place _ ?_
        rw [Element.captures, captures_ofBranches, Group.captures_branches]
      | round =>
        cases h
        refine place _ ?_
        rw [Element.captures, Group.captures_branches]
  · cases h

omit drops in
/-- A capture is kept as it is written. -/
theorem written_addCapture {kind : CaptureKind} {body : List Char} {stop : Nat}
    (here : t.token = .capture kind body stop) (h : r.addCapture resolve t.offset kind body stop = .ok r') :
    r'.placeholders.map (fun p => (p.offset, p.text)) =
        r.placeholders.map (fun p => (p.offset, p.text)) ++ t.placeholder?.toList ∧
      r'.regexes.map PatternRegex.source = r.regexes.map PatternRegex.source ++ t.regex?.toList := by
  unfold addCapture at h
  split at h
  · cases h
  cases kind with
  | placeholder =>
    dsimp only at h
    split at h
    · cases h
    next p found =>
      cases h
      obtain ⟨_, _, _, -, rfl⟩ := eq_of_placeholderOf found
      simp [Located.placeholder?, Located.regex?, here, Reading.onBranch]
  | regex =>
    dsimp only at h
    split at h
    · cases h
    next x found =>
      cases h
      simp [Located.placeholder?, Located.regex?, here, Reading.onBranch, source_regexOf found]

/-- A capture takes the next number of its kind. -/
theorem takes_capture {kind : CaptureKind} {body : List Char} {stop : Nat} (here : t.token = .capture kind body stop)
    (h : r.addCapture resolve t.offset kind body stop = .ok r') : Takes r t r' := by
  obtain ⟨first, others⟩ := List.forall_mem_cons.1 drops
  obtain ⟨placeholders, regexes⟩ := written_addCapture here h
  obtain ⟨-, -, outer, -, group⟩ := addCapture_cases h
  generalize new : CaptureId.mk kind (r.count kind) = c at group
  have items : capturesOfItems (r.group.branch.flush.push c.element).items =
      capturesOfItems r.group.branch.items ++ [c] := by
    rw [Branch.captures_push, Branch.captures_flush, captures_element]
  have grown := @Group.captures_onBranch _ (fun b => b.flush.push c.element) false _ items
  refine ⟨?_, ?_, placeholders, regexes⟩
  · rw [group, outer]
    exact List.forall_mem_cons.2 ⟨first.onBranch items (.inl rfl), others⟩
  · rw [Reading.captures, group, outer, grown, here]
    simp [Reading.captures, Token.captureKind?, new]

/-- **Every token** adds the capture that it is, and no more. -/
theorem takes_next (h : r.next resolve t = .ok r') : Takes r t r' := by
  obtain ⟨first, others⟩ := List.forall_mem_cons.1 drops
  unfold next at h
  split at h
  next label here =>
    cases h
    exact takes_onBranch drops (by rw [here]; rfl) _ rfl
  next here =>
    cases h
    exact takes_onBranch drops (by rw [here]; rfl) _ (Branch.items_addBlank _)
  next c here =>
    cases h
    exact takes_onBranch drops (by rw [here]; rfl) _ rfl
  next here =>
    cases h
    refine takes_other (by rw [here]; rfl) (List.forall_mem_cons.2 ⟨fun isBlank => ?_, others⟩) ?_ rfl rfl
    · simp [Group.nextBranch, Group.touched] at isBlank
    · have same : (r.group.touched false).nextBranch.captures = r.group.captures := by
        rw [← r.group.captures_branches]
        exact List.append_nil _
      simp [Reading.captures, same]
  next bracket here =>
    cases h
    have items : capturesOfItems r.group.branch.flush.items = capturesOfItems r.group.branch.items ++ [] := by
      rw [Branch.captures_flush, List.append_nil]
    have same := @Group.captures_onBranch _ Branch.flush false _ items
    refine takes_other (by rw [here]; rfl) ?_ ?_ rfl rfl
    · exact List.forall_mem_cons.2 ⟨fun _ => rfl, List.forall_mem_cons.2 ⟨first.onBranch items (.inl rfl), others⟩⟩
    · simp [Reading.captures, same, Group.captures_start]
  next bracket here => exact takes_close drops (by rw [here]; rfl) h
  next kind body stop here => exact takes_capture drops here h
  next => split at h <;> cases h
  next => cases h

end Step

/-- The capture that was read is counted. -/
theorem Takes.count (takes : Takes r t r') (kind : CaptureKind) :
    r'.count kind = r.count kind + (t.token.captureKind?.toList).count kind := by
  have placeholders := congrArg List.length takes.placeholders
  have regexes := congrArg List.length takes.regexes
  simp only [List.length_map, List.length_append, Located.placeholder?, Located.regex?] at placeholders regexes
  obtain ⟨offset, token⟩ := t
  cases token with
  | capture kind' body stop => cases kind' <;> cases kind <;> simpa [Reading.count, Token.captureKind?]
  | _ => cases kind <;> simpa [Reading.count, Token.captureKind?]

/-- **The captures of a text are numbered as they are read**, and they are kept as they are written. -/
theorem captures_readAll (drops : ∀ g ∈ r.group :: r.outer, g.Drops) (h : readAll resolve r ts = .ok r') :
    r'.captures = r.captures ++ numbered r.count (ts.filterMap (·.token.captureKind?)) ∧
      r'.placeholders.map (fun p => (p.offset, p.text)) =
        r.placeholders.map (fun p => (p.offset, p.text)) ++ ts.filterMap Located.placeholder? ∧
      r'.regexes.map PatternRegex.source = r.regexes.map PatternRegex.source ++ ts.filterMap Located.regex? := by
  induction ts generalizing r with
  | nil =>
    cases h
    simp [numbered]
  | cons t ts ih =>
    obtain ⟨next, step, h⟩ := readAll_cons h
    have takes := takes_next drops step
    obtain ⟨captures, placeholders, regexes⟩ := ih takes.drops h
    rw [captures, placeholders, regexes, takes.captures, takes.placeholders, takes.regexes]
    have counts := funext takes.count
    refine ⟨?_, ?_, ?_⟩
    · rw [counts]
      cases kind : t.token.captureKind? with
      | none => simp [kind]
      | some kind => simp [kind, numbered, List.count_singleton]
    · cases written : t.placeholder? <;> simp [written]
    · cases written : t.regex? <;> simp [written]

/-- No capture of the tree is lost at the end. -/
theorem captures_finish {root : Element} (sound : r.Sound) (h : r.finish = .ok root) : root.captures = r.captures := by
  unfold finish at h
  split at h
  · cases h
  next closed =>
  split at h
  · cases h
  · cases h
    rw [captures_ofBranches, Group.captures_branches, captures, sound.outermost closed]
    rfl

end Reading

/-- How the captures of a pattern stand to some tokens: the program holds all of them in their order, those of each
kind numbered from zero, and they are listed by their numbers as they are written. -/
structure InTextOrder (p : Pattern) (ts : List Located) : Prop where
  tokens : ts.Pairwise fun t t' => t.offset < t'.offset
  program : p.program.toList.filterMap Instr.capture? = numbered (fun _ => 0) (ts.filterMap (·.token.captureKind?))
  indexed : p.placeholders.map Placeholder.index = List.range p.placeholders.length
  placeholders : p.placeholders.map (fun p => (p.offset, p.text)) = ts.filterMap Located.placeholder?
  regexes : p.regexes.map PatternRegex.source = ts.filterMap Located.regex?

/-- **The captures of a pattern are numbered in the order of its text**, and no other than these are in its program. -/
theorem compile_inTextOrder {resolve : String → Option PatternType} {source : String} {p : Pattern}
    (h : Pattern.compile resolve source = .ok p) : InTextOrder p (tokens source) := by
  obtain ⟨reading, read, finish, parts⟩ := compile_reads h
  have none : ∀ g ∈ Reading.start.group :: Reading.start.outer, g.Drops := by
    intro g among isBlank
    obtain rfl := List.mem_singleton.1 among
    rfl
  obtain ⟨captures, placeholders, regexes⟩ := Reading.captures_readAll none read
  have start : Reading.start.count = fun _ => 0 := funext fun kind => by cases kind <;> rfl
  have sound := readAll_sound Reading.sound_start read
  refine ⟨(tokensFrom_ordered 0 true source.toList).pairwise, ?_, (compile_sound h).numbered, ?_, ?_⟩
  · rw [(compile_sound h).program, captures_programOf, Reading.captures_finish sound finish, captures, start]
    rfl
  · rw [parts]
    exact placeholders
  · rw [parts]
    exact regexes

end Phrasebook.Pattern
