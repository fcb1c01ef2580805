import Phrasebook.Proofs.Registry.Calls

/-!
# Patterns that cannot be told apart

A pattern that is registered where an earlier definition of its category and priority has one with the same normal
form is refused or recorded, by the settings in force. So under settings that always deny no two definitions clash
(`Distinct`), and what is recorded is exactly what was registered under settings that warn and clashes with
something earlier (`Recorded`). `builder_calls` puts this together with what calls leave.
-/

namespace Phrasebook

/-- The place of a pattern: the number of its definition, and its number among the patterns of the definition. -/
abbrev PatternPlace := Nat × Nat

/-- One pattern was registered before another. -/
def PatternPlace.Precedes (a b : PatternPlace) : Prop :=
  a.1 < b.1 ∨ a.1 = b.1 ∧ a.2 < b.2

/-- The pattern at a place, and its definition. -/
def PatternAt (definitions : List Definition) (place : PatternPlace) (d : Definition) (p : Pattern) : Prop :=
  definitions[place.1]? = some d ∧ d.patterns[place.2]? = some p

/-- Two patterns of two definitions cannot be told apart. -/
structure Clash (d : Definition) (p : Pattern) (e : Definition) (q : Pattern) : Prop where
  category : e.category = d.category
  priority : e.priority = d.priority
  normalized : q.normalized = p.normalized

/-- The pattern at a place clashes with one of an earlier definition. -/
def Rivals (definitions : List Definition) (place rival : PatternPlace) : Prop :=
  rival.1 < place.1 ∧
    ∃ d p e q, PatternAt definitions place d p ∧ PatternAt definitions rival e q ∧ Clash d p e q

/-- A record is about the pattern at a place and the first pattern that it clashes with. -/
def Tells (definitions : List Definition) (place : PatternPlace) (a : Ambiguity) : Prop :=
  ∃ rival, Rivals definitions place rival ∧
    (∀ other, Rivals definitions place other → ¬ PatternPlace.Precedes other rival) ∧
    ∃ d p e q, PatternAt definitions place d p ∧ PatternAt definitions rival e q ∧
      a = { category := d.category, pattern := p.source, existing := q.source, priority := d.priority }

/-- No two definitions have patterns that clash. -/
def Distinct (definitions : List Definition) : Prop :=
  definitions.Pairwise fun d e => ∀ p ∈ d.patterns, ∀ q ∈ e.patterns, ¬ Clash d p e q

/-- The records are about exactly the patterns that were registered under settings that warn and clash with one of
an earlier definition, each once and in order. -/
def Recorded (definitions : List Definition) (policies : List AmbiguityPolicy) (ambiguities : List Ambiguity) :
    Prop :=
  ∃ places : List PatternPlace, places.Pairwise PatternPlace.Precedes ∧
    (∀ place, place ∈ places ↔ policies[place.1]? = some .warn ∧ ∃ rival, Rivals definitions place rival) ∧
    List.Forall₂ (Tells definitions) places ambiguities

namespace RegistryBuilder

/-- The policy under which a definition was registered, if one was. -/
def policy (b : RegistryBuilder) : Except Cause Registration.Answer → List AmbiguityPolicy
  | .ok (.definition _) => [b.config.ambiguity]
  | _ => []

/-- The policies under which calls register definitions, one after the other. -/
def policies (b : RegistryBuilder) : List Registration → List AmbiguityPolicy
  | [] => []
  | call :: rest => b.policy (call.perform b).1 ++ (call.perform b).2.policies rest

theorem policies_snoc (b : RegistryBuilder) (calls : List Registration) (call : Registration) :
    b.policies (calls ++ [call]) = b.policies calls ++ (b.after calls).policy (call.perform (b.after calls)).1 := by
  induction calls generalizing b with
  | nil => exact List.append_nil _
  | cons first rest ih =>
    rw [List.cons_append, policies, ih, policies, List.append_assoc]
    rfl

variable {b : RegistryBuilder} {category : Category} {priority : Int} {p : Pattern}

theorem rival?_eq_findSome? (b : RegistryBuilder) (category : Category) (priority : Int) (p : Pattern) :
    b.rival? category priority p =
      b.definitions.findSome? fun e =>
        if e.category == category && e.priority == priority then
          e.patterns.find? fun q => q.normalized == p.normalized
        else none := by
  unfold rival?
  induction b.definitions with
  | nil => rfl
  | cons e rest ih =>
    cases among : e.category == category && e.priority == priority with
    | true =>
      simp only [List.filter_cons, List.findSome?_cons, among, if_true, List.flatMap_cons, List.find?_append, ih]
      cases e.patterns.find? fun q => q.normalized == p.normalized <;> rfl
    | false => simp only [List.filter_cons, List.findSome?_cons, among, Bool.false_eq_true, if_false, ih]

/-- A pattern that is found is the first one of its category, priority and normal form. -/
theorem rival?_eq_some {q : Pattern} (found : b.rival? category priority p = some q) :
    ∃ rival e, PatternAt b.definitions rival e q ∧
      (e.category = category ∧ e.priority = priority ∧ q.normalized = p.normalized) ∧
      ∀ other e' q', PatternAt b.definitions other e' q' → e'.category = category → e'.priority = priority →
        q'.normalized = p.normalized → ¬ PatternPlace.Precedes other rival := by
  rw [rival?_eq_findSome?, List.findSome?_eq_some_iff] at found
  obtain ⟨before, e, behind, split, here, nothing⟩ := found
  split at here
  next among =>
    obtain ⟨same, earlier, later, patterns, others⟩ := List.find?_eq_some_iff_append.1 here
    simp only [Bool.and_eq_true, beq_iff_eq] at among same
    refine ⟨(before.length, earlier.length), e, ⟨by simp [split], by simp [patterns]⟩,
      ⟨among.1, among.2, same⟩, fun other e' q' at_ cat prio norm less => ?_⟩
    rcases less with less | ⟨level, less⟩
    · have inside : e' ∈ before := by
        have place := at_.1
        rw [split, List.getElem?_append_left less] at place
        exact List.mem_of_getElem? place
      have none := nothing e' inside
      rw [if_pos (by simp [cat, prio]), List.find?_eq_none] at none
      exact none q' (List.mem_of_getElem? at_.2) (by simp [norm])
    · have place := at_.1
      rw [level, split, List.getElem?_append_right (Nat.le_refl _), Nat.sub_self] at place
      obtain rfl : e = e' := Option.some.inj place
      have pattern := at_.2
      rw [patterns, List.getElem?_append_left less] at pattern
      have none := others q' (List.mem_of_getElem? pattern)
      simp [norm] at none
  · cases here

/-- Where no pattern is found, there is none of the category, priority and normal form. -/
theorem rival?_eq_none (none : b.rival? category priority p = none) {place : PatternPlace} {e : Definition} {q : Pattern}
    (at_ : PatternAt b.definitions place e q) (cat : e.category = category) (prio : e.priority = priority) :
    q.normalized ≠ p.normalized := by
  intro norm
  rw [rival?_eq_findSome?, List.findSome?_eq_none_iff] at none
  have nothing := none e (List.mem_of_getElem? at_.1)
  rw [if_pos (by simp [cat, prio]), List.find?_eq_none] at nothing
  exact nothing q (List.mem_of_getElem? at_.2) (by simp [norm])

/-- The ambiguity that a pattern brings, if there is one. -/
theorem ambiguitiesOf_eq (b : RegistryBuilder) (category : Category) (priority : Int) (p : Pattern) :
    b.ambiguitiesOf category priority p =
      ((b.rival? category priority p).map fun q =>
        ({ category, pattern := p.source, existing := q.source, priority } : Ambiguity)).toList := by
  unfold ambiguitiesOf
  cases b.rival? category priority p <;> rfl

end RegistryBuilder

/-- The places at which a filter keeps something, in order. -/
theorem exists_kept_places {α β : Type} (f : α → Option β) (xs : List α) :
    ∃ places : List Nat, places.Pairwise (· < ·) ∧
      (∀ j, j ∈ places ↔ ∃ x y, xs[j]? = some x ∧ f x = some y) ∧
      List.Forall₂ (fun j y => ∃ x, xs[j]? = some x ∧ f x = some y) places (xs.filterMap f) := by
  induction xs with
  | nil => exact ⟨[], .nil, by simp, .nil⟩
  | cons x xs ih =>
    obtain ⟨places, sorted, mem_iff, kept⟩ := ih
    have sorted' : (places.map (· + 1)).Pairwise (· < ·) :=
      List.pairwise_map.2 (sorted.imp fun less => Nat.succ_lt_succ less)
    have kept' : List.Forall₂ (fun j y => ∃ x', (x :: xs)[j]? = some x' ∧ f x' = some y) (places.map (· + 1))
        (xs.filterMap f) := List.forall₂_map_left_iff.2 kept
    have mem_iff' (j : Nat) : j + 1 ∈ places.map (· + 1) ↔ ∃ x' y, xs[j]? = some x' ∧ f x' = some y := by
      rw [← mem_iff, List.mem_map_of_injective fun a b => Nat.succ.inj]
    cases here : f x with
    | none =>
      refine ⟨places.map (· + 1), sorted', fun j => ?_, by rwa [List.filterMap_cons_none here]⟩
      cases j with
      | zero => simp [here]
      | succ j => exact mem_iff' j
    | some y =>
      refine ⟨0 :: places.map (· + 1), List.pairwise_cons.2 ⟨by simp, sorted'⟩, fun j => ?_, ?_⟩
      · cases j with
        | zero => simp [here]
        | succ j =>
          rw [List.mem_cons, or_iff_right (Nat.succ_ne_zero j)]
          exact mem_iff' j
      · rw [List.filterMap_cons_some here]
        exact .cons ⟨x, rfl, here⟩ kept'

section Step

variable {definitions : List Definition} {d : Definition} {place rival : PatternPlace}

theorem patternAt_append {e : Definition} {q : Pattern} (less : place.1 < definitions.length) :
    PatternAt (definitions ++ [d]) place e q ↔ PatternAt definitions place e q := by
  rw [PatternAt, PatternAt, List.getElem?_append_left less]

theorem patternAt_last {e : Definition} {q : Pattern} (last : place.1 = definitions.length) :
    PatternAt (definitions ++ [d]) place e q ↔ e = d ∧ d.patterns[place.2]? = some q := by
  rw [PatternAt, last, List.getElem?_concat_length, Option.some.injEq]
  constructor
  · rintro ⟨rfl, found⟩
    exact ⟨rfl, found⟩
  · rintro ⟨rfl, found⟩
    exact ⟨rfl, found⟩

/-- What clashed before still does, and nothing else among the earlier definitions. -/
theorem rivals_append (less : place.1 < definitions.length) :
    Rivals (definitions ++ [d]) place rival ↔ Rivals definitions place rival := by
  unfold Rivals
  refine and_congr_right fun before => ?_
  have before' : rival.1 < definitions.length := Nat.lt_trans before less
  simp only [patternAt_append less, patternAt_append before']

theorem Tells.append {a : Ambiguity} (less : place.1 < definitions.length) (h : Tells definitions place a) :
    Tells (definitions ++ [d]) place a := by
  obtain ⟨rival, rivals, first, e, p, e', q, here, there, same⟩ := h
  refine ⟨rival, (rivals_append less).2 rivals, fun other rivals' => first other ((rivals_append less).1 rivals'),
    e, p, e', q, (patternAt_append less).2 here, ?_, same⟩
  exact (patternAt_append (Nat.lt_trans rivals.1 less)).2 there

/-- A pattern of the last definition clashes with those of the earlier ones alone. -/
theorem rivals_last (last : place.1 = definitions.length) :
    Rivals (definitions ++ [d]) place rival ↔
      ∃ p e q, d.patterns[place.2]? = some p ∧ PatternAt definitions rival e q ∧ Clash d p e q := by
  constructor
  · rintro ⟨less, d', p, e, q, here, there, clash⟩
    rw [last] at less
    obtain ⟨rfl, found⟩ := (patternAt_last last).1 here
    exact ⟨p, e, q, found, (patternAt_append less).1 there, clash⟩
  · rintro ⟨p, e, q, found, there, clash⟩
    have less : rival.1 < definitions.length := (List.getElem?_eq_some_iff.1 there.1).1
    exact ⟨last ▸ less, d, p, e, q, (patternAt_last last).2 ⟨rfl, found⟩, (patternAt_append less).2 there, clash⟩

theorem Rivals.le_length (h : Rivals (definitions ++ [d]) place rival) : place.1 ≤ definitions.length := by
  obtain ⟨-, e, p, -, -, here, -⟩ := h
  have bound := (List.getElem?_eq_some_iff.1 here.1).1
  rw [List.length_append, List.length_singleton] at bound
  omega

end Step

namespace RegistryBuilder

variable {b : RegistryBuilder} {d : Definition} {policies : List AmbiguityPolicy}

/-- The ambiguity that a pattern of a definition brings. -/
def ambiguity? (b : RegistryBuilder) (d : Definition) (p : Pattern) : Option Ambiguity :=
  (b.rival? d.category d.priority p).map fun q =>
    { category := d.category, pattern := p.source, existing := q.source, priority := d.priority }

theorem flatMap_ambiguitiesOf (b : RegistryBuilder) (d : Definition) :
    d.patterns.flatMap (b.ambiguitiesOf d.category d.priority) = d.patterns.filterMap (b.ambiguity? d) := by
  rw [List.filterMap_eq_flatMap_toList]
  congr 1
  funext p
  exact b.ambiguitiesOf_eq d.category d.priority p

/-- A pattern brings an ambiguity if it clashes with one that is registered. -/
theorem ambiguity?_isSome_iff {p : Pattern} :
    (∃ a, b.ambiguity? d p = some a) ↔ ∃ rival e q, PatternAt b.definitions rival e q ∧ Clash d p e q := by
  unfold ambiguity?
  cases found : b.rival? d.category d.priority p with
  | none =>
    simp only [Option.map_none, reduceCtorEq, exists_false, false_iff, not_exists, not_and]
    exact fun rival e q there clash =>
      rival?_eq_none found there clash.category clash.priority clash.normalized
  | some q =>
    obtain ⟨rival, e, there, ⟨category, priority, normalized⟩, -⟩ := rival?_eq_some found
    simp only [Option.map_some, Option.some.injEq, exists_eq', true_iff]
    exact ⟨rival, e, q, there, category, priority, normalized⟩

/-- What a pattern of a new definition brings tells of it. -/
theorem tells_of_ambiguity? {j : Nat} {p : Pattern} {a : Ambiguity} (at_ : d.patterns[j]? = some p)
    (brings : b.ambiguity? d p = some a) : Tells (b.definitions ++ [d]) (b.definitions.length, j) a := by
  obtain ⟨q, found, rfl⟩ := Option.map_eq_some_iff.1 brings
  obtain ⟨rival, e, there, ⟨category, priority, normalized⟩, first⟩ := rival?_eq_some found
  have less : rival.1 < b.definitions.length := (List.getElem?_eq_some_iff.1 there.1).1
  refine ⟨rival, (rivals_last rfl).2 ⟨p, e, q, at_, there, category, priority, normalized⟩, ?_,
    d, p, e, q, (patternAt_last rfl).2 ⟨rfl, at_⟩, (patternAt_append less).2 there, rfl⟩
  intro other rivals
  obtain ⟨p', e', q', at_', there', clash⟩ := (rivals_last rfl).1 rivals
  obtain rfl : p' = p := Option.some.inj (at_'.symm.trans at_)
  exact first other e' q' there' clash.category clash.priority clash.normalized

/-- A definition that settings which deny permit clashes with none. -/
theorem distinct_snoc (distinct : Distinct b.definitions) (none : d.patterns.filterMap (b.ambiguity? d) = []) :
    Distinct (b.definitions ++ [d]) := by
  refine List.pairwise_append.2 ⟨distinct, List.pairwise_singleton _ _, fun e mem d' mem' q memQ p memP clash => ?_⟩
  obtain rfl := List.mem_singleton.1 mem'
  obtain ⟨i, place⟩ := List.mem_iff_getElem?.1 mem
  obtain ⟨k, pattern⟩ := List.mem_iff_getElem?.1 memQ
  have clash' : Clash d' p e q := ⟨clash.category.symm, clash.priority.symm, clash.normalized.symm⟩
  obtain ⟨a, brings⟩ := ambiguity?_isSome_iff.2 ⟨(i, k), e, q, ⟨place, pattern⟩, clash'⟩
  rw [List.filterMap_eq_nil_iff] at none
  rw [none p memP] at brings
  cases brings

/-- **Registering a definition keeps the records right**, whatever the policy. -/
theorem recorded_snoc (recorded : Recorded b.definitions policies b.ambiguities)
    (length : policies.length = b.definitions.length)
    (permitted : b.config.ambiguity = .deny → d.patterns.filterMap (b.ambiguity? d) = []) :
    Recorded (b.definitions ++ [d]) (policies ++ [b.config.ambiguity])
      (b.ambiguities ++ d.patterns.filterMap (b.ambiguity? d)) := by
  obtain ⟨places, sorted, mem_iff, tells⟩ := recorded
  obtain ⟨new, newSorted, mem_new, kept⟩ := exists_kept_places (b.ambiguity? d) d.patterns
  have old {place : PatternPlace} (mem : place ∈ places) : place.1 < b.definitions.length := by
    rw [← length]
    exact (List.getElem?_eq_some_iff.1 ((mem_iff place).1 mem).1).1
  refine ⟨places ++ new.map fun j => (b.definitions.length, j), ?_, fun place => ?_, ?_⟩
  · refine List.pairwise_append.2 ⟨sorted, ?_, fun place mem place' mem' => ?_⟩
    · exact List.pairwise_map.2 (newSorted.imp fun less => .inr ⟨rfl, less⟩)
    · obtain ⟨j, -, rfl⟩ := List.mem_map.1 mem'
      exact .inl (old mem)
  · rcases Nat.lt_trichotomy place.1 b.definitions.length with less | last | beyond
    · have notNew : place ∉ new.map fun j => (b.definitions.length, j) := by
        intro mem
        obtain ⟨j, -, rfl⟩ := List.mem_map.1 mem
        exact Nat.lt_irrefl _ less
      rw [List.mem_append, or_iff_left notNew, mem_iff, List.getElem?_append_left (length ▸ less)]
      simp only [rivals_append less]
    · have notOld : place ∉ places := fun mem => Nat.lt_irrefl _ (last ▸ old mem)
      have isNew : (place ∈ new.map fun j => (b.definitions.length, j)) ↔ place.2 ∈ new := by
        constructor
        · intro mem
          obtain ⟨j, mem', rfl⟩ := List.mem_map.1 mem
          exact mem'
        · exact fun mem => List.mem_map.2 ⟨place.2, mem, Prod.ext last.symm rfl⟩
      have brings : place.2 ∈ new ↔ ∃ rival, Rivals (b.definitions ++ [d]) place rival := by
        rw [mem_new]
        simp only [rivals_last last]
        constructor
        · rintro ⟨p, a, at_, brings⟩
          obtain ⟨rival, e, q, there, clash⟩ := ambiguity?_isSome_iff.1 ⟨a, brings⟩
          exact ⟨rival, p, e, q, at_, there, clash⟩
        · rintro ⟨rival, p, e, q, at_, there, clash⟩
          obtain ⟨a, brings⟩ := ambiguity?_isSome_iff.2 ⟨rival, e, q, there, clash⟩
          exact ⟨p, a, at_, brings⟩
      rw [List.mem_append, or_iff_right notOld, isNew, last, ← length, List.getElem?_concat_length,
        Option.some.injEq]
      cases policy : b.config.ambiguity with
      | warn => simp [brings]
      | deny =>
        -- nothing that settings which deny permit is recorded
        have nothing := permitted policy
        rw [nothing] at kept
        cases kept
        simp
    · have notNew : place ∉ new.map fun j => (b.definitions.length, j) := by
        intro mem
        obtain ⟨j, -, rfl⟩ := List.mem_map.1 mem
        exact Nat.lt_irrefl _ beyond
      have notOld : place ∉ places := fun mem => Nat.lt_asymm beyond (old mem)
      simp only [List.mem_append, notNew, notOld, or_self, false_iff, not_and, not_exists]
      exact fun _ rival rivals => Nat.lt_irrefl _ (Nat.lt_of_lt_of_le beyond rivals.le_length)
  · refine List.rel_append ?_ ?_
    · exact ((List.forall₂_and_left _ _).2 ⟨fun _ => old, tells⟩).imp fun place a tells => tells.2.append tells.1
    · refine List.forall₂_map_left_iff.2 (kept.imp fun j a => ?_)
      rintro ⟨p, at_, brings⟩
      exact tells_of_ambiguity? at_ brings

/-- What holds of a builder after calls, of which some registered definitions under these policies. -/
structure Kept (b : RegistryBuilder) (policies : List AmbiguityPolicy) : Prop where
  length : policies.length = b.definitions.length
  recorded : Recorded b.definitions policies b.ambiguities
  /-- settings that deny keep definitions distinct -/
  distinct : (∀ policy ∈ policies, policy = .deny) → Distinct b.definitions

/-- **Every call keeps the records right.** -/
theorem Kept.perform (kept : b.Kept policies) (call : Registration) :
    (call.perform b).2.Kept (policies ++ b.policy (call.perform b).1) := by
  cases ends : (call.perform b).1 with
  | error cause =>
    rw [Registration.perform_error ends, policy, List.append_nil]
    · exact kept
    · nofun
  | ok answer =>
    have adds := Registration.adds_of_perform ends
    clear ends
    generalize (call.perform b).2 = b' at adds
    cases adds with
    | type | converter | contextValue | settings =>
      rw [policy, List.append_nil]
      · exact ⟨kept.length, kept.recorded, kept.distinct⟩
      · nofun
    | @definition spec d makes permitted =>
      rw [flatMap_ambiguitiesOf] at permitted ⊢
      have refuses (policy : b.config.ambiguity = .deny) : d.patterns.filterMap (b.ambiguity? d) = [] :=
        (permit_deny policy).1 permitted
      rw [policy]
      refine ⟨by simp [kept.length], recorded_snoc kept.recorded kept.length refuses, fun always => ?_⟩
      have before := kept.distinct fun policy mem => always policy (List.mem_append_left _ mem)
      exact distinct_snoc before (refuses (always _ (List.mem_append_right _ List.mem_cons_self)))

theorem kept_after (config : Config) (calls : List Registration) :
    ((withConfig config).after calls).Kept ((withConfig config).policies calls) := by
  induction calls using List.reverseRecOn with
  | nil => exact ⟨rfl, ⟨[], .nil, fun place => by simp [policies], .nil⟩, fun _ => .nil⟩
  | append_singleton calls call ih =>
    rw [after_snoc, policies_snoc]
    exact ih.perform call

/-- Settings that deny hold as long as no others are made. -/
theorem deny_of_mem_policies {calls : List Registration} (deny : b.config.ambiguity = .deny)
    (always : ∀ config, .settings config ∈ calls → config.ambiguity = .deny) {policy : AmbiguityPolicy}
    (mem : policy ∈ b.policies calls) : policy = .deny := by
  induction calls generalizing b with
  | nil => cases mem
  | cons call rest ih =>
    rw [policies, List.mem_append] at mem
    rcases mem with mem | mem
    · unfold RegistryBuilder.policy at mem
      split at mem
      · rw [List.mem_singleton.1 mem, deny]
      · cases mem
    · refine ih ?_ (fun config later => always config (List.mem_cons_of_mem call later)) mem
      cases ends : (call.perform b).1 with
      | error => rwa [Registration.perform_error ends]
      | ok =>
        have adds := Registration.adds_of_perform ends
        generalize (call.perform b).2 = b' at adds
        cases adds with
        | type | converter | definition | contextValue => exact deny
        | @settings config => exact always config List.mem_cons_self

/-- **What holds of every builder that calls lead to.** A call that fails leaves it as it was. What a call that
succeeds adds stays where it is, whatever is called later. Under settings that always deny no two definitions
clash. And the ambiguities recorded are exactly those of the patterns that were registered under settings that warn
and clash with an earlier definition, each with the earliest pattern that it clashes with. -/
theorem builder_calls (config : Config) (calls : List Registration) :
    let b := (withConfig config).after calls
    (∀ call cause, (Registration.perform call b).1 = .error cause → (call.perform b).2 = b) ∧
    (∀ call answer, (Registration.perform call b).1 = .ok answer →
      call.Adds b answer (call.perform b).2 ∧ ∀ later, (call.perform b).2.KeptIn ((call.perform b).2.after later)) ∧
    (config.ambiguity = .deny → (∀ config', .settings config' ∈ calls → config'.ambiguity = .deny) →
      Distinct b.definitions) ∧
    ((withConfig config).policies calls).length = b.definitions.length ∧
    Recorded b.definitions ((withConfig config).policies calls) b.ambiguities := by
  intro b
  have kept := kept_after config calls
  refine ⟨fun call cause => Registration.perform_error, fun call answer ends => ?_, fun deny always => ?_,
    kept.length, kept.recorded⟩
  · exact ⟨Registration.adds_of_perform ends, keptIn_after _⟩
  · exact kept.distinct fun policy => deny_of_mem_policies deny always

/-- Calls of which one is refused: the second definition clashes with the first, and settings deny it. The last one
clashes under settings that warn. -/
def greetings : List Registration :=
  [.settings .strict, .definition { category := .effect, patterns := ["wave", "say hi"] },
    .definition { category := .effect, patterns := ["shout", "SAY  hi"] }, .settings {},
    .definition { category := .effect, patterns := ["bye", "Say hi "] }]

theorem builder_calls_greetings :
    Distinct ((withConfig .strict).after (greetings.take 3)).definitions ∧
      ((withConfig {}).after greetings).ambiguities =
        [{ category := .effect, pattern := "Say hi ", existing := "say hi", priority := 5 }] ∧
      Recorded ((withConfig {}).after greetings).definitions [.deny, .warn]
        ((withConfig {}).after greetings).ambiguities := by
  have strict := (builder_calls .strict (greetings.take 3)).2.2.1 rfl fun config mem => by
    simp only [greetings, List.take, List.mem_cons, Registration.settings.injEq, reduceCtorEq, List.not_mem_nil,
      or_false] at mem
    rw [mem]
    rfl
  have policies : (withConfig {}).policies greetings = [.deny, .warn] := by decide +kernel
  have recorded := (builder_calls {} greetings).2.2.2.2
  rw [policies] at recorded
  exact ⟨strict, by decide +kernel, recorded⟩

end RegistryBuilder

end Phrasebook
