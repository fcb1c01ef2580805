import Mathlib.Data.List.Shortlex
import Phrasebook.Types.Conversion

/-!
# The shortest chain of converters

The search for chains goes in rounds. After each round the types seen are those that some chain of so many
converters leads to, and the round has found the types that no shorter chain leads to, each by the first of the
chains that lead to it, in the order of these chains. So all that the search has found stands in the order of
its chains, shorter ones first, and the first type found that is assignable to a target has the least chain
that leads to the target.
-/

namespace Phrasebook
namespace Conversion

/-- One chain comes before another: it has fewer converters, or as many, and where they first differ its
converter was registered earlier. -/
abbrev Earlier (chain other : List Nat) : Prop :=
  List.Shortlex (· < ·) chain other

/-- One chain is another, or comes before it. -/
def NoLater (chain other : List Nat) : Prop :=
  chain = other ∨ Earlier chain other

theorem Earlier.trans {a b c : List Nat} (h : Earlier a b) (h' : Earlier b c) : Earlier a c := by
  rcases List.shortlex_def.1 h with less | ⟨same, lex⟩ <;>
    rcases List.shortlex_def.1 h' with less' | ⟨same', lex'⟩
  · exact .of_length_lt (less.trans less')
  · exact .of_length_lt (same' ▸ less)
  · exact .of_length_lt (same ▸ less')
  · exact .of_lex (same.trans same') (List.lex_trans Nat.lt_trans lex lex')

theorem NoLater.trans {a b c : List Nat} (h : NoLater a b) (h' : NoLater b c) : NoLater a c := by
  rcases h with rfl | h
  · exact h'
  rcases h' with rfl | h'
  · exact .inr h
  · exact .inr (h.trans h')

/-- Of two chains of one length the earlier one stays the earlier, whatever is put behind them. -/
theorem lex_append {a b : List Nat} (lex : List.Lex (· < ·) a b) (same : a.length = b.length)
    (us vs : List Nat) : List.Lex (· < ·) (a ++ us) (b ++ vs) := by
  induction lex with
  | nil => cases same
  | cons _ ih => exact .cons (ih (Nat.succ.inj same))
  | rel less => exact .rel less

/-- Of two chains the earlier one stays the earlier if one more converter is put behind each. -/
theorem Earlier.snoc {a b : List Nat} (h : Earlier a b) (i j : Nat) : Earlier (a ++ [i]) (b ++ [j]) := by
  rcases List.shortlex_def.1 h with less | ⟨same, lex⟩
  · exact .of_length_lt (by simpa using less)
  · exact .of_lex (by simpa using same) (lex_append lex same _ _)

theorem NoLater.snoc {a b : List Nat} (h : NoLater a b) (i : Nat) : NoLater (a ++ [i]) (b ++ [i]) := by
  rcases h with rfl | h
  · exact .inl rfl
  · exact .inr (h.snoc i i)

section Search

variable (assignable : TypeId → TypeId → Bool) (converters : List Converter)

/-- A chain of converters leads from one type to exactly another. -/
def Leads : TypeId → List Nat → TypeId → Prop
  | source, [], target => source = target
  | source, i :: rest, target =>
    ∃ c, converters[i]? = some c ∧ assignable source c.source = true ∧ Leads c.target rest target

/-- One more converter at the end of a chain. -/
theorem leads_snoc {source target : TypeId} {chain : List Nat} {i : Nat} :
    Leads assignable converters source (chain ++ [i]) target ↔
      ∃ between c, Leads assignable converters source chain between ∧ converters[i]? = some c ∧
        assignable between c.source = true ∧ c.target = target := by
  induction chain generalizing source with
  | nil => simp [Leads]
  | cons j rest ih =>
    simp only [List.cons_append, Leads, ih]
    constructor
    · rintro ⟨first, at_, fits, between, c, leads, last⟩
      exact ⟨between, c, ⟨first, at_, fits, leads⟩, last⟩
    · rintro ⟨between, c, ⟨first, at_, fits, leads⟩, last⟩
      exact ⟨first, at_, fits, between, c, leads, last⟩

/-- What one converter more leads to from a type that was reached, seen before or not. -/
def extensions (at_ : Reached) (numbered : List (Converter × Nat)) : List Reached :=
  (numbered.filter fun c => assignable at_.type c.1.source).map fun c => ⟨c.1.target, at_.chain ++ [c.2]⟩

/-- What one converter more leads to from any type of a round. -/
def extensionsOf (last : List Reached) : List Reached :=
  last.flatMap fun at_ => extensions assignable at_ converters.zipIdx

variable {assignable converters}

theorem mem_extensions {at_ found : Reached} :
    found ∈ extensions assignable at_ converters.zipIdx ↔
      ∃ c i, converters[i]? = some c ∧ assignable at_.type c.source = true ∧
        found = ⟨c.target, at_.chain ++ [i]⟩ := by
  simp only [extensions, List.mem_map, List.mem_filter, Prod.exists, List.mem_zipIdx_iff_getElem?]
  constructor
  · rintro ⟨c, i, ⟨at_, fits⟩, rfl⟩
    exact ⟨c, i, at_, fits, rfl⟩
  · rintro ⟨c, i, at_, fits, rfl⟩
    exact ⟨c, i, ⟨at_, fits⟩, rfl⟩

/-- The extensions of one chain stand in the order in which the converters were registered. -/
theorem pairwise_extensions (at_ : Reached) :
    (extensions assignable at_ converters.zipIdx).Pairwise fun r r' => Earlier r.chain r'.chain := by
  have ordered : (converters.zipIdx.map Prod.snd).Pairwise (· < ·) := by
    rw [List.zipIdx_map_snd]
    exact List.pairwise_lt_range' 1
  refine List.pairwise_map.2 (List.Pairwise.filter _ ((List.pairwise_map.1 ordered).imp fun less => ?_))
  exact List.Shortlex.append_left ((List.shortlex_singleton_iff _ _).2 less) _

/-- The extensions of a round stand in the order of their chains, if the types of the round do. -/
theorem pairwise_extensionsOf {last : List Reached}
    (ordered : last.Pairwise fun r r' => Earlier r.chain r'.chain) :
    (extensionsOf assignable converters last).Pairwise fun r r' => Earlier r.chain r'.chain := by
  refine List.pairwise_flatMap.2 ⟨fun r _ => pairwise_extensions r, ordered.imp fun less e memE e' memE' => ?_⟩
  obtain ⟨_, i, -, -, rfl⟩ := mem_extensions.1 memE
  obtain ⟨_, i', -, -, rfl⟩ := mem_extensions.1 memE'
  exact less.snoc i i'

/-- Of some types in the order of their chains those are kept that were not seen, each where it stands first. -/
structure Keeps (seen : List TypeId) (all kept : List Reached) : Prop where
  sublist : kept.Sublist all
  first : ∀ r ∈ all, r.type ∈ seen ∨ ∃ r' ∈ kept, r'.type = r.type ∧ NoLater r'.chain r.chain

/-- From one type the first extension to each type is kept that was not seen. -/
theorem keeps_stepFrom (at_ : Reached) {numbered : List (Converter × Nat)} (seen : List TypeId)
    (ordered : (extensions assignable at_ numbered).Pairwise fun r r' => Earlier r.chain r'.chain) :
    Keeps seen (extensions assignable at_ numbered) (stepFrom assignable at_ numbered seen) := by
  induction numbered generalizing seen with
  | nil => exact ⟨.refl _, List.forall_mem_nil _⟩
  | cons head rest ih =>
    obtain ⟨c, i⟩ := head
    cases fits : assignable at_.type c.source with
    | false =>
      have same : extensions assignable at_ ((c, i) :: rest) = extensions assignable at_ rest := by
        simp [extensions, fits]
      simp only [stepFrom, fits, Bool.false_and, Bool.false_eq_true, if_false, same] at ordered ⊢
      exact ih seen ordered
    | true =>
      have more : extensions assignable at_ ((c, i) :: rest) =
          ⟨c.target, at_.chain ++ [i]⟩ :: extensions assignable at_ rest := by
        simp [extensions, fits]
      rw [more, List.pairwise_cons] at ordered
      simp only [stepFrom, fits, Bool.true_and, more, List.contains_eq_mem, Bool.not_eq_true',
        decide_eq_false_iff_not]
      split
      next new =>
        have later := ih (c.target :: seen) ordered.2
        refine ⟨later.sublist.cons_cons _, fun r mem => ?_⟩
        rcases List.mem_cons.1 mem with rfl | mem
        · exact .inr ⟨_, List.mem_cons_self, rfl, .inl rfl⟩
        · rcases later.first r mem with known | ⟨r', mem', found⟩
          · rcases List.mem_cons.1 known with type | known
            · exact .inr ⟨_, List.mem_cons_self, type.symm, .inr (ordered.1 r mem)⟩
            · exact .inl known
          · exact .inr ⟨r', List.mem_cons_of_mem _ mem', found⟩
      next old =>
        have later := ih seen ordered.2
        refine ⟨later.sublist.cons _, fun r mem => ?_⟩
        rcases List.mem_cons.1 mem with rfl | mem
        · exact .inl (Decidable.not_not.1 old)
        · exact later.first r mem

/-- From a whole round the first extension to each type is kept that was not seen. -/
theorem keeps_nextRound {last : List Reached} (seen : List TypeId)
    (ordered : (extensionsOf assignable converters last).Pairwise fun r r' => Earlier r.chain r'.chain) :
    Keeps seen (extensionsOf assignable converters last)
      (nextRound assignable converters.zipIdx last seen) := by
  induction last generalizing seen with
  | nil => exact ⟨.refl _, List.forall_mem_nil _⟩
  | cons at_ rest ih =>
    obtain ⟨orderedHere, orderedRest, before⟩ := List.pairwise_append.1 ordered
    have here := keeps_stepFrom at_ seen orderedHere
    have later := ih ((stepFrom assignable at_ converters.zipIdx seen).map Reached.type ++ seen) orderedRest
    refine ⟨here.sublist.append later.sublist, fun r mem => ?_⟩
    rcases List.mem_append.1 mem with mem | mem
    · rcases here.first r mem with known | ⟨r', mem', found⟩
      · exact .inl known
      · exact .inr ⟨r', List.mem_append_left _ mem', found⟩
    · rcases later.first r mem with known | ⟨r', mem', found⟩
      · rcases List.mem_append.1 known with new | known
        · obtain ⟨r', mem', type⟩ := List.mem_map.1 new
          exact .inr ⟨r', List.mem_append_left _ mem', type, .inr (before r' (here.sublist.subset mem') r mem)⟩
        · exact .inl known
      · exact .inr ⟨r', List.mem_append_right _ mem', found⟩

variable (assignable converters)

/-- A type that a chain leads to is also led to by one of less than so many converters, or was found with a
chain that is no later. -/
def Covered (source : TypeId) (bound : Nat) (found : List Reached) (chain : List Nat) (type : TypeId) : Prop :=
  (∃ shorter, Leads assignable converters source shorter type ∧ shorter.length < bound) ∨
    ∃ r ∈ found, r.type = type ∧ NoLater r.chain chain

/-- What is known of the search from a type after `n` rounds: the types that the last round has found, and
those seen so far. -/
structure AfterRounds (source : TypeId) (n : Nat) (last : List Reached) (seen : List TypeId) : Prop where
  leads : ∀ r ∈ last, Leads assignable converters source r.chain r.type
  length : ∀ r ∈ last, r.chain.length = n
  ordered : last.Pairwise fun r r' => Earlier r.chain r'.chain
  first : ∀ chain type, Leads assignable converters source chain type → chain.length = n →
    Covered assignable converters source n last chain type
  seen : ∀ type, type ∈ seen ↔ ∃ chain, Leads assignable converters source chain type ∧ chain.length ≤ n

/-- What the rounds after round `lower` find up to round `upper`: to each type that none of the rounds before
has found a longer chain, and the first there is. -/
structure Finds (source : TypeId) (lower upper : Nat) (found : List Reached) : Prop where
  leads : ∀ r ∈ found, Leads assignable converters source r.chain r.type
  length : ∀ r ∈ found, lower < r.chain.length ∧ r.chain.length ≤ upper
  ordered : found.Pairwise fun r r' => Earlier r.chain r'.chain
  first : ∀ chain type, Leads assignable converters source chain type → chain.length ≤ upper →
    Covered assignable converters source (lower + 1) found chain type

variable {assignable converters} {source : TypeId} {n : Nat} {last : List Reached} {seen : List TypeId}

theorem Covered.of_noLater {bound : Nat} {found : List Reached} {chain chain' : List Nat} {type : TypeId}
    (covered : Covered assignable converters source bound found chain type) (le : NoLater chain chain') :
    Covered assignable converters source bound found chain' type :=
  covered.imp_right fun ⟨r, mem, type, le'⟩ => ⟨r, mem, type, le'.trans le⟩

theorem Covered.subset {bound : Nat} {found found' : List Reached} {chain : List Nat} {type : TypeId}
    (covered : Covered assignable converters source bound found chain type) (subset : found ⊆ found') :
    Covered assignable converters source bound found' chain type :=
  covered.imp_right fun ⟨r, mem, le⟩ => ⟨r, subset mem, le⟩

/-- Before the first round only the type itself was seen. -/
theorem afterRounds_zero : AfterRounds assignable converters source 0 [⟨source, []⟩] [source] where
  leads r mem := by rw [List.mem_singleton.1 mem]; rfl
  length r mem := by rw [List.mem_singleton.1 mem]; rfl
  ordered := List.pairwise_singleton ..
  first chain type leads none := by
    obtain rfl := List.length_eq_zero_iff.1 none
    exact .inr ⟨_, List.mem_singleton_self _, leads, .inl rfl⟩
  seen type := by
    simp only [List.mem_singleton, Nat.le_zero, List.length_eq_zero_iff]
    constructor
    · rintro rfl
      exact ⟨[], rfl, rfl⟩
    · rintro ⟨_, leads, rfl⟩
      exact leads.symm

/-- A chain with one converter more leads to a type that some shorter chain leads to, or to one that the next
round finds, by a chain that is no later. -/
theorem AfterRounds.first_next (known : AfterRounds assignable converters source n last seen)
    (keeps : Keeps seen (extensionsOf assignable converters last)
      (nextRound assignable converters.zipIdx last seen))
    {chain : List Nat} {type : TypeId} (leads : Leads assignable converters source chain type)
    (length : chain.length = n + 1) :
    Covered assignable converters source (n + 1) (nextRound assignable converters.zipIdx last seen) chain
      type := by
  rcases List.eq_nil_or_concat' chain with rfl | ⟨rest, i, rfl⟩
  · cases length
  obtain ⟨between, c, leadsRest, at_i, fits, rfl⟩ := (leads_snoc ..).1 leads
  have lengthRest : rest.length = n := by simpa using length
  -- the type before the last converter has a shorter chain, or was found in the last round
  rcases known.first rest between leadsRest lengthRest with ⟨shorter, leads', less⟩ | ⟨at_, memAt, rfl, le⟩
  · exact .inl ⟨shorter ++ [i], (leads_snoc ..).2 ⟨_, c, leads', at_i, fits, rfl⟩, by simpa using less⟩
  · have mem : (⟨c.target, at_.chain ++ [i]⟩ : Reached) ∈ extensionsOf assignable converters last :=
      List.mem_flatMap.2 ⟨at_, memAt, mem_extensions.2 ⟨c, i, at_i, fits, rfl⟩⟩
    rcases keeps.first _ mem with before | ⟨r, mem, type, le'⟩
    · obtain ⟨shorter, leads', le'⟩ := (known.seen _).1 before
      exact .inl ⟨shorter, leads', Nat.lt_succ_of_le le'⟩
    · exact .inr ⟨r, mem, type, le'.trans (le.snoc i)⟩

/-- One round keeps what is known. -/
theorem AfterRounds.next (known : AfterRounds assignable converters source n last seen) :
    AfterRounds assignable converters source (n + 1) (nextRound assignable converters.zipIdx last seen)
      ((nextRound assignable converters.zipIdx last seen).map Reached.type ++ seen) := by
  have ordered : (extensionsOf assignable converters last).Pairwise fun r r' => Earlier r.chain r'.chain :=
    pairwise_extensionsOf known.ordered
  have keeps := keeps_nextRound seen ordered
  have extended : ∀ r ∈ nextRound assignable converters.zipIdx last seen,
      Leads assignable converters source r.chain r.type ∧ r.chain.length = n + 1 := by
    intro r mem
    obtain ⟨at_, memAt, memR⟩ := List.mem_flatMap.1 (keeps.sublist.subset mem)
    obtain ⟨c, i, at_i, fits, rfl⟩ := mem_extensions.1 memR
    exact ⟨(leads_snoc ..).2 ⟨_, c, known.leads at_ memAt, at_i, fits, rfl⟩, by simp [known.length at_ memAt]⟩
  refine ⟨fun r mem => (extended r mem).1, fun r mem => (extended r mem).2, ordered.sublist keeps.sublist,
    fun _ _ => known.first_next keeps, fun type => ?_⟩
  rw [List.mem_append, List.mem_map]
  constructor
  · rintro (⟨r, mem, rfl⟩ | before)
    · exact ⟨r.chain, (extended r mem).1, Nat.le_of_eq (extended r mem).2⟩
    · obtain ⟨chain, leads, le⟩ := (known.seen type).1 before
      exact ⟨chain, leads, Nat.le_succ_of_le le⟩
  · rintro ⟨chain, leads, le⟩
    rcases Nat.le_succ_iff.1 le with le | length
    · exact .inr ((known.seen type).2 ⟨chain, leads, le⟩)
    · rcases known.first_next keeps leads length with ⟨shorter, leads', less⟩ | ⟨r, mem, type, -⟩
      · exact .inr ((known.seen type).2 ⟨shorter, leads', Nat.le_of_lt_succ less⟩)
      · exact .inl ⟨r, mem, type⟩

/-- A round that finds nothing ends the search, and no later round would find anything. -/
theorem rounds_succ (numbered : List (Converter × Nat)) (k : Nat) (last : List Reached) (seen : List TypeId) :
    rounds assignable numbered (k + 1) last seen =
      nextRound assignable numbered last seen ++
        rounds assignable numbered k (nextRound assignable numbered last seen)
          ((nextRound assignable numbered last seen).map Reached.type ++ seen) := by
  have nothing : ∀ k seen, rounds assignable numbered k [] seen = [] := by
    intro k seen
    cases k <;> rfl
  rw [rounds]
  split
  next none => rw [none, nothing, List.append_nil]
  next => rfl

/-- All rounds that come after some round. -/
theorem AfterRounds.finds (known : AfterRounds assignable converters source n last seen) (k : Nat) :
    Finds assignable converters source n (n + k) (rounds assignable converters.zipIdx k last seen) := by
  induction k generalizing n last seen with
  | zero =>
    have none : rounds assignable converters.zipIdx 0 last seen = [] := rfl
    rw [none]
    exact ⟨List.forall_mem_nil _, List.forall_mem_nil _, .nil, fun chain _ leads le => .inl ⟨chain, leads, Nat.lt_succ_of_le le⟩⟩
  | succ k ih =>
    have next := known.next
    have later := ih next
    rw [Nat.add_right_comm, Nat.add_assoc] at later
    rw [rounds_succ]
    refine ⟨List.forall_mem_append.2 ⟨next.leads, later.leads⟩, List.forall_mem_append.2 ⟨?_, ?_⟩,
      List.pairwise_append.2 ⟨next.ordered, later.ordered, fun r mem r' mem' => ?_⟩, ?_⟩
    · intro r mem
      have := next.length r mem
      omega
    · intro r mem
      have := later.length r mem
      omega
    · exact .of_length_lt (next.length r mem ▸ (later.length r' mem').1)
    · intro chain type leads le
      have nextFirst {chain' : List Nat} (leads' : Leads assignable converters source chain' type)
          (le' : chain'.length ≤ n + 1) (before : NoLater chain' chain) :
          Covered assignable converters source (n + 1) (nextRound assignable converters.zipIdx last seen) chain
            type := by
        rcases Nat.le_succ_iff.1 le' with le' | length
        · exact .inl ⟨chain', leads', Nat.lt_succ_of_le le'⟩
        · exact (next.first chain' type leads' length).of_noLater before
      rcases Nat.lt_or_ge (n + 1) chain.length with longer | short
      · rcases later.first chain type leads le with ⟨shorter, leads', less⟩ | found
        · have le' := Nat.le_of_lt_succ less
          have before : NoLater shorter chain := .inr (.of_length_lt (Nat.lt_of_le_of_lt le' longer))
          exact (nextFirst leads' le' before).subset (List.subset_append_left ..)
        · exact Covered.subset (.inr found) (List.subset_append_right ..)
      · exact (nextFirst leads short (.inl rfl)).subset (List.subset_append_left ..)

end Search

/-- The types that are found from a type stand in the order of their chains, and to each type that a chain
within the limit leads to the first of these chains was found. -/
theorem finds_reachable (assignable : TypeId → TypeId → Bool) (converters : List Converter) (limit : Nat)
    (source : TypeId) :
    Finds assignable converters source 0 limit (reachable assignable converters limit source) := by
  have start : AfterRounds assignable converters source 0 [⟨source, []⟩] [source] := afterRounds_zero
  have finds := start.finds limit
  rwa [Nat.zero_add] at finds

end Conversion

namespace TypeSystem
open Conversion

variable (s : TypeSystem)

/-- Converters in their order turn values of a type into values of one that is assignable to the target: each
takes a type that the one before it, at first the type itself, is assignable to. -/
def IsChain (target : TypeId) : TypeId → List Nat → Prop
  | source, [] => s.table.isAssignable source target = true
  | source, i :: rest =>
    ∃ c, s.converters[i]? = some c ∧ s.table.isAssignable source c.source = true ∧ IsChain target c.target rest

/-- The first chain from one type to another, among those that are within the limit. -/
structure IsLeastChain (source target : TypeId) (chain : List Nat) : Prop where
  isChain : s.IsChain target source chain
  bounded : chain.length ≤ s.maxConversionDepth
  least : ∀ other, s.IsChain target source other → other = chain ∨ Earlier chain other

/-- A chain leads to exactly one type, and that one is assignable to the target. -/
theorem isChain_iff_leads {source target : TypeId} {chain : List Nat} :
    s.IsChain target source chain ↔
      ∃ last, Leads s.table.isAssignable s.converters source chain last ∧
        s.table.isAssignable last target = true := by
  induction chain generalizing source with
  | nil => simp [IsChain, Leads]
  | cons i rest ih =>
    simp only [IsChain, Leads, ih]
    constructor
    · rintro ⟨c, at_i, fits, last, leads, ends⟩
      exact ⟨last, ⟨c, at_i, fits, leads⟩, ends⟩
    · rintro ⟨last, ⟨c, at_i, fits, leads⟩, ends⟩
      exact ⟨c, at_i, fits, last, leads, ends⟩

variable {s}

/-- The converters of a chain, in their order. -/
theorem IsChain.steps {source target : TypeId} {chain : List Nat} (isChain : s.IsChain target source chain) :
    ∃ steps : List Converter, chain.map (s.converters[·]?) = steps.map some := by
  induction chain generalizing source with
  | nil => exact ⟨[], rfl⟩
  | cons i rest ih =>
    obtain ⟨c, at_i, -, isChain⟩ := isChain
    obtain ⟨steps, same⟩ := ih isChain
    exact ⟨c :: steps, by rw [List.map_cons, at_i, same, List.map_cons]⟩

/-- Where the converters of a chain lead to. -/
theorem pathTypes_of_steps {chain : List Nat} {steps : List Converter}
    (same : chain.map (s.converters[·]?) = steps.map some) : s.pathTypes chain = steps.map Converter.target := by
  have : s.pathTypes chain = (chain.map (s.converters[·]?)).filterMap (Option.map Converter.target) := by
    rw [List.filterMap_map]
    rfl
  rw [this, same, List.filterMap_map]
  exact congrFun List.filterMap_eq_map' steps

/-- The converters of a chain are applied one after another. -/
theorem applyChain_of_steps {chain : List Nat} {steps : List Converter}
    (same : chain.map (s.converters[·]?) = steps.map some) (v : Value) :
    s.applyChain chain v = steps.foldlM (fun v c => c.convert v) v := by
  induction chain generalizing steps v with
  | nil =>
    obtain rfl := List.map_eq_nil_iff.1 same.symm
    rfl
  | cons i rest ih =>
    obtain ⟨c, steps, rfl, at_i, same⟩ := List.map_eq_cons_iff.1 same.symm
    have at_i : s.converters[i]? = some c := at_i.symm
    rw [applyChain, at_i, List.foldlM_cons]
    exact congrArg (Option.bind (c.convert v)) (funext fun v => ih same.symm v)

end TypeSystem

namespace TypeBuilder
open Conversion TypeSystem

variable (b : TypeBuilder) {source target : TypeId}

/-- What is looked up between registered types, neither of which may stand for the other without a chain. -/
theorem path?_build (known : source < b.table.entries.size) (known' : target < b.table.entries.size)
    (apart : b.table.isAssignable source target = false) :
    b.build.path? source target =
      ((reachable b.table.isAssignable b.converters b.maxConversionDepth source).find? fun r =>
        b.table.isAssignable r.type target).map Reached.chain := by
  have at_source : b.build.reached[source]? =
      some (reachable b.table.isAssignable b.converters b.maxConversionDepth source) := by
    simp [build, known]
  have same : b.build.table = b.table := rfl
  have registered : ¬ b.table.entries.size ≤ target := Nat.not_le.2 known'
  simp only [path?, same, apart, registered, at_source, Bool.false_or, decide_false, Bool.false_eq_true, if_false]

/-- The chain that is looked up is the first there is. -/
theorem isLeastChain_of_path? (known : source < b.table.entries.size) (known' : target < b.table.entries.size)
    (apart : b.table.isAssignable source target = false) {chain : List Nat}
    (path : b.build.path? source target = some chain) : b.build.IsLeastChain source target chain := by
  have finds := finds_reachable b.table.isAssignable b.converters b.maxConversionDepth source
  rw [b.path?_build known known' apart, Option.map_eq_some_iff] at path
  obtain ⟨r, hit, rfl⟩ := path
  obtain ⟨ends, before, after, split, misses⟩ := List.find?_eq_some_iff_append.1 hit
  have mem : r ∈ reachable b.table.isAssignable b.converters b.maxConversionDepth source := by simp [split]
  refine ⟨(isChain_iff_leads _).2 ⟨r.type, finds.leads r mem, ends⟩, (finds.length r mem).2, ?_⟩
  intro other isChain
  rcases Nat.lt_or_ge b.maxConversionDepth other.length with longer | short
  · exact .inr (.of_length_lt (Nat.lt_of_le_of_lt (finds.length r mem).2 longer))
  obtain ⟨last, leads, ends'⟩ := (isChain_iff_leads _).1 isChain
  rcases finds.first other last leads short with ⟨none, leads', empty⟩ | ⟨r', mem', rfl, le⟩
  · -- the type itself does not do for the target
    obtain rfl := List.length_eq_zero_iff.1 (Nat.lt_one_iff.1 empty)
    rw [← show source = last from leads', show b.build.table = b.table from rfl, apart] at ends'
    cases ends'
  · -- what was found before the hit is not assignable to the target
    have ordered := finds.ordered
    rw [split] at mem' ordered
    have first : NoLater r.chain r'.chain := by
      rcases List.mem_append.1 mem' with mem' | mem'
      · have misses : b.table.isAssignable r'.type target = false := by simpa using misses r' mem'
        cases misses.symm.trans ends'
      · rcases List.mem_cons.1 mem' with rfl | mem'
        · exact .inl rfl
        · exact .inr ((List.pairwise_cons.1 (List.pairwise_append.1 ordered).2.1).1 r' mem')
    exact (first.trans le).imp_left Eq.symm

/-- A chain is looked up if there is one within the limit. -/
theorem isSome_path?_iff (known : source < b.table.entries.size) (known' : target < b.table.entries.size)
    (apart : b.table.isAssignable source target = false) :
    (b.build.path? source target).isSome = true ↔
      ∃ chain, b.build.IsChain target source chain ∧ chain.length ≤ b.maxConversionDepth := by
  constructor
  · intro found
    obtain ⟨chain, path⟩ := Option.isSome_iff_exists.1 found
    have least := b.isLeastChain_of_path? known known' apart path
    exact ⟨chain, least.isChain, least.bounded⟩
  · rintro ⟨chain, isChain, bounded⟩
    obtain ⟨last, leads, ends⟩ := (isChain_iff_leads _).1 isChain
    rw [b.path?_build known known' apart, Option.isSome_map, List.find?_isSome]
    have finds := finds_reachable b.table.isAssignable b.converters b.maxConversionDepth source
    rcases finds.first chain last leads bounded with ⟨none, leads', empty⟩ | ⟨r, mem, rfl, -⟩
    · obtain rfl := List.length_eq_zero_iff.1 (Nat.lt_one_iff.1 empty)
      rw [← show source = last from leads', show b.build.table = b.table from rfl, apart] at ends
      cases ends
    · exact ⟨r, mem, ends⟩

/-- However types and converters were registered, and whatever the limit: a type is converted to one that it is
not assignable to by the first chain of converters that leads there, the shortest and among those the one whose
converters were registered earliest. It is looked up if there is a chain within the limit at all. Its steps are
the targets of its converters, and a value is converted by applying them in their order. Where there is no chain,
or a converter has nothing for the value, there is no conversion. -/
theorem build_converts (known : source < b.table.entries.size) (known' : target < b.table.entries.size)
    (apart : b.build.table.isAssignable source target = false) :
    ((b.build.path? source target).isSome = true ↔
        ∃ chain, b.build.IsChain target source chain ∧ chain.length ≤ b.maxConversionDepth) ∧
      (∀ chain, b.build.path? source target = some chain →
        b.build.IsLeastChain source target chain ∧
        ∃ steps : List Converter, chain.map (b.converters[·]?) = steps.map some ∧
          b.build.pathTypes chain = steps.map Converter.target ∧
          ∀ v w, b.build.convert v source target = .ok w ↔ steps.foldlM (fun v c => c.convert v) v = some w) ∧
      ∀ v, (∃ chain w, b.build.path? source target = some chain ∧ b.build.convert v source target = .ok w) ∨
        b.build.convert v source target = .error (.noConversion (b.table.name source) (b.table.name target)) := by
  refine ⟨b.isSome_path?_iff known known' apart, fun chain path => ?_, fun v => ?_⟩
  · have least := b.isLeastChain_of_path? known known' apart path
    obtain ⟨steps, same⟩ := least.isChain.steps
    refine ⟨least, steps, same, pathTypes_of_steps same, fun v w => ?_⟩
    simp only [convert, apart, path, Option.bind_some, applyChain_of_steps same, Bool.false_eq_true, if_false]
    cases steps.foldlM (fun v c => c.convert v) v <;> simp
  · simp only [convert, apart, Bool.false_eq_true, if_false]
    split
    next w applied =>
      obtain ⟨chain, path, -⟩ := Option.bind_eq_some_iff.1 applied
      exact .inl ⟨chain, w, path, rfl⟩
    next => exact .inr rfl

/-- Numbers, digits, which are numbers, letters and words. Some letters stand for a digit and every one for a
number, numbers are spelled out, and words begin with a letter. -/
def spelling : TypeBuilder where
  table := {
    entries := #[
      ⟨{ name := "number", plural := "numbers" }, none⟩,
      ⟨{ name := "digit", plural := "digits" }, some 0⟩,
      ⟨{ name := "letter", plural := "letters" }, none⟩,
      ⟨{ name := "word", plural := "words" }, none⟩] }
  converters := [
    ⟨2, 1, fun v => if v.string? == some "a" then some (.string "1") else none⟩,
    ⟨2, 0, fun _ => some (.string "2")⟩,
    ⟨0, 3, fun v => if v.string? == some "1" then some (.string "one") else some (.string "two")⟩,
    ⟨3, 2, fun _ => some (.string "a")⟩]

/-- A letter becomes a word as the digit that it stands for. That it also stands for a number was registered
later, and does not help a letter that stands for no digit. -/
theorem build_converts_spelling :
    spelling.build.IsLeastChain 2 3 [0, 2] ∧ spelling.build.convert (.string "a") 2 3 = .ok (.string "one") ∧
      spelling.build.convert (.string "b") 2 3 = .error (.noConversion "letter" "word") := by
  have apart : spelling.build.table.isAssignable 2 3 = false := by decide +kernel
  obtain ⟨-, looked, otherwise⟩ := spelling.build_converts (by decide) (by decide) apart
  obtain ⟨least, steps, same, -, converts⟩ := looked [0, 2] (by decide +kernel)
  obtain ⟨first, _, rfl, at_0, same⟩ := List.map_eq_cons_iff.1 same.symm
  obtain ⟨second, _, rfl, at_2, same⟩ := List.map_eq_cons_iff.1 same
  obtain rfl := List.map_eq_nil_iff.1 same
  obtain rfl := Option.some.inj at_0
  obtain rfl := Option.some.inj at_2
  refine ⟨least, (converts ..).2 rfl, (otherwise (.string "b")).resolve_left ?_⟩
  rintro ⟨chain, w, path, applied⟩
  cases (converts ..).1 applied

end TypeBuilder

end Phrasebook
