import Phrasebook.Match.Search
import Phrasebook.Proofs.Match.SplitPoints

/-!
# A match advances

A way through a program never goes back in the line, and what it captures lies between the place at which it
stands and the end of the stretch that is matched.
-/

namespace Phrasebook.Match
open Text Pattern

namespace Task

variable {m : Type → Type} {ρ α : Type}

/-- An effect of an instruction leads no way back in the line, and to captures within the stretch. -/
def Advances (task : Task m ρ α) (t : Thread) : Effect ρ → Prop
  | .go next | .tag _ next => t.pos ≤ next.pos
  | .split next other => t.pos ≤ next.pos ∧ t.pos ≤ other.pos
  | .capture (.slot _ _ _ start ends) =>
    t.pos ≤ start ∧ ∀ stop, some stop ∈ ends → start < stop ∧ stop ≤ task.stop
  | .capture (.regex _ _ _ start ends) => t.pos ≤ start ∧ ∀ stop ∈ ends, start < stop
  | .capture (.resume _) | .fail .. | .stuck | .done => True

/-- Every instruction advances. -/
theorem advances_exec (task : Task m ρ α) (t : Thread) : task.Advances t (task.exec t) := by
  have ahead := task.region.le_skipBlanks t.pos
  unfold exec
  split
  case h_1 => trivial
  case h_2 text _ =>
    split
    case h_1 pos found => exact Nat.le_trans ahead (Line.le_of_matchFrom found)
    case h_2 => trivial
  case h_3 =>
    dsimp only
    split
    · exact Nat.le_refl _
    · trivial
  case h_4 =>
    split
    · exact ⟨Nat.le_refl _, Nat.le_refl _⟩
    · trivial
  case h_5 =>
    split
    · exact Nat.le_refl _
    · trivial
  case h_6 => exact Nat.le_refl _
  case h_7 => exact Nat.le_refl _
  case h_8 =>
    dsimp only
    split <;> trivial
  case h_9 =>
    split
    · trivial
    · dsimp only
      split
      · trivial
      · refine ⟨ahead, fun stop mem => ?_⟩
        rcases List.mem_append.1 mem with mem | mem
        · obtain ⟨_, mem, same⟩ := List.mem_map.1 mem
          cases same
          exact bounds_of_mem_splitPoints mem
        · split at mem
          · cases List.mem_singleton.1 mem
          · cases mem
  case h_10 =>
    split
    · trivial
    · dsimp only
      split
      · trivial
      · exact ⟨ahead, fun stop mem => (bounds_of_mem_splitPoints mem).1⟩

end Task

end Phrasebook.Match
