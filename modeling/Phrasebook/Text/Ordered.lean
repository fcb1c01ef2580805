/-!
# Strings in order

Sets of strings as lists that ascend, by the code points of their characters, and hold nothing twice.
-/

namespace Phrasebook.Text

/-- Adds a string to an ascending list, unless it is there. -/
def insertInOrder (s : String) : List String → List String
  | [] => [s]
  | t :: rest =>
    if s < t then s :: t :: rest
    else if s == t then t :: rest
    else t :: insertInOrder s rest

/-- An ascending list with more strings in it. -/
def addInOrder (set : List String) (more : List String) : List String :=
  more.foldl (fun set s => insertInOrder s set) set

/-- The set gains the new text and no other. -/
theorem mem_insertInOrder {s t : String} {set : List String} :
    t ∈ insertInOrder s set ↔ t = s ∨ t ∈ set := by
  induction set with
  | nil => simp [insertInOrder]
  | cons u rest ih =>
    simp only [insertInOrder]
    split
    · simp
    · split
      · rename_i h
        simp [eq_of_beq h]
      · simp only [List.mem_cons, ih]
        exact or_left_comm

end Phrasebook.Text
