import Std.Data.TreeMap

/-!
# Tables

A table keeps what was found out under keys. The entries lie in buckets by a number that stands for the
key; keys may share a number, and are told apart within their bucket.
-/

namespace Phrasebook

/-- What is known under keys, in buckets by the numbers of the keys. -/
structure Table {κ : Type} (number : κ → Nat) (β : Type) where
  buckets : Std.TreeMap Nat (List (κ × β)) := {}
deriving Inhabited

namespace Table

variable {κ β : Type} {number : κ → Nat} [DecidableEq κ]

/-- What is known under a key. -/
def get? (t : Table number β) (key : κ) : Option β :=
  (t.buckets.getD (number key) []).lookup key

/-- The table with an entry more, which hides an earlier one under the same key. -/
def insert (t : Table number β) (key : κ) (value : β) : Table number β :=
  ⟨t.buckets.insert (number key) ((key, value) :: t.buckets.getD (number key) [])⟩

@[simp] theorem get?_empty (key : κ) : (({} : Table number β)).get? key = none := by
  simp [get?]

@[simp] theorem get?_insert_self (t : Table number β) (key : κ) (value : β) :
    (t.insert key value).get? key = some value := by
  simp [get?, insert]

theorem get?_insert_of_ne (t : Table number β) {key other : κ} (value : β) (h : key ≠ other) :
    (t.insert key value).get? other = t.get? other := by
  simp only [get?, insert, Std.TreeMap.getD_insert]
  split
  next same =>
    have different : (other == key) = false := by simpa using Ne.symm h
    rw [List.lookup_cons, different, Nat.compare_eq_eq.1 same]
  · rfl

/-- What is known after an entry was added is the entry, or was known before. -/
theorem get?_insert (t : Table number β) (key other : κ) (value : β) :
    (t.insert key value).get? other = if key = other then some value else t.get? other := by
  split
  next same => rw [same, get?_insert_self]
  next different => exact t.get?_insert_of_ne value different

end Table

end Phrasebook
