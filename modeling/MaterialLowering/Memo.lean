/-!
# Memo tables

A table of values found so far. It holds one value for a key.

Main results:

* `Memo.get?_put` — what a key stands for after a value was put.
-/

namespace MaterialLowering

/-- Keys with their values, the latest first. -/
structure Memo (κ : Type) (α : Type) where
  entries : List (κ × α)
  deriving DecidableEq

namespace Memo

variable {κ α : Type} [DecidableEq κ]

def empty : Memo κ α := ⟨[]⟩

instance : Inhabited (Memo κ α) := ⟨empty⟩

/-- What a list of entries holds for a key. -/
def find? (key : κ) : List (κ × α) → Option α
  | [] => none
  | (k, v) :: rest => if k = key then some v else find? key rest

/-- The value of a key. -/
def get? (m : Memo κ α) (key : κ) : Option α := find? key m.entries

/-- The table with `value` for `key`; an older value is dropped. -/
def put (m : Memo κ α) (key : κ) (value : α) : Memo κ α :=
  ⟨(key, value) :: m.entries.filter (·.1 ≠ key)⟩

def size (m : Memo κ α) : Nat := m.entries.length

def isEmpty (m : Memo κ α) : Bool := m.entries.isEmpty

theorem find?_filter {key other : κ} (h : other ≠ key) (l : List (κ × α)) :
    find? other (l.filter (·.1 ≠ key)) = find? other l := by
  induction l with
  | nil => rfl
  | cons head rest ih =>
    obtain ⟨k, v⟩ := head
    by_cases hk : k = key
    · subst hk
      simpa [find?, Ne.symm h] using ih
    · by_cases ho : k = other
      · simp [find?, ho, h]
      · simpa [find?, ho, hk] using ih

theorem get?_put (m : Memo κ α) (key : κ) (value : α) (other : κ) :
    (m.put key value).get? other = if key = other then some value else m.get? other := by
  by_cases h : key = other
  · simp [put, get?, find?, h]
  · simpa [put, get?, find?, h] using find?_filter (Ne.symm h) m.entries

end Memo

end MaterialLowering
