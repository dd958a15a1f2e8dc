/-!
# Sorted maps

A map as the list of its entries in the order of their keys, each key once. Two maps with the
same entries are equal, so writing a map and reading it back gives the same map.

Main results:

* `SortedMap.get?_insert` — what a key stands for after an insertion.
* `SortedMap.ofList_entries` — a map is the map of its entries.
-/

namespace MaterialLowering

/-- The entries of a map in strictly increasing order of their keys. -/
structure SortedMap (κ : Type) (α : Type) [Ord κ] where
  entries : List (κ × α)
  sorted : entries.Pairwise fun a b => compare a.1 b.1 = .lt

namespace SortedMap

variable {κ α β : Type} [Ord κ]

instance [DecidableEq κ] [DecidableEq α] : DecidableEq (SortedMap κ α) := fun a b =>
  decidable_of_iff (a.entries = b.entries) (by cases a; cases b; simp)

/-- An entry put in its place; one with the same key gives way. -/
def insertEntry (key : κ) (value : α) : List (κ × α) → List (κ × α)
  | [] => [(key, value)]
  | (k, v) :: rest =>
    match compare key k with
    | .lt => (key, value) :: (k, v) :: rest
    | .eq => (key, value) :: rest
    | .gt => (k, v) :: insertEntry key value rest

theorem mem_insertEntry {key : κ} {value : α} {e : κ × α} {l : List (κ × α)}
    (h : e ∈ insertEntry key value l) : e = (key, value) ∨ e ∈ l := by
  induction l with
  | nil => simpa [insertEntry] using h
  | cons head rest ih =>
    unfold insertEntry at h
    grind

theorem pairwise_insertEntry [Std.TransOrd κ] {key : κ} {value : α} {l : List (κ × α)}
    (h : l.Pairwise fun a b => compare a.1 b.1 = .lt) :
    (insertEntry key value l).Pairwise fun a b => compare a.1 b.1 = .lt := by
  induction l with
  | nil => simp [insertEntry]
  | cons head rest ih =>
    obtain ⟨k, v⟩ := head
    have hk := List.pairwise_cons.1 h
    unfold insertEntry
    split
    · rename_i hlt
      refine List.pairwise_cons.2 ⟨fun e he => ?_, h⟩
      rcases List.mem_cons.1 he with rfl | he
      · exact hlt
      · exact Std.TransCmp.lt_trans hlt (hk.1 e he)
    · rename_i heq
      exact List.pairwise_cons.2
        ⟨fun e he => Std.TransCmp.lt_of_eq_of_lt heq (hk.1 e he), hk.2⟩
    · rename_i hgt
      refine List.pairwise_cons.2 ⟨fun e he => ?_, ih hk.2⟩
      rcases mem_insertEntry he with rfl | he
      · exact Std.OrientedCmp.lt_of_gt hgt
      · exact hk.1 e he

def empty : SortedMap κ α := ⟨[], .nil⟩

instance : Inhabited (SortedMap κ α) := ⟨empty⟩

/-- The map with `value` at `key`. -/
def insert [Std.TransOrd κ] (m : SortedMap κ α) (key : κ) (value : α) : SortedMap κ α :=
  ⟨insertEntry key value m.entries, pairwise_insertEntry m.sorted⟩

/-- The map of a list of entries, of which the last one for a key counts. -/
def ofList [Std.TransOrd κ] (entries : List (κ × α)) : SortedMap κ α :=
  entries.foldl (fun m (key, value) => m.insert key value) empty

/-- What a list of entries holds for a key. -/
def find? (key : κ) : List (κ × α) → Option α
  | [] => none
  | (k, v) :: rest => if compare key k = .eq then some v else find? key rest

/-- What the map holds for a key. -/
def get? (m : SortedMap κ α) (key : κ) : Option α := find? key m.entries

def contains (m : SortedMap κ α) (key : κ) : Bool := (m.get? key).isSome

def size (m : SortedMap κ α) : Nat := m.entries.length

def isEmpty (m : SortedMap κ α) : Bool := m.entries.isEmpty

def keys (m : SortedMap κ α) : List κ := m.entries.map Prod.fst

theorem find?_insertEntry [Std.TransOrd κ] (key : κ) (value : α) (other : κ) (l : List (κ × α)) :
    find? other (insertEntry key value l) =
      if compare other key = .eq then some value else find? other l := by
  induction l with
  | nil => rfl
  | cons head rest ih =>
    obtain ⟨k, v⟩ := head
    unfold insertEntry
    split
    · simp [find?]
    · rename_i heq
      by_cases h : compare other key = .eq
      · simp [find?, h]
      · have : compare other k ≠ .eq := fun hk =>
          h (Std.TransCmp.eq_trans hk (Std.OrientedCmp.eq_symm heq))
        simp [find?, h, this]
    · rename_i hgt
      by_cases h : compare other key = .eq
      · have : compare other k ≠ .eq := fun hk => by
          have := Std.TransCmp.eq_trans (Std.OrientedCmp.eq_symm h) hk
          rw [hgt] at this
          exact absurd this (by decide)
        simp [find?, h, this, ih]
      · simp [find?, h, ih]

theorem get?_insert [Std.TransOrd κ] (m : SortedMap κ α) (key : κ) (value : α) (other : κ) :
    (m.insert key value).get? other =
      if compare other key = .eq then some value else m.get? other :=
  find?_insertEntry key value other m.entries

theorem mem_of_mem_ofList [Std.TransOrd κ] {e : κ × α} {l : List (κ × α)}
    (h : e ∈ (ofList l).entries) : e ∈ l := by
  have all : ∀ m : SortedMap κ α,
      e ∈ (l.foldl (fun m e => m.insert e.1 e.2) m).entries → e ∈ m.entries ∨ e ∈ l := by
    clear h
    induction l with
    | nil => exact fun m h => .inl h
    | cons e' rest ih =>
      intro m h
      rcases ih _ h with h | h
      · rcases mem_insertEntry h with rfl | h
        · exact .inr List.mem_cons_self
        · exact .inl h
      · exact .inr (List.mem_cons_of_mem _ h)
  rcases all empty h with h | h
  · cases h
  · exact h

/-- The greatest key comes last. -/
theorem insertEntry_of_lt [Std.TransOrd κ] {key : κ} {value : α} {l : List (κ × α)}
    (h : ∀ e ∈ l, compare e.1 key = .lt) : insertEntry key value l = l ++ [(key, value)] := by
  induction l with
  | nil => rfl
  | cons head rest ih =>
    have above : compare key head.1 = .gt := Std.OrientedCmp.gt_of_lt (h head List.mem_cons_self)
    rw [insertEntry, above, ih fun e he => h e (List.mem_cons_of_mem _ he)]
    rfl

/-- A map is the map of its entries. -/
theorem ofList_entries [Std.TransOrd κ] (m : SortedMap κ α) : ofList m.entries = m := by
  have all : ∀ (l : List (κ × α)) (m : SortedMap κ α),
      (m.entries ++ l).Pairwise (fun a b => compare a.1 b.1 = .lt) →
        (l.foldl (fun m e => m.insert e.1 e.2) m).entries = m.entries ++ l := by
    intro l
    induction l with
    | nil => exact fun m _ => (List.append_nil _).symm
    | cons e rest ih =>
      intro m sorted
      have greatest : (m.insert e.1 e.2).entries = m.entries ++ [e] :=
        insertEntry_of_lt fun a ha => (List.pairwise_append.1 sorted).2.2 a ha e List.mem_cons_self
      rw [List.foldl_cons, ih _ (by simpa [greatest] using sorted), greatest, List.append_assoc,
        List.singleton_append]
  obtain ⟨entries, sorted⟩ := m
  have same : (ofList entries).entries = entries := all entries empty sorted
  generalize ofList entries = built at same
  subst same
  rfl

/-- The map with `f` of every value. -/
def map (f : α → β) (m : SortedMap κ α) : SortedMap κ β :=
  ⟨m.entries.map fun e => (e.1, f e.2), by simpa [List.pairwise_map] using m.sorted⟩

theorem map_eq_iff {f : α → α} {m : SortedMap κ α} :
    m.map f = m ↔ ∀ e ∈ m.entries, f e.2 = e.2 := by
  obtain ⟨entries, sorted⟩ := m
  have parts := List.map_inj_left (l := entries) (f := fun e => (e.1, f e.2)) (g := id)
  simpa [map, Prod.ext_iff] using parts

theorem get?_map (f : α → β) (m : SortedMap κ α) (key : κ) :
    (m.map f).get? key = (m.get? key).map f := by
  obtain ⟨entries, sorted⟩ := m
  show find? key (entries.map _) = (find? key entries).map f
  clear sorted
  induction entries with
  | nil => rfl
  | cons head rest ih =>
    rw [List.map_cons, find?, find?, ih]
    split <;> rfl

end SortedMap

end MaterialLowering
