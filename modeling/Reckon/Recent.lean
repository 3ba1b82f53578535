/-!
# The store of recent entries

A store of bounded size keeps entries by key, the most recently used one in front. Finding an entry
moves it to the front; adding one to a full store drops the entry used least recently.
-/

namespace Reckon

/-- Keys with their entries, most recently used first. -/
structure Recent (α : Type) where
  /-- The greatest number of entries. -/
  capacity : Nat
  /-- The entries, the one used last in front. -/
  entries : List (String × α)
deriving Repr

namespace Recent

variable {α : Type}

/-- An empty store, with room for at least one entry. -/
def ofCapacity (capacity : Nat) : Recent α :=
  ⟨max 1 capacity, []⟩

/-- The entries other than the one of a key. -/
def others (r : Recent α) (key : String) : List (String × α) :=
  r.entries.filter fun entry => key != entry.1

/-- The entry of a key. -/
def get? (r : Recent α) (key : String) : Option α :=
  r.entries.lookup key

/-- The store after the entry of a key was used. -/
def touch (r : Recent α) (key : String) : Recent α :=
  match r.get? key with
  | some value => { r with entries := (key, value) :: r.others key }
  | none => r

/-- The store with an entry added in front. -/
def put (r : Recent α) (key : String) (value : α) : Recent α :=
  { r with entries := ((key, value) :: r.others key).take r.capacity }

/-- What the store finds is among its entries. -/
theorem mem_of_get? {r : Recent α} {key : String} {value : α} (h : r.get? key = some value) :
    (key, value) ∈ r.entries := by
  obtain ⟨front, back, shape, -⟩ := List.lookup_eq_some_iff.1 h
  rw [shape]
  exact List.mem_append_right front List.mem_cons_self

/-- Using an entry brings no other entry in. -/
theorem mem_touch {r : Recent α} {key : String} {entry : String × α}
    (h : entry ∈ (r.touch key).entries) : entry ∈ r.entries := by
  unfold touch at h
  split at h
  · next value found =>
    rcases List.mem_cons.1 h with rfl | h
    · exact mem_of_get? found
    · exact (List.mem_filter.1 h).1
  · exact h

/-- Putting an entry into the store leaves it with no more than it has room for. -/
theorem length_put_le (r : Recent α) (key : String) (value : α) :
    (r.put key value).entries.length ≤ r.capacity := by
  simp only [put, List.length_take]
  exact Nat.min_le_left _ _

/-- Apart from the key that was put in, an entry that is kept was there before. -/
theorem mem_put {r : Recent α} {key : String} {value : α} {entry : String × α}
    (h : entry ∈ (r.put key value).entries) : entry = (key, value) ∨ entry ∈ r.entries := by
  rcases List.mem_cons.1 (List.mem_of_mem_take h) with h | h
  · exact .inl h
  · exact .inr (List.mem_filter.1 h).1

end Recent

end Reckon
