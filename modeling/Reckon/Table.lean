/-!
# Tables of names

A table binds names to entries; of two entries for a name the one in front counts. Its view is
`get?`: every operation is described by what it does to the lookups.
-/

namespace Reckon

/-- Names with their entries. -/
structure Table (α : Type) where
  /-- The bindings, those that count in front of those that they hide. -/
  entries : List (String × α)
deriving Repr

namespace Table

variable {α : Type}

/-- The table without names. -/
def empty : Table α := ⟨[]⟩

/-- The entry of a name. -/
def get? (t : Table α) (name : String) : Option α :=
  t.entries.lookup name

/-- Whether a name has an entry. -/
def contains (t : Table α) (name : String) : Bool :=
  (t.get? name).isSome

/-- The table without a name. -/
def erase (t : Table α) (name : String) : Table α :=
  ⟨t.entries.filter fun entry => name != entry.1⟩

/-- The table with a name bound anew. -/
def insert (t : Table α) (name : String) (entry : α) : Table α :=
  ⟨(name, entry) :: (t.erase name).entries⟩

/-- The table with all bindings of another one laid over its own. -/
def overlay (t top : Table α) : Table α :=
  ⟨top.entries ++ t.entries⟩

/-- The table with some names bound anew, one after the other. -/
def insertAll (t : Table α) (entries : List (String × α)) : Table α :=
  entries.foldl (fun t entry => t.insert entry.1 entry.2) t

/-- An empty table has no entries. -/
@[simp] theorem get?_empty (name : String) : (empty : Table α).get? name = none := rfl

/-- Erasing a name takes its entry and no other one. -/
theorem get?_erase (t : Table α) (name other : String) :
    (t.erase name).get? other = if other = name then none else t.get? other := by
  obtain ⟨entries⟩ := t
  simp only [get?, erase]
  induction entries with
  | nil => simp
  | cons entry entries ih =>
    obtain ⟨key, value⟩ := entry
    by_cases hk : name = key
    · subst hk
      rw [List.filter_cons_of_neg (by simp), ih]
      split
      · rfl
      · next h => rw [List.lookup_cons, beq_eq_false_iff_ne.2 h]
    · rw [List.filter_cons_of_pos (by simpa using hk), List.lookup_cons, List.lookup_cons, ih]
      by_cases ho : other = key
      · subst ho
        simp [Ne.symm hk]
      · simp [beq_eq_false_iff_ne.2 ho]

/-- Inserting an entry changes what is found under its name and under no other. -/
theorem get?_insert (t : Table α) (name other : String) (entry : α) :
    (t.insert name entry).get? other = if other = name then some entry else t.get? other := by
  have erased := get?_erase t name other
  simp only [get?, insert] at erased ⊢
  by_cases h : other = name
  · subst h
    simp
  · rw [List.lookup_cons, beq_eq_false_iff_ne.2 h, if_neg h]
    rw [if_neg h] at erased
    exact erased

/-- An inserted entry is found. -/
@[simp] theorem get?_insert_self (t : Table α) (name : String) (entry : α) :
    (t.insert name entry).get? name = some entry := by
  rw [get?_insert, if_pos rfl]

/-- An inserted entry hides none of another name. -/
theorem get?_insert_of_ne {t : Table α} {name other : String} {entry : α} (h : other ≠ name) :
    (t.insert name entry).get? other = t.get? other := by
  rw [get?_insert, if_neg h]

/-- A table laid over another one hides the entries that it has names for. -/
theorem get?_overlay (t top : Table α) (name : String) :
    (t.overlay top).get? name = (top.get? name).or (t.get? name) := by
  obtain ⟨entries⟩ := top
  simp only [get?, overlay]
  induction entries with
  | nil => rfl
  | cons entry entries ih =>
    rw [List.cons_append, List.lookup_cons, List.lookup_cons, ih]
    cases name == entry.1 <;> rfl

end Table

end Reckon
