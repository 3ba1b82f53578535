import Reckon.Matrix.Grid

/-!
# Row operations

Scaling a row and adding a multiple of a row go through the columns from the left and stop at the
first one that has no room for its result. They answer with the grid as it then is, the columns
before that one changed and the others not, and with the fault if there was one.
-/

namespace Reckon

/-- Changes the items of a list from the front until one cannot be changed. -/
def changeInTurn {α ε : Type} (f : α → Except ε α) : List α → List α × Option ε
  | [] => ([], none)
  | x :: xs =>
    match f x with
    | .error fault => (x :: xs, some fault)
    | .ok y =>
      let changed := changeInTurn f xs
      (y :: changed.1, changed.2)

/-- A change in turn keeps the number of items. -/
theorem length_changeInTurn {α ε : Type} (f : α → Except ε α) (xs : List α) :
    (changeInTurn f xs).1.length = xs.length := by
  induction xs with
  | nil => rfl
  | cons x xs ih =>
    unfold changeInTurn
    split
    · rfl
    · simp only [List.length_cons, ih]

/-- A change in turn that succeeds on every item goes through all of them. -/
theorem changeInTurn_of_ok {α ε : Type} {f : α → Except ε α} {F : α → α} {xs : List α}
    (h : ∀ x ∈ xs, f x = .ok (F x)) : changeInTurn f xs = (xs.map F, none) := by
  induction xs with
  | nil => rfl
  | cons x xs ih =>
    have others := ih fun y mem => h y (List.mem_cons_of_mem x mem)
    rw [changeInTurn, h x List.mem_cons_self, others]
    rfl

namespace Grid

variable {rows cols : Nat}

/-- Changes the columns from the left until one cannot be changed. -/
def changeColumns (f : Vector Value rows → Except Fault (Vector Value rows))
    (g : Grid rows cols) : Grid rows cols × Option Fault :=
  let changed := changeInTurn f g.columns.toList
  (⟨⟨changed.1.toArray, by
    rw [List.size_toArray, length_changeInTurn, Vector.length_toList]⟩⟩, changed.2)

/-- Where every column can be changed, going through them in turn changes each of them. -/
theorem changeColumns_of_ok {f : Vector Value rows → Except Fault (Vector Value rows)}
    {F : Vector Value rows → Vector Value rows} {g : Grid rows cols}
    (h : ∀ column ∈ g.columns.toList, f column = .ok (F column)) :
    g.changeColumns f = (⟨g.columns.map F⟩, none) := by
  simp only [changeColumns, changeInTurn_of_ok h, Prod.mk.injEq, and_true]
  congr 1
  apply Vector.ext
  intro b inside
  simp

/-- Multiplies a row by a factor. -/
def scaleRow (g : Grid rows cols) (i : Fin rows) (factor : Value) :
    Grid rows cols × Option Fault :=
  g.changeColumns fun column =>
    match (column.get i).mul factor with
    | .error fault => .error fault
    | .ok scaled => .ok (column.set i scaled i.isLt)

/-- Adds a multiple of one row to another one. -/
def addScaledRow (g : Grid rows cols) (target source : Fin rows) (factor : Value) :
    Grid rows cols × Option Fault :=
  g.changeColumns fun column =>
    match (column.get source).mul factor with
    | .error fault => .error fault
    | .ok scaled =>
      match (column.get target).add scaled with
      | .error fault => .error fault
      | .ok sum => .ok (column.set target sum target.isLt)

/-- The grid after an operation that went through, or its fault. -/
def orFault (changed : Grid rows cols × Option Fault) : Except Fault (Grid rows cols) :=
  match changed.2 with
  | some fault => .error fault
  | none => .ok changed.1

/-- Places that returned entries keep. -/
def displayPlaces : Nat := 6

/-- Rounds every number to the places that are shown; text stays as it is. -/
def prettify (g : Grid rows cols) : Grid rows cols :=
  g.map (Value.rounded displayPlaces)

end Grid

end Reckon
