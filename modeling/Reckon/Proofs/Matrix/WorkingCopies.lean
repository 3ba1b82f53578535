import Reckon.Proofs.Matrix.Footprints
import Reckon.Proofs.Matrix.InPlace
import Reckon.Proofs.Matrix.StoredMatrices

/-!
# Failures of row operations and reductions

A row operation changes one row of the matrix at its place, from the left, up to the first entry that
has no room; nothing else changes. What is built from row operations works in one place only, and a
reduction works in a new place. So it leaves all matrices that were there as they were, whether it
succeeds or fails, and whatever is left half done is a copy.
-/

namespace Reckon

/-- Brings the row of a pivot up and makes the pivot one. -/
def Columns.bringUp (row col pivot : Nat) (m : Columns) : Checked Columns := do
  let m ← finished (m.swapRows row pivot)
  let reciprocal ← reported (Value.one.div (← m.entry row col))
  let m ← finished (m.scaleRow row reciprocal)
  finished (m.set row col .one)

/-- A pivot is looked for first and brought up after it was found. -/
theorem Columns.normalizePivot_eq (m : Columns) (row col : Nat) :
    m.normalizePivot row col = m.findPivot? col row >>= fun pivot? =>
      match pivot? with
      | none => .ok none
      | some pivot => m.bringUp row col pivot >>= fun m => .ok (some m) := by
  rw [normalizePivot]
  congr 1
  funext pivot?
  cases pivot? with
  | none => rfl
  | some pivot => simp only [bringUp, bind_assoc]

namespace InPlace

variable {α β : Type} {memory : Memory} {place : Nat} {m : Columns} {x : InPlace α}
  {next : α → InPlace β}

/-! ## Places that hold a matrix -/

/-- What is written to a place is held there. -/
theorem getElem?_set_of_held (held : memory[place]? = some m) (m' : Columns) :
    (memory.set place m')[place]? = some m' :=
  List.getElem?_set_self (List.getElem?_eq_some_iff.1 held).1

/-- Writing what is held already changes nothing. -/
theorem set_of_held (held : memory[place]? = some m) : memory.set place m = memory := by
  obtain ⟨inside, rfl⟩ := List.getElem?_eq_some_iff.1 held
  exact List.set_getElem_self inside

/-- What is held stays held if places are added. -/
theorem held_append (held : memory[place]? = some m) (more : Memory) :
    (memory ++ more)[place]? = some m := by
  rw [List.getElem?_append_left (List.getElem?_eq_some_iff.1 held).1, held]

/-! ## Work in one place -/

/-- How work in one place ends. With a result, the matrix there is the expected one; without a result,
it may be any matrix. The other places are as they were. -/
inductive EndsAs (place : Nat) (memory : Memory) :
    Checked (α × Columns) → Checked α × Memory → Prop where
  | ok (a : α) (m : Columns) : EndsAs place memory (.ok (a, m)) (.ok a, memory.set place m)
  | error (mishap : Mishap) (left : Columns) :
    EndsAs place memory (.error mishap) (.error mishap, memory.set place left)

/-- The procedure does to the matrix at a place what the function does, and leaves the other places
alone. -/
def WorksOn (place : Nat) (x : InPlace α) (f : Columns → Checked (α × Columns)) : Prop :=
  ∀ ⦃memory : Memory⦄ ⦃m : Columns⦄, memory[place]? = some m →
    EndsAs place memory (f m) (x.outcome memory)

/-- The procedure changes the matrix at a place as the function does, and nothing else. -/
abbrev ChangesAs (place : Nat) (x : InPlace Unit) (f : Columns → Checked Columns) : Prop :=
  WorksOn place x fun m => do .ok ((), ← f m)

namespace EndsAs

variable {ended : Checked α × Memory}

/-- A run that ends well leaves the result in its place. -/
theorem eq_of_ok {a : α} {m : Columns} (h : EndsAs place memory (.ok (a, m)) ended) :
    ended = (.ok a, memory.set place m) := by
  cases h
  rfl

/-- A run that fails leaves some matrix in its place. -/
theorem exists_of_error {mishap : Mishap} (h : EndsAs place memory (.error mishap) ended) :
    ∃ left, ended = (.error mishap, memory.set place left) := by
  cases h with
  | error _ left => exact ⟨left, rfl⟩

/-- What the place held before does not matter to how a run ends. -/
theorem of_set {m' : Columns} {expected : Checked (α × Columns)}
    (h : EndsAs place (memory.set place m') expected ended) :
    EndsAs place memory expected ended := by
  cases h with
  | ok a m =>
    rw [List.set_set]
    exact .ok a m
  | error mishap left =>
    rw [List.set_set]
    exact .error mishap left

end EndsAs

/-- What reads the memory only leaves it as it is. -/
theorem endsAs_of_held (held : memory[place]? = some m) (y : Checked α) :
    EndsAs place memory (do .ok (← y, m)) (y, memory) := by
  have same : (y, memory) = (y, memory.set place m) := by rw [set_of_held held]
  rw [same]
  cases y with
  | error mishap => exact .error mishap m
  | ok a => exact .ok a m

section

variable {f : Columns → Checked (α × Columns)} {g : α → Columns → Checked (β × Columns)}

/-- The same computation is worked out. -/
theorem WorksOn.congr {f' : Columns → Checked (α × Columns)} (h : WorksOn place x f)
    (same : ∀ m, f' m = f m) : WorksOn place x f' := by
  rwa [funext same]

/-- A run that does nothing leaves the matrix alone. -/
theorem worksOn_pure (a : α) : WorksOn place (pure a) fun m => .ok (a, m) :=
  fun _ _ held => endsAs_of_held held (.ok a)

/-- A question to the matrix leaves it alone. -/
theorem worksOn_ask (f : Columns → Checked α) :
    WorksOn place (ask place f) fun m => (do .ok (← f m, m)) := by
  intro memory m held
  rw [ask_outcome held]
  exact endsAs_of_held held (f m)

/-- An answer from elsewhere leaves the matrix alone. -/
theorem worksOn_answer (y : Checked α) : WorksOn place (answer y) fun m => (do .ok (← y, m)) :=
  fun _ _ held => endsAs_of_held held y

/-- A change in place is the change of the matrix. -/
theorem changesAs_change (f : Columns → Columns.Changed) :
    ChangesAs place (change place f) fun m => Columns.finished (f m) := by
  intro memory m held
  rw [change_outcome held]
  change EndsAs place memory (Columns.finished (f m) >>= _) _
  obtain ⟨changed, _ | mishap⟩ := f m
  · exact .ok () changed
  · exact .error mishap changed

/-- A procedure behind another one goes on with the matrix that the other one leaves. -/
theorem WorksOn.bind (first : WorksOn place x f) (behind : ∀ a, WorksOn place (next a) (g a)) :
    WorksOn place (x >>= next) fun m => f m >>= fun result => g result.1 result.2 := by
  intro memory m held
  have ended := first held
  change EndsAs place memory (f m >>= _) _
  cases expected : f m with
  | error mishap =>
    rw [expected] at ended
    obtain ⟨left, ended⟩ := ended.exists_of_error
    rw [outcome_bind_error ended]
    exact .error mishap left
  | ok result =>
    rw [expected] at ended
    rw [outcome_bind_ok ended.eq_of_ok]
    exact (behind result.1 (getElem?_set_of_held held result.2)).of_set

end

/-! ## Changes and loops -/

/-- A run that does nothing is no change. -/
theorem changesAs_pure : ChangesAs place (pure ()) fun m => .ok m :=
  worksOn_pure ()

/-- What is asked of a matrix comes before what is done with the answer. -/
theorem changesAs_ask_bind {asked : Columns → Checked α} {next : α → InPlace Unit}
    {f : α → Columns → Checked Columns} (behind : ∀ a, ChangesAs place (next a) (f a)) :
    ChangesAs place (ask place asked >>= next) fun m => asked m >>= fun a => f a m := by
  refine ((worksOn_ask asked).bind behind).congr fun m => ?_
  simp only [bind_assoc, ok_bind]

/-- What is computed without the memory comes before what is done with the result. -/
theorem changesAs_answer_bind {y : Checked α} {next : α → InPlace Unit}
    {f : α → Columns → Checked Columns} (behind : ∀ a, ChangesAs place (next a) (f a)) :
    ChangesAs place (answer y >>= next) fun m => y >>= fun a => f a m := by
  refine ((worksOn_answer y).bind behind).congr fun m => ?_
  simp only [bind_assoc, ok_bind]

/-- One change behind another. -/
theorem WorksOn.andThen {x y : InPlace Unit} {f g : Columns → Checked Columns}
    (first : ChangesAs place x f) (second : ChangesAs place y g) :
    ChangesAs place (x >>= fun _ => y) fun m => f m >>= g := by
  refine (first.bind fun _ => second).congr fun m => ?_
  simp only [bind_assoc, ok_bind]

/-- One of two changes behind a question. -/
theorem WorksOn.ifThenElse {x : InPlace Bool} {y z : InPlace Unit}
    {f : Columns → Checked (Bool × Columns)} {g h : Columns → Checked Columns}
    (first : WorksOn place x f) (yes : ChangesAs place y g) (no : ChangesAs place z h) :
    ChangesAs place (x >>= fun b => if b then y else z) fun m =>
      f m >>= fun result => if result.1 then g result.2 else h result.2 := by
  have behind : ∀ b : Bool, ChangesAs place (if b then y else z) fun m => if b then g m else h m
    | true => yes
    | false => no
  refine (first.bind behind).congr fun m => ?_
  simp only [bind_assoc]

/-- A loop changes a matrix as the loop over its steps does. -/
theorem changesAs_forM {ι : Type} {x : ι → InPlace Unit} {f : Columns → ι → Checked Columns}
    (step : ∀ i, ChangesAs place (x i) fun m => f m i) (is : List ι) :
    ChangesAs place (is.forM x) fun m => is.foldlM f m := by
  induction is with
  | nil => exact changesAs_pure
  | cons i is ih => exact (step i).andThen ih

/-! ## Reductions in place -/

/-- The pivot row is brought up in place. -/
theorem changesAs_bringUp (place row col pivot : Nat) :
    ChangesAs place (bringUp place row col pivot) fun m => m.bringUp row col pivot := by
  have divided : ∀ reciprocal : Value, ChangesAs place (do
      scaleRow place row reciprocal
      change place (·.set row col .one)) _ :=
    fun reciprocal => (changesAs_change _).andThen (changesAs_change _)
  refine ((changesAs_change _).andThen (changesAs_ask_bind divided)).congr fun m => ?_
  simp only [Columns.bringUp, bind_assoc]

/-- A pivot is normalized in place, if there is one. -/
theorem worksOn_normalizePivot (place row col : Nat) :
    WorksOn place (normalizePivot place row col) fun m =>
      m.normalizePivot row col >>= fun pivoted => .ok (pivoted.isSome, pivoted.getD m) := by
  have found : ∀ pivot? : Option Nat, WorksOn place
      (match pivot? with
      | none => pure false
      | some pivot => do
        bringUp place row col pivot
        pure true)
      fun m => match pivot? with
        | none => .ok (false, m)
        | some pivot => m.bringUp row col pivot >>= fun m => .ok (true, m)
    | none => worksOn_pure false
    | some pivot => by
      refine ((changesAs_bringUp place row col pivot).bind fun _ => worksOn_pure true).congr
        fun m => ?_
      simp only [bind_assoc, ok_bind]
  refine ((worksOn_ask (·.findPivot? col row)).bind found).congr fun m => ?_
  simp only [Columns.normalizePivot_eq, bind_assoc, ok_bind]
  congr 1
  funext pivot?
  cases pivot? with
  | none => rfl
  | some pivot => simp only [bind_assoc, ok_bind, Option.isSome_some, Option.getD_some]

/-- An entry is cleared in place. -/
theorem changesAs_clearEntry (place pivot col row : Nat) :
    ChangesAs place (clearEntry place pivot col row) fun m => m.clearEntry pivot col row := by
  by_cases same : row = pivot
  · simp only [clearEntry, Columns.clearEntry, if_pos same]
    exact changesAs_pure
  · simp only [clearEntry, Columns.clearEntry, if_neg same]
    refine changesAs_ask_bind fun factor => ?_
    by_cases clear : factor.isZero
    · simp only [if_pos clear]
      exact changesAs_pure
    · simp only [if_neg clear]
      exact (changesAs_change _).andThen (changesAs_change _)

/-- The rows of a column are cleared in place one after the other. -/
theorem changesAs_eliminate (place pivot col : Nat) (rows : List Nat) :
    ChangesAs place (eliminate place pivot col rows) fun m =>
      rows.foldlM (Columns.clearEntry pivot col) m :=
  changesAs_forM (changesAs_clearEntry place pivot col) rows

/-- Columns are reduced in place one after the other. -/
theorem changesAs_reduceColumns (below : Bool) (rows place : Nat) (columns : List Nat) (lead : Nat) :
    ChangesAs place (reduceColumns below rows place columns lead) fun m =>
      m.reduceColumns below rows columns lead := by
  induction columns generalizing lead with
  | nil => exact changesAs_pure
  | cons col columns ih =>
    by_cases out : rows ≤ lead
    · simp only [reduceColumns, Columns.reduceColumns, if_pos out]
      exact changesAs_pure
    · simp only [reduceColumns, Columns.reduceColumns, if_neg out]
      refine ((worksOn_normalizePivot place lead col).ifThenElse
        ((changesAs_eliminate place lead col _).andThen (ih (lead + 1))) (ih lead)).congr fun m => ?_
      simp only [bind_assoc, ok_bind]
      congr 2
      funext pivoted
      cases pivoted <;> rfl

/-- An entry below the diagonal is cleared in place. -/
theorem changesAs_clearBelow (place k : Nat) (reciprocal : Value) (row : Nat) :
    ChangesAs place (clearBelow place k reciprocal row) fun m => m.clearBelow k reciprocal row := by
  refine changesAs_ask_bind fun entry => ?_
  by_cases clear : entry.isZero
  · simp only [if_pos clear]
    exact changesAs_change _
  · simp only [if_neg clear]
    exact changesAs_answer_bind fun quotient => (changesAs_change _).andThen (changesAs_change _)

/-- A column is cleared in place below the diagonal. -/
theorem changesAs_clearColumnBelow (size place k : Nat) :
    ChangesAs place (clearColumnBelow size place k) fun m => m.clearColumnBelow size k := by
  refine (changesAs_ask_bind fun reciprocal =>
    changesAs_forM (changesAs_clearBelow place k reciprocal) _).congr fun m => ?_
  simp only [Columns.clearColumnBelow, bind_assoc]

/-- A step of the triangular form is done in place. -/
theorem changesAs_triangularStep (size place k : Nat) :
    ChangesAs place (triangularStep size place k) fun m => m.triangularStep size k := by
  refine changesAs_ask_bind fun entry => ?_
  by_cases clear : entry.isZero
  · simp only [if_pos clear]
    refine changesAs_ask_bind fun pivot? => ?_
    cases pivot? with
    | none => exact changesAs_pure
    | some pivot =>
      exact (changesAs_change _).andThen
        ((changesAs_change _).andThen (changesAs_clearColumnBelow size place k))
  · simp only [if_neg clear]
    exact changesAs_clearColumnBelow size place k

/-! ## Reductions on copies -/

/-- The procedure answers what is expected, and the memory is what it was with some further places. -/
def Answers (x : InPlace α) (memory : Memory) (expected : Checked α) : Prop :=
  ∃ more, x.outcome memory = (expected, memory ++ more)

/-- An answer from elsewhere leaves the memory as it was. -/
theorem answers_answer (y : Checked α) : (answer y).Answers memory y :=
  ⟨[], congrArg (Prod.mk y) (List.append_nil memory).symm⟩

/-- A question to a matrix leaves the memory as it was. -/
theorem answers_ask (held : memory[place]? = some m) (f : Columns → Checked α) :
    (ask place f).Answers memory (f m) :=
  ⟨[], by rw [ask_outcome held, List.append_nil]⟩

/-- What is read from a place is the matrix that is held there. -/
theorem answers_read_bind (held : memory[place]? = some m) {next : Columns → InPlace α}
    {y : Checked α} (behind : (next m).Answers memory y) : (read place >>= next).Answers memory y := by
  rwa [Answers, outcome_bind_ok (read_outcome held)]

/-- What follows may use the place that was added. -/
theorem answers_put_bind {next : Nat → InPlace α} {y : Checked α}
    (behind : (next memory.length).Answers (memory ++ [m]) y) : (put m >>= next).Answers memory y := by
  obtain ⟨more, ended⟩ := behind
  refine ⟨m :: more, ?_⟩
  rw [outcome_bind_ok (put_outcome m memory), ended, List.append_assoc]
  rfl

/-- What follows a procedure has further places, and finds the ones before them as they were. -/
theorem Answers.bind {y : Checked α} {g : α → Checked β} (first : x.Answers memory y)
    (behind : ∀ a more, (next a).Answers (memory ++ more) (g a)) :
    (x >>= next).Answers memory (y >>= g) := by
  obtain ⟨more, ended⟩ := first
  cases y with
  | error mishap => exact ⟨more, outcome_bind_error ended⟩
  | ok a =>
    obtain ⟨further, after⟩ := behind a more
    refine ⟨more ++ further, ?_⟩
    rw [outcome_bind_ok ended, after, List.append_assoc]
    rfl

/-- Work on a copy stays in the new place, also where it fails half way. -/
theorem answers_onCopy {work : Nat → InPlace Unit} {f : Columns → Checked Columns}
    (works : ∀ copy, ChangesAs copy (work copy) f) : (onCopy m work).Answers memory (f m) := by
  have copied : (memory ++ [m])[memory.length]? = some m := List.getElem?_concat_length
  have replaced (m' : Columns) : (memory ++ [m]).set memory.length m' = memory ++ [m'] := by
    rw [List.set_append_right _ _ (Nat.le_refl _), Nat.sub_self]
    rfl
  have ended := works memory.length copied
  rw [Answers, onCopy, outcome_bind_ok (put_outcome m memory)]
  change EndsAs memory.length (memory ++ [m]) (f m >>= _) _ at ended
  cases expected : f m with
  | error mishap =>
    rw [expected] at ended
    obtain ⟨left, ended⟩ := ended.exists_of_error
    exact ⟨[left], by rw [outcome_bind_error ended, replaced]⟩
  | ok result =>
    rw [expected] at ended
    refine ⟨[result], ?_⟩
    rw [outcome_bind_ok ended.eq_of_ok, read_outcome (getElem?_set_of_held copied result), replaced]

/-- A reduction works on a copy and answers with the reduced matrix. -/
theorem answers_reduce (held : memory[place]? = some m) (below : Bool) :
    (reduce below place).Answers memory
      (do .ok (← m.reduceColumns below m.rows (List.range m.cols) 0).prettify) := by
  have reduced (copy : Nat) :=
    (changesAs_reduceColumns below m.rows copy (List.range m.cols) 0).andThen
      (changesAs_change fun m => (m.prettify, none))
  exact answers_read_bind held (answers_onCopy reduced)

/-- Row reduction answers with the reduced matrix. -/
theorem answers_rowReduce (held : memory[place]? = some m) :
    (rowReduce place).Answers memory m.rowReduce :=
  answers_reduce held false

/-- The echelon form is the answer of its procedure. -/
theorem answers_echelonForm (held : memory[place]? = some m) :
    (echelonForm place).Answers memory m.echelonForm :=
  answers_reduce held true

/-- The triangular form is the answer of its procedure. -/
theorem answers_makeTriangular (held : memory[place]? = some m) :
    (makeTriangular place).Answers memory m.makeTriangular := by
  have cleared (copy : Nat) :=
    changesAs_forM (changesAs_triangularStep m.rows copy) (List.range m.rows)
  refine (answers_ask held _).bind fun _ more => ?_
  exact answers_read_bind (held_append held more) (answers_onCopy cleared)

/-- The determinant is the answer of its procedure. -/
theorem answers_determinantTriangular (held : memory[place]? = some m) :
    (determinantTriangular place).Answers memory m.determinantTriangular := by
  refine (answers_ask held _).bind fun _ more => ?_
  exact (answers_makeTriangular (held_append held more)).bind fun _ _ => answers_answer _

/-- Singular matrices are refused without a trace in the memory. -/
theorem answers_refuseSingular (held : memory[place]? = some m) :
    (refuseSingular place).Answers memory m.refuseSingular := by
  refine (answers_determinantTriangular held).bind fun determinant more => ?_
  by_cases singular : determinant.isZero
  · simp only [if_pos singular]
    exact answers_answer (.error _)
  · simp only [if_neg singular]
    exact answers_answer (.ok ())

/-- What is read off the reduced form of a matrix with further columns beside it. -/
theorem answers_reduceBeside (held : memory[place]? = some m) (beside : Checked Columns)
    (taken : Columns → Checked α) :
    (do
      let reduced ← reduceBeside place beside
      answer (taken reduced) : InPlace α).Answers memory
      (do
        let augmented ← m.augment (← beside)
        taken (← augmented.rowReduce)) := by
  have reduced : (reduceBeside place beside).Answers memory
      (do
        let augmented ← m.augment (← beside)
        augmented.rowReduce) := by
    rw [← bind_assoc]
    exact (answers_ask held _).bind fun augmented more =>
      answers_put_bind (answers_rowReduce List.getElem?_concat_length)
  simpa only [bind_assoc] using reduced.bind fun reduced _ => answers_answer (taken reduced)

/-- The inverse is the answer of its procedure. -/
theorem answers_invert (held : memory[place]? = some m) :
    (invert place).Answers memory m.invert := by
  refine (answers_ask held _).bind fun _ more => ?_
  replace held := held_append held more
  refine answers_read_bind held ?_
  by_cases numeric : m.isNumeric
  · simp only [if_pos numeric]
    refine (answers_refuseSingular held).bind fun _ further => ?_
    exact answers_reduceBeside (held_append held further) _ _
  · simp only [if_neg numeric]
    exact answers_answer (.error _)

/-- The solution is the answer of its procedure. -/
theorem answers_solve (held : memory[place]? = some m) (right : List Value) :
    (solve place right).Answers memory (m.solve right) := by
  refine (answers_ask held _).bind fun _ more => ?_
  replace held := held_append held more
  refine answers_read_bind held ?_
  by_cases fits : right.length = m.rows
  · simp only [if_pos fits]
    by_cases numeric : m.isNumeric
    · simp only [if_pos numeric]
      refine (answers_refuseSingular held).bind fun _ further => ?_
      exact answers_reduceBeside (held_append held further) _ _
    · simp only [if_neg numeric]
      exact answers_reduceBeside held _ _
  · simp only [if_neg fits]
    exact answers_answer _

end InPlace

/-! ## Matrices in their places -/

/-- How a change ends that may have met a fault. -/
def InPlace.ending (fault? : Option Fault) : Checked Unit :=
  match fault? with
  | none => .ok ()
  | some fault => .error (.fault fault)

/-- A stored change ends with the fault of the change. -/
theorem ValueMatrix.finished_storedChange (changed : Changed) :
    ((Columns.finished (storedChange changed)).map fun _ => ()) = InPlace.ending changed.2 := by
  obtain ⟨m, _ | fault⟩ := changed <;> rfl

open ValueMatrix (stored)

/-- The procedure leaves in the place of a matrix what the operation on matrices makes of it, ends with
the operation's fault if there is one, and changes no other place. What is made of the matrix differs
from it in the entries of one row, which are updated from the left as far as all updates can be
computed. -/
def ChangesRow (memory : List ValueMatrix) (place : Fin memory.length)
    (target : Fin memory[place].rows) (update : Fin memory[place].cols → Except Fault Value)
    (x : InPlace Unit) (changed : ValueMatrix.Changed) : Prop :=
  x.outcome (memory.map stored) =
    (InPlace.ending changed.2, (memory.set place changed.1).map stored) ∧
  ∃ grid : Grid memory[place].rows memory[place].cols,
    changed.1 = memory[place].withGrid grid ∧
    memory[place].grid.Footprint target update (grid, changed.2)

section

variable {memory : List ValueMatrix} {place : Fin memory.length}

/-- What is held at a place of stored matrices is the stored matrix. -/
theorem held_stored (memory : List ValueMatrix) (place : Fin memory.length) :
    (memory.map stored)[place.val]? = some memory[place].stored := by
  rw [List.getElem?_map, List.getElem?_eq_getElem place.isLt]
  rfl

/-- An operation with a footprint, made on the stored matrix, changes one row in place. -/
theorem changesRow_of_footprint {target : Fin memory[place].rows}
    {update : Fin memory[place].cols → Except Fault Value}
    {made : Grid memory[place].rows memory[place].cols × Option Fault}
    {changed : ValueMatrix.Changed} {f : Columns → Columns.Changed}
    (footprint : memory[place].grid.Footprint target update made)
    (same : changed = (memory[place].withGrid made.1, made.2))
    (mirrored : f memory[place].stored = ValueMatrix.storedChange changed) :
    ChangesRow memory place target update (InPlace.change place f) changed := by
  subst same
  refine ⟨?_, made.1, rfl, footprint⟩
  rw [InPlace.change_outcome (held_stored memory place), mirrored,
    ValueMatrix.finished_storedChange, List.map_set]
  rfl

end

/-- Scaling a row and adding a multiple of a row to any row change the target row from the left, all of
it or up to the first entry that cannot be computed, and nothing else. Reductions, inverses and
solutions leave all matrices as they are, with whatever result or fault. -/
theorem failures_are_confined (memory : List ValueMatrix) (place : Fin memory.length) :
    (∀ (row : Fin memory[place].rows) (factor : Value), ChangesRow memory place row
      (fun col => (memory[place].grid.entry row col).mul factor)
      (InPlace.scaleRow place row factor) (memory[place].scaleRow row factor)) ∧
    (∀ (target source : Fin memory[place].rows) (factor : Value), ChangesRow memory place target
      (fun col => do
        let scaled ← (memory[place].grid.entry source col).mul factor
        (memory[place].grid.entry target col).add scaled)
      (InPlace.addScaledRow place target source factor)
      (memory[place].addScaledRow target source factor)) ∧
    (InPlace.rowReduce place).Answers (memory.map stored)
      (reported (memory[place].rowReduce.map stored)) ∧
    (InPlace.echelonForm place).Answers (memory.map stored)
      (reported (memory[place].echelonForm.map stored)) ∧
    (InPlace.makeTriangular place).Answers (memory.map stored)
      (reported (memory[place].makeTriangular.map stored)) ∧
    (InPlace.invert place).Answers (memory.map stored)
      (reported (memory[place].invert.map stored)) ∧
    ∀ right : List Value, (InPlace.solve place right).Answers (memory.map stored)
      (reported (memory[place].solve right)) := by
  have held := held_stored memory place
  refine ⟨fun row factor => ?_, fun target source factor => ?_, ?_, ?_, ?_, ?_, fun right => ?_⟩
  · exact changesRow_of_footprint (Grid.footprint_scaleRow _ row factor)
      (ValueMatrix.scaleRow_eq _ row factor) (ValueMatrix.stored_scaleRow _ row factor)
  · exact changesRow_of_footprint (Grid.footprint_addScaledRow _ target source factor)
      (ValueMatrix.addScaledRow_eq _ target source factor)
      (ValueMatrix.stored_addScaledRow _ target source factor)
  · rw [← ValueMatrix.mirrors_rowReduce]
    exact InPlace.answers_rowReduce held
  · rw [← ValueMatrix.mirrors_echelonForm]
    exact InPlace.answers_echelonForm held
  · rw [← ValueMatrix.mirrors_makeTriangular]
    exact InPlace.answers_makeTriangular held
  · rw [← ValueMatrix.mirrors_invert]
    exact InPlace.answers_invert held
  · rw [← (ValueMatrix.mirrors_solve _ right).eq_reported]
    exact InPlace.answers_solve held right

/-- A reduction that fails while it clears the second row leaves a copy in which that row is half
done. -/
example :
    let greatest : Value := .number ⟨false, 2 ^ 96 - 1, 0, by decide, by decide⟩
    let m : Columns := ⟨[[.one, .negOne], [greatest, greatest]]⟩
    (InPlace.rowReduce 0).outcome [m] = (.error (.fault (.arithmetic .additionOverflow)),
      [m, ⟨[[.one, .zero], [greatest, greatest]]⟩]) := by
  decide +kernel

end Reckon
