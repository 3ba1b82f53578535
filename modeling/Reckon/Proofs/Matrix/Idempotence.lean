import Reckon.Proofs.Decimal.Places
import Reckon.Proofs.Matrix.Tolerance

/-!
# Reducing twice

Row reduction needs no exact arithmetic to end in reduced form: zero times anything is zero, pivots
are set to one and entries that are cleared are set to zero. It only must not take an entry for zero
that is not. What is shown is then in reduced form as well, and a reduced form as it is shown is
left alone when it is reduced again.
-/

namespace Reckon

open Reckon.Echelon

/-! ## Numbers as they are shown -/

namespace Value

/-- A number in normal form with no more places than are shown. -/
def IsShown (v : Value) : Prop :=
  ∃ d : Decimal, v = number d ∧ d.normalize = d ∧ d.scale ≤ 6

variable {v w u : Value}

/-- A number rounded to six places is as it is shown. -/
theorem isShown_rounded (d : Decimal) : ((number d).rounded 6).IsShown := by
  rw [rounded]
  split
  · exact ⟨.zero, rfl, rfl, by decide⟩
  · refine ⟨_, rfl, Decimal.normalize_normalize _, ?_⟩
    exact (Decimal.trimZeros_snd_le _ _).trans (Decimal.scale_roundTo_le 6 d)

/-- A number in normal form is zero in one way only. -/
theorem eq_zero_of_normalize {d : Decimal} (normal : d.normalize = d) (zero : d.toRat = 0) :
    d = .zero := by
  rw [← normal, Decimal.normalize_congr (zero.trans Decimal.toRat_zero.symm)]
  rfl

/-- A number as it is shown is tested to be zero exactly when it is zero. -/
theorem IsShown.isZero_iff (h : v.IsShown) : v.isZero = true ↔ v.rat = 0 := by
  obtain ⟨d, rfl, -, short⟩ := h
  rw [isZero, isNegligible_iff_isZero short]
  exact ⟨Decimal.toRat_of_isZero, Decimal.isZero_of_toRat_eq_zero⟩

/-- What is shown is not rounded any further. -/
theorem IsShown.rounded_eq (h : v.IsShown) : v.rounded 6 = v := by
  have zeros := h.isZero_iff
  obtain ⟨d, rfl, normal, short⟩ := h
  rw [rounded]
  split
  · next small => rw [eq_zero_of_normalize normal (zeros.1 small), zero]
  · rw [Decimal.roundTo_of_le short, normal]

/-- A number as it is shown with the value one is the number one. -/
theorem IsShown.eq_one (h : v.IsShown) (one : v.rat = 1) : v = .one := by
  obtain ⟨d, rfl, normal, -⟩ := h
  rw [← normal, Decimal.normalize_congr (one.trans Decimal.toRat_one.symm)]
  rfl

/-- A number in normal form times one is itself. -/
theorem mul?_one {d : Decimal} (normal : d.normalize = d) : d.mul? .one = some d := by
  rw [Decimal.mul?]
  cases zero : d.isZero with
  | true =>
    rw [Bool.true_or, Bool.true_or, if_pos rfl,
      eq_zero_of_normalize normal (Decimal.toRat_of_isZero zero)]
  | false =>
    have places : ¬Decimal.shortProductPlaces < d.scale + Decimal.one.scale := by
      have := d.scale_le
      change ¬47 < d.scale + 0
      omega
    have nonzero : (d.mantissa != 0) = true := bne_iff_ne.2 (Decimal.mantissa_ne_zero zero)
    have fits : Decimal.fit? (d.negative != false) (d.mantissa * 1) (10 ^ (d.scale + 0))
        (min (d.scale + 0) 28) = some d := by
      rw [Nat.mul_one, Nat.add_zero, Nat.min_eq_left d.scale_le,
        Decimal.fit?_of_eq_mul (Decimal.pow_ten_pos _) rfl d.mantissa_lt d.scale_le,
        Decimal.ofParts?, dif_pos ⟨d.mantissa_lt, d.scale_le⟩, nonzero, Bool.and_true,
        Bool.bne_false]
    rw [show Decimal.one.isZero = false from rfl, Bool.or_false, Bool.false_or,
      decide_eq_false places, Bool.and_false, if_neg Bool.false_ne_true]
    change (Decimal.fit? (d.negative != false) (d.mantissa * 1) (10 ^ (d.scale + 0))
      (min (d.scale + 0) 28)).map _ = some d
    rw [fits, Option.map_some]
    split
    · rfl
    · rw [show Decimal.one.negative = false from rfl, Bool.bne_false]

/-- A number as it is shown times one is itself. -/
theorem IsShown.mul_one (h : v.IsShown) : v.mul .one = .ok v := by
  obtain ⟨d, rfl, normal, -⟩ := h
  rw [one, mul, combine, Operator.apply, mul?_one normal]
  rfl

/-- Rounding keeps ones. -/
theorem rat_rounded_of_eq_one {d : Decimal} (one : d.toRat = 1) :
    ((number d).rounded 6).rat = 1 := by
  have large : ¬d.isNegligible = true := by
    rw [isNegligible_iff, one, abs_one]
    norm_num
  have digits : d.mantissa * 10 ^ 0 = 1 * 10 ^ d.scale :=
    Decimal.mantissa_mul_pow (one.trans Decimal.toRat_one.symm)
  have whole : 10 ^ (d.scale - 6) ∣ d.mantissa := by
    rw [Nat.pow_zero, Nat.mul_one, Nat.one_mul] at digits
    rw [digits]
    exact Nat.pow_dvd_pow 10 (Nat.sub_le _ _)
  rw [rounded, if_neg large]
  change (d.roundTo 6).normalize.toRat = 1
  rw [Decimal.toRat_normalize, Decimal.toRat_roundTo_of_dvd whole, one]

/-- Rounding keeps zeros. -/
theorem rat_rounded_of_eq_zero {d : Decimal} (zero : d.toRat = 0) :
    ((number d).rounded 6).rat = 0 := by
  have small : d.isNegligible = true := by
    rw [isNegligible_iff, zero, abs_zero]
    norm_num
  rw [rounded, if_pos small]
  exact Decimal.toRat_zero

/-- A decisive value that counts as zero is zero. -/
theorem rat_eq_zero_of_isDecisive (numeric : v.isNumeric = true) (decisive : v.isDecisive = true)
    (zero : v.isZero = true) : v.rat = 0 :=
  ((standsFor_rat numeric).isZero_iff decisive).1 zero

end Value

namespace Grid

variable {rows cols : Nat} {g g' : Grid rows cols} {i pivot : Fin rows} {j : Fin cols}

/-! ## What a row operation did -/

/-- A change of entries in turn that went through has succeeded on each of them. -/
theorem exists_of_changeInTurn {α : Type} {f : α → Except Fault α} {xs : List α}
    (through : (changeInTurn f xs).2 = none) : ∀ x ∈ xs, ∃ y, f x = .ok y := by
  induction xs with
  | nil => exact fun x mem => absurd mem List.not_mem_nil
  | cons first xs ih =>
    rw [changeInTurn] at through
    cases changed : f first with
    | error fault =>
      rw [changed] at through
      cases through
    | ok y =>
      rw [changed] at through
      intro x mem
      rcases List.mem_cons.1 mem with rfl | mem
      · exact ⟨y, changed⟩
      · exact ih through x mem

/-- An operation on all columns that went through did so in each of them. -/
theorem exists_of_changeColumns {f : Vector Value rows → Except Fault (Vector Value rows)}
    (done : orFault (g.changeColumns f) = .ok g') (b : Fin cols) :
    ∃ column, f (g.columns.get b) = .ok column := by
  rw [orFault] at done
  split at done
  · cases done
  · next through =>
    refine exists_of_changeInTurn through _ ?_
    exact Vector.mem_toList_iff.2 (Vector.getElem_mem b.isLt)

/-- A row that was scaled has the product of each entry with the factor. -/
theorem exists_of_scaleRow {factor : Value} (done : orFault (g.scaleRow i factor) = .ok g') :
    ∃ p : Fin cols → Value, (∀ b, (g.entry i b).mul factor = .ok (p b)) ∧
      ∀ a b, g'.entry a b = if a = i then p b else g.entry a b := by
  have products : ∀ b, ∃ v, (g.entry i b).mul factor = .ok v := by
    intro b
    obtain ⟨column, changed⟩ := exists_of_changeColumns done b
    split at changed
    · cases changed
    · next v product => exact ⟨v, product⟩
  choose p product using products
  obtain ⟨g'', done', entries⟩ := exists_scaleRow product
  rw [done] at done'
  cases done'
  exact ⟨p, product, entries⟩

/-- A row that took a multiple of another one has the sum of each entry with the product. -/
theorem exists_of_addScaledRow {target source : Fin rows} {factor : Value}
    (done : orFault (g.addScaledRow target source factor) = .ok g') :
    ∃ p q : Fin cols → Value, (∀ b, (g.entry source b).mul factor = .ok (p b)) ∧
      (∀ b, (g.entry target b).add (p b) = .ok (q b)) ∧
      ∀ a b, g'.entry a b = if a = target then q b else g.entry a b := by
  have sums : ∀ b, ∃ v w, (g.entry source b).mul factor = .ok v ∧
      (g.entry target b).add v = .ok w := by
    intro b
    obtain ⟨column, changed⟩ := exists_of_changeColumns done b
    split at changed
    · cases changed
    · next v product =>
      split at changed
      · cases changed
      · next w sum => exact ⟨v, w, product, sum⟩
  choose p q product sum using sums
  obtain ⟨g'', done', entries⟩ := exists_addScaledRow product sum
  rw [done] at done'
  cases done'
  exact ⟨p, q, product, sum, entries⟩

/-- Bringing up a pivot has exchanged two rows, divided one of them and put a one in its place. -/
theorem exists_of_normalizePivot (done : g.normalizePivot i j = .ok (some g')) :
    ∃ (pivot : Fin rows) (reciprocal : Value) (p : Fin cols → Value),
      g.findPivot? j i = some pivot ∧
      Value.one.div ((g.swapRows i pivot).entry i j) = .ok reciprocal ∧
      (∀ b, ((g.swapRows i pivot).entry i b).mul reciprocal = .ok (p b)) ∧
      ∀ a b, g'.entry a b =
        if i = a ∧ j = b then .one else if a = i then p b else (g.swapRows i pivot).entry a b := by
  rw [normalizePivot] at done
  split at done
  · cases done
  · next pivot found =>
    obtain ⟨reciprocal, divided, done⟩ := bind_eq_ok.1 done
    obtain ⟨g₁, scaled, done⟩ := bind_eq_ok.1 done
    cases done
    obtain ⟨p, product, entries⟩ := exists_of_scaleRow scaled
    refine ⟨pivot, reciprocal, p, found, divided, product, fun a b => ?_⟩
    rw [entry_set, entries]

/-- Clearing an entry has left everything as it was, or it has added a multiple of the pivot's row
and put a zero in place of the entry. -/
theorem exists_of_clearEntry (done : clearEntry pivot j g i = .ok g') :
    (g' = g ∧ (i = pivot ∨ (g.entry i j).isZero = true)) ∨
      (i ≠ pivot ∧ ∃ p q : Fin cols → Value,
        (∀ b, (g.entry pivot b).mul (g.entry i j).negate = .ok (p b)) ∧
        (∀ b, (g.entry i b).add (p b) = .ok (q b)) ∧
        ∀ a b, g'.entry a b =
          if i = a ∧ j = b then .zero else if a = i then q b else g.entry a b) := by
  rw [clearEntry] at done
  split at done
  · next skipped =>
    cases done
    rw [Bool.or_eq_true, decide_eq_true_eq] at skipped
    exact .inl ⟨rfl, skipped⟩
  · next cleared =>
    rw [Bool.or_eq_true, decide_eq_true_eq, not_or] at cleared
    obtain ⟨g₁, added, done⟩ := bind_eq_ok.1 done
    cases done
    obtain ⟨p, q, product, sum, entries⟩ := exists_of_addScaledRow added
    refine .inr ⟨cleared.1, p, q, product, sum, fun a b => ?_⟩
    rw [entry_set, entries]

/-! ## One column -/

/-- Swapping rows keeps every entry a number. -/
theorem isNumeric_entry_swapRows (numeric : g.isNumeric = true) (a b : Fin rows) (c : Fin rows)
    (d : Fin cols) : ((g.swapRows a b).entry c d).isNumeric = true := by
  have numbers := isNumeric_iff.1 numeric
  rw [entry_swapRows]
  split
  · exact numbers b d
  · split
    · exact numbers a d
    · exact numbers c d

/-- Exchanging two rows without an entry in a column keeps the column. -/
theorem rat_entry_swapRows {b : Fin cols} (first : g.rational i b = 0)
    (second : g.rational pivot b = 0) (a : Fin rows) :
    ((g.swapRows i pivot).entry a b).rat = g.rational a b := by
  rw [entry_swapRows]
  split
  · next own =>
    rw [own, first]
    exact second
  · split
    · next own =>
      rw [own, second]
      exact first
    · rfl

/-- Bringing up a pivot makes it one and keeps the columns without entries from its row on. -/
theorem of_normalizePivot (numeric : g.isNumeric = true)
    (done : g.normalizePivot i j = .ok (some g')) :
    g'.isNumeric = true ∧ g'.rational i j = 1 ∧
      ∀ b, b ≠ j → (∀ a, i ≤ a → g.rational a b = 0) →
        ∀ a, g'.rational a b = g.rational a b := by
  obtain ⟨pivot, reciprocal, p, found, divided, product, entries⟩ := exists_of_normalizePivot done
  have below : i ≤ pivot := (of_findPivot?_eq_some found).1
  have swapped := isNumeric_entry_swapRows numeric i pivot
  have number : reciprocal.isNumeric = true :=
    Value.isNumeric_of_combine rfl (swapped i j) divided
  refine ⟨isNumeric_iff.2 fun a b => ?_, ?_, fun b other zero a => ?_⟩
  · rw [entries]
    split
    · rfl
    · split
      · exact Value.isNumeric_of_combine (swapped i b) number (product b)
      · exact swapped a b
  · rw [rational, entries, if_pos ⟨rfl, rfl⟩]
    decide
  · have moved := rat_entry_swapRows (zero i le_rfl) (zero pivot below)
    rw [rational, entries, if_neg fun here => other here.2.symm]
    split
    · next own =>
      rw [own, zero i le_rfl]
      exact Value.rat_mul_eq_zero (swapped i b) ((moved i).trans (zero i le_rfl)) (product b)
    · exact moved a

/-- What clearing some rows of a column does. -/
structure ColumnCleared (g g' : Grid rows cols) (pivot : Fin rows) (j : Fin cols)
    (targets : List (Fin rows)) : Prop where
  numeric : g'.isNumeric = true
  own : ∀ b, g'.entry pivot b = g.entry pivot b
  decisive : ∀ a, a ≠ pivot → (g'.entry a j).isDecisive = true
  column : ∀ a, a ≠ pivot → (a ∈ targets ∨ g.rational a j = 0) → g'.rational a j = 0
  kept : ∀ b, b ≠ j → g.rational pivot b = 0 → ∀ a, g'.rational a b = g.rational a b

/-- Before any row is cleared, the grid is as it was. -/
theorem columnCleared_nil (numeric : g.isNumeric = true)
    (decisive : ∀ a, a ≠ pivot → (g.entry a j).isDecisive = true) :
    ColumnCleared g g pivot j [] := by
  refine ⟨numeric, fun _ => rfl, decisive, fun a _ zero => ?_, fun _ _ _ _ => rfl⟩
  exact zero.resolve_left List.not_mem_nil

/-- Clearing rows and then further rows clears them all. -/
theorem ColumnCleared.trans {g'' : Grid rows cols} {targets targets' : List (Fin rows)}
    (h : ColumnCleared g g' pivot j targets) (h' : ColumnCleared g' g'' pivot j targets') :
    ColumnCleared g g'' pivot j (targets ++ targets') := by
  refine ⟨h'.numeric, fun b => (h'.own b).trans (h.own b), h'.decisive, fun a other zero => ?_,
    fun b apart zero a => ?_⟩
  · refine h'.column a other ?_
    rw [List.mem_append] at zero
    rcases zero with (mem | mem) | zero
    · exact .inr (h.column a other (.inl mem))
    · exact .inl mem
    · exact .inr (h.column a other (.inr zero))
  · have own : g'.rational pivot b = 0 := by
      rw [rational, h.own b]
      exact zero
    rw [h'.kept b apart own a, h.kept b apart zero a]

/-- Clearing an entry sets it to zero, or it was zero already. -/
theorem columnCleared_clearEntry (numeric : g.isNumeric = true)
    (decisive : ∀ a, a ≠ pivot → (g.entry a j).isDecisive = true)
    (done : clearEntry pivot j g i = .ok g') : ColumnCleared g g' pivot j [i] := by
  have numbers := isNumeric_iff.1 numeric
  rcases exists_of_clearEntry done with ⟨rfl, skipped⟩ | ⟨apart, p, q, product, sum, entries⟩
  · refine ⟨numeric, fun _ => rfl, decisive, fun a other zero => ?_, fun _ _ _ _ => rfl⟩
    rcases zero with mem | zero
    · obtain rfl : a = i := List.mem_singleton.1 mem
      exact Value.rat_eq_zero_of_isDecisive (numbers a j) (decisive a other)
        (skipped.resolve_left other)
    · exact zero
  · have factor : (g.entry i j).negate.isNumeric = true := by
      obtain ⟨d, number, _⟩ := Value.standsFor_rat (numbers i j)
      rw [number]
      rfl
    have products : ∀ b, (p b).isNumeric = true := fun b =>
      Value.isNumeric_of_combine (numbers pivot b) factor (product b)
    have others : ∀ a b, a ≠ i → g'.entry a b = g.entry a b := by
      intro a b other
      rw [entries, if_neg fun here => other here.1.symm, if_neg other]
    have cleared : g'.entry i j = .zero := by
      rw [entries, if_pos ⟨rfl, rfl⟩]
    refine ⟨isNumeric_iff.2 fun a b => ?_, fun b => others pivot b (Ne.symm apart),
      fun a other => ?_, fun a other zero => ?_, fun b column zero a => ?_⟩
    · rw [entries]
      split
      · rfl
      · split
        · exact Value.isNumeric_of_combine (numbers i b) (products b) (sum b)
        · exact numbers a b
    · by_cases own : a = i
      · rw [own, cleared]
        decide
      · rw [others a j own]
        exact decisive a other
    · by_cases own : a = i
      · rw [own, rational, cleared]
        decide
      · rw [rational, others a j own]
        exact zero.resolve_left fun mem => own (List.mem_singleton.1 mem)
    · by_cases own : a = i
      · rw [own, rational, entries, if_neg fun here => column here.2.symm, if_pos rfl]
        have nothing := Value.rat_mul_eq_zero (numbers pivot b) zero (product b)
        have kept := (Value.standsFor_rat (numbers i b)).add_of_zero
          (Value.standsFor_rat (products b)) (.inr nothing) (sum b)
        rw [kept.rat_eq, nothing, add_zero, rational]
      · rw [rational, others a b own, rational]

/-- A run of clearings clears all the rows it goes through. -/
theorem columnCleared_foldlM {left : List (Fin rows)} (numeric : g.isNumeric = true)
    (decisive : ∀ a, a ≠ pivot → (g.entry a j).isDecisive = true)
    (done : left.foldlM (clearEntry pivot j) g = .ok g') : ColumnCleared g g' pivot j left := by
  induction left generalizing g with
  | nil =>
    cases done
    exact columnCleared_nil numeric decisive
  | cons i left ih =>
    rw [List.foldlM_cons] at done
    cases cleared : clearEntry pivot j g i with
    | error fault =>
      rw [cleared] at done
      cases done
    | ok g₁ =>
      rw [cleared] at done
      have first := columnCleared_clearEntry numeric decisive cleared
      exact first.trans (ih first.numeric first.decisive done)

/-! ## The run -/

/-- Whether elimination through the columns takes no entry for zero that is not. In each column the
entries from the lead on are tested in search of a pivot. If there is one, all other entries are
tested when they are cleared. -/
def mistakesNone : List (Fin cols) → (lead : Nat) → Grid rows cols → Bool
  | [], _, _ => true
  | j :: columns, lead, g =>
    if h : lead < rows then
      ((List.finRange rows).all fun a => decide (a.val < lead) || (g.entry a j).isDecisive) &&
        match g.normalizePivot ⟨lead, h⟩ j with
        | .error _ => true
        | .ok none => mistakesNone columns lead g
        | .ok (some g) =>
          ((List.finRange rows).all fun a =>
            decide (a = ⟨lead, h⟩) || (g.entry a j).isDecisive) &&
            match (targets false ⟨lead, h⟩).foldlM (clearEntry ⟨lead, h⟩ j) g with
            | .error _ => true
            | .ok g => mistakesNone columns (lead + 1) g
    else true

/-- Where no pivot was brought to one, the search for it found none. -/
theorem eq_none_of_normalizePivot (done : g.normalizePivot i j = .ok none) :
    g.findPivot? j i = none := by
  rw [normalizePivot] at done
  split at done
  · next missing => exact missing
  · next pivot found =>
    simp only [bind, Except.bind] at done
    split at done
    · cases done
    · split at done
      · cases done
      · cases done

/-- What a check of all rows tests is tested for each row that is not left out. -/
theorem isDecisive_of_all {p : Fin rows → Prop} [DecidablePred p] {a : Fin rows}
    (tests : ((List.finRange rows).all fun a => decide (p a) || (g.entry a j).isDecisive) = true)
    (tested : ¬p a) : (g.entry a j).isDecisive = true := by
  have test := List.all_eq_true.1 tests a (List.mem_finRange a)
  rw [Bool.or_eq_true, decide_eq_true_eq] at test
  exact test.resolve_left tested

/-- A column without a pivot has no entries from the lead on. -/
theorem visited_of_missing {width lead : Nat} (numeric : g.isNumeric = true)
    (decisive : ∀ a : Fin rows, lead ≤ a.val → (g.entry a j).isDecisive = true)
    (last : j.val = width) (visited : Visited false width lead g.rational)
    (missing : g.findPivot? j lead = none) :
    Visited false (width + 1) lead g.rational := by
  refine visited.extend last (Nat.le_refl lead) (fun _ _ _ => rfl) (fun a low => ?_)
    fun i low high => absurd high (Nat.not_lt.2 low)
  exact Value.rat_eq_zero_of_isDecisive (isNumeric_iff.1 numeric a j) (decisive a low)
    (isZero_of_findPivot?_eq_none missing low)

/-- A column with a pivot adds a row once the other entries are cleared. -/
theorem visited_of_columnCleared {g₁ g₂ : Grid rows cols} {width lead : Nat} {room : lead < rows}
    (numeric : g.isNumeric = true) (last : j.val = width)
    (visited : Visited false width lead g.rational)
    (normal : g.normalizePivot ⟨lead, room⟩ j = .ok (some g₁))
    (cleared : ColumnCleared g₁ g₂ ⟨lead, room⟩ j (targets false ⟨lead, room⟩)) :
    Visited false (width + 1) (lead + 1) g₂.rational := by
  obtain ⟨_, one, kept⟩ := of_normalizePivot numeric normal
  have clear : ∀ a, a ≠ ⟨lead, room⟩ → g₂.rational a j = 0 := fun a other =>
    cleared.column a other (.inl (mem_targets.2 fun below => by cases below))
  refine visited.extend last (Nat.le_succ lead) (fun a b before => ?_) (fun a low => clear a ?_)
    fun i low high => ?_
  · have apart : b ≠ j := fun same => by
      rw [same, last] at before
      exact Nat.lt_irrefl _ before
    have rest : ∀ a, (⟨lead, room⟩ : Fin rows) ≤ a → g.rational a b = 0 :=
      fun a low => visited.rest a low b before
    have own := (kept b apart rest ⟨lead, room⟩).trans (rest _ le_rfl)
    rw [cleared.kept b apart own a, kept b apart rest a]
  · intro same
    rw [same] at low
    exact Nat.lt_irrefl _ low
  · obtain rfl : i = ⟨lead, room⟩ := Fin.ext (Nat.le_antisymm (Nat.le_of_lt_succ high) low)
    refine ⟨?_, fun k more => clear k (Fin.ne_of_gt more),
      fun _ k less => clear k (Fin.ne_of_lt less)⟩
    rw [rational, cleared.own j]
    exact one

/-- Going through all columns that are left ends in reduced form. -/
theorem isReducedRowEchelon_of_reduceColumns {columns : List (Fin cols)} {width lead : Nat}
    (numeric : g.isNumeric = true) (follows : Follows width columns)
    (visited : Visited false width lead g.rational)
    (tests : g.mistakesNone columns lead = true)
    (done : reduceColumns false columns lead g = .ok g') :
    g'.isNumeric = true ∧ g'.rational.IsReducedRowEchelon := by
  induction columns generalizing g width lead with
  | nil =>
    cases done
    exact ⟨numeric, (visited.finish (.inl follows.2)).2.2 rfl⟩
  | cons j columns ih =>
    obtain ⟨last, others⟩ := follows.head
    rw [mistakesNone] at tests
    rw [reduceColumns] at done
    by_cases room : lead < rows
    · rw [dif_pos room, Bool.and_eq_true] at tests
      rw [dif_pos room] at done
      obtain ⟨tested, later⟩ := tests
      cases normal : g.normalizePivot ⟨lead, room⟩ j with
      | error fault =>
        rw [normal] at done
        cases done
      | ok result =>
        cases result with
        | none =>
          simp only [normal] at done later
          have decisive : ∀ a : Fin rows, lead ≤ a.val → (g.entry a j).isDecisive = true :=
            fun a low => isDecisive_of_all tested (Nat.not_lt.2 low)
          exact ih numeric others (visited_of_missing numeric decisive last visited
            (eq_none_of_normalizePivot normal)) later done
        | some g₁ =>
          simp only [normal, Bool.and_eq_true] at done later
          obtain ⟨tested, later⟩ := later
          have decisive : ∀ a, a ≠ ⟨lead, room⟩ → (g₁.entry a j).isDecisive = true :=
            fun a other => isDecisive_of_all tested other
          cases run : (targets false ⟨lead, room⟩).foldlM (clearEntry ⟨lead, room⟩ j) g₁ with
          | error fault =>
            rw [run] at done
            cases done
          | ok g₂ =>
            simp only [run] at done later
            have cleared := columnCleared_foldlM (of_normalizePivot numeric normal).1 decisive run
            exact ih cleared.numeric others
              (visited_of_columnCleared numeric last visited normal cleared) later done
    · rw [dif_neg room] at done
      cases done
      exact ⟨numeric, (visited.finish (.inr (Nat.le_of_not_lt room))).2.2 rfl⟩

/-! ## Reduced forms as they are shown -/

/-- A grid of numbers in reduced form, as they are shown. -/
structure IsReduced (g : Grid rows cols) : Prop where
  shown : ∀ i j, (g.entry i j).IsShown
  reduced : g.rational.IsReducedRowEchelon

/-- Showing a reduced form keeps it reduced. -/
theorem isReduced_prettify (numeric : g.isNumeric = true)
    (reduced : g.rational.IsReducedRowEchelon) : g.prettify.IsReduced := by
  have entries : ∀ i j, ∃ d : Decimal, d.toRat = g.rational i j ∧
      g.prettify.entry i j = (Value.number d).rounded 6 := by
    intro i j
    exact (standsFor_rational numeric).shows i j
  refine ⟨fun i j => ?_, isReducedRowEchelon_of_kept reduced (fun i j zero => ?_)
    fun i j one => ?_⟩
  · obtain ⟨d, _, shown⟩ := entries i j
    rw [shown]
    exact Value.isShown_rounded d
  · obtain ⟨d, same, shown⟩ := entries i j
    rw [rational, shown]
    exact Value.rat_rounded_of_eq_zero (same.trans zero)
  · obtain ⟨d, same, shown⟩ := entries i j
    rw [rational, shown]
    exact Value.rat_rounded_of_eq_one (same.trans one)

/-- A reduced form as it is shown is shown as itself. -/
theorem IsReduced.prettify_eq (h : g.IsReduced) : g.prettify = g := by
  ext i j
  rw [prettify, entry_map]
  exact (h.shown i j).rounded_eq

/-- A row swapped with itself leaves the grid as it is. -/
theorem swapRows_self (g : Grid rows cols) (i : Fin rows) : g.swapRows i i = g := by
  ext a b
  rw [entry_swapRows]
  split
  · next own => rw [own]
  · rfl

/-- A pivot that is in its place is one already. -/
theorem IsReduced.normalizePivot_eq (h : g.IsReduced) (lead : g.rational.IsLeadingEntry i j) :
    g.normalizePivot i j = .ok (some g) := by
  have one : g.entry i j = .one := (h.shown i j).eq_one (h.reduced.eq_one lead)
  have found : g.findPivot? j i = some i := by
    cases found : g.findPivot? j i with
    | none =>
      have zero := isZero_of_findPivot?_eq_none found (le_refl i.val)
      exact absurd ((h.shown i j).isZero_iff.1 zero) lead.2
    | some pivot =>
      obtain ⟨le, entry⟩ := of_findPivot?_eq_some found
      rcases (Fin.le_def.2 le).eq_or_lt with same | less
      · rw [same]
      · have zero := eq_zero_of_le h.reduced.isRowEchelon less lead le_rfl
        rw [(h.shown pivot j).isZero_iff.2 zero] at entry
        cases entry
  obtain ⟨g', scaled, entries⟩ := exists_scaleRow (g := g) (i := i) fun b => (h.shown i b).mul_one
  have same : g'.set i j .one = g := by
    ext a b
    rw [entry_set]
    split
    · next here => rw [← here.1, ← here.2, one]
    · rw [entries]
      split
      · next own => rw [own]
      · rfl
  have reciprocal : Value.one.div .one = .ok .one := by decide +kernel
  rw [normalizePivot, found]
  simp only [swapRows_self, one, reciprocal, bind, Except.bind, scaled, same]

/-- The column of a pivot is clear already. -/
theorem IsReduced.clearEntry_eq (h : g.IsReduced) (lead : g.rational.IsLeadingEntry pivot j)
    (i : Fin rows) : clearEntry pivot j g i = .ok g := by
  rw [clearEntry]
  by_cases own : i = pivot
  · rw [decide_eq_true own, Bool.true_or, if_pos rfl]
  · have zero := h.reduced.eq_zero_of_ne_of_isLeadingEntry own lead
    rw [(h.shown i j).isZero_iff.2 zero, Bool.or_true, if_pos rfl]

/-- A run whose every step changes nothing changes nothing. -/
theorem foldlM_of_forall_ok {α β : Type} {step : β → α → Except Fault β} {b : β}
    (same : ∀ a, step b a = .ok b) (as : List α) : as.foldlM step b = .ok b := by
  induction as with
  | nil => rfl
  | cons a as ih =>
    rw [List.foldlM_cons, same a]
    exact ih

/-- A reduced form as it is shown is left alone. -/
theorem IsReduced.reduceColumns_eq (h : g.IsReduced) {columns : List (Fin cols)}
    {width lead : Nat} (follows : Follows width columns)
    (rest : ∀ i : Fin rows, lead ≤ i.val → ∀ j : Fin cols, j.val < width → g.rational i j = 0) :
    reduceColumns false columns lead g = .ok g := by
  induction columns generalizing width lead with
  | nil => rfl
  | cons j columns ih =>
    obtain ⟨last, others⟩ := follows.head
    rw [reduceColumns]
    by_cases room : lead < rows
    · rw [dif_pos room]
      have before : ∀ b < j, g.rational ⟨lead, room⟩ b = 0 := fun b left =>
        rest ⟨lead, room⟩ (le_refl lead) b (by
          rw [← last]
          exact left)
      have split : ∀ b : Fin cols, b.val < width + 1 → b.val < width ∨ b = j := fun b within =>
        (Nat.lt_succ_iff_lt_or_eq.1 within).imp_right fun same => Fin.ext (same.trans last.symm)
      by_cases zero : g.rational ⟨lead, room⟩ j = 0
      · have column : ∀ i : Fin rows, lead ≤ i.val → g.rational i j = 0 := by
          intro i low
          rcases low.eq_or_lt with same | less
          · rw [← zero]
            exact congrArg (fun i => g.rational i j) (Fin.ext same.symm)
          · exact h.reduced.isRowEchelon (Fin.lt_def.2 less) before
        have missing : g.findPivot? j lead = none := by
          cases found : g.findPivot? j lead with
          | none => rfl
          | some pivot =>
            obtain ⟨low, entry⟩ := of_findPivot?_eq_some found
            rw [(h.shown pivot j).isZero_iff.2 (column pivot low)] at entry
            cases entry
        have nothing : g.normalizePivot ⟨lead, room⟩ j = .ok none := normalizePivot_of_none missing
        simp only [nothing]
        refine ih others fun i low b within => ?_
        rcases split b within with within | rfl
        · exact rest i low b within
        · exact column i low
      · have first : g.rational.IsLeadingEntry ⟨lead, room⟩ j := ⟨before, zero⟩
        simp only [h.normalizePivot_eq first, foldlM_of_forall_ok (h.clearEntry_eq first)]
        refine ih others fun i low b within => ?_
        rcases split b within with within | rfl
        · exact rest i (Nat.le_of_succ_le low) b within
        · exact h.reduced.isRowEchelon (Fin.lt_def.2 (Nat.lt_of_succ_le low)) first.1
    · rw [dif_neg room]

/-- A reduced form as it is shown is left alone by row reduction. -/
theorem IsReduced.rowReduce_eq (h : g.IsReduced) : g.rowReduce = .ok g := by
  have left : reduceColumns false (List.finRange cols) 0 g = .ok g :=
    h.reduceColumns_eq follows_finRange fun _ _ _ none => absurd none (Nat.not_lt_zero _)
  rw [rowReduce, left, Except.map, h.prettify_eq]

end Grid

namespace ValueMatrix

/-- Row reduction is idempotent as long as no entry is taken for zero that is not: what it returns
is in reduced row echelon form, and reducing that changes nothing. Operations may be rounded. -/
theorem rowReduce_idempotent (m r : ValueMatrix) (numeric : m.isNumeric = true)
    (tests : m.grid.mistakesNone (List.finRange m.cols) 0 = true) (done : m.rowReduce = .ok r) :
    r.grid.rational.IsReducedRowEchelon ∧ r.rowReduce = .ok r := by
  rw [rowReduce, Grid.rowReduce] at done
  cases run : Grid.reduceColumns false (List.finRange m.cols) 0 m.grid with
  | error fault =>
    rw [run] at done
    cases done
  | ok g =>
    rw [run] at done
    cases done
    obtain ⟨numeric', reduced⟩ := Grid.isReducedRowEchelon_of_reduceColumns numeric
      follows_finRange (visited_zero false m.grid.rational) tests run
    have shown := Grid.isReduced_prettify numeric' reduced
    refine ⟨shown.reduced, ?_⟩
    rw [rowReduce]
    change Except.map _ g.prettify.rowReduce = _
    rw [shown.rowReduce_eq]
    rfl

/-- Thirds and elevenths are rounded on the way. -/
theorem rowReduce_idempotent_elevenths :
    let m : ValueMatrix := ⟨2, 3,
      ⟨#v[#v[.ofDigits 3, .one], #v[.one, .ofDigits 4], #v[.ofDigits 2, .one]]⟩, by decide⟩
    m.isNumeric = true ∧ m.grid.mistakesNone (List.finRange m.cols) 0 = true ∧
      ∃ r, m.rowReduce = .ok r ∧ r.grid.rational.IsReducedRowEchelon ∧ r.rowReduce = .ok r := by
  intro m
  let shown : Grid 2 3 := ⟨#v[#v[.one, .zero], #v[.zero, .one],
    #v[.ofDigits 636364 6, .ofDigits 90909 6]]⟩
  have numeric : m.isNumeric = true := by decide +kernel
  have tests : m.grid.mistakesNone (List.finRange m.cols) 0 = true := by decide +kernel
  have reduced : m.grid.rowReduce = .ok shown := by decide +kernel
  have done : m.rowReduce = .ok (m.withGrid shown) := by
    rw [rowReduce, reduced]
    rfl
  exact ⟨numeric, tests, _, done, rowReduce_idempotent m _ numeric tests done⟩

/-- An entry that counts as zero is left where it is, and a later pivot scales it up: the second
pass finds one half above a pivot and clears it. -/
theorem rowReduce_not_idempotent :
    let m : ValueMatrix :=
      ⟨2, 2, ⟨#v[#v[.one, .ofDigits 1 7], #v[.zero, .ofDigits 2 7]]⟩, by decide⟩
    m.isNumeric = true ∧ ∃ r r', m.rowReduce = .ok r ∧ r.rowReduce = .ok r' ∧
      r.same r' = false := by
  intro m
  let once : Grid 2 2 := ⟨#v[#v[.one, .ofDigits 5 1], #v[.zero, .one]]⟩
  let twice : Grid 2 2 := ⟨#v[#v[.one, .zero], #v[.zero, .one]]⟩
  have reduced : m.grid.rowReduce = .ok once := by decide +kernel
  have reduced' : once.rowReduce = .ok twice := by decide +kernel
  refine ⟨by decide +kernel, m.withGrid once, m.withGrid twice, ?_, ?_, by decide +kernel⟩
  · rw [rowReduce, reduced]
    rfl
  · rw [rowReduce]
    change Except.map _ once.rowReduce = _
    rw [reduced']
    rfl

end ValueMatrix

end Reckon
