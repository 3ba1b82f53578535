import Mathlib.Data.List.Forall2
import Reckon.Proofs.Calculus.SamplePoints
import Reckon.Proofs.Decimal.ByValue

/-!
# Computations side by side

Two computations are compared by what they give and by how they fail. A comparison that is kept when
computations are run one after the other is kept by arguments evaluated in order and by integrals,
so that each use of it only has to look at single steps.
-/

namespace Reckon

/-- A way to compare computations, given how their results are to be related. Related faults are
fine, and steps may be compared one after the other. -/
structure Lifts (faults : Fault → Fault → Prop)
    (R : {α β : Type} → (α → β → Prop) → Except Fault α → Except Fault β → Prop) : Prop where
  ok : ∀ {α β : Type} {V : α → β → Prop} {a : α} {b : β}, V a b → R V (.ok a) (.ok b)
  error : ∀ {α β : Type} {V : α → β → Prop} {f f' : Fault}, faults f f' →
    R V (.error f) (.error f')
  bind : ∀ {α β α' β' : Type} {V : α → α' → Prop} {W : β → β' → Prop} {x : Except Fault α}
    {x' : Except Fault α'} {f : α → Except Fault β} {f' : α' → Except Fault β'}, R V x x' →
    (∀ a a', x = .ok a → x' = .ok a' → V a a' → R W (f a) (f' a')) → R W (x >>= f) (x' >>= f')

/-! ## Comparisons -/

section

variable {α β : Type}

/-- Both computations give results that are related, or both fail with faults that are. -/
inductive Matches (faults : Fault → Fault → Prop) (V : α → β → Prop) :
    Except Fault α → Except Fault β → Prop where
  | ok {a : α} {b : β} (results : V a b) : Matches faults V (.ok a) (.ok b)
  | error {f f' : Fault} (related : faults f f') : Matches faults V (.error f) (.error f')

/-- The computations match, or the first one came to the limit of nesting. -/
def MatchesUpTo (limit : Nat) (faults : Fault → Fault → Prop) (V : α → β → Prop)
    (x : Except Fault α) (y : Except Fault β) : Prop :=
  x = .error (.depthExceeded limit) ∨ Matches faults V x y

/-- The outcome is not that a limit of nesting was exceeded, whatever its number. -/
def Unstopped (x : Except Fault α) : Prop :=
  ∀ limit, x ≠ .error (.depthExceeded limit)

/-- The computations match, or the first one was stopped by a limit of nesting. -/
def CutsOff (faults : Fault → Fault → Prop) (V : α → β → Prop) (x : Except Fault α)
    (y : Except Fault β) : Prop :=
  Unstopped x → Matches faults V x y

/-- The second computation gives a related result whenever the first one gives one. -/
def Extends (V : α → β → Prop) (x : Except Fault α) (y : Except Fault β) : Prop :=
  ∀ a, x = .ok a → ∃ b, y = .ok b ∧ V a b

/-- If both computations give a result, the results are related. -/
def Compatible (V : α → β → Prop) (x : Except Fault α) (y : Except Fault β) : Prop :=
  ∀ a b, x = .ok a → y = .ok b → V a b

/-- Two computations match on equality exactly when they are the same computation. -/
theorem matches_eq_iff {x y : Except Fault α} : Matches Eq Eq x y ↔ x = y := by
  constructor
  · rintro (same | same) <;> rw [same]
  · rintro rfl
    cases x with
    | ok a => exact .ok rfl
    | error fault => exact .error rfl

/-- A computation cut off by a limit is the other one as soon as no limit stopped it. -/
theorem cutsOff_eq_iff {x y : Except Fault α} : CutsOff Eq Eq x y ↔ (Unstopped x → y = x) := by
  simp only [CutsOff, matches_eq_iff, eq_comm]

/-- A match stays a match when less is asked of the results. -/
theorem Matches.imp {faults : Fault → Fault → Prop} {V W : α → β → Prop} {x : Except Fault α}
    {y : Except Fault β} (h : Matches faults V x y) (weaker : ∀ a b, V a b → W a b) :
    Matches faults W x y := by
  cases h with
  | ok related => exact .ok (weaker _ _ related)
  | error related => exact .error related

end

/-- A match may be checked one step at a time. -/
theorem lifts_matches (faults : Fault → Fault → Prop) : Lifts faults (Matches faults) where
  ok := .ok
  error := .error
  bind h hs := by
    cases h with
    | ok related => exact hs _ _ rfl rfl related
    | error related => exact .error related

/-- A match up to one limit may be checked one step at a time: the limit that stops a first step
stops the whole run. -/
theorem lifts_matchesUpTo (limit : Nat) (faults : Fault → Fault → Prop) :
    Lifts faults (MatchesUpTo limit faults) where
  ok related := .inr (.ok related)
  error related := .inr (.error related)
  bind h hs := by
    rcases h with rfl | related | related
    · exact .inl rfl
    · exact hs _ _ rfl rfl related
    · exact .inr (.error related)

/-- What stops the first of two steps stops both. -/
theorem Unstopped.of_bind {α β : Type} {x : Except Fault α} {f : α → Except Fault β}
    (h : Unstopped (x >>= f)) : Unstopped x :=
  fun limit stopped => h limit (by rw [stopped]; rfl)

/-- What was computed from an unstopped computation was not stopped either way: the function applied
to its result raises no fault. -/
theorem Unstopped.of_map {α β : Type} {x : Except Fault α} {f : α → β} (h : Unstopped (x.map f)) :
    Unstopped x :=
  fun limit stopped => h limit (by rw [stopped]; rfl)

/-- Being cut off by some limit may be checked one step at a time. -/
theorem lifts_cutsOff (faults : Fault → Fault → Prop) : Lifts faults (CutsOff faults) where
  ok related _ := .ok related
  error related _ := .error related
  bind {α β α' β' V W x x' f f'} h hs unstopped := by
    cases h unstopped.of_bind with
    | ok related => exact hs _ _ rfl rfl related unstopped
    | error related => exact .error related

/-- What gives a result was not stopped. -/
theorem CutsOff.eq_ok {α : Type} {x y : Except Fault α} {a : α} (h : CutsOff Eq Eq x y)
    (result : x = .ok a) : y = .ok a := by
  subst result
  exact cutsOff_eq_iff.1 h nofun

/-- Two computations that take the same steps, the first one as far as it gets. -/
theorem CutsOff.bind {α β : Type} {x y : Except Fault α} {f g : α → Except Fault β}
    (h : CutsOff Eq Eq x y) (hs : ∀ a, CutsOff Eq Eq (f a) (g a)) :
    CutsOff Eq Eq (x >>= f) (y >>= g) :=
  (lifts_cutsOff Eq).bind h fun a _ _ _ same => same ▸ hs a

/-- Every computation is a cut-off form of itself. -/
theorem CutsOff.refl {α : Type} (x : Except Fault α) : CutsOff Eq Eq x x :=
  cutsOff_eq_iff.2 fun _ => rfl

/-- A function on the results keeps one computation a cut-off form of the other. -/
theorem CutsOff.map {α β : Type} {x y : Except Fault α} (h : CutsOff Eq Eq x y) (f : α → β) :
    CutsOff Eq Eq (x.map f) (y.map f) := by
  have each : CutsOff Eq Eq (x >>= fun a => .ok (f a)) (y >>= fun a => .ok (f a)) :=
    h.bind fun _ => .refl _
  cases x <;> cases y <;> exact each

/-- Computations that are cut off entry by entry are cut off on the whole list. -/
theorem CutsOff.mapM {α β : Type} {f g : α → Except Fault β} (h : ∀ a, CutsOff Eq Eq (f a) (g a))
    (as : List α) : CutsOff Eq Eq (as.mapM f) (as.mapM g) := by
  induction as with
  | nil => exact .refl _
  | cons a as ih =>
    rw [List.mapM_cons, List.mapM_cons]
    exact (h a).bind fun b => ih.bind fun bs => .refl _

/-- Extending what a computation gives may be checked one step at a time. -/
theorem lifts_extends (faults : Fault → Fault → Prop) : Lifts faults Extends where
  ok related a same := by
    cases same
    exact ⟨_, rfl, related⟩
  error _ := nofun
  bind h hs b result := by
    obtain ⟨a, first, second⟩ := bind_eq_ok.1 result
    obtain ⟨a', first', related⟩ := h a first
    obtain ⟨b', second', equal⟩ := hs a a' first first' related b second
    exact ⟨b', bind_eq_ok.2 ⟨a', first', second'⟩, equal⟩

/-- Agreement of two successful computations may be checked one step at a time. -/
theorem lifts_compatible (faults : Fault → Fault → Prop) : Lifts faults Compatible where
  ok related a b first second := by
    cases first
    cases second
    exact related
  error _ := nofun
  bind h hs b b' result result' := by
    obtain ⟨a, first, second⟩ := bind_eq_ok.1 result
    obtain ⟨a', first', second'⟩ := bind_eq_ok.1 result'
    exact hs a a' first first' (h a a' first first') b b' second second'

/-! ## Numbers that arithmetic does not tell apart -/

/-- A relation between numbers that arithmetic keeps: operations on related numbers give related
results, or neither gives one. -/
structure KeptByArithmetic (D : Decimal → Decimal → Prop) : Prop where
  refl : ∀ d, D d d
  add : ∀ {a a' b b' : Decimal}, D a a' → D b b' → Option.Rel D (a.add? b) (a'.add? b')
  sub : ∀ {a a' b b' : Decimal}, D a a' → D b b' → Option.Rel D (a.sub? b) (a'.sub? b')
  mul : ∀ {a a' b b' : Decimal}, D a a' → D b b' → Option.Rel D (a.mul? b) (a'.mul? b')
  div : ∀ {a a' b b' : Decimal}, D a a' → D b b' → Option.Rel D (a.div? b) (a'.div? b')

/-- The numbers are equal by value; they may differ in scale. -/
def Decimal.Equals (d d' : Decimal) : Prop :=
  d'.toRat = d.toRat

/-- An optional result is related to itself when every result is. -/
theorem optionRel_refl {α : Type} {V : α → α → Prop} (refl : ∀ a, V a a) (x : Option α) :
    Option.Rel V x x := by
  cases x with
  | none => exact .none
  | some a => exact .some (refl a)

/-- Related optional results stay related when related computations follow them. -/
theorem optionRel_bind {α β : Type} {V : α → α → Prop} {W : β → β → Prop} {x y : Option α}
    {f g : α → Option β} (h : Option.Rel V x y) (hs : ∀ a b, V a b → Option.Rel W (f a) (g b)) :
    Option.Rel W (x.bind f) (y.bind g) := by
  cases h with
  | none => exact .none
  | some same => exact hs _ _ same

/-- Equal numbers are kept equal by the arithmetic of integrals. -/
theorem keptByArithmetic_eq : KeptByArithmetic Eq where
  refl _ := rfl
  add := by
    rintro a _ b _ rfl rfl
    exact optionRel_refl (fun _ => rfl) _
  sub := by
    rintro a _ b _ rfl rfl
    exact optionRel_refl (fun _ => rfl) _
  mul := by
    rintro a _ b _ rfl rfl
    exact optionRel_refl (fun _ => rfl) _
  div := by
    rintro a _ b _ rfl rfl
    exact optionRel_refl (fun _ => rfl) _

/-- Two numbers that are in range together, with one rational value, are equal by value. -/
theorem optionRel_equals {x y : Option Decimal} (h : y.map Decimal.toRat = x.map Decimal.toRat) :
    Option.Rel Decimal.Equals x y := by
  rcases Decimal.cases_of_map_toRat h with ⟨rfl, rfl⟩ | ⟨c, d, rfl, rfl, same⟩
  · exact .none
  · exact .some same

/-- Equality by value is kept by the arithmetic of integrals, since no operation looks at the scale.
-/
theorem keptByArithmetic_equals : KeptByArithmetic Decimal.Equals where
  refl _ := rfl
  add ha hb := optionRel_equals (Decimal.toRat_add?_congr ha hb)
  sub ha hb := optionRel_equals (Decimal.toRat_sub?_congr ha hb)
  mul ha hb := optionRel_equals (Decimal.toRat_mul?_congr ha hb)
  div ha hb := optionRel_equals (Decimal.toRat_div?_congr ha hb)

/-! ## Runs of computations -/

namespace Lifts

variable {faults : Fault → Fault → Prop}
  {R : {α β : Type} → (α → β → Prop) → Except Fault α → Except Fault β → Prop}

/-- A computation is related to itself when its faults and its results are. -/
theorem refl (h : Lifts faults R) (faultsRefl : ∀ f, faults f f) {α : Type} {V : α → α → Prop}
    (resultsRefl : ∀ a, V a a) (x : Except Fault α) : R V x x := by
  cases x with
  | ok a => exact h.ok (resultsRefl a)
  | error fault => exact h.error (faultsRefl fault)

/-- Functions that keep the results related keep the computations related. -/
theorem map (h : Lifts faults R) {α β α' β' : Type} {V : α → α' → Prop} {W : β → β' → Prop}
    {x : Except Fault α} {x' : Except Fault α'} {f : α → β} {f' : α' → β'} (first : R V x x')
    (related : ∀ a a', V a a' → W (f a) (f' a')) : R W (x.map f) (x'.map f') := by
  have each : R W (x >>= fun a => .ok (f a)) (x' >>= fun a => .ok (f' a)) :=
    h.bind first fun a a' _ _ same => h.ok (related a a' same)
  cases x <;> cases x' <;> exact each

/-- Lists of entries that are computed in order are related when their entries are. -/
theorem mapM (h : Lifts faults R) {α α' β β' : Type} {V : β → β' → Prop} {f : α → Except Fault β}
    {g : α' → Except Fault β'} {as : List α} {bs : List α'}
    (related : List.Forall₂ (fun a b => R V (f a) (g b)) as bs) :
    R (List.Forall₂ V) (as.mapM f) (bs.mapM g) := by
  induction related with
  | nil => exact h.ok .nil
  | cons first _ ih =>
    rw [List.mapM_cons, List.mapM_cons]
    refine h.bind first fun v v' _ _ head => ?_
    exact h.bind ih fun vs vs' _ _ others => h.ok (.cons head others)

/-- A fold is related to a fold over the same list when each step keeps the accumulators related. -/
theorem foldlM (h : Lifts faults R) {α β β' : Type} {V : β → β' → Prop}
    {f : β → α → Except Fault β} {g : β' → α → Except Fault β'} {as : List α}
    (step : ∀ a ∈ as, ∀ b b', V b b' → R V (f b a) (g b' a)) {b : β} {b' : β'} (start : V b b') :
    R V (as.foldlM f b) (as.foldlM g b') := by
  induction as generalizing b b' with
  | nil => exact h.ok start
  | cons a as ih =>
    rw [List.foldlM_cons, List.foldlM_cons]
    refine h.bind (step a List.mem_cons_self b b' start) fun _ _ _ _ => ?_
    exact ih fun a mem => step a (List.mem_cons_of_mem _ mem)

section

variable {D : Decimal → Decimal → Prop}

/-- The range check of related numbers gives related numbers or the same fault. -/
theorem inRange (h : Lifts faults R)
    (faultsRefl : ∀ f, faults f f) {x x' : Option Decimal} (related : Option.Rel D x x') :
    R D (Reckon.inRange x : Except Fault Decimal) (Reckon.inRange x') := by
  cases related with
  | none => exact h.error (faultsRefl _)
  | some same => exact h.ok same

/-- Integrals between related bounds are related if the integrands are at the points of the first
one. -/
theorem simpson (h : Lifts faults R) (faultsRefl : ∀ f, faults f f) (kept : KeptByArithmetic D)
    {f g : Decimal → Except Fault Decimal} {lower lower' upper upper' : Decimal} {intervals : UInt64}
    (integrand : ∀ x ∈ samplePoints lower upper intervals, ∀ x', D x x' → R D (f x) (g x'))
    (low : D lower lower') (high : D upper upper') :
    R D (Reckon.simpson lower upper intervals f) (Reckon.simpson lower' upper' intervals g) := by
  have fits : ∀ {x x' : Option Decimal}, Option.Rel D x x' →
      R D (Reckon.inRange x : Except Fault Decimal) (Reckon.inRange x') := h.inRange faultsRefl
  have natural : ∀ n, R D (Reckon.inRange (Decimal.ofNat? n) : Except Fault Decimal)
      (Reckon.inRange (Decimal.ofNat? n)) := fun n => fits (optionRel_refl kept.refl _)
  have samples : ∀ (step step' : Decimal), D step step' → ∀ i,
      (∀ x ∈ interiorPoint? lower step i, x ∈ samplePoints lower upper intervals) →
        R D (interiorSample f lower step i) (interiorSample g lower' step' i) := by
    intro step step' same i inside
    refine h.bind (natural i) fun index index' isIndex _ sameIndex => ?_
    refine h.bind (fits (kept.mul same sameIndex)) fun offset offset' isOffset _ apart => ?_
    refine h.bind (fits (kept.add low apart)) fun x x' isPoint _ point => ?_
    have mem := inside x (interiorPoint?_eq_some.2 ⟨index, inRange_eq_ok.1 isIndex, offset,
      inRange_eq_ok.1 isOffset, inRange_eq_ok.1 isPoint⟩)
    refine h.bind (integrand x mem x' point) fun y y' _ _ value => ?_
    exact fits (kept.mul value (kept.refl _))
  refine h.bind (natural _) fun count count' isCount _ sameCount => ?_
  refine h.bind (fits (kept.sub high low)) fun width width' isWidth _ sameWidth => ?_
  refine h.bind (fits (kept.div sameWidth sameCount)) fun step step' isStep _ same => ?_
  have steps := simpsonStep?_eq_some.2 ⟨count, inRange_eq_ok.1 isCount, width,
    inRange_eq_ok.1 isWidth, inRange_eq_ok.1 isStep⟩
  have atLower := integrand lower (lower_mem_samplePoints _ _ _) lower' low
  have atUpper := integrand upper (upper_mem_samplePoints _ _ _) upper' high
  refine h.bind atLower fun first first' _ _ sameFirst => ?_
  refine h.bind atUpper fun last last' _ _ sameLast => ?_
  refine h.bind (fits (kept.add sameFirst sameLast)) fun ends ends' _ _ sameEnds => ?_
  refine h.bind (h.foldlM (fun i mem sum sum' soFar => ?_) sameEnds) fun sum sum' _ _ sameSum => ?_
  · refine h.bind (samples step step' same i fun x => mem_samplePoints steps mem) ?_
    exact fun y y' _ _ value => fits (kept.add soFar value)
  · exact fits (optionRel_bind (kept.mul sameSum same) fun _ _ total =>
      kept.div total (kept.refl _))

end

end Lifts

end Reckon
