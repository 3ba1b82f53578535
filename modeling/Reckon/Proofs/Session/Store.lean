import Mathlib.Data.Nat.Basic
import Reckon.Calculus.Derivative
import Reckon.Matrix.Literal

/-!
# What the store of parsed texts changes

Nothing. A session keeps trees of texts that it parsed, and every tree that it keeps is the one that
parsing the text again would give. An evaluator that has settings and a scope but parses every text
when it comes gives the same answers, whatever operations are asked for in whatever order. It follows
that an operation that fails has no effect on later answers: the store is all that it can change.
-/

namespace Reckon

/-- Something that a session is asked for. -/
inductive Operation where
  | eval (text : String)
  | evalWith (text : String) (bindings : List (String × Value))
  | parse (text : String)
  | define (text : String)
  | bind (name : String) (value : Value)
  | unbind (name : String)
  | setPrecision (precision : Nat)
  | setAngle (angle : AngleMode)
  | register (name : String) (run : List Float → Except Fault Float)
  | differentiate (text variableName : String)
  | integrate (text variableName : String) (lower upper : Decimal)
  | matrix (text : String)

/-- What an operation that succeeds gives back. -/
inductive Answer where
  | done
  | value (value : Value)
  | tree (tree : Expr)
  | function (f : UserFunction)
  /-- The value that a name had before. -/
  | previous (value : Option Value)
  | matrix (m : ValueMatrix)
deriving DecidableEq

/-- The answer from the result of a particular operation. -/
def answering {α : Type} (answer : α → Answer) (result : Except Fault α × Session) :
    Except Fault Answer × Session :=
  (result.1.map answer, result.2)

namespace Session

/-! ## Runs -/

/-- The answer to an operation, and the session after it. -/
def perform (s : Session) : Operation → Except Fault Answer × Session
  | .eval text => answering .value (s.eval text)
  | .evalWith text bindings => answering .value (s.evalWith text bindings)
  | .parse text => answering (fun parsed => .tree parsed.tree) (s.parse text)
  | .define text => answering .function (s.define text)
  | .bind name value => (.ok .done, s.bind name value)
  | .unbind name => (.ok (.previous (s.unbind name).1), (s.unbind name).2)
  | .setPrecision precision => (.ok .done, s.setPrecision precision)
  | .setAngle angle => (.ok .done, s.setAngle angle)
  | .register name run => (.ok .done, s.register name run)
  | .differentiate text variableName => answering .value (s.differentiate text variableName)
  | .integrate text variableName lower upper =>
    answering .value (s.integrate text variableName lower upper)
  | .matrix text => answering .matrix (s.matrix text)

/-- The answers to operations, one after the other. -/
def answers (s : Session) : List Operation → List (Except Fault Answer)
  | [] => []
  | op :: ops => (s.perform op).1 :: (s.perform op).2.answers ops

/-- The session after some operations. -/
def after (s : Session) : List Operation → Session
  | [] => s
  | op :: ops => (s.perform op).2.after ops

end Session

/-! ## Runs without a store -/

/-- Settings and a root scope, and nothing that was parsed before. -/
structure Storeless where
  settings : Settings
  scope : Scope

/-- A session without its store. -/
def Session.storeless (s : Session) : Storeless :=
  ⟨s.settings, s.scope⟩

namespace Storeless

/-- A session in which nothing was parsed yet. -/
def session (s : Storeless) : Session :=
  ⟨s.settings, s.scope, .ofCapacity s.settings.cacheSize, 0⟩

/-- What to do with the tree of a text, which is parsed for this once. -/
def withTree {α : Type} (s : Storeless) (text : String)
    (f : Session → Expr → Except Fault α) : Except Fault α :=
  match Expr.parse s.settings.maxDepth text with
  | .error fault => .error fault
  | .ok tree => f s.session tree

/-- The value of a text that blank text has too. -/
def valueWith (s : Storeless) (text : String) (f : Session → Expr → Except Fault Value) :
    Except Fault Value :=
  if Text.isBlank text then .ok .zero else s.withTree text f

/-- The answer to an operation if every text is parsed when it comes, and what is left after it. -/
def perform (s : Storeless) : Operation → Except Fault Answer × Storeless
  | .eval text => ((s.valueWith text Session.evalTree).map .value, s)
  | .evalWith text bindings =>
    ((s.valueWith text fun s e =>
      s.evalTreeIn (s.scope.inherit.bindAll bindings) e).map .value, s)
  | .parse text => ((Expr.parse s.settings.maxDepth text).map .tree, s)
  | .define text =>
    match s.session.definitionOf text with
    | .error fault => (.error fault, s)
    | .ok f =>
      match s.scope.define f with
      | .error fault => (.error fault, s)
      | .ok scope => (.ok (.function f), { s with scope })
  | .bind name value => (.ok .done, { s with scope := s.scope.bind name value })
  | .unbind name =>
    (.ok (.previous (s.scope.binding? name)), { s with scope := s.scope.unbind name })
  | .setPrecision precision => (.ok .done, { s with settings := s.settings.withPrecision precision })
  | .setAngle angle => (.ok .done, { s with settings := s.settings.withAngle angle })
  | .register name run => (.ok .done, { s with scope := s.scope.register name ⟨run, .none⟩ })
  | .differentiate text variableName =>
    ((s.withTree text fun s e => s.differentiateTree variableName e).map .value, s)
  | .integrate text variableName lower upper =>
    ((s.withTree text fun s e =>
      (Expr.integrateWith (fun scope => e.evalWithin s.settings s.settings.maxDepth scope) s.scope
        variableName lower upper).map fun area =>
          (Value.number area).rounded s.settings.precision).map .value, s)
  | .matrix text => ((s.withTree text Session.matrixOfTree).map .matrix, s)

/-- The answers to operations, one after the other, every text parsed when it comes. -/
def answers (s : Storeless) : List Operation → List (Except Fault Answer)
  | [] => []
  | op :: ops => (s.perform op).1 :: (s.perform op).2.answers ops

/-- Without a store, an operation that fails changes nothing. -/
theorem perform_of_error {s : Storeless} {op : Operation} {fault : Fault}
    (failed : (s.perform op).1 = .error fault) : (s.perform op).2 = s := by
  cases op with
  | define text =>
    cases defined : s.session.definitionOf text with
    | error _ => simp only [perform, defined]
    | ok f =>
      cases placed : s.scope.define f with
      | error _ => simp only [perform, defined, placed]
      | ok scope => simp only [perform, defined, placed, reduceCtorEq] at failed
  | bind | unbind | setPrecision | setAngle | register => cases failed
  | _ => rfl

end Storeless

namespace Session

/-! ## What is kept -/

/-- Every tree in the store is what its text parses to under the settings. -/
def Faithful (s : Session) : Prop :=
  ∀ entry ∈ s.recent.entries, Expr.parse s.settings.maxDepth entry.1 = .ok entry.2.tree

variable {s : Session}

/-- A new session has nothing stored that could be wrong. -/
theorem faithful_new (settings : Settings) : (new settings).Faithful :=
  fun _ mem => nomatch mem

/-- From a store that is faithful a text gets the tree that parsing it again gives, and nothing but
the store changes. -/
theorem Faithful.parse (h : s.Faithful) (text : String) :
    (s.parse text).1.map Parsed.tree = Expr.parse s.settings.maxDepth text ∧
      (s.parse text).2.storeless = s.storeless ∧ (s.parse text).2.Faithful := by
  cases found : s.recent.get? text with
  | some parsed =>
    have parses : Expr.parse s.settings.maxDepth text = .ok parsed.tree :=
      h _ (Recent.mem_of_get? found)
    simp only [Session.parse, found]
    exact ⟨parses.symm, rfl, fun entry mem => h entry (Recent.mem_touch mem)⟩
  | none =>
    cases parses : Expr.parse s.settings.maxDepth text with
    | error fault =>
      simp only [Session.parse, found, parses]
      exact ⟨rfl, trivial, h⟩
    | ok tree =>
      simp only [Session.parse, found, parses]
      refine ⟨rfl, rfl, fun entry mem => ?_⟩
      rcases Recent.mem_put mem with rfl | mem
      · exact parses
      · exact h entry mem

/-- What is done with trees depends on the settings and the scope only. -/
def IgnoresStore {α : Type} (f : Session → Expr → Except Fault α) : Prop :=
  ∀ (s : Session) (e : Expr), f s e = f s.storeless.session e

/-- An operation on a text gives what it gives without the store, and the store stays faithful. -/
theorem Faithful.withTree {α : Type} {f : Session → Expr → Except Fault α} (h : s.Faithful)
    (ignores : IgnoresStore f) (text : String) :
    (s.withTree text f).1 = s.storeless.withTree text f ∧
      (s.withTree text f).2.storeless = s.storeless ∧ (s.withTree text f).2.Faithful := by
  obtain ⟨tree, same, faithful⟩ := h.parse text
  have depth : s.storeless.settings.maxDepth = s.settings.maxDepth := rfl
  rcases read : s.parse text with ⟨_ | parsed, next⟩ <;> rw [read] at tree same faithful
  · simp only [Session.withTree, Storeless.withTree, read, depth, ← tree, Except.map]
    exact ⟨trivial, same, faithful⟩
  · simp only [Session.withTree, Storeless.withTree, read, depth, ← tree, Except.map]
    refine ⟨?_, same, faithful⟩
    rw [ignores, same]

/-! ## Steps and runs -/

/-- The session and the evaluator without a store have the same answer and are left with the same
settings and scope, and the store stays faithful. -/
structure Matches (result : Except Fault Answer × Session)
    (plain : Except Fault Answer × Storeless) : Prop where
  answer : result.1 = plain.1
  rest : result.2.storeless = plain.2
  faithful : result.2.Faithful

/-- The answer to an operation on a text is the one that is given without the store. -/
theorem Faithful.matches_withTree {α : Type} {f : Session → Expr → Except Fault α}
    (h : s.Faithful) (ignores : IgnoresStore f) (text : String) (answer : α → Answer) :
    Matches (answering answer (s.withTree text f))
      ((s.storeless.withTree text f).map answer, s.storeless) := by
  obtain ⟨same, rest, faithful⟩ := h.withTree ignores text
  exact ⟨congrArg (Except.map answer) same, rest, faithful⟩

/-- The answer to an operation that takes blank text for zero is the one that is given without the
store. -/
theorem Faithful.matches_valueWith {f : Session → Expr → Except Fault Value} (h : s.Faithful)
    (ignores : IgnoresStore f) (text : String) :
    Matches (answering .value
        (if Text.isBlank text then (.ok .zero, s) else s.withTree text f))
      ((s.storeless.valueWith text f).map .value, s.storeless) := by
  unfold Storeless.valueWith
  split
  · exact ⟨rfl, rfl, h⟩
  · exact h.matches_withTree ignores text .value

/-- Every operation has the answer that it has without the store and changes the settings and the
scope alike. -/
theorem Faithful.matches_perform (h : s.Faithful) (op : Operation) :
    Matches (s.perform op) (s.storeless.perform op) := by
  cases op with
  | eval text => exact h.matches_valueWith (fun _ _ => rfl) text
  | evalWith text bindings => exact h.matches_valueWith (fun _ _ => rfl) text
  | parse text =>
    obtain ⟨tree, rest, faithful⟩ := h.parse text
    refine ⟨?_, rest, faithful⟩
    change (s.parse text).1.map (fun parsed => Answer.tree parsed.tree) =
      (Expr.parse s.settings.maxDepth text).map Answer.tree
    rw [← tree]
    cases (s.parse text).1 <;> rfl
  | define text =>
    have same : s.storeless.session.definitionOf text = s.definitionOf text := rfl
    cases defined : s.definitionOf text with
    | error fault =>
      simp only [perform, Session.define, Storeless.perform, same, defined]
      exact ⟨rfl, rfl, h⟩
    | ok f =>
      have sameScope : s.storeless.scope.define f = s.scope.define f := rfl
      cases placed : s.scope.define f with
      | error fault =>
        simp only [perform, Session.define, Storeless.perform, same, defined, sameScope, placed]
        exact ⟨rfl, rfl, h⟩
      | ok scope =>
        simp only [perform, Session.define, Storeless.perform, same, defined, sameScope, placed]
        exact ⟨rfl, rfl, h⟩
  | bind | unbind | setPrecision | setAngle | register => exact ⟨rfl, rfl, h⟩
  | differentiate text variableName => exact h.matches_withTree (fun _ _ => rfl) text .value
  | integrate text variableName lower upper =>
    exact h.matches_withTree (fun _ _ => rfl) text .value
  | matrix text => exact h.matches_withTree (fun _ _ => rfl) text .matrix

/-- Every run has the answers that it has without the store. -/
theorem Faithful.answers_eq (h : s.Faithful) (ops : List Operation) :
    s.answers ops = s.storeless.answers ops := by
  induction ops generalizing s with
  | nil => rfl
  | cons op ops ih =>
    have step := h.matches_perform op
    simp only [answers, Storeless.answers]
    rw [step.answer, ih step.faithful, step.rest]

/-- The store stays faithful through every run. -/
theorem Faithful.after (h : s.Faithful) (ops : List Operation) : (s.after ops).Faithful := by
  induction ops generalizing s with
  | nil => exact h
  | cons op ops ih => exact ih (h.matches_perform op).faithful

/-- After an operation that fails a session has the settings and the scope that it had before. -/
theorem Faithful.storeless_of_error (h : s.Faithful) {op : Operation} {fault : Fault}
    (failed : (s.perform op).1 = .error fault) :
    (s.perform op).2.storeless = s.storeless := by
  have step := h.matches_perform op
  rw [step.rest]
  exact Storeless.perform_of_error (step.answer ▸ failed)

end Session

/-! ## The answers of a session -/

/-- From a new session on, with any settings, the answers are those of an evaluator that parses every
text when it comes, and the answers after an operation that failed are the same without it. -/
theorem store_is_invisible (settings : Settings) :
    (∀ ops, (Session.new settings).answers ops =
      (Storeless.mk settings .root).answers ops) ∧
    (∀ (before : List Operation) (op : Operation) (fault : Fault),
      (((Session.new settings).after before).perform op).1 = .error fault →
      ∀ later, (((Session.new settings).after before).perform op).2.answers later =
        ((Session.new settings).after before).answers later) := by
  have new := Session.faithful_new settings
  refine ⟨fun ops => new.answers_eq ops, fun before op fault failed later => ?_⟩
  have faithful := new.after before
  rw [(faithful.matches_perform op).faithful.answers_eq, faithful.answers_eq,
    faithful.storeless_of_error failed]

/-- With room for a single text: the call of `f` fails after its text was kept, and once `f` is defined
the same text has a value. -/
theorem store_is_invisible_of_undefined :
    (((Session.new { cacheSize := 0 }).after [.bind "x" (.number .two), .eval "x"]).perform
      (.eval "f(x)")).1 = .error (.unresolvedFunction "f") ∧
    (((Session.new { cacheSize := 0 }).after [.bind "x" (.number .two), .eval "x"]).perform
        (.eval "f(x)")).2.answers [.define "f(t) = t", .eval "f(x)"] =
      ((Session.new { cacheSize := 0 }).after [.bind "x" (.number .two), .eval "x"]).answers
        [.define "f(t) = t", .eval "f(x)"] := by
  have failed : (((Session.new { cacheSize := 0 }).after
      [.bind "x" (.number .two), .eval "x"]).perform (.eval "f(x)")).1 =
        .error (.unresolvedFunction "f") := by
    decide +kernel
  exact ⟨failed, (store_is_invisible { cacheSize := 0 }).2 _ (.eval "f(x)") _ failed _⟩

end Reckon
