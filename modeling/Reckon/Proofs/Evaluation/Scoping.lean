import Reckon.Calculus.Derivative
import Reckon.Proofs.Evaluation.Steps

/-!
# Lexical scoping

What a tree evaluates to depends on the functions of the scope and on the bindings of the names that
the tree mentions, and on nothing else. The body of a function is evaluated in a scope of its own, so
the names that it mentions are not looked up where the function is called, and a derivative is taken
in a scope without variables.
-/

namespace Reckon

namespace Table

variable {α : Type}

/-- What was bound before counts for the names that are not bound anew. -/
theorem get?_insertAll (t : Table α) (entries : List (String × α)) (name : String) :
    (t.insertAll entries).get? name = ((empty.insertAll entries).get? name).or (t.get? name) := by
  induction entries generalizing t with
  | nil => rfl
  | cons entry entries ih =>
    change ((t.insert entry.1 entry.2).insertAll entries).get? name =
      (((empty.insert entry.1 entry.2).insertAll entries).get? name).or (t.get? name)
    rw [ih (t.insert entry.1 entry.2), ih (empty.insert entry.1 entry.2), Option.or_assoc,
      get?_insert, get?_insert]
    split <;> rfl

/-- Two tables that agree on a name agree on it after the same entries are added to both. -/
theorem get?_insertAll_congr {t t' : Table α} {name : String}
    (same : t'.get? name = t.get? name) (entries : List (String × α)) :
    (t'.insertAll entries).get? name = (t.insertAll entries).get? name := by
  rw [get?_insertAll, get?_insertAll t, same]

/-- A table with entries added has a name exactly when it had the name or one of the entries does.
-/
theorem contains_insertAll (t : Table α) (entries : List (String × α)) (name : String) :
    (t.insertAll entries).contains name = true ↔
      t.contains name = true ∨ name ∈ entries.map Prod.fst := by
  induction entries generalizing t with
  | nil => simp [insertAll]
  | cons entry entries ih =>
    change ((t.insert entry.1 entry.2).insertAll entries).contains name = true ↔ _
    rw [ih, List.map_cons, List.mem_cons, contains, contains, get?_insert]
    split
    · next same => simp [same]
    · next other => simp [other]

end Table

/-- Two evaluations that agree on every entry of a list agree on the list. -/
theorem mapM_congr {α β : Type} {f g : α → Except Fault β} {as : List α}
    (same : ∀ a ∈ as, f a = g a) : as.mapM f = as.mapM g := by
  induction as with
  | nil => rfl
  | cons a as ih =>
    rw [List.mapM_cons, List.mapM_cons, same a List.mem_cons_self,
      ih fun other mem => same other (List.mem_cons_of_mem a mem)]

namespace Scope

/-! ## Scopes that agree -/

/-- The two scopes have the same functions, those that texts defined and those on floats. Their
variables may differ. -/
structure SameFunctions (s s' : Scope) : Prop where
  functions : ∀ name, s'.functions.get? name = s.functions.get? name
  natives : ∀ name, s'.natives.get? name = s.natives.get? name

/-- Both scopes bind the name to the same value, or neither binds it. -/
def Agree (s s' : Scope) (name : String) : Prop :=
  s'.binding? name = s.binding? name

/-- The scopes have the same functions and agree on the names that a tree mentions. -/
structure AgreeOn (s s' : Scope) (e : Expr) : Prop extends s.SameFunctions s' where
  names : ∀ name, e.mentions name = true → s.Agree s' name

variable {s s' : Scope}

/-- The variables of the caller do not come into the scope of a call. -/
theorem agree_call (s s' : Scope) (bindings : List (String × Value)) (name : String) :
    (s.child.bindAll bindings).Agree (s'.child.bindAll bindings) name :=
  Table.get?_insertAll_congr rfl bindings

/-- Two scopes that agree on a name pass the same value of it on. -/
theorem Agree.inherit {name : String} (h : s.Agree s' name) : s.inherit.Agree s'.inherit name := by
  rw [Agree, binding?_inherit, binding?_inherit, h]

/-- Two scopes that agree on a name agree on it where an integral has bound its variable. -/
theorem Agree.sample {name : String} (h : s.Agree s' name) (target : String) (value : Value) :
    (s.inherit.bind target value).Agree (s'.inherit.bind target value) name := by
  rw [Agree, binding?_bind, binding?_bind, h.inherit]

/-- The scopes of a call have the same functions if those of the callers do. -/
theorem SameFunctions.call (h : s.SameFunctions s') (bindings : List (String × Value)) :
    (s.child.bindAll bindings).SameFunctions (s'.child.bindAll bindings) :=
  ⟨h.functions, h.natives⟩

/-- The scopes of a sample have the same functions if those of the callers do. -/
theorem SameFunctions.sample (h : s.SameFunctions s') (target : String) (value : Value) :
    (s.inherit.bind target value).SameFunctions (s'.inherit.bind target value) :=
  ⟨h.functions, h.natives⟩

/-- In the scope of a call every tree is at home, the body of the function included. -/
theorem SameFunctions.agreeOn_call (h : s.SameFunctions s') (bindings : List (String × Value))
    (e : Expr) : (s.child.bindAll bindings).AgreeOn (s'.child.bindAll bindings) e :=
  ⟨h.call bindings, fun name _ => agree_call s s' bindings name⟩

/-- Scopes that agree on a tree agree on it where an integral has bound its variable. -/
theorem AgreeOn.sample {e : Expr} (h : s.AgreeOn s' e) (target : String) (value : Value) :
    (s.inherit.bind target value).AgreeOn (s'.inherit.bind target value) e :=
  ⟨h.toSameFunctions.sample target value, fun name inside => (h.names name inside).sample target value⟩

/-- Scopes that agree on a tree agree on a part that mentions no other names. -/
theorem AgreeOn.part {e part : Expr} (h : s.AgreeOn s' e)
    (inside : ∀ name, part.mentions name = true → e.mentions name = true) : s.AgreeOn s' part :=
  ⟨h.toSameFunctions, fun name mentioned => h.names name (inside name mentioned)⟩

/-- Scopes that agree on a signed tree agree on its operand. -/
theorem AgreeOn.operand {sign : Sign} {operand : Expr} (h : s.AgreeOn s' (.signed sign operand)) :
    s.AgreeOn s' operand :=
  h.part fun _ => id

/-- Scopes that agree on a binary tree agree on its left operand. -/
theorem AgreeOn.left {op : Operator} {left right : Expr} (h : s.AgreeOn s' (.binary op left right)) :
    s.AgreeOn s' left :=
  h.part fun name mentioned => by rw [Expr.mentions, mentioned, Bool.true_or]

/-- Scopes that agree on a binary tree agree on its right operand. -/
theorem AgreeOn.right {op : Operator} {left right : Expr}
    (h : s.AgreeOn s' (.binary op left right)) : s.AgreeOn s' right :=
  h.part fun name mentioned => by rw [Expr.mentions, mentioned, Bool.or_true]

/-- Scopes that agree on a call agree on each of its arguments. -/
theorem AgreeOn.argument {name : String} {args : List Expr} (h : s.AgreeOn s' (.call name args))
    {arg : Expr} (mem : arg ∈ args) : s.AgreeOn s' arg :=
  h.part fun _ mentioned => Expr.mentionsAny_iff.2 ⟨arg, mem, mentioned⟩

end Scope

namespace Expr

variable {settings : Settings} {s s' : Scope}

/-! ## Evaluation -/

/-- An integral depends on its bounds and on the samples of its body. -/
theorem integralForm_congr {eval : Scope → Expr → Except Fault Value} {args : List Expr}
    (bounds : ∀ e ∈ args, eval s' e = eval s e)
    (samples : ∀ e ∈ args, ∀ name x,
      eval (s'.inherit.bind name (.number x)) e = eval (s.inherit.bind name (.number x)) e) :
    integralForm eval s' args = integralForm eval s args := by
  unfold integralForm
  split
  · next body name lower upper =>
    have integrals : ∀ low high, integrateWith (fun inner => eval inner body) s' name low high =
        integrateWith (fun inner => eval inner body) s name low high := by
      intro low high
      simp only [integrateWith, samples body List.mem_cons_self]
    rw [bounds lower (by simp), bounds upper (by simp)]
    simp only [integrals]
  · rfl
  · rfl

/-- Scopes that agree on a tree give it the same outcome, whether it is a value or a fault. -/
theorem evalWithin_eq_of_agreeOn {levels : Nat} {e : Expr} (h : s.AgreeOn s' e) :
    evalWithin settings levels s' e = evalWithin settings levels s e := by
  induction levels generalizing s s' e with
  | zero => rfl
  | succ levels ih =>
    cases e with
    | number d => rfl
    | «variable» name term =>
      have bound : s'.binding? name = s.binding? name :=
        h.names name (by rw [mentions, BEq.rfl])
      rw [evalWithin_variable, evalWithin_variable]
      unfold Scope.valueOf
      rw [bound]
    | signed sign operand => rw [evalWithin, evalWithin, ih h.operand]
    | binary op left right => rw [evalWithin, evalWithin, ih h.left, ih h.right]
    | vector items => rfl
    | matrix columns => rfl
    | definition name params body => rfl
    | call name args =>
      have given : args.mapM (fun arg => evalWithin settings levels s' arg) =
          args.mapM (fun arg => evalWithin settings levels s arg) :=
        mapM_congr fun arg mem => ih (h.argument mem)
      have bodies : ∀ (f : UserFunction) (values : List Value),
          evalWithin settings levels (s'.child.bindAll (f.params.zip values)) f.body =
            evalWithin settings levels (s.child.bindAll (f.params.zip values)) f.body :=
        fun f values => ih (h.agreeOn_call (f.params.zip values) f.body)
      have integrals : integralForm (fun inner e => evalWithin settings levels inner e) s' args =
          integralForm (fun inner e => evalWithin settings levels inner e) s args :=
        integralForm_congr (fun arg mem => ih (h.argument mem))
          fun arg mem target x => ih ((h.argument mem).sample target (.number x))
      rw [evalWithin, evalWithin, h.functions name, h.natives name]
      simp only [given, bodies, integrals]

/-- Of its caller, the body of a function gets the values of the arguments and nothing else. -/
theorem evalWithin_call_congr {levels : Nat} {name : String} {f : UserFunction}
    {args args' : List Expr} (same : s.SameFunctions s') (found : s.functions.get? name = some f)
    (count : args'.length = args.length)
    (given : args'.mapM (fun arg => evalWithin settings levels s' arg) =
      args.mapM (fun arg => evalWithin settings levels s arg)) :
    evalWithin settings (levels + 1) s' (.call name args') =
      evalWithin settings (levels + 1) s (.call name args) := by
  have bodies : ∀ values : List Value,
      evalWithin settings levels (s'.child.bindAll (f.params.zip values)) f.body =
        evalWithin settings levels (s.child.bindAll (f.params.zip values)) f.body :=
    fun values => evalWithin_eq_of_agreeOn (same.agreeOn_call (f.params.zip values) f.body)
  rw [evalWithin, evalWithin, same.functions name, found]
  simp only [count, given, bodies]

/-! ## Derivatives -/

/-- A derivative depends on what the parts that are kept are folded to. -/
theorem Setting.derive_congr {target : String}
    (folds : ∀ e, Setting.fold ⟨settings, s', target⟩ e = Setting.fold ⟨settings, s, target⟩ e) :
    ∀ (e : Expr) (belowMinus : Bool) (depth : Nat),
      Setting.derive ⟨settings, s', target⟩ belowMinus depth e =
        Setting.derive ⟨settings, s, target⟩ belowMinus depth e
  | .number d, _, _ => by simp only [derive]
  | .variable name none, _, _ => by simp only [derive, deriveVariable]
  | .variable name (some term), _, _ => by simp only [derive, deriveVariable]
  | .signed sign operand, _, _ => by
    have inner := derive_congr folds operand
    simp only [derive, inner]
  | .binary op left right, _, _ => by
    have onLeft := derive_congr folds left
    have onRight := derive_congr folds right
    cases op <;> simp only [derive, powerRule, exponentialRule, folds, onLeft, onRight]
  | .vector items, _, _ => by simp only [derive]
  | .matrix columns, _, _ => by simp only [derive]
  | .definition name params body, _, _ => by simp only [derive]
  | .call name args, _, _ => by simp only [derive]

/-- The derivative of a tree depends on the functions of the scope alone. -/
theorem differentiate_eq_of_sameFunctions (same : s.SameFunctions s') (target : String) (e : Expr) :
    e.differentiate settings s' target = e.differentiate settings s target := by
  have evals : ∀ e : Expr, e.eval settings s'.child = e.eval settings s.child :=
    fun e => evalWithin_eq_of_agreeOn (same.agreeOn_call [] e)
  have folds : ∀ e, Setting.fold ⟨settings, s'.child, target⟩ e =
      Setting.fold ⟨settings, s.child, target⟩ e := fun e => by simp only [Setting.fold, evals]
  have derivatives := Setting.derive_congr folds e false 0
  simp only [differentiate, derivatives, evals]

end Expr

/-! ## Sessions -/

namespace Session

/-- Parsing a text does not look at the scope. -/
theorem parse_withScope (s : Session) (scope : Scope) (text : String) :
    Session.parse { s with scope } text =
      ((s.parse text).1, { (s.parse text).2 with scope }) := by
  unfold parse
  dsimp only
  split
  · rfl
  · split <;> rfl

/-- The derivative of a text is the same whatever the variables of the session are bound to. -/
theorem differentiate_withBindings (s : Session) (bindings : Table Value) (text target : String) :
    (Session.differentiate { s with scope := { s.scope with bindings } } text target).1 =
      (s.differentiate text target).1 := by
  unfold differentiate withTree
  rw [parse_withScope]
  have kept : (s.parse text).2.scope = s.scope := by
    unfold parse
    split
    · rfl
    · split <;> rfl
  rcases parsed : s.parse text with ⟨_ | tree, after⟩
  · rfl
  · rw [parsed] at kept
    exact Expr.differentiate_eq_of_sameFunctions ⟨fun name => by rw [kept], fun name => by rw [kept]⟩
      target tree.tree

end Session

/-! ## What evaluation depends on -/

/-- In scopes with the same functions, a tree has one outcome wherever the names that it mentions are
bound alike, a call has one outcome whenever its arguments have the same values, and a derivative
has one outcome whatever is bound. In a session the variables do not come into a derivative. -/
theorem scoping_is_lexical (settings : Settings) (s s' : Scope) (same : s.SameFunctions s') :
    (∀ e : Expr, (∀ name, e.mentions name = true → s.Agree s' name) →
      e.eval settings s' = e.eval settings s) ∧
    (∀ (levels : Nat) (name : String) (f : UserFunction) (args args' : List Expr),
      s.functions.get? name = some f → args'.length = args.length →
      args'.mapM (fun arg => arg.evalWithin settings levels s') =
        args.mapM (fun arg => arg.evalWithin settings levels s) →
      (Expr.call name args').evalWithin settings (levels + 1) s' =
        (Expr.call name args).evalWithin settings (levels + 1) s) ∧
    (∀ (e : Expr) (target : String),
      e.differentiate settings s' target = e.differentiate settings s target) ∧
    (∀ (session : Session) (bindings : Table Value) (text target : String),
      (Session.differentiate { session with scope := { session.scope with bindings } }
        text target).1 = (session.differentiate text target).1) := by
  refine ⟨fun e names => ?_, fun levels name f args args' found count given => ?_,
    fun e target => ?_, fun session bindings text target => ?_⟩
  · exact Expr.evalWithin_eq_of_agreeOn ⟨same, names⟩
  · exact Expr.evalWithin_call_congr same found count given
  · exact Expr.differentiate_eq_of_sameFunctions same target e
  · exact session.differentiate_withBindings bindings text target

/-- A scope with `f(t) = t * x`, and with a value for `x`. -/
def Scope.scaling (x : Value) : Scope :=
  { Scope.root.bind "x" x with
    functions := ⟨[("f", ⟨"f", ["t"], .binary .multiply (.variable "t" none) (.variable "x" none),
      "f(t) = t * x"⟩)]⟩ }

/-- The `x` in the body of `f` is not the one of the caller: `f(y)` stays the same text whatever `x`
is, and `f(x)` is `f(1)` where `x` is one. The derivative of `x^2` is taken where `x` is unbound. -/
theorem scaling_ignores_caller :
    (Scope.scaling (.number .two)).SameFunctions (Scope.scaling (.number .one)) ∧
    (Expr.call "f" [.variable "y" none]).eval {} (Scope.scaling (.number .one)) =
      .ok (.symbolic "(y * x)") ∧
    (Expr.call "f" [.variable "x" none]).evalWithin {} 3 (Scope.scaling (.number .one)) =
      (Expr.call "f" [.number .one]).evalWithin {} 3 (Scope.scaling (.number .two)) ∧
    (Expr.binary .power (.variable "x" none) (.number .two)).differentiate {}
      (Scope.scaling (.number .one)) "x" = .ok (.symbolic "2x") := by
  have same : (Scope.scaling (.number .two)).SameFunctions (Scope.scaling (.number .one)) :=
    ⟨fun _ => rfl, fun _ => rfl⟩
  have lexical := scoping_is_lexical {} _ _ same
  obtain ⟨onNames, onCalls, onDerivatives, -⟩ := lexical
  have names : ∀ name, (Expr.call "f" [.variable "y" none]).mentions name = true →
      (Scope.scaling (.number .two)).Agree (Scope.scaling (.number .one)) name := by
    intro name mentioned
    simp only [Expr.mentions, Expr.mentionsAny, Bool.or_false, beq_iff_eq] at mentioned
    subst mentioned
    unfold Scope.Agree
    decide +kernel
  refine ⟨same, ?_, ?_, ?_⟩
  · rw [onNames _ names]
    decide +kernel
  · exact onCalls 2 "f" _ [.number .one] [.variable "x" none] (by rfl) rfl (by decide +kernel)
  · rw [onDerivatives]
    decide +kernel

end Reckon
