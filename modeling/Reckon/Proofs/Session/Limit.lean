import Reckon.Proofs.Evaluation.SideBySide
import Reckon.Proofs.Session.Store
import Reckon.Proofs.Syntax.Limit

/-!
# A greater limit

The limit on nesting only cuts off. What is parsed, evaluated or differentiated under a limit, and
does not end because a limit was exceeded, has the same outcome under every greater one, whether it
is a value or a fault. So has every operation of a session, and a session that never came to its limit
answers in the same way from the first operation to the last.
-/

namespace Reckon

namespace Expr

variable {settings : Settings} {limit : Nat} {scope : Scope} {target : String}

/-- A text is read or refused in the same way, unless the smaller limit stopped it. -/
theorem cutsOff_parse {maxDepth : Nat} (le : maxDepth ≤ limit) (text : String) :
    CutsOff Eq Eq (parse maxDepth text) (parse limit text) := by
  refine cutsOff_eq_iff.2 fun unstopped => ?_
  unfold parse at unstopped ⊢
  split
  · rfl
  · next tokens isCut =>
    simp only [isCut] at unstopped
    exact ofTokens_eq_of_le le unstopped

/-- With at least as many levels an evaluation takes the same steps, up to the point where it was
stopped without a level left. -/
theorem cutsOff_evalWithin (settings : Settings) (limit : Nat) {levels more : Nat}
    (le : levels ≤ more) (scope : Scope) (e : Expr) :
    CutsOff Eq Eq (evalWithin settings levels scope e)
      (evalWithin (settings.withMaxDepth limit) more scope e) := by
  obtain ⟨extra, rfl⟩ := Nat.exists_eq_add_of_le le
  have angle : (settings.withMaxDepth limit).angle = settings.angle := rfl
  have limits : ∀ s e, CutsOff Eq Eq (.error (.depthExceeded settings.maxDepth))
      (evalWithin (settings.withMaxDepth limit) extra s e) :=
    fun _ _ unstopped => absurd rfl (unstopped settings.maxDepth)
  exact (lifts_cutsOff Eq).evalWithin (fun _ => rfl) angle limits levels scope e

/-- A greater limit only lets an evaluation go on that was stopped. -/
theorem cutsOff_eval (le : settings.maxDepth ≤ limit) (scope : Scope) (e : Expr) :
    CutsOff Eq Eq (e.eval settings scope) (e.eval (settings.withMaxDepth limit) scope) :=
  cutsOff_evalWithin settings limit (Nat.succ_le_succ le) scope e

/-! ## Derivatives -/

namespace Setting

/-- The same setting under another limit. -/
def withMaxDepth (s : Setting) (limit : Nat) : Setting :=
  { s with settings := s.settings.withMaxDepth limit }

variable {s : Setting}

/-- A greater limit only lets a part be folded that was stopped. -/
theorem cutsOff_fold (le : s.settings.maxDepth ≤ limit) (e : Expr) :
    CutsOff Eq Eq (s.fold e) ((s.withMaxDepth limit).fold e) := by
  rw [fold_eq, fold_eq]
  exact (cutsOff_eval le s.scope e).bind fun _ => .refl _

/-- A greater limit only lets the power rule go on that was stopped. -/
theorem cutsOff_powerRule (le : s.settings.maxDepth ≤ limit) (base exponent : Expr) :
    CutsOff Eq Eq (s.powerRule base exponent) ((s.withMaxDepth limit).powerRule base exponent) := by
  refine (cutsOff_fold le exponent).bind fun n => ?_
  have behind : ∀ m, CutsOff Eq Eq (s.fold base >>= fun b => .ok (times n (toThe b m)))
      ((s.withMaxDepth limit).fold base >>= fun b => .ok (times n (toThe b m))) :=
    fun m => (cutsOff_fold le base).bind fun _ => .refl _
  cases n with
  | number d => exact (CutsOff.refl ((lessOne d).map ofNumber)).bind behind
  | _ => exact behind _

/-- A greater limit only lets the rule for exponentials go on that was stopped. -/
theorem cutsOff_exponentialRule (le : s.settings.maxDepth ≤ limit) (base exponent : Expr) :
    CutsOff Eq Eq (s.exponentialRule base exponent)
      ((s.withMaxDepth limit).exponentialRule base exponent) := by
  refine (cutsOff_fold le base).bind fun b => ?_
  refine (cutsOff_fold le (.call "ln" [b])).bind fun ln => ?_
  exact (cutsOff_fold le exponent).bind fun _ => .refl _

/-- The derivative is put together in the same way, up to the point where the smaller limit stopped
the recursion or an evaluation inside it. It may start deeper by as many levels as the limit is
greater. -/
theorem cutsOff_derive (le : s.settings.maxDepth ≤ limit) : ∀ (e : Expr) (belowMinus : Bool)
    (depth deeper : Nat), s.settings.maxDepth + deeper ≤ limit + depth →
      CutsOff Eq Eq (s.derive belowMinus depth e)
        ((s.withMaxDepth limit).derive belowMinus deeper e) := by
  intro e belowMinus depth deeper room
  by_cases high : s.settings.maxDepth < depth
  · intro unstopped
    unfold derive at unstopped
    rw [if_pos high] at unstopped
    exact absurd rfl (unstopped s.settings.maxDepth)
  · have low : ¬(s.withMaxDepth limit).settings.maxDepth < deeper := by
      change ¬limit < deeper
      omega
    have below : s.settings.maxDepth + (deeper + 1) ≤ limit + (depth + 1) := by omega
    have named : (s.withMaxDepth limit).variableName = s.variableName := rfl
    unfold derive
    rw [if_neg high, if_neg low]
    cases e with
    | number d => exact .refl _
    | «variable» name term => cases term <;> exact .refl _
    | signed sign operand =>
      exact (cutsOff_derive le operand _ _ _ below).bind fun _ => .refl _
    | binary op left right =>
      have onLeft := cutsOff_derive le left false _ _ below
      have onRight := cutsOff_derive le right false _ _ below
      cases op with
      | add => exact onLeft.bind fun df => onRight.bind fun _ => .refl _
      | subtract => exact onLeft.bind fun df => onRight.bind fun _ => .refl _
      | multiply =>
        refine (cutsOff_fold le left).bind fun f => (cutsOff_fold le right).bind fun g => ?_
        exact onLeft.bind fun df => onRight.bind fun _ => .refl _
      | divide =>
        refine (cutsOff_fold le left).bind fun f => (cutsOff_fold le right).bind fun g => ?_
        refine onLeft.bind fun df => ?_
        rw [named]
        cases right.mentions s.variableName with
        | false => exact .refl _
        | true => exact onRight.bind fun _ => .refl _
      | power =>
        dsimp only
        rw [named]
        cases left.mentions s.variableName with
        | false =>
          cases right.mentions s.variableName with
          | false => exact .refl _
          | true => exact (cutsOff_exponentialRule le left right).bind fun _ =>
              onRight.bind fun _ => .refl _
        | true =>
          cases right.mentions s.variableName with
          | false => exact (cutsOff_powerRule le left right).bind fun _ =>
              onLeft.bind fun _ => .refl _
          | true => exact .refl _
      | _ => exact .refl _
    | vector items => exact .refl _
    | matrix columns => exact .refl _
    | definition name params body => exact .refl _
    | call name args => exact .refl _

end Setting

/-- A greater limit only lets a differentiation go on that was stopped. -/
theorem cutsOff_differentiate (le : settings.maxDepth ≤ limit) (scope : Scope) (target : String)
    (e : Expr) : CutsOff Eq Eq (e.differentiate settings scope target)
      (e.differentiate (settings.withMaxDepth limit) scope target) := by
  have derivatives := Setting.cutsOff_derive (s := ⟨settings, scope.child, target⟩) le e false 0 0
    (Nat.add_le_add_right le 0)
  refine derivatives.bind fun derivative => ?_
  exact (cutsOff_eval le scope.child derivative).bind fun _ => .refl _

/-- An integral asks for a sample at the same places, and each is cut off or the same. -/
theorem cutsOff_integrateWith {eval eval' : Scope → Except Fault Value}
    (samples : ∀ inner, CutsOff Eq Eq (eval inner) (eval' inner)) (scope : Scope) (target : String)
    (low high : Decimal) : CutsOff Eq Eq (integrateWith eval scope target low high)
      (integrateWith eval' scope target low high) := by
  rw [integrateWith_eq, integrateWith_eq]
  refine (lifts_cutsOff Eq).simpson (fun _ => rfl) keptByArithmetic_eq ?_ rfl rfl
  rintro x _ _ rfl
  exact (samples _).bind fun _ => .refl _

end Expr

/-! ## Operations -/

namespace Storeless

/-- The same evaluator under another limit. -/
def withMaxDepth (s : Storeless) (limit : Nat) : Storeless :=
  { s with settings := s.settings.withMaxDepth limit }

variable {s : Storeless} {limit : Nat}

/-- An operation on the tree of a text parses the text and works on the tree. -/
theorem withTree_eq {α : Type} (s : Storeless) (text : String)
    (f : Session → Expr → Except Fault α) :
    s.withTree text f = Expr.parse s.settings.maxDepth text >>= fun tree => f s.session tree := by
  rw [withTree]
  cases Expr.parse s.settings.maxDepth text <;> rfl

/-- A greater limit only lets an operation on a text go on that was stopped, if it is so for trees.
-/
theorem cutsOff_withTree {α : Type} {f : Session → Expr → Except Fault α}
    (le : s.settings.maxDepth ≤ limit)
    (trees : ∀ e, CutsOff Eq Eq (f s.session e) (f (s.withMaxDepth limit).session e))
    (text : String) : CutsOff Eq Eq (s.withTree text f) ((s.withMaxDepth limit).withTree text f) := by
  rw [withTree_eq, withTree_eq]
  exact (Expr.cutsOff_parse le text).bind trees

/-- A greater limit only lets the value of a text be found where it was stopped, if it is so for
trees. -/
theorem cutsOff_valueWith {f : Session → Expr → Except Fault Value}
    (le : s.settings.maxDepth ≤ limit)
    (trees : ∀ e, CutsOff Eq Eq (f s.session e) (f (s.withMaxDepth limit).session e))
    (text : String) :
    CutsOff Eq Eq (s.valueWith text f) ((s.withMaxDepth limit).valueWith text f) := by
  unfold valueWith
  split
  · exact .refl _
  · exact cutsOff_withTree le trees text

/-- A greater limit only lets a session evaluate a tree where it was stopped. -/
theorem cutsOff_evalTree (le : s.settings.maxDepth ≤ limit) (e : Expr) :
    CutsOff Eq Eq (s.session.evalTree e) ((s.withMaxDepth limit).session.evalTree e) :=
  (Expr.cutsOff_eval le s.scope e).map _

/-- A matrix is made of the values of its columns, evaluated from left to right. -/
theorem matrixOfTree_matrix (s : Session) (columns : List Expr) :
    s.matrixOfTree (.matrix columns) =
      columns.mapM s.columnValues >>= fun values => ValueMatrix.ofColumns values := by
  rw [Session.matrixOfTree]
  cases columns.mapM s.columnValues <;> rfl

/-- A greater limit only lets a matrix be evaluated where it was stopped. -/
theorem cutsOff_matrixOfTree (le : s.settings.maxDepth ≤ limit) (e : Expr) :
    CutsOff Eq Eq (s.session.matrixOfTree e) ((s.withMaxDepth limit).session.matrixOfTree e) := by
  have column : ∀ part, CutsOff Eq Eq (s.session.columnValues part)
      ((s.withMaxDepth limit).session.columnValues part) := by
    intro part
    cases part with
    | vector items => exact CutsOff.mapM (fun item => cutsOff_evalTree le item) items
    | _ => exact .refl _
  cases e with
  | matrix columns =>
    rw [matrixOfTree_matrix, matrixOfTree_matrix]
    exact (CutsOff.mapM column columns).bind fun _ => .refl _
  | _ => exact .refl _

/-- A definition is the function that the text of a definition gives, and other text is refused. -/
theorem definitionOf_eq (s : Session) (text : String) :
    s.definitionOf text = Expr.parse s.settings.maxDepth text >>= fun
      | .definition name params body => .ok ⟨name, params, body, Text.trim text⟩
      | other => .error (.parse (.notADefinition other.kind) 0) := by
  rw [Session.definitionOf]
  cases Expr.parse s.settings.maxDepth text with
  | error fault => rfl
  | ok e => cases e <;> rfl

/-- A greater limit only lets a definition be read where it was stopped. -/
theorem cutsOff_definitionOf (le : s.settings.maxDepth ≤ limit) (text : String) :
    CutsOff Eq Eq (s.session.definitionOf text)
      ((s.withMaxDepth limit).session.definitionOf text) := by
  rw [definitionOf_eq, definitionOf_eq]
  exact (Expr.cutsOff_parse le text).bind fun _ => .refl _

/-- Defining a function reads its definition and then adds it to the scope. -/
theorem perform_define (s : Storeless) (text : String) :
    (s.perform (.define text)).1 = s.session.definitionOf text >>= fun f =>
      s.scope.define f >>= fun _ => .ok (.function f) := by
  rw [perform]
  cases s.session.definitionOf text with
  | error fault => rfl
  | ok f =>
    dsimp only [bind, Except.bind]
    cases s.scope.define f <;> rfl

/-- An operation has the same answer under a greater limit, unless the smaller one stopped it. -/
theorem cutsOff_perform (le : s.settings.maxDepth ≤ limit) (op : Operation) :
    CutsOff Eq Eq (s.perform op).1 ((s.withMaxDepth limit).perform op).1 := by
  cases op with
  | eval text => exact (cutsOff_valueWith le (cutsOff_evalTree le) text).map _
  | evalWith text bindings =>
    refine (cutsOff_valueWith le (fun e => ?_) text).map _
    exact (Expr.cutsOff_eval le _ e).map _
  | parse text => exact (Expr.cutsOff_parse le text).map _
  | define text =>
    rw [perform_define, perform_define]
    exact (cutsOff_definitionOf le text).bind fun _ => .refl _
  | bind | unbind | setPrecision | setAngle | register => exact .refl _
  | differentiate text target =>
    refine (cutsOff_withTree le (fun e => ?_) text).map _
    exact Expr.cutsOff_differentiate le s.scope target e
  | integrate text target lower upper =>
    refine (cutsOff_withTree le (fun e => ?_) text).map _
    refine (Expr.cutsOff_integrateWith (fun inner => ?_) s.scope target lower upper).map _
    exact Expr.cutsOff_evalWithin s.settings limit le inner e
  | matrix text => exact (cutsOff_withTree le (cutsOff_matrixOfTree le) text).map _

/-- No operation changes the limit. -/
theorem maxDepth_perform (s : Storeless) (op : Operation) :
    (s.perform op).2.settings.maxDepth = s.settings.maxDepth := by
  cases op with
  | define text =>
    rw [perform]
    cases s.session.definitionOf text with
    | error fault => rfl
    | ok f =>
      dsimp only
      cases s.scope.define f <;> rfl
  | _ => rfl

/-- It also leaves the same behind, apart from the limit. -/
theorem perform_withMaxDepth_snd (le : s.settings.maxDepth ≤ limit) {op : Operation}
    (unstopped : Unstopped (s.perform op).1) :
    ((s.withMaxDepth limit).perform op).2 = (s.perform op).2.withMaxDepth limit := by
  cases op with
  | define text =>
    rw [perform_define] at unstopped
    have read : Unstopped (s.session.definitionOf text) :=
      fun number stopped => unstopped number (by rw [stopped]; rfl)
    have same := cutsOff_eq_iff.1 (cutsOff_definitionOf le text) read
    have sameScope : (s.withMaxDepth limit).scope = s.scope := rfl
    simp only [perform, same, sameScope]
    cases s.session.definitionOf text with
    | error fault => rfl
    | ok f =>
      dsimp only
      cases s.scope.define f <;> rfl
  | _ => rfl

/-- A run in which nothing was stopped has the same answers under a greater limit. -/
theorem answers_withMaxDepth {ops : List Operation} (le : s.settings.maxDepth ≤ limit)
    (unstopped : ∀ answer ∈ s.answers ops, Unstopped answer) :
    (s.withMaxDepth limit).answers ops = s.answers ops := by
  induction ops generalizing s with
  | nil => rfl
  | cons op ops ih =>
    rw [answers, List.forall_mem_cons] at unstopped
    have kept : (s.perform op).2.settings.maxDepth = s.settings.maxDepth := maxDepth_perform s op
    rw [answers, answers, cutsOff_eq_iff.1 (cutsOff_perform le op) unstopped.1,
      perform_withMaxDepth_snd le unstopped.1, ih (kept ▸ le) unstopped.2]

/-- A session without anything stored keeps nothing that it would not compute. -/
theorem faithful_session (s : Storeless) : s.session.Faithful :=
  fun _ mem => nomatch mem

end Storeless

/-! ## Sessions -/

namespace Session

/-- The second session has the settings and the scope of the first one, but for a limit that is at
least as great. What they keep in their stores may differ. -/
structure RaisesLimit (s s' : Session) : Prop where
  le : s.settings.maxDepth ≤ s'.settings.maxDepth
  settings : s'.settings = s.settings.withMaxDepth s'.settings.maxDepth
  scope : s'.scope = s.scope
  faithful : s.Faithful
  faithful' : s'.Faithful

/-- Without their stores, the two sessions differ in the limit alone. -/
theorem RaisesLimit.storeless_eq {s s' : Session} (h : s.RaisesLimit s') :
    s'.storeless = s.storeless.withMaxDepth s'.settings.maxDepth := by
  rw [storeless, h.scope, h.settings]
  rfl

end Session

/-- The limit on nesting only cuts off. Of two sessions with the same settings and the same scope,
except that the second one has a limit at least as great, whatever the first one parses, evaluates,
differentiates or does at all without being stopped has the same outcome in the second one, and so
has a whole run in which nothing was stopped. -/
theorem limit_only_cuts_off {s s' : Session} (raised : s.RaisesLimit s') :
    (∀ text, Unstopped (Expr.parse s.settings.maxDepth text) →
      Expr.parse s'.settings.maxDepth text = Expr.parse s.settings.maxDepth text) ∧
    (∀ (scope : Scope) (e : Expr), Unstopped (e.eval s.settings scope) →
      e.eval s'.settings scope = e.eval s.settings scope) ∧
    (∀ (scope : Scope) (target : String) (e : Expr),
      Unstopped (e.differentiate s.settings scope target) →
      e.differentiate s'.settings scope target = e.differentiate s.settings scope target) ∧
    (∀ op, Unstopped (s.perform op).1 → (s'.perform op).1 = (s.perform op).1) ∧
    (∀ ops, (∀ answer ∈ s.answers ops, Unstopped answer) → s'.answers ops = s.answers ops) := by
  have le := raised.le
  have storeless := raised.storeless_eq
  refine ⟨fun text => ?_, fun scope e => ?_, fun scope target e => ?_, fun op => ?_, fun ops => ?_⟩
  · exact cutsOff_eq_iff.1 (Expr.cutsOff_parse le text)
  · rw [raised.settings]
    exact cutsOff_eq_iff.1 (Expr.cutsOff_eval le scope e)
  · rw [raised.settings]
    exact cutsOff_eq_iff.1 (Expr.cutsOff_differentiate le scope target e)
  · rw [(raised.faithful.matches_perform op).answer, (raised.faithful'.matches_perform op).answer,
      storeless]
    exact cutsOff_eq_iff.1 (Storeless.cutsOff_perform le op)
  · rw [raised.faithful.answers_eq, raised.faithful'.answers_eq, storeless]
    exact Storeless.answers_withMaxDepth le

/-- A session with the limit 3, a function that doubles its argument and one that never ends. -/
def Session.endless : Session :=
  (Session.new { maxDepth := 3 }).after [.define "f(t) = t * 2", .define "g(t) = g(t)"]

/-- Under the limit 3 the call `g(1)` is stopped, while `f(3)` has a value, `h(1)` a fault of its own
and `x^2` a derivative. These three are the same under the limit 8. -/
theorem limit_only_cuts_off_endless :
    (Session.endless.perform (.eval "g(1)")).1 = .error (.depthExceeded 3) ∧
    Session.endless.RaisesLimit (Session.endless.storeless.withMaxDepth 8).session ∧
    (∀ answer ∈ Session.endless.answers
      [.eval "f(3)", .eval "h(1)", .differentiate "x^2" "x"], Unstopped answer) ∧
    (Session.endless.storeless.withMaxDepth 8).session.answers
        [.eval "f(3)", .eval "h(1)", .differentiate "x^2" "x"] =
      Session.endless.answers [.eval "f(3)", .eval "h(1)", .differentiate "x^2" "x"] := by
  have stopped : (Session.endless.perform (.eval "g(1)")).1 = .error (.depthExceeded 3) := by
    decide +kernel
  have answers : Session.endless.answers
      [.eval "f(3)", .eval "h(1)", .differentiate "x^2" "x"] =
      [.ok (.value (.number ⟨false, 6, 0, by decide, by decide⟩)), .error (.unresolvedFunction "h"),
        .ok (.value (.symbolic "2x"))] := by decide +kernel
  have unstopped : ∀ answer ∈ Session.endless.answers
      [.eval "f(3)", .eval "h(1)", .differentiate "x^2" "x"], Unstopped answer := by
    rw [answers]
    simp [Unstopped]
  have limit : Session.endless.settings.maxDepth ≤ 8 := by
    have three : Session.endless.settings.maxDepth = 3 := by decide +kernel
    rw [three]
    decide
  have raised : Session.endless.RaisesLimit (Session.endless.storeless.withMaxDepth 8).session :=
    ⟨limit, rfl, rfl, (Session.faithful_new _).after _, Storeless.faithful_session _⟩
  exact ⟨stopped, raised, unstopped, (limit_only_cuts_off raised).2.2.2.2 _ unstopped⟩

end Reckon
