import Reckon.Proofs.Evaluation.Height
import Reckon.Proofs.Session.Limit
import Reckon.Proofs.Syntax.Concatenation

/-!
# Two ways to an integral

A session can be asked for the integral of a text, or for the value of a text in which the same
integral is written as a call. The call is accepted whenever its body is, whatever the body ends in,
for a comma ends every expression; and where no user function takes the name, both ways have the
same outcome.
-/

namespace Reckon

open Token (Kind Spells isIdentifier)

/-! ## The text of an integral -/

/-- The text of the integral of a text over a variable, the bounds with all their places. -/
def integralText (body name : String) (lower upper : Decimal) : String :=
  "int(" ++ body ++ ", " ++ name ++ ", " ++ lower.text ++ ", " ++ upper.text ++ ")"

/-- The text of an integral is not blank. -/
theorem not_isBlank_integralText (body name : String) (lower upper : Decimal) :
    ¬Text.isBlank (integralText body name lower upper) = true := by
  have letter : 'i' ∈ (integralText body name lower upper).toList := by
    simp only [integralText, String.toList_append, List.append_assoc]
    exact List.mem_append_left _ (by decide)
  exact fun blank => absurd (List.all_eq_true.1 blank 'i' letter) (by decide)

namespace Grammar

/-- An accepted text stands in front of other arguments as the expression that it is. -/
theorem IsPhrase.exists_arguments {text texts : String} {e next : Expr} {args : List Expr}
    {depth : Nat} (h : IsPhrase 1 text e) (others : WritesArguments depth texts (next :: args)) :
    ∃ deeper, WritesArguments deeper (text ++ ", " ++ texts) (e :: next :: args) := by
  obtain ⟨own, front, spells, phrase⟩ := h
  refine ⟨max (own + 1) depth, fun cs ks behind => ?_⟩
  obtain ⟨mid, spellsOthers, list⟩ := others behind
  have comma : EndsOperand (.comma :: mid) := ⟨nofun, nofun, nofun⟩
  have whole : Whole (own + 1) (front ++ .comma :: mid) e (.comma :: mid) :=
    (Whole.intro phrase rfl).append fun _ => ⟨comma, rfl⟩
  have joined := spells.append (Tail.comma spellsOthers).spells
    (Token.endsWord_gap _ (by decide) (by decide) (by decide)) fun _ => nofun
  rw [String.toList_append, String.toList_append, List.append_assoc, List.append_assoc]
  exact ⟨_, joined, .more (whole.mono (Nat.le_max_left _ _)) (list.mono (Nat.le_max_right _ _))⟩

/-- The text of an integral is a call if its body is accepted. -/
theorem isPhrase_integralText {text name : String} {e : Expr} (body : IsPhrase 1 text e)
    (valid : isIdentifier name = true) (lower upper : Decimal) :
    IsPhrase 5 (integralText text name lower upper)
      (.call Expr.integralName [e, .plain name, .ofDecimal lower, .ofDecimal upper]) := by
  have bound (d : Decimal) : WritesWhole 2 d.text (.ofDecimal d) :=
    (Expr.writes_ofDecimal d).whole (by omega) (Nat.le_refl 5)
  have variable' : WritesWhole 2 name (.plain name) :=
    (writes_name 1 valid).whole (by omega) (Nat.le_refl 5)
  obtain ⟨deeper, list⟩ :=
    body.exists_arguments (variable'.arguments ((bound lower).arguments (bound upper).argument))
  have same : integralText text name lower upper = Expr.integralName ++ "(" ++
      (text ++ ", " ++ (name ++ ", " ++ (lower.text ++ ", " ++ upper.text))) ++ ")" := by
    simp only [integralText, Expr.integralName, String.append_assoc]
    rfl
  rw [same]
  exact (list.call (by decide)).isPhrase

end Grammar

/-! ## Outcomes -/

namespace Expr

variable {settings : Settings} {levels : Nat} {s : Scope}

/-- An accepted text is accepted under every limit that does not stop the parser. -/
theorem parse_eq_ok_of_unstopped {limit maxDepth : Nat} {text : String} {e : Expr}
    (accepted : parse limit text = .ok e) (unstopped : Unstopped (parse maxDepth text)) :
    parse maxDepth text = .ok e := by
  have same := cutsOff_eq_iff.1 (cutsOff_parse (Nat.le_max_left maxDepth limit) text) unstopped
  rw [← same, Grammar.parse_eq_ok_of_le accepted (Nat.le_max_right maxDepth limit)]

/-- The tree of a bound has the bound as its value, scale and sign included, or there is no level
left for it. -/
theorem evalWithin_ofDecimal (settings : Settings) (levels : Nat) (s : Scope) (d : Decimal) :
    evalWithin settings levels s (ofDecimal d) = .ok (.number d) ∨
      evalWithin settings levels s (ofDecimal d) = .error (.depthExceeded settings.maxDepth) := by
  cases levels with
  | zero => exact .inr rfl
  | succ levels =>
    rw [ofDecimal]
    split
    · cases levels with
      | zero => exact .inr rfl
      | succ levels => exact .inl (congrArg (fun d => Except.ok (Value.number d)) d.neg_neg)
    · exact .inl rfl

/-- The call has the integral as its value, with all levels but its own left for the body. -/
theorem evalWithin_integral_ofDecimal (free : s.functions.get? integralName = none) (body : Expr)
    (name : String) {lower upper : Decimal}
    (unstopped : Unstopped ((call integralName
      [body, plain name, ofDecimal lower, ofDecimal upper]).evalWithin settings (levels + 1) s)) :
    (call integralName [body, plain name, ofDecimal lower, ofDecimal upper]).evalWithin settings
        (levels + 1) s =
      (integrateWith (fun inner => body.evalWithin settings levels inner) s name lower upper).map
        .number := by
  rw [evalWithin_integral free, plain, integralForm] at unstopped ⊢
  rcases evalWithin_ofDecimal settings levels s lower with low | low
  · rw [low] at unstopped ⊢
    rcases evalWithin_ofDecimal settings levels s upper with high | high
    · rw [high]
      rfl
    · rw [high] at unstopped
      exact absurd rfl (unstopped settings.maxDepth)
  · rw [low] at unstopped
    exact absurd rfl (unstopped settings.maxDepth)

end Expr

/-- Asking for an integral and writing it down as a call come to the same. In a session that any
operations led to, where no user function is called `int`, for every text that the parser accepts
under some limit, every identifier and all bounds: the text of the call is accepted under every
limit that is large enough, and unless one of the two came to the limit of nesting, it has the
outcome of the integral, a value or a fault. -/
theorem integral_text_agrees (settings : Settings) (ops : List Operation) {text name : String}
    (lower upper : Decimal) {limit : Nat} {tree : Expr}
    (accepted : Expr.parse limit text = .ok tree) (valid : isIdentifier name = true)
    (free : ((Session.new settings).after ops).scope.functions.get? "int" = none) :
    (∃ enough, ∀ limit, enough ≤ limit →
      Expr.parse limit (integralText text name lower upper) =
        .ok (.call "int" [tree, .plain name, .ofDecimal lower, .ofDecimal upper])) ∧
      let s := (Session.new settings).after ops
      let asked := (s.perform (.integrate text name lower upper)).1
      let written := (s.perform (.eval (integralText text name lower upper))).1
      Unstopped asked → Unstopped written → written = asked := by
  obtain ⟨enough, whole⟩ := (Grammar.isPhrase_integralText (Grammar.isPhrase_of_parse accepted)
    valid lower upper).exists_parse (by omega) (Nat.le_refl 5)
  refine ⟨⟨enough, whole⟩, ?_⟩
  intro s asked written unstoppedAsked unstoppedWritten
  have faithful : s.Faithful := (Session.faithful_new settings).after ops
  have isAsked : asked = (s.storeless.perform (.integrate text name lower upper)).1 :=
    (faithful.matches_perform _).answer
  have isWritten : written = (s.storeless.perform (.eval (integralText text name lower upper))).1 :=
    (faithful.matches_perform _).answer
  rw [isAsked] at unstoppedAsked ⊢
  rw [isWritten] at unstoppedWritten ⊢
  simp only [Storeless.perform, Storeless.valueWith, if_neg (not_isBlank_integralText _ _ _ _),
    Storeless.withTree_eq] at unstoppedAsked unstoppedWritten ⊢
  have body := Expr.parse_eq_ok_of_unstopped accepted unstoppedAsked.of_map.of_bind
  have call := Expr.parse_eq_ok_of_unstopped (whole enough (Nat.le_refl _))
    unstoppedWritten.of_map.of_bind
  rw [call] at unstoppedWritten ⊢
  rw [body]
  have evaluated : Unstopped ((Expr.call Expr.integralName
      [tree, .plain name, .ofDecimal lower, .ofDecimal upper]).evalWithin s.settings
        (s.settings.maxDepth + 1) s.scope) :=
    Unstopped.of_map (f := Value.rounded s.settings.precision) unstoppedWritten.of_map
  have value := Expr.evalWithin_integral_ofDecimal free tree name evaluated
  have rounded : ∀ area : Except Fault Decimal, (area.map Value.number).map
      (Value.rounded s.settings.precision) =
        area.map fun area => (Value.number area).rounded s.settings.precision := by
    rintro (fault | area) <;> rfl
  exact congrArg (Except.map Answer.value) ((congrArg _ value).trans (rounded _))

/-- The body calls a function of two arguments, which has no value at the lower bound. -/
theorem integral_text_agrees_undefined :
    let ops := [.define "f(a, b) = b / (a + 1.5)", .bind "y" (.number .two)]
    let s := (Session.new {}).after ops
    let lower : Decimal := ⟨true, 150, 2, by decide, by decide⟩
    let asked := (s.perform (.integrate "f(x, y)" "x" lower .two)).1
    let written := (s.perform (.eval "int(f(x, y), x, -1.50, 2)")).1
    (∃ tree, Expr.parse 16 "f(x, y)" = .ok tree) ∧ isIdentifier "x" = true ∧
      s.scope.functions.get? "int" = none ∧ Unstopped asked ∧ Unstopped written ∧
      written = asked := by
  intro ops s lower asked written
  let body : Expr := .call "f" [.plain "x", .plain "y"]
  let tree : Expr := .call "int" [body, .plain "x", .ofDecimal lower, .number .two]
  have parsed : Expr.parse 16 "f(x, y)" = .ok body := by decide +kernel
  have valid : isIdentifier "x" = true := by decide
  have free : s.scope.functions.get? "int" = none := by decide +kernel
  have text : integralText "f(x, y)" "x" lower .two = "int(f(x, y), x, -1.50, 2)" := by decide
  have limit : s.storeless.settings.maxDepth = 1024 := by decide +kernel
  have answered : (s.perform (.integrate "f(x, y)" "x" lower .two)).1 =
      .error (.arithmetic .divisionByZero) := by decide +kernel
  have evaluated : tree.evalWithin s.settings 1025 s.scope =
      .error (.arithmetic .divisionByZero) := by decide +kernel
  have unstoppedWritten : Unstopped written := by
    have read : Expr.parse 1024 "int(f(x, y), x, -1.50, 2)" = .ok tree := by decide +kernel
    have faithful : s.Faithful := (Session.faithful_new {}).after ops
    have same : written =
        (s.storeless.perform (.eval (integralText "f(x, y)" "x" lower .two))).1 :=
      text ▸ (faithful.matches_perform _).answer
    rw [same, Storeless.perform, Storeless.valueWith, if_neg (not_isBlank_integralText _ _ _ _),
      Storeless.withTree_eq, text, limit, read]
    have evaluates : s.evalTree tree = .error (.arithmetic .divisionByZero) := by
      rw [Session.evalTree, Session.evalTreeIn, Expr.eval,
        show s.settings.maxDepth = 1024 from limit, evaluated]
      rfl
    have outcome := congrArg (Except.map Answer.value) evaluates
    exact outcome ▸ unstopped_arithmetic _
  have unstoppedAsked : Unstopped asked := by
    rw [show asked = _ from answered]
    exact unstopped_arithmetic _
  have agree := (integral_text_agrees {} ops lower .two parsed valid free).2 unstoppedAsked
  rw [text] at agree
  exact ⟨⟨body, parsed⟩, valid, free, unstoppedAsked, unstoppedWritten, agree unstoppedWritten⟩

end Reckon
