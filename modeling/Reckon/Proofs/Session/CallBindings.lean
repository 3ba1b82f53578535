import Reckon.Proofs.Evaluation.Scoping
import Reckon.Proofs.Session.Store

/-!
# Names bound for one evaluation

A text can be evaluated with some names bound for this once. It has the outcome then that it has
after these names are bound in the root, with one exception: a constant that was taken out of the
root is bound again for the one evaluation, and not in the root. So the outcome is that in a root to
which the missing constants and then the names were added, and no constant has to be added if the
text mentions none that is missing.
-/

namespace Reckon

namespace Table

variable {α : Type}

/-- Names that are bound once, one after the other, are bound as in the list of them. -/
theorem get?_insertAll_empty {entries : List (String × α)} (distinct : (entries.map Prod.fst).Nodup)
    (name : String) : (empty.insertAll entries).get? name = entries.lookup name := by
  induction entries with
  | nil => rfl
  | cons entry entries ih =>
    rw [List.map_cons, List.nodup_cons] at distinct
    have others := ih distinct.2
    change ((empty.insert entry.1 entry.2).insertAll entries).get? name = _
    rw [get?_insertAll, others, get?_insert, List.lookup_cons]
    by_cases same : name = entry.1
    · subst same
      have absent : entries.lookup entry.1 = none := by
        rw [List.lookup_eq_none_iff]
        intro other mem
        have differ : entry.1 ≠ other.1 := fun same =>
          distinct.1 (same ▸ List.mem_map_of_mem mem)
        exact bne_iff_ne.2 differ
      rw [absent, if_pos rfl, beq_self_eq_true, Option.none_or]
    · rw [if_neg same, beq_eq_false_iff_ne.2 same, get?_empty, Option.or_none]

/-- Leaving entries out by their names leaves out what is found under these names. -/
theorem lookup_filter (entries : List (String × α)) (keep : String → Bool) (name : String) :
    (entries.filter fun entry => keep entry.1).lookup name =
      if keep name then entries.lookup name else none := by
  induction entries with
  | nil => simp
  | cons entry entries ih =>
    rw [List.filter_cons, List.lookup_cons]
    by_cases same : name = entry.1
    · subst same
      rw [beq_self_eq_true]
      split
      · rw [List.lookup_cons, beq_self_eq_true]
      · next dropped => rw [ih, if_neg dropped]
    · rw [beq_eq_false_iff_ne.2 same, ← ih]
      split
      · rw [List.lookup_cons, beq_eq_false_iff_ne.2 same]
      · rfl

end Table

namespace Scope

/-! ## Scopes for one evaluation -/

/-- The constants that a scope does not bind, with their values. -/
def missingConstants (s : Scope) : List (String × Value) :=
  constants.entries.filter fun entry => !s.bindings.contains entry.1

variable {s : Scope} {name : String}

/-- Among the missing constants are those that the scope does not bind. -/
theorem get?_insertAll_missingConstants (s : Scope) (name : String) :
    (Table.empty.insertAll s.missingConstants).get? name =
      if s.bindings.contains name then none else constants.get? name := by
  have distinct : (s.missingConstants.map Prod.fst).Nodup := by
    have all : (constants.entries.map Prod.fst).Nodup := by decide
    exact all.sublist (List.filter_sublist.map Prod.fst)
  rw [Table.get?_insertAll_empty distinct, missingConstants,
    Table.lookup_filter constants.entries fun name => !s.bindings.contains name]
  cases s.bindings.contains name <;> rfl

/-- With the missing constants added, a scope binds what a scope that inherits from it binds. -/
theorem binding?_bindAll_missingConstants (s : Scope) (name : String) :
    (s.bindAll s.missingConstants).binding? name = s.inherit.binding? name := by
  have added := Table.get?_insertAll s.bindings s.missingConstants name
  rw [get?_insertAll_missingConstants] at added
  rw [binding?_inherit]
  change (s.bindings.insertAll s.missingConstants).get? name =
    (s.bindings.get? name).or (constants.get? name)
  rw [added, Table.contains]
  cases s.bindings.get? name with
  | none => exact Option.or_none
  | some value => rfl

/-- A scope that inherits agrees with the root on every name that is not a missing constant. -/
theorem agree_inherit (s : Scope) {bindings : List (String × Value)} {name : String}
    (bound : constants.contains name = true → s.binding? name = none →
      name ∈ bindings.map Prod.fst) :
    (s.inherit.bindAll bindings).Agree (s.bindAll bindings) name := by
  change (s.bindings.insertAll bindings).get? name =
    (s.inherit.bindings.insertAll bindings).get? name
  by_cases isGiven : name ∈ bindings.map Prod.fst
  · have isBound : (Table.empty.insertAll bindings).contains name = true :=
      (Table.contains_insertAll Table.empty bindings name).2 (.inr isGiven)
    obtain ⟨value, given⟩ := Option.isSome_iff_exists.1 isBound
    rw [Table.get?_insertAll, Table.get?_insertAll s.inherit.bindings, given]
    rfl
  · refine Table.get?_insertAll_congr ?_ bindings
    change s.binding? name = s.inherit.binding? name
    rw [binding?_inherit]
    cases own : s.binding? name with
    | some value => rfl
    | none =>
      cases constant : constants.get? name with
      | none => rfl
      | some value =>
        have isConstant : constants.contains name = true := by rw [Table.contains, constant]; rfl
        exact absurd (bound isConstant own) isGiven

end Scope

/-! ## Sessions -/

namespace Session

/-- Binding some names in the root, one after the other. -/
def binds (bindings : List (String × Value)) : List Operation :=
  bindings.map fun entry => .bind entry.1 entry.2

variable {s : Session}

/-- After some names are bound, a session differs in these bindings alone. -/
theorem storeless_after_binds (s : Session) (bindings : List (String × Value)) :
    (s.after (binds bindings)).storeless = ⟨s.settings, s.scope.bindAll bindings⟩ := by
  induction bindings generalizing s with
  | nil => rfl
  | cons entry bindings ih => exact ih (s.bind entry.1 entry.2)

/-- Two sessions with the same settings answer with what the tree of a text evaluates to. -/
theorem valueWith_congr {settings : Settings} {scope scope' : Scope} {text : String}
    {f f' : Session → Expr → Except Fault Value}
    (same : ∀ tree, Expr.parse settings.maxDepth text = .ok tree →
      f' (Storeless.mk settings scope').session tree = f (Storeless.mk settings scope).session tree) :
    (Storeless.mk settings scope').valueWith text f' =
      (Storeless.mk settings scope).valueWith text f := by
  unfold Storeless.valueWith Storeless.withTree
  split
  · rfl
  · dsimp only
    cases parsed : Expr.parse settings.maxDepth text with
    | error fault => rfl
    | ok tree => exact same tree parsed

/-- If every missing constant that a text mentions is among the names bound for this once, the text
is evaluated as if the names were bound in the root. -/
theorem Faithful.answer_evalWith (h : s.Faithful) {text : String}
    {bindings : List (String × Value)}
    (bound : ∀ tree name, Expr.parse s.settings.maxDepth text = .ok tree →
      tree.mentions name = true → Scope.constants.contains name = true →
        s.scope.binding? name = none → name ∈ bindings.map Prod.fst) :
    (s.perform (.evalWith text bindings)).1 =
      ((s.after (binds bindings)).perform (.eval text)).1 := by
  rw [(h.matches_perform _).answer, ((h.after _).matches_perform _).answer, storeless_after_binds]
  refine congrArg (Except.map Answer.value) (valueWith_congr fun tree parsed => ?_).symm
  have agree : (s.scope.inherit.bindAll bindings).AgreeOn (s.scope.bindAll bindings) tree :=
    ⟨⟨fun _ => rfl, fun _ => rfl⟩, fun name mentioned =>
      s.scope.agree_inherit (bound tree name parsed mentioned)⟩
  exact congrArg _ (Expr.evalWithin_eq_of_agreeOn agree)

/-- The constants that are missing in the root are there when names are bound for one evaluation. -/
theorem Faithful.answer_evalWith_of_missingConstants (h : s.Faithful) (text : String)
    (bindings : List (String × Value)) :
    (s.perform (.evalWith text bindings)).1 =
      ((s.after (binds s.scope.missingConstants)).perform (.evalWith text bindings)).1 := by
  rw [(h.matches_perform _).answer, ((h.after _).matches_perform _).answer, storeless_after_binds]
  refine congrArg (Except.map Answer.value) (valueWith_congr fun tree parsed => ?_).symm
  have agree : (s.scope.inherit.bindAll bindings).AgreeOn
      ((s.scope.bindAll s.scope.missingConstants).inherit.bindAll bindings) tree := by
    refine ⟨⟨fun _ => rfl, fun _ => rfl⟩, fun name _ => ?_⟩
    refine Table.get?_insertAll_congr ?_ bindings
    change (s.scope.bindAll s.scope.missingConstants).inherit.binding? name =
      s.scope.inherit.binding? name
    rw [Scope.binding?_inherit, Scope.binding?_bindAll_missingConstants, Scope.binding?_inherit,
      Option.or_assoc]
    cases Scope.constants.get? name <;> rfl
  exact congrArg _ (Expr.evalWithin_eq_of_agreeOn agree)

/-- Once the missing constants were added, none is missing. -/
theorem isSome_binding?_after_missingConstants (s : Session) {name : String}
    (constant : Scope.constants.contains name = true) :
    ((s.after (binds s.scope.missingConstants)).scope.binding? name).isSome = true := by
  have scope : (s.after (binds s.scope.missingConstants)).scope =
      s.scope.bindAll s.scope.missingConstants :=
    congrArg Storeless.scope (storeless_after_binds s s.scope.missingConstants)
  rw [scope, Scope.binding?_bindAll_missingConstants, Scope.binding?_inherit, Option.isSome_or]
  exact Bool.or_eq_true_iff.2 (.inr constant)

end Session

/-- In a session that any operations led to, a text with names bound for this once has the answer
that it has once the missing constants and then these names are bound in the root. The missing
constants need not be bound if the text mentions none of them but those among the names; without
missing constants, an evaluation with no names bound is like any other. -/
theorem evalWith_binds_in_root (settings : Settings) (ops : List Operation) (text : String)
    (bindings : List (String × Value)) :
    let s := (Session.new settings).after ops
    (s.perform (.evalWith text bindings)).1 =
        (((s.after (Session.binds s.scope.missingConstants)).after
          (Session.binds bindings)).perform (.eval text)).1 ∧
      ((∀ tree name, Expr.parse s.settings.maxDepth text = .ok tree → tree.mentions name = true →
          Scope.constants.contains name = true → s.scope.binding? name = none →
            name ∈ bindings.map Prod.fst) →
        (s.perform (.evalWith text bindings)).1 =
          ((s.after (Session.binds bindings)).perform (.eval text)).1) := by
  intro s
  have faithful : s.Faithful := (Session.faithful_new settings).after ops
  refine ⟨?_, faithful.answer_evalWith⟩
  rw [faithful.answer_evalWith_of_missingConstants]
  refine (faithful.after _).answer_evalWith fun _ name _ _ constant missing => ?_
  have bound := s.isSome_binding?_after_missingConstants constant
  rw [missing] at bound
  cases bound

/-- A constant is missing, but the text does not mention it; a name is bound for this once. -/
theorem evalWith_binds_in_root_of_unbound :
    let s := (Session.new {}).after [.unbind "pi", .bind "x" (.number .one)]
    (∀ tree name, Expr.parse s.settings.maxDepth "x + e" = .ok tree →
      tree.mentions name = true → Scope.constants.contains name = true →
        s.scope.binding? name = none → name ∈ [("x", Value.number .two)].map Prod.fst) ∧
    (s.perform (.evalWith "x + e" [("x", .number .two)])).1 =
      ((s.after (Session.binds [("x", .number .two)])).perform (.eval "x + e")).1 := by
  intro s
  have bound : ∀ tree name, Expr.parse s.settings.maxDepth "x + e" = .ok tree →
      tree.mentions name = true → Scope.constants.contains name = true →
        s.scope.binding? name = none → name ∈ [("x", Value.number .two)].map Prod.fst := by
    intro tree name parsed mentioned _ missing
    have read : Expr.parse 1024 "x + e" =
        .ok (.binary .add (.plain "x") (.plain "e")) := by decide +kernel
    cases read.symm.trans parsed
    have names : "x" = name ∨ "e" = name := by
      simpa [Expr.mentions, Expr.plain] using mentioned
    rcases names with rfl | rfl
    · exact List.mem_cons_self
    · cases missing
  exact ⟨bound, (evalWith_binds_in_root {} _ "x + e" _).2 bound⟩

/-- A constant that was taken out of the root is a number again where a text is evaluated with no
names bound for this once, and text where it is evaluated as ever. -/
theorem evalWith_rebinds_constant :
    ¬∀ (settings : Settings) (ops : List Operation) (text : String)
      (bindings : List (String × Value)), let s := (Session.new settings).after ops
        (s.perform (.evalWith text bindings)).1 =
          ((s.after (Session.binds bindings)).perform (.eval text)).1 := by
  intro same
  have inCall : (((Session.new {}).after [.unbind "pi"]).perform (.evalWith "pi" [])).1 =
      .ok (.value (.number (Decimal.pi.roundTo 10).normalize)) := by decide +kernel
  have inRoot : ((((Session.new {}).after [.unbind "pi"]).after (Session.binds [])).perform
      (.eval "pi")).1 = .ok (.value (.symbolic "pi")) := by decide +kernel
  have equal := inCall.symm.trans ((same {} [.unbind "pi"] "pi" []).trans inRoot)
  cases equal

end Reckon
