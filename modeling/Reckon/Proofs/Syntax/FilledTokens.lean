import Reckon.Token.Stream

/-!
# Tokens with a product put in

What may happen to a list of tokens while it is read: at some of the places where a `*` is
understood, between a number and a name, one is put in. The relation is transitive, keeps both ends
of the list, and what was put in can be marked: without the marked tokens it is the old list.
-/

namespace Reckon

namespace Token

/-! ## What is put in -/

/-- The second list is the first one with a `*` put in at some of the places where one is
understood: between a number and a name, and at the position of the name. -/
inductive Filled : List Token → List Token → Prop where
  | nil : Filled [] []
  | kept {t : Token} {ts us : List Token} : Filled ts us → Filled (t :: ts) (t :: us)
  | times {t u : Token} {ts us : List Token} : t.isNumber = true → u.isName = true →
      Filled (u :: ts) (u :: us) → Filled (t :: u :: ts) (t :: impliedTimes u.position :: u :: us)

namespace Filled

variable {ts us vs : List Token}

/-- With nothing put in, tokens stay as they are. -/
theorem refl : ∀ ts : List Token, Filled ts ts
  | [] => .nil
  | _ :: ts => .kept (refl ts)

/-- What is put in may stand behind any tokens. -/
theorem append_left (h : Filled ts us) : ∀ front : List Token, Filled (front ++ ts) (front ++ us)
  | [] => h
  | _ :: front => .kept (h.append_left front)

/-- Nothing is put in at the front. -/
theorem head?_eq (h : Filled ts us) : us.head? = ts.head? := by
  cases h <;> rfl

/-- A place with a `*` in it is not filled again. -/
theorem trans (h : Filled ts us) (h' : Filled us vs) : Filled ts vs := by
  induction h generalizing vs with
  | nil => exact h'
  | @kept t ts us inner ih =>
    cases h' with
    | kept more => exact .kept (ih more)
    | @times _ u us vs number name more =>
      obtain ⟨tail, rfl⟩ : ∃ tail, ts = u :: tail :=
        List.head?_eq_some_iff.1 (inner.head?_eq.symm.trans rfl)
      exact .times number name (ih more)
  | @times t u ts us number name inner ih =>
    cases h' with
    | kept more =>
      cases more with
      | kept behind =>
        rename_i vs
        obtain ⟨tail, rfl⟩ : ∃ tail, vs = u :: tail :=
          List.head?_eq_some_iff.1 (behind.head?_eq.trans rfl)
        exact .times number name (ih behind)
      | times noNumber _ _ => cases noNumber
    | times _ noName _ => cases noName

end Filled

/-! ## Marks -/

/-- Every marked token is a `*` between a number and a name, at the position of the name. -/
def MarkedTimes (marked : List (Token × Bool)) : Prop :=
  ∀ front times behind, marked = front ++ (times, true) :: behind →
    ∃ t u front' behind', front = front' ++ [(t, false)] ∧ behind = (u, false) :: behind' ∧
      t.isNumber = true ∧ u.isName = true ∧ times = impliedTimes u.position

namespace MarkedTimes

variable {marked : List (Token × Bool)}

/-- No tokens have no marks. -/
theorem nil : MarkedTimes [] :=
  fun front _ _ split => by cases front <;> cases split

/-- An unmarked token in front keeps the marks right. -/
theorem cons (h : MarkedTimes marked) (t : Token) : MarkedTimes ((t, false) :: marked) := by
  intro front times behind split
  cases front with
  | nil => cases split
  | cons first front =>
    obtain ⟨rfl, later⟩ := List.cons.inj split
    obtain ⟨v, w, front', behind', rfl, rfl, place⟩ := h front times behind later
    exact ⟨v, w, _ :: front', behind', rfl, rfl, place⟩

/-- A marked star between a number and a name keeps the marks right. -/
theorem times {t u : Token} (h : MarkedTimes ((u, false) :: marked)) (number : t.isNumber = true)
    (name : u.isName = true) :
    MarkedTimes ((t, false) :: (impliedTimes u.position, true) :: (u, false) :: marked) := by
  intro front times behind split
  match front, split with
  | [_], split =>
    obtain ⟨rfl, later⟩ := List.cons.inj split
    obtain ⟨same, rfl⟩ := List.cons.inj later
    exact ⟨t, u, [], marked, rfl, rfl, number, name, (congrArg Prod.fst same).symm⟩
  | first :: second :: front, split =>
    obtain ⟨rfl, later⟩ := List.cons.inj split
    obtain ⟨rfl, later'⟩ := List.cons.inj later
    obtain ⟨v, w, front', behind', rfl, rfl, place⟩ := h front times behind later'
    exact ⟨v, w, _ :: _ :: front', behind', rfl, rfl, place⟩

/-- The first token is never marked. -/
theorem exists_cons {u : Token} {us : List Token} (h : MarkedTimes marked)
    (all : marked.map Prod.fst = u :: us) : ∃ behind, marked = (u, false) :: behind := by
  match marked, h, all with
  | (_, false) :: behind, _, all =>
    obtain ⟨rfl, _⟩ := List.cons.inj all
    exact ⟨behind, rfl⟩
  | (first, true) :: behind, h, _ =>
    obtain ⟨_, _, front', _, split, _⟩ := h [] first behind rfl
    exact absurd split.symm (List.append_ne_nil_of_right_ne_nil front' (List.cons_ne_nil _ _))

end MarkedTimes

end Token

end Reckon
