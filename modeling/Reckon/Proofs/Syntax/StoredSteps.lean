import Reckon.Proofs.Syntax.FilledTokens
import Reckon.Proofs.Syntax.Procedures
import Reckon.Proofs.Syntax.StoredTokens

/-!
# Steps over stored tokens

A reader of stored tokens stands where a stream begins: the stream is what is stored up to the next
end token. A procedure over stored tokens follows a step over the stream if it ends, with the result
or the fault of the step, and then stands where the step leaves the stream. Meanwhile it may have
put in some `*`, and it never goes back.
-/

namespace Reckon

open Token
open Reckon.Expr (Bounds Parser Step behindClosing? beginsDefinition)

namespace Reader

/-! ## Where a reader stands -/

/-- The reader stands in front of the stream, which the first end token behind it closes, with the
given number of levels open. -/
structure At (r : Reader) (b : Bounds) (depth : Nat) (ahead : List Token) : Prop where
  depth_eq : r.depth = depth
  limit_eq : r.maxDepth = b.maxDepth
  unfinished : ∀ t ∈ ahead, t.isFinish = false
  split : ∃ front last behind, r.tokens = front ++ (ahead ++ last :: behind) ∧
    r.current = front.length ∧ last.kind = .finish ∧ last.position = b.finish

/-- The second reader is the first one further on: some `*` may have been put in, the place is not
in front of the old one, the stream is not heavier, and the place is behind the old one if the
stream became lighter. -/
structure Advances (r : Reader) (ahead : List Token) (r' : Reader) (rest : List Token) : Prop where
  filled : Filled r.tokens r'.tokens
  le : r.current ≤ r'.current
  weight_le : weight rest ≤ weight ahead
  lt_of_lighter : weight rest < weight ahead → r.current < r'.current

namespace Advances

variable {r r' r'' : Reader} {ahead rest stop : List Token}

/-- A reader that keeps its tokens and its place may open and close levels. -/
theorem of_same (tokens : r'.tokens = r.tokens) (current : r'.current = r.current) :
    r.Advances ahead r' ahead where
  filled := tokens ▸ .refl r'.tokens
  le := Nat.le_of_eq current.symm
  weight_le := Nat.le_refl _
  lt_of_lighter lighter := absurd lighter (Nat.lt_irrefl _)

/-- A reader that went on twice went on. -/
theorem trans (h : r.Advances ahead r' rest) (h' : r'.Advances rest r'' stop) :
    r.Advances ahead r'' stop where
  filled := h.filled.trans h'.filled
  le := Nat.le_trans h.le h'.le
  weight_le := Nat.le_trans h'.weight_le h.weight_le
  lt_of_lighter lighter := by
    have first := h.le
    have second := h'.le
    by_cases early : weight rest < weight ahead
    · have := h.lt_of_lighter early
      omega
    · have := h'.lt_of_lighter (by omega)
      omega

end Advances

variable {r : Reader} {b : Bounds} {depth : Nat} {ahead rest : List Token} {t : Token}

/-- What the procedures see as the next token of a stream: its first one, or the end token. -/
inductive Shows (b : Bounds) : List Token → Token → Prop where
  | token {t : Token} {rest : List Token} : t.isFinish = false → Shows b (t :: rest) t
  | finish {last : Token} : last.kind = .finish → last.position = b.finish → Shows b [] last

/-- The kind that the parser sees next is that of the shown token. -/
theorem Shows.kind_eq (h : Shows b ahead t) : (next b.finish ahead).kind = t.kind := by
  cases h with
  | token => rfl
  | finish kind _ => exact kind.symm

/-- Messages name the end token in the same way, whatever its spelling. -/
theorem Shows.describe_eq (h : Shows b ahead t) : (next b.finish ahead).describe = t.describe := by
  cases h with
  | token => rfl
  | finish kind _ =>
    rw [describe, describe, kind]
    rfl

/-- The position that the parser sees next is that of the shown token. -/
theorem Shows.position_eq (h : Shows b ahead t) : (next b.finish ahead).position = t.position := by
  cases h with
  | token => rfl
  | finish _ position => exact position.symm

/-- A kind that is not the one of the end token shows that a token is ahead. -/
theorem Shows.exists_cons (h : Shows b ahead t) (other : t.kind ≠ .finish) :
    ∃ rest, ahead = t :: rest := by
  cases h with
  | token => exact ⟨_, rfl⟩
  | finish kind _ => exact absurd kind other

/-- The place of a reader is inside of the list. -/
theorem At.exists_shown (h : r.At b depth ahead) :
    ∃ t, r.tokens[r.current]? = some t ∧ Shows b ahead t := by
  obtain ⟨front, last, behind, tokens, current, kind, position⟩ := h.split
  have here : r.tokens[r.current]? = (ahead ++ last :: behind)[0]? := by
    rw [tokens, current, List.getElem?_append_right (Nat.le_refl _), Nat.sub_self]
  rw [here]
  cases ahead with
  | nil => exact ⟨last, rfl, .finish kind position⟩
  | cons t rest => exact ⟨t, rfl, .token (h.unfinished t List.mem_cons_self)⟩

/-- The next place, behind the first token of the stream. -/
theorem At.succ (h : r.At b depth (t :: rest)) :
    At { r with current := r.current + 1 } b depth rest := by
  obtain ⟨front, last, behind, tokens, current, kind, position⟩ := h.split
  refine ⟨h.depth_eq, h.limit_eq, fun u mem => h.unfinished u (List.mem_cons_of_mem t mem),
    front ++ [t], last, behind, ?_, ?_, kind, position⟩
  · simp only [tokens, List.cons_append, List.append_assoc, List.nil_append]
  · simp only [current, List.length_append, List.length_cons, List.length_nil]

/-- The place behind a number, with the `*` put in there that is understood in front of a name. -/
theorem At.times {u : Token} (number : t.isNumber = true) (name : u.isName = true)
    (h : r.At b depth (t :: u :: rest)) :
    let filled := r.tokens.insertIdx (r.current + 1) (impliedTimes u.position)
    Filled r.tokens filled ∧
      At { r with tokens := filled, current := r.current + 1 } b depth
        (impliedTimes u.position :: u :: rest) := by
  obtain ⟨front, last, behind, tokens, current, kind, position⟩ := h.split
  have inserted : r.tokens.insertIdx (r.current + 1) (impliedTimes u.position) =
      front ++ t :: impliedTimes u.position :: u :: (rest ++ last :: behind) := by
    rw [tokens, current]
    exact List.modifyTailIdx_add _ 1 front _
  refine ⟨?_, h.depth_eq, h.limit_eq, fun v mem => ?_, front ++ [t], last, behind, ?_, ?_, kind,
    position⟩
  · rw [inserted, tokens]
    exact Filled.append_left (.times number name (.refl _)) front
  · rcases List.mem_cons.1 mem with rfl | mem
    · rfl
    · exact h.unfinished v (List.mem_cons_of_mem t mem)
  · simp only [inserted, List.cons_append, List.append_assoc, List.nil_append]
  · simp only [current, List.length_append, List.length_cons, List.length_nil]

end Reader

namespace Procedure

variable {α β : Type} {b : Bounds} {depth bound bound' : Nat} {tokens rest : List Token} {t : Token}
  {r r' : Reader}

/-! ## Outcomes -/

/-- What a procedure does with a reader. -/
def on (x : Procedure α) (r : Reader) : Option (Except Stop α × Reader) :=
  (ExceptT.run x).run r

/-- A procedure behind another goes on with the result and the reader that the other one leaves. -/
theorem on_bind (x : Procedure α) (f : α → Procedure β) (r : Reader) :
    (x >>= f).on r =
      (x.on r).bind fun p => (ExceptT.bindCont f p.1 : StateT Reader Option _).run p.2 :=
  rfl

/-- A procedure that ends with a result hands it on to the next one. -/
theorem on_bind_ok {x : Procedure α} {f : α → Procedure β} {a : α}
    (h : x.on r = some (.ok a, r')) : (x >>= f).on r = (f a).on r' := by
  rw [on_bind, h]
  rfl

/-- A procedure that ends with a fault ends the whole. -/
theorem on_bind_error {x : Procedure α} {f : α → Procedure β} {stop : Stop}
    (h : x.on r = some (.error stop, r')) : (x >>= f).on r = some (.error stop, r') := by
  rw [on_bind, h]
  rfl

/-- A procedure that closes its level leaves it after whatever outcome. -/
theorem closing_on (x : Procedure α) (r : Reader) :
    (closing x).on r = (x.on r).bind fun p => (leave p.1).run p.2 :=
  rfl

/-- Asking for the reader changes nothing. -/
theorem get_on (r : Reader) : (get : Procedure Reader).on r = some (.ok r, r) :=
  rfl

/-- The procedure does over stored tokens what the step does over the stream: it ends with the same
result or fault in front of the same stream. -/
def Follows (x : Procedure α) (b : Bounds) (depth : Nat) (tokens : List Token)
    (step : Step α bound) : Prop :=
  ∀ r : Reader, r.At b depth tokens → ∃ r' : Reader,
    x.on r = some (step.outcome.1.mapError .fault, r') ∧ r'.At b depth step.outcome.2 ∧
      r.Advances tokens r' step.outcome.2

/-- With enough fuel the procedure reads every stream as the parser does. Enough is a multiple of
the weight of the stream, for what is called behind a token that is taken, and a number for the
calls up to there. -/
def Reads (x : Nat → Procedure α) (b : Bounds) (depth extra : Nat) (parser : Parser α) : Prop :=
  ∀ tokens fuel, 12 * weight tokens + extra ≤ fuel → (x fuel).Follows b depth tokens (parser tokens)

variable {step : Step α bound} {x : Procedure α} {f : α → Procedure β}

namespace Follows

/-- Only the outcome of the step matters. -/
theorem of_outcome_eq {step' : Step α bound'} (h : x.Follows b depth tokens step)
    (same : step'.outcome = step.outcome) : x.Follows b depth tokens step' := by
  intro r stands
  rw [same]
  exact h r stands

/-- A result without reading follows the step that reads nothing. -/
theorem done {value : α} {lighter : weight tokens < bound} :
    (pure value : Procedure α).Follows b depth tokens (.done value tokens lighter) :=
  fun r stands => ⟨r, rfl, stands, .of_same rfl rfl⟩

/-- A fault without reading follows the step that is stuck there. -/
theorem stuck {fault : Fault} :
    (throw (.fault fault) : Procedure α).Follows b depth tokens
      (.stuck fault tokens : Step α bound) :=
  fun r stands => ⟨r, rfl, stands, .of_same rfl rfl⟩

/-- A looser bound on the rest does not matter to the procedure. -/
theorem weaken (h : x.Follows b depth tokens step) {larger : Nat} (le : bound ≤ larger) :
    x.Follows b depth tokens (step.weaken le) := by
  refine h.of_outcome_eq ?_
  cases step <;> rfl

/-- One procedure behind another follows the second step behind the first. What is left for it is
not heavier. -/
theorem andThen (h : x.Follows b depth tokens step)
    {goesOn : (value : α) → (rest : List Token) → weight rest < bound → Step β bound}
    (follows : ∀ value rest lighter, step.Yields value rest → weight rest ≤ weight tokens →
      (f value).Follows b depth rest (goesOn value rest lighter)) :
    (x >>= f).Follows b depth tokens (step.andThen goesOn) := by
  intro r stands
  obtain ⟨r', ends, stands', advances⟩ := h r stands
  cases step with
  | stuck fault stop => exact ⟨r', on_bind_error ends, stands', advances⟩
  | done value rest lighter =>
    obtain ⟨r'', ends', stands'', further⟩ :=
      follows value rest lighter ⟨lighter, rfl⟩ advances.weight_le r' stands'
    exact ⟨r'', (on_bind_ok ends).trans ends', stands'', advances.trans further⟩

/-- A function on the result follows the same function on the step. -/
theorem map (h : x.Follows b depth tokens step) (g : α → β) :
    (x >>= fun a => pure (g a)).Follows b depth tokens (step.map g) := by
  have mapped : step.map g =
      step.andThen fun value rest lighter => .done (g value) rest lighter := by
    cases step <;> rfl
  rw [mapped]
  exact h.andThen fun _ _ _ _ _ => .done

end Follows

/-! ## One token at a time -/

variable {stepAfter : Step β bound}

/-- Looking at the current token changes nothing. -/
theorem peek_on (shown : r.tokens[r.current]? = some t) : peek.on r = some (.ok t, r) := by
  rw [peek, on_bind_ok (get_on r), shown]
  rfl

/-- To see the next token changes nothing. -/
theorem follows_peek {f : Token → Procedure β}
    (h : ∀ t, Reader.Shows b tokens t → (f t).Follows b depth tokens stepAfter) :
    (peek >>= f).Follows b depth tokens stepAfter := by
  intro r stands
  obtain ⟨t, shown, shows⟩ := stands.exists_shown
  rw [on_bind_ok (peek_on shown)]
  exact h t shows r stands

/-- The token ahead is the one that is seen. -/
theorem follows_peek_cons {f : Token → Procedure β}
    (h : (f t).Follows b depth (t :: rest) stepAfter) :
    (peek >>= f).Follows b depth (t :: rest) stepAfter :=
  follows_peek fun _ shows => by cases shows; exact h

/-- A complaint follows the parser's complaint, with the same text and position. -/
theorem follows_complain (problem : String → ParseProblem) (tokens : List Token) :
    (complain problem : Procedure α).Follows b depth tokens
      (b.complain problem tokens : Step α bound) := by
  refine follows_peek fun t shows => ?_
  rw [Bounds.complain, shows.describe_eq, shows.position_eq]
  exact .stuck

/-- Behind a token that is taken the reader stands one place further. -/
theorem advance_on (stands : r.At b depth (t :: rest)) :
    advance.on r = some (.ok (), { r with current := r.current + 1 }) := by
  obtain ⟨_, shown, shows⟩ := stands.exists_shown
  cases shows
  rw [advance, on_bind_ok (peek_on shown), stands.unfinished t List.mem_cons_self]
  rfl

/-- A token that is not the end token is taken. -/
theorem follows_advance {f : Unit → Procedure β} (h : (f ()).Follows b depth rest stepAfter) :
    (advance >>= f).Follows b depth (t :: rest) stepAfter := by
  intro r stands
  obtain ⟨r', ends, stands', advances⟩ := h _ stands.succ
  have lighter := weight_lt_cons t rest
  exact ⟨r', (on_bind_ok (advance_on stands)).trans ends, stands', advances.filled,
    Nat.le_of_lt advances.le, Nat.le_trans advances.weight_le (Nat.le_of_lt lighter),
    fun _ => advances.le⟩

/-- Taking a token as the last thing that is done. -/
theorem follows_advance_done {value : Unit} {lighter : weight rest < bound} :
    advance.Follows b depth (t :: rest) (.done value rest lighter) := by
  have followed : (advance >>= fun _ => pure value).Follows b depth (t :: rest)
      (.done value rest lighter) := follows_advance .done
  rwa [bind_pure] at followed

/-- A token of a kind is demanded in the same way; the end token is never demanded. -/
theorem follows_expect {kind : Kind} (other : kind ≠ .finish) (problem : String → ParseProblem)
    (tokens : List Token) (h : weight tokens < bound) :
    (expect kind problem).Follows b depth tokens (b.expect kind problem tokens h) := by
  refine follows_peek fun t shows => ?_
  cases shows with
  | @token _ rest =>
    rw [Bounds.expect]
    split
    · exact follows_advance_done
    · exact follows_complain problem _
  | finish isFinish _ =>
    have wrong : ¬t.kind = kind := fun same => other (same.symm.trans isFinish)
    rw [if_neg wrong]
    exact follows_complain problem _

/-- A bracket that was just seen is taken. -/
theorem follows_takeBracket {kind : Kind} {f : Unit → Procedure β} (same : t.kind = kind)
    (h : (f ()).Follows b depth rest stepAfter) :
    (takeBracket kind >>= f).Follows b depth (t :: rest) stepAfter := by
  rw [takeBracket, bind_assoc]
  refine follows_peek_cons ?_
  rw [if_pos same]
  exact follows_advance h

/-- A procedure behind a comma that may be there follows the step behind that comma. -/
theorem follows_skipComma {f : Unit → Procedure β}
    (h : (f ()).Follows b depth (Expr.skipComma tokens) stepAfter) :
    (skipComma >>= f).Follows b depth tokens stepAfter := by
  rw [skipComma, bind_assoc]
  refine follows_peek fun t shows => ?_
  cases shows with
  | @token _ rest =>
    rw [Expr.skipComma] at h
    split at h
    · next comma =>
      rw [if_pos comma]
      exact follows_advance h
    · next other =>
      rw [if_neg other, pure_bind]
      exact h
  | finish isFinish _ =>
    rw [if_neg (by rw [isFinish]; decide), pure_bind]
    exact h

section operators

variable {accept : Operator → Bool} {op : Operator} {f : Option Operator → Procedure β}

/-- An operator of the class is taken. -/
theorem follows_operator?_some (isOp : t.kind = .operator op) (accepted : accept op = true)
    (h : (f (some op)).Follows b depth rest stepAfter) :
    (operator? accept >>= f).Follows b depth (t :: rest) stepAfter := by
  rw [operator?, bind_assoc]
  refine follows_peek_cons ?_
  simp only [isOp, accepted, if_true, bind_assoc, pure_bind]
  exact follows_advance h

/-- Anything else is left. -/
theorem follows_operator?_none
    (refused : ∀ t op, tokens.head? = some t → t.kind = .operator op → accept op = false)
    (h : (f none).Follows b depth tokens stepAfter) :
    (operator? accept >>= f).Follows b depth tokens stepAfter := by
  rw [operator?, bind_assoc]
  refine follows_peek fun t shows => ?_
  split
  · next op isOp =>
    obtain ⟨rest, rfl⟩ := shows.exists_cons (by simp [isOp])
    rw [refused t op rfl isOp, if_neg Bool.false_ne_true, pure_bind]
    exact h
  · rw [pure_bind]
    exact h

end operators

/-! ## The products that are understood -/

/-- The `*` in front of a name is put in where the reader stands. -/
theorem insertTimes_on_name {u : Token} (shown : r.tokens[r.current]? = some u)
    (name : u.isName = true) :
    insertTimes.on r = some (.ok (),
      { r with tokens := r.tokens.insertIdx r.current (impliedTimes u.position) }) := by
  have inside : r.current ≤ r.tokens.length :=
    Nat.le_of_lt (List.getElem?_eq_some_iff.1 shown).1
  rw [insertTimes, on_bind_ok (peek_on shown), if_pos name, on_bind_ok (get_on r), if_pos inside]
  rfl

/-- In front of anything that is no name nothing is put in. -/
theorem follows_insertTimes_other {f : Unit → Procedure β} (other : startsWithName tokens = false)
    (h : (f ()).Follows b depth tokens stepAfter) :
    (insertTimes >>= f).Follows b depth tokens stepAfter := by
  rw [insertTimes, bind_assoc]
  refine follows_peek fun t shows => ?_
  have noName : t.isName = false := by
    cases shows with
    | token => exact other
    | finish kind _ => rw [isName, kind]
  rw [noName, if_neg Bool.false_ne_true, pure_bind]
  exact h

/-- When a number is taken, a `*` that is understood behind it is put in. -/
theorem follows_number {f : Unit → Procedure β} (number : t.isNumber = true)
    (h : (f ()).Follows b depth (withImpliedTimes rest) stepAfter) :
    (advance >>= fun _ => insertTimes >>= f).Follows b depth (t :: rest) stepAfter := by
  by_cases named : startsWithName rest = true
  · obtain ⟨u, us, rfl⟩ : ∃ u us, rest = u :: us := by
      cases rest with
      | nil => cases named
      | cons u us => exact ⟨u, us, rfl⟩
    replace named : u.isName = true := named
    rw [withImpliedTimes, if_pos named] at h
    intro r stands
    obtain ⟨filled, stands'⟩ := stands.times number named
    obtain ⟨r', ends, stands'', advances⟩ := h _ stands'
    obtain ⟨_, shown, shows⟩ := stands.succ.exists_shown
    cases shows
    have put := on_bind_ok (f := f) (insertTimes_on_name shown named)
    have lighter := weight_withImpliedTimes_lt number (u :: us)
    rw [withImpliedTimes, if_pos named] at lighter
    exact ⟨r', (on_bind_ok (advance_on stands)).trans (put.trans ends), stands'',
      filled.trans advances.filled, Nat.le_of_lt advances.le,
      Nat.le_trans advances.weight_le (Nat.le_of_lt lighter), fun _ => advances.le⟩
  · have other := eq_false_of_ne_true named
    rw [withImpliedTimes_eq_self other] at h
    exact follows_advance (follows_insertTimes_other other h)

/-! ## Levels and heights -/

/-- Within the limit a procedure is followed one level further in, and the level is closed again
whatever the outcome. -/
theorem follows_within (room : depth < b.maxDepth)
    (h : x.Follows b (depth + 1) tokens step) : (within x).Follows b depth tokens step := by
  intro r stands
  have low : ¬r.maxDepth < r.depth + 1 := by
    rw [stands.limit_eq, stands.depth_eq]
    omega
  have opened : enter.on r = some (.ok (), { r with depth := r.depth + 1 }) := by
    rw [enter, on_bind_ok (get_on r), if_neg low]
    rfl
  have inside : Reader.At { r with depth := r.depth + 1 } b (depth + 1) tokens :=
    ⟨congrArg (· + 1) stands.depth_eq, stands.limit_eq, stands.unfinished, stands.split⟩
  obtain ⟨r', ends, stands', advances⟩ := h _ inside
  refine ⟨{ r' with depth }, ?_, ⟨rfl, stands'.limit_eq, stands'.unfinished, stands'.split⟩,
    advances.filled, advances.le, advances.weight_le, advances.lt_of_lighter⟩
  have closed : (leave (step.outcome.1.mapError .fault)).run r' =
      some (step.outcome.1.mapError .fault, { r' with depth }) := by
    obtain ⟨_, _, _, _⟩ := r'
    obtain rfl := stands'.depth_eq
    rfl
  rw [within, on_bind_ok opened, closing_on, ends, Option.bind_some, closed]

/-- At the limit no level is opened. -/
theorem follows_within_tooDeep (full : depth = b.maxDepth) (tokens : List Token) :
    (within x).Follows b depth tokens (b.tooDeep tokens : Step α bound) := by
  intro r stands
  have high : r.maxDepth < r.depth + 1 := by
    rw [stands.limit_eq, stands.depth_eq]
    omega
  have refused : enter.on r = some (.error (.fault (.depthExceeded r.maxDepth)), r) := by
    rw [enter, on_bind_ok (get_on r), if_pos high]
    rfl
  refine ⟨r, ?_, stands, .of_same rfl rfl⟩
  rw [within, on_bind_error refused, stands.limit_eq]
  rfl

/-- A tree is refused if it is too high, and then nothing has changed. -/
theorem follows_checkHeight {e : Expr} {height : Nat} {f : Nat → Procedure β}
    (same : height = e.height) (lighter : weight tokens < bound')
    {goesOn : (value : Expr) → (rest : List Token) → weight rest < bound' → Step β bound'}
    (h : (f height).Follows b depth tokens (goesOn e tokens lighter)) :
    (checkHeight height >>= f).Follows b depth tokens
      ((b.bounded e tokens lighter).andThen goesOn) := by
  intro r stands
  rw [Bounds.bounded, ← stands.limit_eq]
  split
  · next high =>
    refine ⟨r, ?_, stands, .of_same rfl rfl⟩
    have refused : (checkHeight height).on r =
        some (.error (.fault (.depthExceeded r.maxDepth)), r) := by
      rw [checkHeight, on_bind_ok (get_on r), if_pos (same ▸ high)]
      rfl
    rw [on_bind_error refused, stands.limit_eq]
    rfl
  · next low =>
    have kept : (checkHeight height).on r = some (.ok height, r) := by
      rw [checkHeight, on_bind_ok (get_on r), if_neg (same ▸ low)]
      rfl
    rw [on_bind_ok kept]
    exact h r stands

/-- The check of the height follows the parser's check. -/
theorem follows_bounded (e : Expr) (tokens : List Token) (lighter : weight tokens < bound) :
    (bounded e).Follows b depth tokens (b.bounded e tokens lighter) := by
  have followed : (bounded e).Follows b depth tokens
      ((b.bounded e tokens lighter).andThen fun value rest less => .done value rest less) :=
    follows_checkHeight rfl lighter .done
  refine followed.of_outcome_eq ?_
  cases b.bounded e tokens lighter <;> rfl

/-! ## Looking ahead -/

/-- A place in tokens, the first of which has the given index, and what stands behind that place; or
neither of them. -/
inductive Located (index : Nat) (tokens : List Token) :
    Option Nat → Option (List Token) → Prop where
  | nowhere : Located index tokens none none
  | behind {front rest : List Token} {close : Token} : tokens = front ++ close :: rest →
      Located index tokens (some (index + front.length)) (some rest)

/-- A place found behind the first token is a place from the first token on. -/
theorem Located.cons {index : Nat} {place : Option Nat} {found : Option (List Token)}
    (h : Located (index + 1) tokens place found) (t : Token) :
    Located index (t :: tokens) place found := by
  cases h with
  | nowhere => exact .nowhere
  | @behind front rest close split =>
    have shifted : index + 1 + front.length = index + (t :: front).length := by
      rw [List.length_cons]
      omega
    rw [shifted]
    exact .behind (by rw [split, List.cons_append])

/-- With a parenthesis open, the count is not zero when one is closed, and the closing one is found
in front of what the stream shows behind it. -/
theorem closingIndex_succ {last : Token} (isFinish : last.kind = .finish) (behind : List Token)
    (tokens : List Token) (unfinished : ∀ t ∈ tokens, t.isFinish = false) (index inner : Nat) :
    ∃ place, closingIndex index (inner + 1) (tokens ++ last :: behind) = .ok place ∧
      Located index tokens place (behindClosing? inner tokens) := by
  induction tokens generalizing index inner with
  | nil => exact ⟨none, by simp [closingIndex, isFinish], .nowhere⟩
  | cons t rest ih =>
    have other : t.kind ≠ .finish := by
      have := unfinished t List.mem_cons_self
      simpa [Token.isFinish] using this
    have later := ih fun u mem => unfinished u (List.mem_cons_of_mem t mem)
    unfold behindClosing?
    rw [List.cons_append]
    unfold closingIndex
    split
    · next opens =>
      obtain ⟨place, found, located⟩ := later (index + 1) (inner + 1)
      simp only [opens]
      exact ⟨place, found, located.cons t⟩
    · next closes =>
      simp only [closes]
      cases inner with
      | zero =>
        have first : t :: rest = [] ++ t :: rest := rfl
        exact ⟨some index, rfl, .behind first⟩
      | succ inner =>
        obtain ⟨place, found, located⟩ := later (index + 1) inner
        exact ⟨place, found, located.cons t⟩
    · next finish => exact absurd finish other
    · next noOpen noClose _ =>
      obtain ⟨place, found, located⟩ := later (index + 1) inner
      refine ⟨place, found, ?_⟩
      split
      · next opens => exact absurd opens noOpen
      · next closes => exact absurd closes noClose
      · exact located.cons t

/-- A definition is told from a call in the same way, and nothing changes. -/
theorem follows_isDefinition {f : Bool → Procedure β} (opens : t.kind = .leftParen)
    (h : (f (beginsDefinition rest)).Follows b depth (t :: rest) stepAfter) :
    (isDefinition >>= f).Follows b depth (t :: rest) stepAfter := by
  intro r stands
  obtain ⟨front, last, behind, tokens, current, isFinish, _⟩ := stands.split
  have ahead : r.tokens.drop r.current = t :: (rest ++ last :: behind) := by
    rw [tokens, current, List.drop_left]
    rfl
  have unfinished : ∀ u ∈ rest, u.isFinish = false :=
    fun u mem => stands.unfinished u (List.mem_cons_of_mem t mem)
  obtain ⟨place, found, located⟩ :=
    closingIndex_succ isFinish behind rest unfinished (r.current + 1) 0
  have looked : closingIndex r.current 0 (r.tokens.drop r.current) = .ok place := by
    rw [ahead, closingIndex, ← found]
    simp only [opens]
  have told : isDefinition.on r = some (.ok (beginsDefinition rest), r) := by
    rw [isDefinition, on_bind_ok (get_on r), looked, beginsDefinition]
    generalize behindClosing? 0 rest = found at located
    cases located with
    | nowhere => rfl
    | @behind inner after close split =>
      have whole : r.tokens = (front ++ t :: (inner ++ [close])) ++ (after ++ last :: behind) := by
        simp only [tokens, split, List.cons_append, List.append_assoc, List.nil_append]
      have place :
          r.current + 1 + inner.length + 1 = (front ++ t :: (inner ++ [close])).length := by
        simp only [current, List.length_append, List.length_cons, List.length_nil]
        omega
      have reached : r.tokens[r.current + 1 + inner.length + 1]? =
          (after ++ last :: behind)[0]? := by
        rw [whole, place, List.getElem?_append_right (Nat.le_refl _), Nat.sub_self]
      simp only [reached]
      cases after with
      | nil =>
        simp only [List.nil_append, List.getElem?_cons_zero, isFinish]
        rfl
      | cons u us => rfl
  rw [on_bind_ok told]
  exact h r stands

end Procedure

end Reckon
