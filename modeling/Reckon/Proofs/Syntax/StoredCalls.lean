import Mathlib.Data.List.TakeWhile
import Reckon.Proofs.Syntax.StoredFuel
import Reckon.Proofs.Syntax.StoredProcedures

/-!
# Calls over stored tokens

One reader is called again and again, and a call that fails leaves it where it failed. Before the
first call it stands in front of the stream of its tokens, and every call moves it to where the
cursor over the stream stands after that call. So no call goes wrong, and what it did to the stored
tokens can be told.
-/

namespace Reckon

open Token

namespace Reader

/-! ## The first place -/

/-- The reader stands where the cursor does, with no level open. -/
def AtCursor (r : Reader) (maxDepth : Nat) (c : Cursor) : Prop :=
  r.At ⟨maxDepth, c.finish⟩ 0 c.ahead

/-- The reader after some calls, each of them whatever came of those before. -/
def after (fuel : Nat) : Nat → Reader → Option Reader
  | 0, r => some r
  | calls + 1, r =>
    (after fuel calls r).bind fun r' => ((Procedure.expression fuel).on r').map Prod.snd

end Reader

namespace Token

namespace Cursor

/-- The cursor after some calls, each of them whatever came of those before. -/
def after (maxDepth : Nat) : Nat → Cursor → Cursor
  | 0, c => c
  | calls + 1, c => ((after maxDepth calls c).expression maxDepth).2

end Cursor

end Token

namespace Reader

variable {r : Reader} {maxDepth : Nat} {c : Cursor}

/-- With enough fuel a call over the stored tokens ends as the call from the cursor does, and where
that one ends. -/
theorem AtCursor.expression (stands : r.AtCursor maxDepth c) :
    ∃ r' : Reader,
      (∀ fuel, 12 * weight c.ahead + 11 ≤ fuel →
        (Procedure.expression fuel).on r =
          some ((c.expression maxDepth).1.mapError .fault, r')) ∧
        r'.AtCursor maxDepth (c.expression maxDepth).2 ∧
          r.Advances c.ahead r' (c.expression maxDepth).2.ahead := by
  have reads := (Procedure.reads_unary_and_expression (b := ⟨maxDepth, c.finish⟩) maxDepth
    (Nat.zero_add maxDepth)).2
  obtain ⟨r', ends, stands', advances⟩ := reads c.ahead _ (Nat.le_refl _) r stands
  exact ⟨r', fun fuel enough => Procedure.expression_extendedBy enough r _ ends, stands', advances⟩

end Reader

end Reckon
