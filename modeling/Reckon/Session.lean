import Reckon.Expr.Evaluation
import Reckon.Expr.Parser
import Reckon.Recent
import Reckon.Text.Blank

/-!
# Sessions

A session holds settings, a root scope and the recently parsed texts. A text is parsed at most once
while it is kept; a tree that was kept is answered together with the number it got when it was
parsed, so that the two can be told apart. Every operation answers with a result or a fault and with
the session after it.
-/

namespace Reckon

/-- A parsed text: its tree and the number of the parse that made it. -/
structure Parsed where
  tree : Expr
  /-- How many texts were parsed before this one. -/
  serial : Nat

/-- Settings, root scope and recently parsed texts. -/
structure Session where
  settings : Settings
  /-- The root scope, in which texts are evaluated. -/
  scope : Scope
  /-- The trees of the texts parsed last. -/
  recent : Recent Parsed
  /-- How many texts were parsed so far. -/
  parses : Nat

namespace Session

/-- A new session. -/
def new (settings : Settings) : Session :=
  ⟨settings, .root, .ofCapacity settings.cacheSize, 0⟩

/-- The parsed form of a text, from the store if it is kept there. -/
def parse (s : Session) (text : String) : Except Fault Parsed × Session :=
  match s.recent.get? text with
  | some parsed => (.ok parsed, { s with recent := s.recent.touch text })
  | none =>
    match Expr.parse s.settings.maxDepth text with
    | .error fault => (.error fault, s)
    | .ok tree =>
      let parsed := ⟨tree, s.parses⟩
      (.ok parsed, { s with recent := s.recent.put text parsed, parses := s.parses + 1 })

/-- What to do with the tree of a text, in the session after it was parsed. -/
def withTree {α : Type} (s : Session) (text : String)
    (f : Session → Expr → Except Fault α) : Except Fault α × Session :=
  match s.parse text with
  | (.error fault, s) => (.error fault, s)
  | (.ok parsed, s) => (f s parsed.tree, s)

/-- The value of a tree in a scope, rounded to the session's precision. -/
def evalTreeIn (s : Session) (scope : Scope) (e : Expr) : Except Fault Value :=
  (e.eval s.settings scope).map (Value.rounded s.settings.precision)

/-- The value of a tree in the root scope, rounded. -/
def evalTree (s : Session) (e : Expr) : Except Fault Value :=
  s.evalTreeIn s.scope e

/-- The value of a text; blank text is zero. -/
def eval (s : Session) (text : String) : Except Fault Value × Session :=
  if Text.isBlank text then (.ok .zero, s) else s.withTree text evalTree

/-- The value of a text with some names bound for this once. -/
def evalWith (s : Session) (text : String) (bindings : List (String × Value)) :
    Except Fault Value × Session :=
  if Text.isBlank text then (.ok .zero, s)
  else s.withTree text fun s e => s.evalTreeIn (s.scope.inherit.bindAll bindings) e

/-- The integral of a text over a variable. -/
def integrate (s : Session) (text : String) (variableName : String) (lower upper : Decimal) :
    Except Fault Value × Session :=
  s.withTree text fun s e =>
    (Expr.integrateWith (fun scope => e.evalWithin s.settings s.settings.maxDepth scope) s.scope
      variableName lower upper).map fun area => (Value.number area).rounded s.settings.precision

/-- The function that a text defines. -/
def definitionOf (s : Session) (text : String) : Except Fault UserFunction :=
  match Expr.parse s.settings.maxDepth text with
  | .error fault => .error fault
  | .ok (.definition name params body) => .ok ⟨name, params, body, Text.trim text⟩
  | .ok other => .error (.parse (.notADefinition other.kind) 0)

/-- Defines the function of a text in the root scope. -/
def define (s : Session) (text : String) : Except Fault UserFunction × Session :=
  match s.definitionOf text with
  | .error fault => (.error fault, s)
  | .ok f =>
    match s.scope.define f with
    | .error fault => (.error fault, s)
    | .ok scope => (.ok f, { s with scope })

/-- Binds a variable in the root scope. -/
def bind (s : Session) (name : String) (value : Value) : Session :=
  { s with scope := s.scope.bind name value }

/-- Takes a variable out of the root scope. -/
def unbind (s : Session) (name : String) : Option Value × Session :=
  (s.scope.binding? name, { s with scope := s.scope.unbind name })

/-- Registers a native function that has nothing to do with angles. -/
def register (s : Session) (name : String) (run : List Float → Except Fault Float) : Session :=
  { s with scope := s.scope.register name ⟨run, .none⟩ }

/-- Sets the places kept in results. -/
def setPrecision (s : Session) (precision : Nat) : Session :=
  { s with settings := s.settings.withPrecision precision }

/-- Sets the measure of angles. -/
def setAngle (s : Session) (angle : AngleMode) : Session :=
  { s with settings := s.settings.withAngle angle }

end Session

/-- The value of a text in a new session. -/
def evaluate (text : String) : Except Fault Value :=
  ((Session.new {}).eval text).1

end Reckon
