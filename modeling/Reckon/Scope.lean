import Reckon.Native
import Reckon.Value.Basic

/-!
# Scopes

A scope binds variables, user functions and native functions. A call is evaluated in a child of the
caller's scope, which sees the functions but none of the caller's variables; a scope that inherits
sees the variables too. The constants are bound in every scope anew.
-/

namespace Reckon

/-- A function defined by text. -/
structure UserFunction where
  name : String
  /-- The names that the arguments are bound to, in order. -/
  params : List String
  body : Expr
  /-- The text of the definition. -/
  source : String
deriving DecidableEq

/-- What an expression is evaluated under: variables and functions by name. -/
structure Scope where
  /-- The variables with their values. -/
  bindings : Table Value
  /-- The functions that texts defined. -/
  functions : Table UserFunction
  /-- The functions on floats, built in or registered. -/
  natives : Table Native
  /-- How many scopes lie above this one. -/
  depth : Nat

namespace Scope

/-- The constants by name. -/
def constants : Table Value :=
  ⟨[("pi", .number .pi), ("π", .number .pi), ("e", .number .e)]⟩

/-- The scope of a new session: the constants and the built-in functions. -/
def root : Scope :=
  ⟨constants, .empty, Native.builtinTable, 0⟩

/-- The scope of a call: constants and functions, none of the variables. -/
def child (s : Scope) : Scope :=
  { s with bindings := constants, depth := s.depth + 1 }

/-- A scope below, in which the variables are visible. A constant taken out of the variables is
bound again. -/
def inherit (s : Scope) : Scope :=
  { s.child with bindings := constants.overlay s.bindings }

/-- The value of a variable. -/
def binding? (s : Scope) (name : String) : Option Value :=
  s.bindings.get? name

/-- The scope with a variable bound. -/
def bind (s : Scope) (name : String) (value : Value) : Scope :=
  { s with bindings := s.bindings.insert name value }

/-- The scope with some variables bound, one after the other. -/
def bindAll (s : Scope) (bindings : List (String × Value)) : Scope :=
  { s with bindings := s.bindings.insertAll bindings }

/-- The scope without a variable. -/
def unbind (s : Scope) (name : String) : Scope :=
  { s with bindings := s.bindings.erase name }

/-- The scope with a function defined, unless its name is taken. -/
def define (s : Scope) (f : UserFunction) : Except Fault Scope :=
  if s.functions.contains f.name then .error (.duplicateFunction f.name)
  else .ok { s with functions := s.functions.insert f.name f }

/-- The scope with a native function registered, in place of one of that name. -/
def register (s : Scope) (name : String) (native : Native) : Scope :=
  { s with natives := s.natives.insert name native }

/-- Binding a name changes what that name is bound to and no other. -/
theorem binding?_bind (s : Scope) (name other : String) (value : Value) :
    (s.bind name value).binding? other = if other = name then some value else s.binding? other :=
  Table.get?_insert s.bindings name other value

/-- In a child scope nothing but the constants is bound. -/
theorem binding?_child (s : Scope) (name : String) :
    s.child.binding? name = constants.get? name := rfl

/-- An inheriting scope has the bindings of its parent over those of the constants. -/
theorem binding?_inherit (s : Scope) (name : String) :
    s.inherit.binding? name = (s.binding? name).or (constants.get? name) :=
  Table.get?_overlay constants s.bindings name

end Scope

end Reckon
