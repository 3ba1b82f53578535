import Reckon.Binary64.CubeRoot
import Reckon.Fault
import Reckon.Settings
import Reckon.Table

/-!
# Native functions

Functions on binary64 numbers that expressions can call. Each says what it has to do with angles, so
that degrees are converted where an angle goes in or comes out. The built-in ones take one number.
-/

namespace Reckon

/-- What a function has to do with angles. -/
inductive AngleUse where
  | none
  /-- Its arguments are angles. -/
  | argument
  /-- Its result is an angle. -/
  | result
deriving DecidableEq, Repr

/-- A function on numbers. -/
structure Native where
  /-- The function itself, angles in radians. -/
  run : List Float → Except Fault Float
  angle : AngleUse

namespace Native

/-- The angle in radians for one in degrees. -/
def toRadians (x : Float) : Float :=
  x * (3.141592653589793 / 180.0)

/-- The angle in degrees for one in radians. -/
def toDegrees (x : Float) : Float :=
  x * 57.29577951308232

/-- Calls a function under a measure of angles. -/
def call (native : Native) (mode : AngleMode) (args : List Float) : Except Fault Float :=
  match mode, native.angle with
  | .degrees, .argument => native.run (args.map toRadians)
  | .degrees, .result => (native.run args).map toDegrees
  | _, _ => native.run args

/-- A function of one number; any other count of arguments is a fault. -/
def ofUnary (name : String) (f : Float → Float) (angle : AngleUse) : Native where
  run args :=
    match args with
    | [x] => .ok (f x)
    | _ => .error (.arity name 1 args.length)
  angle := angle

/-- The built-in functions by name. -/
def builtins : List (String × Native) :=
  [("sin", ofUnary "sin" Float.sin .argument),
   ("cos", ofUnary "cos" Float.cos .argument),
   ("tan", ofUnary "tan" Float.tan .argument),
   ("asin", ofUnary "asin" Float.asin .result),
   ("acos", ofUnary "acos" Float.acos .result),
   ("atan", ofUnary "atan" Float.atan .result),
   ("sinh", ofUnary "sinh" Float.sinh .none),
   ("cosh", ofUnary "cosh" Float.cosh .none),
   ("tanh", ofUnary "tanh" Float.tanh .none),
   ("sqrt", ofUnary "sqrt" Float.sqrt .none),
   ("cbrt", ofUnary "cbrt" Binary64.cubeRoot .none),
   ("abs", ofUnary "abs" Float.abs .none),
   ("ln", ofUnary "ln" Float.log .none),
   ("log", ofUnary "log" Float.log10 .none)]

/-- The built-in functions as a table. -/
def builtinTable : Table Native := ⟨builtins⟩

end Native

end Reckon
