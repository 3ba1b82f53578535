/-!
# Settings

What governs evaluation beside the text: the places of results, the measure of angles, the depth of
nesting and how many parsed texts are kept.
-/

namespace Reckon

/-- How angles are measured. -/
inductive AngleMode where
  | radians
  | degrees
deriving DecidableEq, Repr

/-- The greatest number of places of a decimal. -/
def maxPrecision : Nat := 28

/-- The depth of nesting that is allowed without further notice. -/
def defaultMaxDepth : Nat := 1024

/-- The settings of a session. -/
structure Settings where
  /-- The places kept in results. -/
  precision : Nat := 10
  angle : AngleMode := .radians
  /-- The greatest depth of nesting, in trees and in evaluation. -/
  maxDepth : Nat := defaultMaxDepth
  /-- How many parsed texts are kept; at least one is. -/
  cacheSize : Nat := 100
deriving DecidableEq, Repr

namespace Settings

/-- The settings with another precision, 28 places at most. -/
def withPrecision (s : Settings) (precision : Nat) : Settings :=
  { s with precision := min precision maxPrecision }

/-- The settings with another measure of angles. -/
def withAngle (s : Settings) (angle : AngleMode) : Settings :=
  { s with angle }

/-- The settings with another depth of nesting. -/
def withMaxDepth (s : Settings) (maxDepth : Nat) : Settings :=
  { s with maxDepth }

/-- The settings with another number of parsed texts to keep. -/
def withCacheSize (s : Settings) (cacheSize : Nat) : Settings :=
  { s with cacheSize }

end Settings

end Reckon
