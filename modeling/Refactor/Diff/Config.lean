import Refactor.Error

/-!
# Settings of a comparison

How similar two bodies have to be for their operations to count as one, and how far apart the
names of such operations may be.
-/

namespace Refactor.Diff

/-- The settings of a comparison. -/
structure Config where
  /-- The least share of statements that two bodies have to have in common. -/
  threshold : Binary64 := Binary64.ofRatio 7 10
  /-- The greatest edit distance of related names. -/
  maxDistance : Nat := 2

/-- Checks that the threshold is a share. -/
def Config.validate (c : Config) : Except Error Unit :=
  if c.threshold.inUnitInterval then .ok () else .error (.thresholdOutOfRange c.threshold)

end Refactor.Diff
