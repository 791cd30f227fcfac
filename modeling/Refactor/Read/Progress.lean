/-!
# Progress of reading

How many files were processed, skipped and found faulty, and how long processing took.
-/

namespace Refactor.Read

/-- Counts of files, and the time spent on them in nanoseconds. -/
structure Progress where
  /-- The files tried, faulty ones included. -/
  processed : Nat := 0
  skipped : Nat := 0
  failed : Nat := 0
  elapsed : Nat := 0

namespace Progress

def recordProcessed (p : Progress) (nanoseconds : Nat) : Progress :=
  { p with processed := p.processed + 1, elapsed := p.elapsed + nanoseconds }

def recordSkipped (p : Progress) : Progress :=
  { p with skipped := p.skipped + 1 }

def recordFailed (p : Progress) : Progress :=
  { p with failed := p.failed + 1 }

/-- The files that were processed without a fault. -/
def successful (p : Progress) : Nat :=
  p.processed - p.failed

/-- The time spent on a file on average, in whole nanoseconds. -/
def average (p : Progress) : Nat :=
  p.elapsed / p.processed

end Progress

end Refactor.Read
