import InkLint.Category

/-!
# Reports

What a run tells about one file, and the counters it ends with.
-/

namespace InkLint

/-- The advice given for one file, in the order of the rules. -/
structure FileReport where
  path : Path
  category : Category
  advisories : List String
deriving DecidableEq, Repr

/-- Whether there is any advice. -/
def FileReport.isFlagged (r : FileReport) : Bool :=
  !r.advisories.isEmpty

/-- The counters of a run. -/
structure Summary where
  /-- Files found under the target. -/
  seen : Nat := 0
  /-- Files of a supported category. -/
  scanned : Nat := 0
  /-- Files with advice. -/
  flagged : Nat := 0
  /-- Pieces of advice. -/
  advisories : Nat := 0
deriving DecidableEq, Repr

/-- The counters after one more file was scanned. -/
def Summary.add (s : Summary) (r : FileReport) : Summary :=
  { s with
    scanned := s.scanned + 1
    flagged := s.flagged + if r.isFlagged then 1 else 0
    advisories := s.advisories + r.advisories.length }

end InkLint
