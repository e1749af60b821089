import LiveExports.Text.Pieces

/-!
# Stamps

A cache carries the version of its format, the release that wrote it, and the time.  It can be used
again if the format is the same and the release has the same first number.
-/

namespace LiveExports

/-- What a cache says about its making. -/
structure Stamp where
  formatVersion : Nat
  release : String
  time : Nat
deriving DecidableEq, Repr

namespace Stamp

/-- The format written by this release. -/
def currentFormat : Nat := 1

def currentRelease : String := "0.1.0"

/-- The stamp of this release at a time. -/
def current (time : Nat) : Stamp :=
  ⟨currentFormat, currentRelease, time⟩

/-- The first number of a release. -/
def majorOf (release : String) : List Char :=
  release.toList.takeWhile (· ≠ '.')

/-- Can this release use a cache with the stamp? -/
def isCompatible (stamp : Stamp) : Bool :=
  stamp.formatVersion == currentFormat && majorOf stamp.release == majorOf currentRelease

end Stamp

end LiveExports
