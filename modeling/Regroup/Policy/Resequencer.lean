/-!
# Resequencing

A resequencer releases the messages of a sequence by ascending position. It waits for the whole
sequence, or releases each unbroken run of positions as soon as it is there. It is both the rule
that says when a group is ready and the way in which a ready group is processed.

## Main definitions

* `Regroup.Resequencer` — which of the two it does.
-/

namespace Regroup

/-- A way to release the messages of a sequence by ascending position. -/
structure Resequencer where
  /-- Whether unbroken runs are released before the whole sequence is there. -/
  releasesRuns : Bool
  deriving DecidableEq, Repr

instance : Inhabited Resequencer := ⟨⟨false⟩⟩

end Regroup
