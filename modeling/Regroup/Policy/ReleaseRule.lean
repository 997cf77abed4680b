import Regroup.Group.Basic
import Regroup.Policy.Resequencer

/-!
# When a group is ready

A release rule decides from a group alone whether it is ready to be processed. Besides the rules
provided here any such decision can be one.

## Main definitions

* `Regroup.Threshold` — a positive number of messages.
* `Regroup.ReleaseRule` — the rules.
* `Regroup.ReleaseRule.isReady` — the decision.
-/

namespace Regroup

/-- A positive number of messages. -/
structure Threshold where
  /-- The number. -/
  value : Nat
  /-- There is at least one message to wait for. -/
  pos : 0 < value
  deriving DecidableEq

namespace Threshold

/-- The threshold of a number, zero raised to one. -/
def ofNat (n : Nat) : Threshold := ⟨max n 1, by omega⟩

instance : Inhabited Threshold := ⟨ofNat 1⟩

@[simp] theorem value_ofNat (n : Nat) : (ofNat n).value = max n 1 := rfl

end Threshold

/-- When a group is ready to be processed. -/
inductive ReleaseRule where
  /-- As soon as it holds a message. -/
  | always
  /-- Once it holds so many messages, or as many as its sequence is long. -/
  | count (threshold : Threshold)
  /-- Once it holds every position of its sequence. -/
  | wholeSequence
  /-- Once the resequencer could release something. -/
  | resequencing (r : Resequencer)
  /-- Once a decision that is not provided says so. -/
  | custom (isReady : Group → Bool)

/-- Whether the rule is one of those provided. -/
def ReleaseRule.isProvided : ReleaseRule → Bool
  | .always | .count _ | .wholeSequence | .resequencing _ => true
  | .custom _ => false

/-- Whether the rule declares a group ready. -/
def ReleaseRule.isReady (rule : ReleaseRule) (g : Group) : Bool :=
  match rule with
  | .always => !g.isEmpty
  | .count threshold =>
    threshold.value ≤ g.length ||
      match g.size with
      | some size => g.length = size.toNat
      | none => false
  | .wholeSequence => g.hasWholeSequence
  | .resequencing r => if r.releasesRuns then g.holds g.barrier.next else g.hasWholeSequence
  | .custom isReady => isReady g

end Regroup
