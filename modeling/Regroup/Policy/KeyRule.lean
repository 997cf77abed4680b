import Regroup.Group.Basic

/-!
# Which group a message joins

A key rule gives each message the key of its group, or none. The usual rule reads the correlation
header. A message without that header has no key, or gets one that was never issued before; which
of the two is a policy.

## Main definitions

* `Regroup.KeyRule` — how keys are found.
* `Regroup.KeyRule.resolve` — the key of a message, and the number of keys issued so far.
* `Regroup.KeyRule.byHeader`, `Regroup.KeyRule.byStem` — rules that look elsewhere.
-/

namespace Regroup

/-- What becomes of messages without a correlation header. -/
inductive MissingKeyPolicy where
  /-- They have no key. -/
  | refuse
  /-- Each gets a newly issued key. -/
  | issue
  deriving DecidableEq, Repr, Inhabited

/-- How the key of a message is found. -/
inductive KeyRule where
  /-- The correlation header is the key. -/
  | correlation (missing : MissingKeyPolicy)
  /-- A function of the message is the key. -/
  | derived (key : Message → Option Key)

namespace KeyRule

/-- The issued key of a number. -/
def issuedKey (n : UInt64) : Key := "singleton-" ++ toString n.toNat

/-- The key of a message, and the number of keys issued so far, which counts in 64 bits. -/
def resolve (rule : KeyRule) (issued : UInt64) (m : Message) : Option Key × UInt64 :=
  match rule with
  | .derived key => (key m, issued)
  | .correlation missing =>
    match m.correlationId, missing with
    | some id, _ => (some id, issued)
    | none, .refuse => (none, issued)
    | none, .issue => (some (issuedKey issued), issued + 1)

/-- The keys of messages that are resolved one after the other. -/
def resolveAll (rule : KeyRule) (issued : UInt64) : List Message → List (Option Key)
  | [] => []
  | m :: ms =>
    let (key, issued) := rule.resolve issued m
    key :: rule.resolveAll issued ms

/-- The policy for messages without a correlation header, where the rule reads that header. -/
def missing? : KeyRule → Option MissingKeyPolicy
  | .correlation missing => some missing
  | .derived _ => none

/-- The value of a free header is the key. -/
def byHeader (name : String) : KeyRule := .derived fun m => m.header name

/-- The payload up to its first hyphen is the key; without a hyphen there is none. -/
def byStem : KeyRule := .derived fun m =>
  let cs := m.payload.toList
  if cs.contains '-' then some (String.ofList (cs.takeWhile (· ≠ '-'))) else none

/-- Only messages without a correlation header under the issuing policy use up a key. -/
theorem resolve_snd (rule : KeyRule) (issued : UInt64) (m : Message) :
    (rule.resolve issued m).2 =
      if rule.missing? = some .issue ∧ m.correlationId = none then issued + 1 else issued := by
  unfold resolve missing?
  cases rule with
  | derived key => simp
  | correlation missing => cases hm : m.correlationId <;> cases missing <;> simp

end KeyRule

end Regroup
