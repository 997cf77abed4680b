import Regroup.Failure
import Regroup.Message.Basic

/-!
# Planned sends

What a call of a collector wants to send is a list, fixed before anything is sent. Carrying it out
is a matter of its own: the sends are made one after the other, and the first that fails ends it.

## Main definitions

* `Regroup.Target`, `Regroup.Send` — where a message is to go, and the message with it.
* `Regroup.Transport` — how single sends succeed or fail in some world of channels.
* `Regroup.deliver` — the sends of a list, up to the first failure.

## Main statements

* `Regroup.delivered_append_left` — what is delivered and what is left make up the plan.
-/

namespace Regroup

/-- Where a message is to go. -/
inductive Target where
  /-- To the channel that the message asks for. -/
  | reply (channel : ChannelId)
  /-- To the common output. -/
  | output
  /-- To the channel for discarded messages. -/
  | discard
  deriving DecidableEq

/-- A message with the place where it is to go. -/
structure Send where
  /-- The message. -/
  message : Message
  /-- Where it is to go. -/
  target : Target
  deriving DecidableEq

namespace Send

/-- A released message goes to its own reply channel, or else to the common output. -/
def release (m : Message) : Send :=
  ⟨m, match m.reply with
    | some channel => .reply channel
    | none => .output⟩

/-- A discarded message goes to the channel for those. -/
def discard (m : Message) : Send := ⟨m, .discard⟩

/-- Whether the message goes to its reply channel or the common output. -/
def isOutput (s : Send) : Bool := s.target ≠ .discard

end Send

/-- How single sends succeed or fail, for channels whose state is of type `σ`. Nothing is asked of
them: channels that answer from a list are a transport too, and with those a run meets whatever
others do to the channels in between (`Collector.exists_scripted_run`). -/
structure Transport (σ : Type) where
  /-- Why a send failed, if it did, and the state behind it. A failed send may change the state
  too: the next one finds the channels as others have left them meanwhile. -/
  send : σ → Send → Option DispatchFailure × σ

/-- What has become of a list of planned sends. -/
structure Delivery (σ : Type) where
  /-- The state of the channels behind the sends. -/
  state : σ
  /-- The sends that were made, in order. -/
  delivered : List Send
  /-- The sends that were not made, the failed one in front. -/
  left : List Send
  /-- Why the first send that was not made failed. -/
  failure : Option DispatchFailure

/-- Makes planned sends one after the other, up to the first that fails. -/
def deliver {σ : Type} (t : Transport σ) (state : σ) : List Send → Delivery σ
  | [] => ⟨state, [], [], none⟩
  | s :: rest =>
    match t.send state s with
    | (none, state) =>
      let later := deliver t state rest
      { later with delivered := s :: later.delivered }
    | (some failure, state) => ⟨state, [], s :: rest, some failure⟩

variable {σ : Type} (t : Transport σ)

/-- What is delivered and what is left make up the plan, in order. -/
theorem delivered_append_left (state : σ) (plan : List Send) :
    (deliver t state plan).delivered ++ (deliver t state plan).left = plan := by
  induction plan generalizing state with
  | nil => rfl
  | cons s rest ih =>
    simp only [deliver]
    obtain ⟨failure, next⟩ := t.send state s
    cases failure with
    | some failure => rfl
    | none => simp [ih next]

/-- A delivery fails exactly when something is left. -/
theorem failure_eq_none_iff (state : σ) (plan : List Send) :
    (deliver t state plan).failure = none ↔ (deliver t state plan).left = [] := by
  induction plan generalizing state with
  | nil => simp [deliver]
  | cons s rest ih =>
    simp only [deliver]
    obtain ⟨failure, next⟩ := t.send state s
    cases failure with
    | some failure => simp
    | none => simpa using ih next

end Regroup
