import Regroup.Delivery.Plan
import Regroup.Delivery.Queue
import Regroup.Dict

/-!
# Networks of channels

The channels that messages can be sent to, by their identities. Two identities are reserved: the
common output and the channel for discarded messages. Each is there or not.

## Main definitions

* `Regroup.Network` — channels by identity.
* `Regroup.Network.send` — a planned send.
* `Regroup.Network.transport` — the network as a transport of planned sends.
-/

namespace Regroup

/-- The identity of the common output. -/
def ChannelId.output : ChannelId := "output"

/-- The identity of the channel for discarded messages. -/
def ChannelId.discard : ChannelId := "discard"

/-- The identity of the channel that a planned send goes to. -/
def Target.channel : Target → ChannelId
  | .reply channel => channel
  | .output => ChannelId.output
  | .discard => ChannelId.discard

/-- Channels by identity. -/
structure Network where
  /-- The channels that are there. -/
  channels : Dict ChannelId Channel

namespace Network

variable (n : Network)

/-- Makes a planned send with a limit on the time that it waits. -/
def send (timeout : Option Duration) (s : Send) : Except DispatchFailure Network :=
  match n.channels.get? s.target.channel with
  | none => .error .noDestination
  | some channel => do
    let channel ← channel.send s.message timeout
    return ⟨n.channels.insert s.target.channel channel⟩

/-- The network as a transport whose sends wait for a limited time. A failed send leaves the network
as it is. -/
def transport (timeout : Option Duration) : Transport Network := ⟨fun n s =>
  match n.send timeout s with
  | .ok n => (none, n)
  | .error cause => (some cause, n)⟩

/-- Whether a channel is there. -/
def has (id : ChannelId) : Bool := n.channels.contains id

/-- The queue behind a channel, if there is one. -/
def queue? (id : ChannelId) : Option Queue := (n.channels.get? id).bind Channel.queue?

/-- The network with another queue behind a channel. -/
def setQueue (id : ChannelId) (q : Queue) : Network := ⟨n.channels.insert id (.queue q)⟩

/-- All queues with the identities of their channels. -/
def queues : List (ChannelId × Queue) :=
  n.channels.entries.filterMap fun e => e.2.queue?.map fun q => (e.1, q)

end Network

end Regroup
