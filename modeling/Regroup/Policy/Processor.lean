import Regroup.Group.Removal
import Regroup.Policy.Resequencer

/-!
# What a group emits

A processor turns a ready group into messages to be sent on, in the order in which they are to be
sent. What it uses up leaves the group. Besides the processors provided here anything that keeps to
this can be one.

## Main definitions

* `Regroup.Emission` — messages to be sent, and whether the group has emitted all it ever will.
* `Regroup.CustomProcessor` — a processor that is not provided, and what it is bound to.
* `Regroup.Processor` — the ways to process a group.
* `Regroup.Processor.process` — what a ready group emits.
* `Regroup.Processor.processEarly` — what a group emits that is closed before it is ready.
-/

namespace Regroup

/-- Messages that a group emits, in the order in which they are to be sent. -/
inductive Emission where
  /-- The group has emitted everything it ever will. -/
  | final (messages : List Message)
  /-- The group stays to emit more. -/
  | interim (messages : List Message)
  deriving DecidableEq

namespace Emission

/-- The messages to be sent. -/
def messages : Emission → List Message
  | .final ms => ms
  | .interim ms => ms

/-- Whether the group has emitted everything it ever will. -/
def isFinal : Emission → Bool
  | .final _ => true
  | .interim _ => false

end Emission

/-- A way to process groups that is not provided. It may emit whatever messages it likes. In return
for being handed the group itself it owes that the messages that it uses up are removed from the
group, and that it does nothing else to the group. The only ways in which messages can be removed
are those of the processors provided, to which it may hand the group on. In particular it never puts
another group in its place, be it a new one or one kept from before. -/
structure CustomProcessor where
  /-- What a ready group emits, and what is left of it. -/
  process : Group → Emission × Group
  /-- What a group emits that is closed before it is ready, and what is left of it. -/
  processEarly : Group → List Message × Group
  /-- A ready group is left without the messages that are used up. -/
  reducesTo_process : ∀ g : Group, g.ReducesTo (process g).2
  /-- So is a group that is closed before it is ready. -/
  reducesTo_processEarly : ∀ g : Group, g.ReducesTo (processEarly g).2

/-- How a ready group is turned into messages. -/
inductive Processor where
  /-- Its messages are emitted unchanged in the order of their arrival. -/
  | passThrough
  /-- Its messages are folded into a single one, whose payload a function of them gives. -/
  | aggregate (combine : List Message → Payload)
  /-- Its numbered messages are emitted by ascending position. -/
  | resequence (r : Resequencer)
  /-- They are processed in a way that is not provided. -/
  | custom (p : CustomProcessor)

/-- The message that stands for a non-empty list of messages: its correlation header is that of the
first, its reply channel that of the first that has one, and it has no other header. -/
def aggregateOf (combine : List Message → Payload) (first : Message) (rest : List Message) :
    Message :=
  { payload := combine (first :: rest)
    headers :=
      { Headers.none with
        correlationId := first.correlationId
        replyChannel := (first :: rest).findSome? (·.reply) } }

namespace Processor

/-- Whether the processor is one of those provided. -/
def isProvided : Processor → Bool
  | .passThrough | .aggregate _ | .resequence _ => true
  | .custom _ => false

/-- What a ready group emits, and what is left of it. -/
def process (p : Processor) (g : Group) : Emission × Group :=
  match p with
  | .passThrough =>
    let (messages, left) := g.takeAll
    (.final messages, left)
  | .aggregate combine =>
    match g.takeAll with
    | ([], left) => (.final [], left)
    | (first :: rest, left) => (.final [aggregateOf combine first rest], left)
  | .resequence r =>
    if r.releasesRuns then
      let (messages, left) := g.releaseRun
      (if left.isDrained then .final messages else .interim messages, left)
    else
      let (messages, left) := g.takeNumbered
      (.final messages, left)
  | .custom p => p.process g

/-- What a group emits that is closed before it is ready, and what is left of it. A resequencer
then emits every numbered message, whether its run is due or not. -/
def processEarly (p : Processor) (g : Group) : List Message × Group :=
  match p with
  | .resequence _ => g.takeNumbered
  | .custom p => p.processEarly g
  | .passThrough | .aggregate _ =>
    let (emission, left) := p.process g
    (emission.messages, left)

end Processor

end Regroup
