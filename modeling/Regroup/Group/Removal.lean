import Regroup.Group.Basic

/-!
# Taking messages out of a group

The ways in which messages leave a group: all at once, the numbered ones in order, those beyond
the end of the sequence, and the run of positions that is due next.

## Main definitions

* `Regroup.Group.takeAll` — all messages in the order of their arrival.
* `Regroup.Group.takeNumbered` — the numbered ones by position, equal positions in order of arrival.
* `Regroup.Group.dropBeyond`, `Regroup.Group.droppedBeyond` — drops the positions beyond a sequence
  length, and how many messages that were.
* `Regroup.Group.releaseRun` — the unbroken run of positions from the one that is due next.
* `Regroup.Group.complete` — the group as a mark that its sequence has been released for good.
* `Regroup.Group.ReducesTo` — that a group has become another one because messages left it.
-/

namespace Regroup

namespace Group

/-! ## Ordering by position -/

/-- Puts a message in front of the first one whose position is not below its own. -/
def insertOrdered (m : Message) : List Message → List Message
  | [] => [m]
  | other :: rest =>
    if m.number.getD 0 ≤ other.number.getD 0 then m :: other :: rest
    else other :: insertOrdered m rest

/-- The messages by ascending position, equal positions in their order. -/
def ordered (ms : List Message) : List Message := ms.foldr insertOrdered []

/-! ## Runs -/

/-- The first message at a position, and the list without it. -/
def extract (n : SequenceNumber) : List Message → Option (Message × List Message)
  | [] => none
  | m :: rest =>
    if m.number = some n then some (m, rest)
    else (extract n rest).map fun found => (found.1, m :: found.2)

/-- What a search for the next run has found: the messages released, the barrier behind them, and
the messages left. -/
structure Run where
  /-- The messages at the positions of the run, in order. -/
  released : List Message
  /-- The barrier behind the run. -/
  barrier : Barrier
  /-- The other messages in the order of their arrival. -/
  left : List Message
  deriving DecidableEq

/-- Takes messages at the position due next, one after the other, until a position is missing or
the sequence has come to its end. Every round takes a message, so as many rounds as there are
messages are enough. -/
def run (size : Option SequenceNumber) : Nat → Barrier → List Message → Run
  | 0, b, ms => ⟨[], b, ms⟩
  | rounds + 1, b, ms =>
    if b.isPast size then ⟨[], b, ms⟩
    else
      match extract b.next ms with
      | none => ⟨[], b, ms⟩
      | some (m, rest) =>
        let later := run size rounds b.step rest
        { later with released := m :: later.released }

/-! ## Removal -/

variable (g : Group)

/-- Takes all messages, in the order of their arrival. -/
def takeAll : List Message × Group := (g.messages, { g with messages := [] })

/-- Takes the numbered messages by position; the others stay. -/
def takeNumbered : List Message × Group :=
  (ordered (g.messages.filter (·.isNumbered)),
    { g with messages := g.messages.filter (!·.isNumbered) })

/-- Whether the message has no position beyond the length of a sequence. -/
def isWithin (size : SequenceNumber) (m : Message) : Bool :=
  match m.number with
  | some n => n ≤ size
  | none => true

/-- The buffered messages at positions beyond the length of a sequence. -/
def beyond (size : SequenceNumber) : List Message := g.messages.filter (!isWithin size ·)

/-- Drops the messages at positions beyond the length of a sequence, which no longer count as
received. -/
def dropBeyond (size : SequenceNumber) : Group :=
  { g with
    messages := g.messages.filter (isWithin size)
    received := g.received - (g.beyond size).length }

/-- The number of messages dropped with those positions: by so many the group has become shorter. -/
def droppedBeyond (size : SequenceNumber) : Nat := g.length - (g.dropBeyond size).length

/-- Takes the unbroken run of positions that is due next and moves the barrier behind it. -/
def releaseRun : List Message × Group :=
  let found := run g.size g.messages.length g.barrier g.messages
  (found.released, { g with messages := found.left, barrier := found.barrier })

/-- The group without messages, as a mark that it has been released for good. -/
def complete : Group := { g with messages := [], completed := true }

/-- What becomes of a group that messages are taken out of, in any of these ways and any number of
times. Nothing else that a group knows can be changed while it is processed. -/
inductive ReducesTo (g : Group) : Group → Prop where
  /-- Nothing is taken out. -/
  | refl : ReducesTo g g
  /-- All messages are taken out last. -/
  | takeAll {left : Group} (h : ReducesTo g left) : ReducesTo g left.takeAll.2
  /-- The numbered messages are taken out last. -/
  | takeNumbered {left : Group} (h : ReducesTo g left) : ReducesTo g left.takeNumbered.2
  /-- The run that is due next is taken out last. -/
  | releaseRun {left : Group} (h : ReducesTo g left) : ReducesTo g left.releaseRun.2

/-! ## Laws -/

/-- A message found at a position leaves one message less behind. -/
theorem length_of_extract {n : SequenceNumber} {ms rest : List Message} {m : Message}
    (h : extract n ms = some (m, rest)) : ms.length = rest.length + 1 := by
  induction ms generalizing rest with
  | nil => simp [extract] at h
  | cons x xs ih =>
    simp only [extract] at h
    split at h
    · simp only [Option.some.injEq, Prod.mk.injEq] at h
      simp [h.2]
    · obtain ⟨⟨y, ys⟩, hy, he⟩ := Option.map_eq_some_iff.1 h
      simp only [Prod.mk.injEq] at he
      obtain ⟨rfl, rfl⟩ := he
      simp [ih hy]

/-- Nothing is lost by taking the numbered messages. -/
theorem length_insertOrdered (m : Message) (ms : List Message) :
    (insertOrdered m ms).length = ms.length + 1 := by
  induction ms with
  | nil => rfl
  | cons x xs ih => simp only [insertOrdered]; split <;> simp [ih]

end Group

end Regroup
