import Regroup.Message.Edit
import Regroup.Policy.Combine
import Regroup.Proofs.Collector.Departures
import Regroup.Proofs.Collector.Redelivery

/-!
# One aggregate for each group

A collector that aggregates folds a group into a single message. A group leaves as a whole, so in
one lifetime at most one message is sent to the output path for it, and that message stands for
everything that has joined the group and has not been evicted.

## Main definitions

* `Regroup.IsAggregateOf` — that a send carries the message that stands for some messages.
* `Regroup.Collector.SendsAggregates` — that one aggregate at most is sent in each lifetime.

## Main results

* `Regroup.isAggregateOf_release` — what aggregating emits stands for the messages of the group.
* `Regroup.Collector.emissions_of_lifetime` — what is sent in a lifetime.
* `Regroup.Collector.sendsAggregates_of_calls` — what is sent in one lifetime after the other,
  behind any calls.
-/

namespace Regroup

/-! ## Aggregates -/

/-- A send carries the message that stands for a non-empty list of messages. Its payload is a
function of them, its correlation header is that of the first, and its reply channel, to which it
goes, is that of the first that has one. Without a reply channel it goes to the output. It has no
other header. -/
structure IsAggregateOf (combine : List Message → Payload) (members : List Message) (x : Send) :
    Prop where
  nonempty : members ≠ []
  payload : x.message.payload = combine members
  correlationId : x.message.correlationId = members.head?.bind (·.correlationId)
  reply : x.message.reply = members.findSome? (·.reply)
  target : x.target = (members.findSome? (·.reply)).elim .output .reply
  number : x.message.number = none
  size : x.message.size = none
  extra : x.message.headers.extra = Dict.empty

/-- The aggregate of some messages is released as one. -/
lemma isAggregateOf_release (combine : List Message → Payload) (first : Message)
    (rest : List Message) :
    IsAggregateOf combine (first :: rest) (.release (aggregateOf combine first rest)) where
  nonempty := List.cons_ne_nil first rest
  payload := rfl
  correlationId := rfl
  reply := rfl
  target := Send.target_release _
  number := rfl
  size := rfl
  extra := rfl

/-- Aggregating emits nothing of a group that holds nothing, and else one message. -/
lemma Processor.messages_process_aggregate (combine : List Message → Payload) (g : Group) :
    ((aggregate combine).process g).1.messages =
      match g.messages with
      | [] => []
      | first :: rest => [aggregateOf combine first rest] := by
  unfold process Group.takeAll
  cases g.messages <;> rfl

namespace Collector

variable {σ : Type} {c : Collector} {t : Transport σ} {key : Key} {w : World σ} {g : Group}
  {combine : List Message → Payload}

/-! ## A lifetime -/

/-- What leaves a group that is aggregated, be it ready or closed early, is nothing or the aggregate
of its messages. -/
lemma filter_isOutput_of_leavesBy (hp : c.processor = .aggregate combine) {sends : List Send}
    (h : c.LeavesBy t g sends) :
    sends.filter (·.isOutput) = [] ∨
      ∃ x, sends.filter (·.isOutput) = [x] ∧ IsAggregateOf combine g.messages x := by
  obtain ⟨released, hprefix, hreleased⟩ : ∃ released : List Message,
      sends.filter (·.isOutput) <+: released.map Send.release ∧
        (released = [] ∨ released = ((Processor.aggregate combine).process g).1.messages) := by
    cases h with
    | ready state sends_eq =>
      refine ⟨_, ?_, .inr ((c.released_outOfReady g).trans (by rw [hp]))⟩
      rw [sends_eq, List.filter_filter]
      simpa using delivered_prefix_released (c := c) (t := t) state (c.outOfReady g)
    | closed state sends_eq =>
      refine ⟨(c.outOfClosed g).released, ?_, ?_⟩
      · rw [sends_eq]
        exact delivered_prefix_released state _
      · rw [c.outOfClosed_of_isProvided (by rw [hp]; rfl), hp]
        split
        · exact .inr rfl
        · exact .inl rfl
  rw [Processor.messages_process_aggregate] at hreleased
  cases hm : g.messages with
  | nil =>
    simp only [hm, or_self] at hreleased
    rw [hreleased, List.map_nil, List.prefix_nil] at hprefix
    exact .inl hprefix
  | cons first rest =>
    rcases hreleased with rfl | hreleased
    · rw [List.map_nil, List.prefix_nil] at hprefix
      exact .inl hprefix
    · rw [hreleased, hm] at hprefix
      refine (List.prefix_cons_iff.1 hprefix).imp_right ?_
      rintro ⟨more, heq, hmore⟩
      rw [List.map_nil, List.prefix_nil] at hmore
      exact ⟨_, by rw [heq, hmore], isAggregateOf_release combine first rest⟩

/-- In a lifetime nothing is sent to the output path, or the aggregate of what has joined and has
not been evicted. -/
theorem emissions_of_lifetime (hp : c.processor = .aggregate combine)
    (hv : w.holdings.store.Valid) {calls : List Call} (hl : c.Lifetime t key w calls) :
    c.emissions t key w calls = [] ∨
      ∃ x, c.emissions t key w calls = [x] ∧ IsAggregateOf combine (c.kept t key w calls) x := by
  rw [← filter_isOutput_departures]
  cases leavesWhole_of_lifetime (by rw [hp]; rfl) hv hl with
  | gathering g _ _ _ nothing => exact .inl (by rw [nothing, List.filter_nil])
  | left g _ held sends =>
    rw [← held]
    exact filter_isOutput_of_leavesBy hp sends

/-! ## Every call -/

/-- What is sent to the output path is sent in one lifetime after the other. -/
lemma emissions_eq_flatMap (habsent : groupIn w key = none) (calls : List Call) :
    c.emissions t key w calls =
      (c.lifetimes t key w calls).flatMap fun l => c.emissions t key l.1 l.2 :=
  collect_eq_flatMap (c.emitted t key) habsent calls

/-- A message joins the group of one key only. -/
lemma accepted_eq_nil_of_ne {key' : Key} (hne : key' ≠ key) {call : Call}
    (hacc : c.accepted key w call ≠ []) : c.accepted key' w call = [] := by
  cases call with
  | close k => rfl
  | expire now => rfl
  | handle m now =>
    simp only [accepted, ne_eq, ite_eq_right_iff, reduceCtorEq, imp_false, not_not] at hacc
    refine if_neg fun hacc' => hne ?_
    exact Option.some.inj (hacc'.1.symm.trans hacc.1)

variable (c combine t key) in
/-- In each lifetime of the groups of the key at most one message is sent to the output path, which
stands for what has joined then and has not been evicted. -/
structure SendsAggregates (w : World σ) (calls : List Call) : Prop where
  /-- What is sent for the key is sent in one lifetime after the other. -/
  emissions_eq : c.emissions t key w calls =
    (c.lifetimes t key w calls).flatMap fun l => c.emissions t key l.1 l.2
  /-- In each of them that is nothing, or one aggregate of what has joined and has not been
  evicted. -/
  aggregate : ∀ l ∈ c.lifetimes t key w calls, c.emissions t key l.1 l.2 = [] ∨
    ∃ x, c.emissions t key l.1 l.2 = [x] ∧ IsAggregateOf combine (c.kept t key l.1 l.2) x
  /-- In none of them does a message join twice. -/
  nodup : ∀ l ∈ c.lifetimes t key w calls, (c.history t key l.1 l.2).Nodup
  /-- The members of all aggregates are some of what has joined, one after the other, so nothing
  that has joined is a member of two. -/
  members_sublist : ((c.lifetimes t key w calls).flatMap fun l => c.kept t key l.1 l.2).Sublist
    (c.history t key w calls)

/-- **At most one aggregate is sent in each lifetime of a group**, behind any calls of a collector
that aggregates, whatever its release rule and its settings are and whatever becomes of the sends.
It stands for everything that has joined the group in that lifetime and has not been evicted, in the
order of arrival. Nothing else is sent to the output path, and no message joins the groups of two
keys.

**Proof sketch.** In every lifetime a group leaves as a whole (`leavesWhole_of_lifetime`), so what
is sent then is nothing or the aggregate of what it held (`emissions_of_lifetime`). Whatever goes to
the output path goes there for some key (`exists_mem_emissions`). -/
theorem sendsAggregates_of_calls (c : Collector) (combine : List Message → Payload)
    (hp : c.processor = .aggregate combine) (t : Transport σ) (channels : σ) (calls : List Call) :
    (∀ key, c.SendsAggregates t key combine (c.start channels) calls) ∧
      (∀ x ∈ c.sends t (c.start channels) calls, x.isOutput = true →
        ∃ key, ∃ l ∈ c.lifetimes t key (c.start channels) calls,
          c.emissions t key l.1 l.2 = [x] ∧ IsAggregateOf combine (c.kept t key l.1 l.2) x) ∧
      ∀ key key' before call, key' ≠ key →
        c.accepted key (c.after t (c.start channels) before) call ≠ [] →
          c.accepted key' (c.after t (c.start channels) before) call = [] := by
  have hv : (c.start channels).holdings.store.Valid := Store.valid_empty _
  have haggregate : ∀ key, ∀ l ∈ c.lifetimes t key (c.start channels) calls,
      c.emissions t key l.1 l.2 = [] ∨ ∃ x, c.emissions t key l.1 l.2 = [x] ∧
        IsAggregateOf combine (c.kept t key l.1 l.2) x :=
    fun key l hmem => emissions_of_lifetime hp (valid_of_mem_lifetimes hv rfl hmem)
      (exists_of_mem_lifetimes rfl hmem).1
  refine ⟨fun key => ⟨emissions_eq_flatMap rfl calls, haggregate key, fun l hmem => ?_, ?_⟩,
    fun x hx houtput => ?_, fun key key' before call hne => accepted_eq_nil_of_ne hne⟩
  · exact nodup_history (by rw [hp]; rfl) (valid_of_mem_lifetimes hv rfl hmem)
      (exists_of_mem_lifetimes rfl hmem).1 fun m _ _ => fits_of_whole (by rw [hp]; rfl) m
  · exact flatMap_kept_sublist rfl calls
  · obtain ⟨key, hsent⟩ := c.exists_mem_emissions t hx houtput
    rw [emissions_eq_flatMap rfl] at hsent
    obtain ⟨l, hmem, hxl⟩ := List.mem_flatMap.1 hsent
    refine ⟨key, l, hmem, ?_⟩
    rcases haggregate key l hmem with hnone | ⟨y, hone, hof⟩
    · rw [hnone] at hxl
      simp at hxl
    · rw [hone, List.mem_singleton] at hxl
      exact hxl ▸ ⟨hone, hof⟩

/-- A group is released behind an eviction and leaves a mark, which is closed. A later group is
closed before it is ready. -/
theorem sendsAggregates_of_calls_closing :
    let m := fun payload headers => Message.build (.bare payload) (.correlationId "a" :: headers)
    let settings := { Settings.default with discardsLate := true, sendsEarlyResults := true }
    let c := processing settings (.correlation .refuse) (.aggregate Combine.latest)
      (some (.count (.ofNat 2))) true
    let one := m "one" [.sequence 1 4]
    let x := m "x" [.replyChannel "r"]
    let three := m "three" [.sequence 3 4]
    let calls : List Call := [.handle (m "nine" [.sequenceNumber 9]) ⟨5⟩, .handle one ⟨6⟩,
      .handle x ⟨7⟩, .close "a", .handle three ⟨8⟩, .close "a"]
    (c.lifetimes .recording "a" (c.start []) calls).map
        (fun l => (c.kept .recording "a" l.1 l.2, c.emissions .recording "a" l.1 l.2)) =
        [([one, x], [⟨m "x" [.replyChannel "r"], .reply "r"⟩]),
          ([three], [⟨m "three" [], .output⟩])] ∧
      ∀ key, c.SendsAggregates .recording key Combine.latest (c.start []) calls := by
  intro m settings c one x three calls
  exact ⟨by decide, (sendsAggregates_of_calls c Combine.latest rfl .recording [] calls).1⟩

end Collector

end Regroup
