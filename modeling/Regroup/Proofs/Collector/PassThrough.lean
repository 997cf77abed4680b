import Regroup.Message.Edit
import Regroup.Proofs.Collector.Departures
import Regroup.Proofs.Collector.Readiness
import Regroup.Proofs.Collector.Redelivery
import Regroup.Proofs.Store.Contents

/-!
# Messages that pass through

A collector that passes messages through emits the groups as they are. So the messages of a key
leave in the order in which they have joined its groups, over all lifetimes, and what is buffered
stands behind them. The only messages missing are those that have been evicted.

## Main definitions

* `Regroup.Collector.KeepsOrder` — that messages of a key leave in the order of their arrival.

## Main results

* `Regroup.Collector.map_message_of_leavesBy` — a group leaves with its messages in the order of
  their arrival.
* `Regroup.Collector.map_message_departures` — what has left and what is buffered in a lifetime.
* `Regroup.Collector.length_lt_of_allWait` — a group that waits for a number of messages has fewer.
* `Regroup.Collector.keepsOrder_of_calls` — messages leave in the order of their arrival, behind any
  calls.
-/

namespace Regroup

namespace Collector

variable {σ : Type} {c : Collector} {t : Transport σ} {key : Key} {w : World σ} {g : Group}

/-! ## A lifetime -/

/-- What leaves a group that passes through, be it ready or closed early, are its messages in the
order of their arrival. -/
lemma map_message_of_leavesBy (hp : c.processor = .passThrough) (hd : c.discards = true)
    (htakes : ∀ target, t.Takes target) {sends : List Send} (h : c.LeavesBy t g sends) :
    sends.map (·.message) = g.messages := by
  cases h with
  | ready state sends_eq =>
    have hreleased : (c.outOfReady g).released = g.messages := by
      rw [released_outOfReady, hp]
      rfl
    rw [sends_eq, delivered_of_takes t htakes, filter_isOutput_outgoingPlan, hreleased,
      List.map_map]
    exact List.map_id g.messages
  | closed state sends_eq =>
    rw [sends_eq, delivered_of_takes t htakes, map_message_outgoingPlan hd,
      c.outOfClosed_of_isProvided (by rw [hp]; rfl), hp]
    split
    · exact List.append_nil g.messages
    · exact List.nil_append g.messages

/-- What has left a group in a lifetime and what is buffered are what has been kept of what has
joined it. -/
theorem map_message_departures (hp : c.processor = .passThrough) (hd : c.discards = true)
    (htakes : ∀ target, t.Takes target) (hv : w.holdings.store.Valid) {calls : List Call}
    (hl : c.Lifetime t key w calls) :
    (c.departures t key w calls).map (·.message) ++
      (c.after t w calls).holdings.store.list key = c.kept t key w calls := by
  cases leavesWhole_of_lifetime (by rw [hp]; rfl) hv hl with
  | gathering g stored follows held nothing =>
    rw [nothing, Store.list_of_get? stored, held, List.map_nil, List.nil_append]
  | left g ended held sends =>
    have hlist : (c.after t w calls).holdings.store.list key = [] := by
      cases hg : groupIn (c.after t w calls) key with
      | none => exact Store.list_of_absent hg
      | some mark => rw [Store.list_of_get? hg, (ended mark hg).messages_eq]
    rw [map_message_of_leavesBy hp hd htakes sends, hlist, List.append_nil, held]

/-! ## Every call -/

variable (c t key) in
/-- Messages of the key leave in the order of their arrival, in one lifetime after the other. -/
structure KeepsOrder (w : World σ) (calls : List Call) : Prop where
  /-- The messages have joined the groups of the key in one lifetime after the other. -/
  history_eq : c.history t key w calls =
    (c.lifetimes t key w calls).flatMap fun l => c.history t key l.1 l.2
  /-- In none of the lifetimes has a message joined twice. -/
  nodup : ∀ l ∈ c.lifetimes t key w calls, (c.history t key l.1 l.2).Nodup
  /-- What has left and behind it what is buffered is what has joined and has not been evicted. -/
  left_append_buffered : (c.departures t key w calls).map (·.message) ++
      (c.after t w calls).holdings.store.list key =
    (c.lifetimes t key w calls).flatMap fun l => c.kept t key l.1 l.2
  /-- What has left has been sent, and the channels are where all that has been sent leads. -/
  hasSent : c.HasSent t w calls (c.departures t key w calls)

/-- What has left and what is buffered are what has been kept in one lifetime after the other.

**Proof sketch.** In every lifetime that is so (`map_message_departures`), and nothing is buffered
between two lifetimes. -/
private lemma departures_append_list (hp : c.processor = .passThrough) (hd : c.discards = true)
    (htakes : ∀ target, t.Takes target) (hv : w.holdings.store.Valid)
    (habsent : groupIn w key = none) (calls : List Call) :
    (c.departures t key w calls).map (·.message) ++
        (c.after t w calls).holdings.store.list key =
      (c.lifetimes t key w calls).flatMap fun l => c.kept t key l.1 l.2 := by
  refine lifetimes_induction c t key (P := fun w calls => groupIn w key = none →
      w.holdings.store.Valid → (c.departures t key w calls).map (·.message) ++
        (c.after t w calls).holdings.store.list key =
          (c.lifetimes t key w calls).flatMap fun l => c.kept t key l.1 l.2) ?_ ?_ habsent calls
    habsent hv
  · exact fun w habsent _ => Store.list_of_absent habsent
  · intro w life rest hl hne hgone ih _ hv
    have hlife := map_message_departures hp hd htakes hv hl
    rw [lifetimes_append hl hne hgone, List.flatMap_cons, ← hlife, after_append, departures,
      collect_append, List.map_append, List.append_assoc]
    rcases hgone with rfl | hgone
    · exact (List.append_nil _).symm
    · rw [Store.list_of_absent hgone, List.append_nil, ← ih hgone (c.valid_after t hv life)]
      rfl

/-- A group that waits for a number of messages holds fewer. -/
lemma length_lt_of_allWait {n : ℕ} (hrule : c.releaseRule = .count (.ofNat n)) (h : c.AllWait w)
    (hg : groupIn w key = some g) : g.length < max n 1 := by
  have hready := h key g hg
  rw [hrule] at hready
  exact not_le.1 (of_decide_eq_false (Bool.or_eq_false_iff.1 hready).1)

/-- **Messages that pass through leave in the order of their arrival**, behind any calls of a
collector with a channel for discarded messages, whatever its release rule and its settings are, if
the channels take everything. For every key the messages that have been released, or discarded
because their group was closed, and behind them those that are buffered, are what has joined the
groups of the key in one lifetime after the other and has not been evicted. A collector that waits
for a number of messages never holds that many in a group. The channels have taken all that has been
sent.

**Proof sketch.** In every lifetime a group leaves as a whole (`leavesWhole_of_lifetime`), and one
lifetime follows the other (`departures_append_list`). No ready group is left waiting
(`allWait_after`). -/
theorem keepsOrder_of_calls (c : Collector) (hp : c.processor = .passThrough)
    (hd : c.discards = true) (t : Transport σ) (htakes : ∀ target, t.Takes target) (channels : σ)
    (calls : List Call) :
    (∀ key, c.KeepsOrder t key (c.start channels) calls) ∧
      (∀ n, c.releaseRule = .count (.ofNat n) →
        ∀ key g, groupIn (c.after t (c.start channels) calls) key = some g →
          g.length < max n 1) ∧
      t.Carries channels (c.sends t (c.start channels) calls)
        (c.after t (c.start channels) calls).channels := by
  have hwhole : c.processor.releasesRuns = false := by
    rw [hp]
    rfl
  refine ⟨fun key => ⟨?_, fun l hmem => ?_, ?_, ?_⟩, fun n hrule key g hg => ?_, ?_⟩
  · exact history_eq_flatMap rfl calls
  · exact nodup_history (by rw [hp]; rfl) (valid_of_mem_lifetimes (Store.valid_empty _) rfl hmem)
      (exists_of_mem_lifetimes rfl hmem).1 fun m _ _ => fits_of_whole hwhole m
  · exact departures_append_list hp hd htakes (Store.valid_empty _) rfl calls
  · exact c.hasSent_departures t key (c.start channels) calls
  · exact length_lt_of_allWait hrule (allWait_after (by rw [hrule]; rfl) hwhole t channels calls) hg
  · exact (c.leads_after t (c.start channels) calls).carries htakes

/-- A group of three is released behind an eviction and leaves a mark. The mark is closed, and so is
a later group that is not ready. Then another message is buffered. -/
theorem keepsOrder_of_calls_closing :
    let m := fun payload headers => Message.build (.bare payload) (.correlationId "a" :: headers)
    let c := processing (Settings.default.withDiscardsLate true) (.correlation .refuse) .passThrough
      (some (.count (.ofNat 3))) true
    let one := m "one" [.sequence 1 4]
    let two := m "two" [.sequence 2 4]
    let three := m "three" [.sequence 3 4]
    let calls : List Call := [.handle (m "nine" [.sequenceNumber 9]) ⟨5⟩, .handle one ⟨6⟩,
      .handle (m "x" []) ⟨7⟩, .handle two ⟨8⟩, .handle three ⟨9⟩, .close "a", .handle three ⟨10⟩,
      .close "a", .handle (m "y" []) ⟨11⟩]
    c.departures .recording "a" (c.start []) calls =
        [.release one, .release (m "x" []), .release two, .discard three] ∧
      (c.after .recording (c.start []) calls).holdings.store.list "a" = [m "y" []] ∧
      c.history .recording "a" (c.start []) calls =
        [m "nine" [.sequenceNumber 9], one, m "x" [], two, three, m "y" []] ∧
      c.KeepsOrder .recording "a" (c.start []) calls ∧
      (∀ key g, groupIn (c.after .recording (c.start []) calls) key = some g → g.length < 3) ∧
      Transport.recording.Carries [] (c.sends .recording (c.start []) calls)
        (c.after .recording (c.start []) calls).channels := by
  intro m c one two three calls
  have h := keepsOrder_of_calls c rfl rfl .recording Transport.takes_recording [] calls
  refine ⟨by decide, by decide, by decide, h.1 "a", fun key g hg => ?_, h.2.2⟩
  exact (h.2.1 3 rfl key g hg).trans_le (by decide)

end Collector

end Regroup
