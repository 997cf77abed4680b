import Regroup.Message.Edit
import Regroup.Proofs.Collector.Expiry
import Regroup.Proofs.Collector.Log
import Regroup.Proofs.Collector.Origin

/-!
# Late arrivals

A group that is released before its whole sequence has been there is to stay as a mark, so that
later messages of the sequence are turned away. Whether the whole sequence has been there is told
from the number of messages received. That counts the messages without a position too, which are no
part of the sequence; so where there are as many of those as positions are missing, no mark is left,
and what comes late opens a group of its own.

## Main definitions

* `Regroup.Collector.ReleasesWholly` — that handing in a message releases its group for good.
* `Regroup.Collector.Spares` — that calls do not close the group of a key.
* `Regroup.Collector.TurnsAway` — that messages are turned away until the group is closed.

## Main results

* `Regroup.Collector.turnsAway_of_completed` — a mark turns messages away.
* `Regroup.Collector.not_turnsAway_of_absent` — where no mark is left messages are not turned away.
* `Regroup.Collector.received_eq` — how many messages count as received.
* `Regroup.Collector.exists_groupIn_eq_ite` — when a mark is left.
* `Regroup.Collector.turnsAway_iff_of_lifetime` — when late messages are turned away.
-/

namespace Regroup

variable {σ : Type}

/-- A mark takes no message. -/
lemma Group.objection?_of_completed {g : Group} (hc : g.completed = true) (m : Message)
    (strict : Bool) : g.objection? m strict = some .completed := by
  unfold objection?
  rw [hc, if_pos rfl]

namespace Collector

variable (c : Collector) (t : Transport σ) (key : Key)

/-- Handing in a message releases its group for good: the message joins the group, which is ready
then and has emitted everything it ever will. -/
structure ReleasesWholly (w : World σ) (m : Message) (now : Instant) : Prop where
  isFor : c.IsFor w key m
  accepted : (c.handle w.holdings now m).1.verdict = .accepted
  ready : c.releaseRule.isReady ((w.holdings.store.groupOf key now).join m) = true
  final : (c.processor.process ((w.holdings.store.groupOf key now).join m)).1.isFinal = true

/-- The calls spare the group of the key: none of them closes it, and whenever one expires groups
it has not reached the age. -/
def Spares (w : World σ) (calls : List Call) : Prop :=
  ∀ front call rest, calls = front ++ call :: rest →
    call ≠ .close key ∧ ∀ now g, call = .expire now →
      groupIn (c.after t w front) key = some g → c.isExpired now g = false

/-- Messages are turned away as long as calls spare the group of the key: nothing is sent to the
output path for the key, and every well-formed message that is handed in under the key is
discarded. -/
def TurnsAway (w : World σ) : Prop :=
  ∀ calls, c.Spares t key w calls →
    c.emissions t key w calls = [] ∧
      ∀ m now, c.IsFor (c.after t w calls) key m → m.isWellFormed = true →
        (c.perform t (c.after t w calls) (.handle m now)).delivered = [.discard m]

variable {c t key} {w : World σ}

/-- A message that releases its group has joined it. -/
lemma ReleasesWholly.accepted_eq {m : Message} {now : Instant}
    (h : c.ReleasesWholly key w m now) : c.accepted key w (.handle m now) = [m] :=
  if_pos ⟨h.isFor, h.accepted⟩

/-- Calls before the last spare a group that all of them spare. -/
lemma Spares.front {front : List Call} {call : Call} (h : c.Spares t key w (front ++ [call])) :
    c.Spares t key w front := by
  rintro front' call' rest rfl
  exact h front' call' (rest ++ [call]) (by simp)

/-- Where there are no calls the group is spared. -/
lemma spares_nil (w : World σ) : c.Spares t key w [] := by
  intro front call rest he
  simp at he

/-! ## Marks -/

/-- A mark stays while it is spared, and nothing is sent to the output path for its key.

**Proof sketch.** Induction on the calls, the last one first. A call that closes the mark would not
spare it, and no message joins a mark. -/
lemma groupIn_after_of_spares {g : Group} (hv : w.holdings.store.Valid)
    (hg : groupIn w key = some g) (hc : g.completed = true) {calls : List Call}
    (hs : c.Spares t key w calls) :
    groupIn (c.after t w calls) key = some g ∧ c.emissions t key w calls = [] := by
  induction calls using List.reverseRecOn with
  | nil => exact ⟨hg, rfl⟩
  | append_singleton front call ih =>
    obtain ⟨hstored, hnothing⟩ := ih hs.front
    obtain ⟨hclose, hyoung⟩ := hs front call [] rfl
    rw [after_concat, emissions_concat, hnothing, List.nil_append]
    cases c.emits t key (c.valid_after t hv front) call with
    | quiet same _ emitted => exact ⟨same.trans hstored, emitted⟩
    | closed g' early _ gone =>
      exfalso
      cases call with
      | handle m now => exact early m now rfl
      | close k =>
        rw [groupIn_perform_close, if_neg fun hk => hclose (by rw [hk]), hstored] at gone
        simp at gone
      | expire now =>
        have hget := c.get?_expire now (c.after t w front).holdings.store key
        rw [show (c.after t w front).holdings.store.get? key = some g from hstored,
          Option.filter_some_pos (by simp [hyoung now g rfl hstored])] at hget
        exact absurd (gone.symm.trans hget) (by simp)
    | joined m now _ _ welcome =>
      rw [Store.groupOf_of_get? hstored, Group.objection?_of_completed hc] at welcome
      simp at welcome

/-- A mark turns messages away. -/
theorem turnsAway_of_completed (hdiscards : c.discards = true) (htakes : t.Takes .discard)
    (hv : w.holdings.store.Valid) {g : Group} (hg : groupIn w key = some g)
    (hc : g.completed = true) : c.TurnsAway t key w := by
  intro calls hs
  obtain ⟨hstored, hnothing⟩ := groupIn_after_of_spares hv hg hc hs
  refine ⟨hnothing, fun m now hfor hwf => ?_⟩
  have hobj : ((c.after t w calls).holdings.store.groupOf key now).objection? m
      c.settings.strictSize = some .completed := by
    rw [Store.groupOf_of_get? hstored, Group.objection?_of_completed hc]
  have hplan : (c.handle (c.after t w calls).holdings now m).1.plan = [.discard m] := by
    rw [c.plan_handle_of_objection hfor hwf hobj, objectionPlan, discardPlan, hdiscards,
      if_pos rfl]
    rfl
  rw [delivered_handle, hplan]
  refine delivered_eq_of_failure_eq_none t (failure_deliver ?_ _)
  intro x hx
  rw [List.mem_singleton.1 hx]
  exact htakes

/-! ## No mark -/

/-- A numbered message that opens a group of its own is not discarded, where groups are not released
run by run. -/
lemma discarded_outOfReady_join_new (hp : c.processor.releasesRuns = false) {m : Message}
    (hm : m.isNumbered = true) (key : Key) (now : Instant) :
    (c.outOfReady ((Group.new key now).join m)).discarded = [] := by
  have hmessages : ((Group.new key now).join m).messages = [m] := by rw [Group.join_new]
  unfold outOfReady
  cases hproc : c.processor with
  | passThrough => rfl
  | aggregate combine =>
    obtain ⟨ms, h⟩ := Processor.process_aggregate combine ((Group.new key now).join m)
    rw [h]
  | resequence r =>
    rw [hproc] at hp
    rw [Processor.process_whole hp]
    show ((Group.new key now).join m).messages.filter (!·.isNumbered) = []
    rw [hmessages]
    simp [hm]
  | custom p => simp [hproc, Processor.releasesRuns] at hp

/-- Where the key has no group a numbered message is not turned away, if groups are not released run
by run. -/
theorem not_turnsAway_of_absent (hv : w.holdings.store.Valid) (hg : groupIn w key = none)
    (hp : c.processor.releasesRuns = false) {m : Message} (hfor : c.IsFor w key m)
    (hwf : m.isWellFormed = true) (hm : m.isNumbered = true) : ¬ c.TurnsAway t key w := by
  intro hturns
  have hdelivered := (hturns [] (spares_nil w)).2 m default hfor hwf
  rw [after_nil, delivered_handle] at hdelivered
  have hmem : Send.discard m ∈ (c.handle w.holdings default m).1.plan :=
    mem_plan_of_mem_delivered t (hdelivered ▸ List.mem_cons_self)
  have hnew : w.holdings.store.groupOf key default = .new key default :=
    Store.groupOf_of_absent hg default
  cases c.outcome_handle hv default m with
  | refused reason verdict store plan =>
    -- a new group has no objection, so only the room can be missing
    have hrefusal : c.refusalPlan m (c.judge w.holdings default m) = [] := by
      unfold judge
      rw [show (c.keyRule.resolve w.holdings.issued m).1 = some key from hfor]
      simp only [hwf, if_true, hnew, objection?_new key default hwf]
      split <;> rfl
    rw [plan, c.verdict_handle hv, hrefusal] at hmem
    simp at hmem
  | accepted k resolved wellFormed welcome verdict plan =>
    obtain rfl : key = k := Option.some.inj (hfor.symm.trans resolved)
    rw [plan, hnew, receive] at hmem
    split at hmem
    · rw [settle_snd, outgoingPlan, discarded_outOfReady_join_new hp hm] at hmem
      have houtput : (Send.discard m).isOutput = true := by
        obtain ⟨a, -, ha⟩ := List.mem_map.1 (by simpa [discardPlan] using hmem)
        rw [← ha, Send.isOutput_release]
      simp at houtput
    · simp at hmem

/-- Messages can be handed in under the key of a message that has joined a group, whatever has been
issued since: those that tell the key, if keys are told. -/
lemma exists_isFor {issued : UInt64} {a : Message}
    (h : (c.keyRule.resolve issued a).1 = some key) (w : World σ) :
    ∃ m, c.IsFor w key m ∧ m.number = a.number ∧ m.size = a.size := by
  unfold IsFor
  cases hrule : c.keyRule with
  | derived keyOf => exact ⟨a, by rw [hrule] at h; exact h, rfl, rfl⟩
  | correlation missing => exact ⟨a.edit (.correlationId key), rfl, rfl, rfl⟩

/-! ## What counts as received -/

/-- Where groups are not released run by run, an open group counts as received the messages without
a position that it has accepted, and the positions of its sequence that have been taken. -/
theorem received_eq (hp : c.processor.releasesRuns = false) {g : Group} {accepted : List Message}
    (h : c.Follows g accepted) {n : SequenceNumber} (hn : g.size = some n) :
    g.received = (accepted.filter (!·.isNumbered)).length + (firsts accepted n.toNat).length := by
  have hstart : g.barrier.next.toNat = 1 := by
    rw [h.unmoved hp]
    rfl
  have htaken := h.reflects.takeNumbered h.undrained
  rw [hstart, hn, show Group.limit (some n) - 1 = n.toNat from rfl] at htaken
  have hnumbered :
      (g.messages.filter (·.isNumbered)).length = (firsts accepted n.toNat).length := by
    rw [firsts, ← htaken, Group.takeNumbered, Group.ordered_eq_insertionSort,
      List.length_insertionSort]
  have hparts := List.length_eq_length_filter_add (l := g.messages) (·.isNumbered)
  rw [h.reflects.received_eq, hstart, ← h.reflects.filter_unnumbered, ← hnumbered, Group.length]
  omega

/-! ## Late messages -/

/-- Groups that are released run by run are not released for good while a position of their sequence
has not been taken. -/
lemma releasesRuns_eq_false_of_missing (hprov : c.processor.isProvided = true)
    {accepted : List Message} {g : Group} (h : g.StemsFrom accepted)
    (hfinal : (c.processor.process g).1.isFinal = true) {n : SequenceNumber} (hn : g.size = some n)
    (hmissing : ∃ i : SequenceNumber, i ≠ 0 ∧ i ≤ n ∧ ∀ a ∈ accepted, a.number ≠ some i) :
    c.processor.releasesRuns = false := by
  by_contra hruns
  obtain ⟨r, hproc, hr⟩ := exists_resequencer hprov (Bool.not_eq_false _ ▸ hruns)
  rw [hproc, Processor.process_runs hr] at hfinal
  have hdrained : g.releaseRun.2.isDrained = true := by
    by_contra hd
    rw [if_neg hd] at hfinal
    simp [Emission.isFinal] at hfinal
  have hleft := h.reduce ((Processor.resequence r).reducesTo_process g)
  rw [Processor.process_runs hr] at hleft
  obtain ⟨i, hi, hle, hno⟩ := hmissing
  obtain ⟨a, ha, hnum⟩ := hleft.covers_of_isDrained hdrained hn i hi (UInt32.le_iff_toNat_le.1 hle)
  exact hno a ha hnum

/-- A group that is released for good leaves a mark exactly if fewer messages count as received
than its sequence has. -/
lemma settle_fst_of_discardsLate (hlate : c.settings.discardsLate = true)
    (hp : c.processor.releasesRuns = false) {g : Group} {n : SequenceNumber}
    (hn : g.size = some n) :
    (c.settle g).1 = if g.received < n.toNat then some g.complete else none := by
  have hmarks : c.marks g = true ↔ g.received < n.toNat := by
    rw [marks_iff]
    exact ⟨fun ⟨_, s, hs, hlt⟩ => Option.some.inj (hn.symm.trans hs) ▸ hlt,
      fun h => ⟨hlate, n, hn, h⟩⟩
  rw [settle_fst_of_unmoved hp]
  simp only [hmarks]

/-- What is left behind a message that releases its group for good before some position of its
sequence has been taken: a mark exactly if fewer messages count as received than the sequence has.

**Proof sketch.** Groups that are released run by run are not released for good that early
(`releasesRuns_eq_false_of_missing`). So the group is in step with what it has accepted, which says
how many messages count as received (`received_eq`). -/
lemma exists_groupIn_eq_ite (hlate : c.settings.discardsLate = true)
    (hprov : c.processor.isProvided = true) (hv : w.holdings.store.Valid) {life : List Call}
    {m : Message} {now : Instant} (hl : c.Lifetime t key w (life ++ [.handle m now]))
    (hreleases : c.ReleasesWholly key (c.after t w life) m now) {accepted : List Message}
    (haccepted : c.history t key w (life ++ [.handle m now]) = accepted) {n : SequenceNumber}
    (htold : told accepted = some n)
    (hmissing : ∃ i : SequenceNumber, i ≠ 0 ∧ i ≤ n ∧ ∀ a ∈ accepted, a.number ≠ some i) :
    c.processor.releasesRuns = false ∧ (∀ a ∈ accepted, a.isWellFormed = true) ∧
      ∃ g : Group, g.completed = true ∧
        groupIn (c.after t w (life ++ [.handle m now])) key =
          if (accepted.filter (!·.isNumbered)).length + (firsts accepted n.toNat).length < n.toNat
          then some g else none := by
  rw [history_concat, hreleases.accepted_eq] at haccepted
  have hstems := (stemsFrom_groupOf hv hl now).join m
  rw [haccepted] at hstems
  have hsize := hstems.size_eq.trans htold
  have hp := releasesRuns_eq_false_of_missing hprov hstems hreleases.final hsize hmissing
  have hjoins := c.joins_of_accepted t key (c.valid_after t hv life) hreleases.accepted_eq
  have hfollows := (follows_groupOf hprov hv hl (fun m _ _ => fits_of_whole hp m)
    hjoins.welcome).join (Group.welcomes_of_objection?_eq_none hjoins.welcome) hjoins.wellFormed
  rw [haccepted] at hfollows
  refine ⟨hp, hfollows.reflects.wellFormed,
    (((c.after t w life).holdings.store.groupOf key now).join m).complete, rfl, ?_⟩
  rw [after_concat, hjoins.next, receive, if_pos hreleases.ready,
    settle_fst_of_discardsLate hlate hp hsize, received_eq hp hfollows hsize]

/-- **Late messages are turned away exactly where fewer messages count as received than the sequence
has.** A group is released for good before some position of its sequence has been taken, behind any
calls of a collector that discards late messages, whatever its release rule is and whichever of the
processors provided it has. From then on until its key is closed or has expired every message for
the key is discarded, provided that the messages without a position and the positions taken are
together fewer than the sequence has.

**Proof sketch.** In that case a mark is left (`exists_groupIn_eq_ite`), and it turns messages away.
Otherwise the group is gone. The message that told the length has a position, and another one like
it would not be turned away. -/
theorem turnsAway_iff_of_lifetime (c : Collector) (hlate : c.settings.discardsLate = true)
    (hdiscards : c.discards = true) (hprov : c.processor.isProvided = true) (t : Transport σ)
    (htakes : t.Takes .discard) (channels : σ) (before life : List Call) (key : Key) (m : Message)
    (now : Instant)
    (hl : c.Lifetime t key (c.after t (c.start channels) before) (life ++ [.handle m now]))
    (hreleases : c.ReleasesWholly key (c.after t (c.start channels) (before ++ life)) m now)
    (n : SequenceNumber)
    (htold : told (c.history t key (c.after t (c.start channels) before)
      (life ++ [.handle m now])) = some n)
    (hmissing : ∃ i : SequenceNumber, i ≠ 0 ∧ i ≤ n ∧
      ∀ a ∈ c.history t key (c.after t (c.start channels) before) (life ++ [.handle m now]),
        a.number ≠ some i) :
    let accepted := c.history t key (c.after t (c.start channels) before)
      (life ++ [.handle m now])
    c.TurnsAway t key (c.after t (c.start channels) (before ++ life ++ [.handle m now])) ↔
      (accepted.filter (!·.isNumbered)).length + (firsts accepted n.toNat).length < n.toNat := by
  intro accepted
  have hv := c.valid_after_start t channels before
  have hvnext := c.valid_after_start t channels (before ++ life ++ [.handle m now])
  rw [after_append] at hreleases
  obtain ⟨hp, hwf, g, hc, hleft⟩ := exists_groupIn_eq_ite hlate hprov hv hl hreleases rfl htold
    hmissing
  rw [← after_append, ← List.append_assoc] at hleft
  constructor
  · intro hturns
    by_contra hseen
    rw [if_neg hseen] at hleft
    obtain ⟨a, ha, hasize⟩ := List.exists_of_findSome?_eq_some htold
    obtain ⟨-, issued, hkey⟩ := c.mem_history t key ha
    obtain ⟨x, hfor, hnumber, hsize⟩ :=
      exists_isFor hkey (c.after t (c.start channels) (before ++ life ++ [.handle m now]))
    have hawf := hwf a ha
    have hxwf : x.isWellFormed = true := by
      unfold Message.isWellFormed at hawf ⊢
      rwa [hnumber, hsize]
    obtain ⟨i, hi, -⟩ := ((a.isWellFormed_iff).1 hawf).2.2 n hasize
    exact not_turnsAway_of_absent hvnext hleft hp hfor hxwf
      (by rw [Message.isNumbered, hnumber, hi]; rfl) hturns
  · intro hfew
    rw [if_pos hfew] at hleft
    exact turnsAway_of_completed hdiscards htakes hvnext hleft hc

/-- A sequence of four is released after three messages, one of which has no position. A message at
the ninth position was evicted before that. -/
theorem turnsAway_iff_of_lifetime_evicting :
    let m := fun payload headers => Message.build (.bare payload) (.correlationId "a" :: headers)
    let c := processing (Settings.default.withDiscardsLate true) (.correlation .refuse) .passThrough
      (some (.count (.ofNat 3))) true
    let life : List Call := [.handle (m "nine" [.sequenceNumber 9]) ⟨5⟩, .handle (m "x" []) ⟨6⟩,
      .handle (m "one" [.sequence 1 4]) ⟨7⟩]
    let last := m "two" [.sequence 2 4]
    let w := c.start ([] : List Send)
    c.history .recording "a" w (life ++ [.handle last ⟨8⟩]) =
        [m "nine" [.sequenceNumber 9], m "x" [], m "one" [.sequence 1 4], last] ∧
      c.TurnsAway .recording "a" (c.after .recording w (life ++ [.handle last ⟨8⟩])) := by
  intro m c life last w
  have hl : c.Lifetime .recording "a" w (life ++ [.handle last ⟨8⟩]) :=
    (((((lifetime_nil (by decide)).concat (by simp)
      (.handle (m "nine" [.sequenceNumber 9]) ⟨5⟩)).concat
      (fun _ => by decide) (.handle (m "x" []) ⟨6⟩)).concat
      (fun _ => by decide) (.handle (m "one" [.sequence 1 4]) ⟨7⟩)).concat
      (fun _ => by decide) (.handle last ⟨8⟩))
  refine ⟨by decide, ?_⟩
  exact (turnsAway_iff_of_lifetime c rfl rfl rfl .recording (Transport.takes_recording _) [] [] life
    "a" last ⟨8⟩ hl ⟨by decide, by decide, by decide, by decide⟩ 4 (by decide)
    ⟨3, by decide, by decide, by decide⟩).2 (by decide)

/-- Not in every collector that discards late messages are they turned away: a group of a sequence
of two is released with one message of the sequence and one without a position, and the other
message of the sequence is then not discarded. -/
theorem not_forall_turnsAway :
    ¬ ∀ (c : Collector) (before life : List Call) (key : Key) (m : Message) (now : Instant)
      (n : SequenceNumber), c.settings.discardsLate = true → c.discards = true →
        c.releaseRule.isProvided = true → c.processor.isProvided = true →
        c.Lifetime .recording key (c.after .recording (c.start []) before)
          (life ++ [.handle m now]) →
        c.ReleasesWholly key (c.after .recording (c.start []) (before ++ life)) m now →
        told (c.history .recording key (c.after .recording (c.start []) before)
          (life ++ [.handle m now])) = some n →
        (∃ i : SequenceNumber, i ≠ 0 ∧ i ≤ n ∧
          ∀ a ∈ c.history .recording key (c.after .recording (c.start []) before)
            (life ++ [.handle m now]), a.number ≠ some i) →
        c.TurnsAway .recording key
          (c.after .recording (c.start []) (before ++ life ++ [.handle m now])) := by
  intro hall
  let m := fun payload headers => Message.build (.bare payload) (.correlationId "a" :: headers)
  let c := processing (Settings.default.withDiscardsLate true) (.correlation .refuse) .passThrough
    (some (.count (.ofNat 2))) true
  let one := m "one" [.sequence 1 2]
  let two := m "two" [.sequence 2 2]
  have hl : c.Lifetime .recording "a" (c.start [])
      [.handle (m "other" []) ⟨5⟩, .handle one ⟨6⟩] :=
    (((lifetime_nil (by decide)).concat (by simp) (.handle (m "other" []) ⟨5⟩)).concat
      (fun _ => by decide) (.handle one ⟨6⟩))
  have hturns := hall c [] [.handle (m "other" []) ⟨5⟩] "a" one ⟨6⟩ 2 rfl rfl rfl
    rfl hl
    ⟨by decide, by decide, by decide, by decide⟩ (by decide) ⟨2, by decide, by decide, by decide⟩
  exact absurd ((hturns [] (spares_nil _)).2 two ⟨7⟩ (by decide) (by decide)) (by decide)

end Collector

end Regroup
