import Regroup.Message.Edit
import Regroup.Proofs.Collector.Outgoing
import Regroup.Proofs.Collector.StoredGroups
import Regroup.Proofs.Delivery.Steady

/-!
# Keys do not interfere

All groups share one store and the same channels. As long as the store has no capacity and the
channels are steady, what is answered to the calls on a key, what they send and what becomes of the
group of the key is settled by these calls alone: it is the same without the calls on other keys,
and also if the calls are made at other moments. Only the moment at which the group came into being
is then another.

## Main definitions

* `Regroup.Group.undated`, `Regroup.Call.undated` — groups and calls, regardless of their moments.
* `Regroup.Call.isOn` — whether a call is on a key.
* `Regroup.Store.SameFor` — that two stores have the same group for a key, but for its moment.
* `Regroup.Collector.Unhindered` — that the calls on one key cannot get in the way of another.
* `Regroup.Collector.answersOn`, `Regroup.Collector.sendsOn` — what is answered to the calls on a
  key, and what they send.
* `Regroup.Collector.Separates` — that the calls on a key come to what other calls come to alone.

## Main results

* `Regroup.Collector.receive_undated` — what becomes of a group does not depend on its moment.
* `Regroup.Collector.agree_of_isOn` — a call on a key depends on the group of the key alone.
* `Regroup.Collector.groupIn_perform_of_not_isOn` — the other calls leave that group alone.
* `Regroup.Collector.separates_of_calls` — keys do not interfere.
-/

namespace Regroup

variable {m : Message}

/-! ## Keys and channels -/

/-- Whether a call is on a key: its message is handed in under the key, or it closes its group. -/
def Call.isOn (rule : KeyRule) (key : Key) : Call → Bool
  | .handle m _ => (rule.resolve 0 m).1 = some key
  | .close k => k = key
  | .expire _ => false

/-- A rule that is pure gives a message the same key whatever has been issued. -/
lemma KeyRule.IsPure.resolve_eq {rule : KeyRule} (h : rule.IsPure) {key : Key} {now : Instant}
    (hon : (Call.handle m now).isOn rule key = true) (issued : UInt64) :
    (rule.resolve issued m).1 = some key :=
  (h issued 0 m).trans (of_decide_eq_true hon)

/-- Channels that take everything are steady: no send fails. -/
lemma Transport.steady_of_takes {σ : Type} {t : Transport σ} (h : ∀ target, t.Takes target)
    (state : σ) : t.Steady (fun _ => none) state := by
  intro made state' _ s
  obtain ⟨next, hnext⟩ := h s.target state' s.message
  unfold failure?
  rw [show t.send state' s = (none, next) from hnext]

/-! ## Moments -/

/-- The group, regardless of the moment at which it came into being. -/
def Group.undated (g : Group) : Group := { g with createdAt := default }

/-- The call, regardless of the moment at which it is made. -/
def Call.undated : Call → Call
  | .handle m _ => .handle m default
  | .close key => .close key
  | .expire _ => .expire default

namespace Group

/-- What joins a group joins it at any moment. -/
lemma join_undated (g : Group) (m : Message) : g.undated.join m = (g.join m).undated := by
  have hdrop : g.undated.dropExcess m = (g.dropExcess m).undated := by
    unfold dropExcess
    rw [show g.undated.size = g.size from rfl]
    cases g.size <;> cases m.size <;> rfl
  rw [join, hdrop]
  rfl

/-- What a group objects to does not depend on its moment. -/
lemma objection?_congr {g g' : Group} (h : g.undated = g'.undated) (m : Message) (strict : Bool) :
    g.objection? m strict = g'.objection? m strict := by
  show g.undated.objection? m strict = g'.undated.objection? m strict
  rw [h]

end Group

/-- Two stores have the same group for a key, but for its moment, or both have none. -/
def Store.SameFor (key : Key) (s s' : Store) : Prop :=
  (s.get? key).map Group.undated = (s'.get? key).map Group.undated

/-- Stores that have the same group for a key have the same group for a message of that key. -/
lemma Store.undated_groupOf {s s' : Store} {key : Key} (h : s.SameFor key s') (now now' : Instant) :
    (s.groupOf key now).undated = (s'.groupOf key now').undated := by
  have hgroupOf : ∀ (s : Store) (now : Instant), (s.groupOf key now).undated =
      ((s.get? key).map Group.undated).getD (Group.new key default) := by
    intro s now
    unfold groupOf
    cases s.get? key <;> rfl
  unfold SameFor at h
  rw [hgroupOf, hgroupOf, h]

/-- Whether one of the rules provided declares a group ready does not depend on the moment of the
group. -/
lemma ReleaseRule.isReady_undated {rule : ReleaseRule} (hrule : rule.isProvided = true)
    (g : Group) : rule.isReady g.undated = rule.isReady g := by
  cases rule with
  | custom isReady => simp [isProvided] at hrule
  | always | count threshold | wholeSequence | resequencing r => rfl

/-- What one of the processors provided emits does not depend on the moment of the group, nor what
it leaves. -/
lemma Processor.process_undated {p : Processor} (hprov : p.isProvided = true) (g : Group) :
    p.process g.undated = ((p.process g).1, (p.process g).2.undated) := by
  cases p with
  | custom p => simp [isProvided] at hprov
  | passThrough => rfl
  | aggregate combine =>
    unfold process Group.takeAll
    rw [show g.undated.messages = g.messages from rfl]
    cases g.messages <;> rfl
  | resequence r =>
    cases hr : r.releasesRuns with
    | true =>
      rw [process_runs hr, process_runs hr]
      rfl
    | false =>
      rw [process_whole hr, process_whole hr]
      rfl

namespace Collector

variable (c : Collector)

/-- What a ready group leaves behind and sends does not depend on its moment. -/
lemma settle_undated (hprov : c.processor.isProvided = true) (g : Group) :
    c.settle g.undated = ((c.settle g).1.map Group.undated, (c.settle g).2) := by
  unfold settle
  rw [Processor.process_undated hprov]
  generalize c.processor.process g = processed
  obtain ⟨emission, left⟩ := processed
  cases emission with
  | interim messages => rfl
  | final messages =>
    have hmarks : c.marks left.undated = c.marks left := rfl
    simp only [hmarks]
    cases c.marks left <;> rfl

/-- What becomes of a group that a message joins, and what is sent then, does not depend on the
moment of the group. -/
theorem receive_undated (hrule : c.releaseRule.isProvided = true)
    (hprov : c.processor.isProvided = true) (g : Group) (m : Message) :
    c.receive g.undated m = ((c.receive g m).1.map Group.undated, (c.receive g m).2) := by
  unfold receive
  rw [Group.join_undated, ReleaseRule.isReady_undated hrule]
  cases c.releaseRule.isReady (g.join m) with
  | true => exact c.settle_undated hprov (g.join m)
  | false => rfl

/-- What leaves a group that is closed early does not depend on its moment. -/
lemma outOfClosed_undated (hprov : c.processor.isProvided = true) (g : Group) :
    c.outOfClosed g.undated = c.outOfClosed g := by
  unfold outOfClosed Processor.processEarly
  cases hproc : c.processor with
  | custom p => simp [hproc, Processor.isProvided] at hprov
  | resequence r => rfl
  | passThrough => rfl
  | aggregate combine =>
    rw [hproc] at hprov
    simp only [Processor.process_undated hprov]
    rfl

/-! ## Calls -/

variable {c} {σ : Type} {t : Transport σ} {fails : Send → Option DispatchFailure} {key : Key}
  {w w' : World σ} {call call' : Call}

/-- The calls on one key cannot get in the way of another: the store has room for all messages, and
the channels fail the same sends whatever they are sent. -/
structure Unhindered (t : Transport σ) (fails : Send → Option DispatchFailure) (w : World σ) :
    Prop where
  valid : w.holdings.store.Valid
  unlimited : w.holdings.store.capacity = none
  steady : t.Steady fails w.channels

/-- Handing in a message or closing a group hinders nothing. -/
lemma Unhindered.perform (h : Unhindered t fails w) (hcall : ∀ now, call ≠ .expire now) :
    Unhindered t fails (c.perform t w call).world where
  valid := c.valid_perform t h.valid call
  unlimited := (c.capacity_perform t w call).trans h.unlimited
  steady := by
    cases call with
    | handle m now => exact h.steady.deliver _
    | close k => exact h.steady.deliver _
    | expire now => exact absurd rfl (hcall now)

/-- A call that is not on a key leaves the group of the key alone. -/
lemma groupIn_perform_of_not_isOn (hpure : c.keyRule.IsPure) (hv : w.holdings.store.Valid)
    (hcall : ∀ now, call ≠ .expire now) (hoff : call.isOn c.keyRule key = false) :
    groupIn (c.perform t w call).world key = groupIn w key := by
  cases call with
  | expire now => exact absurd rfl (hcall now)
  | close k =>
    rw [groupIn_perform_close, if_neg (of_decide_eq_false hoff)]
  | handle m now =>
    refine c.groupIn_perform_of_not_isFor t key hv (fun hfor => ?_) now
    exact of_decide_eq_false hoff ((hpure 0 w.holdings.issued m).trans hfor)

/-- Two calls are answered and send alike, and leave the same group of a key behind. -/
structure Agree (key : Key) (p p' : Performed σ) : Prop where
  answer_eq : p.answer = p'.answer
  delivered_eq : p.delivered = p'.delivered
  same : p.world.holdings.store.SameFor key p'.world.holdings.store

/-- Where all messages have room, what becomes of a message depends on the group of its key
alone. -/
lemma judge_congr {h h' : Holdings} (hcap : h.store.capacity = none)
    (hcap' : h'.store.capacity = none) (hres : (c.keyRule.resolve h.issued m).1 = some key)
    (hres' : (c.keyRule.resolve h'.issued m).1 = some key) (hsame : h.store.SameFor key h'.store)
    (now now' : Instant) : c.judge h now m = c.judge h' now' m := by
  unfold judge
  rw [hres, hres']
  simp only [Store.hasRoom_of_capacity_eq_none hcap, Store.hasRoom_of_capacity_eq_none hcap',
    Bool.true_or, if_true, Group.objection?_congr (Store.undated_groupOf hsame now now')]

/-- A message of a key that is handed in twice, to stores with the same group for the key, is judged
alike, and the same is to be sent and left behind.

**Proof sketch.** The verdict tells whether the message is refused or joins its group. -/
lemma handle_congr (hrule : c.releaseRule.isProvided = true)
    (hprov : c.processor.isProvided = true) {h h' : Holdings} (hv : h.store.Valid)
    (hv' : h'.store.Valid) (hcap : h.store.capacity = none) (hcap' : h'.store.capacity = none)
    (hres : (c.keyRule.resolve h.issued m).1 = some key)
    (hres' : (c.keyRule.resolve h'.issued m).1 = some key) (hsame : h.store.SameFor key h'.store)
    (now now' : Instant) :
    (c.handle h now m).1.verdict = (c.handle h' now' m).1.verdict ∧
      (c.handle h now m).1.plan = (c.handle h' now' m).1.plan ∧
      (c.handle h now m).1.store.SameFor key (c.handle h' now' m).1.store := by
  have hverdict : (c.handle h now m).1.verdict = (c.handle h' now' m).1.verdict := by
    rw [c.verdict_handle hv, c.verdict_handle hv']
    exact judge_congr hcap hcap' hres hres' hsame now now'
  refine ⟨hverdict, ?_⟩
  cases c.outcome_handle hv now m with
  | refused _ verdict store plan =>
    cases c.outcome_handle hv' now' m with
    | accepted _ _ _ _ verdict' => exact absurd (hverdict.trans verdict') verdict
    | refused _ _ store' plan' =>
      rw [plan, plan', store, store', hverdict]
      exact ⟨rfl, hsame⟩
  | accepted k resolved _ _ verdict plan _ store =>
    cases c.outcome_handle hv' now' m with
    | refused _ verdict' => exact absurd (hverdict.symm.trans verdict) verdict'
    | accepted k' resolved' _ _ _ plan' _ store' =>
      obtain rfl : key = k := Option.some.inj (hres.symm.trans resolved)
      obtain rfl : key = k' := Option.some.inj (hres'.symm.trans resolved')
      have hreceive := congrArg (c.receive · m) (Store.undated_groupOf hsame now now')
      simp only [c.receive_undated hrule hprov, Prod.mk.injEq] at hreceive
      rw [plan, plan', Store.SameFor, store, store', if_pos rfl, if_pos rfl]
      exact ⟨hreceive.2, hreceive.1⟩

/-- Closing the group of a key sends the same because of stores with the same group for the key. -/
lemma close_congr (hprov : c.processor.isProvided = true) {s s' : Store}
    (hsame : s.SameFor key s') :
    (c.close s key).2 = (c.close s' key).2 := by
  unfold Store.SameFor at hsame
  cases hg : s.get? key with
  | none =>
    have hg' : s'.get? key = none := by simpa [hg] using hsame
    rw [c.close_of_absent hg, c.close_of_absent hg']
  | some g =>
    obtain ⟨g', hg', hundated⟩ : ∃ g', s'.get? key = some g' ∧ g'.undated = g.undated := by
      simpa [hg, eq_comm] using hsame
    rw [c.close_of_get? hg, c.close_of_get? hg', ← c.outOfClosed_undated hprov g, ← hundated,
      c.outOfClosed_undated hprov]

/-- A call on a key depends on the group of the key alone, and not on its moment. -/
theorem agree_of_isOn (hpure : c.keyRule.IsPure) (hrule : c.releaseRule.isProvided = true)
    (hprov : c.processor.isProvided = true) (h : Unhindered t fails w)
    (h' : Unhindered t fails w') (hsame : w.holdings.store.SameFor key w'.holdings.store)
    (hon : call.isOn c.keyRule key = true) (hcall : call'.undated = call.undated) :
    Agree key (c.perform t w call) (c.perform t w' call') := by
  cases call with
  | expire now => simp [Call.isOn] at hon
  | close k =>
    obtain rfl : k = key := of_decide_eq_true hon
    obtain rfl : call' = .close k := by
      cases call' <;> simp_all [Call.undated]
    have hplan := c.close_congr hprov hsame
    constructor
    · rw [answer_close, answer_close, h.steady.failure_eq, h'.steady.failure_eq, hplan]
    · rw [delivered_close, delivered_close, h.steady.delivered_eq, h'.steady.delivered_eq, hplan]
    · show (groupIn _ k).map Group.undated = (groupIn _ k).map Group.undated
      rw [groupIn_perform_close, groupIn_perform_close, if_pos rfl, if_pos rfl]
  | handle m now =>
    obtain ⟨now', rfl⟩ : ∃ now', call' = .handle m now' := by
      cases call' <;> simp_all [Call.undated]
    obtain ⟨hverdict, hplan, hstore⟩ := c.handle_congr hrule hprov h.valid h'.valid h.unlimited
      h'.unlimited (hpure.resolve_eq hon _) (hpure.resolve_eq hon _) hsame now now'
    constructor
    · rw [answer_handle, answer_handle, h.steady.failure_eq, h'.steady.failure_eq, hverdict, hplan]
    · rw [delivered_handle, delivered_handle, h.steady.delivered_eq, h'.steady.delivered_eq, hplan]
    · exact hstore

/-! ## Runs -/

variable (c t key)

/-- What is answered to the calls on a key among others, one after the other. -/
def answersOn (w : World σ) (calls : List Call) : List Answer :=
  c.collect t (fun w call => if call.isOn c.keyRule key then [(c.perform t w call).answer] else [])
    w calls

/-- What the calls on a key send among others, in order. -/
def sendsOn (w : World σ) (calls : List Call) : List Send :=
  c.collect t (fun w call => if call.isOn c.keyRule key then (c.perform t w call).delivered else [])
    w calls

/-- The calls on a key come, among others, to what the calls `alone` come to in another world: they
are answered alike, send the same, and leave the same group behind. -/
structure Separates (w w' : World σ) (calls alone : List Call) : Prop where
  answers_eq : c.answersOn t key w calls = c.answers t w' alone
  sends_eq : c.sendsOn t key w calls = c.sends t w' alone
  same : (c.after t w calls).holdings.store.SameFor key (c.after t w' alone).holdings.store

variable {c t key}

/-- From two unhindered worlds on that have the same group for a key, the calls on the key come to
the same among others and alone.

**Proof sketch.** Induction on the calls. A call on the key comes to the same in both worlds
(`agree_of_isOn`); any other call leaves the group of the key alone. -/
lemma separates_of_unhindered (hpure : c.keyRule.IsPure)
    (hrule : c.releaseRule.isProvided = true) (hprov : c.processor.isProvided = true)
    (h : Unhindered t fails w) (h' : Unhindered t fails w')
    (hsame : w.holdings.store.SameFor key w'.holdings.store)
    {calls alone : List Call} (hcalls : ∀ now, Call.expire now ∉ calls)
    (halone : alone.map Call.undated =
      (calls.filter (·.isOn c.keyRule key)).map Call.undated) :
    c.Separates t key w w' calls alone := by
  induction calls generalizing w w' alone with
  | nil =>
    obtain rfl : alone = [] := by simpa using halone
    exact ⟨rfl, rfl, hsame⟩
  | cons call calls ih =>
    have hcall : ∀ now, call ≠ .expire now := by
      rintro now rfl
      exact hcalls now List.mem_cons_self
    have hrest : ∀ now, Call.expire now ∉ calls :=
      fun now hmem => hcalls now (List.mem_cons_of_mem _ hmem)
    cases hon : call.isOn c.keyRule key with
    | false =>
      rw [List.filter_cons_of_neg (by simp [hon])] at halone
      -- the call is made in the first world only
      have hkept := groupIn_perform_of_not_isOn (t := t) hpure h.valid hcall hon
      have hnext : (c.perform t w call).world.holdings.store.SameFor key w'.holdings.store :=
        (congrArg (Option.map Group.undated) hkept).trans hsame
      have hs := ih (h.perform hcall) h' hnext hrest halone
      constructor
      · simp only [answersOn, collect, hon]
        exact hs.answers_eq
      · simp only [sendsOn, collect, hon]
        exact hs.sends_eq
      · exact hs.same
    | true =>
      rw [List.filter_cons_of_pos hon, List.map_cons] at halone
      obtain ⟨call', rest, rfl, hcall', hundated⟩ := List.map_eq_cons_iff.1 halone
      have hexpire : ∀ now, call' ≠ .expire now := by
        rintro now rfl
        cases call <;> simp_all [Call.undated]
      have hagree := agree_of_isOn hpure hrule hprov h h' hsame hon hcall'
      have hs := ih (h.perform hcall) (h'.perform hexpire) hagree.same hrest hundated
      constructor
      · simp only [answersOn, collect, hon]
        exact congrArg₂ List.cons hagree.answer_eq hs.answers_eq
      · simp only [sendsOn, sends, collect, hon]
        exact congrArg₂ List.append hagree.delivered_eq hs.sends_eq
      · exact hs.same

/-- **Keys do not interfere**, in any list of calls that hand in messages and close groups, for a
collector with a pure key rule, any of the release rules and processors provided, and any settings
without a capacity, and channels that are steady, such as those that take everything
(`Transport.steady_of_takes`) and networks without bounds (`Network.Unbounded.steady`). What is
answered to the calls on a key, what they send and the group that is then stored are what the calls
on the key come to alone, made at the same or at other moments.

**Proof sketch.** In a collector that has not been called yet nothing hinders, and no key has a
group (`separates_of_unhindered`). -/
theorem separates_of_calls (c : Collector) (hpure : c.keyRule.IsPure)
    (hrule : c.releaseRule.isProvided = true) (hprov : c.processor.isProvided = true)
    (hcap : c.settings.capacity = none) (t : Transport σ) {channels : σ}
    (hsteady : t.Steady fails channels) {calls alone : List Call}
    (hcalls : ∀ now, Call.expire now ∉ calls) (key : Key)
    (halone : alone.map Call.undated =
      (calls.filter (·.isOn c.keyRule key)).map Call.undated) :
    c.Separates t key (c.start channels) (c.start channels) calls alone := by
  have h : Unhindered t fails (c.start channels) := ⟨Store.valid_empty _, hcap, hsteady⟩
  exact separates_of_unhindered hpure hrule hprov h h rfl hcalls halone

/-- Two keys share channels that take everything, and the output of a network whose channel for
discarded messages takes nothing. -/
theorem separates_of_calls_interleaved :
    let m := fun key payload number => Message.build (.bare payload)
      [.correlationId key, .sequenceNumber number]
    let c := resequencing (.resequencing true) (.correlation .refuse) none true
    let calls : List Call := [.handle (m "a" "two" 2) ⟨5⟩, .handle (m "b" "one" 1) ⟨6⟩,
      .handle (m "a" "one" 1) ⟨7⟩, .handle (m "b" "three" 3) ⟨8⟩, .handle (.bare "lost") ⟨9⟩,
      .close "b", .handle (m "a" "four" 4) ⟨10⟩]
    let alone : List Call := [.handle (m "a" "two" 2) ⟨1⟩, .handle (m "a" "one" 1) ⟨2⟩,
      .handle (m "a" "four" 4) ⟨3⟩]
    let network : Network := ⟨(Dict.empty.insert ChannelId.output (.queue (.empty none))).insert
      ChannelId.discard .refusing⟩
    let t := Network.transport none
    c.Separates .recording "a" (c.start []) (c.start []) calls alone ∧
      c.answers t (c.start network) calls = [.done none, .done none, .done none, .done none,
        .done (some .missingKey), .done (some (.dispatch .disconnected)), .done none] ∧
      c.sendsOn t "a" (c.start network) calls =
        [.release (m "a" "one" 1), .release (m "a" "two" 2)] ∧
      c.Separates t "a" (c.start network) (c.start network) calls alone := by
  intro m c calls alone network t
  have hunbounded : network.Unbounded := by
    intro id q hq
    simp only [network, Network.queue?, Dict.get?_insert] at hq
    split at hq
    · simp [Channel.queue?] at hq
    · split at hq
      · obtain rfl : Queue.empty none = q := Option.some.inj hq
        rfl
      · simp at hq
  have hpure : c.keyRule.IsPure := (KeyRule.isPure_iff _).2 (by decide)
  have hcalls : ∀ now, Call.expire now ∉ calls := by simp [calls]
  exact ⟨separates_of_calls c hpure rfl rfl rfl .recording
      (Transport.steady_of_takes Transport.takes_recording []) hcalls "a" (by rfl),
    by decide, by decide,
    separates_of_calls c hpure rfl rfl rfl t (hunbounded.steady none) hcalls "a" (by rfl)⟩

end Collector

end Regroup
