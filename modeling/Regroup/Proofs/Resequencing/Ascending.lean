import Regroup.Delivery.Network
import Regroup.Message.Edit
import Regroup.Proofs.Collector.Log
import Regroup.Proofs.Collector.Tracking

/-!
# Nothing is sent twice or out of order

Whatever the rule is by which groups are released, and whichever sends fail, a resequencer sends the
messages of a lifetime by ascending position. What a call sends begins at the position where the
barrier stands, and the barrier moves behind it before anything is sent.

## Main definitions

* `Regroup.Ascends` — that sends are in the order of their positions, which lie in a stretch.

## Main results

* `Regroup.Collector.receive_ascends` — what a message that joins releases ascends from the barrier
  on.
* `Regroup.Collector.exists_ascends` — what is sent in a lifetime ascends up to the barrier.
* `Regroup.Collector.ascending_of_lifetime` — in every lifetime positions are sent in strictly
  ascending order.
-/

namespace Regroup

open SequenceNumber

/-! ## Ascending sends -/

/-- The sends are of messages at strictly ascending positions, all of them from `a` on and before
`b`. -/
def Ascends (a b : ℕ) (out : List Send) : Prop :=
  ∃ numbers : List SequenceNumber, out.map (·.message.number) = numbers.map some ∧
    numbers.Pairwise (· < ·) ∧ ∀ n ∈ numbers, a ≤ n.toNat ∧ n.toNat < b

namespace Ascends

variable {a b b' d : ℕ} {made out : List Send}

protected lemma nil (a b : ℕ) : Ascends a b [] := ⟨[], rfl, .nil, by simp⟩

/-- Sends in a stretch further on can follow. -/
lemma append (h : Ascends a b out) (h' : Ascends b' d made) (hab : a ≤ b) (hb : b ≤ b')
    (hbd : b' ≤ d) : Ascends a d (out ++ made) := by
  obtain ⟨numbers, hmap, hlt, hmem⟩ := h
  obtain ⟨numbers', hmap', hlt', hmem'⟩ := h'
  refine ⟨numbers ++ numbers', by simp [hmap, hmap'], ?_, ?_⟩
  · rw [List.pairwise_append]
    refine ⟨hlt, hlt', fun n hn n' hn' => ?_⟩
    have := hmem n hn
    have := hmem' n' hn'
    rw [UInt32.lt_iff_toNat_lt]
    omega
  · intro n hn
    rcases List.mem_append.1 hn with hn | hn
    · have := hmem n hn
      omega
    · have := hmem' n hn
      omega

/-- Leaving out sends at the end changes nothing. -/
lemma of_front (h : Ascends a b out) (hmade : made <+: out) : Ascends a b made := by
  obtain ⟨numbers, hmap, hlt, hmem⟩ := h
  refine ⟨numbers.take made.length, ?_, hlt.sublist (List.take_sublist _ _),
    fun n hn => hmem n (List.mem_of_mem_take hn)⟩
  rw [List.map_take, ← hmap, ← List.map_take, ← List.prefix_iff_eq_take.1 hmade]

end Ascends

/-- The messages of a stretch ascend in it. -/
lemma ascends_firstsFrom (ms : List Message) {a k : ℕ} (h : a + k ≤ 2 ^ 32) :
    Ascends a (a + k) ((firstsFrom ms a k).map Send.release) := by
  induction k generalizing a with
  | zero => exact .nil a a
  | succ k ih =>
    have hfirst : Ascends a (a + 1) ((firstAt ms (UInt32.ofNat a)).toList.map Send.release) := by
      cases hm : firstAt ms (UInt32.ofNat a) with
      | none => exact .nil a (a + 1)
      | some m =>
        have ha : (UInt32.ofNat a).toNat = a := toNat_ofNat (by omega)
        refine ⟨[UInt32.ofNat a], ?_, List.pairwise_singleton _ _, fun n hn => ?_⟩
        · simpa [Send.release] using (firstAt_eq_some hm).2
        · rw [List.mem_singleton.1 hn]
          omega
    rw [firstsFrom_succ, List.map_append, show a + (k + 1) = a + 1 + k by omega]
    exact hfirst.append (ih (by omega)) (by omega) le_rfl (by omega)

namespace Collector

variable {c : Collector} {r : Resequencer} {g : Group} {m : Message} {accepted : List Message}

/-! ## Groups -/

/-- The numbered messages of a group ascend from its barrier on. -/
lemma ascends_takeNumbered (h : c.Follows g accepted) :
    Ascends g.barrier.next.toNat (Group.limit g.size) (g.takeNumbered.1.map Send.release) := by
  have hle := Group.next_le_limit h.undrained
  have hlimit := Group.limit_le g.size
  have hout := ascends_firstsFrom accepted
    (show g.barrier.next.toNat + (Group.limit g.size - g.barrier.next.toNat) ≤ 2 ^ 32 by omega)
  rwa [Nat.add_sub_cancel' hle, ← h.reflects.takeNumbered h.undrained] at hout

/-- What a ready group releases ascends from its barrier on. If the group stays open, its barrier
moves behind that.

**Proof sketch.** A run reaches up to where the barrier moves. The numbered messages reach up to
the end of the sequence, and behind them the group is gone or a mark. -/
private lemma settle_ascends (hp : c.processor = .resequence r) (h : c.Follows g accepted)
    (hfit : ∀ m ∈ accepted, c.Fits m) :
    ∃ b, g.barrier.next.toNat ≤ b ∧
      Ascends g.barrier.next.toNat b ((c.settle g).2.filter (·.isOutput)) ∧
      ∀ left, (c.settle g).1 = some left → left.completed = false →
        b ≤ left.barrier.next.toNat := by
  have hruns : c.processor.releasesRuns = r.releasesRuns := by
    rw [hp]
    rfl
  rw [settle_snd, filter_isOutput_outgoingPlan, released_outOfReady]
  cases hr : r.releasesRuns with
  | true =>
    obtain ⟨k, hrel, hnext, -⟩ :=
      h.reflects.releaseRun h.undrained (not_covers_last fun m hm => hfit m hm (hruns.trans hr))
    have hlt := g.releaseRun.2.barrier.next.toNat_lt
    refine ⟨g.barrier.next.toNat + k, by omega, ?_, fun left he hopen => ?_⟩
    · have hmessages : (c.processor.process g).1.messages = g.releaseRun.1 := by
        rw [hp, Processor.process_runs hr]
        cases g.releaseRun.2.isDrained <;> rfl
      rw [hmessages, hrel]
      exact ascends_firstsFrom accepted (by omega)
    · rw [settle_of_runs hp hr] at he
      split at he
      · -- a group that has come to its end is gone or a mark
        simp only at he
        split at he
        · obtain rfl := Option.some.inj he
          simp [Group.complete] at hopen
        · simp at he
      · obtain rfl : g.releaseRun.2 = left := Option.some.inj he
        exact hnext.ge
  | false =>
    refine ⟨Group.limit g.size, Group.next_le_limit h.undrained, ?_, fun left he hopen => ?_⟩
    · rw [hp, Processor.process_whole hr]
      exact ascends_takeNumbered h
    · rw [settle_fst_of_unmoved (hruns.trans hr)] at he
      split at he
      · obtain rfl := Option.some.inj he
        simp [Group.complete] at hopen
      · simp at he

/-- What a message that joins a group releases ascends from the barrier on. If the group stays open,
its barrier moves behind that. -/
theorem receive_ascends (hp : c.processor = .resequence r) (h : c.Follows (g.join m) accepted)
    (hfit : ∀ m ∈ accepted, c.Fits m) :
    ∃ b, g.barrier.next.toNat ≤ b ∧
      Ascends g.barrier.next.toNat b ((c.receive g m).2.filter (·.isOutput)) ∧
      ∀ left, (c.receive g m).1 = some left → left.completed = false →
        b ≤ left.barrier.next.toNat := by
  unfold receive
  split
  · have := settle_ascends hp h hfit
    rwa [Group.barrier_join] at this
  · refine ⟨g.barrier.next.toNat, le_rfl, .nil _ _, fun left he _ => ?_⟩
    obtain rfl : g.join m = left := Option.some.inj he
    rw [Group.barrier_join]

/-- What a group releases that is closed early ascends from its barrier on. -/
lemma outOfClosed_ascends (hp : c.processor = .resequence r) (h : c.Follows g accepted) :
    Ascends g.barrier.next.toNat (Group.limit g.size)
      ((c.outOfClosed g).released.map Send.release) := by
  rw [c.outOfClosed_of_isProvided (by rw [hp]; rfl)]
  split
  · rw [hp]
    exact ascends_takeNumbered h
  · exact .nil _ _

/-! ## Lifetimes -/

variable {σ : Type} {t : Transport σ} {key : Key} {w : World σ}

/-- What is sent to the output path in a lifetime ascends up to the barrier of the group, as long as
that is open.

**Proof sketch.** Induction on the calls, the last one first. What a message that joins releases,
or the group when it is closed, begins where the barrier stood. A mark releases nothing. -/
theorem exists_ascends (hp : c.processor = .resequence r) (hv : w.holdings.store.Valid)
    {calls : List Call} (hl : c.Lifetime t key w calls)
    (hfit : ∀ m now, Call.handle m now ∈ calls → c.Fits m) :
    ∃ b, Ascends 0 b (c.emissions t key w calls) ∧
      ∀ g, groupIn (c.after t w calls) key = some g → g.completed = false →
        b ≤ g.barrier.next.toNat := by
  induction calls using List.reverseRecOn with
  | nil => exact ⟨0, .nil 0 0, fun g _ _ => Nat.zero_le _⟩
  | append_singleton front call ih =>
    have hfit' : ∀ m now, Call.handle m now ∈ front → c.Fits m :=
      fun m now hm => hfit m now (List.mem_append_left _ hm)
    obtain ⟨b, hb, hstored⟩ := ih hl.front hfit'
    rw [emissions_concat, after_concat]
    cases c.emits t key (c.valid_after t hv front) call with
    | quiet same _ nothing =>
      rw [nothing, List.append_nil, same]
      exact ⟨b, hb, hstored⟩
    | closed g _ stored gone sent =>
      rw [gone]
      rcases tracks_of_lifetime (by rw [hp]; rfl) hv hl.front hfit' stored with hf | hmark
      · have hout := (outOfClosed_ascends hp hf).of_front sent
        exact ⟨Group.limit g.size, hb.append hout (Nat.zero_le _)
          (hstored g stored hf.reflects.isOpen) (Group.next_le_limit hf.undrained), by simp⟩
      · rw [outOfClosed_of_isEmpty c (g.isEmpty_iff.2 hmark.messages_eq)] at sent
        rw [List.prefix_nil.1 sent, List.append_nil]
        exact ⟨b, hb, by simp⟩
    | joined m now handed wellFormed welcome next acc sent =>
      have hwelcome := Group.welcomes_of_objection?_eq_none welcome
      have hfits := fits_history t key w hfit
      rw [history_concat, acc] at hfits
      obtain ⟨b₀, hb₀, hle⟩ : ∃ b₀, Ascends 0 b₀ (c.emissions t key w front) ∧
          b₀ ≤ ((c.after t w front).holdings.store.groupOf key now).barrier.next.toNat := by
        cases hg : groupIn (c.after t w front) key with
        | some g =>
          rw [Store.groupOf_of_get? hg] at hwelcome ⊢
          exact ⟨b, hb, hstored g hg hwelcome.isOpen⟩
        | none =>
          -- the group is opened by this call, and nothing has been sent before
          obtain rfl := hl.eq_nil_of_absent hg
          exact ⟨0, .nil 0 0, Nat.zero_le _⟩
      have hmet := follows_groupOf (by rw [hp]; rfl) hv hl hfit' welcome
      obtain ⟨b', hle', hout, hstored'⟩ :=
        receive_ascends hp (hmet.join hwelcome wellFormed) hfits
      rw [next]
      exact ⟨b', hb₀.append (hout.of_front sent) (Nat.zero_le _) hle hle', hstored'⟩

/-- **A resequencer sends nothing twice or out of order**, in every lifetime of a group, whatever
its rule and settings are and whichever sends fail: the messages that have been sent to the output
path stand at strictly ascending positions, as long as none of the lifetime stands at the last
position of all.

**Proof sketch.** A send that fails ends its plan, so what is sent of it is in front of what was to
be sent, and that ascends (`exists_ascends`). -/
theorem ascending_of_lifetime (hp : c.processor = .resequence r) (t : Transport σ) (channels : σ)
    (before life : List Call) (key : Key)
    (hl : c.Lifetime t key (c.after t (c.start channels) before) life)
    (hlast : ∀ m now, Call.handle m now ∈ life → m.number ≠ some last) :
    ∃ numbers : List SequenceNumber,
      (c.emissions t key (c.after t (c.start channels) before) life).map (·.message.number) =
        numbers.map some ∧
      numbers.Pairwise (· < ·) := by
  obtain ⟨b, ⟨numbers, hmap, hlt, -⟩, -⟩ := exists_ascends hp
    (c.valid_after_start t channels before) hl fun m now hm _ => hlast m now hm
  exact ⟨numbers, hmap, hlt⟩

/-- The output takes two messages at most, and a third one is lost. It is not sent when it comes
again, and when the group is closed the one behind it goes to its reply channel. -/
theorem ascending_of_lifetime_full :
    let m := fun payload headers => Message.build (.bare payload) (.correlationId "a" :: headers)
    let settings : Settings := { Settings.resequencing true with sendsEarlyResults := true }
    let c := resequencing settings (.correlation .refuse) none true
    let t := Network.transport (some .zero)
    let network : Network := ⟨(Dict.empty.insert ChannelId.output (.queue (.empty (some 2)))).insert
      "r" (.queue (.empty none))⟩
    let w := c.after t (c.start network) []
    let life : List Call := [.handle (m "three" [.sequenceNumber 3]) ⟨5⟩,
      .handle (m "two" [.sequenceNumber 2]) ⟨6⟩, .handle (m "one" [.sequenceNumber 1]) ⟨7⟩,
      .handle (m "three again" [.sequenceNumber 3]) ⟨8⟩,
      .handle (m "five" [.sequenceNumber 5, .replyChannel "r"]) ⟨9⟩, .close "a"]
    (c.emissions t "a" w life).map (·.message.number) = [some 1, some 2, some 5] ∧
      ∃ numbers : List SequenceNumber,
        (c.emissions t "a" w life).map (·.message.number) = numbers.map some ∧
        numbers.Pairwise (· < ·) := by
  intro m settings c t network w life
  have hl : c.Lifetime t "a" w life :=
    ((((((lifetime_nil rfl).concat (by simp) (.handle (m "three" [.sequenceNumber 3]) ⟨5⟩)).concat
      (fun _ => by decide) (.handle (m "two" [.sequenceNumber 2]) ⟨6⟩)).concat
      (fun _ => by decide) (.handle (m "one" [.sequenceNumber 1]) ⟨7⟩)).concat
      (fun _ => by decide) (.handle (m "three again" [.sequenceNumber 3]) ⟨8⟩)).concat
      (fun _ => by decide)
      (.handle (m "five" [.sequenceNumber 5, .replyChannel "r"]) ⟨9⟩)).concat
      (fun _ => by decide) (.close "a")
  refine ⟨by decide, ascending_of_lifetime (r := ⟨true⟩) rfl t network [] life "a" hl ?_⟩
  intro x now hx
  simp only [life, List.mem_cons, Call.handle.injEq, List.not_mem_nil, or_false, reduceCtorEq] at hx
  rcases hx with ⟨rfl, -⟩ | ⟨rfl, -⟩ | ⟨rfl, -⟩ | ⟨rfl, -⟩ | ⟨rfl, -⟩ <;> decide

end Collector

end Regroup
