import Regroup.Collector.Run
import Regroup.Proofs.Group.History
import Regroup.Proofs.Store.Counter

/-!
# What a call does

Every call of a collector, seen through the look-up of the store. A message that is handed in is
either refused, and then the store is what it was, or it joins the group of its key, and then the
other groups are what they were. Closing and expiry only ever remove groups.

## Main definitions

* `Regroup.Collector.settle` — what a ready group leaves behind, and what is to be sent.
* `Regroup.Collector.receive` — what becomes of a group that a message joins.
* `Regroup.Collector.judge` — what becomes of a message, told from the state before it is handed in.
* `Regroup.Collector.Outcome` — what handing in a message comes to.

## Main results

* `Regroup.Collector.outcome_handle` — handing in a message comes to one of two outcomes.
* `Regroup.Collector.verdict_handle` — the verdict on a message is the one told before.
* `Regroup.Collector.verdict_handle_of_unlimited` — without a capacity the objection alone decides.
* `Regroup.Collector.valid_perform` — every call keeps the store valid.
-/

namespace Regroup

variable {s : Store} {key : Key} {g : Group} {m : Message} {now : Instant}

/-! ## Targets -/

namespace Send

/-- A released message goes to its reply channel, or without one to the output. -/
lemma target_release (m : Message) : (release m).target = m.reply.elim .output .reply := by
  unfold release
  cases m.reply <;> rfl

/-- A released message goes to the output path. -/
@[simp] lemma isOutput_release (m : Message) : (release m).isOutput = true := by
  unfold release isOutput
  cases m.reply <;> simp

/-- A discarded message does not. -/
@[simp] lemma isOutput_discard (m : Message) : (discard m).isOutput = false := by
  simp [discard, isOutput]

end Send

/-! ## Evicting -/

namespace Store

/-- Where nothing is evicted the store stays as it is. -/
lemma evict_of_excess_eq_nil (h : g.excess m = []) (s : Store) : s.evict g m = s := by
  unfold Group.excess at h
  unfold evict
  split
  · rename_i size hg hm
    rw [hg, hm] at h
    simp only at h
    rw [if_pos (by rw [h]; rfl)]
  · rfl

/-- Where something is evicted the group is put back without it. -/
lemma evict_of_excess_ne_nil (h : g.excess m ≠ []) (s : Store) :
    s.evict g m = s.replace (g.dropExcess m) := by
  unfold Group.excess at h
  unfold evict Group.dropExcess
  cases hg : g.size with
  | some _ => simp [hg] at h
  | none =>
    cases hm : m.size with
    | none => simp [hg, hm] at h
    | some size =>
      simp only [hg, hm] at h
      simp only [List.isEmpty_iff, h, if_false]

/-- Evicting changes the look-up of the group's key only. -/
lemma get?_evict (h : s.get? g.key = some g) (m : Message) (k : Key) :
    (s.evict g m).get? k = if g.key = k then some (g.dropExcess m) else s.get? k := by
  by_cases hx : g.excess m = []
  · rw [evict_of_excess_eq_nil hx, Group.dropExcess_of_excess_eq_nil hx]
    by_cases hk : g.key = k
    · rw [if_pos hk, ← hk, h]
    · rw [if_neg hk]
  · rw [evict_of_excess_ne_nil hx, get?_replace, Group.key_dropExcess]

@[simp] lemma capacity_evict (s : Store) (g : Group) (m : Message) :
    (s.evict g m).capacity = s.capacity := by
  unfold evict
  split
  · split <;> rfl
  · rfl

/-- Evicting keeps a store valid. -/
lemma Valid.evict (hv : s.Valid) (h : s.get? g.key = some g) (m : Message) :
    (s.evict g m).Valid := by
  by_cases hx : g.excess m = []
  · rwa [evict_of_excess_eq_nil hx]
  · rw [evict_of_excess_ne_nil hx]
    apply hv.replace
    have := Group.length_dropExcess_add g m
    rw [Group.key_dropExcess, length_list, h, Option.map_some, Option.getD_some]
    omega

/-- Evicting makes room.

**Proof sketch.** The counter did not exceed the capacity and counted the evicted messages too. -/
lemma hasRoom_evict (hv : s.Valid) (h : s.get? g.key = some g) (hx : g.excess m ≠ []) :
    (s.evict g m).hasRoom = true := by
  have hpos := List.length_pos_iff.2 hx
  have hlen := Group.length_dropExcess_add g m
  have hle := hv.length_le h
  have hbuffered : (s.evict g m).buffered < s.buffered := by
    rw [evict_of_excess_ne_nil hx]
    have hlist : (s.list (g.dropExcess m).key).length = g.length := by
      rw [Group.key_dropExcess, length_list, h, Option.map_some, Option.getD_some]
    simp only [Store.replace, hlist]
    split <;> omega
  unfold hasRoom
  rw [capacity_evict]
  cases hc : s.capacity with
  | none => rfl
  | some capacity =>
    have := hv.bounded capacity hc
    simp only [decide_eq_true_eq]
    omega

end Store

/-! ## Processing -/

namespace Group.ReducesTo

variable {left : Group}

/-- Taking messages out of a group changes its messages and its barrier only. -/
lemma eq (h : g.ReducesTo left) :
    left = { g with messages := left.messages, barrier := left.barrier } := by
  induction h with
  | refl => rfl
  | takeAll _ ih => rw [ih]; rfl
  | takeNumbered _ ih => rw [ih]; rfl
  | releaseRun _ ih => rw [ih]; rfl

/-- Taking messages out of a group leaves some of them, in their order. -/
lemma sublist (h : g.ReducesTo left) : left.messages.Sublist g.messages := by
  induction h with
  | refl => exact .refl _
  | takeAll _ _ => exact List.nil_sublist _
  | takeNumbered _ ih => exact List.filter_sublist.trans ih
  | releaseRun _ ih => exact (Group.left_run_sublist _ _ _ _).trans ih

end Group.ReducesTo

namespace Processor

/-- Aggregating uses up all messages. -/
lemma process_aggregate (combine : List Message → Payload) (g : Group) :
    ∃ ms, (aggregate combine).process g = (.final ms, { g with messages := [] }) := by
  unfold process Group.takeAll
  cases g.messages with
  | nil => exact ⟨_, rfl⟩
  | cons first rest => exact ⟨_, rfl⟩

/-- A resequencer of runs releases the run that is due next. -/
lemma process_runs {r : Resequencer} (hr : r.releasesRuns = true) (g : Group) :
    (resequence r).process g =
      (if g.releaseRun.2.isDrained then .final g.releaseRun.1 else .interim g.releaseRun.1,
        g.releaseRun.2) := by
  simp only [process, hr, if_true]

/-- A resequencer of whole sequences takes the numbered messages. -/
lemma process_whole {r : Resequencer} (hr : r.releasesRuns = false) (g : Group) :
    (resequence r).process g = (.final g.takeNumbered.1, g.takeNumbered.2) := by
  simp only [process, hr, Bool.false_eq_true, if_false]

/-- Processing a group takes messages out of it. -/
theorem reducesTo_process (p : Processor) (g : Group) : g.ReducesTo (p.process g).2 := by
  cases p with
  | passThrough => exact .takeAll .refl
  | aggregate combine =>
    obtain ⟨ms, h⟩ := process_aggregate combine g
    rw [h]
    exact .takeAll .refl
  | resequence r =>
    cases hr : r.releasesRuns with
    | true =>
      rw [process_runs hr]
      exact .releaseRun .refl
    | false =>
      rw [process_whole hr]
      exact .takeNumbered .refl
  | custom p => exact p.reducesTo_process g

/-- Processing a group changes its messages and its barrier only. -/
lemma process_snd (p : Processor) (g : Group) :
    (p.process g).2 =
      { g with messages := (p.process g).2.messages, barrier := (p.process g).2.barrier } :=
  (p.reducesTo_process g).eq

/-- Processing a group leaves some of its messages, in their order. -/
lemma process_sublist (p : Processor) (g : Group) :
    (p.process g).2.messages.Sublist g.messages :=
  (p.reducesTo_process g).sublist

end Processor

namespace Collector

variable (c : Collector)

/-- Whether a group that has emitted everything stays as a mark. -/
def marks (g : Group) : Bool := c.settings.discardsLate && g.isSequenced && !g.hasSeenWhole

/-- What is left of a ready group in the store, if anything, and what is to be sent because of
it. -/
def settle (g : Group) : Option Group × List Send :=
  match c.processor.process g with
  | (.final messages, left) =>
    (if c.marks left then some left.complete else none,
      messages.map Send.release ++ c.discardPlan left.messages)
  | (.interim messages, left) => (some left, messages.map Send.release)

/-- What is left in the store of a group that a message joins, and what is to be sent then. -/
def receive (g : Group) (m : Message) : Option Group × List Send :=
  if c.releaseRule.isReady (g.join m) then c.settle (g.join m) else (some (g.join m), [])

/-- What is left of a group that a message joins is the group itself, or what processing it leaves,
perhaps as a mark. -/
lemma eq_of_receive_fst {left : Group} (h : (c.receive g m).1 = some left) :
    left = g.join m ∨ left = (c.processor.process (g.join m)).2 ∨
      left = (c.processor.process (g.join m)).2.complete := by
  unfold receive settle at h
  generalize c.processor.process (g.join m) = processed at h ⊢
  obtain ⟨emission, rest⟩ := processed
  split at h
  · cases emission with
    | interim messages => exact .inr (.inl (Option.some.inj h).symm)
    | final messages =>
      simp only at h
      split at h
      · exact .inr (.inr (Option.some.inj h).symm)
      · simp at h
  · exact .inl (Option.some.inj h).symm

/-- Finishing a group changes the look-up of its key only. -/
lemma get?_finish (s : Store) (g : Group) (k : Key) :
    (c.finish s g).get? k =
      if g.key = k then (if c.marks g then some g.complete else none) else s.get? k := by
  unfold finish
  show (if c.marks g then s.replace g.complete else (s.remove g.key).2).get? k = _
  split
  · exact s.get?_replace g.complete k
  · exact s.get?_remove_eq g.key k

/-- Finishing a group keeps a store valid. -/
lemma valid_finish (hv : s.Valid) (g : Group) : (c.finish s g).Valid := by
  unfold finish
  split
  · exact hv.replace (Nat.zero_le _)
  · exact hv.remove g.key

/-- What is to be sent because of a ready group. -/
lemma release_snd (s : Store) (g : Group) : (c.release s g).2 = (c.settle g).2 := by
  unfold release settle
  generalize c.processor.process g = processed
  obtain ⟨emission, left⟩ := processed
  cases emission with
  | final messages => rfl
  | interim messages => rfl

/-- Releasing a ready group changes the look-up of its key only. -/
lemma get?_release (s : Store) (g : Group) (k : Key) :
    (c.release s g).1.get? k = if g.key = k then (c.settle g).1 else s.get? k := by
  have hkey : (c.processor.process g).2.key = g.key := by rw [Processor.process_snd]
  unfold release settle
  generalize c.processor.process g = processed at hkey ⊢
  obtain ⟨emission, left⟩ := processed
  cases emission with
  | final messages =>
    have := c.get?_finish s left.takeAll.2 k
    rwa [show left.takeAll.2.key = g.key from hkey] at this
  | interim messages =>
    have := s.get?_replace left k
    rwa [show left.key = g.key from hkey] at this

/-- Releasing a ready group keeps a store valid. -/
lemma valid_release (hv : s.Valid) (h : s.get? g.key = some g) : (c.release s g).1.Valid := by
  have hkey : (c.processor.process g).2.key = g.key := by rw [Processor.process_snd]
  have hlen := (c.processor.process_sublist g).length_le
  unfold release
  split
  · exact c.valid_finish hv _
  · rename_i messages left he
    rw [he] at hkey hlen
    apply hv.replace
    rwa [show left.key = g.key from hkey, Store.length_list, h]

/-! ## Handing in a message -/

/-- A message that finds room joins its group. -/
lemma join_of_hasRoom (hv : s.Valid) (h : s.get? g.key = some g)
    (hr : (s.evict g m).hasRoom = true) (now : Instant) (isNew : Bool) :
    ∃ s', c.join s now g isNew m = (.accepted, s', (c.receive g m).2) ∧ s'.Valid ∧
      ∀ k, s'.get? k = if g.key = k then (c.receive g m).1 else s.get? k := by
  have hget : (s.evict g m).get? g.key = some (g.dropExcess m) := by
    rw [Store.get?_evict h, if_pos rfl]
  obtain ⟨s₁, hadd, hvalid, hget₁⟩ := (hv.evict h m).exists_add hget hr m now
  replace hget₁ : ∀ k, s₁.get? k = if g.key = k then some (g.join m) else s.get? k := by
    intro k
    rw [hget₁, Store.get?_evict h]
    by_cases hk : g.key = k
    · rw [if_pos hk, if_pos hk]
      rfl
    · rw [if_neg hk, if_neg hk, if_neg hk]
  unfold join receive
  rw [hadd]
  show ∃ s', (if c.releaseRule.isReady (g.join m) = true then _ else _) = _ ∧ _
  by_cases hready : c.releaseRule.isReady (g.join m) = true
  · rw [if_pos hready, if_pos hready]
    refine ⟨(c.release s₁ (g.join m)).1, ?_, c.valid_release hvalid ?_, fun k => ?_⟩
    · rw [← release_snd]
      rfl
    · rw [hget₁, Group.key_join, if_pos rfl]
    · rw [get?_release, hget₁, Group.key_join]
      split <;> rfl
  · rw [if_neg hready, if_neg hready]
    exact ⟨s₁, rfl, hvalid, hget₁⟩

/-- A message that finds no room leaves the store as it was before its group was opened. -/
lemma join_of_full (h : s.get? g.key = some g) (hr : (s.evict g m).hasRoom = false)
    (hx : g.excess m = []) (now : Instant) (isNew : Bool) :
    c.join s now g isNew m =
      (.unstored (.capacityExceeded (s.capacity.getD 0)),
        if isNew then (s.remove g.key).2 else s, []) := by
  rw [Store.evict_of_excess_eq_nil hx] at hr
  unfold join
  rw [Store.evict_of_excess_eq_nil hx, Store.add_of_full h hr]

/-- A group before its first message has no objection to a well-formed one. -/
lemma objection?_new (key : Key) (now : Instant) (hwf : m.isWellFormed = true) (strict : Bool) :
    (Group.new key now).objection? m strict = none := by
  rw [Group.objection?_eq_none_iff]
  refine ⟨rfl, ?_, ?_, ?_⟩
  · unfold Group.conflictsWith
    cases hm : m.size <;> simp [Group.new, Group.isEmpty]
  · unfold Group.isOutOfRange
    cases hm : m.number <;> simp [Group.new]
  · unfold Group.isDuplicate
    cases hm : m.number with
    | none => simp [Group.new]
    | some n =>
      have hpos := SequenceNumber.toNat_pos (((m.isWellFormed_iff).1 hwf).1 n hm)
      have hrel : Barrier.start.isReleased n = false := by
        simp only [Barrier.isReleased, Barrier.start, decide_eq_false_iff_not,
          UInt32.lt_iff_toNat_lt, UInt32.toNat_one]
        omega
      simp [Group.new, Group.holds, hrel]

/-- What is to be sent for a message that is refused. -/
def refusalPlan (m : Message) : Verdict → List Send
  | .objected objection => c.objectionPlan m objection
  | _ => []

/-- Why a message with a key is refused: its sequence headers make no sense, its group objects, or
it neither finds nor makes room. -/
def Refuses (s : Store) (now : Instant) (key : Key) (m : Message) : Prop :=
  m.isWellFormed = false ∨
    (s.groupOf key now).objection? m c.settings.strictSize ≠ none ∨
    (s.hasRoom = false ∧ (s.groupOf key now).excess m = [])

/-- What becomes of a message, told from what is held before it is handed in. A message finds room
where the store has some, or where it evicts something first. -/
def judge (h : Holdings) (now : Instant) (m : Message) : Verdict :=
  match (c.keyRule.resolve h.issued m).1 with
  | none => .keyless
  | some key =>
    if m.isWellFormed then
      match (h.store.groupOf key now).objection? m c.settings.strictSize with
      | some objection => .objected objection
      | none =>
        if h.store.hasRoom || !((h.store.groupOf key now).excess m).isEmpty then .accepted
        else .unstored (.capacityExceeded (h.store.capacity.getD 0))
    else .malformed

/-- What handing in a message comes to. -/
inductive Outcome (h : Holdings) (now : Instant) (m : Message) (r : Handled) : Prop where
  /-- The message is refused and the store stays as it is. -/
  | refused
      (reason : ∀ key, (c.keyRule.resolve h.issued m).1 = some key →
        c.Refuses h.store now key m)
      (verdict : r.verdict ≠ .accepted)
      (store : r.store = h.store)
      (plan : r.plan = c.refusalPlan m r.verdict)
  /-- The message joins the group of its key, and the other groups stay as they are. -/
  | accepted (key : Key)
      (resolved : (c.keyRule.resolve h.issued m).1 = some key)
      (wellFormed : m.isWellFormed = true)
      (welcome : (h.store.groupOf key now).objection? m c.settings.strictSize = none)
      (verdict : r.verdict = .accepted)
      (plan : r.plan = (c.receive (h.store.groupOf key now) m).2)
      (valid : r.store.Valid)
      (store : ∀ k, r.store.get? k =
        if key = k then (c.receive (h.store.groupOf key now) m).1 else h.store.get? k)

/-- A well-formed message with a key is refused or joins the group of that key, as was told before.

**Proof sketch.** The group that the message meets is the one obtained for the key. A new group
has no objection, so an objection leaves the store as it was. Without an objection the room
decides: an eviction always makes room, so a message that finds none has evicted nothing, and a
group that was opened for it is removed again. -/
private lemma outcome_handleKeyed {h : Holdings} (hv : h.store.Valid)
    (hkey : (c.keyRule.resolve h.issued m).1 = some key) (hwf : m.isWellFormed = true)
    (now : Instant) :
    c.Outcome h now m (c.handleKeyed h.store now key m) ∧
      (c.handleKeyed h.store now key m).verdict = c.judge h now m := by
  have hfst := h.store.obtain_fst key now
  have hnew := h.store.obtain_isNew key now
  have hvalid := hv.obtain key now
  have hget := h.store.get?_obtain_eq key now
  have hremove : h.store.get? key = none →
      ((h.store.obtain key now).2.2.remove key).2 = h.store := fun hn => Store.remove_obtain hn now
  have hsame : ∀ g, h.store.get? key = some g → (h.store.obtain key now).2.2 = h.store :=
    fun g hg => by rw [Store.obtain_of_get? hg]
  have hroom := h.store.hasRoom_obtain key now
  have hcap := h.store.capacity_obtain key now
  unfold handleKeyed judge
  rw [hkey]
  generalize h.store.obtain key now = obtained at *
  obtain ⟨g, isNew, s₁⟩ := obtained
  obtain rfl : g = h.store.groupOf key now := hfst
  obtain rfl : isNew = (h.store.get? key).isNone := hnew
  simp only [hwf, if_true] at hvalid hget hremove hsame hroom hcap ⊢
  set g := h.store.groupOf key now with hg
  have hgkey : g.key = key := by
    have := hvalid.keyed key g (by rw [hget, if_pos rfl])
    exact this
  have hget₁ : s₁.get? g.key = some g := by rw [hget, hgkey, if_pos rfl]
  cases hobj : g.objection? m c.settings.strictSize with
  | some objection =>
    have hold : s₁ = h.store := by
      cases hn : h.store.get? key with
      | some g' => exact hsame g' hn
      | none =>
        have hgn : g = Group.new key now := by rw [hg, Store.groupOf, hn, Option.getD_none]
        rw [hgn, objection?_new key now hwf] at hobj
        simp at hobj
    refine ⟨.refused ?_ (by simp) hold rfl, rfl⟩
    intro key' hkey'
    obtain rfl : key = key' := Option.some.inj (hkey.symm.trans hkey')
    exact .inr (.inl (by rw [← hg, hobj]; simp))
  | none =>
    cases hr : (s₁.evict g m).hasRoom with
    | true =>
      obtain ⟨s', hjoin, hvalid', hget'⟩ :=
        c.join_of_hasRoom hvalid hget₁ hr now (h.store.get? key).isNone
      have hfits : (h.store.hasRoom || !(g.excess m).isEmpty) = true := by
        by_cases hx : g.excess m = []
        · rw [Store.evict_of_excess_eq_nil hx, hroom] at hr
          rw [hr, Bool.true_or]
        · simp [hx]
      rw [hjoin]
      refine ⟨.accepted key hkey hwf hobj rfl rfl hvalid' fun k => ?_, (if_pos hfits).symm⟩
      rw [hget', hget, hgkey]
      split <;> rfl
    | false =>
      have hx : g.excess m = [] := by
        by_contra hx
        rw [Store.hasRoom_evict hvalid hget₁ hx] at hr
        simp at hr
      rw [c.join_of_full hget₁ hr hx, hcap]
      rw [Store.evict_of_excess_eq_nil hx, hroom] at hr
      have hback : (if (h.store.get? key).isNone = true then (s₁.remove g.key).2 else s₁) =
          h.store := by
        cases hn : h.store.get? key with
        | some g' => exact hsame g' hn
        | none => rw [hgkey]; exact hremove hn
      refine ⟨.refused ?_ (by simp) hback rfl, by simp [hr, hx]⟩
      intro key' hkey'
      obtain rfl : key = key' := Option.some.inj (hkey.symm.trans hkey')
      exact .inr (.inr ⟨hr, hx⟩)

/-- Handing in a message comes to one of two outcomes. -/
theorem outcome_handle {h : Holdings} (hv : h.store.Valid) (now : Instant) (m : Message) :
    c.Outcome h now m (c.handle h now m).1 := by
  have hkeyed := fun key (hkey : (c.keyRule.resolve h.issued m).1 = some key) hwf =>
    (c.outcome_handleKeyed hv hkey hwf now).1
  unfold handle
  generalize hres : c.keyRule.resolve h.issued m = res at hkeyed ⊢
  obtain ⟨key, issued⟩ := res
  cases key with
  | none =>
    refine .refused (fun key hkey => ?_) (by simp) rfl rfl
    rw [hres] at hkey
    simp at hkey
  | some key =>
    cases hwf : m.isWellFormed with
    | true => exact hkeyed key rfl hwf
    | false =>
      exact .refused (fun _ _ => .inl hwf) (by simp) rfl rfl

/-- The verdict on a message is the one that could be told before. -/
theorem verdict_handle {h : Holdings} (hv : h.store.Valid) (now : Instant) (m : Message) :
    (c.handle h now m).1.verdict = c.judge h now m := by
  have hkeyed := fun key (hkey : (c.keyRule.resolve h.issued m).1 = some key) hwf =>
    (c.outcome_handleKeyed hv hkey hwf now).2
  unfold handle
  generalize hres : c.keyRule.resolve h.issued m = res at hkeyed ⊢
  obtain ⟨key, issued⟩ := res
  cases key with
  | none => simp only [judge, hres]
  | some key =>
    cases hwf : m.isWellFormed with
    | true => exact hkeyed key rfl hwf
    | false => simp [judge, hres, hwf]

/-- What is refused is sent nowhere but to the channel for discarded messages. -/
lemma isOutput_of_mem_refusalPlan {verdict : Verdict} {x : Send}
    (hx : x ∈ c.refusalPlan m verdict) : x.isOutput = false := by
  unfold refusalPlan objectionPlan discardPlan at hx
  repeat' split at hx
  all_goals simp at hx
  all_goals simp [hx, Send.discard, Send.isOutput]

/-- Of a plan that releases and then discards the output path gets what is released. -/
lemma filter_isOutput_plan (ms leftovers : List Message) :
    (ms.map Send.release ++ c.discardPlan leftovers).filter (·.isOutput) =
      ms.map Send.release := by
  unfold discardPlan
  split <;> simp [List.filter_map, Function.comp_def]

/-- Of a plan that releases and then discards the channel for discarded messages gets what is
discarded. -/
lemma filter_not_isOutput_plan (ms leftovers : List Message) :
    (ms.map Send.release ++ c.discardPlan leftovers).filter (!·.isOutput) =
      c.discardPlan leftovers := by
  unfold discardPlan
  split <;> simp [List.filter_map, Function.comp_def]

/-- Without a capacity a well-formed message with a key is accepted unless its group objects. -/
theorem verdict_handle_of_unlimited {h : Holdings} (hv : h.store.Valid)
    (hcap : h.store.capacity = none) (hkey : (c.keyRule.resolve h.issued m).1 = some key)
    (hwf : m.isWellFormed = true) (now : Instant) :
    (c.handle h now m).1.verdict = .accepted ↔
      (h.store.groupOf key now).objection? m c.settings.strictSize = none := by
  rw [c.verdict_handle hv, judge, hkey]
  simp only [hwf, if_true, Store.hasRoom_of_capacity_eq_none hcap, Bool.true_or]
  cases (h.store.groupOf key now).objection? m c.settings.strictSize <;> simp

/-- What is to be sent for a message that its group objects to. -/
lemma plan_handle_of_objection {h : Holdings} (hkey : (c.keyRule.resolve h.issued m).1 = some key)
    (hwf : m.isWellFormed = true) {objection : Objection}
    (hobj : (h.store.groupOf key now).objection? m c.settings.strictSize = some objection) :
    (c.handle h now m).1.plan = c.objectionPlan m objection := by
  unfold handle
  generalize hres : c.keyRule.resolve h.issued m = res at hkey ⊢
  obtain ⟨k, issued⟩ := res
  obtain rfl : k = some key := hkey
  rw [← Store.obtain_fst] at hobj
  simp only [hwf, if_true, handleKeyed, hobj]

/-- A well-formed message opens a group if its key has none, whatever then becomes of it. -/
lemma opened_handle {h : Holdings} (hkey : (c.keyRule.resolve h.issued m).1 = some key)
    (hwf : m.isWellFormed = true) (habsent : h.store.get? key = none) (now : Instant) :
    (c.handle h now m).1.opened = some (Group.new key now) := by
  unfold handle
  generalize hres : c.keyRule.resolve h.issued m = res at hkey ⊢
  obtain ⟨k, issued⟩ := res
  obtain rfl : k = some key := hkey
  simp only [hwf, if_true, handleKeyed, Store.obtain, habsent]
  split <;> rfl

/-! ## The capacity -/

@[simp] lemma capacity_finish (s : Store) (g : Group) : (c.finish s g).capacity = s.capacity := by
  unfold finish
  split <;> simp

@[simp] lemma capacity_release (s : Store) (g : Group) :
    (c.release s g).1.capacity = s.capacity := by
  unfold release
  split
  · exact c.capacity_finish _ _
  · rfl

@[simp] lemma capacity_join (s : Store) (now : Instant) (g : Group) (isNew : Bool) (m : Message) :
    (c.join s now g isNew m).2.1.capacity = s.capacity := by
  have hadd := (s.evict g m).capacity_add g.key m now
  rw [Store.capacity_evict] at hadd
  unfold join
  split
  · rename_i he
    rw [he] at hadd
    cases isNew <;> simpa using hadd
  · rename_i he
    rw [he] at hadd
    split
    · exact (c.capacity_release _ _).trans hadd
    · exact hadd

/-- Handing in a message leaves the capacity of the store as it is. -/
lemma capacity_handle (h : Holdings) (now : Instant) (m : Message) :
    (c.handle h now m).1.store.capacity = h.store.capacity := by
  unfold handle
  split
  · rfl
  · split
    · unfold handleKeyed
      simp only
      split
      · simp
      · simp
    · rfl

/-- The number of keys issued behind a call depends on the key rule alone. -/
lemma handle_snd (h : Holdings) (now : Instant) (m : Message) :
    (c.handle h now m).2 = (c.keyRule.resolve h.issued m).2 := by
  unfold handle
  generalize c.keyRule.resolve h.issued m = res
  obtain ⟨key, issued⟩ := res
  cases key with
  | none => rfl
  | some key => cases m.isWellFormed <;> rfl

/-! ## Closing and expiry -/

/-- Closing removes the group, whatever is sent then. -/
lemma close_fst (s : Store) (key : Key) : (c.close s key).1 = (s.remove key).2 := by
  unfold close
  split
  · rename_i h
    rw [h]
  · rename_i h
    rw [h]
    split
    · rfl
    · split <;> rfl

/-- Expiry of one key closes its group or does nothing. -/
lemma closeExpired_fst (now : Instant) (s : Store) (key : Key) :
    (c.closeExpired now s key).1 = s ∨ (c.closeExpired now s key).1 = (s.remove key).2 := by
  unfold closeExpired
  split
  · split
    · exact .inr (c.close_fst s key)
    · exact .inl rfl
  · exact .inl rfl

/-- Expiry keeps the store valid, and each group stays as it is or is removed. -/
lemma expireEach_fst (hv : s.Valid) (now : Instant) (keys : List Key) :
    (c.expireEach now s keys).1.Valid ∧
      ∀ k, (c.expireEach now s keys).1.get? k = s.get? k ∨
        (c.expireEach now s keys).1.get? k = none := by
  induction keys generalizing s with
  | nil => exact ⟨hv, fun k => .inl rfl⟩
  | cons key keys ih =>
    have hfirst : (c.closeExpired now s key).1.Valid ∧
        ∀ k, (c.closeExpired now s key).1.get? k = s.get? k ∨
          (c.closeExpired now s key).1.get? k = none := by
      rcases c.closeExpired_fst now s key with h | h <;> rw [h]
      · exact ⟨hv, fun k => .inl rfl⟩
      · refine ⟨hv.remove key, fun k => ?_⟩
        rw [Store.get?_remove_eq]
        split
        · exact .inr rfl
        · exact .inl rfl
    obtain ⟨hvalid, hget⟩ := ih hfirst.1
    refine ⟨hvalid, fun k => ?_⟩
    rcases hget k with h | h
    · rcases hfirst.2 k with h' | h'
      · exact .inl (h.trans h')
      · exact .inr (h.trans h')
    · exact .inr h

/-- Expiry of all groups keeps the store valid, and each group stays as it is or is removed. -/
lemma expire_fst (hv : s.Valid) (now : Instant) :
    (c.expire now s).1.Valid ∧
      ∀ k, (c.expire now s).1.get? k = s.get? k ∨ (c.expire now s).1.get? k = none := by
  unfold expire
  split
  · exact c.expireEach_fst hv now _
  · exact ⟨hv, fun k => .inl rfl⟩

/-- Expiry of some groups leaves the capacity of the store as it is. -/
lemma capacity_expireEach (now : Instant) (s : Store) (keys : List Key) :
    (c.expireEach now s keys).1.capacity = s.capacity := by
  induction keys generalizing s with
  | nil => rfl
  | cons key keys ih =>
    refine (ih (c.closeExpired now s key).1).trans ?_
    rcases c.closeExpired_fst now s key with h | h <;> rw [h]
    exact s.capacity_remove key

/-! ## Every call -/

/-- Every call leaves the capacity of the store as it is. -/
lemma capacity_perform {σ : Type} (t : Transport σ) (w : World σ) (call : Call) :
    (c.perform t w call).world.holdings.store.capacity = w.holdings.store.capacity := by
  cases call with
  | handle m now => exact c.capacity_handle w.holdings now m
  | close key =>
    show (c.close w.holdings.store key).1.capacity = _
    rw [close_fst]
    exact w.holdings.store.capacity_remove key
  | expire now =>
    show (c.expire now w.holdings.store).1.capacity = _
    unfold expire
    split
    · exact c.capacity_expireEach now _ _
    · rfl

/-- Every call keeps the store valid. -/
theorem valid_perform {σ : Type} (t : Transport σ) {w : World σ} (hv : w.holdings.store.Valid)
    (call : Call) : (c.perform t w call).world.holdings.store.Valid := by
  cases call with
  | handle m now =>
    show (c.handle w.holdings now m).1.store.Valid
    cases c.outcome_handle hv now m with
    | refused reason verdict store plan => rwa [store]
    | accepted key resolved wellFormed welcome verdict plan valid store => exact valid
  | close key =>
    show (c.close w.holdings.store key).1.Valid
    rw [close_fst]
    exact hv.remove key
  | expire now => exact (c.expire_fst hv now).1

end Collector

end Regroup
