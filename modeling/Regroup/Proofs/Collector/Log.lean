import Regroup.Proofs.Collector.Lifetime
import Regroup.Proofs.Collector.Outgoing
import Regroup.Proofs.Delivery.Prefix

/-!
# The groups that sends belong to

Whatever a call sends, it sends for the group of some key: for that of the message handed in, for
the one that is closed, or for one of those that have expired. So the sends of a run can be told
apart by keys.

## Main definitions

* `Regroup.Collector.log` — the sends that a call makes, each with the key of its group.
* `Regroup.Collector.emitted`, `Regroup.Collector.emissions` — what a call, or a list of calls,
  sends to the output path for the group of a key.
* `Regroup.Collector.Closes`, `Regroup.Collector.Emits` — what a call sends for a group and does to
  it.

## Main results

* `Regroup.Collector.map_snd_log` — the log has all sends of a call, in order.
* `Regroup.Collector.exists_mem_emissions` — what is sent to the output path is sent for some key.
* `Regroup.Collector.closes` — a call that hands in no message closes a group or leaves it alone.
* `Regroup.Collector.emits` — every call sends nothing for a group, or closes it, or a message joins
  it.
-/

namespace Regroup

variable {σ : Type}

/-- What is delivered of several plans, each send with the key of its plan. -/
def deliverKeyed (t : Transport σ) (state : σ) : List (Key × List Send) → List (Key × Send)
  | [] => []
  | (key, plan) :: plans =>
    (deliver t state plan).delivered.map (key, ·) ++
      deliverKeyed t (deliver t state plan).state plans

/-- Without the keys it is what is delivered of the plans. -/
lemma map_snd_deliverKeyed (t : Transport σ) (state : σ) (plans : List (Key × List Send)) :
    (deliverKeyed t state plans).map Prod.snd =
      (deliverEach t state (plans.map Prod.snd)).2.1 := by
  induction plans generalizing state with
  | nil => rfl
  | cons p plans ih => simp [deliverKeyed, deliverEach, ih]

/-- The sends with the key. -/
def ofKey (key : Key) (log : List (Key × Send)) : List Send :=
  (log.filter (·.1 = key)).map Prod.snd

@[simp] lemma ofKey_nil (key : Key) : ofKey key [] = [] := rfl

@[simp] lemma ofKey_append (key : Key) (log log' : List (Key × Send)) :
    ofKey key (log ++ log') = ofKey key log ++ ofKey key log' := by
  simp [ofKey]

/-- Sends with one key are all sends with that key, and none with any other. -/
@[simp] lemma ofKey_map (key k : Key) (sends : List Send) :
    ofKey key (sends.map (k, ·)) = if k = key then sends else [] := by
  unfold ofKey
  split <;> simp_all [List.filter_map, Function.comp_def]

namespace Collector

variable (c : Collector) (t : Transport σ) (key : Key)

/-! ## The log -/

/-- The plans that expiry of the keys' groups comes to, each with its key. -/
def closings (now : Instant) (s : Store) : List Key → List (Key × List Send)
  | [] => []
  | key :: keys =>
    (c.closeExpired now s key).2.toList.map (key, ·) ++
      closings now (c.closeExpired now s key).1 keys

/-- Without the keys these are the plans of the expiry. -/
lemma map_snd_closings (now : Instant) (s : Store) (keys : List Key) :
    (c.closings now s keys).map Prod.snd = (c.expireEach now s keys).2 := by
  induction keys generalizing s with
  | nil => rfl
  | cons k keys ih => simp [closings, expireEach, ih, Function.comp_def]

/-- The sends that a call makes, each with the key of its group. -/
def log (w : World σ) : Call → List (Key × Send)
  | .handle m now =>
    match (c.keyRule.resolve w.holdings.issued m).1 with
    | some key => (c.perform t w (.handle m now)).delivered.map (key, ·)
    | none => []
  | .close key => (c.perform t w (.close key)).delivered.map (key, ·)
  | .expire now =>
    match c.settings.effectiveTimeout.bind now.before? with
    | some cutoff =>
      deliverKeyed t w.channels
        (c.closings now w.holdings.store (w.holdings.store.keysUntil cutoff))
    | none => []

/-- The log has all sends of a call, in order. -/
theorem map_snd_log (w : World σ) (call : Call) :
    (c.log t w call).map Prod.snd = (c.perform t w call).delivered := by
  cases call with
  | close k => simp [log, Function.comp_def]
  | handle m now =>
    simp only [log]
    cases hkey : (c.keyRule.resolve w.holdings.issued m).1 with
    | some k => simp [Function.comp_def]
    | none =>
      -- a message without a key is not sent anywhere
      have hplan : (c.handle w.holdings now m).1.plan = [] := by
        unfold handle
        generalize c.keyRule.resolve w.holdings.issued m = res at hkey ⊢
        obtain ⟨k, issued⟩ := res
        obtain rfl : k = none := hkey
        rfl
      simp [delivered_handle, hplan, deliver]
  | expire now =>
    simp only [log, perform, expire]
    cases c.settings.effectiveTimeout.bind now.before? with
    | none => rfl
    | some cutoff =>
      rw [map_snd_deliverKeyed, map_snd_closings]

/-- What a call sends to the output path for the group of the key, in order. -/
def emitted (w : World σ) (call : Call) : List Send :=
  (ofKey key (c.log t w call)).filter (·.isOutput)

/-- What calls send to the output path for the group of the key, in order. -/
def emissions (w : World σ) (calls : List Call) : List Send :=
  c.collect t (c.emitted t key) w calls

lemma emissions_concat (w : World σ) (front : List Call) (call : Call) :
    c.emissions t key w (front ++ [call]) =
      c.emissions t key w front ++ c.emitted t key (c.after t w front) call :=
  collect_concat c t _ w front call

/-- What is sent to the output path is sent there for the group of some key. -/
theorem exists_mem_emissions {w : World σ} {calls : List Call} {x : Send}
    (hx : x ∈ c.sends t w calls) (houtput : x.isOutput = true) :
    ∃ key, x ∈ c.emissions t key w calls := by
  induction calls generalizing w with
  | nil => simp [sends, collect] at hx
  | cons call calls ih =>
    rcases List.mem_append.1 hx with hx | hx
    · have hlog : x ∈ (c.log t w call).map Prod.snd := by
        rw [map_snd_log]
        exact hx
      obtain ⟨⟨key, _⟩, hlogged, rfl⟩ := List.mem_map.1 hlog
      refine ⟨key, List.mem_append_left _ (List.mem_filter.2 ⟨?_, houtput⟩)⟩
      exact List.mem_map.2 ⟨_, List.mem_filter.2 ⟨hlogged, decide_eq_true rfl⟩, rfl⟩
    · obtain ⟨key, hlater⟩ := ih hx
      exact ⟨key, List.mem_append_right _ hlater⟩

/-- Handing in a message sends something only for the group of its key. -/
lemma emitted_handle (w : World σ) (m : Message) (now : Instant) :
    c.emitted t key w (.handle m now) = if c.IsFor w key m then
      (c.perform t w (.handle m now)).delivered.filter (·.isOutput) else [] := by
  by_cases hfor : c.IsFor w key m
  · have hkey : (c.keyRule.resolve w.holdings.issued m).1 = some key := hfor
    rw [if_pos hfor, emitted, log, hkey]
    simp
  · rw [if_neg hfor, emitted, log]
    cases hkey : (c.keyRule.resolve w.holdings.issued m).1 with
    | none => rfl
    | some k =>
      have hne : k ≠ key := by
        rintro rfl
        exact hfor hkey
      simp [hne]

variable {t} in
/-- Where the channels take everything, handing in a message sends what is released. -/
lemma emitted_handle_of_takes (h : ∀ target, t.Takes target) (w : World σ) (m : Message)
    (now : Instant) : c.emitted t key w (.handle m now) = c.released key w (.handle m now) := by
  rw [emitted_handle, delivered_handle, delivered_of_takes t h]
  rfl

/-- Closing sends something only for the group that is closed. -/
lemma emitted_close (w : World σ) (k : Key) :
    c.emitted t key w (.close k) =
      if k = key then (c.perform t w (.close k)).delivered.filter (·.isOutput) else [] := by
  unfold emitted log
  rw [ofKey_map]
  split <;> rfl

/-! ## One call -/

/-- What a call that hands in no message does to the group of a key, and sends for it. -/
inductive Closes (w : World σ) (call : Call) : Prop where
  /-- Nothing is sent, and the group stays as it is. -/
  | spared
      (same : groupIn (c.perform t w call).world key = groupIn w key)
      (nothing : ofKey key (c.log t w call) = [])
  /-- The group is closed, and what leaves it is sent as far as that goes. -/
  | closed (g : Group) (state : σ)
      (stored : groupIn w key = some g)
      (gone : groupIn (c.perform t w call).world key = none)
      (sends : ofKey key (c.log t w call) =
        (deliver t state (c.outgoingPlan (c.outOfClosed g))).delivered)

/-- What a call sends to the output path for the group of a key, and what it does to the group. -/
inductive Emits (w : World σ) (call : Call) : Prop where
  /-- Nothing is sent, and the group stays as it is. -/
  | quiet
      (same : groupIn (c.perform t w call).world key = groupIn w key)
      (accepted : c.accepted key w call = [])
      (emitted : c.emitted t key w call = [])
  /-- The group is closed early. -/
  | closed (g : Group)
      (early : ∀ m now, call ≠ .handle m now)
      (stored : groupIn w key = some g)
      (gone : groupIn (c.perform t w call).world key = none)
      (emitted : c.emitted t key w call <+: (c.outOfClosed g).released.map Send.release)
  /-- A message joins the group. -/
  | joined (m : Message) (now : Instant)
      (handed : call = .handle m now)
      (wellFormed : m.isWellFormed = true)
      (welcome :
        (w.holdings.store.groupOf key now).objection? m c.settings.strictSize = none)
      (next : groupIn (c.perform t w call).world key =
        (c.receive (w.holdings.store.groupOf key now) m).1)
      (accepted : c.accepted key w call = [m])
      (emitted : c.emitted t key w call <+:
        (c.receive (w.holdings.store.groupOf key now) m).2.filter (·.isOutput))

variable {c t key}

/-- What is delivered to the output path of the plan of a closed group is in front of what the group
releases then. -/
lemma delivered_prefix_released (state : σ) (o : Outgoing) :
    (deliver t state (c.outgoingPlan o)).delivered.filter (·.isOutput) <+:
      o.released.map Send.release := by
  rw [← c.filter_isOutput_outgoingPlan o]
  exact (delivers_deliver t state _).in_front.filter _

/-- Closing sends for the group of a key what leaves it, as far as that goes. -/
private lemma closes_close {w : World σ} (k : Key) : c.Closes t key w (.close k) := by
  have hget := c.groupIn_perform_close t key w k
  have hlog : ofKey key (c.log t w (.close k)) =
      if k = key then (c.perform t w (.close k)).delivered else [] := ofKey_map key k _
  by_cases hk : k = key
  · subst hk
    rw [if_pos rfl] at hget hlog
    rw [delivered_close] at hlog
    cases hg : groupIn w k with
    | none =>
      rw [c.close_of_absent hg] at hlog
      exact .spared (hget.trans hg.symm) hlog
    | some g =>
      rw [c.close_of_get? hg] at hlog
      exact .closed g w.channels hg hget hlog
  · rw [if_neg hk] at hget hlog
    exact .spared hget hlog

/-- Expiry of one key's group does nothing, or closes it. -/
private lemma closeExpired_cases (now : Instant) (s : Store) (k : Key) :
    c.closeExpired now s k = (s, none) ∨
      ∃ g, s.get? k = some g ∧
        c.closeExpired now s k = ((s.remove k).2, some (c.outgoingPlan (c.outOfClosed g))) := by
  unfold closeExpired
  cases hg : s.get? k with
  | none => exact .inl rfl
  | some g =>
    simp only
    split
    · refine .inr ⟨g, rfl, ?_⟩
      rw [← c.close_of_get? hg, ← c.close_fst]
    · exact .inl rfl

variable (t key) in
/-- What expiry of some keys' groups does to the group of the key, and sends for it: nothing, or it
closes it.

**Proof sketch.** Induction on the keys. Behind the first one that closes the group there is none
to be closed, so the later ones do nothing. -/
private lemma closings_cases (now : Instant) (keys : List Key) (s : Store) (state : σ) :
    ((c.expireEach now s keys).1.get? key = s.get? key ∧
        ofKey key (deliverKeyed t state (c.closings now s keys)) = []) ∨
      ∃ g state', s.get? key = some g ∧ (c.expireEach now s keys).1.get? key = none ∧
        ofKey key (deliverKeyed t state (c.closings now s keys)) =
          (deliver t state' (c.outgoingPlan (c.outOfClosed g))).delivered := by
  induction keys generalizing s state with
  | nil => exact .inl ⟨rfl, rfl⟩
  | cons k keys ih =>
    simp only [expireEach, closings]
    rcases closeExpired_cases (c := c) now s k with hidle | ⟨g, hg, hclosed⟩
    · rw [hidle]
      exact ih s state
    · rw [hclosed]
      simp only [Option.toList_some, List.map_cons, List.map_nil, List.singleton_append,
        deliverKeyed, ofKey_append, ofKey_map]
      have hrest := ih (s.remove k).2 (deliver t state (c.outgoingPlan (c.outOfClosed g))).state
      rw [Store.get?_remove_eq] at hrest
      by_cases hk : k = key
      · subst hk
        rw [if_pos rfl] at hrest ⊢
        obtain ⟨hgone, hnothing⟩ := hrest.resolve_right (by simp)
        refine .inr ⟨g, state, hg, hgone, ?_⟩
        rw [hnothing, List.append_nil]
      · rw [if_neg hk] at hrest ⊢
        exact hrest

/-- Expiry sends for the group of a key what leaves it if it is closed, as far as that goes. -/
private lemma closes_expire {w : World σ} (now : Instant) : c.Closes t key w (.expire now) := by
  have hstore : (c.perform t w (.expire now)).world.holdings.store =
      (c.expire now w.holdings.store).1 := rfl
  cases hcutoff : c.settings.effectiveTimeout.bind now.before? with
  | none =>
    have hexpire : c.expire now w.holdings.store = (w.holdings.store, []) := by
      rw [expire, hcutoff]
    refine .spared ?_ ?_
    · rw [groupIn, hstore, hexpire]
    · simp [log, hcutoff]
  | some cutoff =>
    have hexpire : c.expire now w.holdings.store =
        c.expireEach now w.holdings.store (w.holdings.store.keysUntil cutoff) := by
      rw [expire, hcutoff]
    have hlog : c.log t w (.expire now) = deliverKeyed t w.channels
        (c.closings now w.holdings.store (w.holdings.store.keysUntil cutoff)) := by
      simp only [log, hcutoff]
    rcases closings_cases t key now (w.holdings.store.keysUntil cutoff)
      w.holdings.store w.channels with ⟨same, nothing⟩ | ⟨g, state, stored, gone, sends⟩
    · refine .spared ?_ (by rw [hlog, nothing])
      rw [groupIn, hstore, hexpire, same]
    · refine .closed g state stored ?_ (by rw [hlog, sends])
      rw [groupIn, hstore, hexpire, gone]

variable (c t key) in
/-- Every call that hands in no message closes the group of a key, or does nothing to it. -/
theorem closes {w : World σ} {call : Call} (early : ∀ m now, call ≠ .handle m now) :
    c.Closes t key w call := by
  cases call with
  | handle m now => exact absurd rfl (early m now)
  | close k => exact closes_close k
  | expire now => exact closes_expire now

/-- What such a call sends to the output path is what the group releases, as far as that goes. -/
private lemma Closes.emits {w : World σ} {call : Call} (h : c.Closes t key w call)
    (early : ∀ m now, call ≠ .handle m now) : c.Emits t key w call := by
  have hacc : c.accepted key w call = [] := by
    cases call with
    | handle m now => exact absurd rfl (early m now)
    | close k => rfl
    | expire now => rfl
  cases h with
  | spared same nothing => exact .quiet same hacc (by rw [emitted, nothing, List.filter_nil])
  | closed g state stored gone sends =>
    refine .closed g early stored gone ?_
    rw [emitted, sends]
    exact delivered_prefix_released state _

variable (c t key) in
/-- **Every call sends nothing for the group of a key and leaves it as it is, or closes it early, or
lets a message join it.** What it sends then is what leaves the group, as far as that goes. -/
theorem emits {w : World σ} (hv : w.holdings.store.Valid) (call : Call) :
    c.Emits t key w call := by
  cases call with
  | close k => exact (c.closes t key (by simp)).emits (by simp)
  | expire now => exact (c.closes t key (by simp)).emits (by simp)
  | handle m now =>
    have hemitted := c.emitted_handle t key w m now
    have hprefix := ((delivers_deliver t w.channels
      (c.handle w.holdings now m).1.plan).in_front).filter (·.isOutput)
    rw [← delivered_handle] at hprefix
    cases c.turn t key hv (.handle m now) with
    | idle same acc _ rel =>
      refine .quiet same acc ?_
      rw [hemitted]
      split
      · rename_i hfor
        rw [released, if_pos hfor] at rel
        rwa [rel, List.prefix_nil] at hprefix
      · rfl
    | closed early => exact absurd rfl (early m now)
    | joined m' now' handed isFor wellFormed welcome next acc _ plan =>
      obtain ⟨rfl, rfl⟩ := Call.handle.inj handed
      refine .joined m now rfl wellFormed welcome next acc ?_
      rw [hemitted, if_pos isFor, ← plan]
      exact hprefix

end Collector

end Regroup
