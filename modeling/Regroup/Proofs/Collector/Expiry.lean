import Regroup.Message.Edit
import Regroup.Proofs.Collector.Lifetime
import Regroup.Proofs.Store.Contents

/-!
# Expiry is exact

Expiry looks at the age of a group twice: the store lists the keys of the groups that came into
being before a cutoff, and each of these groups is looked at again before it is closed. Both agree,
also where the cutoff lies before the first moment of the clock. So expiry is nothing but closing
the groups that have reached the age, one after the other, in the order in which the store happens
to list them.

## Main definitions

* `Regroup.Collector.overdue` — the keys that the store lists for expiry.
* `Regroup.Collector.performExpiry` — expiry where the store lists its keys in a given order.
* `Regroup.Collector.ExpiresExactly` — that the groups that have reached the age are closed, and no
  others.

## Main results

* `Regroup.Collector.mem_overdue_iff` — the keys listed are those of the groups that have reached
  the age.
* `Regroup.Collector.get?_expireEach`, `Regroup.Collector.get?_expire` — which groups stay.
* `Regroup.Collector.after_close_of_overdue`, `Regroup.Collector.exists_after_close` — expiry closes
  groups one after the other.
* `Regroup.Collector.expiresExactly_of_calls` — expiry is exact.
-/

namespace Regroup

variable {s : Store} {key : Key} {g : Group} {now : Instant}

/-! ## Keys of old groups -/

namespace Store

/-- The keys listed for a cutoff are those of the groups that came into being by then. -/
lemma mem_keysUntil_iff (s : Store) (cutoff : Instant) (key : Key) :
    key ∈ s.keysUntil cutoff ↔ ∃ g, s.get? key = some g ∧ g.createdAt ≤ cutoff := by
  unfold keysUntil
  rw [List.mem_mergeSort, List.mem_map]
  constructor
  · rintro ⟨⟨k, g⟩, hmem, rfl⟩
    rw [List.mem_filter, decide_eq_true_eq, Dict.mem_entries_iff] at hmem
    exact ⟨g, hmem⟩
  · rintro ⟨g, hg, hle⟩
    exact ⟨(key, g), List.mem_filter.2 ⟨(s.groups.mem_entries_iff key g).2 hg, by simpa using hle⟩,
      rfl⟩

/-- No key is listed twice. -/
lemma nodup_keysUntil (s : Store) (cutoff : Instant) : (s.keysUntil cutoff).Nodup :=
  (List.mergeSort_perm _ _).nodup_iff.2
    ((List.filter_sublist.map Prod.fst).nodup s.groups.nodup_keys)

end Store

namespace Collector

variable (c : Collector)

/-- The keys that the store lists for expiry: those of the groups that came into being a timeout ago
or earlier, none where that reaches back beyond the first moment of the clock. -/
def overdue (now : Instant) (s : Store) : List Key :=
  match c.settings.effectiveTimeout.bind now.before? with
  | some cutoff => s.keysUntil cutoff
  | none => []

/-- Expiry of all groups is expiry of the groups listed for it. -/
lemma expire_eq (now : Instant) (s : Store) :
    c.expire now s = c.expireEach now s (c.overdue now s) := by
  unfold expire overdue
  cases c.settings.effectiveTimeout.bind now.before? <;> rfl

/-- A group has reached the age if the timeout has passed since it came into being. -/
lemma isExpired_iff (now : Instant) (g : Group) :
    c.isExpired now g = true ↔
      ∃ timeout, c.settings.effectiveTimeout = some timeout ∧ g.createdAt.after timeout ≤ now := by
  unfold isExpired
  cases c.settings.effectiveTimeout <;> simp

/-- The keys listed are those of the groups that have reached the age.

**Proof sketch.** The cutoff lies a timeout before the moment, so a group came into being by then
exactly if the timeout has passed since (`Instant.le_before?_iff`). Where there is no such cutoff
the timeout cannot have passed. -/
lemma mem_overdue_iff (now : Instant) (s : Store) (key : Key) :
    key ∈ c.overdue now s ↔ ∃ g, s.get? key = some g ∧ c.isExpired now g = true := by
  unfold overdue
  simp only [isExpired_iff]
  cases ht : c.settings.effectiveTimeout with
  | none => simp
  | some timeout =>
    rw [Option.bind_some]
    cases hcutoff : now.before? timeout with
    | none => simp [Instant.not_after_le_of_before?_eq_none hcutoff]
    | some cutoff => simp [Store.mem_keysUntil_iff, Instant.le_before?_iff hcutoff]

/-- No key is listed twice. -/
lemma nodup_overdue (now : Instant) (s : Store) : (c.overdue now s).Nodup := by
  unfold overdue
  split
  · exact s.nodup_keysUntil _
  · exact List.nodup_nil

/-! ## Which groups stay -/

variable {c} in
/-- A group that has not reached the age is not sorted out. -/
lemma filter_of_young {o : Option Group} (h : ∀ g, o = some g → c.isExpired now g = false) :
    o.filter (!c.isExpired now ·) = o := by
  cases o with
  | none => rfl
  | some g => exact Option.filter_some_pos (by simp [h g rfl])

/-- A group that has reached the age is closed. -/
lemma closeExpired_of_isExpired (hg : s.get? key = some g) (he : c.isExpired now g = true) :
    c.closeExpired now s key = ((c.close s key).1, some (c.close s key).2) := by
  unfold closeExpired
  simp only [hg, he, if_true]

/-- A younger group is left alone, and where there is no group nothing happens. -/
lemma closeExpired_of_young (h : ∀ g, s.get? key = some g → c.isExpired now g = false) :
    c.closeExpired now s key = (s, none) := by
  unfold closeExpired
  cases hg : s.get? key with
  | none => rfl
  | some g => simp [h g hg]

/-- Expiry of one key removes the key's group if it has reached the age. -/
lemma get?_closeExpired (now : Instant) (s : Store) (key k : Key) :
    (c.closeExpired now s key).1.get? k =
      if key = k then (s.get? k).filter (!c.isExpired now ·) else s.get? k := by
  by_cases hold : ∃ g, s.get? key = some g ∧ c.isExpired now g = true
  · obtain ⟨g, hg, he⟩ := hold
    rw [c.closeExpired_of_isExpired hg he, close_fst, Store.get?_remove_eq]
    split
    · rename_i hk
      rw [← hk, hg, Option.filter_some_neg (by simp [he])]
    · rfl
  · have hyoung : ∀ g, s.get? key = some g → c.isExpired now g = false :=
      fun g hg => Bool.eq_false_iff.2 fun he => hold ⟨g, hg, he⟩
    rw [c.closeExpired_of_young hyoung]
    split
    · rename_i hk
      rw [← hk, filter_of_young hyoung]
    · rfl

/-- Expiry of some keys removes their groups if they have reached the age. -/
lemma get?_expireEach (now : Instant) (s : Store) (keys : List Key) (k : Key) :
    (c.expireEach now s keys).1.get? k =
      if k ∈ keys then (s.get? k).filter (!c.isExpired now ·) else s.get? k := by
  induction keys generalizing s with
  | nil => rfl
  | cons key keys ih =>
    show (c.expireEach now (c.closeExpired now s key).1 keys).1.get? k = _
    rw [ih, get?_closeExpired]
    by_cases hk : key = k
    · subst hk
      simp
    · simp [hk, Ne.symm hk]

/-- Expiry of all groups removes those that have reached the age. -/
theorem get?_expire (now : Instant) (s : Store) (k : Key) :
    (c.expire now s).1.get? k = (s.get? k).filter (!c.isExpired now ·) := by
  rw [expire_eq, get?_expireEach]
  split
  · rfl
  · rename_i hk
    rw [mem_overdue_iff] at hk
    exact (filter_of_young fun g hg => Bool.eq_false_iff.2 fun he => hk ⟨g, hg, he⟩).symm

@[simp] lemma expireEach_nil (now : Instant) (s : Store) : c.expireEach now s [] = (s, []) := rfl

/-- Expiry of some keys and then of others is expiry of all of them. -/
lemma expireEach_append (now : Instant) (s : Store) (keys keys' : List Key) :
    c.expireEach now s (keys ++ keys') =
      ((c.expireEach now (c.expireEach now s keys).1 keys').1,
        (c.expireEach now s keys).2 ++ (c.expireEach now (c.expireEach now s keys).1 keys').2) := by
  induction keys generalizing s with
  | nil => rfl
  | cons key keys ih =>
    simp only [List.cons_append, expireEach, ih, List.append_assoc]

/-! ## Closing one group after the other -/

variable {σ : Type} (t : Transport σ)

/-- Expiry where the store lists its keys in a given order. -/
def performExpiry (w : World σ) (now : Instant) (keys : List Key) : Performed σ :=
  let closed := c.expireEach now w.holdings.store keys
  let sent := deliverEach t w.channels closed.2
  ⟨⟨{ w.holdings with store := closed.1 }, sent.1⟩, sent.2.1, .expired sent.2.2, none⟩

/-- The call that expires groups lists them by ascending keys. -/
lemma perform_expire (w : World σ) (now : Instant) :
    c.perform t w (.expire now) =
      c.performExpiry t w now (c.overdue now w.holdings.store) := by
  rw [performExpiry, ← expire_eq]
  rfl

/-- Where nothing is listed nothing happens. -/
@[simp] lemma performExpiry_nil (w : World σ) (now : Instant) :
    c.performExpiry t w now [] = ⟨w, [], .expired 0, none⟩ := rfl

/-- **Expiry closes the groups one after the other.** What is held then, what has been sent, and in
which state the channels are is the same; and the answer counts the calls that have not failed.

**Proof sketch.** Induction on the keys. The first group has reached the age, so it is closed; the
other groups are not changed by that, so they still have reached it. -/
theorem after_close_of_overdue {w : World σ} {now : Instant} {keys : List Key}
    (hnodup : keys.Nodup)
    (hold : ∀ key ∈ keys, ∃ g, groupIn w key = some g ∧ c.isExpired now g = true) :
    c.performExpiry t w now keys =
      ⟨c.after t w (keys.map .close), c.sends t w (keys.map .close),
        .expired ((c.answers t w (keys.map .close)).count (.done none)), none⟩ := by
  induction keys generalizing w with
  | nil => rfl
  | cons key keys ih =>
    obtain ⟨hkey, hkeys⟩ := List.nodup_cons.1 hnodup
    obtain ⟨g, hg, he⟩ := hold key List.mem_cons_self
    have hrest := ih (w := (c.perform t w (.close key)).world) hkeys fun k hk => by
      obtain ⟨g', hg', he'⟩ := hold k (List.mem_cons_of_mem _ hk)
      refine ⟨g', ?_, he'⟩
      rw [groupIn_perform_close, if_neg (by rintro rfl; exact hkey hk), hg']
    simp only [performExpiry, Performed.mk.injEq, Answer.expired.injEq, and_true] at hrest
    obtain ⟨hworld, hsent, hcount⟩ := hrest
    simp only [performExpiry, expireEach, c.closeExpired_of_isExpired hg he, Option.toList_some,
      List.singleton_append, deliverEach, Performed.mk.injEq, Answer.expired.injEq, and_true]
    refine ⟨hworld, congrArg _ hsent, ?_⟩
    show (if _ then _ else _) =
      ((c.perform t w (.close key)).answer :: c.answers t _ (keys.map .close)).count (.done none)
    rw [List.count_cons, ← hcount, answer_close]
    cases (deliver t w.channels (c.close w.holdings.store key).2).failure <;> rfl

/-- Closing groups one after the other removes them, whatever is sent then. -/
lemma holdings_after_close (w : World σ) (keys : List Key) :
    (c.after t w (keys.map .close)).holdings =
      { w.holdings with store := w.holdings.store.removeEach keys } := by
  induction keys generalizing w with
  | nil => rfl
  | cons key keys ih =>
    rw [List.map_cons, after_cons, ih]
    show (⟨(c.close w.holdings.store key).1.removeEach keys, _⟩ : Holdings) = _
    rw [close_fst]
    rfl

/-! ## Exactness -/

/-- Expiry where the store lists the keys closes the groups that came into being a timeout ago or
earlier, and no others. -/
structure ExpiresExactly (timeout : Duration) (w : World σ) (now : Instant) (keys : List Key)
    (p : Performed σ) : Prop where
  /-- Each key is listed once. -/
  nodup : keys.Nodup
  /-- The keys listed are those of the groups that have reached the age. -/
  mem_iff : ∀ key, key ∈ keys ↔ ∃ g, groupIn w key = some g ∧ g.createdAt.after timeout ≤ now
  /-- The groups that have reached the age are gone, and the others are as they were. -/
  groups : ∀ key, groupIn p.world key =
    (groupIn w key).filter fun g => !decide (g.createdAt.after timeout ≤ now)
  /-- What the groups that are gone buffered is no longer counted, and nothing else. -/
  counter : p.world.holdings.store.buffered + (keys.flatMap w.holdings.store.list).length =
    w.holdings.store.buffered
  /-- The world is the one behind closing the groups one after the other. -/
  world : p.world = c.after t w (keys.map .close)
  /-- What is sent is what closing the groups sends. -/
  delivered : p.delivered = c.sends t w (keys.map .close)
  /-- The answer is the number of the groups whose closing has not failed. -/
  answer : p.answer = .expired ((c.answers t w (keys.map .close)).count (.done none))
  /-- In which order the keys are listed makes no difference to what is held then. -/
  holdings : p.world.holdings = (c.perform t w (.expire now)).world.holdings

variable {c t} in
/-- Where a timeout is set, reaching the age is to have been there for so long. -/
lemma isExpired_eq_decide {timeout : Duration} (h : c.settings.effectiveTimeout = some timeout)
    (now : Instant) (g : Group) :
    c.isExpired now g = decide (g.createdAt.after timeout ≤ now) := by
  rw [Bool.eq_iff_iff, isExpired_iff, decide_eq_true_eq]
  exact ⟨fun ⟨_, ht, hle⟩ => Option.some.inj (h.symm.trans ht) ▸ hle, fun hle => ⟨timeout, h, hle⟩⟩

/-- Expiry is exact where the store lists its keys in any order.

**Proof sketch.** Each of the keys listed is that of a group that has reached the age, so the groups
are closed one after the other (`after_close_of_overdue`). Which of them is removed first makes no
difference to what is held then. -/
private lemma expiresExactly_performExpiry {timeout : Duration}
    (ht : c.settings.effectiveTimeout = some timeout) {w : World σ}
    (hv : w.holdings.store.Valid) {now : Instant} {keys : List Key}
    (hkeys : keys.Perm (c.overdue now w.holdings.store)) :
    c.ExpiresExactly t timeout w now keys (c.performExpiry t w now keys) := by
  have hnodup : ∀ {l : List Key}, l.Perm (c.overdue now w.holdings.store) → l.Nodup :=
    fun h => h.nodup_iff.2 (c.nodup_overdue now _)
  have hmem : ∀ {l : List Key}, l.Perm (c.overdue now w.holdings.store) → ∀ key,
      key ∈ l ↔ ∃ g, groupIn w key = some g ∧ c.isExpired now g = true :=
    fun h key => h.mem_iff.trans (c.mem_overdue_iff now _ key)
  have hclose := fun {l} (h : List.Perm l _) =>
    c.after_close_of_overdue t (hnodup h) fun key => (hmem h key).1
  have hheld : (c.after t w (keys.map .close)).holdings.store.buffered =
      (w.holdings.store.removeEach keys).buffered := by
    rw [holdings_after_close]
  constructor
  · exact hnodup hkeys
  · intro key
    rw [hmem hkeys]
    simp only [isExpired_eq_decide ht, decide_eq_true_eq]
  · intro key
    show (c.expireEach now w.holdings.store keys).1.get? key = _
    simp only [get?_expireEach, ← isExpired_eq_decide ht]
    split
    · rfl
    · rename_i hk
      rw [hmem hkeys] at hk
      exact (filter_of_young fun g hg => Bool.eq_false_iff.2 fun he => hk ⟨g, hg, he⟩).symm
  · rw [hclose hkeys, hheld, hv.buffered_removeEach (hnodup hkeys)]
  · rw [hclose hkeys]
  · rw [hclose hkeys]
  · rw [hclose hkeys]
  · rw [perform_expire, hclose hkeys, hclose (.refl _), holdings_after_close, holdings_after_close,
      Store.removeEach_perm hkeys]

/-- **Expiry is exact**, behind any calls of a collector, whatever the channels do and in whatever
order the store lists its keys. The groups that came into being a timeout ago or earlier are closed,
one after the other, and no others; nothing is left for a second time; and without a timeout, or
with none at all, nothing happens.

**Proof sketch.** `expiresExactly_performExpiry`. Of the groups that stay none has reached the age,
so none is listed again. -/
theorem expiresExactly_of_calls {σ₀ : Type} (t₀ : Transport σ₀) (channels₀ : σ₀)
    (calls : List Call) (t : Transport σ) (channels : σ) (now : Instant) (keys : List Key)
    (hkeys : keys.Perm
      (c.overdue now (c.after t₀ (c.start channels₀) calls).holdings.store)) :
    let w : World σ := ⟨(c.after t₀ (c.start channels₀) calls).holdings, channels⟩
    let p := c.performExpiry t w now keys
    c.perform t w (.expire now) =
        c.performExpiry t w now (c.overdue now w.holdings.store) ∧
      (∀ timeout, c.settings.effectiveTimeout = some timeout →
        c.ExpiresExactly t timeout w now keys p) ∧
      (∀ again, again.Perm (c.overdue now p.world.holdings.store) →
        c.performExpiry t p.world now again = ⟨p.world, [], .expired 0, none⟩) ∧
      ((∀ timeout, c.settings.timeout = some timeout → timeout.isZero = true) →
        p = ⟨w, [], .expired 0, none⟩) := by
  intro w p
  refine ⟨c.perform_expire t w now, fun timeout ht =>
    c.expiresExactly_performExpiry t ht (c.valid_after_start t₀ channels₀ calls) hkeys, ?_, ?_⟩
  · intro again hagain
    have hnone : c.overdue now p.world.holdings.store = [] := by
      refine List.eq_nil_iff_forall_not_mem.2 fun key hkey => ?_
      obtain ⟨g, hg, he⟩ := (c.mem_overdue_iff now _ key).1 hkey
      have hstay : (c.expireEach now w.holdings.store keys).1.get? key = some g := hg
      rw [get?_expireEach] at hstay
      split at hstay
      · simp [Option.filter_eq_some_iff, he] at hstay
      · rename_i hk
        exact hk (hkeys.mem_iff.2 ((c.mem_overdue_iff now _ key).2 ⟨g, hstay, he⟩))
    rw [hnone, List.perm_nil] at hagain
    rw [hagain, performExpiry_nil]
  · intro hzero
    have hnone : c.settings.effectiveTimeout = none := by
      unfold Settings.effectiveTimeout
      cases ht : c.settings.timeout with
      | none => rfl
      | some timeout => exact Option.filter_some_neg (by simp [hzero timeout ht])
    have hnil : c.overdue now w.holdings.store = [] := by
      rw [overdue, hnone]
      rfl
    have hempty : keys = [] := List.perm_nil.1 (hkeys.trans (.of_eq hnil))
    simp only [p, hempty, performExpiry_nil]

/-- Three groups: one whose message asks for a channel that refuses it, the mark of a sequence of
three released after two messages, and one that is younger. The first two have reached the age, and
the store lists the mark first. -/
theorem expiresExactly_of_calls_refusing :
    let m := fun payload key headers =>
      Message.build (.bare payload) (.correlationId key :: headers)
    let settings : Settings :=
      { (Settings.earlyResultsAfter ⟨0, 10⟩) with discardsLate := true }
    let c := processing settings (.correlation .refuse) .passThrough
      (some (.count (.ofNat 2))) true
    let calls : List Call := [
      .handle (m "x" "a" [.replyChannel "r"]) ⟨0⟩,
      .handle (m "one" "b" [.sequence 1 3]) ⟨0⟩,
      .handle (m "two" "b" [.sequence 2 3]) ⟨0⟩,
      .handle (m "y" "c" []) ⟨5⟩]
    let t : Transport (List Send) := ⟨fun made x =>
      match x.target with
      | .reply _ => (some .disconnected, made)
      | .output | .discard => (none, made ++ [x])⟩
    let w : World (List Send) := ⟨(c.after .recording (c.start []) calls).holdings, []⟩
    let p := c.performExpiry t w ⟨10⟩ ["b", "a"]
    (w.holdings.store.groups.keys = ["a", "b", "c"] ∧ w.holdings.store.buffered = 2) ∧
      (p.answer = .expired 1 ∧ p.world.holdings.store.groups.keys = ["c"] ∧
        p.world.holdings.store.buffered = 1) ∧
      c.ExpiresExactly t ⟨0, 10⟩ w ⟨10⟩ ["b", "a"] p := by
  intro m settings c calls t w p
  have hcutoff : c.settings.effectiveTimeout.bind (Instant.before? ⟨10⟩) = some ⟨0⟩ := by decide
  have hkeys : ["b", "a"].Perm (c.overdue ⟨10⟩ w.holdings.store) := by
    rw [overdue, hcutoff]
    exact .trans (by decide) (List.mergeSort_perm _ _).symm
  refine ⟨by decide, by decide, ?_⟩
  exact (c.expiresExactly_of_calls .recording [] calls t [] ⟨10⟩ ["b", "a"] hkeys).2.1 _ (by decide)

end Collector

end Regroup
