import Mathlib.Data.List.TakeWhile
import Mathlib.Logic.Relation
import Regroup.Proofs.Collector.Expiry
import Regroup.Watch.Session

/-!
# The steps of a session

A session with a watcher, taken apart into steps that follow each other in any order: a call at the
moment that it is now, the watcher receiving one of the deadlines that it was told of, a pass of the
watcher over the groups that are due, time going by as far as the clock can tell it, and the
channels changing by themselves. Groups that are due at one moment may be looked at in any order,
and a pass may sweep over all groups or not.

A call can break off, and so can a pass. Steps are counted with calls that break off or without.

Whatever a session does is made up of such steps.

## Main definitions

* `Regroup.Collector.reached` — the keys that a pass looks at before it breaks off.
* `Regroup.Watcher.swept` — the keys that a pass looks at in a sweep.
* `Regroup.Session.start` — a session that begins.
* `Regroup.Session.Pass` — a pass of the watcher.
* `Regroup.Session.Step`, `Regroup.Session.Steps` — one step, and any number of them.

## Main results

* `Regroup.Collector.expireDue_eq` — looking at groups that are due is expiry of those reached.
* `Regroup.Session.steps_work` — the work of a watcher at a moment is a pass at that moment.
* `Regroup.Session.steps_restFor`, `Regroup.Session.steps_restUntil` — rest is made up of steps.
-/

namespace Regroup

/-! ## Looking at the groups that are due -/

namespace Collector

variable (c : Collector) {s : Store} {key : Key}

/-- Of keys that are looked at, those before the first at which that breaks off. -/
def reached (s : Store) (keys : List Key) : List Key := keys.takeWhile (!c.breaksAt s ·)

/-- Where looking at a group does not break off, it has no bearing on where it does. -/
lemma breaksAt_closeExpired (h : c.breaksAt s key = false) (now : Instant) (k : Key) :
    c.breaksAt (c.closeExpired now s key).1 k = c.breaksAt s k := by
  unfold breaksAt
  rw [get?_closeExpired]
  by_cases hk : key = k
  · subst hk
    unfold breaksAt at h
    rw [if_pos rfl]
    cases hg : s.get? key with
    | none => rfl
    | some g =>
      rw [hg] at h
      cases hold : c.isExpired now g with
      | true =>
        rw [Option.filter_some_neg (by simp [hold])]
        exact h.symm
      | false => rw [Option.filter_some_pos (by simp [hold])]
  · rw [if_neg hk]

/-- What the keys reached are does not depend on one of them having been looked at. -/
lemma reached_closeExpired (h : c.breaksAt s key = false) (now : Instant) (keys : List Key) :
    c.reached (c.closeExpired now s key).1 keys = c.reached s keys := by
  simp only [reached, c.breaksAt_closeExpired h]

/-- To look at the groups that are due is to expire those reached; all have been looked at if none
of them makes it break off.

**Proof sketch.** Induction on the keys. The group that is closed first makes no difference to where
it breaks off (`breaksAt_closeExpired`). -/
theorem expireDue_eq (now : Instant) (s : Store) (keys : List Key) :
    c.expireDue now s keys =
      ((c.expireEach now s (c.reached s keys)).1, (c.expireEach now s (c.reached s keys)).2,
        keys.all (!c.breaksAt s ·)) := by
  induction keys generalizing s with
  | nil => rfl
  | cons key keys ih =>
    unfold expireDue
    cases h : c.breaksAt s key with
    | true => simp [reached, h]
    | false =>
      have hreached : c.reached s (key :: keys) = key :: c.reached s keys := by simp [reached, h]
      simp only [Bool.false_eq_true, if_false, ih, c.reached_closeExpired h,
        c.breaksAt_closeExpired h, hreached, expireEach, List.all_cons, h, Bool.not_false,
        Bool.true_and]

/-- Keys at none of which it breaks off are all reached. -/
lemma reached_eq_self {keys : List Key} (h : ∀ key ∈ keys, c.breaksAt s key = false) :
    c.reached s keys = keys :=
  List.takeWhile_eq_self_iff.2 fun key hkey => by simp [h key hkey]

end Collector

/-! ## Sweeps -/

namespace Watcher

/-- The keys that a pass looks at in a sweep, none where it is not time for one or the pass has
broken off before. -/
def swept (w : Watcher) (c : Collector) (now : Instant) (s : Store) : List Key :=
  if (w.due now).all (!c.breaksAt s ·) && decide (w.nextSweep ≤ now) then
    c.overdue now (c.expireEach now s (w.due now)).1
  else []

/-- A pass looks at the groups that are due, up to the first at which it breaks off, and at those of
the sweep behind them. -/
lemma pass_eq (w : Watcher) (c : Collector) (now : Instant) (s : Store) :
    w.pass c now s = c.expireEach now s (c.reached s (w.due now) ++ w.swept c now s) := by
  rw [c.expireEach_append]
  unfold pass swept
  simp only [c.expireDue_eq]
  by_cases hsweep : ((w.due now).all (!c.breaksAt s ·) && decide (w.nextSweep ≤ now)) = true
  · rw [if_pos hsweep, if_pos hsweep, c.expire_eq, c.reached_eq_self fun key hkey => ?_]
    have hall := (Bool.and_eq_true_iff.1 hsweep).1
    simpa using List.all_eq_true.1 hall key hkey
  · rw [if_neg hsweep, if_neg hsweep, Collector.expireEach_nil]

end Watcher

/-! ## Steps -/

namespace Session

variable {σ : Type}

/-- A session that begins: nothing has been handed in, and nobody watches. -/
def start (c : Collector) (t : Transport σ) (channels : σ) (clock : Instant) : Session σ :=
  ⟨c, t, c.start channels, clock, .never⟩

/-- The session after a watcher has looked at the groups of some keys and closed the old ones, and
what the watcher waits for then. -/
def passed (s : Session σ) (later : Watcher) (keys : List Key) : Session σ :=
  { s with
    world := (s.collector.performExpiry s.transport s.world s.clock keys).world
    watching := .running later }

/-- A pass of the watcher at the moment that it is now. -/
inductive Pass (s : Session σ) : Session σ → Prop where
  /-- It looks at the groups whose deadline has come, unless it breaks off at one of them. -/
  | due (w later : Watcher) (keys : List Key) (running : s.watching = .running w)
    (waits : w.afterPass? s.clock = some later) (due : keys.Perm (w.due s.clock)) :
    Pass s (s.passed later (s.collector.reached s.store keys))
  /-- Behind these it sweeps over all groups. -/
  | swept (w later : Watcher) (keys all : List Key) (running : s.watching = .running w)
    (waits : w.afterPass? s.clock = some later) (due : keys.Perm (w.due s.clock))
    (whole : ∀ key ∈ keys, s.collector.breaksAt s.store key = false)
    (overdue : all.Perm (s.collector.overdue s.clock (s.passed later keys).store)) :
    Pass s (s.passed later (keys ++ all))

/-- One step of a session, which may be a call that breaks off if `mayBreak` says so. -/
inductive Step (mayBreak : Bool) : Session σ → Session σ → Prop where
  /-- A call. Messages are handed in at the moment that it is now. -/
  | call (s : Session σ) (call : Call) (atClock : ∀ m now, call = .handle m now → now = s.clock)
    (whole : mayBreak = false → (s.call call).1.isOk = true) : Step mayBreak s (s.call call).2
  /-- A watcher is attached. -/
  | watch {s s' : Session σ} (attached : s.watch true = .ok s') : Step mayBreak s s'
  /-- The watcher receives the deadline that it was told of first. -/
  | receive (s : Session σ) (w : Watcher) (running : s.watching = .running w) :
    Step mayBreak s { s with watching := .running w.receive }
  /-- The watcher closes old groups. -/
  | pass {s s' : Session σ} (pass : s.Pass s') : Step mayBreak s s'
  /-- Time goes by. -/
  | wait (s : Session σ) (now : Instant) (le : s.clock ≤ now) (tells : now ≤ Instant.last) :
    Step mayBreak s { s with clock := now }
  /-- The channels change. -/
  | outside (s : Session σ) (channels : σ) :
    Step mayBreak s { s with world := { s.world with channels } }
  /-- The watcher is to stop, or has stopped. -/
  | stop (s : Session σ) (watching : Watching) (attached : s.watching ≠ .never)
    (ended : watching = .stopping ∨ watching = .stopped) : Step mayBreak s { s with watching }

/-- Any number of steps. -/
abbrev Steps (mayBreak : Bool) : Session σ → Session σ → Prop :=
  Relation.ReflTransGen (Step mayBreak)

variable {mayBreak : Bool}

/-! ## Whatever a session does -/

variable (s : Session σ)

/-- Work of a watcher that can wait for the next sweep is a pass at the moment of the work. -/
lemma work_eq {w later : Watcher} {now : Instant} (h : w.afterPass? now = some later) :
    s.work w now = { s with clock := now }.passed later
      (s.collector.reached s.store (w.due now) ++ w.swept s.collector now s.store) := by
  unfold work
  simp only [h, Watcher.pass_eq]
  rfl

/-- What a watcher does at a moment is a pass at that moment, or the watcher stops. -/
lemma steps_work {w : Watcher} (running : s.watching = .running w) {now : Instant}
    (le : s.clock ≤ now) (tells : now ≤ Instant.last) : Steps mayBreak s (s.work w now) := by
  have hwait : Steps mayBreak s { s with clock := now } := .single (.wait s now le tells)
  cases h : w.afterPass? now with
  | some later =>
    rw [work_eq s h]
    refine hwait.tail (.pass ?_)
    unfold Watcher.swept
    split
    · rename_i hsweep
      have hwhole : ∀ key ∈ w.due now, s.collector.breaksAt s.store key = false := by
        intro key hkey
        simpa using List.all_eq_true.1 (Bool.and_eq_true_iff.1 hsweep).1 key hkey
      rw [s.collector.reached_eq_self hwhole]
      exact .swept w later _ _ running h (.refl _) hwhole (.refl _)
    · rw [List.append_nil]
      exact .due w later _ running h (.refl _)
  | none =>
    unfold work
    simp only [h]
    exact hwait.tail (.stop _ .stopped (by rw [running]; simp) (.inr rfl))

/-- Receiving all deadlines is receiving one after the other. -/
lemma steps_receiveAll {w : Watcher} (running : s.watching = .running w) :
    Steps mayBreak s { s with watching := .running w.receiveAll } := by
  obtain ⟨arriving, schedule, nextSweep, sweepInterval⟩ := w
  induction arriving generalizing s schedule with
  | nil =>
    rw [show Watcher.receiveAll ⟨[], schedule, nextSweep, sweepInterval⟩ =
      ⟨[], schedule, nextSweep, sweepInterval⟩ from rfl, ← running]
  | cons d arriving ih =>
    exact .head (.receive s _ running)
      (ih { s with watching := .running ⟨arriving, d.into schedule, nextSweep, sweepInterval⟩ }
        _ rfl)

/-- A session that rests takes steps.

**Proof sketch.** Induction on the rounds. In each the watcher receives all deadlines and works when
its timer goes off, or at the moment that it is now if that is later. -/
lemma steps_rest {limit : Instant} (tells : limit ≤ Instant.last) (enough : Store → Bool)
    (rounds : ℕ) :
    Steps mayBreak s (s.rest limit enough rounds) ∧
      (s.clock ≤ limit → (s.rest limit enough rounds).clock ≤ limit) := by
  induction rounds generalizing s with
  | zero => exact ⟨.refl, id⟩
  | succ rounds ih =>
    unfold rest
    cases hw : s.watching with
    | never | stopping | stopped => exact ⟨.refl, id⟩
    | running w =>
      have hreceive : Steps mayBreak s { s with watching := .running w.receiveAll } :=
        s.steps_receiveAll hw
      simp only
      generalize hmoment : (if s.clock ≤ alarm w.receiveAll.wakeAt then alarm w.receiveAll.wakeAt
        else s.clock) = moment
      have hclock : s.clock ≤ moment := by
        rw [← hmoment]
        split
        · assumption
        · exact Nat.le_refl _
      by_cases hstop : (enough s.store || !decide (moment ≤ limit)) = true
      · rw [if_pos hstop]
        exact ⟨hreceive, id⟩
      · rw [if_neg hstop]
        obtain ⟨hsteps, hlimit⟩ := ih (s.work w.receiveAll moment)
        have hworked : (s.work w.receiveAll moment).clock = moment := by
          unfold work
          split <;> rfl
        rw [hworked] at hlimit
        simp only [Bool.or_eq_true, not_or, Bool.not_eq_true', decide_eq_false_iff_not,
          not_not] at hstop
        have hwork : Steps mayBreak { s with watching := .running w.receiveAll }
            (s.work w.receiveAll moment) :=
          steps_work { s with watching := .running w.receiveAll } rfl hclock
            (Nat.le_trans hstop.2 tells)
        exact ⟨hreceive.trans (hwork.trans hsteps), fun _ => hlimit hstop.2⟩

/-- The moment until which a session rests at most is not earlier than it is now, and the clock can
tell it. -/
private lemma limit_mem (hclock : s.clock ≤ Instant.last) (span : Duration) :
    s.clock ≤ (s.clock.after? span).getD .last ∧
      (s.clock.after? span).getD .last ≤ Instant.last := by
  cases h : s.clock.after? span with
  | none => exact ⟨hclock, Nat.le_refl _⟩
  | some limit =>
    obtain ⟨rfl, hlast⟩ := Instant.after?_eq_some_iff.1 h
    exact ⟨Nat.le_add_right _ _, hlast⟩

/-- Rest for a time is made up of steps. -/
theorem steps_restFor (hclock : s.clock ≤ Instant.last) (span : Duration) :
    Steps mayBreak s (s.restFor span) := by
  obtain ⟨hle, htells⟩ := s.limit_mem hclock span
  unfold restFor
  generalize (s.clock.after? span).getD .last = limit at hle htells ⊢
  have hwait : Steps mayBreak s { s with clock := limit } := .single (.wait s _ hle htells)
  cases hw : s.watching with
  | never | stopped => rwa [hw] at hwait
  | stopping => exact hwait.tail (.stop _ .stopped (by simp [hw]) (.inr rfl))
  | running w =>
    obtain ⟨hsteps, hlimit⟩ := s.steps_rest htells (fun _ => false) (rounds w span)
    exact hsteps.tail (.wait _ _ (hlimit hle) htells)

/-- So is rest until few enough groups are left. -/
theorem steps_restUntil (hclock : s.clock ≤ Instant.last) (count : ℕ) (patience : Duration) :
    Steps mayBreak s (s.restUntil count patience) := by
  unfold restUntil
  cases hw : s.watching with
  | never | stopped => exact .refl
  | stopping => exact .single (.stop s .stopped (by rw [hw]; simp) (.inr rfl))
  | running w => exact (s.steps_rest (s.limit_mem hclock patience).2 _ _).1

/-- Stopping the watcher is a step, if there is one. -/
lemma steps_stopWatching : Steps mayBreak s s.stopWatching := by
  unfold stopWatching
  cases hw : s.watching with
  | never => exact .refl
  | running w | stopping | stopped =>
    exact .single (.stop s .stopped (by rw [hw]; simp) (.inr rfl))

/-- So is giving the collector up. -/
lemma steps_abandon : Steps mayBreak s s.abandon := by
  unfold abandon
  cases hw : s.watching with
  | running w => exact .single (.stop s .stopping (by rw [hw]; simp) (.inl rfl))
  | never | stopping | stopped => exact .refl

end Session

end Regroup
