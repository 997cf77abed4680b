import Regroup.Message.Edit
import Regroup.Proofs.Collector.Origin

/-!
# Messages with and without a length

Where the settings are strict, messages with and without a sequence length are not to share a
group. What a group objects to is a matter of what it buffers at the time. So the two kinds can
still meet in one place: in a group that has released run by run all that joined it, none of which
told a length, and that is open and empty when a message joins that tells one.

## Main definitions

* `Regroup.Unmixed` — that all of some messages tell a length, or none of them.
* `Regroup.Collector.MixesAt` — that the two kinds meet in a group that has been emptied.

## Main results

* `Regroup.Group.size_eq_none_iff_or_of_objection?_eq_none` — in a strict group that buffers
  something the two kinds do not meet.
* `Regroup.Collector.unmixed_iff_of_lifetime` — in a strict collector the two kinds meet in groups
  that have been emptied, and nowhere else.
-/

namespace Regroup

/-- All the messages tell a length, or none of them does. -/
def Unmixed (ms : List Message) : Prop := (∀ m ∈ ms, m.size ≠ none) ∨ ∀ m ∈ ms, m.size = none

instance (ms : List Message) : Decidable (Unmixed ms) :=
  inferInstanceAs (Decidable ((∀ m ∈ ms, m.size ≠ none) ∨ ∀ m ∈ ms, m.size = none))

/-- Messages tell no length exactly if none of them does. -/
lemma told_eq_none_iff (ms : List Message) : told ms = none ↔ ∀ m ∈ ms, m.size = none :=
  List.findSome?_eq_none_iff

/-- Of unmixed messages fewer are unmixed. -/
lemma Unmixed.of_append {ms ms' : List Message} (h : Unmixed (ms ++ ms')) : Unmixed ms :=
  h.imp (fun h m hm => h m (List.mem_append_left _ hm))
    fun h m hm => h m (List.mem_append_left _ hm)

/-- One more message of the same kind leaves messages unmixed. -/
lemma Unmixed.concat {ms : List Message} (h : Unmixed ms) {m : Message}
    (hm : m.size = none ↔ told ms = none) : Unmixed (ms ++ [m]) := by
  have hall : ∀ {p : Message → Prop}, (∀ a ∈ ms, p a) → p m → ∀ a ∈ ms ++ [m], p a := by
    intro p hms hp a ha
    rcases List.mem_append.1 ha with ha | ha
    · exact hms a ha
    · rwa [List.mem_singleton.1 ha]
  by_cases hnone : told ms = none
  · exact .inr (hall ((told_eq_none_iff ms).1 hnone) (hm.2 hnone))
  · refine .inl (hall ?_ fun hsize => hnone (hm.1 hsize))
    exact h.resolve_right fun hn => hnone ((told_eq_none_iff ms).2 hn)

/-- A message that tells a length does not stay unmixed with messages that tell none. -/
lemma not_unmixed_concat {ms : List Message} (hne : ms ≠ []) (hnone : told ms = none) {m : Message}
    (hm : m.size ≠ none) : ¬ Unmixed (ms ++ [m]) := by
  obtain ⟨a, ha⟩ := List.exists_mem_of_ne_nil ms hne
  rintro (h | h)
  · exact h a (List.mem_append_left _ ha) ((told_eq_none_iff ms).1 hnone a ha)
  · exact hm (h m (List.mem_append_right _ List.mem_cons_self))

/-- A strict group takes a message that tells a length if it knows one, and a message that tells
none if it knows none; or else it buffers nothing and knows no length, and the message tells one. -/
lemma Group.size_eq_none_iff_or_of_objection?_eq_none {g : Group} {m : Message}
    (h : g.objection? m true = none) :
    (m.size = none ↔ g.size = none) ∨ (g.messages = [] ∧ g.size = none ∧ m.size ≠ none) := by
  have hconflict := ((g.objection?_eq_none_iff m true).1 h).2.1
  unfold conflictsWith at hconflict
  cases hg : g.size with
  | some known => exact .inl (by cases hm : m.size <;> simp_all)
  | none =>
    cases hm : m.size with
    | none => exact .inl Iff.rfl
    | some size =>
      refine .inr ⟨?_, rfl, by simp⟩
      simpa [hg, hm, g.isEmpty_iff] using hconflict

namespace Collector

variable {σ : Type} (c : Collector) (t : Transport σ) (key : Key)

/-- The two kinds meet: behind some calls of a lifetime the group has released run by run all that
joined it, none of which told a length, and a message joins that tells one. -/
structure MixesAt (w : World σ) (front : List Call) (m : Message) (now : Instant) : Prop where
  /-- Groups are released run by run. -/
  runs : c.processor.releasesRuns = true
  /-- Some message has joined the group before. -/
  begun : c.history t key w front ≠ []
  /-- None of those that have joined told a length. -/
  untold : told (c.history t key w front) = none
  /-- The group is there, and all of them have left it. -/
  emptied : ∃ g, groupIn (c.after t w front) key = some g ∧ g.messages = []
  /-- The message joins the group. -/
  joins : c.accepted key (c.after t w front) (.handle m now) = [m]
  /-- The message tells a length. -/
  tells : m.size ≠ none

variable {c t key} {w : World σ}

/-- Where groups are not released run by run, an open group that knows no length buffers all that
has joined it. -/
lemma Follows.messages_eq_of_unmoved {g : Group} {accepted : List Message}
    (h : c.Follows g accepted) (hp : c.processor.releasesRuns = false) (hsize : g.size = none) :
    g.messages = accepted := by
  rw [h.messages_eq_filter hp, ← h.reflects.size_eq, hsize]
  exact List.filter_true accepted

/-- A message that joins a strict group behind other messages is of their kind, or it mixes.

**Proof sketch.** The group knows the length that the others told. If they told one, the message
must tell one too. If they told none and the message does, the group buffers nothing; so something
has been released, and that is done run by run. -/
private lemma size_eq_none_iff_or_mixesAt (hstrict : c.settings.strictSize = true)
    (hv : w.holdings.store.Valid) {front : List Call} {m : Message} {now : Instant}
    (hl : c.Lifetime t key w (front ++ [.handle m now])) (hne : c.history t key w front ≠ [])
    (welcome : ((c.after t w front).holdings.store.groupOf key now).objection? m
      c.settings.strictSize = none)
    (joins : c.accepted key (c.after t w front) (.handle m now) = [m]) :
    (m.size = none ↔ told (c.history t key w front) = none) ∨ c.MixesAt t key w front m now := by
  obtain ⟨g, hg⟩ : ∃ g, groupIn (c.after t w front) key = some g := by
    rw [← Option.ne_none_iff_exists']
    intro hnone
    rw [hl.eq_nil_of_absent hnone] at hne
    exact hne rfl
  have hfollows : c.processor.releasesRuns = false →
      c.Follows ((c.after t w front).holdings.store.groupOf key now) (c.history t key w front) :=
    fun hp => follows_groupOf (Processor.isProvided_of_whole hp) hv hl
      (fun m _ _ => fits_of_whole hp m) welcome
  have hstems := stemsFrom_of_lifetime hv hl.front hg
  rw [Store.groupOf_of_get? hg] at hfollows
  rw [Store.groupOf_of_get? hg, hstrict] at welcome
  rw [← hstems.size_eq]
  refine (Group.size_eq_none_iff_or_of_objection?_eq_none welcome).imp_right ?_
  rintro ⟨hempty, hsize, hm⟩
  refine ⟨?_, hne, hstems.size_eq ▸ hsize, ⟨g, hg, hempty⟩, joins, hm⟩
  by_contra hruns
  rw [Bool.not_eq_true] at hruns
  exact hne (((hfollows hruns).messages_eq_of_unmoved hruns hsize).symm.trans hempty)

/-- **In a strict collector the messages that join a group within one lifetime all tell a length, or
none of them does, unless they meet in a group that has been emptied**, behind any calls, whatever
the release rule and the processor are and whatever becomes of the sends. Where groups are not
released run by run nothing is emptied, and they never meet.

**Proof sketch.** Induction on the calls of the lifetime, the last one first: a message that joins
is of the kind of those before it, or it mixes (`size_eq_none_iff_or_mixesAt`). -/
theorem unmixed_iff_of_lifetime (c : Collector) (hstrict : c.settings.strictSize = true)
    (t : Transport σ) (channels : σ) (before life : List Call) (key : Key)
    (hl : c.Lifetime t key (c.after t (c.start channels) before) life) :
    Unmixed (c.history t key (c.after t (c.start channels) before) life) ↔
      ∀ front m now rest, life = front ++ .handle m now :: rest →
        ¬ c.MixesAt t key (c.after t (c.start channels) before) front m now := by
  have hv := c.valid_after_start t channels before
  generalize c.after t (c.start channels) before = w at hl hv ⊢
  constructor
  · rintro hun front m now rest rfl hmix
    rw [List.append_cons, history_append, history_concat, hmix.joins] at hun
    exact not_unmixed_concat hmix.begun hmix.untold hmix.tells hun.of_append
  · intro hno
    induction life using List.reverseRecOn with
    | nil => exact .inl (by simp [history, collect])
    | append_singleton front call ih =>
      have hfront := ih hl.front fun front' m now rest he =>
        hno front' m now (rest ++ [call]) (by simp [he])
      rw [history_concat]
      cases c.turn t key (c.valid_after t hv front) call with
      | idle same acc => rwa [acc, List.append_nil]
      | closed early gone acc => rwa [acc, List.append_nil]
      | joined m now handed isFor wellFormed welcome next acc =>
        subst handed
        rw [acc]
        by_cases hne : c.history t key w front = []
        · rw [hne, List.nil_append]
          by_cases hm : m.size = none
          · exact .inr (by simpa using hm)
          · exact .inl (by simpa using hm)
        · refine hfront.concat ?_
          exact (size_eq_none_iff_or_mixesAt hstrict hv hl hne welcome acc).resolve_right
            (hno front m now [] rfl)

/-- A resequencer of runs has released a first message. Behind it a third waits for the second, and
that is refused as long as it tells a length. -/
theorem unmixed_iff_of_lifetime_waiting :
    let m := fun payload number size => Message.build (.bare payload)
      (.correlationId "a" :: .sequenceNumber number :: size)
    let settings := (Settings.resequencing true).withStrictSize true
    let c := resequencing settings (.correlation .refuse) none true
    let life : List Call := [.handle (m "one" 1 []) ⟨5⟩, .handle (m "three" 3 []) ⟨6⟩,
      .handle (m "two of three" 2 [.sequenceSize 3]) ⟨7⟩, .handle (m "two" 2 []) ⟨8⟩]
    let w := c.start ([] : List Send)
    c.history .recording "a" w life = [m "one" 1 [], m "three" 3 [], m "two" 2 []] ∧
      Unmixed (c.history .recording "a" w life) ∧
      ∀ front m now rest, life = front ++ .handle m now :: rest →
        ¬ c.MixesAt .recording "a" w front m now := by
  intro m settings c life w
  have hl : c.Lifetime .recording "a" w life :=
    (((((lifetime_nil (by decide)).concat (by simp) (.handle (m "one" 1 []) ⟨5⟩)).concat
      (fun _ => by decide) (.handle (m "three" 3 []) ⟨6⟩)).concat
      (fun _ => by decide) (.handle (m "two of three" 2 [.sequenceSize 3]) ⟨7⟩)).concat
      (fun _ => by decide) (.handle (m "two" 2 []) ⟨8⟩))
  exact ⟨by decide, by decide,
    (unmixed_iff_of_lifetime c rfl .recording [] [] life "a" hl).1 (by decide)⟩

/-- Not in every strict collector do the messages of a lifetime all tell a length or none of them: a
message without a length has been released, and behind it one joins that tells a length. -/
theorem not_forall_unmixed :
    ¬ ∀ (c : Collector) (key : Key) (before life : List Call), c.settings.strictSize = true →
      c.releaseRule.isProvided = true → c.processor.isProvided = true →
      c.Lifetime .recording key (c.after .recording (c.start []) before) life →
        Unmixed (c.history .recording key (c.after .recording (c.start []) before) life) := by
  intro hall
  let m := fun payload number size => Message.build (.bare payload)
    (.correlationId "a" :: .sequenceNumber number :: size)
  let settings := (Settings.resequencing true).withStrictSize true
  let c := resequencing settings (.correlation .refuse) none true
  have hl : c.Lifetime .recording "a" (c.start [])
      [.handle (m "one" 1 []) ⟨5⟩, .handle (m "two" 2 [.sequenceSize 3]) ⟨6⟩] :=
    (((lifetime_nil (by decide)).concat (by simp) (.handle (m "one" 1 []) ⟨5⟩)).concat
      (fun _ => by decide) (.handle (m "two" 2 [.sequenceSize 3]) ⟨6⟩))
  exact absurd (hall c "a" [] _ rfl rfl rfl hl) (by decide)

end Collector

end Regroup
