import Mathlib.Data.List.Forall2
import Regroup.Message.Edit
import Regroup.Proofs.Collector.Lifetime

/-!
# Issued keys

A message without a correlation header can be issued a key, which is made from the number of keys
issued before. As long as the numbers do not run out no key is issued twice. But nothing keeps a
message from telling an issued key as its header, and then it shares that key. Where no message
does so, a message with an issued key has a group of its own.

## Main definitions

* `Regroup.KeyRule.keyless` — how many messages have no correlation header.
* `Regroup.Call.message?` — the message that a call hands in.

## Main results

* `Regroup.KeyRule.issuedKey_inj` — different numbers give different keys.
* `Regroup.KeyRule.tells_issuedKey_of_resolveAll` — an issued key is only shared by being told.
* `Regroup.Collector.history_sublist` — what joins a group has got its key.
* `Regroup.KeyRule.shares_iff_tells_of_issued` — which messages share an issued key, and when such a
  message has a group of its own.
-/

namespace Regroup

namespace KeyRule

/-! ## Keys of messages -/

/-- How many of the messages have no correlation header. -/
def keyless (ms : List Message) : ℕ := ms.countP (·.correlationId.isNone)

/-- At most all messages have no correlation header. -/
lemma keyless_le_length (ms : List Message) : keyless ms ≤ ms.length := List.countP_le_length

/-- Different numbers give different keys. -/
lemma issuedKey_inj (a b : UInt64) : issuedKey a = issuedKey b ↔ a = b := by
  refine ⟨fun h => UInt64.toNat_inj.1 ?_, congrArg issuedKey⟩
  -- the number is read back from the digits behind the common beginning
  have hdigits : Nat.toDigits 10 a.toNat = Nat.toDigits 10 b.toNat :=
    String.ofList_injective ((String.append_right_inj "singleton-").1 h)
  have hread := congrArg (fun digits => Nat.ofDigitChars 10 digits 0) hdigits
  simpa using hread

/-- A message with a correlation header keeps it as its key, and nothing is issued. -/
lemma resolve_of_tells {m : Message} {id : String} (h : m.correlationId = some id)
    (issued : UInt64) : (correlation .issue).resolve issued m = (some id, issued) := by
  simp only [resolve, h]

/-- A message without a correlation header is issued the next key. -/
lemma resolve_of_keyless {m : Message} (h : m.correlationId = none) (issued : UInt64) :
    (correlation .issue).resolve issued m = (some (issuedKey issued), issued + 1) := by
  simp only [resolve, h]

/-- The keys of messages in two parts are those of the first part, and of the second with the
number of keys issued to the first. -/
lemma resolveAll_append (issued : ℕ) (front back : List Message) :
    (correlation .issue).resolveAll (.ofNat issued) (front ++ back) =
      (correlation .issue).resolveAll (.ofNat issued) front ++
        (correlation .issue).resolveAll (.ofNat (issued + keyless front)) back := by
  induction front generalizing issued with
  | nil => rfl
  | cons m front ih =>
    cases hm : m.correlationId with
    | some id =>
      have hcount : keyless (m :: front) = keyless front := by simp [keyless, hm]
      rw [List.cons_append, resolveAll, resolveAll, resolve_of_tells hm, hcount]
      exact congrArg _ (ih issued)
    | none =>
      have hcount : issued + keyless (m :: front) = issued + 1 + keyless front := by
        simp [keyless, hm]
        omega
      rw [List.cons_append, resolveAll, resolveAll, resolve_of_keyless hm, hcount]
      simp only [← UInt64.ofNat_one, ← UInt64.ofNat_add]
      exact congrArg _ (ih (issued + 1))

/-- Messages that are issued other numbers get the key of a number exactly by telling it.

**Proof sketch.** Induction on the messages. One with a correlation header gets what it tells; one
without is issued a number that is not the one in question. -/
theorem tells_issuedKey_of_resolveAll {n issued : ℕ} (ms : List Message)
    (hfit : issued + keyless ms ≤ UInt64.size) (hn : n < UInt64.size)
    (hother : n < issued ∨ issued + keyless ms ≤ n) :
    List.Forall₂
      (fun m key => key = some (issuedKey (.ofNat n)) ↔
        m.correlationId = some (issuedKey (.ofNat n)))
      ms ((correlation .issue).resolveAll (.ofNat issued) ms) := by
  induction ms generalizing issued with
  | nil => exact .nil
  | cons m ms ih =>
    cases hm : m.correlationId with
    | some id =>
      have hcount : keyless (m :: ms) = keyless ms := by simp [keyless, hm]
      rw [hcount] at hfit hother
      rw [resolveAll, resolve_of_tells hm]
      exact .cons (by rw [hm]) (ih hfit hother)
    | none =>
      have hcount : keyless (m :: ms) = keyless ms + 1 := by simp [keyless, hm]
      rw [hcount] at hfit hother
      have hne : UInt64.ofNat issued ≠ UInt64.ofNat n := by
        intro he
        have := congrArg UInt64.toNat he
        rw [UInt64.toNat_ofNat_of_lt' (by omega), UInt64.toNat_ofNat_of_lt' hn] at this
        omega
      rw [resolveAll, resolve_of_keyless hm]
      refine .cons ?_ ?_
      · rw [hm, Option.some_inj, issuedKey_inj]
        exact iff_of_false hne (by simp)
      · simp only [← UInt64.ofNat_one, ← UInt64.ofNat_add]
        exact ih (by omega) (by omega)

/-- The messages whose key is the given one. -/
def underKey (key : Key) (keys : List (Option Key)) (ms : List Message) : List Message :=
  ((keys.zip ms).filter fun p => p.1 = some key).map Prod.snd

/-- Where nobody tells a key that is got by telling it only, no message has it. -/
lemma underKey_eq_nil {key : Key} {keys : List (Option Key)} {ms : List Message}
    (h : List.Forall₂ (fun m k => k = some key ↔ m.correlationId = some key) ms keys)
    (hnone : ∀ m ∈ ms, m.correlationId ≠ some key) : underKey key keys ms = [] := by
  induction h with
  | nil => rfl
  | cons hiff _ ih =>
    have hne := fun he => hnone _ List.mem_cons_self (hiff.1 he)
    have ih' := ih fun m hm => hnone m (List.mem_cons_of_mem _ hm)
    unfold underKey at ih' ⊢
    rw [List.zip_cons_cons, List.filter_cons_of_neg (by simpa using hne)]
    exact ih'

/-- Where nobody else tells the key of a message, no other message has it. -/
lemma underKey_eq_singleton {key : Key} {before behind : List (Option Key)}
    {front rest : List Message}
    (hfront : List.Forall₂ (fun m k => k = some key ↔ m.correlationId = some key) front before)
    (hrest : List.Forall₂ (fun m k => k = some key ↔ m.correlationId = some key) rest behind)
    (hnone : ∀ other ∈ front ++ rest, other.correlationId ≠ some key) (m : Message) :
    underKey key (before ++ some key :: behind) (front ++ m :: rest) = [m] := by
  have hnil := underKey_eq_nil hfront fun a ha => hnone a (List.mem_append_left _ ha)
  have hnil' := underKey_eq_nil hrest fun a ha => hnone a (List.mem_append_right _ ha)
  unfold underKey at hnil hnil' ⊢
  rw [List.zip_append hfront.length_eq.symm, List.zip_cons_cons, List.filter_append,
    List.map_append, hnil, List.filter_cons_of_pos (by simp), List.map_cons, hnil',
    List.nil_append]

end KeyRule

/-! ## Groups -/

/-- The message that a call hands in, if it does. -/
def Call.message? : Call → Option Message
  | .handle m _ => some m
  | .close _ | .expire _ => none

namespace Collector

variable {σ : Type} (c : Collector) (t : Transport σ) (key : Key)

/-- What joins the group of a key are messages that have got this key, in their order. -/
theorem history_sublist (w : World σ) (calls : List Call) :
    (c.history t key w calls).Sublist
      (KeyRule.underKey key
        (c.keyRule.resolveAll w.holdings.issued (calls.filterMap Call.message?))
        (calls.filterMap Call.message?)) := by
  induction calls generalizing w with
  | nil => exact .slnil
  | cons call calls ih =>
    have hrest := ih (c.perform t w call).world
    cases call with
    | close k => exact hrest
    | expire now => exact hrest
    | handle m now =>
      have hissued : (c.perform t w (.handle m now)).world.holdings.issued =
          (c.keyRule.resolve w.holdings.issued m).2 := c.handle_snd w.holdings now m
      rw [hissued] at hrest
      show (c.accepted key w (.handle m now) ++ c.history t key _ calls).Sublist
        (KeyRule.underKey key ((c.keyRule.resolve w.holdings.issued m).1 :: _) (m :: _))
      rw [KeyRule.underKey, List.zip_cons_cons]
      by_cases hfor : (c.keyRule.resolve w.holdings.issued m).1 = some key
      · rw [List.filter_cons_of_pos (by simpa using hfor), List.map_cons, ← List.singleton_append]
        refine List.Sublist.append ?_ hrest
        rw [accepted]
        split
        · exact .refl _
        · exact List.nil_sublist _
      · rw [List.filter_cons_of_neg (by simpa using hfor), accepted, if_neg fun h => hfor h.1]
        exact hrest

end Collector

namespace KeyRule

/-- **An issued key is shared exactly by those who tell it.** A message without a correlation header
stands among fewer than `2 ^ 64` messages. Any other of them, in front of it or behind, has the same
key as it exactly if its correlation header is that key. If there is no such
message, nothing but the one message ever joins a group under its key, whatever the other policies
and settings of the collector are and however groups are closed meanwhile.

**Proof sketch.** The key is issued for the number of messages without the header in front. Those
messages were issued smaller numbers, and those behind are issued greater ones
(`tells_issuedKey_of_resolveAll`). What joins a group has got its key (`history_sublist`). -/
theorem shares_iff_tells_of_issued (front rest : List Message) (m : Message)
    (hm : m.correlationId = none) (hlen : (front ++ m :: rest).length < UInt64.size) :
    let key := issuedKey (.ofNat (keyless front))
    ∃ before behind,
      (correlation .issue).resolveAll 0 (front ++ m :: rest) = before ++ some key :: behind ∧
        List.Forall₂ (fun other k => k = some key ↔ other.correlationId = some key) front before ∧
        List.Forall₂ (fun other k => k = some key ↔ other.correlationId = some key) rest behind ∧
        ((∀ other ∈ front ++ rest, other.correlationId ≠ some key) →
          ∀ (c : Collector) {σ : Type} (t : Transport σ) (channels : σ) (calls : List Call),
            c.keyRule = .correlation .issue →
              calls.filterMap Call.message? = front ++ m :: rest →
                (c.history t key (c.start channels) calls).Sublist [m]) := by
  intro key
  have hfront := keyless_le_length front
  have hrest := keyless_le_length rest
  rw [List.length_append, List.length_cons] at hlen
  have hkeys : (correlation .issue).resolveAll 0 (front ++ m :: rest) =
      (correlation .issue).resolveAll (.ofNat 0) front ++
        some key :: (correlation .issue).resolveAll (.ofNat (keyless front + 1)) rest := by
    have happend := resolveAll_append 0 front (m :: rest)
    rw [Nat.zero_add, resolveAll, resolve_of_keyless hm] at happend
    rw [UInt64.ofNat_add, UInt64.ofNat_one]
    exact happend
  have hnumber : keyless front < UInt64.size := by omega
  have hbefore := tells_issuedKey_of_resolveAll front (show 0 + keyless front ≤ _ by omega) hnumber
    (.inr (by omega))
  have hbehind := tells_issuedKey_of_resolveAll rest
    (show keyless front + 1 + keyless rest ≤ _ by omega) hnumber (.inl (by omega))
  refine ⟨_, _, hkeys, hbefore, hbehind, ?_⟩
  intro hnone c σ t channels calls hrule hcalls
  have hsub := c.history_sublist t key (c.start channels) calls
  rw [hrule, hcalls, show (c.start channels).holdings.issued = 0 from rfl, hkeys] at hsub
  rwa [underKey_eq_singleton hbefore hbehind hnone] at hsub

/-- Among messages of which one tells a key that is issued to another, a third message with an
issued key has a group of its own. -/
theorem shares_iff_tells_of_issued_alone :
    let told := fun payload id => Message.build (.bare payload) [.correlationId id]
    let ms : List Message := [.bare "one", told "two" "a", .bare "three", told "four" "singleton-0"]
    let c := Collector.processing default (.correlation .issue) .passThrough
      (some (.count (.ofNat 2))) true
    let calls : List Call := [.handle (.bare "one") ⟨5⟩, .handle (told "two" "a") ⟨6⟩,
      .handle (.bare "three") ⟨7⟩, .expire ⟨8⟩, .handle (told "four" "singleton-0") ⟨9⟩]
    (correlation .issue).resolveAll 0 ms =
        [some "singleton-0", some "a", some "singleton-1", some "singleton-0"] ∧
      (c.history .recording "singleton-1" (c.start []) calls).Sublist [.bare "three"] ∧
      c.history .recording "singleton-0" (c.start []) calls =
        [.bare "one", told "four" "singleton-0"] := by
  intro told ms c calls
  have hkey : issuedKey (.ofNat (keyless [.bare "one", told "two" "a"])) = "singleton-1" := by
    decide +kernel
  obtain ⟨-, -, -, -, -, halone⟩ := shares_iff_tells_of_issued [.bare "one", told "two" "a"]
    [told "four" "singleton-0"] (.bare "three") rfl (by decide)
  rw [hkey] at halone
  exact ⟨by decide +kernel, halone (by decide) c .recording [] calls rfl rfl, by decide +kernel⟩

/-- Not always does a message without a correlation header get a key that no other message has: the
header of another can be that very key. -/
theorem not_forall_getElem_resolveAll_ne :
    ¬ ∀ (ms : List Message) (i j : ℕ) (m : Message), ms.length < UInt64.size → i ≠ j →
      ms[i]? = some m → m.correlationId = none → j < ms.length →
        ((correlation .issue).resolveAll 0 ms)[i]? ≠ ((correlation .issue).resolveAll 0 ms)[j]? := by
  intro hall
  have hne := hall [.bare "own", Message.build (.bare "other") [.correlationId "singleton-0"]] 0 1
    (.bare "own") (by decide) (by decide) rfl rfl (by decide)
  exact hne (by decide +kernel)

end KeyRule

end Regroup
