import Mathlib.Data.List.Basic
import Regroup.Delivery.Plan

/-!
# Plans are delivered up to the first failure

What is delivered of a plan begins at its front and reaches as far as the channels take its sends.
The send behind it, if there is one, is the first that fails, and the delivery fails as that send
does.

## Main definitions

* `Regroup.Transport.Takes` — that channels take what is to go to a target.
* `Regroup.Transport.Carries` — that channels take sends one after the other.
* `Regroup.Transport.StopsAt` — that channels fail the first of some sends, if there is one.
* `Regroup.Transport.Delivers` — that so much of a plan is delivered.
* `Regroup.Transport.Leads` — that channels take certain sends and fail others in between.

## Main results

* `Regroup.delivers_deliver` — what is delivered is the longest part from the front of the plan that
  the channels take.
* `Regroup.send_of_left_eq_cons` — the first send that is not made fails.
* `Regroup.leads_deliver` — a delivery leads to where the sends that it makes lead.
-/

namespace Regroup

variable {σ : Type}

namespace Transport

variable (t : Transport σ)

/-- Whatever their state, the channels take every message that is to go to the target. -/
def Takes (target : Target) : Prop :=
  ∀ state m, ∃ state', t.send state ⟨m, target⟩ = (none, state')

/-- The channels take the sends one after the other, which leads from the one state to the other. -/
inductive Carries : σ → List Send → σ → Prop where
  /-- There is nothing to be taken. -/
  | nil (state : σ) : Carries state [] state
  /-- The first send is taken, and then the others are. -/
  | cons {state state' state'' : σ} {s : Send} {rest : List Send}
    (first : t.send state s = (none, state')) (others : Carries state' rest state'') :
    Carries state (s :: rest) state''

/-- The channels fail the first of the sends, for the cause given; where there is none to be failed,
there is no cause, and nothing changes. -/
inductive StopsAt : σ → List Send → Option DispatchFailure → σ → Prop where
  /-- There is nothing to be failed. -/
  | nil (state : σ) : StopsAt state [] none state
  /-- The first send is failed. -/
  | cons {state state' : σ} {s : Send} {cause : DispatchFailure} (rest : List Send)
    (failed : t.send state s = (some cause, state')) :
    StopsAt state (s :: rest) (some cause) state'

/-- Of a plan the sends `made` are delivered, and no more, which leads to the state `state'`. -/
structure Delivers (state : σ) (plan made : List Send) (state' : σ) : Prop where
  /-- The sends that are made stand in front of the plan. -/
  in_front : made <+: plan
  /-- The channels take them, and then fail what stands behind them. -/
  carried : ∃ between cause, t.Carries state made between ∧
    t.StopsAt between (plan.drop made.length) cause state'
  /-- The channels take no more of the plan. -/
  longest : ∀ more state'', more <+: plan → t.Carries state more state'' → more <+: made

/-- The channels take the sends one after the other and may fail others in between, which leads from
the one state to the other. -/
inductive Leads : σ → List Send → σ → Prop where
  /-- There is nothing to be taken. -/
  | nil (state : σ) : Leads state [] state
  /-- The first send is taken. -/
  | made {state state' state'' : σ} {s : Send} {rest : List Send}
    (first : t.send state s = (none, state')) (others : Leads state' rest state'') :
    Leads state (s :: rest) state''
  /-- Another send is failed first. -/
  | failed {state state' state'' : σ} {s : Send} {sends : List Send} {cause : DispatchFailure}
    (first : t.send state s = (some cause, state')) (others : Leads state' sends state'') :
    Leads state sends state''

variable {t} {state state' state'' : σ} {sends : List Send}

/-- Channels that take some sends and then others take them all. -/
lemma Carries.append {more : List Send} (h : t.Carries state sends state')
    (h' : t.Carries state' more state'') : t.Carries state (sends ++ more) state'' := by
  induction h with
  | nil => exact h'
  | cons first _ ih => exact .cons first (ih h')

/-- Taking sends leads to where they lead. -/
lemma Carries.leads (h : t.Carries state sends state') : t.Leads state sends state' := by
  induction h with
  | nil state => exact .nil state
  | cons first _ ih => exact .made first ih

/-- What some sends and then others lead to, all of them lead to. -/
lemma Leads.append {more : List Send} (h : t.Leads state sends state')
    (h' : t.Leads state' more state'') : t.Leads state (sends ++ more) state'' := by
  induction h with
  | nil => exact h'
  | made first _ ih => exact .made first (ih h')
  | failed first _ ih => exact .failed first (ih h')

/-- Failing a send takes nothing. -/
lemma StopsAt.leads {cause : Option DispatchFailure} (h : t.StopsAt state sends cause state') :
    t.Leads state [] state' := by
  cases h with
  | nil => exact .nil state
  | cons _ failed => exact .failed failed (.nil state')

/-- Channels that fail nothing take all the sends that lead somewhere. -/
lemma Leads.carries (h : t.Leads state sends state')
    (htakes : ∀ target, t.Takes target) : t.Carries state sends state' := by
  induction h with
  | nil state => exact .nil state
  | made first _ ih => exact .cons first ih
  | @failed state _ _ s _ _ first _ _ =>
    obtain ⟨next, hnext⟩ := htakes s.target state s.message
    have := hnext.symm.trans first
    simp at this

end Transport

variable (t : Transport σ) (state : σ) (plan : List Send)

/-- What is delivered has been taken by the channels, and what is left has been failed.

**Proof sketch.** Induction on the plan: a send that fails ends the delivery. -/
lemma exists_carries_deliver :
    ∃ between, t.Carries state (deliver t state plan).delivered between ∧
      t.StopsAt between (deliver t state plan).left (deliver t state plan).failure
        (deliver t state plan).state := by
  induction plan generalizing state with
  | nil => exact ⟨state, .nil state, .nil state⟩
  | cons s rest ih =>
    simp only [deliver]
    rcases hs : t.send state s with ⟨_ | cause, next⟩
    · obtain ⟨between, hcarries, hstops⟩ := ih next
      exact ⟨between, .cons hs hcarries, hstops⟩
    · exact ⟨state, .nil state, .cons rest hs⟩

variable {t} {state} {plan} in
/-- What the channels take from the front of a plan is delivered. -/
lemma prefix_delivered_of_carries {made : List Send} {state' : σ} (hmade : made <+: plan)
    (hcarried : t.Carries state made state') : made <+: (deliver t state plan).delivered := by
  induction hcarried generalizing plan with
  | nil => exact List.nil_prefix
  | cons first others ih =>
    obtain ⟨rest, rfl⟩ := hmade
    simp only [List.cons_append, deliver, first]
    exact List.cons_prefix_cons.2 ⟨rfl, ih (List.prefix_append _ rest)⟩

/-- What is left of a plan is what stands behind the part that is delivered. -/
lemma left_eq_drop :
    (deliver t state plan).left = plan.drop (deliver t state plan).delivered.length := by
  have happend := delivered_append_left t state plan
  generalize deliver t state plan = delivery at happend ⊢
  rw [← happend, List.drop_left]

/-- **A plan is delivered as far as the channels take it.** -/
theorem delivers_deliver :
    t.Delivers state plan (deliver t state plan).delivered (deliver t state plan).state where
  in_front := ⟨_, delivered_append_left t state plan⟩
  carried := by
    obtain ⟨between, hcarries, hstops⟩ := exists_carries_deliver t state plan
    exact ⟨between, _, hcarries, left_eq_drop t state plan ▸ hstops⟩
  longest _ _ := prefix_delivered_of_carries

variable {plan}

/-- The first send that is not made fails, and the delivery fails as it does. -/
theorem send_of_left_eq_cons {s : Send} {rest : List Send}
    (h : (deliver t state plan).left = s :: rest) :
    ∃ between cause, t.Carries state (deliver t state plan).delivered between ∧
      t.send between s = (some cause, (deliver t state plan).state) ∧
      (deliver t state plan).failure = some cause := by
  obtain ⟨between, hcarries, hstops⟩ := exists_carries_deliver t state plan
  rw [h] at hstops
  generalize (deliver t state plan).failure = failure at hstops
  cases hstops with
  | cons _ failed => exact ⟨between, _, hcarries, failed, rfl⟩

/-- A delivery that does not fail leads to where the whole of it is taken. -/
lemma carries_of_failure_eq_none (h : (deliver t state plan).failure = none) :
    t.Carries state (deliver t state plan).delivered (deliver t state plan).state := by
  obtain ⟨between, hcarries, hstops⟩ := exists_carries_deliver t state plan
  generalize (deliver t state plan).state = last at hstops ⊢
  rw [h, (failure_eq_none_iff t state plan).1 h] at hstops
  cases hstops
  exact hcarries

variable (plan)

/-- **A delivery leads to where the sends that it makes lead.** -/
theorem leads_deliver :
    t.Leads state (deliver t state plan).delivered (deliver t state plan).state := by
  obtain ⟨between, hcarries, hstops⟩ := exists_carries_deliver t state plan
  simpa using hcarries.leads.append hstops.leads

/-- A delivery does not fail exactly if the whole plan is delivered. -/
lemma failure_eq_none_iff_delivered :
    (deliver t state plan).failure = none ↔ (deliver t state plan).delivered = plan := by
  have happend := delivered_append_left t state plan
  rw [failure_eq_none_iff]
  constructor
  · intro hleft
    rwa [hleft, List.append_nil] at happend
  · intro hall
    rwa [hall, List.append_right_eq_self] at happend

end Regroup
