import Mathlib.Data.List.Induction
import Regroup.Group.Objection
import Regroup.Message.Edit
import Regroup.Proofs.Dict.Agreement

/-!
# Equal messages

Two messages are equal if nothing that can be asked about them tells them apart. The order in which
their free headers came in cannot be asked for in that way, so it does not count, though a message
does remember it. Where a header has been set more than once the value set last is the one that
counts, and its place is where it came in first.

## Main definitions

* `Regroup.Message.rebuild` — the message after rounds of edits.
* `Regroup.Edit.names`, `Regroup.Edit.values` — the free headers that edits set, and the values that
  they set for one of them.
* `Regroup.Edit.Rearranged` — that lists of edits differ only in where they set free headers.

## Main results

* `Regroup.Message.same_iff` — what it means for messages to be equal.
* `Regroup.Group.isDuplicate_congr` — a group does not tell equal messages apart.
* `Regroup.Message.header_build`, `Regroup.Message.keys_build` — the free headers of a message that
  has been built.
* `Regroup.Message.same_build_of_rearranged` — it does not matter where free headers are set.
* `Regroup.Message.extensional_of_rebuild` — messages are equal by what they say.
-/

namespace Regroup

/-! ## Equality -/

namespace Message

variable {a b c : Message}

/-- Messages are equal exactly if they have the same payload and say the same under every header. -/
theorem same_iff (a b : Message) :
    a.same b = true ↔
      a.payload = b.payload ∧ a.correlationId = b.correlationId ∧ a.number = b.number ∧
        a.size = b.size ∧ a.reply = b.reply ∧ ∀ name, a.header name = b.header name := by
  simp only [same, Headers.same, Bool.and_eq_true, beq_iff_eq, Dict.agrees_iff]
  constructor
  · rintro ⟨hpayload, ⟨⟨⟨hreply, hid⟩, hnumber⟩, hsize⟩, hextra⟩
    exact ⟨hpayload, hid, hnumber, hsize, hreply, hextra⟩
  · rintro ⟨hpayload, hid, hnumber, hsize, hreply, hextra⟩
    exact ⟨hpayload, ⟨⟨⟨hreply, hid⟩, hnumber⟩, hsize⟩, hextra⟩

/-- A message is equal to itself. -/
theorem same_self (m : Message) : m.same m = true := by
  simp [same_iff]

/-- Equality goes both ways. -/
theorem same_symm (h : a.same b = true) : b.same a = true := by
  obtain ⟨hpayload, hid, hnumber, hsize, hreply, hextra⟩ := (same_iff a b).1 h
  exact (same_iff b a).2 ⟨hpayload.symm, hid.symm, hnumber.symm, hsize.symm, hreply.symm,
    fun name => (hextra name).symm⟩

/-- What is equal to the same is equal. -/
theorem same_trans (hab : a.same b = true) (hbc : b.same c = true) : a.same c = true := by
  obtain ⟨hpayload, hid, hnumber, hsize, hreply, hextra⟩ := (same_iff a b).1 hab
  obtain ⟨hpayload', hid', hnumber', hsize', hreply', hextra'⟩ := (same_iff b c).1 hbc
  exact (same_iff a c).2 ⟨hpayload.trans hpayload', hid.trans hid', hnumber.trans hnumber',
    hsize.trans hsize', hreply.trans hreply', fun name => (hextra name).trans (hextra' name)⟩

/-- Equal messages are equal to the same messages. -/
lemma same_congr (h : a.same b = true) (other : Message) : other.same a = other.same b := by
  rw [Bool.eq_iff_iff]
  exact ⟨fun ha => same_trans ha h, fun hb => same_trans hb (same_symm h)⟩

end Message

/-! ## Groups -/

namespace Group

variable {a b : Message}

/-- Equal messages tell the same length. -/
lemma conflictsWith_congr (h : a.same b = true) (g : Group) (strict : Bool) :
    g.conflictsWith a strict = g.conflictsWith b strict := by
  obtain ⟨-, -, -, hsize, -, -⟩ := (Message.same_iff a b).1 h
  unfold conflictsWith
  rw [hsize]

/-- Equal messages stand at the same position. -/
lemma isOutOfRange_congr (h : a.same b = true) (g : Group) :
    g.isOutOfRange a = g.isOutOfRange b := by
  obtain ⟨-, -, hnumber, -, -, -⟩ := (Message.same_iff a b).1 h
  unfold isOutOfRange
  rw [hnumber]

/-- A group has seen a message exactly if it has seen an equal one. -/
theorem isDuplicate_congr (h : a.same b = true) (g : Group) :
    g.isDuplicate a = g.isDuplicate b := by
  obtain ⟨-, -, hnumber, -, -, -⟩ := (Message.same_iff a b).1 h
  unfold isDuplicate
  rw [hnumber, funext fun other => Message.same_congr h other]

end Group

/-! ## Free headers -/

namespace Edit

/-- The free header that an edit sets, with its value. -/
def header? : Edit → Option (String × String)
  | .header name value => some (name, value)
  | .correlationId _ | .sequenceNumber _ | .sequenceSize _ | .sequence _ _ | .replyChannel _
  | .clearSequence => none

/-- The value that an edit sets for a free header. -/
def value? (name : String) (e : Edit) : Option String :=
  e.header?.bind fun set => if set.1 = name then some set.2 else none

/-- The free headers that edits set, in the order of the edits. -/
def names (edits : List Edit) : List String := edits.filterMap fun e => e.header?.map Prod.fst

/-- The values that edits set for a free header, in the order of the edits. -/
def values (edits : List Edit) (name : String) : List String := edits.filterMap (value? name)

/-- Lists of edits differ only in where they set free headers: for each of these they set the same
values in the same order, and they make the same other edits in the same order. -/
structure Rearranged (edits edits' : List Edit) : Prop where
  values_eq : ∀ name, values edits name = values edits' name
  others_eq : edits.filter (·.header?.isNone) = edits'.filter (·.header?.isNone)

end Edit

namespace Message

/-- The message after rounds of edits, each of which starts from the message that the round before
has built. -/
def rebuild (m : Message) (rounds : List (List Edit)) : Message := rounds.foldl build m

/-- Building a message in rounds comes to making all edits in one. -/
lemma rebuild_eq (m : Message) (rounds : List (List Edit)) :
    m.rebuild rounds = m.build rounds.flatten := by
  unfold build
  rw [List.foldl_flatten]
  rfl

lemma build_concat (m : Message) (edits : List Edit) (e : Edit) :
    m.build (edits ++ [e]) = (m.build edits).edit e := by
  simp [build]

/-- An edit sets the value of one free header at most. -/
lemma header_edit (m : Message) (e : Edit) (name : String) :
    (m.edit e).header name = (e.value? name).or (m.header name) := by
  cases e with
  | header name' value =>
    rw [header_edit_header]
    by_cases h : name' = name <;> simp [Edit.value?, Edit.header?, h]
  | _ => rfl

/-- A free header has the value that was set last, or the one it had before all edits. -/
theorem header_build (m : Message) (edits : List Edit) (name : String) :
    (m.build edits).header name = (Edit.values edits name).getLast?.or (m.header name) := by
  induction edits using List.reverseRecOn with
  | nil => rfl
  | append_singleton edits e ih =>
    have hvalues : Edit.values (edits ++ [e]) name =
        Edit.values edits name ++ (e.value? name).toList := by
      unfold Edit.values
      rw [List.filterMap_append]
      cases he : e.value? name <;> simp [he]
    rw [build_concat, header_edit, ih, hvalues, List.getLast?_append, Option.or_assoc]
    cases e.value? name <;> rfl

/-- An edit that sets a free header puts it behind the others, if it is new. -/
lemma keys_edit (m : Message) (e : Edit) :
    (m.edit e).headers.extra.keys =
      m.headers.extra.keys ++ (e.header?.map Prod.fst).toList.removeAll m.headers.extra.keys := by
  cases e with
  | header name value =>
    have hkeys := m.headers.extra.keys_insert name value
    by_cases h : name ∈ m.headers.extra.keys
    · rw [if_pos h] at hkeys
      simpa [edit, Edit.header?, List.removeAll, h] using hkeys
    · rw [if_neg h] at hkeys
      simpa [edit, Edit.header?, List.removeAll, h] using hkeys
  | _ => simp [edit, Edit.header?, List.removeAll]

/-- The free headers of a message stand in the order in which they were first set, each of them
once. -/
theorem keys_build (payload : Payload) (edits : List Edit) :
    ((bare payload).build edits).headers.extra.keys = (Edit.names edits).eraseDups := by
  induction edits using List.reverseRecOn with
  | nil => rfl
  | append_singleton edits e ih =>
    have hnames : Edit.names (edits ++ [e]) =
        Edit.names edits ++ (e.header?.map Prod.fst).toList := by
      unfold Edit.names
      rw [List.filterMap_append]
      cases he : e.header? <;> simp [he]
    have honce : ((e.header?.map Prod.fst).toList.removeAll (Edit.names edits)).eraseDups =
        (e.header?.map Prod.fst).toList.removeAll (Edit.names edits).eraseDups := by
      cases e.header? with
      | none => rfl
      | some set =>
        by_cases h : set.1 ∈ Edit.names edits <;>
          simp [List.removeAll, List.eraseDups_cons, h]
    rw [build_concat, keys_edit, ih, hnames, List.eraseDups_append, honce]

/-! ## The order of edits -/

/-- The message without its free headers. -/
def withoutExtra (m : Message) : Message :=
  { m with headers := { m.headers with extra := Dict.empty } }

/-- Apart from the free headers a message is made by the edits that set none. -/
lemma withoutExtra_build (m : Message) (edits : List Edit) :
    (m.build edits).withoutExtra = m.withoutExtra.build (edits.filter (·.header?.isNone)) := by
  induction edits generalizing m with
  | nil => rfl
  | cons e edits ih =>
    refine (ih (m.edit e)).trans ?_
    cases e with
    | header name value => rfl
    | _ => rfl

/-- It does not matter for equality where free headers are set. -/
theorem same_build_of_rearranged (m : Message) {edits edits' : List Edit}
    (h : Edit.Rearranged edits edits') : (m.build edits).same (m.build edits') = true := by
  have hrest : (m.build edits).withoutExtra = (m.build edits').withoutExtra := by
    rw [withoutExtra_build, withoutExtra_build, h.others_eq]
  rw [same_iff]
  refine ⟨(congrArg payload hrest :), (congrArg correlationId hrest :), (congrArg number hrest :),
    (congrArg size hrest :), (congrArg reply hrest :), fun name => ?_⟩
  rw [header_build, header_build, h.values_eq]

/-- **Messages are equal by what they say**, however they have been built: in one round of edits or
in many, each from the message that the round before has built, and with headers set as often as one
likes. Equality is an equivalence, it does not depend on where free headers are set, and a group
never tells equal messages apart. A free header has the value set last, and stands in the place
where it was set first. All that is assumed of payloads is that their own equality is lawful
(`Payload`).

**Proof sketch.** Free headers are compared as a dictionary, and no key has two entries
(`Dict.agrees_iff`). -/
theorem extensional_of_rebuild (payload payload' : Payload) (rounds rounds' : List (List Edit)) :
    let a := (bare payload).rebuild rounds
    let b := (bare payload').rebuild rounds'
    (a.same b = true ↔
      a.payload = b.payload ∧ a.correlationId = b.correlationId ∧ a.number = b.number ∧
        a.size = b.size ∧ a.reply = b.reply ∧ ∀ name, a.header name = b.header name) ∧
    a.same a = true ∧ (a.same b = true → b.same a = true) ∧
    (∀ c, a.same b = true → b.same c = true → a.same c = true) ∧
    (payload = payload' → Edit.Rearranged rounds.flatten rounds'.flatten → a.same b = true) ∧
    (∀ name, a.header name = (Edit.values rounds.flatten name).getLast?) ∧
    a.headers.extra.keys = (Edit.names rounds.flatten).eraseDups ∧ a.headers.extra.keys.Nodup ∧
    (a.same b = true → ∀ g : Group, g.isDuplicate a = g.isDuplicate b ∧
      g.isOutOfRange a = g.isOutOfRange b ∧
      ∀ strict, g.conflictsWith a strict = g.conflictsWith b strict) := by
  intro a b
  have ha : a = (bare payload).build rounds.flatten := rebuild_eq _ _
  have hb : b = (bare payload').build rounds'.flatten := rebuild_eq _ _
  refine ⟨same_iff a b, same_self a, same_symm, fun c => same_trans, ?_, fun name => ?_, ?_,
    a.headers.extra.nodup_keys, fun h g => ⟨g.isDuplicate_congr h, g.isOutOfRange_congr h,
      g.conflictsWith_congr h⟩⟩
  · rintro rfl h
    rw [ha, hb]
    exact same_build_of_rearranged _ h
  · rw [ha, header_build]
    exact Option.or_none
  · rw [ha]
    exact keys_build _ _

/-- One message has been rebuilt to give its first header another value, the other got its headers
the other way round. They are equal, though each remembers its own order, and stay so to a third. -/
theorem extensional_of_rebuild_reordered :
    let rounds : List (List Edit) := [[.header "x" "1", .correlationId "a", .header "y" "2"],
      [.header "x" "3"]]
    let rounds' : List (List Edit) := [[.header "y" "2", .header "x" "1", .header "x" "3"],
      [.correlationId "a"]]
    let a := (bare "payload").rebuild rounds
    let b := (bare "payload").rebuild rounds'
    let c := (bare "payload").build [.correlationId "a", .header "x" "3", .header "y" "2"]
    Edit.Rearranged rounds.flatten rounds'.flatten ∧ a ≠ b ∧ a.same b = true ∧
      a.header "x" = some "3" ∧ a.headers.extra.keys = ["x", "y"] ∧
      b.headers.extra.keys = ["y", "x"] ∧ b.same c = true ∧ a.same c = true ∧
      ((Group.new "a" ⟨5⟩).push b).isDuplicate a = ((Group.new "a" ⟨5⟩).push b).isDuplicate b := by
  intro rounds rounds' a b c
  have hmoved : Edit.Rearranged rounds.flatten rounds'.flatten := by
    refine ⟨fun name => ?_, rfl⟩
    by_cases hx : "x" = name
    · subst hx
      decide
    · simp [rounds, rounds', Edit.values, Edit.value?, Edit.header?, List.filterMap_cons, hx]
  obtain ⟨-, -, -, htrans, hsame, hheader, hkeys, -, hgroup⟩ :=
    extensional_of_rebuild "payload" "payload" rounds rounds'
  have hab : a.same b = true := hsame rfl hmoved
  have hbc : b.same c = true := by decide
  exact ⟨hmoved, by decide, hab, hheader "x", hkeys, by decide, hbc, htrans c hab hbc,
    (hgroup hab _).1⟩

end Message

end Regroup
