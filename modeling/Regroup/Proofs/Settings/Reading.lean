import Regroup.Proofs.Time.Overflow
import Regroup.Settings.Document
import Regroup.Time.DurationGrammar

/-!
# What becomes of a text with settings

Reading settings gives settings that are fit for use, or it fails. The only failure that is not told
of the text is the overflow of a duration, and it comes exactly where the reader gets to a duration
whose parts spill.

That holds with any library for documents, which is relied on for the entries in the order of the
document, and with any library for durations that adds up the parts of a text, whenever it puts the
duration together.

## Main definitions

* `Regroup.Settings.Field.isDuration` — the fields that hold durations.
* `Regroup.Settings.GetsToSpill` — that the reader of a record gets to a duration whose parts spill.

## Main results

* `Regroup.Settings.readField_eq_overflow_iff` — where reading a field overflows.
* `Regroup.Settings.readEntry_eq_overflow_iff` — where reading an entry does.
* `Regroup.Settings.usable_of_read_and_overflow_iff` — what becomes of a text.
-/

namespace Regroup.Settings

variable {V E : Type} {format : Format V E} {rebuilds : Bool}
  {duration : String → Except Duration.Fault Duration} {scan : String → Duration.Parts}
  {v : V} {c : Settings}

/-! ## Values -/

/-- What the library tells is no overflow. -/
lemma told_ne_overflow {α : Type} {x : Except E α} :
    (x.mapError .told : Except (ReadFault E) α) ≠ .error .overflow := by
  cases x <;> nofun

/-- What the library makes of a value is what is taken. -/
lemma told_eq_ok_iff {α : Type} {x : Except E α} {a : α} :
    (x.mapError .told : Except (ReadFault E) α) = .ok a ↔ x = .ok a := by
  cases x with
  | error fault => exact iff_of_false nofun nofun
  | ok b => exact ⟨fun h => by cases h; rfl, fun h => by cases h; rfl⟩

/-- A value is the text of a duration that overflows. -/
def HoldsSpill (format : Format V E) (rebuilds : Bool) (scan : String → Duration.Parts) (v : V) :
    Prop :=
  ∃ text, format.text v = .ok text ∧ (scan text).Spills rebuilds

/-- Reading a duration overflows exactly for a text whose parts spill. -/
lemma readDuration_eq_overflow_iff (addsUp : Duration.AddsUp rebuilds duration scan) :
    readDuration format duration v = .error .overflow ↔ HoldsSpill format rebuilds scan v := by
  unfold readDuration HoldsSpill
  rw [bind_eq_error_iff, or_iff_right told_ne_overflow]
  simp only [told_eq_ok_iff, ← Duration.Parts.total_eq_overflow_iff, ← addsUp _]
  refine exists_congr fun text => and_congr_right fun _ => ?_
  rcases duration text with (_ | _) | d <;> simp

/-- Reading what may be missing overflows exactly where it is there and reading it does. -/
lemma readOptional_eq_overflow_iff {α : Type} {value : V → Except (ReadFault E) α} :
    readOptional format value v = .error .overflow ↔
      format.isMissing v = .ok false ∧ value v = .error .overflow := by
  unfold readOptional
  rw [bind_eq_error_iff, or_iff_right told_ne_overflow]
  simp only [told_eq_ok_iff]
  constructor
  · rintro ⟨missing, hmissing, hvalue⟩
    cases missing with
    | true => simp at hvalue
    | false => exact ⟨hmissing, map_eq_error_iff.1 hvalue⟩
  · rintro ⟨hmissing, hvalue⟩
    exact ⟨false, hmissing, map_eq_error_iff.2 hvalue⟩

/-! ## Fields -/

/-- Whether the field holds a duration. -/
def Field.isDuration : Field → Bool
  | .timeout | .sendTimeout | .sweepInterval => true
  | .sendsEarlyResults | .releasesRuns | .strictSize | .discardsLate | .capacity => false

/-- Reading a field overflows exactly where it holds a duration that is there, and whose parts
spill. -/
theorem readField_eq_overflow_iff (addsUp : Duration.AddsUp rebuilds duration scan) {f : Field} :
    readField format duration c f v = .error .overflow ↔
      f.isDuration = true ∧ format.isMissing v = .ok false ∧ HoldsSpill format rebuilds scan v := by
  cases f with
  | timeout | sendTimeout | sweepInterval =>
    simp only [readField, bind_pure_comp, map_eq_error_iff, readTime, readOptional_eq_overflow_iff,
      readDuration_eq_overflow_iff addsUp, Field.isDuration, true_and]
  | sendsEarlyResults | releasesRuns | strictSize | discardsLate =>
    simp only [readField, bind_pure_comp, map_eq_error_iff, readTruth, told_ne_overflow,
      Field.isDuration, Bool.false_eq_true, false_and]
  | capacity =>
    simp only [readField, bind_pure_comp, map_eq_error_iff, readCount, readOptional_eq_overflow_iff,
      told_ne_overflow, Field.isDuration, Bool.false_eq_true, false_and, and_false]

/-- Reading an entry overflows exactly where it is of a new field that holds such a duration. -/
theorem readEntry_eq_overflow_iff (addsUp : Duration.AddsUp rebuilds duration scan)
    {seen : List Field} {entry : Entry V} :
    readEntry format duration (c, seen) entry = .error .overflow ↔
      ∃ f, Field.ofName? entry.name = some f ∧ f ∉ seen ∧ f.isDuration = true ∧
        format.isMissing entry.value = .ok false ∧
        HoldsSpill format rebuilds scan entry.value := by
  unfold readEntry
  cases Field.ofName? entry.name with
  | none => simp
  | some f =>
    by_cases hseen : f ∈ seen
    · simp [hseen]
    · simp [hseen, map_eq_error_iff, readField_eq_overflow_iff addsUp]

/-! ## Records -/

/-- The reader of a record gets to a duration whose parts spill: it gets through the entries in
front of it, and the field is new and not missing. -/
inductive GetsToSpill (format : Format V E) (duration : String → Except Duration.Fault Duration)
    (rebuilds : Bool) (scan : String → Duration.Parts) (entries : List (Entry V)) : Prop where
  | intro {front back : List (Entry V)} {entry : Entry V} {c : Settings} {seen : List Field}
      {f : Field} (entries_eq : entries = front ++ entry :: back)
      (reads : front.foldlM (readEntry format duration) (default, []) = .ok (c, seen))
      (named : Field.ofName? entry.name = some f) (fresh : f ∉ seen)
      (isDuration : f.isDuration = true) (present : format.isMissing entry.value = .ok false)
      (spills : HoldsSpill format rebuilds scan entry.value)

/-- Settings without a fault have some capacity, and sweeps that pause. -/
lemma fault?_eq_none_iff (c : Settings) :
    c.fault? = none ↔ c.capacity ≠ some 0 ∧ c.sweepInterval ≠ some Duration.zero := by
  unfold fault?
  by_cases hcapacity : c.capacity = some 0
  · simp [hcapacity]
  · by_cases hinterval : c.sweepInterval = some Duration.zero <;> simp [hcapacity, hinterval]

/-- The settings in a text have no fault. -/
lemma fault?_of_read {text : String} (h : read format duration text = .ok c) :
    c.fault? = none := by
  unfold read at h
  obtain ⟨⟨c', seen⟩, -, h⟩ := bind_eq_ok_iff.1 h
  simp only at h
  split at h
  · cases h
  · cases h
  · rename_i hnone
    obtain rfl := Except.ok.inj h
    exact hnone

/-- Reading a text overflows exactly where the reader of its record gets to a duration whose parts
spill: the text as a whole is looked at only behind the entries. -/
lemma read_eq_overflow_iff (addsUp : Duration.AddsUp rebuilds duration scan) {text : String} :
    read format duration text = .error .overflow ↔
      GetsToSpill format duration rebuilds scan (format.listing text).entries := by
  unfold read
  rw [bind_eq_error_iff, or_iff_left, foldlM_eq_error_iff]
  · constructor
    · rintro ⟨front, entry, back, ⟨c, seen⟩, hentries, hreads, hentry⟩
      obtain ⟨f, named, fresh, hduration, present, spills⟩ :=
        (readEntry_eq_overflow_iff addsUp).1 hentry
      exact ⟨hentries, hreads, named, fresh, hduration, present, spills⟩
    · rintro ⟨hentries, hreads, named, fresh, hduration, present, spills⟩
      exact ⟨_, _, _, _, hentries, hreads,
        (readEntry_eq_overflow_iff addsUp).2 ⟨_, named, fresh, hduration, present, spills⟩⟩
  · rintro ⟨⟨c, seen⟩, -, h⟩
    simp only at h
    split at h <;> cases h

/-- **Settings in a text are fit for use, or there are none.** What stands in the way of them is
told as a fault of the text, unless the reader of its record gets to a duration whose parts
spill. -/
theorem usable_of_read_and_overflow_iff (addsUp : Duration.AddsUp rebuilds duration scan)
    (text : String) :
    (∀ c, read format duration text = .ok c →
        c.capacity ≠ some 0 ∧ c.sweepInterval ≠ some Duration.zero) ∧
      (read format duration text = .error .overflow ↔
        GetsToSpill format duration rebuilds scan (format.listing text).entries) :=
  ⟨fun c hc => (fault?_eq_none_iff c).1 (fault?_of_read hc), read_eq_overflow_iff addsUp⟩

/-- A timeout of as many seconds as can be told, and another one in milliseconds, leaves no
settings, whenever the duration is put together. -/
theorem usable_of_read_and_overflow_iff_longest :
    (∀ rebuilds, Duration.AddsUp rebuilds (Duration.read rebuilds) Duration.scan) ∧
      ∀ rebuilds, read yaml (Duration.read rebuilds) "timeout: 18446744073709551615s 1000ms" =
        .error .overflow := by
  have addsUp : ∀ rebuilds, Duration.AddsUp rebuilds (Duration.read rebuilds) Duration.scan :=
    fun _ _ => rfl
  have hscan : Duration.scan "18446744073709551615s 1000ms" =
    ⟨[⟨18446744073709551615, 0⟩] ++ ⟨0, 1000000000⟩ :: [], true⟩ := rfl
  have hspills : ∀ rebuilds, (Duration.scan "18446744073709551615s 1000ms").Spills rebuilds := by
    intro rebuilds
    cases rebuilds with
    | true => exact .onTheWay (congrArg _ hscan) rfl rfl rfl
    | false => exact .atTheEnd rfl rfl
  have hentries : (yaml.listing "timeout: 18446744073709551615s 1000ms").entries =
    [] ++ ⟨"timeout", .named "timeout",
      some (.scalar ⟨.plain, none, "18446744073709551615s 1000ms"⟩)⟩ :: [] := rfl
  refine ⟨addsUp, fun rebuilds => ?_⟩
  obtain ⟨-, hoverflow⟩ := @usable_of_read_and_overflow_iff _ _ yaml rebuilds _ _ (addsUp rebuilds)
    "timeout: 18446744073709551615s 1000ms"
  exact hoverflow.2 ⟨hentries, rfl, rfl, List.not_mem_nil, rfl, rfl, _, rfl, hspills rebuilds⟩

/-- Reading settings can overflow: a timeout may be as many seconds as can be told, and another one
in milliseconds. -/
theorem not_forall_read_ne_overflow :
    ¬ ∃ rebuilds, ∀ text, read yaml (Duration.read rebuilds) text ≠ .error .overflow := by
  rintro ⟨rebuilds, h⟩
  refine h "timeout: 18446744073709551615s 1000ms" ?_
  cases rebuilds <;> rfl

end Regroup.Settings
