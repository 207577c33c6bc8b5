import TeamInbox.Sla.Calendar
import TeamInbox.Lib.Spans

/-!
# TeamInbox.Sla.BusinessTime — business minutes as a measure

`businessMinutesBetween` walks over local days, `isWithinBusinessHours` looks at one instant.  For a calendar that passes
the validators the walk counts the milliseconds at which the other says yes (`business_time_is_measure`), as far as it
goes: it stops after `MAX_DAYS_WALKED` days.  What is assumed of the date library is `LocalDays`.
-/

namespace TeamInbox.Sla

open TeamInbox.Lib

/-- With `zoned.day()` of an instant. -/
structure ZonedLib extends DateLib where
  weekdayAt : String → Instant → ℕ

/-- `/^([01]\\d|2[0-3]):[0-5]\\d$|^24:00$/`. -/
def isValidHHmm (value : String) : Bool :=
  match value.toList with
  | [a, b, ':', c, d] =>
    (((a = '0' ∨ a = '1') ∧ b.isDigit) || (a = '2' ∧ (b = '0' ∨ b = '1' ∨ b = '2' ∨ b = '3'))) &&
        (decide ('0'.toNat ≤ c.toNat ∧ c.toNat ≤ '5'.toNat) && d.isDigit) ||
      decide (value = "24:00")
  | _ => false

/-- Minutes since local midnight of a valid time. -/
def hhmmToMinutes (value : String) : ℕ :=
  match value.toList with
  | [a, b, ':', c, d] =>
    ((a.toNat - '0'.toNat) * 10 + (b.toNat - '0'.toNat)) * 60 + ((c.toNat - '0'.toNat) * 10 + (d.toNat - '0'.toNat))
  | _ => 0

/-- The loop of `intervalsAreValidSortedAndNonOverlapping`. -/
def intervalsValidFrom : ℤ → List SlaTimeInterval → Bool
  | _, [] => true
  | previousEndMinutes, interval :: rest =>
    if !isValidHHmm interval.start || !isValidHHmm interval.stop then false
    else if hhmmToMinutes interval.stop ≤ hhmmToMinutes interval.start then false
    else if (hhmmToMinutes interval.start : ℤ) < previousEndMinutes then false
    else intervalsValidFrom (hhmmToMinutes interval.stop) rest

def intervalsAreValidSortedAndNonOverlapping (intervals : List SlaTimeInterval) : Bool :=
  intervalsValidFrom (-1) intervals

structure PassesValidators (calendar : SlaCalendar) : Prop where
  shape : assertValidCalendarShape calendar = .ok ()
  weekly : ∀ day ∈ calendar.weeklySchedule, intervalsAreValidSortedAndNonOverlapping day.intervals = true
  exceptions : ∀ e ∈ calendar.exceptions, intervalsAreValidSortedAndNonOverlapping (e.intervals.getD []) = true

def spanOf (lib : DateLib) (calendar : SlaCalendar) (date : String) (interval : SlaTimeInterval) : Span :=
  (zonedIntervalBoundToUtc lib calendar date interval.start, zonedIntervalBoundToUtc lib calendar date interval.stop)

def isWithinBusinessHours (lib : ZonedLib) (calendar : SlaCalendar) (instant : Instant) :
    Except MalformedCalendar Bool := do
  assertValidCalendarShape calendar
  let date := lib.localDate calendar.timezone instant
  let weekday := lib.weekdayAt calendar.timezone instant
  pure ((resolveDayIntervals calendar date weekday).any fun interval =>
    decide (zonedIntervalBoundToUtc lib.toDateLib calendar date interval.start ≤ instant ∧
      instant < zonedIntervalBoundToUtc lib.toDateLib calendar date interval.stop))

/-- **What is assumed of the date library**: the local dates of the time zone are consecutive days that partition the time
line, a day begins at its local midnight, and local time is converted monotonically. -/
structure LocalDays (lib : ZonedLib) (timezone : String) where
  day : ℤ → String
  next : ∀ n, lib.nextDate (day n) = day (n + 1)
  covers : ∀ t, ∃ n, lib.localDate timezone t = day n
  partition : ∀ n t, lib.localDate timezone t = day n ↔
    lib.startOfDay timezone (day n) ≤ t ∧ t < lib.startOfDay timezone (day (n + 1))
  midnight : ∀ n, lib.instantAt timezone (day n) "00:00" = lib.startOfDay timezone (day n)
  monotone : ∀ n h h', isValidHHmm h = true → isValidHHmm h' = true → h ≠ "24:00" → h' ≠ "24:00" →
    hhmmToMinutes h ≤ hhmmToMinutes h' → lib.instantAt timezone (day n) h ≤ lib.instantAt timezone (day n) h'
  monotoneDay : ∀ n h, isValidHHmm h = true → h ≠ "24:00" →
    lib.instantAt timezone (day n) h ≤ lib.instantAt timezone (day (n + 1)) "00:00"
  weekday : ∀ t, lib.weekdayAt timezone t = lib.weekday timezone (lib.localDate timezone t)

section Definitions

variable (lib : ZonedLib) (calendar : SlaCalendar)

def isOpenAt (t : Instant) : Bool :=
  match isWithinBusinessHours lib calendar t with
  | .ok b => b
  | .error _ => false

/-- The length in minutes of the business instants in `[s, e)`. -/
noncomputable def businessLength (s e : Instant) : ℚ := (((Finset.Ico s e).filter fun t => isOpenAt lib calendar t = true).card : ℚ) / 60000

/-- `e` is not after the midnight that begins the `MAX_DAYS_WALKED`-th local day after that of `s`. -/
def Walked (days : LocalDays lib calendar.timezone) (s e : Instant) : Prop :=
  ∀ n, lib.localDate calendar.timezone s = days.day n →
    e ≤ lib.startOfDay calendar.timezone (days.day (n + maxDaysWalked))

/-- Business minutes measure the business instants, over all that is walked. -/
structure BusinessMeasure (days : LocalDays lib calendar.timezone) : Prop where
  length : ∀ s e, Walked lib calendar days s e →
    businessMinutesBetween lib.toDateLib calendar s e none = .ok (businessLength lib calendar s e)
  zero : ∀ s e, Walked lib calendar days s e →
    (businessMinutesBetween lib.toDateLib calendar s e none = .ok 0 ↔ ∀ t, s ≤ t → t < e → isOpenAt lib calendar t = false)
  additive : ∀ s m e, s ≤ m → m ≤ e → Walked lib calendar days s e → ∃ a b,
    businessMinutesBetween lib.toDateLib calendar s m none = .ok a ∧
      businessMinutesBetween lib.toDateLib calendar m e none = .ok b ∧
      businessMinutesBetween lib.toDateLib calendar s e none = .ok (a + b)
  monotone : ∀ s e e', e ≤ e' → Walked lib calendar days s e' → ∃ a b,
    businessMinutesBetween lib.toDateLib calendar s e none = .ok a ∧
      businessMinutesBetween lib.toDateLib calendar s e' none = .ok b ∧ a ≤ b
  antitone : ∀ s s' e, s ≤ s' → Walked lib calendar days s e → ∃ a b,
    businessMinutesBetween lib.toDateLib calendar s' e none = .ok a ∧
      businessMinutesBetween lib.toDateLib calendar s e none = .ok b ∧ a ≤ b

end Definitions

/-! ### Valid times -/

theorem toNat_of_isDigit {c : Char} (h : c.isDigit = true) : c.toNat ≤ 57 := by
  unfold Char.isDigit at h
  rw [Bool.and_eq_true, decide_eq_true_eq, decide_eq_true_eq] at h
  exact UInt32.le_iff_toNat_le.mp h.2

theorem hhmmToMinutes_eq {h : String} {a b c d : Char} (hlist : h.toList = [a, b, ':', c, d]) : hhmmToMinutes h =
    ((a.toNat - '0'.toNat) * 10 + (b.toNat - '0'.toNat)) * 60 + ((c.toNat - '0'.toNat) * 10 + (d.toNat - '0'.toNat)) := by
  unfold hhmmToMinutes
  rw [hlist]
  rfl

theorem minutes_of_valid {h : String} (hvalid : isValidHHmm h = true) (hne : h ≠ "24:00") : hhmmToMinutes h < 1440 := by
  unfold isValidHHmm at hvalid
  split at hvalid
  · next a b c d hlist =>
    rw [hhmmToMinutes_eq hlist]
    rw [decide_eq_false hne, Bool.or_false, Bool.and_eq_true, Bool.and_eq_true, Bool.or_eq_true, decide_eq_true_eq,
      decide_eq_true_eq, decide_eq_true_eq] at hvalid
    obtain ⟨hhour, ⟨-, hc⟩, hd⟩ := hvalid
    have hd := toNat_of_isDigit hd
    have h0 : '0'.toNat = 48 := rfl
    have h5 : '5'.toNat = 53 := rfl
    have hfirst : (a.toNat - '0'.toNat) * 10 + (b.toNat - '0'.toNat) ≤ 23 := by
      rcases hhour with ⟨rfl | rfl, hb⟩ | ⟨rfl, rfl | rfl | rfl | rfl⟩
      · have hb := toNat_of_isDigit hb
        omega
      · have hb := toNat_of_isDigit hb
        have h1 : '1'.toNat = 49 := rfl
        omega
      · decide
      · decide
      · decide
      · decide
    omega
  · cases hvalid

theorem minutes_midnight : hhmmToMinutes "00:00" = 0 := rfl

theorem minutes_end : hhmmToMinutes "24:00" = 1440 := rfl

section Days

variable {lib : ZonedLib} {calendar : SlaCalendar} (days : LocalDays lib calendar.timezone)

def dayStart (n : ℤ) : Instant := lib.startOfDay calendar.timezone (days.day n)

def bound (n : ℤ) (h : String) : Instant := zonedIntervalBoundToUtc lib.toDateLib calendar (days.day n) h

variable {days} {n m : ℤ} {h h' : String} {s e t : Instant}

theorem bound_end : bound days n "24:00" = dayStart days (n + 1) := by
  unfold bound zonedIntervalBoundToUtc
  rw [if_pos rfl, days.next, days.midnight]
  rfl

theorem bound_ne (hne : h ≠ "24:00") : bound days n h = lib.instantAt calendar.timezone (days.day n) h := if_neg hne

theorem bound_le_next (hvalid : isValidHHmm h = true) : bound days n h ≤ dayStart days (n + 1) := by
  by_cases hne : h = "24:00"
  · rw [hne, bound_end]
  · rw [bound_ne hne]
    exact (days.monotoneDay n h hvalid hne).trans_eq (days.midnight (n + 1))

theorem dayStart_le_bound (hvalid : isValidHHmm h = true) : dayStart days n ≤ bound days n h := by
  have hmidnight : dayStart days n = lib.instantAt calendar.timezone (days.day n) "00:00" := (days.midnight n).symm
  by_cases hne : h = "24:00"
  · rw [hne, bound_end, hmidnight]
    exact (days.monotoneDay n "00:00" rfl (by decide)).trans_eq (days.midnight (n + 1))
  · rw [bound_ne hne, hmidnight]
    exact days.monotone n "00:00" h rfl hvalid (by decide) hne (minutes_midnight ▸ Nat.zero_le _)

theorem bound_mono (hvalid : isValidHHmm h = true) (hvalid' : isValidHHmm h' = true)
    (hle : hhmmToMinutes h ≤ hhmmToMinutes h') : bound days n h ≤ bound days n h' := by
  by_cases hne' : h' = "24:00"
  · rw [hne', bound_end]
    exact bound_le_next hvalid
  · have hlt := minutes_of_valid hvalid' hne'
    have hne : h ≠ "24:00" := by
      rintro rfl
      rw [minutes_end] at hle
      omega
    rw [bound_ne hne, bound_ne hne']
    exact days.monotone n h h' hvalid hvalid' hne hne' hle

theorem dayStart_mono (hle : n ≤ m) : dayStart days n ≤ dayStart days m := by
  obtain ⟨k, rfl⟩ := Int.le.dest hle
  induction k with
  | zero => exact le_of_eq (congrArg _ (Int.add_zero n).symm)
  | succ k ih =>
    have hstep : dayStart days (n + k) ≤ dayStart days (n + k + 1) :=
      (dayStart_le_bound (h := "00:00") rfl).trans (bound_le_next rfl)
    have hcast : n + ((k + 1 : ℕ) : ℤ) = n + k + 1 := by omega
    rw [hcast]
    exact (ih (by omega)).trans hstep

theorem day_le_of_le (hs : lib.localDate calendar.timezone s = days.day n)
    (ht : lib.localDate calendar.timezone t = days.day m) (hle : s ≤ t) : n ≤ m := by
  refine Classical.byContradiction fun hlt => ?_
  have hstart : dayStart days (m + 1) ≤ dayStart days n := dayStart_mono (by omega)
  have hn := ((days.partition n s).mp hs).1
  have hm := ((days.partition m t).mp ht).2
  exact absurd (hm.trans_le (hstart.trans (hn.trans hle))) (lt_irrefl t)

/-! ### The open intervals of a day -/

variable (days calendar) in
/-- The instants of the open intervals of a day. -/
def daySpans (n : ℤ) : List Span :=
  (resolveDayIntervals calendar (days.day n) (lib.weekday calendar.timezone (days.day n))).map
    (spanOf lib.toDateLib calendar (days.day n))

theorem resolve_valid (hcal : PassesValidators calendar) (date : String) (weekday : ℕ) :
    intervalsAreValidSortedAndNonOverlapping (resolveDayIntervals calendar date weekday) = true := by
  unfold resolveDayIntervals
  split
  · next e he =>
    split
    · rfl
    · exact hcal.exceptions e (List.mem_of_find?_eq_some he)
  · split
    · next day hday =>
      split
      · exact hcal.weekly day (List.mem_of_find?_eq_some hday)
      · rfl
    · rfl

theorem intervalsValidFrom_cons {previous : ℤ} {interval : SlaTimeInterval} {rest : List SlaTimeInterval}
    (hvalid : intervalsValidFrom previous (interval :: rest) = true) :
    isValidHHmm interval.start = true ∧ isValidHHmm interval.stop = true ∧
      hhmmToMinutes interval.start < hhmmToMinutes interval.stop ∧ previous ≤ hhmmToMinutes interval.start ∧
      intervalsValidFrom (hhmmToMinutes interval.stop) rest = true := by
  unfold intervalsValidFrom at hvalid
  split_ifs at hvalid with hhhmm hshort hoverlap
  rw [Bool.or_eq_true, not_or, Bool.not_eq_true', Bool.not_eq_true', Bool.not_eq_false, Bool.not_eq_false] at hhhmm
  exact ⟨hhhmm.1, hhhmm.2, by omega, by omega, hvalid⟩

/-- The spans of valid intervals are in order, inside the day and not before the end of the previous interval. -/
theorem spans_ordered {previous : ℤ} {intervals : List SlaTimeInterval} (hvalid : intervalsValidFrom previous intervals = true) :
    Ordered (intervals.map (spanOf lib.toDateLib calendar (days.day n))) ∧
      ∀ p ∈ intervals.map (spanOf lib.toDateLib calendar (days.day n)),
        (∀ g, isValidHHmm g = true → (hhmmToMinutes g : ℤ) ≤ previous → bound days n g ≤ p.1) ∧
          dayStart days n ≤ p.1 ∧ p.2 ≤ dayStart days (n + 1) := by
  induction intervals generalizing previous with
  | nil => exact ⟨.nil, fun _ hp => absurd hp List.not_mem_nil⟩
  | cons interval rest ih =>
    obtain ⟨hstart, hstop, hlt, hprevious, hrest⟩ := intervalsValidFrom_cons hvalid
    obtain ⟨hordered, hbounds⟩ := ih hrest
    refine ⟨List.pairwise_cons.mpr ⟨fun p hp => (hbounds p hp).1 interval.stop hstop (le_refl _), hordered⟩, ?_⟩
    refine List.forall_mem_cons.mpr ⟨⟨fun g hg hle => ?_, dayStart_le_bound hstart, bound_le_next hstop⟩, fun p hp => ?_⟩
    · exact bound_mono hg hstart (by omega)
    · obtain ⟨hafter, hinside⟩ := hbounds p hp
      exact ⟨fun g hg hle => hafter g hg (by omega), hinside⟩

theorem daySpans_ordered (hcal : PassesValidators calendar) (n : ℤ) : Ordered (daySpans calendar days n) :=
  (spans_ordered (resolve_valid hcal _ _)).1

theorem daySpans_bounds (hcal : PassesValidators calendar) {p : Span} (hp : p ∈ daySpans calendar days n) :
    dayStart days n ≤ p.1 ∧ p.2 ≤ dayStart days (n + 1) :=
  ((spans_ordered (resolve_valid hcal _ _)).2 p hp).2

variable (days calendar) in
/-- The open intervals of `k` days from `n` on. -/
def walkSpans : ℕ → ℤ → List Span
  | 0, _ => []
  | k + 1, n => daySpans calendar days n ++ walkSpans k (n + 1)

theorem walkSpans_start (hcal : PassesValidators calendar) {k : ℕ} {p : Span} (hp : p ∈ walkSpans calendar days k n) :
    dayStart days n ≤ p.1 := by
  induction k generalizing n with
  | zero => exact absurd hp List.not_mem_nil
  | succ k ih =>
    rcases List.mem_append.mp hp with hp | hp
    · exact (daySpans_bounds hcal hp).1
    · exact (dayStart_mono (by omega)).trans (ih hp)

theorem walkSpans_ordered (hcal : PassesValidators calendar) (k : ℕ) (n : ℤ) : Ordered (walkSpans calendar days k n) := by
  induction k generalizing n with
  | zero => exact .nil
  | succ k ih =>
    refine List.pairwise_append.mpr ⟨daySpans_ordered hcal n, ih (n + 1), fun p hp q hq => ?_⟩
    exact (daySpans_bounds hcal hp).2.trans (walkSpans_start hcal hq)

theorem mem_walkSpans {k : ℕ} {p : Span} :
    p ∈ walkSpans calendar days k n ↔ ∃ m, n ≤ m ∧ m < n + k ∧ p ∈ daySpans calendar days m := by
  induction k generalizing n with
  | zero => exact iff_of_false List.not_mem_nil fun ⟨m, hle, hlt, _⟩ => by omega
  | succ k ih =>
    show p ∈ daySpans calendar days n ++ walkSpans calendar days k (n + 1) ↔ _
    rw [List.mem_append, ih]
    constructor
    · rintro (hp | ⟨m, hle, hlt, hp⟩)
      · exact ⟨n, le_refl n, by omega, hp⟩
      · exact ⟨m, by omega, by omega, hp⟩
    · rintro ⟨m, hle, hlt, hp⟩
      by_cases hm : m = n
      · exact .inl (hm ▸ hp)
      · exact .inr ⟨m, by omega, by omega, hp⟩

/-! ### The walk -/

theorem addInterval_eq (startTime endTime : Instant) (date : String) (total : ℚ) (interval : SlaTimeInterval) :
    addInterval lib.toDateLib calendar startTime endTime date total interval =
      total + (overlap startTime endTime (spanOf lib.toDateLib calendar date interval) : ℚ) / 60000 := by
  unfold addInterval overlap spanOf
  dsimp only
  split_ifs with hlt
  · have hnonneg := Int.toNat_of_nonneg (Int.sub_nonneg_of_le hlt.le)
    rw [← hnonneg]
    rfl
  · have hzero : (min (zonedIntervalBoundToUtc lib.toDateLib calendar date interval.stop) endTime -
        max (zonedIntervalBoundToUtc lib.toDateLib calendar date interval.start) startTime).toNat = 0 := Int.toNat_of_nonpos (Int.sub_nonpos_of_le (not_lt.mp hlt))
    rw [hzero, Nat.cast_zero, zero_div, add_zero]

theorem addDay_eq (startTime endTime : Instant) (n : ℤ) (total : ℚ) :
    addDay lib.toDateLib calendar startTime endTime (days.day n) total =
      total + (((daySpans calendar days n).map (overlap startTime endTime)).sum : ℚ) / 60000 := by
  unfold addDay daySpans
  induction resolveDayIntervals calendar (days.day n) (lib.weekday calendar.timezone (days.day n)) generalizing total with
  | nil => simp
  | cons interval rest ih =>
    rw [List.foldl_cons, ih, addInterval_eq, List.map_cons, List.map_cons, List.sum_cons, Nat.cast_add, add_div,
      add_assoc]

theorem walkSpans_after (hcal : PassesValidators calendar) (k : ℕ) (hafter : e < dayStart days n) :
    ((walkSpans calendar days k n).map (overlap s e)).sum = 0 := by
  refine List.sum_eq_zero fun x hx => ?_
  obtain ⟨p, hp, rfl⟩ := List.mem_map.mp hx
  exact overlap_eq_zero (hafter.le.trans (walkSpans_start hcal hp))

theorem walkDays_eq (hcal : PassesValidators calendar) (startTime endTime : Instant) (k : ℕ) (n : ℤ) (total : ℚ) :
    walkDays lib.toDateLib calendar startTime endTime none k (days.day n) total =
      total + (((walkSpans calendar days k n).map (overlap startTime endTime)).sum : ℚ) / 60000 := by
  induction k generalizing n total with
  | zero => simp [walkDays, walkSpans]
  | succ k ih =>
    have hsum : (((walkSpans calendar days (k + 1) n).map (overlap startTime endTime)).sum : ℚ) =
        ((daySpans calendar days n).map (overlap startTime endTime)).sum +
          ((walkSpans calendar days k (n + 1)).map (overlap startTime endTime)).sum := by
      rw [walkSpans, List.map_append, List.sum_append, Nat.cast_add]
    unfold walkDays
    by_cases hafter : endTime < lib.startOfDay calendar.timezone (days.day n)
    · rw [if_pos hafter, walkSpans_after hcal (k + 1) hafter]
      simp
    · rw [if_neg hafter, if_neg (by exact Bool.false_ne_true), days.next, addDay_eq]
      by_cases hnext : endTime < lib.startOfDay calendar.timezone (days.day (n + 1))
      · rw [if_pos hnext, hsum, walkSpans_after hcal k hnext]
        simp
      · rw [if_neg hnext, ih, hsum, add_div, add_assoc]

/-! ### The walk against the instants -/

theorem isOpenAt_iff (hcal : PassesValidators calendar) (ht : lib.localDate calendar.timezone t = days.day n) :
    isOpenAt lib calendar t = true ↔ Covers (daySpans calendar days n) t := by
  unfold isOpenAt isWithinBusinessHours
  rw [hcal.shape]
  show List.any _ _ = true ↔ _
  rw [days.weekday, ht, List.any_eq_true]
  constructor
  · rintro ⟨interval, hmem, hin⟩
    exact ⟨_, List.mem_map_of_mem hmem, of_decide_eq_true hin⟩
  · rintro ⟨p, hp, hin⟩
    obtain ⟨interval, hmem, rfl⟩ := List.mem_map.mp hp
    exact ⟨interval, hmem, decide_eq_true hin⟩

theorem isOpenAt_walked (hcal : PassesValidators calendar) (hs : lib.localDate calendar.timezone s = days.day n) {k : ℕ}
    (hle : s ≤ t) (hlt : t < dayStart days (n + k)) :
    isOpenAt lib calendar t = true ↔ Covers (walkSpans calendar days k n) t := by
  constructor
  · intro hopen
    obtain ⟨m, hm⟩ := days.covers t
    obtain ⟨p, hp, hin⟩ := (isOpenAt_iff hcal hm).mp hopen
    refine ⟨p, mem_walkSpans.mpr ⟨m, day_le_of_le hs hm hle, ?_, hp⟩, hin⟩
    refine Classical.byContradiction fun hfar => ?_
    have hstart : dayStart days (n + k) ≤ dayStart days m := dayStart_mono (by omega)
    have hm := ((days.partition m t).mp hm).1
    exact absurd (hlt.trans_le (hstart.trans hm)) (lt_irrefl t)
  · rintro ⟨p, hp, hin⟩
    obtain ⟨m, -, -, hp⟩ := mem_walkSpans.mp hp
    obtain ⟨hlow, hhigh⟩ := daySpans_bounds hcal hp
    have hm := (days.partition m t).mpr ⟨hlow.trans hin.1, hin.2.trans_le hhigh⟩
    exact (isOpenAt_iff hcal hm).mpr ⟨p, hp, hin⟩

theorem businessLength_of_le (h : e ≤ s) : businessLength lib calendar s e = 0 := by
  unfold businessLength
  rw [Finset.Ico_eq_empty (not_lt.mpr h)]
  simp

theorem businessMinutes_walked (hcal : PassesValidators calendar) (hs : lib.localDate calendar.timezone s = days.day n)
    (hlt : s < e) : businessMinutesBetween lib.toDateLib calendar s e none =
      .ok ((covered (walkSpans calendar days maxDaysWalked n) s e : ℚ) / 60000) := by
  unfold businessMinutesBetween
  rw [hcal.shape]
  show (if e ≤ s then pure 0 else pure _) = _
  rw [if_neg (not_le.mpr hlt), hs, walkDays_eq hcal, zero_add, covered_eq_sum (walkSpans_ordered hcal _ _)]
  rfl

theorem length_eq (hcal : PassesValidators calendar) (hwalked : Walked lib calendar days s e) :
    businessMinutesBetween lib.toDateLib calendar s e none = .ok (businessLength lib calendar s e) := by
  by_cases hlt : s < e
  · obtain ⟨n, hs⟩ := days.covers s
    have hend := hwalked n hs
    rw [businessMinutes_walked hcal hs hlt]
    unfold businessLength covered
    congr 4
    refine Finset.filter_congr fun t ht => ?_
    obtain ⟨hst, hte⟩ := Finset.mem_Ico.mp ht
    exact (isOpenAt_walked hcal hs hst (hte.trans_le hend)).symm
  · rw [businessLength_of_le (not_lt.mp hlt)]
    unfold businessMinutesBetween
    rw [hcal.shape]
    show (if e ≤ s then pure 0 else pure _) = _
    rw [if_pos (not_lt.mp hlt)]
    rfl

theorem Walked.of_le (h : Walked lib calendar days s e) {e' : Instant} (hle : e' ≤ e) : Walked lib calendar days s e' :=
  fun n hn => hle.trans (h n hn)

theorem Walked.from (h : Walked lib calendar days s e) {s' : Instant} (hle : s ≤ s') : Walked lib calendar days s' e := by
  intro m hm
  obtain ⟨n, hn⟩ := days.covers s
  have hmono : dayStart days (n + maxDaysWalked) ≤ dayStart days (m + maxDaysWalked) := by
    refine dayStart_mono ?_
    have hnm := day_le_of_le hn hm hle
    omega
  exact (h n hn).trans hmono

theorem businessLength_mono {s' e' : Instant} (hs : s' ≤ s) (he : e ≤ e') :
    businessLength lib calendar s e ≤ businessLength lib calendar s' e' := by
  have hcard : ((Finset.Ico s e).filter fun t => isOpenAt lib calendar t = true).card ≤
      ((Finset.Ico s' e').filter fun t => isOpenAt lib calendar t = true).card :=
    Finset.card_le_card (Finset.filter_subset_filter _ (Finset.Ico_subset_Ico hs he))
  unfold businessLength
  exact div_le_div_of_nonneg_right (Nat.cast_le.mpr hcard) (by norm_num)

theorem businessLength_split {m : Instant} (hsm : s ≤ m) (hme : m ≤ e) : businessLength lib calendar s e =
    businessLength lib calendar s m + businessLength lib calendar m e := by
  have hunion : (Finset.Ico s e).filter (fun t => isOpenAt lib calendar t = true) =
      (Finset.Ico s m).filter (fun t => isOpenAt lib calendar t = true) ∪
        (Finset.Ico m e).filter fun t => isOpenAt lib calendar t = true := by
    rw [← Finset.filter_union, Finset.Ico_union_Ico_eq_Ico hsm hme]
  have hdisjoint : Disjoint ((Finset.Ico s m).filter fun t => isOpenAt lib calendar t = true)
      ((Finset.Ico m e).filter fun t => isOpenAt lib calendar t = true) :=
    Finset.disjoint_filter_filter (Finset.Ico_disjoint_Ico_consecutive s m e)
  unfold businessLength
  rw [hunion, Finset.card_union_of_disjoint hdisjoint, Nat.cast_add, add_div]

theorem businessLength_eq_zero : businessLength lib calendar s e = 0 ↔
    ∀ t, s ≤ t → t < e → isOpenAt lib calendar t = false := by
  unfold businessLength
  rw [div_eq_zero_iff, or_iff_left (by norm_num), Nat.cast_eq_zero, Finset.card_eq_zero, Finset.filter_eq_empty_iff]
  constructor
  · exact fun h t hs he => Bool.eq_false_iff.mpr (h (Finset.mem_Ico.mpr ⟨hs, he⟩))
  · intro h t ht
    obtain ⟨hs, he⟩ := Finset.mem_Ico.mp ht
    exact Bool.eq_false_iff.mp (h t hs he)

variable (days) in
/-- **Business time is a measure.**  For a calendar that passes the validators, in a time zone of consecutive days, the
business minutes between two instants are the length of the business instants between them, when the walk reaches the
second one; so they are zero when there is none, they add up, and they grow with the window. -/
theorem business_time_is_measure (hcal : PassesValidators calendar) : BusinessMeasure lib calendar days where
  length s e hwalked := length_eq hcal hwalked
  zero s e hwalked := by
    rw [length_eq hcal hwalked, ← businessLength_eq_zero]
    exact ⟨fun h => Except.ok.inj h, fun h => congrArg Except.ok h⟩
  additive s m e hsm hme hwalked := by
    refine ⟨_, _, length_eq hcal (hwalked.of_le hme), length_eq hcal (hwalked.from hsm), ?_⟩
    rw [length_eq hcal hwalked, businessLength_split hsm hme]
  monotone s e e' hle hwalked :=
    ⟨_, _, length_eq hcal (hwalked.of_le hle), length_eq hcal hwalked, businessLength_mono (le_refl s) hle⟩
  antitone s s' e hle hwalked :=
    ⟨_, _, length_eq hcal (hwalked.from hle), length_eq hcal hwalked, businessLength_mono hle (le_refl e)⟩

end Days

/-! ### UTC -/

/-- The name of a day; those of the first two days of the epoch are as the library has them. -/
def dateName (n : ℤ) : String :=
  if n = 0 then "1970-01-01"
  else if n = 1 then "1970-01-02"
  else if 0 < n then String.ofList (List.replicate n.toNat '+')
  else String.ofList (List.replicate (-n).toNat '-')

def dateNumber (date : String) : ℤ :=
  if date = "1970-01-01" then 0
  else if date = "1970-01-02" then 1
  else if date.toList.head? = some '+' then date.toList.length
  else -(date.toList.length : ℤ)

theorem ofList_ne {c : Char} {k : ℕ} (hc : c ≠ '1') : String.ofList (List.replicate k c) ≠ "1970-01-01" ∧
    String.ofList (List.replicate k c) ≠ "1970-01-02" := by
  have hne : ∀ date : String, '1' ∈ date.toList → String.ofList (List.replicate k c) ≠ date := by
    rintro _ hmem rfl
    rw [String.toList_ofList] at hmem
    exact hc (List.eq_of_mem_replicate hmem).symm
  exact ⟨hne _ (by decide), hne _ (by decide)⟩

theorem dateNumber_dateName (n : ℤ) : dateNumber (dateName n) = n := by
  unfold dateName
  by_cases h0 : n = 0
  · rw [if_pos h0, h0]
    rfl
  rw [if_neg h0]
  by_cases h1 : n = 1
  · rw [if_pos h1, h1]
    rfl
  rw [if_neg h1]
  unfold dateNumber
  by_cases hpos : 0 < n
  · obtain ⟨hfirst, hsecond⟩ := ofList_ne (c := '+') (k := n.toNat) (by decide)
    obtain ⟨k, hk⟩ : ∃ k, n.toNat = k + 1 := ⟨n.toNat - 1, by omega⟩
    rw [if_pos hpos, if_neg hfirst, if_neg hsecond, String.toList_ofList, hk, List.replicate_succ, List.head?_cons,
      if_pos rfl, List.length_cons, List.length_replicate]
    omega
  · obtain ⟨hfirst, hsecond⟩ := ofList_ne (c := '-') (k := (-n).toNat) (by decide)
    obtain ⟨k, hk⟩ : ∃ k, (-n).toNat = k + 1 := ⟨(-n).toNat - 1, by omega⟩
    rw [if_neg hpos, if_neg hfirst, if_neg hsecond, String.toList_ofList, hk, List.replicate_succ, List.head?_cons,
      if_neg (by decide), List.length_cons, List.length_replicate]
    omega

theorem dateName_eq_iff (n t : ℤ) :
    dateName (t / 86400000) = dateName n ↔ n * 86400000 ≤ t ∧ t < (n + 1) * 86400000 := by
  constructor
  · intro h
    have hn := congrArg dateNumber h
    rw [dateNumber_dateName, dateNumber_dateName] at hn
    omega
  · intro h
    exact congrArg dateName (by omega)

def utc : ZonedLib where
  localDate _ t := dateName (t / 86400000)
  weekday _ date := ((dateNumber date + 4) % 7).toNat
  startOfDay _ date := dateNumber date * 86400000
  instantAt _ date hhmm := dateNumber date * 86400000 + hhmmToMinutes hhmm * 60000
  nextDate date := dateName (dateNumber date + 1)
  weekdayAt _ t := ((t / 86400000 + 4) % 7).toNat

theorem dateName_next (n : ℤ) : dateName (dateNumber (dateName n) + 1) = dateName (n + 1) :=
  congrArg (fun k => dateName (k + 1)) (dateNumber_dateName n)

def utcDays (timezone : String) : LocalDays utc timezone where
  day := dateName
  next := dateName_next
  covers t := ⟨t / 86400000, rfl⟩
  partition n t := by
    show dateName (t / 86400000) = dateName n ↔
      dateNumber (dateName n) * 86400000 ≤ t ∧ t < dateNumber (dateName (n + 1)) * 86400000
    rw [dateNumber_dateName, dateNumber_dateName]
    exact dateName_eq_iff n t
  midnight n := by
    show dateNumber (dateName n) * 86400000 + (hhmmToMinutes "00:00" : ℤ) * 60000 = dateNumber (dateName n) * 86400000
    rw [minutes_midnight]
    omega
  monotone n h h' _ _ _ _ hle := by
    show dateNumber (dateName n) * 86400000 + (hhmmToMinutes h : ℤ) * 60000 ≤
      dateNumber (dateName n) * 86400000 + (hhmmToMinutes h' : ℤ) * 60000
    omega
  monotoneDay n h hvalid hne := by
    have hlt := minutes_of_valid hvalid hne
    show dateNumber (dateName n) * 86400000 + (hhmmToMinutes h : ℤ) * 60000 ≤
      dateNumber (dateName (n + 1)) * 86400000 + (hhmmToMinutes "00:00" : ℤ) * 60000
    rw [dateNumber_dateName, dateNumber_dateName, minutes_midnight]
    omega
  weekday t := by
    show ((t / 86400000 + 4) % 7).toNat = ((dateNumber (dateName (t / 86400000)) + 4) % 7).toNat
    rw [dateNumber_dateName]

def alwaysOpen : SlaCalendar where
  timezone := "UTC"
  weeklySchedule := (List.range 7).map fun weekday => ⟨weekday, true, [⟨"00:00", "24:00"⟩]⟩
  exceptions := []

theorem alwaysOpen_passes : PassesValidators alwaysOpen := ⟨by decide, by decide, by decide⟩

def alwaysOpenDays : LocalDays utc alwaysOpen.timezone := utcDays alwaysOpen.timezone

theorem business_time_is_measure_utc : BusinessMeasure utc alwaysOpen alwaysOpenDays :=
  business_time_is_measure alwaysOpenDays alwaysOpen_passes

theorem resolve_alwaysOpen (date : String) {weekday : ℕ} (h : weekday < 7) :
    resolveDayIntervals alwaysOpen date weekday = [⟨"00:00", "24:00"⟩] := by
  have hall : ∀ w : ℕ, w < 7 → resolveDayIntervals alwaysOpen "" w = [⟨"00:00", "24:00"⟩] := by decide
  exact hall weekday h

theorem alwaysOpen_open (t : Instant) : isOpenAt utc alwaysOpen t = true := by
  obtain ⟨n, hn⟩ := alwaysOpenDays.covers t
  obtain ⟨hlow, hhigh⟩ := (alwaysOpenDays.partition n t).mp hn
  refine (isOpenAt_iff alwaysOpen_passes hn).mpr ?_
  have hweekday : utc.weekday alwaysOpen.timezone (alwaysOpenDays.day n) < 7 := by
    show ((dateNumber (dateName n) + 4) % 7).toNat < 7
    omega
  unfold daySpans
  rw [resolve_alwaysOpen _ hweekday]
  refine ⟨_, List.mem_singleton_self _, ?_, ?_⟩
  · have hstart : bound alwaysOpenDays n "00:00" = dayStart alwaysOpenDays n :=
      (bound_ne (by decide)).trans (alwaysOpenDays.midnight n)
    exact hstart.trans_le hlow
  · have hend : bound alwaysOpenDays n "24:00" = dayStart alwaysOpenDays (n + 1) := bound_end
    exact hhigh.trans_eq hend.symm

theorem utc_day {n t : ℤ} (h : n * 86400000 ≤ t ∧ t < (n + 1) * 86400000) :
    utc.localDate alwaysOpen.timezone t = alwaysOpenDays.day n := (dateName_eq_iff n t).mpr h

theorem utc_dayStart (n : ℤ) : dayStart alwaysOpenDays n = n * 86400000 :=
  congrArg (· * 86400000) (dateNumber_dateName n)

/-- The midnight after the last day that is walked. -/
def walkEnd : Instant := 3660 * 86400000

/-- Two instants that are `MAX_DAYS_WALKED` local days apart: the last day is not walked. -/
theorem last_day_not_walked : utc.localDate alwaysOpen.timezone 0 = alwaysOpenDays.day 0 ∧
    utc.localDate alwaysOpen.timezone (walkEnd + 60000) = alwaysOpenDays.day (0 + maxDaysWalked) ∧
    businessMinutesBetween utc.toDateLib alwaysOpen 0 (walkEnd + 60000) none ≠
      .ok (businessLength utc alwaysOpen 0 (walkEnd + 60000)) := by
  have hmax : (maxDaysWalked : ℤ) = 3660 := rfl
  have hfirst : utc.localDate alwaysOpen.timezone 0 = alwaysOpenDays.day 0 := utc_day (by omega)
  have hlast : utc.localDate alwaysOpen.timezone (walkEnd + 60000) = alwaysOpenDays.day (0 + maxDaysWalked) :=
    utc_day (by
      unfold walkEnd
      omega)
  refine ⟨hfirst, hlast, fun heq => ?_⟩
  rw [businessMinutes_walked alwaysOpen_passes hfirst (by decide)] at heq
  have hwalk : covered (walkSpans alwaysOpen alwaysOpenDays maxDaysWalked 0) 0 (walkEnd + 60000) ≤
      (Finset.Ico 0 walkEnd).card := by
    refine Finset.card_le_card fun t ht => ?_
    obtain ⟨ht, p, hp, hin⟩ := Finset.mem_filter.mp ht
    obtain ⟨m, -, hm, hp⟩ := mem_walkSpans.mp hp
    have hend : dayStart alwaysOpenDays (m + 1) ≤ dayStart alwaysOpenDays 3660 := dayStart_mono (by omega)
    have hwalkEnd : dayStart alwaysOpenDays 3660 = walkEnd := utc_dayStart 3660
    have hlt := (hin.2.trans_le (daySpans_bounds alwaysOpen_passes hp).2).trans_le (hend.trans_eq hwalkEnd)
    exact Finset.mem_Ico.mpr ⟨(Finset.mem_Ico.mp ht).1, hlt⟩
  have hall : ((Finset.Ico 0 (walkEnd + 60000)).filter fun t => isOpenAt utc alwaysOpen t = true).card =
      (Finset.Ico 0 (walkEnd + 60000)).card :=
    congrArg Finset.card (Finset.filter_true_of_mem fun t _ => alwaysOpen_open t)
  have heq := Except.ok.inj heq
  unfold businessLength at heq
  rw [hall, div_left_inj' (by norm_num), Nat.cast_inj] at heq
  have hcount : (Finset.Ico 0 walkEnd).card < (Finset.Ico 0 (walkEnd + 60000)).card := by
    rw [Int.card_Ico, Int.card_Ico]
    decide
  omega

end TeamInbox.Sla
