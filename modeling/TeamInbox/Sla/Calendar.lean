import Mathlib.Tactic.Linarith
import Mathlib.Tactic.Positivity

/-!
# TeamInbox.Sla.Calendar — business minutes

Business minutes between two instants are summed day by day over the open intervals of a calendar.  The
walk may stop once the sum has reached `earlyExitAt`; what it returns is then a lower bound.  A test for
"more than the target" that stops at the target plus an epsilon answers as the full walk does
(`overdue_iff_full`).  Arithmetic is exact; dates and time zones are those of the date library.
-/

namespace TeamInbox.Sla

abbrev Instant := ℤ

/-- `[start, end)` in local `HH:mm`; `end` may be `24:00`. -/
structure SlaTimeInterval where
  start : String
  stop : String
  deriving DecidableEq

structure SlaWeeklyScheduleDay where
  weekday : ℚ
  isOpen : Bool
  intervals : List SlaTimeInterval
  deriving DecidableEq

structure SlaScheduleException where
  date : String
  closed : Bool
  intervals : Option (List SlaTimeInterval)
  deriving DecidableEq

structure SlaCalendar where
  timezone : String
  weeklySchedule : List SlaWeeklyScheduleDay
  exceptions : List SlaScheduleException
  deriving DecidableEq

/-- The part of the date library the walk uses; dates are `YYYY-MM-DD`, the first argument is the time
zone. -/
structure DateLib where
  localDate : String → Instant → String
  weekday : String → String → ℕ
  startOfDay : String → String → Instant
  /-- the instant of a local `HH:mm` on a date -/
  instantAt : String → String → String → Instant
  nextDate : String → String

/-- `MalformedSlaCalendarError`. -/
inductive MalformedCalendar
  | weekdays (found : List ℚ)
  | openDayWithoutIntervals (weekday : ℚ)
  | openExceptionWithoutIntervals (date : String)
  deriving DecidableEq

/-- `MAX_DAYS_WALKED`. -/
def maxDaysWalked : ℕ := 3660

def assertValidCalendarShape (calendar : SlaCalendar) : Except MalformedCalendar Unit := do
  let weekdays := calendar.weeklySchedule.map (·.weekday)
  if calendar.weeklySchedule.length ≠ 7 ∨ weekdays.dedup.length ≠ 7 ∨
      (weekdays.any fun w => decide (w.den ≠ 1) || decide (w < 0) || decide (6 < w)) then
    throw (.weekdays weekdays)
  match calendar.weeklySchedule.find? fun day => day.isOpen && day.intervals.isEmpty with
  | some day => throw (.openDayWithoutIntervals day.weekday)
  | none =>
    match calendar.exceptions.find? fun e => !e.closed && (e.intervals.getD []).isEmpty with
    | some e => throw (.openExceptionWithoutIntervals e.date)
    | none => pure ()

/-- An exception for the date wins over the weekly schedule. -/
def resolveDayIntervals (calendar : SlaCalendar) (date : String) (weekday : ℕ) : List SlaTimeInterval :=
  match calendar.exceptions.find? (·.date = date) with
  | some e => if e.closed then [] else e.intervals.getD []
  | none =>
    match calendar.weeklySchedule.find? fun day => decide (day.weekday = (weekday : ℚ)) with
    | some day => if day.isOpen then day.intervals else []
    | none => []

section Walk

variable (lib : DateLib) (calendar : SlaCalendar)

def zonedIntervalBoundToUtc (date hhmm : String) : Instant :=
  if hhmm = "24:00" then lib.instantAt calendar.timezone (lib.nextDate date) "00:00"
  else lib.instantAt calendar.timezone date hhmm

def addInterval (startTime endTime : Instant) (date : String) (totalMinutes : ℚ)
    (interval : SlaTimeInterval) : ℚ :=
  let overlapStart := max (zonedIntervalBoundToUtc lib calendar date interval.start) startTime
  let overlapEnd := min (zonedIntervalBoundToUtc lib calendar date interval.stop) endTime
  if overlapStart < overlapEnd then totalMinutes + ((overlapEnd - overlapStart : ℤ) : ℚ) / 60000
  else totalMinutes

def addDay (startTime endTime : Instant) (date : String) (totalMinutes : ℚ) : ℚ :=
  (resolveDayIntervals calendar date (lib.weekday calendar.timezone date)).foldl
    (addInterval lib calendar startTime endTime date) totalMinutes

/-- The loop over the days; the first argument counts those that are left. -/
def walkDays (startTime endTime : Instant) (earlyExitAt : Option ℚ) : ℕ → String → ℚ → ℚ
  | 0, _, totalMinutes => totalMinutes
  | days + 1, cursor, totalMinutes =>
    if endTime < lib.startOfDay calendar.timezone cursor then totalMinutes
    else
      let total := addDay lib calendar startTime endTime cursor totalMinutes
      if earlyExitAt.any fun e => decide (e ≤ total) then total
      else if endTime < lib.startOfDay calendar.timezone (lib.nextDate cursor) then total
      else walkDays startTime endTime earlyExitAt days (lib.nextDate cursor) total

def businessMinutesBetween (start stop : Instant) (earlyExitAt : Option ℚ) :
    Except MalformedCalendar ℚ := do
  assertValidCalendarShape calendar
  if stop ≤ start then pure 0
  else pure (walkDays lib calendar start stop earlyExitAt maxDaysWalked
    (lib.localDate calendar.timezone start) 0)

/-- `OVERDUE_STRICT_EPSILON_MINUTES`. -/
def overdueStrictEpsilonMinutes : ℚ := 1 / 10000

end Walk

/-! ### The early exit -/

section EarlyExit

variable {lib : DateLib} {calendar : SlaCalendar} {startTime endTime : Instant}

theorem addInterval_ge (date : String) (total : ℚ) (interval : SlaTimeInterval) :
    total ≤ addInterval lib calendar startTime endTime date total interval := by
  unfold addInterval
  dsimp only
  split_ifs with h
  · have hpos : (0 : ℚ) ≤ ((min (zonedIntervalBoundToUtc lib calendar date interval.stop) endTime -
        max (zonedIntervalBoundToUtc lib calendar date interval.start) startTime : ℤ) : ℚ) := by
      exact_mod_cast Int.sub_nonneg_of_le h.le
    have hdiv := div_nonneg hpos (by norm_num : (0 : ℚ) ≤ 60000)
    linarith
  · exact le_rfl

theorem addDay_ge (date : String) (total : ℚ) :
    total ≤ addDay lib calendar startTime endTime date total := by
  unfold addDay
  induction resolveDayIntervals calendar date (lib.weekday calendar.timezone date) generalizing total with
  | nil => exact le_rfl
  | cons interval rest ih => exact (addInterval_ge date total interval).trans (ih _)

theorem walkDays_ge (exit : Option ℚ) (days : ℕ) (cursor : String) (total : ℚ) :
    total ≤ walkDays lib calendar startTime endTime exit days cursor total := by
  induction days generalizing cursor total with
  | zero => exact le_rfl
  | succ days ih =>
    have hday : total ≤ addDay lib calendar startTime endTime cursor total := addDay_ge cursor total
    simp only [walkDays]
    split_ifs
    · exact le_rfl
    · exact hday
    · exact hday
    · exact hday.trans (ih _ _)

theorem walkDays_exceeds_iff {target exit : ℚ} (hexit : target < exit) (days : ℕ) (cursor : String)
    (total : ℚ) : target < walkDays lib calendar startTime endTime (some exit) days cursor total ↔
      target < walkDays lib calendar startTime endTime none days cursor total := by
  induction days generalizing cursor total with
  | zero => exact Iff.rfl
  | succ days ih =>
    have hnone : ∀ t : ℚ, (none : Option ℚ).any (fun e => decide (e ≤ t)) = false := fun _ => rfl
    simp only [walkDays, hnone]
    by_cases hafter : endTime < lib.startOfDay calendar.timezone cursor
    · rw [if_pos hafter, if_pos hafter]
    rw [if_neg hafter, if_neg hafter, if_neg Bool.false_ne_true]
    by_cases hstop : exit ≤ addDay lib calendar startTime endTime cursor total
    · -- the full walk goes on from a sum that is above the target already
      rw [if_pos (by simpa using hstop)]
      have hover : target < addDay lib calendar startTime endTime cursor total := by linarith
      refine ⟨fun _ => ?_, fun _ => hover⟩
      split_ifs
      · exact hover
      · exact hover.trans_le (walkDays_ge none days _ _)
    · rw [if_neg (by simpa using hstop)]
      split_ifs
      · exact Iff.rfl
      · exact ih _ _

/-- **Early exit.**  The test against the target is the same with the early exit and without it. -/
theorem overdue_iff_full {start stop : Instant} {target early full : ℚ}
    (hearly : businessMinutesBetween lib calendar start stop (some (target + overdueStrictEpsilonMinutes)) =
      .ok early) (hfull : businessMinutesBetween lib calendar start stop none = .ok full) :
    target < early ↔ target < full := by
  unfold businessMinutesBetween at hearly hfull
  cases hshape : assertValidCalendarShape calendar with
  | error e =>
    rw [hshape] at hearly
    cases hearly
  | ok u =>
    rw [hshape] at hearly hfull
    by_cases hle : stop ≤ start
    · simp only [hle, if_true] at hearly hfull
      cases hearly
      cases hfull
      exact Iff.rfl
    · simp only [hle, if_false] at hearly hfull
      cases hearly
      cases hfull
      refine walkDays_exceeds_iff ?_ _ _ _
      norm_num [overdueStrictEpsilonMinutes]

theorem businessMinutesBetween_shape {start stop : Instant} {exit : Option ℚ} {m : ℚ}
    (h : businessMinutesBetween lib calendar start stop exit = .ok m) (start' stop' : Instant)
    (exit' : Option ℚ) :
    ∃ m', businessMinutesBetween lib calendar start' stop' exit' = .ok m' := by
  unfold businessMinutesBetween at h ⊢
  cases hshape : assertValidCalendarShape calendar with
  | error e =>
    rw [hshape] at h
    cases h
  | ok u =>
    by_cases hle : stop' ≤ start'
    · exact ⟨0, by simp only [hle, if_true]; rfl⟩
    · exact ⟨_, by simp only [hle, if_false]; rfl⟩

end EarlyExit

/-- The library on the first day of the epoch, in UTC. -/
def epochDay : DateLib where
  localDate _ _ := "1970-01-01"
  weekday _ _ := 4
  startOfDay _ date := if date = "1970-01-01" then 0 else 86400000
  instantAt _ date hhmm :=
    (if date = "1970-01-01" then 0 else 86400000) +
      (if hhmm = "00:00" then 0 else if hhmm = "00:05" then 300000 else 32400000)
  nextDate _ := "1970-01-02"

end TeamInbox.Sla
