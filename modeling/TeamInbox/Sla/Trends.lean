import TeamInbox.Lib.Buckets
import TeamInbox.Sla.BusinessTime
import TeamInbox.Sla.Statistics

/-!
# TeamInbox.Sla.Trends — counts by local day

A trend walks the local days from that of the start of the range to that of its end, in the time zone of
the current policy, and shows for each what was counted under its date.  The days are walked by adding a
day, the counts are filed under the date of an instant; that no count is filed under a day that is not
walked follows from local dates that grow with the instant.
-/

namespace TeamInbox.Sla

open TeamInbox.Lib TeamInbox.Cases

/-- **What is assumed of the date library** in the reporting time zone: local dates are monotone in the instant, adding a
day yields the next one, and the start of a day lies in it. -/
structure ReportingDays (lib : DateLib) (timezone : String) where
  day : ℤ → String
  number : Instant → ℤ
  localDate : ∀ t, lib.localDate timezone t = day (number t)
  monotone : ∀ t t', t ≤ t' → number t ≤ number t'
  next : ∀ n, lib.nextDate (day n) = day (n + 1)
  startOfDay : ∀ n, number (lib.startOfDay timezone (day n)) = n

section Definitions

variable (lib : DateLib)

/-- `currentPolicy?.timezone ?? "UTC"` -/
def reportingTimezone (currentPolicy : Option SlaCalendar) : String := (currentPolicy.map (·.timezone)).getD "UTC"

section Axis

variable (timezone : String)

/-- `isSame(other, "day")`: from the start of the day to its last millisecond. -/
def isSameDay (date : String) (other : Instant) : Bool :=
  decide (lib.startOfDay timezone date ≤ other) && decide (other < lib.startOfDay timezone (lib.nextDate date))

/-- `currentDate.isBefore(lastDate) || currentDate.isSame(lastDate, "day")` -/
def stillInRange (lastDate : Instant) (currentDate : String) : Bool :=
  decide (lib.startOfDay timezone currentDate < lastDate) || isSameDay lib timezone currentDate lastDate

/-- The dates the loop visits; it has ended within so many rounds. -/
def trendDates (fuel : ℕ) (startDate endDate : Instant) : Option (List String) :=
  collectWhile (stillInRange lib timezone (lib.startOfDay timezone (lib.localDate timezone endDate))) lib.nextDate fuel
    (lib.localDate timezone startDate)

end Axis

/-! ### Response times -/

structure ResponseBucket where
  responseMinutes : List ℚ
  total : ℕ
  withinSla : ℕ
  deriving DecidableEq

def ResponseBucket.empty : ResponseBucket := ⟨[], 0, 0⟩

def ResponseBucket.add (bucket : ResponseBucket) (outcome : EpisodeOutcome) : ResponseBucket where
  responseMinutes := bucket.responseMinutes ++ outcome.responseMinutes.toList
  total := if outcome.isCountedInCompliance then bucket.total + 1 else bucket.total
  withinSla := if outcome.isCountedInCompliance && outcome.isWithinSla then bucket.withinSla + 1 else bucket.withinSla

structure ResponseTimeByDate where
  date : String
  averageResponseTimeMinutes : ℚ
  conversationCount : ℕ
  slaComplianceRate : ℚ
  deriving DecidableEq

def rowOutcome (targetOverrideMinutes : Option ℚ) (now : Instant) (row : ResolvedEpisodeRow) :
    Except MalformedCalendar (Option (ResolvedEpisodeRow × EpisodeOutcome)) := do
  pure ((← computeEpisodeOutcome lib row targetOverrideMinutes now).map fun outcome => (row, outcome))

/-- `byDate` -/
def responsesByDate (timezone : String) (rows : List ResolvedEpisodeRow) (targetOverrideMinutes : Option ℚ)
    (now : Instant) : Except MalformedCalendar (String → Option ResponseBucket) := do
  let outcomes ← rows.filterMapM (rowOutcome lib targetOverrideMinutes now)
  pure (gather .empty (fun bucket p => bucket.add p.2) (fun p => lib.localDate timezone p.1.inboundTime) outcomes)

def responsePoint (byDate : String → Option ResponseBucket) (date : String) : ResponseTimeByDate where
  date := date
  averageResponseTimeMinutes := ((byDate date).map fun b => average b.responseMinutes).getD 0
  conversationCount := ((byDate date).map fun b => b.total).getD 0
  slaComplianceRate := ((byDate date).map fun b => slaRate b.withinSla b.total).getD 0

/-- `rows` are the episodes fetched for the range. -/
def getResponseTimeTrend (fuel : ℕ) (rows : List ResolvedEpisodeRow) (currentPolicy : Option SlaCalendar)
    (startDate endDate : Instant) (targetOverrideMinutes : Option ℚ) (now : Instant) :
    Except MalformedCalendar (Option (List ResponseTimeByDate)) := do
  let byDate ← responsesByDate lib (reportingTimezone currentPolicy) rows targetOverrideMinutes now
  pure ((trendDates lib (reportingTimezone currentPolicy) fuel startDate endDate).map fun dates =>
    dates.map (responsePoint byDate))

/-! ### Case resolution -/

structure ResolutionBucket where
  minutes : List ℚ
  total : ℕ
  withinSla : ℕ
  deriving DecidableEq

def ResolutionBucket.empty : ResolutionBucket := ⟨[], 0, 0⟩

structure CaseResolutionTrendPoint where
  date : String
  resolvedCount : ℕ
  averageResolutionMinutes : ℚ
  slaComplianceRate : ℚ
  deriving DecidableEq

/-- A row with the instant and the minutes of its resolution. -/
structure ResolvedItem where
  row : ResolvedCaseRow
  resolvedAt : Instant
  minutes : ℚ
  deriving DecidableEq

def ResolvedItem.withinTarget (item : ResolvedItem) : Bool := decide (item.minutes ≤ item.row.resolutionTargetMinutes)

def ResolutionBucket.add (bucket : ResolutionBucket) (item : ResolvedItem) : ResolutionBucket where
  minutes := bucket.minutes ++ [item.minutes]
  total := bucket.total + 1
  withinSla := if item.withinTarget then bucket.withinSla + 1 else bucket.withinSla

/-- A row without a resolution time or a calendar is skipped. -/
def resolvedItem (row : ResolvedCaseRow) : Except MalformedCalendar (Option ResolvedItem) :=
  match row.resolvedAt with
  | none => pure none
  | some resolvedAt => do pure ((← resolutionMinutes lib row).map fun minutes => ⟨row, resolvedAt, minutes⟩)

/-- `byDate` -/
def resolutionsByDate (timezone : String) (rows : List ResolvedCaseRow) :
    Except MalformedCalendar (String → Option ResolutionBucket) := do
  let items ← rows.filterMapM (resolvedItem lib)
  pure (gather .empty ResolutionBucket.add (fun item => lib.localDate timezone item.resolvedAt) items)

def resolutionPoint (byDate : String → Option ResolutionBucket) (date : String) : CaseResolutionTrendPoint where
  date := date
  resolvedCount := ((byDate date).map fun b => b.total).getD 0
  averageResolutionMinutes := ((byDate date).map fun b => average b.minutes).getD 0
  slaComplianceRate := ((byDate date).map fun b => slaRate b.withinSla b.total).getD 0

def getCaseResolutionTrend (fuel : ℕ) (rows : List ResolvedCaseRow) (currentPolicy : Option SlaCalendar)
    (startDate endDate : Instant) : Except AnalyticsError (Option (List CaseResolutionTrendPoint)) := do
  let resolved ← fetchResolvedCasesInRange rows startDate endDate
  let byDate ← orMalformed (resolutionsByDate lib (reportingTimezone currentPolicy) resolved)
  pure ((trendDates lib (reportingTimezone currentPolicy) fuel startDate endDate).map fun dates =>
    dates.map (resolutionPoint byDate))

end Definitions

/-! ### What is claimed -/

def holdsFor {α β ε : Type} (f : α → Except ε (Option β)) (q : β → Bool) (a : α) : Bool :=
  match f a with
  | .ok (some b) => q b
  | _ => false

def countedRow (lib : DateLib) (override : Option ℚ) (now : Instant) : ResolvedEpisodeRow → Bool :=
  holdsFor (rowOutcome lib override now) fun p => p.2.isCountedInCompliance

def withinRow (lib : DateLib) (override : Option ℚ) (now : Instant) : ResolvedEpisodeRow → Bool :=
  holdsFor (rowOutcome lib override now) fun p => p.2.isCountedInCompliance && p.2.isWithinSla

def countedCase (lib : DateLib) : ResolvedCaseRow → Bool := holdsFor (resolvedItem lib) fun _ => true

def withinCase (lib : DateLib) : ResolvedCaseRow → Bool := holdsFor (resolvedItem lib) fun item => item.withinTarget

/-- The dates are the local days of the range, each once and in order. -/
structure OnAxis {lib : DateLib} {timezone : String} (days : ReportingDays lib timezone) (startDate endDate : Instant)
    (dates : List String) : Prop where
  exactly : ∀ date, date ∈ dates ↔ ∃ n, days.number startDate ≤ n ∧ n ≤ days.number endDate ∧ days.day n = date
  instants : startDate ≤ endDate → ∀ date, date ∈ dates ↔
    ∃ t, startDate ≤ t ∧ t ≤ endDate ∧ lib.localDate timezone t = date
  once : dates.Nodup
  ascending : dates.Pairwise fun date date' => lib.startOfDay timezone date < lib.startOfDay timezone date'

/-- A point as its date, its count and its compliance rate. -/
structure Point where
  date : String
  count : ℕ
  rate : ℚ

def ResponseTimeByDate.point (p : ResponseTimeByDate) : Point := ⟨p.date, p.conversationCount, p.slaComplianceRate⟩

def CaseResolutionTrendPoint.point (p : CaseResolutionTrendPoint) : Point := ⟨p.date, p.resolvedCount, p.slaComplianceRate⟩

section Claimed

variable {α : Type} (rows : List α) (dateOf : α → Option String) (counted within : α → Bool)

/-- How many rows of the date have the property. -/
def onDate (q : α → Bool) (date : String) : ℕ := (rows.filter fun r => q r && decide (dateOf r = some date)).length

/-- Every counted row is in one bucket, and a bucket counts its rows. -/
structure Filed (points : List Point) : Prop where
  bucket : ∀ p ∈ points, p.count = onDate rows dateOf counted p.date ∧
    p.rate = slaRate (onDate rows dateOf within p.date) p.count
  one : ∀ r ∈ rows, counted r = true → ∃! p, p ∈ points ∧ dateOf r = some p.date

structure AddUp (points : List Point) (total totalWithin : ℕ) : Prop where
  counts : (points.map (·.count)).sum = total
  within : (points.map fun p => onDate rows dateOf within p.date).sum = totalWithin
  /-- The same, from the rates that are shown. -/
  rates : (points.map fun p => p.rate / 100 * (p.count : ℚ)).sum = (totalWithin : ℚ)

end Claimed

/-- The response trend against the summary of the same rows. -/
structure ResponseTrend (lib : DateLib) (currentPolicy : Option SlaCalendar)
    (days : ReportingDays lib (reportingTimezone currentPolicy)) (rows : List ResolvedEpisodeRow)
    (startDate endDate : Instant) (override : Option ℚ) (now : Instant) : Prop where
  /-- One fails exactly if the other does, and the loop ends. -/
  returns : (∃ stats, getResponseTimeStats lib rows override now = .ok stats) ↔ ∃ fuel, ∀ more, fuel ≤ more →
    ∃ trend, getResponseTimeTrend lib more rows currentPolicy startDate endDate override now = .ok (some trend)
  filed : ∀ fuel trend, getResponseTimeTrend lib fuel rows currentPolicy startDate endDate override now = .ok (some trend) →
    OnAxis days startDate endDate (trend.map (·.date)) ∧
      Filed rows (fun row => some (lib.localDate (reportingTimezone currentPolicy) row.inboundTime))
        (countedRow lib override now) (withinRow lib override now) (trend.map (·.point))
  sums : ∀ fuel trend stats,
    getResponseTimeTrend lib fuel rows currentPolicy startDate endDate override now = .ok (some trend) →
    getResponseTimeStats lib rows override now = .ok stats →
    AddUp rows (fun row => some (lib.localDate (reportingTimezone currentPolicy) row.inboundTime))
      (withinRow lib override now) (trend.map (·.point)) stats.overall.totalConversations stats.overall.withinSlaCount

/-- The resolution trend against the summary over the same range. -/
structure ResolutionTrend (lib : DateLib) (currentPolicy : Option SlaCalendar)
    (days : ReportingDays lib (reportingTimezone currentPolicy)) (rows : List ResolvedCaseRow)
    (startDate endDate now : Instant) : Prop where
  /-- The summary reads the active cases besides, so it may fail alone. -/
  returns : ∀ stats, getCaseResolutionStats lib rows startDate endDate now = .ok stats → ∃ fuel, ∀ more, fuel ≤ more →
    ∃ trend, getCaseResolutionTrend lib more rows currentPolicy startDate endDate = .ok (some trend)
  filed : ∀ fuel trend, getCaseResolutionTrend lib fuel rows currentPolicy startDate endDate = .ok (some trend) →
    ∃ resolved, fetchResolvedCasesInRange rows startDate endDate = .ok resolved ∧
      OnAxis days startDate endDate (trend.map (·.date)) ∧
      (∀ row ∈ resolved, countedCase lib row = true) ∧
      Filed resolved (fun row => row.resolvedAt.map (lib.localDate (reportingTimezone currentPolicy)))
        (countedCase lib) (withinCase lib) (trend.map (·.point))
  sums : ∀ fuel trend stats, getCaseResolutionTrend lib fuel rows currentPolicy startDate endDate = .ok (some trend) →
    getCaseResolutionStats lib rows startDate endDate now = .ok stats →
    ∃ resolved, fetchResolvedCasesInRange rows startDate endDate = .ok resolved ∧
      AddUp resolved (fun row => row.resolvedAt.map (lib.localDate (reportingTimezone currentPolicy)))
        (withinCase lib) (trend.map (·.point)) stats.overall.totalResolvedCases stats.overall.withinSlaCount

/-! ### The axis -/

section Axis

variable {lib : DateLib} {timezone : String} (days : ReportingDays lib timezone)

theorem ReportingDays.start_lt {m n : ℤ} :
    lib.startOfDay timezone (days.day m) < lib.startOfDay timezone (days.day n) ↔ m < n := by
  constructor
  · intro h
    have hle := days.monotone _ _ h.le
    rw [days.startOfDay, days.startOfDay] at hle
    refine lt_of_le_of_ne hle fun heq => ?_
    subst heq
    exact lt_irrefl _ h
  · intro h
    by_contra hnot
    have hle := days.monotone _ _ (not_lt.mp hnot)
    rw [days.startOfDay, days.startOfDay] at hle
    omega

theorem ReportingDays.day_injective {m n : ℤ} (h : days.day m = days.day n) : m = n := by
  have hnumber := congrArg (fun d => days.number (lib.startOfDay timezone d)) h
  simpa only [days.startOfDay] using hnumber

theorem ReportingDays.stillInRange_iff (n last : ℤ) :
    stillInRange lib timezone (lib.startOfDay timezone (days.day last)) (days.day n) = true ↔ n ≤ last := by
  unfold stillInRange isSameDay
  rw [Bool.or_eq_true, Bool.and_eq_true, decide_eq_true_eq, decide_eq_true_eq, decide_eq_true_eq, days.next,
    days.start_lt, days.start_lt, ← not_lt, days.start_lt]
  omega

theorem ReportingDays.dates_of_fuel {startDate endDate : Instant} {fuel : ℕ}
    (h : (days.number endDate + 1 - days.number startDate).toNat < fuel) :
    trendDates lib timezone fuel startDate endDate =
      some (numbered days.day (days.number startDate) (days.number endDate)) := by
  unfold trendDates
  rw [days.localDate startDate, days.localDate endDate]
  exact collectWhile_eq days.next (fun n => days.stillInRange_iff n _) h

theorem ReportingDays.dates_eq {startDate endDate : Instant} {fuel : ℕ} {dates : List String}
    (h : trendDates lib timezone fuel startDate endDate = some dates) :
    dates = numbered days.day (days.number startDate) (days.number endDate) := by
  let more := max fuel ((days.number endDate + 1 - days.number startDate).toNat + 1)
  have hmore : trendDates lib timezone more startDate endDate = some dates := collectWhile_mono (Nat.le_max_left _ _) h
  have hall : trendDates lib timezone more startDate endDate =
      some (numbered days.day (days.number startDate) (days.number endDate)) :=
    days.dates_of_fuel (Nat.lt_of_lt_of_le (Nat.lt_succ_self _) (Nat.le_max_right fuel _))
  exact Option.some.inj (hmore.symm.trans hall)

theorem ReportingDays.mem_dates {startDate endDate t : Instant} (hlow : startDate ≤ t) (hhigh : t ≤ endDate) :
    lib.localDate timezone t ∈ numbered days.day (days.number startDate) (days.number endDate) :=
  mem_numbered.mpr ⟨days.number t, days.monotone _ _ hlow, days.monotone _ _ hhigh, (days.localDate t).symm⟩

theorem ReportingDays.instant_of {startDate endDate : Instant} (hle : startDate ≤ endDate) {n : ℤ}
    (hlow : days.number startDate ≤ n) (hhigh : n ≤ days.number endDate) :
    ∃ t, startDate ≤ t ∧ t ≤ endDate ∧ days.number t = n := by
  by_cases hstart : lib.startOfDay timezone (days.day n) ≤ startDate
  · have hmono := days.monotone _ _ hstart
    rw [days.startOfDay] at hmono
    exact ⟨startDate, le_refl _, hle, le_antisymm hlow hmono⟩
  by_cases hend : lib.startOfDay timezone (days.day n) ≤ endDate
  · exact ⟨_, (not_le.mp hstart).le, hend, days.startOfDay n⟩
  · have hmono := days.monotone _ _ (not_le.mp hend).le
    rw [days.startOfDay] at hmono
    exact ⟨endDate, hle, le_refl _, le_antisymm hmono hhigh⟩

theorem ReportingDays.onAxis (startDate endDate : Instant) :
    OnAxis days startDate endDate (numbered days.day (days.number startDate) (days.number endDate)) where
  exactly _ := mem_numbered
  instants hle date := by
    rw [mem_numbered]
    constructor
    · rintro ⟨n, hlow, hhigh, rfl⟩
      obtain ⟨t, hs, he, rfl⟩ := days.instant_of hle hlow hhigh
      exact ⟨t, hs, he, days.localDate t⟩
    · rintro ⟨t, hs, he, rfl⟩
      exact ⟨days.number t, days.monotone _ _ hs, days.monotone _ _ he, (days.localDate t).symm⟩
  once := numbered_pairwise (fun i j hlt heq => absurd (days.day_injective heq) hlt.ne) _
  ascending := numbered_pairwise (r := fun date date' => lib.startOfDay timezone date < lib.startOfDay timezone date')
    (fun _ _ hlt => days.start_lt.mpr hlt) _

end Axis

/-! ### Counting along the axis -/

section Counting

theorem sum_ones {α : Type} (q : α → Bool) (l : List α) :
    (l.map fun a => if q a = true then 1 else 0).sum = (l.filter q).length := by
  induction l with
  | nil => rfl
  | cons a l ih =>
    rw [List.map_cons, List.sum_cons, ih]
    cases hq : q a with
    | true =>
      rw [List.filter_cons_of_pos hq, List.length_cons, if_pos rfl]
      omega
    | false => rw [List.filter_cons_of_neg (by simp [hq]), if_neg (by simp), Nat.zero_add]

theorem slaRate_mul {within total : ℕ} (h : within ≤ total) :
    slaRate within total / 100 * (total : ℚ) = (within : ℚ) := by
  unfold slaRate
  by_cases hpos : 0 < total
  · have hne : (total : ℚ) ≠ 0 := by exact_mod_cast hpos.ne'
    rw [if_pos hpos, mul_div_cancel_right₀ _ (by norm_num), div_mul_cancel₀ _ hne]
  · have hzero : within = 0 := by omega
    rw [if_neg hpos, hzero]
    norm_num

variable {α β γ ε : Type} {f : α → Except ε (Option β)} {rows : List α} {items : List β}

theorem length_filter_filterMapM (h : rows.filterMapM f = .ok items) (q : β → Bool) :
    (items.filter q).length = (rows.filter (holdsFor f q)).length := by
  induction rows generalizing items with
  | nil =>
    cases h
    rfl
  | cons a rows ih =>
    obtain ⟨o, items', ha, hrest, rfl⟩ := filterMapM_cons_ok h
    rw [List.filter_append, List.length_append, ih hrest]
    have hhead : holdsFor f q a = o.any q := by
      unfold holdsFor
      rw [ha]
      cases o <;> rfl
    cases o with
    | none => rw [List.filter_cons_of_neg (by simp [hhead])]; simp
    | some b =>
      rw [Option.any_some] at hhead
      cases hq : q b with
      | true =>
        rw [List.filter_cons_of_pos (hhead.trans hq), List.length_cons]
        simp [hq]
        omega
      | false =>
        rw [List.filter_cons_of_neg (by simp [hhead, hq])]
        simp [hq]

theorem onDate_eq (h : rows.filterMapM f = .ok items) {dateOf : α → Option String} {key : β → String}
    (hkey : ∀ r b, f r = .ok (some b) → dateOf r = some (key b)) (q : β → Bool) (date : String) :
    onDate rows dateOf (holdsFor f q) date = ((items.filter fun b => decide (key b = date)).filter q).length := by
  rw [List.filter_filter, length_filter_filterMapM h]
  refine congrArg List.length (List.filter_congr fun r _ => ?_)
  unfold holdsFor
  cases hr : f r with
  | error e => rfl
  | ok o =>
    cases o with
    | none => rfl
    | some b =>
      rw [hkey r b hr]
      simp

/-- A bucket with a counter of the counted items and one of the good ones among them. -/
structure Counters (empty : γ) (add : γ → β → γ) (total within : γ → ℕ) (counted good : β → Bool) : Prop where
  totalEmpty : total empty = 0
  withinEmpty : within empty = 0
  totalAdd : ∀ c b, total (add c b) = total c + if counted b = true then 1 else 0
  withinAdd : ∀ c b, within (add c b) = within c + if good b = true then 1 else 0
  le : ∀ b, good b = true → counted b = true

variable {empty : γ} {add : γ → β → γ} {total within : γ → ℕ} {counted good : β → Bool}

theorem Counters.total_gather (hc : Counters empty add total within counted good) (items : List β) (key : β → String)
    (date : String) :
    total ((gather empty add key items date).getD empty) =
      ((items.filter fun b => decide (key b = date)).filter counted).length := by
  rw [gather_measure hc.totalEmpty hc.totalAdd, sum_ones]

theorem Counters.within_gather (hc : Counters empty add total within counted good) (items : List β) (key : β → String)
    (date : String) :
    within ((gather empty add key items date).getD empty) =
      ((items.filter fun b => decide (key b = date)).filter good).length := by
  rw [gather_measure hc.withinEmpty hc.withinAdd, sum_ones]

/-- What a loop over the dates makes of the buckets. -/
def pointAt (total within : γ → ℕ) (bucket : γ) (date : String) : Point :=
  ⟨date, total bucket, slaRate (within bucket) (total bucket)⟩

def pointsOf (empty : γ) (total within : γ → ℕ) (byDate : String → Option γ) (dates : List String) : List Point :=
  dates.map fun date => pointAt total within ((byDate date).getD empty) date

variable (hitems : rows.filterMapM f = .ok items) {dateOf : α → Option String} {key : β → String}
  (hkey : ∀ r b, f r = .ok (some b) → dateOf r = some (key b)) {dates : List String}
  (hc : Counters empty add total within counted good)

include hitems hkey hc

theorem filed_of_buckets (hall : ∀ r ∈ rows, ∀ d, dateOf r = some d → d ∈ dates) :
    Filed rows dateOf (holdsFor f counted) (holdsFor f good)
      (pointsOf empty total within (gather empty add key items) dates) where
  bucket p hp := by
    obtain ⟨date, -, rfl⟩ := List.mem_map.mp hp
    have hcount := hc.total_gather items key date
    have hgood := hc.within_gather items key date
    rw [← onDate_eq hitems hkey] at hcount hgood
    exact ⟨hcount, congrArg (slaRate · (total ((gather empty add key items date).getD empty))) hgood⟩
  one r hr hcounted := by
    obtain ⟨b, hb⟩ : ∃ b, f r = .ok (some b) := by
      unfold holdsFor at hcounted
      split at hcounted
      · next b hb => exact ⟨b, hb⟩
      · cases hcounted
    have hdate := hkey r b hb
    refine ⟨_, ⟨List.mem_map_of_mem (hall r hr _ hdate), hdate⟩, ?_⟩
    rintro p ⟨hp, hpd⟩
    obtain ⟨date, -, rfl⟩ := List.mem_map.mp hp
    have heq : key b = date := Option.some.inj (hdate.symm.trans hpd)
    rw [heq]

theorem addUp_of_buckets (hnodup : dates.Nodup) (hall : ∀ r ∈ rows, ∀ d, dateOf r = some d → d ∈ dates) :
    AddUp rows dateOf (holdsFor f good) (pointsOf empty total within (gather empty add key items) dates)
      (items.filter counted).length (items.filter good).length := by
  have hmem : ∀ b ∈ items, key b ∈ dates := by
    intro b hb
    obtain ⟨r, hr, hrb⟩ := mem_filterMapM hitems hb
    exact hall r hr _ (hkey r b hrb)
  have hgood : (dates.map fun date => onDate rows dateOf (holdsFor f good) date).sum = (items.filter good).length := by
    simp only [onDate_eq hitems hkey, ← sum_ones]
    exact sum_buckets hnodup hmem
  refine ⟨?_, ?_, ?_⟩
  · rw [pointsOf, List.map_map, ← sum_ones, ← sum_buckets hnodup hmem]
    refine congrArg List.sum (List.map_congr_left fun date _ => ?_)
    rw [sum_ones]
    exact hc.total_gather items key date
  · rw [pointsOf, List.map_map]
    exact hgood
  · rw [← hgood, Nat.cast_list_sum, pointsOf, List.map_map, List.map_map]
    refine congrArg List.sum (List.map_congr_left fun date _ => ?_)
    have hle : within ((gather empty add key items date).getD empty) ≤
        total ((gather empty add key items date).getD empty) := by
      rw [hc.total_gather, hc.within_gather]
      simp only [← List.countP_eq_length_filter]
      exact List.countP_mono_left fun b _ => hc.le b
    have hwithin := hc.within_gather items key date
    rw [← onDate_eq hitems hkey] at hwithin
    exact (slaRate_mul hle).trans (congrArg Nat.cast hwithin)

end Counting

/-! ### The response trend -/

section Response

variable {lib : DateLib} {override : Option ℚ} {now : Instant}

theorem responseCounters : Counters ResponseBucket.empty
    (fun bucket (p : ResolvedEpisodeRow × EpisodeOutcome) => bucket.add p.2) (·.total) (·.withinSla)
    (fun p => p.2.isCountedInCompliance) (fun p => p.2.isCountedInCompliance && p.2.isWithinSla) where
  totalEmpty := rfl
  withinEmpty := rfl
  totalAdd bucket p := by
    unfold ResponseBucket.add
    cases p.2.isCountedInCompliance <;> rfl
  withinAdd bucket p := by
    unfold ResponseBucket.add
    cases p.2.isCountedInCompliance && p.2.isWithinSla <;> rfl
  le p h := (Bool.and_eq_true_iff.mp h).1

theorem rowOutcome_some {row : ResolvedEpisodeRow} {p : ResolvedEpisodeRow × EpisodeOutcome}
    (h : rowOutcome lib override now row = .ok (some p)) : p.1 = row := by
  obtain ⟨outcome, -, hp⟩ := ok_of_bind h
  obtain ⟨o, -, rfl⟩ := Option.map_eq_some_iff.mp (Except.ok.inj hp)
  rfl

theorem rowOutcome_ok_iff {row : ResolvedEpisodeRow} : (∃ o, rowOutcome lib override now row = .ok o) ↔
    ∃ outcome, computeEpisodeOutcome lib row override now = .ok outcome := by
  unfold rowOutcome
  cases computeEpisodeOutcome lib row override now with
  | error e => exact ⟨fun ⟨_, h⟩ => (by cases h), fun ⟨_, h⟩ => (by cases h)⟩
  | ok outcome => exact ⟨fun _ => ⟨outcome, rfl⟩, fun _ => ⟨_, rfl⟩⟩

theorem holdsFor_rowOutcome (q : EpisodeOutcome → Bool) (row : ResolvedEpisodeRow) :
    holdsFor (rowOutcome lib override now) (fun p => q p.2) row =
      holdsFor (fun row => computeEpisodeOutcome lib row override now) q row := by
  unfold holdsFor rowOutcome
  dsimp only
  cases computeEpisodeOutcome lib row override now with
  | error e => rfl
  | ok outcome => cases outcome <;> rfl

variable {rows : List ResolvedEpisodeRow} {currentPolicy : Option SlaCalendar} {startDate endDate : Instant} {fuel : ℕ}

theorem outcomes_length {outcomes : List EpisodeOutcome} {pairs : List (ResolvedEpisodeRow × EpisodeOutcome)}
    (ho : (rows.filterMapM fun row => computeEpisodeOutcome lib row override now) = .ok outcomes)
    (hp : rows.filterMapM (rowOutcome lib override now) = .ok pairs) (q : EpisodeOutcome → Bool) :
    (pairs.filter fun p => q p.2).length = (outcomes.filter q).length := by
  rw [length_filter_filterMapM ho, length_filter_filterMapM hp]
  exact congrArg List.length (List.filter_congr fun row _ => holdsFor_rowOutcome q row)

theorem getResponseTimeTrend_ok {trend : Option (List ResponseTimeByDate)}
    (h : getResponseTimeTrend lib fuel rows currentPolicy startDate endDate override now = .ok trend) :
    ∃ pairs, rows.filterMapM (rowOutcome lib override now) = .ok pairs ∧
      trend = (trendDates lib (reportingTimezone currentPolicy) fuel startDate endDate).map fun dates =>
        dates.map (responsePoint (gather .empty (fun bucket p => bucket.add p.2)
          (fun p => lib.localDate (reportingTimezone currentPolicy) p.1.inboundTime) pairs)) := by
  obtain ⟨byDate, hby, h⟩ := ok_of_bind h
  obtain ⟨pairs, hpairs, hby⟩ := ok_of_bind hby
  cases hby
  cases h
  exact ⟨pairs, hpairs, rfl⟩

theorem getResponseTimeTrend_of_pairs {pairs : List (ResolvedEpisodeRow × EpisodeOutcome)}
    (h : rows.filterMapM (rowOutcome lib override now) = .ok pairs) :
    getResponseTimeTrend lib fuel rows currentPolicy startDate endDate override now =
      .ok ((trendDates lib (reportingTimezone currentPolicy) fuel startDate endDate).map fun dates =>
        dates.map (responsePoint (gather .empty (fun bucket p => bucket.add p.2)
          (fun p => lib.localDate (reportingTimezone currentPolicy) p.1.inboundTime) pairs))) := by
  unfold getResponseTimeTrend responsesByDate
  rw [h]
  rfl

theorem responsePoint_point (byDate : String → Option ResponseBucket) (dates : List String) :
    (dates.map (responsePoint byDate)).map (·.point) =
      pointsOf ResponseBucket.empty (·.total) (·.withinSla) byDate dates := by
  rw [List.map_map]
  refine List.map_congr_left fun date _ => ?_
  unfold Function.comp ResponseTimeByDate.point responsePoint pointAt
  cases byDate date <;> rfl

theorem responsePoint_dates (byDate : String → Option ResponseBucket) (dates : List String) :
    (dates.map (responsePoint byDate)).map (·.date) = dates := by
  rw [List.map_map]
  exact List.map_id'' (fun _ => rfl) dates

variable (days : ReportingDays lib (reportingTimezone currentPolicy))

theorem trend_of_ok {trend : List ResponseTimeByDate}
    (h : getResponseTimeTrend lib fuel rows currentPolicy startDate endDate override now = .ok (some trend)) :
    ∃ pairs, rows.filterMapM (rowOutcome lib override now) = .ok pairs ∧
      trend.map (·.date) = numbered days.day (days.number startDate) (days.number endDate) ∧
      trend.map (·.point) = pointsOf ResponseBucket.empty (·.total) (·.withinSla)
        (gather .empty (fun bucket p => bucket.add p.2)
          (fun p => lib.localDate (reportingTimezone currentPolicy) p.1.inboundTime) pairs)
        (numbered days.day (days.number startDate) (days.number endDate)) := by
  obtain ⟨pairs, hpairs, htrend⟩ := getResponseTimeTrend_ok h
  obtain ⟨dates, hdates, rfl⟩ := Option.map_eq_some_iff.mp htrend.symm
  cases days.dates_eq hdates
  exact ⟨pairs, hpairs, responsePoint_dates _ _, responsePoint_point _ _⟩

theorem response_trend (hrange : ∀ row ∈ rows, startDate ≤ row.inboundTime ∧ row.inboundTime ≤ endDate) :
    ResponseTrend lib currentPolicy days rows startDate endDate override now := by
  have hkey : ∀ row p, rowOutcome lib override now row = .ok (some p) →
      some (lib.localDate (reportingTimezone currentPolicy) row.inboundTime) =
        some (lib.localDate (reportingTimezone currentPolicy) p.1.inboundTime) := by
    intro row p h
    rw [rowOutcome_some h]
  have hall : ∀ row ∈ rows, ∀ d, some (lib.localDate (reportingTimezone currentPolicy) row.inboundTime) = some d →
      d ∈ numbered days.day (days.number startDate) (days.number endDate) := by
    intro row hrow d hd
    obtain ⟨hlow, hhigh⟩ := hrange row hrow
    rw [← Option.some.inj hd]
    exact days.mem_dates hlow hhigh
  refine ⟨⟨?_, ?_⟩, ?_, ?_⟩
  · rintro ⟨stats, hstats⟩
    obtain ⟨outcomes, ho, -⟩ := getResponseTimeStats_ok hstats
    obtain ⟨pairs, hpairs⟩ : ∃ pairs, rows.filterMapM (rowOutcome lib override now) = .ok pairs :=
      filterMapM_ok_iff.mpr fun row hrow => rowOutcome_ok_iff.mpr (filterMapM_ok_iff.mp ⟨outcomes, ho⟩ row hrow)
    refine ⟨(days.number endDate + 1 - days.number startDate).toNat + 1, fun more hmore => ?_⟩
    rw [getResponseTimeTrend_of_pairs hpairs, days.dates_of_fuel (Nat.lt_of_succ_le hmore)]
    exact ⟨_, rfl⟩
  · rintro ⟨fuel, htrend⟩
    obtain ⟨trend, h⟩ := htrend fuel le_rfl
    obtain ⟨pairs, hpairs, -⟩ := getResponseTimeTrend_ok h
    obtain ⟨outcomes, ho⟩ : ∃ outcomes, (rows.filterMapM fun row => computeEpisodeOutcome lib row override now) =
        .ok outcomes :=
      filterMapM_ok_iff.mpr fun row hrow => rowOutcome_ok_iff.mp (filterMapM_ok_iff.mp ⟨pairs, hpairs⟩ row hrow)
    unfold getResponseTimeStats
    rw [ho]
    exact ⟨_, rfl⟩
  · intro fuel trend h
    obtain ⟨pairs, hpairs, hdates, hpoints⟩ := trend_of_ok days h
    rw [hdates, hpoints]
    exact ⟨days.onAxis startDate endDate, filed_of_buckets hpairs hkey responseCounters hall⟩
  · intro fuel trend stats h hstats
    obtain ⟨pairs, hpairs, -, hpoints⟩ := trend_of_ok days h
    obtain ⟨outcomes, ho, rfl⟩ := getResponseTimeStats_ok hstats
    have hadd := addUp_of_buckets hpairs hkey responseCounters (days.onAxis startDate endDate).once hall
    rw [outcomes_length ho hpairs fun o => o.isCountedInCompliance,
      outcomes_length ho hpairs fun o => o.isCountedInCompliance && o.isWithinSla] at hadd
    have hwithin : (outcomes.filter fun o => o.isCountedInCompliance && o.isWithinSla) =
        (outcomes.filter (·.isCountedInCompliance)).filter (·.isWithinSla) := by
      rw [List.filter_filter]
      exact List.filter_congr fun o _ => Bool.and_comm _ _
    rw [hwithin] at hadd
    rw [hpoints]
    exact hadd

end Response

/-! ### The resolution trend -/

section Resolution

variable {lib : DateLib} {row : ResolvedCaseRow}

theorem resolutionCounters : Counters ResolutionBucket.empty ResolutionBucket.add (·.total) (·.withinSla)
    (fun _ => true) (fun item => item.withinTarget) where
  totalEmpty := rfl
  withinEmpty := rfl
  totalAdd _ _ := rfl
  withinAdd bucket item := by
    unfold ResolutionBucket.add
    cases item.withinTarget <;> rfl
  le _ _ := rfl

theorem resolvedItem_some {item : ResolvedItem} (h : resolvedItem lib row = .ok (some item)) :
    row.resolvedAt = some item.resolvedAt := by
  unfold resolvedItem at h
  cases hat : row.resolvedAt with
  | none =>
    rw [hat] at h
    cases h
  | some resolvedAt =>
    rw [hat] at h
    obtain ⟨minutes, -, hitem⟩ := ok_of_bind h
    obtain ⟨m, -, rfl⟩ := Option.map_eq_some_iff.mp (Except.ok.inj hitem)
    rfl

theorem fetchResolved_mem {rows resolved : List ResolvedCaseRow} {startDate endDate : Instant}
    (h : fetchResolvedCasesInRange rows startDate endDate = .ok resolved) (hrow : row ∈ resolved) :
    row ∈ rows ∧ row.status = .resolved ∧ ∃ resolvedAt, row.resolvedAt = some resolvedAt ∧ startDate ≤ resolvedAt ∧
      resolvedAt ≤ endDate := by
  unfold fetchResolvedCasesInRange queryCasesWithPolicy at h
  dsimp only at h
  split_ifs at h
  cases h
  have hin := List.mem_of_mem_take hrow
  rw [List.mem_insertionSort, List.mem_filter, Bool.and_eq_true, decide_eq_true_eq, Option.any_eq_true] at hin
  obtain ⟨hmem, hstatus, resolvedAt, hat, hrange⟩ := hin
  rw [Bool.and_eq_true, decide_eq_true_eq, decide_eq_true_eq] at hrange
  exact ⟨hmem, hstatus, resolvedAt, hat, hrange.1, hrange.2⟩

theorem resolvedItem_of_minutes (hcalendar : row.calendar.isSome = true) (hstatus : row.status = .resolved)
    {resolvedAt : Instant} (hat : row.resolvedAt = some resolvedAt) {o : Option ℚ}
    (h : resolutionMinutes lib row = .ok o) :
    ∃ minutes, o = some minutes ∧ resolvedItem lib row = .ok (some ⟨row, resolvedAt, minutes⟩) := by
  obtain ⟨calendar, hcal⟩ := Option.isSome_iff_exists.mp hcalendar
  have hminutes := h
  unfold resolutionMinutes at h
  rw [hcal, hat] at h
  simp only [hstatus, if_true] at h
  obtain ⟨minutes, -, hm⟩ := ok_of_bind h
  cases hm
  refine ⟨minutes, rfl, ?_⟩
  unfold resolvedItem
  rw [hat, hminutes]
  rfl

theorem minutes_of_resolvedItem {resolvedAt : Instant} (hat : row.resolvedAt = some resolvedAt)
    {o : Option ResolvedItem} (h : resolvedItem lib row = .ok o) : ∃ m, resolutionMinutes lib row = .ok m := by
  unfold resolvedItem at h
  rw [hat] at h
  obtain ⟨minutes, hm, -⟩ := ok_of_bind h
  exact ⟨minutes, hm⟩

/-- The row, if it was resolved within its target. -/
def withinTargetRow (lib : DateLib) (row : ResolvedCaseRow) : Except MalformedCalendar (Option ResolvedCaseRow) := do
  pure ((← resolutionMinutes lib row).bind fun m => if m ≤ row.resolutionTargetMinutes then some row else none)

theorem within_eq (hcalendar : row.calendar.isSome = true) (hstatus : row.status = .resolved)
    {resolvedAt : Instant} (hat : row.resolvedAt = some resolvedAt) {o : Option ℚ}
    (h : resolutionMinutes lib row = .ok o) :
    holdsFor (withinTargetRow lib) (fun _ => true) row = withinCase lib row := by
  obtain ⟨minutes, rfl, hitem⟩ := resolvedItem_of_minutes hcalendar hstatus hat h
  have hrow : withinTargetRow lib row = .ok (if minutes ≤ row.resolutionTargetMinutes then some row else none) := by
    unfold withinTargetRow
    rw [h]
    rfl
  unfold holdsFor withinCase holdsFor ResolvedItem.withinTarget
  rw [hrow, hitem]
  by_cases hle : minutes ≤ row.resolutionTargetMinutes
  · rw [if_pos hle]
    exact (decide_eq_true hle).symm
  · rw [if_neg hle]
    exact (decide_eq_false hle).symm

variable {rows resolved : List ResolvedCaseRow} {startDate endDate now : Instant}

theorem getCaseResolutionStats_resolved {stats : CaseResolutionStats}
    (h : getCaseResolutionStats lib rows startDate endDate now = .ok stats) :
    ∃ resolved within, fetchResolvedCasesInRange rows startDate endDate = .ok resolved ∧
      (∀ row ∈ resolved, ∃ o, resolutionMinutes lib row = .ok o) ∧
      resolved.filterMapM (withinTargetRow lib) = .ok within ∧
      stats.overall.totalResolvedCases = resolved.length ∧ stats.overall.withinSlaCount = within.length := by
  obtain ⟨resolved, hfetch, h⟩ := ok_of_bind h
  obtain ⟨active, -, h⟩ := ok_of_bind h
  obtain ⟨overdueActive, -, h⟩ := ok_of_bind h
  obtain ⟨overall, hoverall, h⟩ := ok_of_bind h
  obtain ⟨direct, -, h⟩ := ok_of_bind h
  obtain ⟨group, -, h⟩ := ok_of_bind h
  cases h
  obtain ⟨durations, hdurations, hoverall⟩ := ok_of_bind (ok_of_orMalformed hoverall)
  obtain ⟨within, hwithin, hoverall⟩ := ok_of_bind hoverall
  cases hoverall
  exact ⟨resolved, within, hfetch, filterMapM_ok_iff.mp ⟨durations, hdurations⟩, hwithin, rfl, rfl⟩

variable {currentPolicy : Option SlaCalendar} {fuel : ℕ}

theorem getCaseResolutionTrend_of_items {items : List ResolvedItem}
    (hfetch : fetchResolvedCasesInRange rows startDate endDate = .ok resolved)
    (h : resolved.filterMapM (resolvedItem lib) = .ok items) :
    getCaseResolutionTrend lib fuel rows currentPolicy startDate endDate =
      .ok ((trendDates lib (reportingTimezone currentPolicy) fuel startDate endDate).map fun dates =>
        dates.map (resolutionPoint (gather .empty ResolutionBucket.add
          (fun item => lib.localDate (reportingTimezone currentPolicy) item.resolvedAt) items))) := by
  have hby : resolutionsByDate lib (reportingTimezone currentPolicy) resolved = .ok (gather .empty ResolutionBucket.add
      (fun item => lib.localDate (reportingTimezone currentPolicy) item.resolvedAt) items) := by
    unfold resolutionsByDate
    rw [h]
    rfl
  unfold getCaseResolutionTrend
  rw [hfetch]
  show (orMalformed (resolutionsByDate lib (reportingTimezone currentPolicy) resolved) >>= _) = _
  rw [hby]
  rfl

theorem resolutionPoint_point (byDate : String → Option ResolutionBucket) (dates : List String) :
    (dates.map (resolutionPoint byDate)).map (·.point) =
      pointsOf ResolutionBucket.empty (·.total) (·.withinSla) byDate dates := by
  rw [List.map_map]
  refine List.map_congr_left fun date _ => ?_
  unfold Function.comp CaseResolutionTrendPoint.point resolutionPoint pointAt
  cases byDate date <;> rfl

theorem resolutionPoint_dates (byDate : String → Option ResolutionBucket) (dates : List String) :
    (dates.map (resolutionPoint byDate)).map (·.date) = dates := by
  rw [List.map_map]
  exact List.map_id'' (fun _ => rfl) dates

variable (days : ReportingDays lib (reportingTimezone currentPolicy))

theorem caseTrend_of_ok {trend : List CaseResolutionTrendPoint}
    (h : getCaseResolutionTrend lib fuel rows currentPolicy startDate endDate = .ok (some trend)) :
    ∃ resolved items, fetchResolvedCasesInRange rows startDate endDate = .ok resolved ∧
      resolved.filterMapM (resolvedItem lib) = .ok items ∧
      trend.map (·.date) = numbered days.day (days.number startDate) (days.number endDate) ∧
      trend.map (·.point) = pointsOf ResolutionBucket.empty (·.total) (·.withinSla)
        (gather .empty ResolutionBucket.add
          (fun item => lib.localDate (reportingTimezone currentPolicy) item.resolvedAt) items)
        (numbered days.day (days.number startDate) (days.number endDate)) := by
  obtain ⟨resolved, hfetch, h⟩ := ok_of_bind h
  obtain ⟨byDate, hby, htrend⟩ := ok_of_bind h
  obtain ⟨items, hitems, hby⟩ := ok_of_bind (ok_of_orMalformed hby)
  cases hby
  obtain ⟨dates, hdates, rfl⟩ := Option.map_eq_some_iff.mp (Except.ok.inj htrend)
  cases days.dates_eq hdates
  exact ⟨resolved, items, hfetch, hitems, resolutionPoint_dates _ _, resolutionPoint_point _ _⟩

theorem resolved_dates (hfetch : fetchResolvedCasesInRange rows startDate endDate = .ok resolved) :
    (∀ row item, resolvedItem lib row = .ok (some item) →
      row.resolvedAt.map (lib.localDate (reportingTimezone currentPolicy)) =
        some (lib.localDate (reportingTimezone currentPolicy) item.resolvedAt)) ∧
      ∀ row ∈ resolved, ∀ d, row.resolvedAt.map (lib.localDate (reportingTimezone currentPolicy)) = some d →
        d ∈ numbered days.day (days.number startDate) (days.number endDate) := by
  constructor
  · intro row item h
    rw [resolvedItem_some h]
    rfl
  · intro row hrow d hd
    obtain ⟨-, -, resolvedAt, hat, hlow, hhigh⟩ := fetchResolved_mem hfetch hrow
    rw [hat] at hd
    rw [← Option.some.inj hd]
    exact days.mem_dates hlow hhigh

theorem resolution_trend (hcalendar : ∀ resolved, fetchResolvedCasesInRange rows startDate endDate = .ok resolved →
    ∀ row ∈ resolved, row.calendar.isSome = true) :
    ResolutionTrend lib currentPolicy days rows startDate endDate now where
  returns stats hstats := by
    obtain ⟨resolved, within, hfetch, hminutes, -⟩ := getCaseResolutionStats_resolved hstats
    obtain ⟨items, hitems⟩ : ∃ items, resolved.filterMapM (resolvedItem lib) = .ok items := by
      refine filterMapM_ok_iff.mpr fun row hrow => ?_
      obtain ⟨-, hstatus, resolvedAt, hat, -⟩ := fetchResolved_mem hfetch hrow
      obtain ⟨o, ho⟩ := hminutes row hrow
      obtain ⟨m, -, hitem⟩ := resolvedItem_of_minutes (hcalendar resolved hfetch row hrow) hstatus hat ho
      exact ⟨_, hitem⟩
    refine ⟨(days.number endDate + 1 - days.number startDate).toNat + 1, fun more hmore => ?_⟩
    rw [getCaseResolutionTrend_of_items hfetch hitems, days.dates_of_fuel (Nat.lt_of_succ_le hmore)]
    exact ⟨_, rfl⟩
  filed fuel trend h := by
    obtain ⟨resolved, items, hfetch, hitems, hdates, hpoints⟩ := caseTrend_of_ok days h
    obtain ⟨hkey, hall⟩ := resolved_dates days hfetch
    refine ⟨resolved, hfetch, ?_, fun row hrow => ?_, ?_⟩
    · rw [hdates]
      exact days.onAxis startDate endDate
    · obtain ⟨-, hstatus, resolvedAt, hat, -⟩ := fetchResolved_mem hfetch hrow
      obtain ⟨o, ho⟩ := filterMapM_ok_iff.mp ⟨items, hitems⟩ row hrow
      obtain ⟨m, hm⟩ := minutes_of_resolvedItem hat ho
      obtain ⟨minutes, -, hitem⟩ := resolvedItem_of_minutes (hcalendar resolved hfetch row hrow) hstatus hat hm
      unfold countedCase holdsFor
      rw [hitem]
    · rw [hpoints]
      exact filed_of_buckets hitems hkey resolutionCounters hall
  sums fuel trend stats h hstats := by
    obtain ⟨resolved, items, hfetch, hitems, -, hpoints⟩ := caseTrend_of_ok days h
    obtain ⟨resolved', within, hfetch', hminutes, hwithin, htotal, hcount⟩ := getCaseResolutionStats_resolved hstats
    cases hfetch.symm.trans hfetch'
    obtain ⟨hkey, hall⟩ := resolved_dates days hfetch
    have hadd := addUp_of_buckets hitems hkey resolutionCounters (days.onAxis startDate endDate).once hall
    have hrow : ∀ row ∈ resolved, holdsFor (resolvedItem lib) (fun _ => true) row = true ∧
        holdsFor (withinTargetRow lib) (fun _ => true) row = withinCase lib row := by
      intro row hrow
      obtain ⟨-, hstatus, resolvedAt, hat, -⟩ := fetchResolved_mem hfetch hrow
      obtain ⟨o, ho⟩ := hminutes row hrow
      have hcal := hcalendar resolved hfetch row hrow
      obtain ⟨minutes, -, hitem⟩ := resolvedItem_of_minutes hcal hstatus hat ho
      refine ⟨?_, within_eq hcal hstatus hat ho⟩
      unfold holdsFor
      rw [hitem]
    have hall' : (items.filter fun _ => true).length = resolved.length := by
      rw [length_filter_filterMapM hitems, List.filter_eq_self.mpr fun row hr => (hrow row hr).1]
    have hgood : (items.filter fun item => item.withinTarget).length = within.length := by
      have hw := length_filter_filterMapM hwithin fun _ => true
      rw [List.filter_true] at hw
      rw [hw, length_filter_filterMapM hitems]
      exact congrArg List.length (List.filter_congr fun row hr => (hrow row hr).2.symm)
    rw [hall', hgood, ← htotal, ← hcount] at hadd
    rw [hpoints]
    exact ⟨resolved, hfetch, hadd⟩

end Resolution

/-- **Trends conserve counts.**  For rows in the range, in a reporting time zone of monotone local dates, both trends have
every local day of the range once and in order, every counted row is in one bucket, and the counters of the buckets add
up to those of the summary. -/
theorem trends_conserve_counts (lib : DateLib) (currentPolicy : Option SlaCalendar)
    (days : ReportingDays lib (reportingTimezone currentPolicy)) (startDate endDate : Instant) (override : Option ℚ)
    (now : Instant) (rows : List ResolvedEpisodeRow) (caseRows : List ResolvedCaseRow)
    (hrange : ∀ row ∈ rows, startDate ≤ row.inboundTime ∧ row.inboundTime ≤ endDate)
    (hcalendar : ∀ resolved, fetchResolvedCasesInRange caseRows startDate endDate = .ok resolved →
      ∀ row ∈ resolved, row.calendar.isSome = true) :
    ResponseTrend lib currentPolicy days rows startDate endDate override now ∧
      ResolutionTrend lib currentPolicy days caseRows startDate endDate now :=
  ⟨response_trend days hrange, resolution_trend days hcalendar⟩

def utcReporting (timezone : String) : ReportingDays utc.toDateLib timezone where
  day := dateName
  number t := t / 86400000
  localDate _ := rfl
  monotone t t' h := Int.ediv_le_ediv (by decide) h
  next := dateName_next
  startOfDay n := by
    show dateNumber (dateName n) * 86400000 / 86400000 = n
    rw [dateNumber_dateName]
    omega

/-- Resolved ten minutes after the first midnight. -/
def resolvedCase : ResolvedCaseRow :=
  ⟨"k1", "c", none, .direct, .resolved, 0, some 600000, none, none, 30, some morningCalendar⟩

/-- A range over two local days. -/
theorem trends_conserve_counts_two_days :
    ResponseTrend utc.toDateLib (some morningCalendar) (utcReporting _) [waitingRow 5, waitingRow 4] 0 86400000 none 600000 ∧
      ResolutionTrend utc.toDateLib (some morningCalendar) (utcReporting _) [resolvedCase] 0 86400000 600000 := by
  refine trends_conserve_counts utc.toDateLib (some morningCalendar) (utcReporting _) 0 86400000 none 600000 _ _ ?_ ?_
  · decide
  · intro resolved hfetch row hrow
    cases List.mem_singleton.mp (fetchResolved_mem hfetch hrow).1
    rfl

end TeamInbox.Sla
