import TeamInbox.Sla.Episodes

/-!
# TeamInbox.Sla.Statistics — counters and breach lists

The summary counts outcomes, the breach list walks the same rows once more; the case statistics test
active cases with an early exit, the work queue of overdue cases without.  The counters agree since each row is
classified in the same way by both.
-/

namespace TeamInbox.Sla

open TeamInbox.Lib TeamInbox.Cases

/-! ### Figures -/

def average (values : List ℚ) : ℚ := if values.isEmpty then 0 else values.sum / values.length

def median (values : List ℚ) : ℚ :=
  let sorted := values.insertionSort (· ≤ ·)
  if values.isEmpty then 0
  else (sorted.getD ((sorted.length - 1) / 2) 0 + sorted.getD (sorted.length / 2) 0) / 2

def slaRate (within total : ℕ) : ℚ := if 0 < total then (within : ℚ) / total * 100 else 0

/-! ### Response times -/

structure ResponseTimeStatsCore where
  averageResponseTimeMinutes : ℚ
  medianResponseTimeMinutes : ℚ
  maxResponseTimeMinutes : ℚ
  minResponseTimeMinutes : ℚ
  totalConversations : ℕ
  withinSlaCount : ℕ
  slaComplianceRate : ℚ
  excludedCount : ℕ
  deriving DecidableEq

structure ResponseTimeStats where
  overall : ResponseTimeStatsCore
  direct : ResponseTimeStatsCore
  group : ResponseTimeStatsCore
  deriving DecidableEq

structure SlaBreach where
  contactID : Uuid
  contactName : Option String
  inboundMessageTime : Instant
  responseTime : Option Instant
  responseMinutes : ℚ
  respondedBy : Option Uuid
  deriving DecidableEq

namespace EpisodeOutcome

def isCountedInCompliance (o : EpisodeOutcome) : Bool :=
  if o.exclusionOutcome.isSome then false else o.responseTime.isSome || o.isOverdueUnanswered

def isWithinSla (o : EpisodeOutcome) : Bool :=
  o.responseMinutes.any fun m => decide (m ≤ o.effectiveTargetMinutes)

def isAnsweredBreach (o : EpisodeOutcome) : Bool :=
  o.responseTime.isSome && o.responseMinutes.any fun m => decide (o.effectiveTargetMinutes < m)

def isUnansweredBreach (o : EpisodeOutcome) : Bool :=
  o.responseTime.isNone && o.isOverdueUnanswered && o.exclusionOutcome.isNone

def isBreach (o : EpisodeOutcome) : Bool := o.isAnsweredBreach || o.isUnansweredBreach

/-- Unanswered in an open case, and not above the target yet. -/
def stillPending (o : EpisodeOutcome) : Bool :=
  !o.isTerminal && o.responseTime.isNone && !o.isOverdueUnanswered && o.exclusionOutcome.isNone

end EpisodeOutcome

def computeStatsForOutcomes (outcomes : List EpisodeOutcome) : ResponseTimeStatsCore :=
  let complianceSet := outcomes.filter (·.isCountedInCompliance)
  let answeredMinutes := outcomes.filterMap (·.responseMinutes)
  let withinSlaCount := (complianceSet.filter (·.isWithinSla)).length
  { averageResponseTimeMinutes := average answeredMinutes
    medianResponseTimeMinutes := median answeredMinutes
    maxResponseTimeMinutes := answeredMinutes.max?.getD 0
    minResponseTimeMinutes := answeredMinutes.min?.getD 0
    totalConversations := complianceSet.length
    withinSlaCount := withinSlaCount
    slaComplianceRate := slaRate withinSlaCount complianceSet.length
    excludedCount := (outcomes.filter (·.exclusionOutcome.isSome)).length }

section Response

variable (lib : DateLib)

/-- `rows` are the episodes fetched for the range. -/
def getResponseTimeStats (rows : List ResolvedEpisodeRow) (targetOverrideMinutes : Option ℚ) (now : Instant) :
    Except MalformedCalendar ResponseTimeStats := do
  let outcomes ← rows.filterMapM fun row => computeEpisodeOutcome lib row targetOverrideMinutes now
  pure {
    overall := computeStatsForOutcomes outcomes
    direct := computeStatsForOutcomes (outcomes.filter (·.caseKind = .direct))
    group := computeStatsForOutcomes (outcomes.filter (·.caseKind = .group)) }

def breachEntry (row : ResolvedEpisodeRow) (responseMinutes : ℚ) : SlaBreach where
  contactID := row.contactID
  contactName := row.contactName
  inboundMessageTime := row.displayInboundTime
  responseTime := row.displayResponseTime
  responseMinutes := responseMinutes
  respondedBy := row.respondedBy

def breachOf (targetOverrideMinutes : Option ℚ) (now : Instant) (row : ResolvedEpisodeRow) :
    Except MalformedCalendar (Option SlaBreach) := do
  match ← computeEpisodeOutcome lib row targetOverrideMinutes now with
  | none => pure none
  | some outcome =>
    if outcome.isBreach then do
      let responseMinutes ← if outcome.isAnsweredBreach then pure (outcome.responseMinutes.getD 0)
        else computeExactPendingBusinessMinutes lib row now
      pure (some (breachEntry row responseMinutes))
    else pure none

def getSlaBreaches (rows : List ResolvedEpisodeRow) (targetOverrideMinutes : Option ℚ) (now : Instant)
    (limit : ℕ) : Except MalformedCalendar (List SlaBreach) := do
  let breaches ← rows.filterMapM (breachOf lib targetOverrideMinutes now)
  pure ((breaches.insertionSort fun a b => b.responseMinutes ≤ a.responseMinutes).take limit)

end Response

/-! ### Case resolution -/

structure ResolvedCaseRow where
  caseID : Uuid
  contactID : Uuid
  contactName : Option String
  kind : CaseKind
  status : CaseStatus
  openedAt : Instant
  resolvedAt : Option Instant
  resolvedBy : Option Uuid
  resolutionOutcome : Option ResolutionOutcome
  resolutionTargetMinutes : ℚ
  calendar : Option SlaCalendar
  deriving DecidableEq

/-- `MAX_CASES_PER_QUERY`. -/
def maxCasesPerQuery : ℕ := 5000

def queryCasesWithPolicy (rows : List ResolvedCaseRow) (p : ResolvedCaseRow → Bool) :
    Except AnalyticsError (List ResolvedCaseRow) :=
  let found := ((rows.filter p).insertionSort fun r s => s.openedAt ≤ r.openedAt).take (maxCasesPerQuery + 1)
  if maxCasesPerQuery < found.length then .error (.rangeTooWide maxCasesPerQuery) else .ok found

def fetchResolvedCasesInRange (rows : List ResolvedCaseRow) (startDate endDate : Instant) :
    Except AnalyticsError (List ResolvedCaseRow) :=
  queryCasesWithPolicy rows fun r => decide (r.status = .resolved) &&
    r.resolvedAt.any fun at_ => decide (startDate ≤ at_) && decide (at_ ≤ endDate)

/-- `status IN ('open', 'pending')`. -/
def fetchActiveCases (rows : List ResolvedCaseRow) : Except AnalyticsError (List ResolvedCaseRow) :=
  queryCasesWithPolicy rows (·.status.active)

structure CaseResolutionStatsCore where
  totalResolvedCases : ℕ
  averageResolutionMinutes : ℚ
  medianResolutionMinutes : ℚ
  withinSlaCount : ℕ
  totalEvaluated : ℕ
  slaComplianceRate : ℚ
  overdueActiveCases : ℕ
  deriving DecidableEq

structure CaseResolutionStats where
  overall : CaseResolutionStatsCore
  direct : CaseResolutionStatsCore
  group : CaseResolutionStatsCore
  deriving DecidableEq

structure OverdueCase where
  caseID : Uuid
  contactID : Uuid
  contactName : Option String
  kind : CaseKind
  status : CaseStatus
  openedAt : Instant
  elapsedMinutes : ℚ
  resolutionTargetMinutes : ℚ
  deriving DecidableEq

def orMalformed {α : Type} : Except MalformedCalendar α → Except AnalyticsError α
  | .ok a => .ok a
  | .error e => .error (.malformed e)

section Resolution

variable (lib : DateLib)

def resolutionMinutes (row : ResolvedCaseRow) : Except MalformedCalendar (Option ℚ) :=
  match row.calendar, row.resolvedAt with
  | some calendar, some resolvedAt =>
    if row.status = .resolved then do
      let minutes ← businessMinutesBetween lib calendar row.openedAt resolvedAt none
      pure (some minutes)
    else pure none
  | _, _ => pure none

def isOverdueActive (now : Instant) (row : ResolvedCaseRow) : Except MalformedCalendar Bool :=
  match row.calendar with
  | none => pure false
  | some calendar =>
    if row.status = .resolved then pure false
    else do
      let elapsed ← businessMinutesBetween lib calendar row.openedAt now
        (some (row.resolutionTargetMinutes + overdueStrictEpsilonMinutes))
      pure (decide (row.resolutionTargetMinutes < elapsed))

def statsForRows (resolved overdueActive : List ResolvedCaseRow) :
    Except MalformedCalendar CaseResolutionStatsCore := do
  let durations ← resolved.filterMapM (resolutionMinutes lib)
  let withinSla ← resolved.filterMapM fun row => do
    pure ((← resolutionMinutes lib row).bind fun m =>
      if m ≤ row.resolutionTargetMinutes then some row else none)
  let totalEvaluated := resolved.length + overdueActive.length
  pure {
    totalResolvedCases := resolved.length
    averageResolutionMinutes := average durations
    medianResolutionMinutes := median durations
    withinSlaCount := withinSla.length
    totalEvaluated := totalEvaluated
    slaComplianceRate := slaRate withinSla.length totalEvaluated
    overdueActiveCases := overdueActive.length }

def overdueRow (now : Instant) (row : ResolvedCaseRow) : Except MalformedCalendar (Option ResolvedCaseRow) := do
  pure (if ← isOverdueActive lib now row then some row else none)

def getCaseResolutionStats (rows : List ResolvedCaseRow) (startDate endDate now : Instant) :
    Except AnalyticsError CaseResolutionStats := do
  let resolved ← fetchResolvedCasesInRange rows startDate endDate
  let active ← fetchActiveCases rows
  let overdueActive ← orMalformed (active.filterMapM (overdueRow lib now))
  let overall ← orMalformed (statsForRows lib resolved overdueActive)
  let direct ← orMalformed (statsForRows lib (resolved.filter (·.kind = .direct))
    (overdueActive.filter (·.kind = .direct)))
  let group ← orMalformed (statsForRows lib (resolved.filter (·.kind = .group))
    (overdueActive.filter (·.kind = .group)))
  pure ⟨overall, direct, group⟩

/-- The entry of an active case, if it is overdue. -/
def overdueCase (now : Instant) (row : ResolvedCaseRow) : Except MalformedCalendar (Option OverdueCase) :=
  match row.calendar with
  | none => pure none
  | some calendar => do
    let elapsedMinutes ← businessMinutesBetween lib calendar row.openedAt now none
    pure (if elapsedMinutes ≤ row.resolutionTargetMinutes then none
      else some ⟨row.caseID, row.contactID, row.contactName, row.kind, row.status, row.openedAt,
        elapsedMinutes, row.resolutionTargetMinutes⟩)

def getOverdueActiveCases (rows : List ResolvedCaseRow) (now : Instant) (limit : ℕ) :
    Except AnalyticsError (List OverdueCase) := do
  let active ← fetchActiveCases rows
  let overdue ← orMalformed (active.filterMapM (overdueCase lib now))
  pure ((overdue.insertionSort fun a b => b.elapsedMinutes ≤ a.elapsedMinutes).take limit)

end Resolution

/-! ### What is claimed -/

structure EpisodesAgree (lib : DateLib) (rows : List ResolvedEpisodeRow) (override : Option ℚ) (now : Instant) :
    Prop where
  breaches : ∀ stats, getResponseTimeStats lib rows override now = .ok stats → ∀ limit, rows.length ≤ limit →
    ∃ list, getSlaBreaches lib rows override now limit = .ok list ∧
      list.length + stats.overall.withinSlaCount = stats.overall.totalConversations
  /-- One pass fails exactly if the other does. -/
  failing : ∀ limit, (∃ stats, getResponseTimeStats lib rows override now = .ok stats) ↔
    ∃ list, getSlaBreaches lib rows override now limit = .ok list
  kinds : ∀ stats, getResponseTimeStats lib rows override now = .ok stats →
    stats.direct.totalConversations + stats.group.totalConversations = stats.overall.totalConversations ∧
      stats.direct.withinSlaCount + stats.group.withinSlaCount = stats.overall.withinSlaCount ∧
      stats.direct.excludedCount + stats.group.excludedCount = stats.overall.excludedCount
  classified : ∀ row ∈ rows, row.policy.isSome = true → ∀ outcome,
    computeEpisodeOutcome lib row override now = .ok outcome → ∃ o, outcome = some o ∧
      [o.isCountedInCompliance && o.isWithinSla, o.isBreach, o.exclusionOutcome.isSome, o.stillPending].count
        true = 1
  earlyExit : ∀ row ∈ rows, ∀ policy, row.policy = some policy → row.responseTime = none →
    row.caseResolvedAt = none → ∀ o, computeEpisodeOutcome lib row override now = .ok (some o) →
    ∃ full, businessMinutesBetween lib policy.calendar row.inboundTime now none = .ok full ∧
      (o.isOverdueUnanswered = true ↔ override.getD policy.targetMinutes < full)

structure CasesAgree (lib : DateLib) (rows : List ResolvedCaseRow) (startDate endDate now : Instant) : Prop where
  overdue : ∀ stats, getCaseResolutionStats lib rows startDate endDate now = .ok stats →
    ∀ limit, rows.length ≤ limit → ∃ list, getOverdueActiveCases lib rows now limit = .ok list ∧
      list.length = stats.overall.overdueActiveCases
  earlyExit : ∀ row ∈ rows, ∀ calendar, row.calendar = some calendar → row.status.active = true →
    ∀ late, isOverdueActive lib now row = .ok late →
    ∃ full, businessMinutesBetween lib calendar row.openedAt now none = .ok full ∧
      (late = true ↔ row.resolutionTargetMinutes < full)

/-! ### Two passes over a list -/

section Passes

variable {α β γ ε ε' : Type} {f : α → Except ε (Option β)} {g : α → Except ε' (Option γ)} {l : List α}

theorem filterMapM_cons_ok {x : α} {ys : List β} (h : (x :: l).filterMapM f = .ok ys) :
    ∃ o ys', f x = .ok o ∧ l.filterMapM f = .ok ys' ∧ ys = o.toList ++ ys' := by
  rw [List.filterMapM_cons] at h
  cases hx : f x with
  | error e =>
    rw [hx] at h
    cases h
  | ok o =>
    rw [hx] at h
    cases o with
    | none => exact ⟨none, ys, rfl, h, rfl⟩
    | some b =>
      cases hl : l.filterMapM f with
      | error e =>
        simp only [hl] at h
        cases h
      | ok ys' =>
        simp only [hl] at h
        cases h
        exact ⟨some b, ys', rfl, rfl, rfl⟩

theorem filterMapM_cons_of_ok {x : α} {o : Option β} {ys : List β} (hx : f x = .ok o)
    (hl : l.filterMapM f = .ok ys) : (x :: l).filterMapM f = .ok (o.toList ++ ys) := by
  rw [List.filterMapM_cons, hx]
  cases o with
  | none => exact hl
  | some b =>
    show (do pure (b :: (← l.filterMapM f)) : Except ε (List β)) = _
    rw [hl]
    rfl

/-- If the second pass keeps a row exactly when the first does and `q` holds, it returns as many entries
as the first has with `q`. -/
theorem sameLength {q : β → Bool} (h : ∀ x ∈ l, ∀ o, f x = .ok o → ∃ o', g x = .ok o' ∧ o'.isSome = o.any q)
    {ys : List β} (hl : l.filterMapM f = .ok ys) :
    ∃ zs, l.filterMapM g = .ok zs ∧ zs.length = (ys.filter q).length := by
  induction l generalizing ys with
  | nil =>
    cases hl
    exact ⟨[], rfl, rfl⟩
  | cons x xs ih =>
    obtain ⟨o, ys', hx, hxs, rfl⟩ := filterMapM_cons_ok hl
    obtain ⟨o', hgx, hkeep⟩ := h x List.mem_cons_self o hx
    obtain ⟨zs, hzs, hlen⟩ := ih (fun y hy => h y (List.mem_cons_of_mem x hy)) hxs
    refine ⟨o'.toList ++ zs, filterMapM_cons_of_ok hgx hzs, ?_⟩
    have hhead : o'.toList.length = (o.toList.filter q).length := by
      cases o with
      | none =>
        cases o' with
        | none => rfl
        | some c => cases hkeep
      | some b =>
        cases o' with
        | none =>
          have hq : q b = false := hkeep.symm
          simp [hq]
        | some c =>
          have hq : q b = true := hkeep.symm
          simp [hq]
    rw [List.length_append, List.filter_append, List.length_append, hhead, hlen]

theorem length_filterMapM_le {ys : List β} (h : l.filterMapM f = .ok ys) : ys.length ≤ l.length := by
  induction l generalizing ys with
  | nil =>
    cases h
    exact le_rfl
  | cons x xs ih =>
    obtain ⟨o, ys', -, hxs, rfl⟩ := filterMapM_cons_ok h
    have hhead : o.toList.length ≤ 1 := by
      cases o with
      | none => exact Nat.zero_le 1
      | some b => exact le_rfl
    have := ih hxs
    rw [List.length_append, List.length_cons]
    omega

theorem mem_filterMapM {ys : List β} (h : l.filterMapM f = .ok ys) {y : β} (hy : y ∈ ys) :
    ∃ x ∈ l, f x = .ok (some y) := by
  induction l generalizing ys with
  | nil =>
    cases h
    cases hy
  | cons x xs ih =>
    obtain ⟨o, ys', hx, hxs, rfl⟩ := filterMapM_cons_ok h
    rcases List.mem_append.mp hy with hy | hy
    · rw [Option.mem_toList] at hy
      exact ⟨x, List.mem_cons_self, hy ▸ hx⟩
    · obtain ⟨x', hx', hf⟩ := ih hxs hy
      exact ⟨x', List.mem_cons_of_mem x hx', hf⟩

theorem filterMapM_ok_iff : (∃ ys, l.filterMapM f = .ok ys) ↔ ∀ x ∈ l, ∃ o, f x = .ok o := by
  induction l with
  | nil => exact ⟨fun _ x hx => absurd hx List.not_mem_nil, fun _ => ⟨[], rfl⟩⟩
  | cons x xs ih =>
    constructor
    · rintro ⟨ys, hys⟩ y hy
      obtain ⟨o, ys', hx, hxs, -⟩ := filterMapM_cons_ok hys
      rcases List.mem_cons.mp hy with rfl | hy
      · exact ⟨o, hx⟩
      · exact ih.mp ⟨ys', hxs⟩ y hy
    · intro h
      obtain ⟨o, hx⟩ := h x List.mem_cons_self
      obtain ⟨ys, hxs⟩ := ih.mpr fun y hy => h y (List.mem_cons_of_mem x hy)
      exact ⟨_, filterMapM_cons_of_ok hx hxs⟩

end Passes

/-! ### Outcomes -/

section Classes

variable {lib : DateLib} {row : ResolvedEpisodeRow} {override : Option ℚ} {now : Instant} {o : EpisodeOutcome}

theorem classified_one (h : computeEpisodeOutcome lib row override now = .ok (some o)) :
    [o.isCountedInCompliance && o.isWithinSla, o.isBreach, o.exclusionOutcome.isSome, o.stillPending].count
      true = 1 := by
  obtain ⟨policy, -, -, -, hterminal, -, ha | hu⟩ := outcome_cases h
  · obtain ⟨m, hm⟩ := ha.minutes
    have hsome := ha.time.1
    have hnone : o.responseTime.isNone = false := by
      rw [← Option.not_isSome, hsome]
      rfl
    simp only [EpisodeOutcome.isCountedInCompliance, EpisodeOutcome.isWithinSla, EpisodeOutcome.isBreach,
      EpisodeOutcome.isAnsweredBreach, EpisodeOutcome.isUnansweredBreach, EpisodeOutcome.stillPending,
      ha.exclusion, hsome, hnone, hm, Option.any_some]
    by_cases hle : m ≤ o.effectiveTargetMinutes
    · simp [hle, not_lt.mpr hle]
    · simp [hle, not_le.mp hle]
  · have htime := hu.time.1
    simp only [EpisodeOutcome.isCountedInCompliance, EpisodeOutcome.isWithinSla, EpisodeOutcome.isBreach,
      EpisodeOutcome.isAnsweredBreach, EpisodeOutcome.isUnansweredBreach, EpisodeOutcome.stillPending,
      htime, hu.minutes]
    cases hexcl : o.exclusionOutcome with
    | some e => simp
    | none =>
      cases hoverdue : o.isOverdueUnanswered with
      | true => simp
      | false =>
        -- a closed case without an excuse is overdue
        have hopen : o.isTerminal = false := by
          by_contra hclosed
          have hd := hu.overdue
          rw [← hterminal, if_pos (by simpa using hclosed), ← hu.exclusion, hexcl, hoverdue] at hd
          cases hd
        simp [hopen]

theorem counted_split (h : computeEpisodeOutcome lib row override now = .ok (some o)) :
    (if o.isCountedInCompliance = true then 1 else 0) =
      (if o.isBreach = true then 1 else 0) +
        if (o.isWithinSla && o.isCountedInCompliance) = true then 1 else 0 := by
  obtain ⟨policy, -, -, -, -, -, ha | hu⟩ := outcome_cases h
  · obtain ⟨m, hm⟩ := ha.minutes
    have hsome := ha.time.1
    have hnone : o.responseTime.isNone = false := by
      rw [← Option.not_isSome, hsome]
      rfl
    simp only [EpisodeOutcome.isCountedInCompliance, EpisodeOutcome.isWithinSla, EpisodeOutcome.isBreach,
      EpisodeOutcome.isAnsweredBreach, EpisodeOutcome.isUnansweredBreach, ha.exclusion, hsome, hnone, hm,
      Option.any_some]
    by_cases hle : m ≤ o.effectiveTargetMinutes
    · simp [hle, not_lt.mpr hle]
    · simp [hle, not_le.mp hle]
  · simp only [EpisodeOutcome.isCountedInCompliance, EpisodeOutcome.isWithinSla, EpisodeOutcome.isBreach,
      EpisodeOutcome.isAnsweredBreach, EpisodeOutcome.isUnansweredBreach, hu.time.1, hu.minutes]
    cases o.exclusionOutcome with
    | some e => simp
    | none => simp

theorem breachOf_ok {outcome : Option EpisodeOutcome}
    (h : computeEpisodeOutcome lib row override now = .ok outcome) :
    ∃ b, breachOf lib override now row = .ok b ∧ b.isSome = outcome.any (·.isBreach) := by
  unfold breachOf
  rw [h]
  cases outcome with
  | none => exact ⟨none, rfl, rfl⟩
  | some o =>
    obtain ⟨policy, hpolicy, -, -, -, ⟨exit, stop, m, hm⟩, -⟩ := outcome_cases h
    obtain ⟨minutes, hminutes⟩ : ∃ m, computeExactPendingBusinessMinutes lib row now = .ok m := by
      unfold computeExactPendingBusinessMinutes
      rw [hpolicy]
      exact businessMinutesBetween_shape hm _ _ _
    show ∃ b, (if o.isBreach = true then _ else _) = Except.ok b ∧ _
    by_cases hbreach : o.isBreach = true
    · rw [if_pos hbreach]
      by_cases hanswered : o.isAnsweredBreach = true
      · refine ⟨some (breachEntry row (o.responseMinutes.getD 0)), ?_, hbreach.symm⟩
        simp only [hanswered, if_true]
        rfl
      · refine ⟨some (breachEntry row minutes), ?_, hbreach.symm⟩
        simp only [hanswered, hminutes]
        rfl
    · rw [if_neg hbreach]
      exact ⟨none, rfl, by simpa using hbreach⟩

theorem compute_ok_of_breachOf {b : Option SlaBreach} (h : breachOf lib override now row = .ok b) :
    ∃ outcome, computeEpisodeOutcome lib row override now = .ok outcome := by
  unfold breachOf at h
  cases hc : computeEpisodeOutcome lib row override now with
  | error e =>
    rw [hc] at h
    cases h
  | ok outcome => exact ⟨outcome, rfl⟩

end Classes

/-! ### Counters -/

section Counters

theorem counted_length (outcomes : List EpisodeOutcome)
    (h : ∀ o ∈ outcomes, (if o.isCountedInCompliance = true then 1 else 0) =
      (if o.isBreach = true then 1 else 0) +
        if (o.isWithinSla && o.isCountedInCompliance) = true then 1 else 0) :
    (outcomes.filter (·.isCountedInCompliance)).length = (outcomes.filter (·.isBreach)).length +
      ((outcomes.filter (·.isCountedInCompliance)).filter (·.isWithinSla)).length := by
  rw [List.filter_filter]
  simp only [← List.countP_eq_length_filter]
  induction outcomes with
  | nil => rfl
  | cons o rest ih =>
    have hrest := ih fun o' ho' => h o' (List.mem_cons_of_mem o ho')
    have ho := h o List.mem_cons_self
    simp only [List.countP_cons]
    omega

theorem kinds_length (outcomes : List EpisodeOutcome) (q : EpisodeOutcome → Bool) :
    ((outcomes.filter (·.caseKind = .direct)).filter q).length +
      ((outcomes.filter (·.caseKind = .group)).filter q).length = (outcomes.filter q).length := by
  simp only [List.filter_filter, ← List.countP_eq_length_filter]
  induction outcomes with
  | nil => rfl
  | cons o rest ih =>
    have hkind : (if (q o && decide (o.caseKind = .direct)) = true then 1 else 0) +
        (if (q o && decide (o.caseKind = .group)) = true then 1 else 0) = if q o = true then 1 else 0 := by
      cases o.caseKind <;> simp
    simp only [List.countP_cons]
    omega

variable {lib : DateLib} {rows : List ResolvedEpisodeRow} {override : Option ℚ} {now : Instant}

theorem getResponseTimeStats_ok {stats : ResponseTimeStats}
    (h : getResponseTimeStats lib rows override now = .ok stats) :
    ∃ outcomes, (rows.filterMapM fun row => computeEpisodeOutcome lib row override now) = .ok outcomes ∧
      stats = ⟨computeStatsForOutcomes outcomes, computeStatsForOutcomes (outcomes.filter (·.caseKind = .direct)),
        computeStatsForOutcomes (outcomes.filter (·.caseKind = .group))⟩ := by
  unfold getResponseTimeStats at h
  cases ho : rows.filterMapM fun row => computeEpisodeOutcome lib row override now with
  | error e =>
    rw [ho] at h
    cases h
  | ok outcomes =>
    rw [ho] at h
    cases h
    exact ⟨outcomes, rfl, rfl⟩

theorem sorted_take_length {α : Type} {r : α → α → Prop} [DecidableRel r] {l : List α} {limit : ℕ}
    (h : l.length ≤ limit) : ((l.insertionSort r).take limit).length = l.length := by
  rw [List.length_take, List.length_insertionSort]
  omega

theorem episodes_agree (lib : DateLib) (rows : List ResolvedEpisodeRow) (override : Option ℚ) (now : Instant) :
    EpisodesAgree lib rows override now where
  breaches stats hstats limit hlimit := by
    obtain ⟨outcomes, ho, rfl⟩ := getResponseTimeStats_ok hstats
    obtain ⟨list, hlist, hlen⟩ := sameLength (fun row _ outcome h => breachOf_ok h) ho
    have hbound : list.length ≤ limit := (length_filterMapM_le hlist).trans hlimit
    refine ⟨_, by rw [getSlaBreaches, hlist]; rfl, ?_⟩
    have hcount := counted_length outcomes fun o hin => by
      obtain ⟨row, -, hrow⟩ := mem_filterMapM ho hin
      exact counted_split hrow
    rw [sorted_take_length hbound, hlen]
    exact hcount.symm
  failing limit := by
    have hstats : (∃ stats, getResponseTimeStats lib rows override now = .ok stats) ↔
        ∃ os, (rows.filterMapM fun row => computeEpisodeOutcome lib row override now) = .ok os := by
      constructor
      · rintro ⟨stats, h⟩
        obtain ⟨outcomes, ho, -⟩ := getResponseTimeStats_ok h
        exact ⟨outcomes, ho⟩
      · rintro ⟨os, h⟩
        exact ⟨_, by rw [getResponseTimeStats, h]; rfl⟩
    have hlist : (∃ list, getSlaBreaches lib rows override now limit = .ok list) ↔
        ∃ bs, rows.filterMapM (breachOf lib override now) = .ok bs := by
      unfold getSlaBreaches
      cases rows.filterMapM (breachOf lib override now) with
      | error e => exact ⟨fun ⟨_, h⟩ => (by cases h), fun ⟨_, h⟩ => (by cases h)⟩
      | ok bs => exact ⟨fun _ => ⟨bs, rfl⟩, fun _ => ⟨_, rfl⟩⟩
    rw [hstats, hlist, filterMapM_ok_iff, filterMapM_ok_iff]
    constructor
    · intro h row hrow
      obtain ⟨outcome, ho⟩ := h row hrow
      obtain ⟨b, hb, -⟩ := breachOf_ok ho
      exact ⟨b, hb⟩
    · intro h row hrow
      obtain ⟨b, hb⟩ := h row hrow
      exact compute_ok_of_breachOf hb
  kinds stats hstats := by
    obtain ⟨outcomes, -, rfl⟩ := getResponseTimeStats_ok hstats
    refine ⟨kinds_length _ _, ?_, kinds_length _ _⟩
    have hwithin := kinds_length outcomes fun o => o.isWithinSla && o.isCountedInCompliance
    simp only [computeStatsForOutcomes, List.filter_filter, Bool.and_assoc] at hwithin ⊢
    exact hwithin
  classified row hrow hpolicy outcome ho := by
    cases outcome with
    | some o => exact ⟨o, rfl, classified_one ho⟩
    | none =>
      rw [outcome_none ho] at hpolicy
      cases hpolicy
  earlyExit row hrow policy hpolicy hresponse hopen o ho := by
    obtain ⟨policy', hpolicy', htarget, -, -, -, ha | hu⟩ := outcome_cases ho
    · have hsome := ha.time.1
      rw [ha.time.2, hresponse] at hsome
      cases hsome
    · rw [hpolicy] at hpolicy'
      cases hpolicy'
      have hd := hu.overdue
      rw [if_neg (by simp [hopen])] at hd
      obtain ⟨pending, hpending, hoverdue⟩ := hd
      obtain ⟨full, hfull⟩ := businessMinutesBetween_shape hpending row.inboundTime now none
      refine ⟨full, hfull, ?_⟩
      rw [hoverdue, decide_eq_true_eq, htarget]
      rw [htarget] at hpending
      exact overdue_iff_full hpending hfull

end Counters

/-! ### Overdue cases -/

section Overdue

variable {lib : DateLib} {rows : List ResolvedCaseRow} {startDate endDate now : Instant}

theorem isOverdueActive_iff {row : ResolvedCaseRow} {calendar : SlaCalendar} {late : Bool}
    (hcalendar : row.calendar = some calendar) (hactive : row.status.active = true)
    (h : isOverdueActive lib now row = .ok late) :
    ∃ full, businessMinutesBetween lib calendar row.openedAt now none = .ok full ∧
      (late = true ↔ row.resolutionTargetMinutes < full) := by
  have hstatus : row.status ≠ .resolved := by
    intro hres
    rw [hres] at hactive
    cases hactive
  unfold isOverdueActive at h
  rw [hcalendar] at h
  simp only [hstatus, if_false] at h
  cases helapsed : businessMinutesBetween lib calendar row.openedAt now
      (some (row.resolutionTargetMinutes + overdueStrictEpsilonMinutes)) with
  | error e =>
    rw [helapsed] at h
    cases h
  | ok elapsed =>
    rw [helapsed] at h
    cases h
    obtain ⟨full, hfull⟩ := businessMinutesBetween_shape helapsed row.openedAt now none
    refine ⟨full, hfull, ?_⟩
    rw [decide_eq_true_eq]
    exact overdue_iff_full helapsed hfull

theorem overdueCase_ok {row : ResolvedCaseRow} {kept : Option ResolvedCaseRow}
    (hactive : row.status.active = true) (h : overdueRow lib now row = .ok kept) :
    ∃ entry, overdueCase lib now row = .ok entry ∧ entry.isSome = kept.any fun _ => true := by
  unfold overdueRow at h
  cases hlate : isOverdueActive lib now row with
  | error e =>
    rw [hlate] at h
    cases h
  | ok late =>
    rw [hlate] at h
    have hkept : kept = if late = true then some row else none := (Except.ok.inj h).symm
    unfold overdueCase
    cases hcalendar : row.calendar with
    | none =>
      have hno : late = false := by
        unfold isOverdueActive at hlate
        rw [hcalendar] at hlate
        exact (Except.ok.inj hlate).symm
      exact ⟨none, rfl, by rw [hkept, hno]; rfl⟩
    | some calendar =>
      obtain ⟨full, hfull, hiff⟩ := isOverdueActive_iff hcalendar hactive hlate
      simp only [hfull]
      refine ⟨_, rfl, ?_⟩
      by_cases hle : full ≤ row.resolutionTargetMinutes
      · have hno : ¬ late = true := fun hl => absurd (hiff.mp hl) (not_lt.mpr hle)
        rw [hkept, if_pos hle, if_neg hno]
        rfl
      · have hyes : late = true := hiff.mpr (not_le.mp hle)
        rw [hkept, if_neg hle, if_pos hyes]
        rfl

theorem fetchActiveCases_active {active : List ResolvedCaseRow} (h : fetchActiveCases rows = .ok active) :
    (∀ row ∈ active, row.status.active = true) ∧ active.length ≤ rows.length := by
  unfold fetchActiveCases queryCasesWithPolicy at h
  dsimp only at h
  split_ifs at h
  cases h
  constructor
  · intro row hrow
    have hin := List.mem_of_mem_take hrow
    rw [List.mem_insertionSort, List.mem_filter] at hin
    exact hin.2
  · rw [List.length_take, List.length_insertionSort]
    have := List.length_filter_le (fun r : ResolvedCaseRow => r.status.active) rows
    omega

theorem ok_of_bind {ε α β : Type} {m : Except ε α} {k : α → Except ε β} {b : β} (h : (m >>= k) = .ok b) :
    ∃ a, m = .ok a ∧ k a = .ok b := by
  cases m with
  | error e => cases h
  | ok a => exact ⟨a, rfl, h⟩

theorem ok_of_orMalformed {α : Type} {m : Except MalformedCalendar α} {a : α} (h : orMalformed m = .ok a) :
    m = .ok a := by
  cases m with
  | error e => cases h
  | ok b =>
    cases h
    rfl

theorem getCaseResolutionStats_ok {stats : CaseResolutionStats}
    (h : getCaseResolutionStats lib rows startDate endDate now = .ok stats) :
    ∃ active overdueActive, fetchActiveCases rows = .ok active ∧
      active.filterMapM (overdueRow lib now) = .ok overdueActive ∧
      stats.overall.overdueActiveCases = overdueActive.length := by
  obtain ⟨resolved, -, h⟩ := ok_of_bind h
  obtain ⟨active, hactive, h⟩ := ok_of_bind h
  obtain ⟨overdueActive, hoverdue, h⟩ := ok_of_bind h
  obtain ⟨overall, hoverall, h⟩ := ok_of_bind h
  obtain ⟨direct, -, h⟩ := ok_of_bind h
  obtain ⟨group, -, h⟩ := ok_of_bind h
  cases h
  refine ⟨active, overdueActive, hactive, ok_of_orMalformed hoverdue, ?_⟩
  obtain ⟨durations, -, hoverall⟩ := ok_of_bind (ok_of_orMalformed hoverall)
  obtain ⟨withinSla, -, hoverall⟩ := ok_of_bind hoverall
  cases hoverall
  rfl

theorem cases_agree (lib : DateLib) (rows : List ResolvedCaseRow) (startDate endDate now : Instant) :
    CasesAgree lib rows startDate endDate now where
  overdue stats hstats limit hlimit := by
    obtain ⟨active, overdueActive, hfetch, hoverdue, hcount⟩ := getCaseResolutionStats_ok hstats
    obtain ⟨hactive, hlen⟩ := fetchActiveCases_active hfetch
    obtain ⟨list, hlist, hsame⟩ := sameLength (fun row hrow kept h => overdueCase_ok (hactive row hrow) h) hoverdue
    have hbound : list.length ≤ limit := ((length_filterMapM_le hlist).trans hlen).trans hlimit
    have hlist' : getOverdueActiveCases lib rows now limit =
        .ok ((list.insertionSort fun a b => b.elapsedMinutes ≤ a.elapsedMinutes).take limit) := by
      rw [getOverdueActiveCases, hfetch]
      show (orMalformed (active.filterMapM (overdueCase lib now)) >>= _) = _
      rw [hlist]
      rfl
    refine ⟨_, hlist', ?_⟩
    rw [sorted_take_length hbound, hsame, hcount, List.filter_true]
  earlyExit row hrow calendar hcalendar hactive late h := isOverdueActive_iff hcalendar hactive h

end Overdue

/-- **SLA counters and breach lists.** -/
theorem sla_counters_agree (lib : DateLib) (rows : List ResolvedEpisodeRow) (override : Option ℚ)
    (caseRows : List ResolvedCaseRow) (startDate endDate now : Instant) :
    EpisodesAgree lib rows override now ∧ CasesAgree lib caseRows startDate endDate now :=
  ⟨episodes_agree lib rows override now, cases_agree lib caseRows startDate endDate now⟩

def morningCalendar : SlaCalendar where
  timezone := "UTC"
  weeklySchedule := (List.range 7).map fun d => ⟨d, true, [⟨"00:00", "00:05"⟩]⟩
  exceptions := []

def waitingRow (target : ℚ) : ResolvedEpisodeRow :=
  ⟨"c", none, "k1", .direct, 0, none, 0, none, none, none, none, some ⟨"p", target, morningCalendar⟩⟩

/-- The interval ends on the first row's target and above the second's. -/
theorem sla_counters_agree_on_target : ∃ stats list,
    getResponseTimeStats epochDay [waitingRow 5, waitingRow 4] none 600000 = .ok stats ∧
      getSlaBreaches epochDay [waitingRow 5, waitingRow 4] none 600000 50 = .ok list ∧
      stats.overall.totalConversations = 1 ∧
      list.length + stats.overall.withinSlaCount = stats.overall.totalConversations := by
  have hone : (getResponseTimeStats epochDay [waitingRow 5, waitingRow 4] none 600000).toOption.map
      (·.overall.totalConversations) = some 1 := by decide +kernel
  cases h : getResponseTimeStats epochDay [waitingRow 5, waitingRow 4] none 600000 with
  | error e =>
    rw [h] at hone
    cases hone
  | ok stats =>
    rw [h] at hone
    have hagree := sla_counters_agree epochDay [waitingRow 5, waitingRow 4] none [] 0 0 600000
    obtain ⟨list, hlist, hlen⟩ := hagree.1.breaches stats h 50 (by decide)
    exact ⟨stats, list, rfl, hlist, Option.some.inj hone, hlen⟩

end TeamInbox.Sla
