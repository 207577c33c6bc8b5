import TeamInbox.Cases.Projection
import TeamInbox.Lib.Islands
import TeamInbox.Sla.Calendar

/-!
# TeamInbox.Sla.Episodes — response episodes

A response episode of a case is a maximal run of inbound messages; the outbound message after it is its
response.  The query finds episodes with a window function over `seq` and shows those whose first message
lies in a range of dates and belongs to a contact: it joins the contacts, so a conversation without a
contact has no episode.  The check of a resolution with outcome `'handled'` looks at the last message
only; the two agree.
-/

namespace TeamInbox.Sla

open TeamInbox.Lib TeamInbox.Cases

/-! ### The query -/

structure ContactRow where
  id : Uuid
  /-- `COALESCE(custom_name, push_name, phone_number)` -/
  name : Option String
  deriving DecidableEq

/-- A row of `sla_policies`, as far as the analytics read it. -/
structure PolicyRow where
  id : Uuid
  calendar : SlaCalendar
  deriving DecidableEq

structure AnalyticsTables where
  messages : List Message
  cases : List Case
  contacts : List ContactRow
  policies : List PolicyRow
  deriving DecidableEq

inductive ResponseSlaExclusionOutcome
  | noReplyNeeded
  | spam
  | duplicate
  deriving DecidableEq

/-- `RESPONSE_SLA_EXCLUSION_OUTCOMES`. -/
def responseSlaExclusionOutcome : ResolutionOutcome → Option ResponseSlaExclusionOutcome
  | .noReplyNeeded => some .noReplyNeeded
  | .spam => some .spam
  | .duplicate => some .duplicate
  | _ => none

structure EpisodePolicy where
  id : Uuid
  targetMinutes : ℚ
  calendar : SlaCalendar
  deriving DecidableEq

structure ResolvedEpisodeRow where
  contactID : Uuid
  contactName : Option String
  caseID : Uuid
  caseKind : CaseKind
  inboundTime : Instant
  responseTime : Option Instant
  displayInboundTime : Instant
  displayResponseTime : Option Instant
  respondedBy : Option Uuid
  caseResolvedAt : Option Instant
  caseExclusionOutcome : Option ResponseSlaExclusionOutcome
  policy : Option EpisodePolicy
  deriving DecidableEq

inductive AnalyticsError
  /-- `AnalyticsRangeTooWideError` -/
  | rangeTooWide (limit : ℕ)
  | malformed (error : MalformedCalendar)
  deriving DecidableEq

/-- `MAX_EPISODES_PER_QUERY`. -/
def maxEpisodesPerQuery : ℕ := 5000

def inbound (m : Message) : Bool := !m.fromMe

/-- `PARTITION BY case_id ORDER BY seq`. -/
def caseMessages (messages : List Message) (caseID : Uuid) : List Message :=
  (messages.filter (·.caseID = some caseID)).insertionSort fun m n => m.seq ≤ n.seq

/-- `from_me = false AND (prev_from_me IS NULL OR prev_from_me = true)`. -/
def episodeStarts (messages : List Message) (caseID : Uuid) : List Message :=
  starts inbound (caseMessages messages caseID)

/-- The first outbound message of the case with a larger `seq`. -/
def episodeResponse (messages : List Message) (caseID : Uuid) (start : Message) : Option Message :=
  firstAfter inbound (·.seq) (caseMessages messages caseID) start

def episodeRow (t : AnalyticsTables) (cc : Case) (start : Message) (response : Option Message)
    (contact : ContactRow) : ResolvedEpisodeRow where
  contactID := contact.id
  contactName := contact.name
  caseID := cc.id
  caseKind := cc.kind
  inboundTime := start.createdAt
  responseTime := response.map fun r => (r.createdAt : ℤ)
  displayInboundTime := start.timestamp
  displayResponseTime := response.map fun r => (r.timestamp : ℤ)
  respondedBy := response.bind (·.sentByUserID)
  caseResolvedAt := cc.resolvedAt.map fun r => (r : ℤ)
  caseExclusionOutcome :=
    if response.isNone then cc.resolutionOutcome.bind responseSlaExclusionOutcome else none
  policy := (t.policies.find? (·.id = cc.policyID)).map fun p =>
    ⟨p.id, cc.responseTargetMinutes, p.calendar⟩

/-- The row of an episode: its first message lies in the range, and the join finds its contact. -/
def shownRow (t : AnalyticsTables) (startDate endDate : Instant) (cc : Case) (start : Message)
    (response : Option Message) : Option ResolvedEpisodeRow :=
  if startDate ≤ start.createdAt ∧ (start.createdAt : ℤ) ≤ endDate then
    (t.contacts.find? fun c => start.contactID = some c.id).map (episodeRow t cc start response)
  else none

def caseEpisodeRows (t : AnalyticsTables) (startDate endDate : Instant) (cc : Case) :
    List ResolvedEpisodeRow :=
  (episodeStarts t.messages cc.id).filterMap fun start =>
    shownRow t startDate endDate cc start (episodeResponse t.messages cc.id start)

/-- One row beyond the cap is read to notice that there are more. -/
def fetchEpisodesWithPolicy (t : AnalyticsTables) (startDate endDate : Instant) :
    Except AnalyticsError (List ResolvedEpisodeRow) :=
  let rows := ((t.cases.flatMap (caseEpisodeRows t startDate endDate)).insertionSort
    fun r s => s.inboundTime ≤ r.inboundTime).take (maxEpisodesPerQuery + 1)
  if maxEpisodesPerQuery < rows.length then .error (.rangeTooWide maxEpisodesPerQuery) else .ok rows

/-! ### The outcome of an episode -/

structure EpisodeOutcome where
  contactID : Uuid
  contactName : Option String
  caseID : Uuid
  caseKind : CaseKind
  inboundTime : Instant
  responseTime : Option Instant
  respondedBy : Option Uuid
  effectiveTargetMinutes : ℚ
  responseMinutes : Option ℚ
  isOverdueUnanswered : Bool
  isTerminal : Bool
  exclusionOutcome : Option ResponseSlaExclusionOutcome
  deriving DecidableEq

section Outcome

variable (lib : DateLib)

def computeEpisodeOutcome (row : ResolvedEpisodeRow) (targetOverrideMinutes : Option ℚ) (now : Instant) :
    Except MalformedCalendar (Option EpisodeOutcome) :=
  match row.policy with
  | none => pure none
  | some policy => do
    let target := targetOverrideMinutes.getD policy.targetMinutes
    match row.responseTime with
    | some responseTime => do
      let minutes ← businessMinutesBetween lib policy.calendar row.inboundTime responseTime none
      pure (some {
        contactID := row.contactID, contactName := row.contactName, caseID := row.caseID
        caseKind := row.caseKind, inboundTime := row.inboundTime, responseTime := some responseTime
        respondedBy := row.respondedBy, effectiveTargetMinutes := target, responseMinutes := some minutes
        isOverdueUnanswered := false, isTerminal := row.caseResolvedAt.isSome, exclusionOutcome := none })
    | none => do
      -- a closed case is measured to its end, and unless excused it is a breach at once
      let pending ← businessMinutesBetween lib policy.calendar row.inboundTime (row.caseResolvedAt.getD now)
        (if row.caseResolvedAt.isSome then none else some (target + overdueStrictEpsilonMinutes))
      pure (some {
        contactID := row.contactID, contactName := row.contactName, caseID := row.caseID
        caseKind := row.caseKind, inboundTime := row.inboundTime, responseTime := none
        respondedBy := none, effectiveTargetMinutes := target, responseMinutes := none
        isOverdueUnanswered := if row.caseResolvedAt.isSome then row.caseExclusionOutcome.isNone
          else decide (target < pending)
        isTerminal := row.caseResolvedAt.isSome, exclusionOutcome := row.caseExclusionOutcome })

def computeExactPendingBusinessMinutes (row : ResolvedEpisodeRow) (now : Instant) :
    Except MalformedCalendar ℚ :=
  match row.policy with
  | none => pure 0
  | some policy =>
    businessMinutesBetween lib policy.calendar row.inboundTime (row.caseResolvedAt.getD now) none

end Outcome

/-! ### What is claimed -/

/-- A maximal run of inbound messages, its first one and the others, and what answers it. -/
structure Episode where
  first : Message
  others : List Message
  response : Option Message
  deriving DecidableEq

/-- The run is an island of inbound messages, and the response is the message after it. -/
def Episode.Of (messages : List Message) (e : Episode) : Prop :=
  ∃ rest, Island inbound messages (e.first :: e.others) rest ∧ e.response = rest.head?

/-- Keys of the tables: `id` of a case, `seq` of a message. -/
structure AnalyticsTables.Keyed (t : AnalyticsTables) : Prop where
  cases : (t.cases.map (·.id)).Nodup
  seqs : (t.messages.map (·.seq)).Nodup

/-- The episodes of a case against the rows the query shows for it. -/
structure Partitions (t : AnalyticsTables) (startDate endDate : Instant) (rows : List ResolvedEpisodeRow)
    (cc : Case) (episodes : List Episode) : Prop where
  nodup : episodes.Nodup
  runs : ∀ e, e ∈ episodes ↔ e.Of (caseMessages t.messages cc.id)
  shown : (rows.filter (·.caseID = cc.id)).Perm
    (episodes.filterMap fun e => shownRow t startDate endDate cc e.first e.response)
  /-- Every inbound message of the case lies in exactly one episode. -/
  covered : ∀ m ∈ t.messages, m.caseID = some cc.id → inbound m → ∃! e, e ∈ episodes ∧ m ∈ e.first :: e.others
  /-- An outbound message answers at most one episode. -/
  answers : ∀ e ∈ episodes, ∀ e' ∈ episodes, ∀ o, e.response = some o → e'.response = some o → e = e'
  unanswered : ∀ e ∈ episodes, ∀ e' ∈ episodes, e.response = none → e'.response = none → e = e'
  latest : (∃ e ∈ episodes, e.response = none) ↔ hasUnansweredLatestTurn t.messages cc.id = true

/-- The transition closed the case as `'handled'`, and the case has the messages it had then. -/
structure HandledBefore (trim : String → String) (t : AnalyticsTables) (cc : Case) (db db' : CaseDb) : Prop where
  closed : ∃ id supply input, input.outcome = .handled ∧
    ((resolveActiveCase trim id supply input).run db = (.ok cc.id, db') ∨
      (resolveActiveCaseForConversation trim id supply input).run db = (.ok cc.id, db'))
  noLater : ∀ m, m.caseID = some cc.id → (m ∈ t.messages ↔ m ∈ db'.messages)

/-! ### The messages of a case -/

section Messages

variable {messages : List Message} {caseID : Uuid}

theorem mem_caseMessages {m : Message} :
    m ∈ caseMessages messages caseID ↔ m ∈ messages ∧ m.caseID = some caseID := by
  unfold caseMessages
  rw [List.mem_insertionSort, List.mem_filter, decide_eq_true_eq]

theorem caseMessages_ordered (hseqs : (messages.map (·.seq)).Nodup) :
    (caseMessages messages caseID).Pairwise fun m n => m.seq < n.seq := by
  have hle : (caseMessages messages caseID).Pairwise fun m n => m.seq ≤ n.seq :=
    List.pairwise_insertionSort _ _
  have hne : ((caseMessages messages caseID).map (·.seq)).Nodup := by
    have hfilter : ((messages.filter (·.caseID = some caseID)).map (·.seq)).Nodup :=
      hseqs.sublist (List.filter_sublist.map _)
    exact ((List.perm_insertionSort _ _).map _).nodup_iff.mpr hfilter
  rw [List.Nodup, List.pairwise_map] at hne
  exact (hle.and hne).imp fun h => lt_of_le_of_ne h.1 h.2

theorem foldl_last (ms : List Message) (acc : Option Message) :
    let last := ms.foldl (fun last m => match last with
      | none => some m
      | some l => if l.seq ≤ m.seq then some m else some l) acc
    (∀ m, last = some m → (m ∈ ms ∨ acc = some m) ∧ (∀ z ∈ ms, z.seq ≤ m.seq) ∧
      ∀ l, acc = some l → l.seq ≤ m.seq) ∧ (last = none → ms = [] ∧ acc = none) := by
  induction ms generalizing acc with
  | nil =>
    refine ⟨fun m hm => ⟨Or.inr hm, fun z hz => absurd hz List.not_mem_nil, fun l hl => ?_⟩, fun h => ⟨rfl, h⟩⟩
    have : some l = some m := hl.symm.trans hm
    cases this
    exact le_rfl
  | cons x xs ih =>
    intro last
    -- the accumulator after `x`, and what it owes to the one before
    obtain ⟨acc', hacc', hx, hold, hsome⟩ : ∃ acc' : Message,
        (match acc with
          | none => some x
          | some l => if l.seq ≤ x.seq then some x else some l) = some acc' ∧ x.seq ≤ acc'.seq ∧
        (∀ l, acc = some l → l.seq ≤ acc'.seq) ∧ (acc' = x ∨ acc = some acc') := by
      cases acc with
      | none => exact ⟨x, rfl, le_rfl, fun l hl => (by cases hl), Or.inl rfl⟩
      | some l =>
        by_cases h : l.seq ≤ x.seq
        · exact ⟨x, if_pos h, le_rfl, fun l' hl' => Option.some.inj hl' ▸ h, Or.inl rfl⟩
        · exact ⟨l, if_neg h, by omega, fun l' hl' => (Option.some.inj hl' ▸ le_rfl), Or.inr rfl⟩
    have hlast : last = xs.foldl (fun last m => match last with
      | none => some m
      | some l => if l.seq ≤ m.seq then some m else some l) (some acc') := by
      rw [← hacc']
      rfl
    obtain ⟨hm, hnone⟩ := ih (some acc')
    rw [← hlast] at hm hnone
    refine ⟨fun m hlm => ?_, fun h => ?_⟩
    · obtain ⟨hmem, hmax, hacc⟩ := hm m hlm
      have hle := hacc acc' rfl
      refine ⟨?_, ?_, fun l hl => (hold l hl).trans hle⟩
      · rcases hmem with hmem | hmem
        · exact Or.inl (List.mem_cons_of_mem x hmem)
        · cases hmem
          rcases hsome with rfl | h
          · exact Or.inl List.mem_cons_self
          · exact Or.inr h
      · intro z hz
        rcases List.mem_cons.mp hz with rfl | hz
        · exact hx.trans hle
        · exact hmax z hz
    · cases (hnone h).2

theorem hasUnansweredLatestTurn_iff (hseqs : (messages.map (·.seq)).Nodup) :
    hasUnansweredLatestTurn messages caseID = true ↔ ∃ m ∈ caseMessages messages caseID,
      inbound m = true ∧ ∀ z ∈ caseMessages messages caseID, z.seq ≤ m.seq := by
  have hfold := foldl_last (messages.filter (·.caseID = some caseID)) none
  obtain ⟨hsome, hnone⟩ : (∀ m, lastMessage messages caseID = some m → _) ∧
    (lastMessage messages caseID = none → _) := hfold
  have hmem : ∀ {m}, m ∈ messages.filter (·.caseID = some caseID) ↔ m ∈ caseMessages messages caseID := by
    intro m
    rw [mem_caseMessages, List.mem_filter, decide_eq_true_eq]
  unfold hasUnansweredLatestTurn
  cases hlast : lastMessage messages caseID with
  | none =>
    refine ⟨fun h => absurd h Bool.false_ne_true, ?_⟩
    rintro ⟨m, hm, -⟩
    rw [← hmem, (hnone hlast).1] at hm
    cases hm
  | some last =>
    obtain ⟨hin, hmax, -⟩ := hsome last hlast
    have hin' : last ∈ caseMessages messages caseID := by
      rcases hin with h | h
      · exact hmem.mp h
      · cases h
    constructor
    · exact fun h => ⟨last, hin', h, fun z hz => hmax z (hmem.mpr hz)⟩
    · rintro ⟨m, hm, hinbound, hmax'⟩
      have h1 := hmax m (hmem.mpr hm)
      have h2 := hmax' last hin'
      have heq : last = m := key_inj (caseMessages_ordered hseqs) hin' hm (by omega)
      rw [heq]
      exact hinbound

end Messages

/-! ### The episodes of a case -/

section Cases

variable {t : AnalyticsTables} {startDate endDate : Instant} {rows : List ResolvedEpisodeRow} {cc : Case}

def episodeOf (messages : List Message) (caseID : Uuid) (start : Message) : Episode where
  first := start
  others := runAfter inbound (·.seq) (caseMessages messages caseID) start
  response := episodeResponse messages caseID start

def episodesOf (messages : List Message) (caseID : Uuid) : List Episode :=
  (episodeStarts messages caseID).map (episodeOf messages caseID)

theorem mem_episodesOf (hseqs : (t.messages.map (·.seq)).Nodup) {e : Episode} :
    e ∈ episodesOf t.messages cc.id ↔ e.Of (caseMessages t.messages cc.id) := by
  have hsort : (caseMessages t.messages cc.id).Pairwise fun m n => m.seq < n.seq := caseMessages_ordered hseqs
  unfold episodesOf
  rw [List.mem_map]
  constructor
  · rintro ⟨start, hstart, rfl⟩
    obtain ⟨run, rest, hisl⟩ := mem_starts.mp hstart
    refine ⟨rest, ?_, firstAfter_eq hsort hisl⟩
    have hrun : (episodeOf t.messages cc.id start).others = run := runAfter_eq hsort hisl
    rw [hrun]
    exact hisl
  · rintro ⟨rest, hisl, hresponse⟩
    refine ⟨e.first, mem_starts.mpr ⟨e.others, rest, hisl⟩, ?_⟩
    have hothers : runAfter inbound (·.seq) (caseMessages t.messages cc.id) e.first = e.others :=
      runAfter_eq hsort hisl
    have hanswer : firstAfter inbound (·.seq) (caseMessages t.messages cc.id) e.first = rest.head? :=
      firstAfter_eq hsort hisl
    show (⟨e.first, _, _⟩ : Episode) = e
    rw [hothers, episodeResponse, hanswer, ← hresponse]

theorem episodesOf_nodup (hseqs : (t.messages.map (·.seq)).Nodup) :
    (episodesOf t.messages cc.id).Nodup := by
  have hms : (caseMessages t.messages cc.id).Nodup :=
    (caseMessages_ordered hseqs).imp fun hlt heq => (by rw [heq] at hlt; exact lt_irrefl _ hlt)
  have hfirst : (episodesOf t.messages cc.id).map (·.first) = episodeStarts t.messages cc.id := by
    unfold episodesOf
    rw [List.map_map]
    exact List.map_id _
  refine List.Nodup.of_map (fun e : Episode => e.first) ?_
  rw [hfirst]
  exact hms.sublist starts_sublist

theorem filter_caseRows {cases : List Case} (hids : (cases.map (·.id)).Nodup) (hcc : cc ∈ cases) :
    (cases.flatMap (caseEpisodeRows t startDate endDate)).filter (·.caseID = cc.id) =
      caseEpisodeRows t startDate endDate cc := by
  have hown : ∀ (c : Case), ∀ r ∈ caseEpisodeRows t startDate endDate c, r.caseID = c.id := by
    intro c r hr
    obtain ⟨start, -, hshown⟩ := List.mem_filterMap.mp hr
    unfold shownRow at hshown
    split_ifs at hshown
    obtain ⟨contact, -, rfl⟩ := Option.map_eq_some_iff.mp hshown
    rfl
  have hall : (caseEpisodeRows t startDate endDate cc).filter (·.caseID = cc.id) =
      caseEpisodeRows t startDate endDate cc :=
    List.filter_eq_self.mpr fun r hr => decide_eq_true (hown cc r hr)
  induction cases with
  | nil => cases hcc
  | cons c rest ih =>
    rw [List.map_cons, List.nodup_cons] at hids
    rw [List.flatMap_cons, List.filter_append]
    have hnone : ∀ d, d.id ≠ cc.id → (caseEpisodeRows t startDate endDate d).filter (·.caseID = cc.id) = [] := by
      intro d hd
      rw [List.filter_eq_nil_iff]
      intro r hr
      rw [hown d r hr, decide_eq_true_eq]
      exact hd
    rcases List.mem_cons.mp hcc with rfl | hin
    · rw [hall]
      have hothers : (rest.flatMap (caseEpisodeRows t startDate endDate)).filter (·.caseID = cc.id) = [] := by
        rw [List.filter_eq_nil_iff]
        intro r hr
        obtain ⟨d, hd, hrd⟩ := List.mem_flatMap.mp hr
        rw [hown d r hrd, decide_eq_true_eq]
        exact fun heq => hids.1 (heq ▸ List.mem_map_of_mem hd)
      rw [hothers, List.append_nil]
    · rw [hnone c fun heq => hids.1 (heq ▸ List.mem_map_of_mem hin), List.nil_append]
      exact ih hids.2 hin

theorem fetch_perm (h : fetchEpisodesWithPolicy t startDate endDate = .ok rows) :
    rows.Perm (t.cases.flatMap (caseEpisodeRows t startDate endDate)) := by
  unfold fetchEpisodesWithPolicy at h
  dsimp only at h
  split_ifs at h with hmany
  cases h
  have hperm := List.perm_insertionSort (fun r s : ResolvedEpisodeRow => s.inboundTime ≤ r.inboundTime)
    (t.cases.flatMap (caseEpisodeRows t startDate endDate))
  rw [List.length_take] at hmany
  rw [List.take_of_length_le (by omega)]
  exact hperm

theorem partitions (hkeys : t.Keyed) (h : fetchEpisodesWithPolicy t startDate endDate = .ok rows)
    (hcc : cc ∈ t.cases) : Partitions t startDate endDate rows cc (episodesOf t.messages cc.id) := by
  have hsort : (caseMessages t.messages cc.id).Pairwise fun m n => m.seq < n.seq :=
    caseMessages_ordered hkeys.seqs
  have hstart : ∀ {e}, e ∈ episodesOf t.messages cc.id → e.first ∈ episodeStarts t.messages cc.id ∧
      e.response = episodeResponse t.messages cc.id e.first ∧ e = episodeOf t.messages cc.id e.first := by
    intro e he
    obtain ⟨start, hs, rfl⟩ := List.mem_map.mp he
    exact ⟨hs, rfl, rfl⟩
  -- two episodes with the same first message are one
  have hsame : ∀ {e e'}, e ∈ episodesOf t.messages cc.id → e' ∈ episodesOf t.messages cc.id →
      e.first = e'.first → e = e' := by
    intro e e' he he' hfirst
    rw [(hstart he).2.2, (hstart he').2.2, hfirst]
  refine ⟨episodesOf_nodup hkeys.seqs, fun e => mem_episodesOf hkeys.seqs, ?_, ?_, ?_, ?_, ?_⟩
  · have hperm := (fetch_perm h).filter (·.caseID = cc.id)
    rw [filter_caseRows hkeys.cases hcc] at hperm
    unfold episodesOf
    rw [List.filterMap_map]
    exact hperm
  · intro m hm hcase hinbound
    obtain ⟨run, rest, hisl, hin⟩ := exists_island (mem_caseMessages.mpr ⟨hm, hcase⟩) hinbound
    obtain ⟨x, run, rfl⟩ := List.exists_cons_of_ne_nil hisl.nonempty
    refine ⟨⟨x, run, rest.head?⟩, ⟨(mem_episodesOf hkeys.seqs).mpr ⟨rest, hisl, rfl⟩, hin⟩, ?_⟩
    rintro e ⟨he, hme⟩
    obtain ⟨rest', hisl', hresponse⟩ := (mem_episodesOf hkeys.seqs).mp he
    obtain ⟨hrun, hrest⟩ := island_unique hsort hisl' hisl hme hin
    obtain ⟨hfirst, hothers⟩ := List.cons_eq_cons.mp hrun
    show (⟨e.first, e.others, e.response⟩ : Episode) = _
    rw [hfirst, hothers, hresponse, hrest]
  · intro e he e' he' o ho ho'
    obtain ⟨hs, hr, -⟩ := hstart he
    obtain ⟨hs', hr', -⟩ := hstart he'
    exact hsame he he' (firstAfter_inj hsort hs hs' (hr.symm.trans ho) (hr'.symm.trans ho'))
  · intro e he e' he' hno hno'
    obtain ⟨hs, hr, -⟩ := hstart he
    obtain ⟨hs', hr', -⟩ := hstart he'
    exact hsame he he' (firstAfter_none_unique hsort hs hs' (hr.symm.trans hno) (hr'.symm.trans hno'))
  · rw [hasUnansweredLatestTurn_iff hkeys.seqs, ← exists_firstAfter_none_iff hsort]
    constructor
    · rintro ⟨e, he, hno⟩
      obtain ⟨hs, hr, -⟩ := hstart he
      exact ⟨e.first, hs, hr.symm.trans hno⟩
    · rintro ⟨start, hs, hno⟩
      exact ⟨episodeOf t.messages cc.id start, List.mem_map_of_mem hs, hno⟩

end Cases

/-! ### A case closed as handled -/

section Handled

variable {trim : String → String} {t : AnalyticsTables} {cc : Case} {db db' : CaseDb}

theorem lands_resolve_handled {fam : Family} {supply : Supply} {input : ResolveCaseInput}
    (hlock : ∀ db, Lands fam.lock db (¬ fam.Present db) fun _ db' => db' = db ∧ fam.Present db)
    (hsync : ∀ sync db, Lands (fam.sync sync) db False fun _ db' => db'.messages = db.messages)
    (hhandled : input.outcome = .handled) :
    Lands (resolveCase trim fam supply input) db True fun id db' =>
      db'.messages = db.messages ∧ hasUnansweredLatestTurn db.messages id = false := by
  refine lands_check rfl (fun _ => trivial) fun _ => ?_
  refine Lands.keep (hlock db) (fun _ => trivial) fun _ _ => ?_
  refine Lands.keep lands_assertActorOwns (fun _ => trivial) fun _ _ => ?_
  refine lands_get ?_
  cases db.getActiveCase fam.id with
  | none => exact lands_throw rfl trivial
  | some active =>
    refine lands_get (lands_check rfl (fun _ => trivial) fun hanswered => ?_)
    have hlatest : hasUnansweredLatestTurn db.messages active.id = false := by
      by_contra h
      exact hanswered ⟨hhandled, by simpa using h⟩
    -- the updated row is that of the active case
    refine Lands.bind (F := False) (M := fun updated db' => db'.messages = db.messages ∧
      ∀ row, updated = some row → row.id = active.id) (lands_updateCases ⟨rfl, ?_⟩) False.elim ?_
    · intro row hrow
      obtain ⟨c, hc, rfl⟩ := Option.map_eq_some_iff.mp hrow
      have htest := List.find?_some hc
      rw [Bool.and_eq_true, decide_eq_true_eq] at htest
      exact htest.1
    rintro updated db₁ ⟨hmessages, hrow⟩
    cases updated with
    | none => exact lands_throw rfl trivial
    | some row =>
      refine Lands.bind (hsync _ db₁) (fun _ => trivial) ?_
      intro _ db₂ hmessages'
      refine Lands.pure ⟨hmessages'.trans hmessages, ?_⟩
      rw [hrow row rfl]
      exact hlatest

theorem of_lands {α : Type} {m : CaseM α} {E : Prop} {Q : α → CaseDb → Prop} {a : α} (h : Lands m db E Q)
    (hrun : m.run db = (.ok a, db')) : Q a db' := by
  unfold Lands Ensures at h
  rw [show m.run db = (.ok a, db') from hrun] at h
  exact h

theorem HandledBefore.answered (h : HandledBefore trim t cc db db') (hseqs : (t.messages.map (·.seq)).Nodup)
    (hseqs' : (db'.messages.map (·.seq)).Nodup) : hasUnansweredLatestTurn t.messages cc.id = false := by
  obtain ⟨⟨id, supply, input, hhandled, hrun⟩, hnoLater⟩ := h
  have hclosed : db'.messages = db.messages ∧ hasUnansweredLatestTurn db.messages cc.id = false := by
    rcases hrun with hrun | hrun
    · refine of_lands (lands_resolve_handled (fun _ => lands_lock rfl) (fun sync db => ?_) hhandled) hrun
      exact lands_modify rfl
    · refine of_lands (lands_resolve_handled (fun _ => lands_lock rfl) (fun sync db => ?_) hhandled) hrun
      exact lands_modify rfl
  have hmem : ∀ m, m ∈ caseMessages t.messages cc.id ↔ m ∈ caseMessages db'.messages cc.id := by
    intro m
    rw [mem_caseMessages, mem_caseMessages]
    constructor
    · exact fun hm => ⟨(hnoLater m hm.2).mp hm.1, hm.2⟩
    · exact fun hm => ⟨(hnoLater m hm.2).mpr hm.1, hm.2⟩
  by_contra hun
  rw [Bool.not_eq_false, hasUnansweredLatestTurn_iff hseqs] at hun
  obtain ⟨m, hm, hin, hmax⟩ := hun
  have hagain : hasUnansweredLatestTurn db'.messages cc.id = true := by
    rw [hasUnansweredLatestTurn_iff hseqs']
    exact ⟨m, (hmem m).mp hm, hin, fun z hz => hmax z ((hmem z).mpr hz)⟩
  rw [hclosed.1, hclosed.2] at hagain
  cases hagain

end Handled

/-! ### Outcomes -/

section Outcomes

variable {lib : DateLib} {row : ResolvedEpisodeRow} {override : Option ℚ} {now : Instant} {o : EpisodeOutcome}

structure Answered (row : ResolvedEpisodeRow) (o : EpisodeOutcome) : Prop where
  time : o.responseTime.isSome = true ∧ o.responseTime = row.responseTime
  minutes : ∃ m, o.responseMinutes = some m
  overdue : o.isOverdueUnanswered = false
  exclusion : o.exclusionOutcome = none

/-- An unanswered one: a closed case is a breach unless excused, an open one is compared with the target. -/
structure Unanswered (lib : DateLib) (row : ResolvedEpisodeRow) (policy : EpisodePolicy) (now : Instant)
    (o : EpisodeOutcome) : Prop where
  time : o.responseTime = none ∧ row.responseTime = none
  minutes : o.responseMinutes = none
  overdue : if row.caseResolvedAt.isSome = true then o.isOverdueUnanswered = row.caseExclusionOutcome.isNone
    else ∃ pending, businessMinutesBetween lib policy.calendar row.inboundTime now
      (some (o.effectiveTargetMinutes + overdueStrictEpsilonMinutes)) = .ok pending ∧
      o.isOverdueUnanswered = decide (o.effectiveTargetMinutes < pending)
  exclusion : o.exclusionOutcome = row.caseExclusionOutcome

theorem outcome_none (h : computeEpisodeOutcome lib row override now = .ok none) : row.policy = none := by
  unfold computeEpisodeOutcome at h
  cases hpolicy : row.policy with
  | none => rfl
  | some policy =>
    exfalso
    rw [hpolicy] at h
    cases hresponse : row.responseTime with
    | some responseTime =>
      rw [hresponse] at h
      cases hminutes : businessMinutesBetween lib policy.calendar row.inboundTime responseTime none with
      | error e =>
        simp only [hminutes] at h
        cases h
      | ok m =>
        simp only [hminutes] at h
        cases h
    | none =>
      rw [hresponse] at h
      cases hpending : businessMinutesBetween lib policy.calendar row.inboundTime
          (row.caseResolvedAt.getD now) (if row.caseResolvedAt.isSome then none
            else some (override.getD policy.targetMinutes + overdueStrictEpsilonMinutes)) with
      | error e =>
        simp only [hpending] at h
        cases h
      | ok pending =>
        simp only [hpending] at h
        cases h

theorem outcome_cases (h : computeEpisodeOutcome lib row override now = .ok (some o)) :
    ∃ policy, row.policy = some policy ∧ o.effectiveTargetMinutes = override.getD policy.targetMinutes ∧
      o.caseKind = row.caseKind ∧ o.isTerminal = row.caseResolvedAt.isSome ∧
      (∃ exit stop m, businessMinutesBetween lib policy.calendar row.inboundTime stop exit = .ok m) ∧
      (Answered row o ∨ Unanswered lib row policy now o) := by
  unfold computeEpisodeOutcome at h
  cases hpolicy : row.policy with
  | none =>
    rw [hpolicy] at h
    cases h
  | some policy =>
    rw [hpolicy] at h
    refine ⟨policy, rfl, ?_⟩
    cases hresponse : row.responseTime with
    | some responseTime =>
      rw [hresponse] at h
      cases hminutes : businessMinutesBetween lib policy.calendar row.inboundTime responseTime none with
      | error e =>
        simp only [hminutes] at h
        cases h
      | ok m =>
        simp only [hminutes] at h
        cases h
        exact ⟨rfl, rfl, rfl, ⟨_, _, m, hminutes⟩, Or.inl ⟨⟨rfl, hresponse.symm⟩, ⟨m, rfl⟩, rfl, rfl⟩⟩
    | none =>
      rw [hresponse] at h
      cases hpending : businessMinutesBetween lib policy.calendar row.inboundTime
          (row.caseResolvedAt.getD now) (if row.caseResolvedAt.isSome then none
            else some (override.getD policy.targetMinutes + overdueStrictEpsilonMinutes)) with
      | error e =>
        simp only [hpending] at h
        cases h
      | ok pending =>
        simp only [hpending] at h
        cases h
        refine ⟨rfl, rfl, rfl, ⟨_, _, pending, hpending⟩, Or.inr ⟨⟨rfl, hresponse⟩, rfl, ?_, rfl⟩⟩
        split_ifs with hterminal
        · rfl
        · have hopen : row.caseResolvedAt = none := by simpa using hterminal
          rw [hopen] at hpending
          exact ⟨pending, hpending, rfl⟩

end Outcomes

/-- **Episodes partition the inbound turns.**  They are the maximal inbound runs of the case with what
answers them, the query shows those in its range that belong to a contact, and one is unanswered exactly
if the latest turn is; so a case closed as handled has no outcome that is terminal and unanswered. -/
theorem episodes_partition_turns (lib : DateLib) (t : AnalyticsTables) (hkeys : t.Keyed)
    (startDate endDate : Instant) (rows : List ResolvedEpisodeRow)
    (hrows : fetchEpisodesWithPolicy t startDate endDate = .ok rows) (cc : Case) (hcc : cc ∈ t.cases) :
    (∃ episodes, Partitions t startDate endDate rows cc episodes) ∧
    ∀ trim db db', HandledBefore trim t cc db db' → (db'.messages.map (·.seq)).Nodup →
      ∀ row ∈ rows, row.caseID = cc.id → ∀ override now o,
        computeEpisodeOutcome lib row override now = .ok (some o) →
        ¬ (o.isTerminal = true ∧ o.responseTime = none) := by
  have hpart := partitions hkeys hrows hcc
  refine ⟨⟨_, hpart⟩, ?_⟩
  rintro trim db db' hhandled hseqs' row hrow hcase override now o ho ⟨-, hno⟩
  obtain ⟨policy, -, -, -, -, -, hanswered | hunanswered⟩ := outcome_cases ho
  · have hsome := hanswered.time.1
    rw [hno] at hsome
    cases hsome
  · have hin := hpart.shown.subset (List.mem_filter.mpr ⟨hrow, decide_eq_true hcase⟩)
    obtain ⟨e, he, hshown⟩ := List.mem_filterMap.mp hin
    unfold shownRow at hshown
    split_ifs at hshown
    obtain ⟨contact, -, rfl⟩ := Option.map_eq_some_iff.mp hshown
    have hresponse : e.response = none := Option.map_eq_none_iff.mp hunanswered.time.2
    have hlatest := hpart.latest.mp ⟨e, he, hresponse⟩
    rw [hhandled.answered hkeys.seqs hseqs'] at hlatest
    cases hlatest

/-! ### A case -/

def exampleMessage (id : Uuid) (contactID : Option Uuid) (fromMe : Bool) (seq : ℕ) : Message where
  id := id
  contactID := contactID
  caseID := some "k1"
  fromMe := fromMe
  seq := seq
  createdAt := 60000 * seq
  timestamp := 60000 * seq
  sentByUserID := if fromMe then some "u" else none

def exampleCase (contactID : Option Uuid) : Case :=
  ⟨"k1", contactID, some "v", .direct, .resolved, 0, none, .liveInbound, none, "p", 60, 480, none, none,
    some 600000, some "u", some .handled, none, 0⟩

/-- Two messages and a reply, another message and a reply. -/
def exampleTables : AnalyticsTables where
  messages := [exampleMessage "m1" (some "c") false 1, exampleMessage "m2" (some "c") false 2,
    exampleMessage "m3" (some "c") true 3, exampleMessage "m4" (some "c") false 4,
    exampleMessage "m5" (some "c") true 5]
  cases := [exampleCase (some "c")]
  contacts := [⟨"c", some "Ada"⟩]
  policies := []

/-- A message of a conversation without a contact. -/
def contactlessTables : AnalyticsTables where
  messages := [exampleMessage "m1" none false 1]
  cases := [exampleCase none]
  contacts := []
  policies := []

/-- The tables when the case is about to be closed. -/
def beforeClosing : CaseDb where
  contacts := ["c"]
  conversations := []
  cases := [{ exampleCase (some "c") with
    status := .opened
    resolvedAt := none
    resolvedBy := none
    resolutionOutcome := none }]
  states := []
  assignments := []
  messages := exampleTables.messages

theorem episodes_partition_example :
    ∃ rows, fetchEpisodesWithPolicy exampleTables 0 1000000 = .ok rows ∧ rows.length = 2 ∧
      (∃ episodes, Partitions exampleTables 0 1000000 rows (exampleCase (some "c")) episodes) ∧
      ∀ row ∈ rows, row.caseID = "k1" → ∀ override now o,
        computeEpisodeOutcome epochDay row override now = .ok (some o) →
        ¬ (o.isTerminal = true ∧ o.responseTime = none) := by
  have h := episodes_partition_turns epochDay exampleTables ⟨by decide, by decide⟩ 0 1000000 _ rfl
    (exampleCase (some "c")) List.mem_cons_self
  let supply : Supply := ⟨7, 7, "-", none⟩
  let input : ResolveCaseInput := ⟨.handled, none, "u"⟩
  refine ⟨_, rfl, rfl, h.1, h.2 id beforeClosing ((resolveActiveCase id "c" supply input).run beforeClosing).2
    ⟨⟨"c", supply, input, rfl, Or.inl rfl⟩, fun m _ => Iff.rfl⟩ (by decide)⟩

/-- The latest turn is not answered, and the query shows no episode of the case. -/
theorem contactless_episode_not_shown :
    Episode.Of (caseMessages contactlessTables.messages "k1") ⟨exampleMessage "m1" none false 1, [], none⟩ ∧
      hasUnansweredLatestTurn contactlessTables.messages "k1" = true ∧
      fetchEpisodesWithPolicy contactlessTables 0 1000000 = .ok [] := by
  refine ⟨⟨[], ⟨⟨[], rfl, fun x hx => by cases hx⟩, List.cons_ne_nil _ _, ?_, ?_⟩, rfl⟩, rfl, rfl⟩
  · intro x hx
    rw [List.mem_singleton.mp hx]
    rfl
  · intro x hx
    cases hx

end TeamInbox.Sla
