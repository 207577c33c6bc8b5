import TeamInbox.Messages.CleanupBatch

/-!
# TeamInbox.Messages.LateOutcome — a timeout that the ledger disproves

A message failed by a timeout stays as it is until it is known to have been sent (`Pursued`), unless an unknown
outcome is reported for it: that names it by its final id and makes it pending.  A later reconciliation that finds
it failed by the timeout, and its command recorded as sent, leaves it sent.
-/

namespace TeamInbox.Messages

open Lib

open Worker (StoredCommandResult)

/-- The row of message `p` failed by a timeout. -/
def timedOut (p : String) (r : MessageRow) : Bool :=
  decide (r.messageId = p) && r.fromMe && decide (r.status = some .failed) &&
    r.metadata.any fun m => decide (m.find? "error" = some deliveryTimeout)

/-- Failed by a timeout, or sent, delivered or read. -/
def Pursued (p : String) (r : MessageRow) : Prop := timedOut p r = true ∨ 1 ≤ r.rank

namespace CompanyDb

/-- Row `i` of the connection is such a row. -/
def Has (s : CompanyDb) (c : String) (i : ℕ) (P : MessageRow → Prop) : Prop :=
  ∃ r ∈ (s.messages c).rows, r.id = i ∧ P r

end CompanyDb

theorem timedOut_iff {p : String} {r : MessageRow} : timedOut p r = true ↔
    r.messageId = p ∧ r.fromMe = true ∧ r.status = some .failed ∧
      (r.metadata.any fun m => decide (m.find? "error" = some deliveryTimeout)) = true := by
  simp only [timedOut, Bool.and_eq_true, decide_eq_true_eq, and_assoc]

theorem not_pursued_of_pending {p : String} {r : MessageRow} (h : r.status = some .pending) : ¬ Pursued p r := by
  rintro (htimed | hrank)
  · rw [(timedOut_iff.mp htimed).2.2.1] at h
    exact absurd h (by decide)
  · rw [MessageRow.rank, h] at hrank
    exact absurd hrank (by decide)

theorem undecided_of_timedOut {p : String} {r : MessageRow} (h : timedOut p r = true) : undecided r = true := by
  obtain ⟨-, -, hstatus, herror⟩ := timedOut_iff.mp h
  rw [undecided, hstatus, herror]
  rfl

/-! ### Events -/

/-- No report of an unknown outcome of message `p`; what WhatsApp itself reports never speaks of a pending id. -/
def SparesPending (p : String) : MessageAction → Prop
  | .sendFailed p' .unknown _ _ => p' ≠ p
  | .message _ messageId _ _ _ _ => messageId ≠ p
  | _ => True

theorem rank_receiptSets {type messageId : String} {dbStatus : MessageStatus} (r : MessageRow)
    (h : mapReceiptStatus type = some dbStatus) : 1 ≤ (receiptSets dbStatus messageId r).rank :=
  one_le_rank (mapReceiptStatus_cases h)

theorem RowMove.pursued {p : String} {a : MessageAction} {r r' : MessageRow} (h : RowMove a r r')
    (ha : SparesPending p a) (hr : Pursued p r) : Pursued p r' := by
  cases h with
  | same => exact hr
  | receipt hdb hid => exact .inr (rank_receiptSets r hdb)
  | @confirmation p' m r hid =>
    refine .inr ?_
    rw [rank_confirmationSets]
    exact le_max_right r.rank MessageStatus.sent.rank
  | unknown hsel =>
    rcases hr with htimed | hrank
    · simp only [unknownSelects, Bool.and_eq_true, decide_eq_true_eq] at hsel
      exact absurd (hsel.1.symm.trans (timedOut_iff.mp htimed).1) ha
    · rw [unknownSelects_rank hsel] at hrank
      exact absurd hrank (by decide)
  | failed hpending => exact absurd hr (not_pursued_of_pending hpending)
  | history hid =>
    rcases hr with htimed | hrank
    · exact absurd (hid.symm.trans (timedOut_iff.mp htimed).1) ha
    · exact .inr (hrank.trans ((le_max_left _ _).trans (rank_mergeStatus _ _).ge))

/-! ### Statements -/

theorem reconcileSets_sent {o : StoredCommandResult} {failedAt : String} {r : MessageRow} (h : o.failed = false) :
    (reconcileSets o failedAt r).rank = 1 := by
  show ((some (if o.failed = true then MessageStatus.failed else .sent)).map (·.rank)).getD 0 = 1
  rw [h]
  rfl

theorem pursued_reconcileRow {p : String} {batch : List OutcomeRow} {failedAt c : String} {r : MessageRow}
    (hsent : ∀ o, outcomeOf batch c r = some o → r.messageId = p → o.failed = false) (hr : Pursued p r) :
    Pursued p (reconcileRow batch failedAt c r) := by
  unfold reconcileRow
  split
  · next o ho =>
    split_ifs with hsel
    · rcases hr with htimed | hrank
      · exact .inr (reconcileSets_sent (hsent o ho (timedOut_iff.mp htimed).1)).ge
      · rw [rank_of_undecided hsel] at hrank
        exact absurd hrank (by decide)
    · exact hr
  · exact hr

theorem pursued_expireRow {p companyId : String} {timestamp : ℕ → ℕ} {w : CleanupCycle} {seen : CompanyDb}
    {batch : List (String × ℕ)} {failedAt c : String} {r : MessageRow} (hr : Pursued p r) :
    Pursued p (expireRow companyId timestamp w seen batch failedAt c r) := by
  unfold expireRow
  split_ifs with h
  · have hpending := status_of_waits (stale_iff.mp (Bool.and_eq_true_iff.mp h).2).1
    exact absurd hr (not_pursued_of_pending hpending)
  · exact hr

/-! ### Runs -/

section Runs

variable {companyId : String} {connections : List String} {timestamp : ℕ → ℕ} {c p : String} {i : ℕ}

/-- The ledger that `reconcileProcessedCommands` sees shows no failure of the command; no unknown outcome is
reported. -/
def Undisturbed (companyId c p : String) (t : Calls CompanyDb CleanupCall) :
    CallAction CleanupAction CompanyEvent → Prop
  | .env (.message c' a) => c' = c → SparesPending p a
  | .act q _ => ∀ w seen, t.calls q = .reconciling w seen → ∀ o ∈ seen.outcomes companyId p, o.failed = false
  | _ => True

/-- A cycle found row `i` failed by the timeout and its command recorded as sent: now the message is sent. -/
def Repaired (companyId : String) (connections : List String) (timestamp : ℕ → ℕ) (c p : String) (i : ℕ)
    (t t' : Calls CompanyDb CleanupCall) : Prop :=
  ∀ q w seen w' first, t.calls q = .reconciling w seen → t'.calls q = .reconciled w' first →
    c ∈ connections → timestamp i < w.cutoff → seen.Has c i (timedOut p · = true) →
    seen.outcomes companyId p ≠ [] → (c, i) ∉ first.locked → first.exhausted = false →
    t'.shared.Has c i (1 ≤ ·.rank)

def PursuedInv (c p : String) (i : ℕ) (t : Calls CompanyDb CleanupCall) : Prop :=
  IdsUnique t.shared ∧ t.shared.Has c i (Pursued p)

theorem has_rewrites {s s' : CompanyDb} {f : String → MessageRow → MessageRow} {P Q : MessageRow → Prop}
    (h : Rewrites s s' f) (hid : ∀ r, (f c r).id = r.id) (hP : s.Has c i P)
    (hPQ : ∀ r ∈ (s.messages c).rows, P r → Q (f c r)) : s'.Has c i Q := by
  obtain ⟨r, hr, hi, hp⟩ := hP
  exact ⟨f c r, h.rows c ▸ List.mem_map_of_mem hr, (hid r).trans hi, hPQ r hr hp⟩

theorem CleanupMove.pursued {s s' : CompanyDb} {x y : CleanupCall} (hids : IdsUnique s)
    (h : CleanupMove companyId connections timestamp s x s' y)
    (hsent : ∀ w seen, x = .reconciling w seen → ∀ o ∈ seen.outcomes companyId p, o.failed = false)
    (hs : s.Has c i (Pursued p)) : s'.Has c i (Pursued p) := by
  cases h with
  | begin | reconcileFails | examine | expireFails => exact hs
  | reconcile h =>
    refine has_rewrites h (fun r => (later_reconcileRow _ _ _ r).id) hs fun r hr hp => ?_
    refine pursued_reconcileRow (fun o ho hname => hsent _ _ rfl o ?_) hp
    exact hname ▸ (outcomeOf_sound hids hr ho).2
  | expire h =>
    exact has_rewrites h (fun r => (later_expireRow _ _ _ _ _ _ _ r).id) hs fun r _ hp => pursued_expireRow hp

theorem CleanupMove.repaired {s s' : CompanyDb} {w w' : CleanupCycle} {seen : CompanyDb} {first : Pass}
    (hids : IdsUnique s) (h : CleanupMove companyId connections timestamp s (.reconciling w seen) s'
      (.reconciled w' first))
    (hsent : ∀ o ∈ seen.outcomes companyId p, o.failed = false) (hs : s.Has c i (Pursued p))
    (hc : c ∈ connections) (hold : timestamp i < w.cutoff) (hseen : seen.Has c i (timedOut p · = true))
    (houtcome : seen.outcomes companyId p ≠ []) (hlocked : (c, i) ∉ first.locked)
    (hfull : first.exhausted = false) : s'.Has c i (1 ≤ ·.rank) := by
  cases h with
  | reconcile h =>
    obtain ⟨r₀, hr₀, rfl, htimed₀⟩ := hseen
    have hreconcilable : ∀ r : MessageRow, r.id = r₀.id → timedOut p r = true →
        reconcilable timestamp w r = true := by
      intro r hid htimed
      rw [reconcilable, undecided_of_timedOut htimed, (timedOut_iff.mp htimed).2.1, hid, decide_eq_true hold]
      rfl
    obtain ⟨r, hr, hid, hpursued⟩ := hs
    refine ⟨_, h.rows c ▸ List.mem_map_of_mem hr, (later_reconcileRow _ _ _ r).id.trans hid, ?_⟩
    rcases hpursued with htimed | hrank
    · have hname := (timedOut_iff.mp htimed).1
      have hname₀ := (timedOut_iff.mp htimed₀).1
      obtain ⟨o, ho⟩ := outcomeOf_complete hc hr₀ (hreconcilable r₀ rfl htimed₀) (hname₀ ▸ houtcome) hlocked hr hid
        (hname.trans hname₀.symm) (hreconcilable r hid htimed) hfull
      have hout := (outcomeOf_sound hids hr ho).2
      rw [reconcileRow, ho]
      show 1 ≤ (if undecided r = true then _ else r).rank
      rw [if_pos (undecided_of_timedOut htimed)]
      exact (reconcileSets_sent (hsent o (hname ▸ hout))).ge
    · show 1 ≤ (reconcileRow _ _ c r).rank
      rw [reconcileRow_of_rank hrank]
      exact hrank

theorem CompanyDb.Has.later {s s' : CompanyDb} {e : CompanyEvent}
    (h : companyEnv companyId e s = some s') (he : ∀ c' a, e = .message c' a → c' = c → SparesPending p a)
    (hs : s.Has c i (Pursued p)) : s'.Has c i (Pursued p) := by
  obtain ⟨r, hr, hi, hpursued⟩ := hs
  cases e with
  | enqueue command | ledger sessionId commandId write =>
    obtain rfl := Option.some.inj h
    exact ⟨r, hr, hi, hpursued⟩
  | send c' id messageId metadata sessionId commandId =>
    rcases storeSend_cases h with rfl | ⟨-, -, rfl⟩
    · exact ⟨r, hr, hi, hpursued⟩
    · refine ⟨r, ?_, hi, hpursued⟩
      show r ∈ ((s.setMessages c' _).messages c).rows
      rw [messages_setMessages]
      split_ifs with hc
      · exact List.mem_append_left _ (hc ▸ hr)
      · exact hr
  | message c' a =>
    simp only [companyEnv] at h
    split_ifs at h with ha
    obtain ⟨store, hstep, rfl⟩ := Option.map_eq_some_iff.mp h
    by_cases hc : c = c'
    · subst hc
      have hspared := he c a rfl rfl
      have hstore : ∃ r' ∈ store.rows, r'.id = r.id ∧ Pursued p r' := by
        rcases messageStep_rows ha hstep with ⟨t, -, hrows⟩ | ⟨f, hrows, hmove, -⟩
        · exact ⟨r, hrows ▸ List.mem_append_left _ hr, rfl, hpursued⟩
        · exact ⟨f r, hrows ▸ List.mem_map_of_mem hr, (hmove r).later.id, (hmove r).pursued hspared hpursued⟩
      obtain ⟨r', hr', hid, hp⟩ := hstore
      refine ⟨r', ?_, hid.trans hi, hp⟩
      rw [messages_setMessages, if_pos rfl]
      exact hr'
    · refine ⟨r, ?_, hi, hpursued⟩
      rw [messages_setMessages, if_neg hc]
      exact hr

theorem pursuedInv_step {t t' : Calls CompanyDb CleanupCall} {a : CallAction CleanupAction CompanyEvent}
    (hI : PursuedInv c p i t) (hC : Undisturbed companyId c p t a)
    (h : (cleanupSystem companyId connections timestamp).step t a = some t') :
    PursuedInv c p i t' ∧ Repaired companyId connections timestamp c p i t t' := by
  obtain ⟨hids, hs⟩ := hI
  cases a with
  | act q a =>
    obtain ⟨s', y, hact, rfl⟩ := Machine.step_act h
    have hmove := cleanupAct_cases (p := q) hact
    refine ⟨⟨hmove.idsUnique hids, hmove.pursued hids hC hs⟩, ?_⟩
    intro q' w seen w' first hx hy hc hold hseen houtcome hlocked hfull
    by_cases hq : q' = q
    · subst hq
      rw [Calls.calls_set_self] at hy
      rw [hx, hy] at hmove
      exact hmove.repaired hids (hC w seen hx) hs hc hold hseen houtcome hlocked hfull
    · rw [Calls.calls_set_ne _ _ _ hq, hx] at hy
      cases hy
  | env e =>
    obtain ⟨s', henv, rfl⟩ := Machine.step_env h
    refine ⟨⟨(companyEnv_since hids henv).1, CompanyDb.Has.later henv (fun c' a he hc => ?_) hs⟩, ?_⟩
    · subst he
      exact hC hc
    · intro q w seen w' first hx hy
      rw [hx] at hy
      cases hy

end Runs

end TeamInbox.Messages
