import TeamInbox.Messages.LateOutcome
import TeamInbox.Messages.FinalIds

/-!
# TeamInbox.Messages.StaleSends — what the cleanup promises

A timeout is never put on a message whose command the ledger showed as sent when the statement began, and no cycle
touches a message that is known to be sent.  What a cycle leaves pending without metadata, although it was so
whenever a statement looked, somebody still accounts for: the worker is on it, or it has reported its outcome since
the reconciliation looked.  Rows that others have locked wait for the next cycle.

A pending message that was stored with metadata, as a scheduled document is, never times out.
-/

namespace TeamInbox.Messages

open Lib

open Worker (StoredCommandResult)

namespace CompanyDb

variable (companyId : String)

/-- A command of message `messageId` that the ledger knows something of. -/
def shows (s : CompanyDb) (what : StoredCommandResult → Bool) (messageId : String) : Bool :=
  (s.processedCommands companyId).any fun c => decide (c.2.pendingMessageID = messageId) && what c.2

def undetermined (s : CompanyDb) (messageId : String) : Bool :=
  s.shows companyId (fun r => r.inFlight || r.unknown) messageId

def showsSent (s : CompanyDb) (messageId : String) : Bool :=
  s.shows companyId (fun r => (responseId r).isSome) messageId

/-- Row `i` of the connection waits: it is pending and has no metadata. -/
def WaitsAt (s : CompanyDb) (c : String) (i : ℕ) : Prop := s.Has c i (waits · = true)

end CompanyDb

def markedTimedOut (r : MessageRow) : Bool := r.metadata.any fun m => decide (m.find? "error" = some deliveryTimeout)

section Cycle

variable (companyId : String) (connections : List String) (timestamp : ℕ → ℕ)

/-- What a finished cycle leaves waiting, somebody accounts for. -/
def Complete (s : CompanyDb) (w : CleanupCycle) (first second : Pass) : Prop :=
  first.exhausted = false → second.exhausted = false →
    ∀ c ∈ connections, ∀ r ∈ (s.messages c).rows, waits r = true → timestamp r.id < w.cutoff →
      (c, r.id) ∉ first.locked → (c, r.id) ∉ second.locked →
      first.seen.WaitsAt c r.id → first.met.WaitsAt c r.id → second.seen.WaitsAt c r.id →
      second.seen.undetermined companyId r.messageId = true ∨
        second.seen.shows companyId processed r.messageId = true ∧ first.seen.outcomes companyId r.messageId = []

structure SoundStep (s : CompanyDb) (x : CleanupCall) (s' : CompanyDb) (y : CleanupCall) : Prop where
  /-- the ledger did not show a sent message that is marked as timed out -/
  truthful : ∀ c, ∀ r ∈ (s.messages c).rows, ∀ r' ∈ (s'.messages c).rows, r'.id = r.id → markedTimedOut r = false →
    markedTimedOut r' = true → ∃ w first seen, x = .expiring w first seen ∧
      seen.showsSent companyId r.messageId = false
  /-- a message that is sent, delivered or read is left alone -/
  kept : ∀ c, ∀ r ∈ (s.messages c).rows, 1 ≤ r.rank → r ∈ (s'.messages c).rows
  complete : ∀ w first second, y = .finished w first second →
    Complete companyId connections timestamp s' w first second

def Sound (t : Calls CompanyDb CleanupCall) : CallAction CleanupAction CompanyEvent → Calls CompanyDb CleanupCall → Prop
  | .act p _, t' => SoundStep companyId connections timestamp t.shared (t.calls p) t'.shared (t'.calls p)
  | .env _, _ => True

/-- The reconciliation has looked at the rows that waited. -/
structure PassOk (s : CompanyDb) (w : CleanupCycle) (first : Pass) : Prop where
  seen : Since first.seen s
  settled : first.exhausted = false → ∀ c ∈ connections, ∀ r ∈ (first.met.messages c).rows, waits r = true →
    timestamp r.id < w.cutoff → (c, r.id) ∉ first.locked → first.seen.WaitsAt c r.id →
    first.seen.outcomes companyId r.messageId ≠ [] → s.Has c r.id Done
  met : Since first.met s

def CallOk (s : CompanyDb) : CleanupCall → Prop
  | .reconciling _ seen => Since seen s
  | .reconciled w first => PassOk companyId connections timestamp s w first
  | .expiring w first seen => PassOk companyId connections timestamp s w first ∧ Since seen s
  | _ => True

end Cycle

variable {companyId : String} {connections : List String} {timestamp : ℕ → ℕ} {s s' : CompanyDb} {c : String}
  {r : MessageRow}

theorem has_done_since {i : ℕ} (h : s.Has c i Done) (hss : Since s s') : s'.Has c i Done := by
  obtain ⟨r, hr, hi, hd⟩ := h
  obtain ⟨r', hr', hl⟩ := hss c r hr
  exact ⟨r', hr', hl.id.trans hi, hl.done hd⟩

theorem PassOk.since {w : CleanupCycle} {first : Pass} (h : PassOk companyId connections timestamp s w first)
    (hss : Since s s') : PassOk companyId connections timestamp s' w first :=
  ⟨h.seen.trans hss, fun hfull c hc r hr hw hold hl hseen ho =>
    has_done_since (h.settled hfull c hc r hr hw hold hl hseen ho) hss, h.met.trans hss⟩

theorem CallOk.since {x : CleanupCall} (h : CallOk companyId connections timestamp s x) (hss : Since s s') :
    CallOk companyId connections timestamp s' x := by
  cases x with
  | idle | finished w first second | aborted => trivial
  | reconciling w seen => exact Since.trans h hss
  | reconciled w first => exact PassOk.since h hss
  | expiring w first seen => exact ⟨PassOk.since h.1 hss, h.2.trans hss⟩

theorem name_of_waitsAt {seen : CompanyDb} (hss : Since seen s) (hids : IdsUnique s) (hr : r ∈ (s.messages c).rows)
    (hw : waits r = true) (hseen : seen.WaitsAt c r.id) :
    ∃ r₀ ∈ (seen.messages c).rows, r₀.id = r.id ∧ waits r₀ = true ∧ r₀.messageId = r.messageId := by
  obtain ⟨r₀, hr₀, hid, hw₀⟩ := hseen
  obtain ⟨r', hr', hl⟩ := hss c r₀ hr₀
  obtain rfl := hids.eq hr' hr (hl.id.trans hid)
  exact ⟨r₀, hr₀, hid, hw₀, (hl.named.resolve_right (not_done_of_waits hw)).symm⟩

/-! ### The reconciliation -/

theorem passOk_reconcile {w : CleanupCycle} {seen : CompanyDb} {locked : List (String × ℕ)} {failedAt : String}
    (hids : IdsUnique s) (hseen : Since seen s) (h : Rewrites s s'
      (reconcileRow (reconcileBatch companyId connections timestamp w seen s locked) failedAt)) :
    PassOk companyId connections timestamp s' w ⟨seen, s, locked,
      decide (w.batchSize ≤ (reconcileBatch companyId connections timestamp w seen s locked).length)⟩ := by
  have hss : Since s s' := h.since fun c => later_reconcileRow _ _ c
  refine ⟨hseen.trans hss, fun hfull c hc r hr hw hold hl hat houtcome => ?_, hss⟩
  obtain ⟨r₀, hr₀, hid, hw₀, hname⟩ := name_of_waitsAt hseen hids hr hw hat
  have hl : (c, r.id) ∉ locked := hl
  obtain ⟨o, ho⟩ := outcomeOf_complete hc hr₀ (reconcilable_of_waits hw₀ (hid ▸ hold)) (by rw [hname]; exact houtcome)
    (by rw [hid]; exact hl) hr hid.symm hname.symm (reconcilable_of_waits hw hold) hfull
  exact ⟨_, h.rows c ▸ List.mem_map_of_mem hr, (later_reconcileRow _ _ c r).id,
    done_reconcileRow ho (undecided_of_waits hw)⟩

theorem markedTimedOut_reconcileRow {batch : List OutcomeRow} {failedAt : String} (h : markedTimedOut r = false) :
    markedTimedOut (reconcileRow batch failedAt c r) = false := by
  unfold reconcileRow
  split
  · next o ho =>
    split_ifs with hsel
    · show Option.any _ (if o.failed = true then _ else clearTimeout r.metadata) = false
      split_ifs with hfailed
      · rw [Option.any_some, find?_error_mergeEntries r.metadata "send_failed" (by simp)]
        decide
      · unfold clearTimeout
        cases hm : r.metadata with
        | none => rfl
        | some m =>
          rw [markedTimedOut, hm] at h
          have hne : ¬ m.find? "error" = some deliveryTimeout := of_decide_eq_false h
          show Option.any _ (if m.find? "error" = some deliveryTimeout then _ else some m) = false
          rw [if_neg hne]
          exact h
    · exact h
  · exact h

/-! ### The timeout -/

theorem shows_false {what : StoredCommandResult → Bool} {messageId : String}
    (hwhat : ∀ r, what r = true → accounted r = true) (h : s.accountedFor companyId messageId = false) :
    s.shows companyId what messageId = false := by
  rw [Bool.eq_false_iff] at h ⊢
  intro hshows
  obtain ⟨command, hmem, hcond⟩ := List.any_eq_true.mp hshows
  rw [Bool.and_eq_true] at hcond
  exact h (List.any_eq_true.mpr ⟨command, hmem, Bool.and_eq_true_iff.mpr ⟨hcond.1, hwhat _ hcond.2⟩⟩)

theorem accounted_of_sent (r : StoredCommandResult) (h : (responseId r).isSome = true) : accounted r = true := by
  rw [accounted, h, Bool.or_true]

theorem accountedFor_cases {messageId : String} (h : s.accountedFor companyId messageId = true) :
    s.undetermined companyId messageId = true ∨ s.shows companyId processed messageId = true := by
  obtain ⟨command, hmem, hcond⟩ := List.any_eq_true.mp h
  rw [Bool.and_eq_true] at hcond
  by_cases hopen : (command.2.inFlight || command.2.unknown) = true
  · exact .inl (List.any_eq_true.mpr ⟨command, hmem, Bool.and_eq_true_iff.mpr ⟨hcond.1, hopen⟩⟩)
  · refine .inr (List.any_eq_true.mpr ⟨command, hmem, Bool.and_eq_true_iff.mpr ⟨hcond.1, ?_⟩⟩)
    simp only [Bool.not_eq_true, Bool.or_eq_false_iff] at hopen
    have hacc := hcond.2
    rw [accounted, hopen.1, hopen.2, Bool.or_false, Bool.or_false] at hacc
    exact hacc

theorem complete_expire {w : CleanupCycle} {first : Pass} {seen : CompanyDb} {locked : List (String × ℕ)}
    {failedAt : String} (hids : IdsUnique s) (hfirst : PassOk companyId connections timestamp s w first)
    (hseen : Since seen s) (h : Rewrites s s' (expireRow companyId timestamp w seen
      (expireBatch companyId connections timestamp w seen s locked) failedAt)) :
    Complete companyId connections timestamp s' w first ⟨seen, s, locked,
      decide (w.batchSize ≤ (expireBatch companyId connections timestamp w seen s locked).length)⟩ := by
  intro hfull₁ hfull₂ c hc r' hr' hw' hold hl₁ hl₂ hat₁ hatmet hat₂
  rw [h.rows] at hr'
  obtain ⟨r, hr, rfl⟩ := List.mem_map.mp hr'
  by_cases hchosen : (decide ((c, r.id) ∈ expireBatch companyId connections timestamp w seen s locked) &&
      stale companyId timestamp w seen r) = true
  · rw [Bool.and_eq_true, decide_eq_true_eq] at hchosen
    rw [not_waits_expireRow hchosen.1 hchosen.2] at hw'
    exact absurd hw' Bool.false_ne_true
  · have hsame : expireRow companyId timestamp w seen
        (expireBatch companyId connections timestamp w seen s locked) failedAt c r = r := if_neg hchosen
    rw [hsame] at hw' hold hl₁ hl₂ hat₁ hatmet hat₂ ⊢
    have hacc : seen.accountedFor companyId r.messageId = true := by
      by_contra hnone
      rw [Bool.not_eq_true] at hnone
      -- nobody accounts for the row: it would have been chosen
      obtain ⟨r₀, hr₀, hid, hw₀, hname⟩ := name_of_waitsAt hseen hids hr hw' hat₂
      have hstale : stale companyId timestamp w seen r = true := stale_iff.mpr ⟨hw', hold, hnone⟩
      have hstale₀ : stale companyId timestamp w seen r₀ = true :=
        stale_iff.mpr ⟨hw₀, by rw [hid]; exact hold, by rw [hname]; exact hnone⟩
      have hl₂ : (c, r₀.id) ∉ locked := by rw [hid]; exact hl₂
      refine hchosen ?_
      rw [hstale, Bool.and_true, decide_eq_true_eq]
      exact mem_expireBatch hc hr₀ hstale₀ hl₂ hr hid.symm hstale hfull₂
    refine (accountedFor_cases hacc).imp_right fun hprocessed => ⟨hprocessed, ?_⟩
    by_contra houtcome
    obtain ⟨r₁, hr₁, hid₁, hw₁, hname₁⟩ := name_of_waitsAt hfirst.met hids hr hw' hatmet
    obtain ⟨r₂, hr₂, hid₂, hdone⟩ := hfirst.settled hfull₁ c hc r₁ hr₁ hw₁ (by rw [hid₁]; exact hold)
      (by rw [hid₁]; exact hl₁) (by rw [hid₁]; exact hat₁) (by rw [hname₁]; exact houtcome)
    obtain rfl := hids.eq hr₂ hr (hid₂.trans hid₁)
    exact not_done_of_waits hw' hdone

/-! ### Steps -/

theorem CleanupMove.kept {x y : CleanupCall} (h : CleanupMove companyId connections timestamp s x s' y)
    (hr : r ∈ (s.messages c).rows) (hrank : 1 ≤ r.rank) : r ∈ (s'.messages c).rows := by
  cases h with
  | begin | reconcileFails | examine | expireFails => exact hr
  | reconcile h =>
    rw [h.rows]
    exact List.mem_map.mpr ⟨r, hr, reconcileRow_of_rank hrank⟩
  | expire h =>
    rw [h.rows]
    exact List.mem_map.mpr ⟨r, hr, expireRow_of_rank hrank⟩

theorem CleanupMove.truthful {x y : CleanupCall} (hids : IdsUnique s)
    (h : CleanupMove companyId connections timestamp s x s' y) {r' : MessageRow} (hr : r ∈ (s.messages c).rows)
    (hr' : r' ∈ (s'.messages c).rows) (hid : r'.id = r.id) (hmark : markedTimedOut r = false)
    (hmark' : markedTimedOut r' = true) : ∃ w first seen, x = .expiring w first seen ∧
      seen.showsSent companyId r.messageId = false := by
  have hsame : ∀ {f : String → MessageRow → MessageRow}, Rewrites s s' f → (∀ r, Later r (f c r)) → r' = f c r := by
    intro f hf hlater
    rw [hf.rows] at hr'
    obtain ⟨t, ht, rfl⟩ := List.mem_map.mp hr'
    rw [hids.eq ht hr ((hlater t).id.symm.trans hid)]
  cases h with
  | begin | reconcileFails | examine | expireFails =>
    obtain rfl := hids.eq hr' hr hid
    rw [hmark] at hmark'
    exact absurd hmark' Bool.false_ne_true
  | reconcile h =>
    rw [hsame h fun r => later_reconcileRow _ _ c r, markedTimedOut_reconcileRow hmark] at hmark'
    exact absurd hmark' Bool.false_ne_true
  | @expire w first seen s' locked failedAt h =>
    refine ⟨w, first, seen, rfl, ?_⟩
    by_cases hchosen : (decide ((c, r.id) ∈ expireBatch companyId connections timestamp w seen s locked) &&
        stale companyId timestamp w seen r) = true
    · obtain ⟨-, -, hnone⟩ := stale_iff.mp (Bool.and_eq_true_iff.mp hchosen).2
      exact shows_false accounted_of_sent hnone
    · have hunchanged : expireRow companyId timestamp w seen
          (expireBatch companyId connections timestamp w seen s locked) failedAt c r = r := if_neg hchosen
      rw [hsame h fun r => later_expireRow _ _ _ _ _ _ c r, hunchanged, hmark] at hmark'
      exact absurd hmark' Bool.false_ne_true

theorem CleanupMove.ok {x y : CleanupCall} (hids : IdsUnique s) (hx : CallOk companyId connections timestamp s x)
    (h : CleanupMove companyId connections timestamp s x s' y) : CallOk companyId connections timestamp s' y := by
  cases h with
  | begin w => exact .refl s
  | reconcile h => exact passOk_reconcile hids hx h
  | examine w first => exact ⟨hx, .refl s⟩
  | reconcileFails | expire | expireFails => trivial

theorem CleanupMove.sound {x y : CleanupCall} (hids : IdsUnique s) (hx : CallOk companyId connections timestamp s x)
    (h : CleanupMove companyId connections timestamp s x s' y) :
    SoundStep companyId connections timestamp s x s' y := by
  refine ⟨fun c r hr r' hr' hid hmark hmark' => h.truthful hids hr hr' hid hmark hmark',
    fun c r hr hrank => h.kept hr hrank, fun w first second hy => ?_⟩
  cases h with
  | begin | reconcileFails | examine | expireFails | reconcile => cases hy
  | expire h =>
    cases hy
    exact complete_expire hids hx.1 hx.2 h

theorem callOk_step {t t' : Calls CompanyDb CleanupCall} {a : CallAction CleanupAction CompanyEvent}
    (hs : Holds IdsUnique (fun s _ => CallOk companyId connections timestamp s) t)
    (h : (cleanupSystem companyId connections timestamp).step t a = some t') :
    Holds IdsUnique (fun s _ => CallOk companyId connections timestamp s) t' ∧
      Sound companyId connections timestamp t a t' := by
  constructor
  · refine Machine.holds_step (C := fun _ _ => True) ?_ ?_ t a t' hs trivial h
    · intro t p a s' y hs _ hact
      have hmove := cleanupAct_cases (p := p) hact
      exact ⟨hmove.idsUnique hs.1, hmove.ok hs.1 (hs.2 p), fun q _ => (hs.2 q).since hmove.since⟩
    · intro t e s' hs _ henv
      obtain ⟨hids, hss⟩ := companyEnv_since hs.1 henv
      exact ⟨hids, fun q => (hs.2 q).since hss⟩
  · cases a with
    | env e => trivial
    | act p a =>
      obtain ⟨s', y, hact, rfl⟩ := Machine.step_act h
      have hsound := (cleanupAct_cases (p := p) hact).sound hs.1 (hs.2 p)
      show SoundStep companyId connections timestamp t.shared (t.calls p) s' ((t.set p s' y).calls p)
      rw [Calls.calls_set_self]
      exact hsound

/-! ### Runs -/

section Runs

variable (companyId : String) (connections : List String) (timestamp : ℕ → ℕ)

def cleanupStart : Calls CompanyDb CleanupCall := Calls.start .empty .idle

/-- A message failed by a timeout, whose command the ledger records as sent, is sent after the next cycle that
finds it so, if no report of an unknown outcome has come in between. -/
def RepairsTimeouts (as : List (CallAction CleanupAction CompanyEvent)) : Prop :=
  ∀ t c i p bs, runActions (cleanupSystem companyId connections timestamp).step cleanupStart as = some t →
    t.shared.Has c i (timedOut p · = true) →
    Meets (cleanupSystem companyId connections timestamp).step (Undisturbed companyId c p) t bs →
    Steps (cleanupSystem companyId connections timestamp).step
      (fun t _ t' => Repaired companyId connections timestamp c p i t t') t bs

/-- No cycle fails on the unique constraint as long as no message event comes before the rename. -/
def RenamesFreely (as : List (CallAction CleanupAction CompanyEvent)) : Prop :=
  ∀ ids, Meets (cleanupSystem companyId connections timestamp).step (InOrder ids) cleanupStart as →
    Always (cleanupSystem companyId connections timestamp).step (fun t => ∀ p, t.calls p ≠ .aborted) cleanupStart as

theorem holds_cleanupStart :
    Holds IdsUnique (fun s _ => CallOk companyId connections timestamp s) cleanupStart :=
  holds_start (fun _ => List.nodup_nil) fun _ => trivial

/-- **The cleanup of stale sends.** -/
theorem stale_sends_settled (as : List (CallAction CleanupAction CompanyEvent)) :
    Steps (cleanupSystem companyId connections timestamp).step (Sound companyId connections timestamp)
        cleanupStart as ∧
      RepairsTimeouts companyId connections timestamp as ∧ RenamesFreely companyId connections timestamp as := by
  have hinv : Always (cleanupSystem companyId connections timestamp).step
      (Holds IdsUnique fun s _ => CallOk companyId connections timestamp s) cleanupStart as :=
    always_of_step (fun _ _ _ hs h => (callOk_step hs h).1) (holds_cleanupStart companyId connections timestamp) as
  refine ⟨?_, fun t c i p bs hrun htimed hC => ?_, fun ids hC => ?_⟩
  · exact steps_of_meets (C := fun _ _ => True) (fun _ a _ hs _ h => callOk_step (a := a) hs h)
      (holds_cleanupStart companyId connections timestamp) (meets_of_forall fun _ _ => trivial)
  · have hids : IdsUnique t.shared := (always_iff_reached.mp hinv as [] t (List.append_nil as).symm hrun).1
    obtain ⟨r, hr, hi, htimed⟩ := htimed
    exact steps_of_meets (I := PursuedInv c p i) (fun _ _ _ hI hC h => pursuedInv_step hI hC h)
      ⟨hids, r, hr, hi, .inl htimed⟩ hC
  · have hstart : Holds (NamedInv ids) (fun _ _ => CallHonest ids) cleanupStart :=
      holds_start namedInv_empty fun _ => trivial
    refine (always_of_meets (fun _ _ _ hs hC h => namedInv_step hs hC h) hstart hC).mono fun t ht p hp => ?_
    have hcall := ht.2 p
    rw [hp] at hcall
    exact hcall

end Runs

/-! ### Cycles that leave something behind -/

section Overlooked

variable (companyId : String) (connections : List String) (timestamp : ℕ → ℕ)

/-- Nothing older than the cutoff is still pending unless the ledger says that it is in flight or unknown. -/
def NothingPending (s : CompanyDb) (w : CleanupCycle) (first second : Pass) : Prop :=
  first.exhausted = false → second.exhausted = false →
    ∀ c ∈ connections, ∀ r ∈ (s.messages c).rows, r.fromMe = true → r.status = some .pending →
      timestamp r.id < w.cutoff → s.undetermined companyId r.messageId = true

instance (s : CompanyDb) (w : CleanupCycle) (first second : Pass) :
    Decidable (NothingPending companyId connections timestamp s w first second) :=
  inferInstanceAs (Decidable (_ → _ → ∀ c ∈ connections, ∀ r ∈ (s.messages c).rows, _ → _ → _ → _))

def LeavesNothing (a : CallAction CleanupAction CompanyEvent) (t : Calls CompanyDb CleanupCall) : Prop :=
  ∀ p x w first second, a = .act p x → t.calls p = .finished w first second →
    NothingPending companyId connections timestamp t.shared w first second

/-- Call `p` has finished and left something. -/
def leavesBehind (p : ℕ) (t : Calls CompanyDb CleanupCall) : Bool :=
  match t.calls p with
  | .finished w first second => !decide (NothingPending companyId connections timestamp t.shared w first second)
  | _ => false

theorem not_leavesNothing {p : ℕ} {x : CleanupAction} {t : Calls CompanyDb CleanupCall}
    (h : leavesBehind companyId connections timestamp p t = true) :
    ¬ LeavesNothing companyId connections timestamp (.act p x) t := by
  intro hall
  unfold leavesBehind at h
  split at h
  · next w first second hp =>
    rw [decide_eq_true (hall p x w first second rfl hp)] at h
    exact absurd h (by decide)
  · exact absurd h Bool.false_ne_true

/-- The cycles repair every timeout, whatever is reported in between. -/
def RepairsAlways (c p : String) (i : ℕ) (t t' : Calls CompanyDb CleanupCall) : Prop :=
  ∀ q w seen w' first, t.calls q = .reconciling w seen → t'.calls q = .reconciled w' first →
    c ∈ connections → timestamp i < w.cutoff → seen.showsSent companyId p = true → first.locked = [] →
      first.exhausted = false → t'.shared.Has c i (1 ≤ ·.rank)

/-- Call `q` had all it needed to repair the row, and has not. -/
def unrepaired (q : ℕ) (c p : String) (i : ℕ) (t t' : Calls CompanyDb CleanupCall) : Bool :=
  match t.calls q, t'.calls q with
  | .reconciling w seen, .reconciled _ first =>
    decide (c ∈ connections) && decide (timestamp i < w.cutoff) && seen.showsSent companyId p && first.locked.isEmpty &&
      !first.exhausted && (t'.shared.messages c).rows.all fun r => decide (r.id ≠ i) || decide (r.rank = 0)
  | _, _ => false

theorem not_repairsAlways {q : ℕ} {c p : String} {i : ℕ} {t t' : Calls CompanyDb CleanupCall}
    (h : unrepaired companyId connections timestamp q c p i t t' = true) :
    ¬ RepairsAlways companyId connections timestamp c p i t t' := by
  intro hall
  unfold unrepaired at h
  split at h
  · next w seen w' first hq hq' =>
    simp only [Bool.and_eq_true, decide_eq_true_eq, List.isEmpty_iff, Bool.not_eq_true', List.all_eq_true,
      Bool.or_eq_true] at h
    obtain ⟨⟨⟨⟨⟨hc, hold⟩, hsent⟩, hlocked⟩, hfull⟩, hrows⟩ := h
    obtain ⟨r, hr, hi, hrank⟩ := hall q w seen w' first hq hq' hc hold hsent hlocked hfull
    rcases hrows r hr with hne | hzero
    · exact hne hi
    · rw [hzero] at hrank
      exact absurd hrank (by decide)
  · exact absurd h Bool.false_ne_true

end Overlooked

def CleanupCall.isAborted : CleanupCall → Bool
  | .aborted => true
  | _ => false

theorem eq_aborted {x : CleanupCall} (h : x.isAborted = true) : x = .aborted := by
  cases x with
  | aborted => rfl
  | idle | reconciling | reconciled | expiring | finished => exact absurd h Bool.false_ne_true

abbrev CleanupStep := CallAction CleanupAction CompanyEvent

def sentResult : StoredCommandResult :=
  ⟨"pending", .text, ⟨"wa", 0⟩, "", false, "", false, false, "wa", 1⟩

def storeMessage (metadata : Option Metadata) : CleanupStep :=
  .env (.send "account" 1 "pending" metadata "session" "command")

def recordSent : CleanupStep := .env (.ledger "session" "command" (.save "text" sentResult))

def beginCycle (p : ℕ) : CleanupStep := .act p (.begin 2000000 30 10)

def reconcileAll (p : ℕ) : CleanupStep := .act p (.reconcile [] "now")

def expireAll (p : ℕ) : CleanupStep := .act p (.expire [] "now")

/-- The worker records the send between the two statements. -/
def outcomeBetween : List CleanupStep :=
  [storeMessage none, beginCycle 0, reconcileAll 0, recordSent, .act 0 .examine]

/-- A scheduled document keeps the name of its file; its command is never sent. -/
def scheduledDocument : List CleanupStep :=
  [storeMessage (some (mergeEntries none [("fileName", "offer.pdf")])), beginCycle 0, reconcileAll 0, .act 0 .examine]

def unsentMessage : List CleanupStep := [storeMessage none, beginCycle 0, reconcileAll 0, .act 0 .examine]

def expireOthers : CleanupStep := .act 0 (.expire [("account", 1)] "now")

/-- A history replay brings the message under its final id before it is renamed. -/
def earlyReplay : List CleanupStep :=
  [storeMessage none, .env (.message "account" (.message 2 "wa" true (some .sent) true
    ⟨none, none, none, none, none, none, none⟩)), recordSent, beginCycle 0, reconcileAll 0]

/-- The worker does not know the outcome of the message that has timed out, and finds out later. -/
def lateCertainty : List CleanupStep :=
  [.env (.message "account" (.sendFailed "pending" .unknown (some "wa") "Delivery is unconfirmed")), recordSent,
    beginCycle 1]

def exampleSystem : Machine CompanyDb CleanupCall CleanupAction CompanyEvent :=
  cleanupSystem "company" ["account"] fun _ => 0

theorem evaluated {P : Calls CompanyDb CleanupCall → Calls CompanyDb CleanupCall → Bool}
    {t : Calls CompanyDb CleanupCall} {as : List CleanupStep} {a : CleanupStep}
    (h : ((runActions exampleSystem.step t as).any fun t₁ => (exampleSystem.step t₁ a).any (P t₁)) = true) :
    ∃ t₁ t₂, runActions exampleSystem.step t as = some t₁ ∧ exampleSystem.step t₁ a = some t₂ ∧ P t₁ t₂ = true := by
  obtain ⟨t₁, hrun, h⟩ := (Option.any_eq_true _ _).mp h
  obtain ⟨t₂, hstep, hP⟩ := (Option.any_eq_true _ _).mp h
  exact ⟨t₁, t₂, hrun, hstep, hP⟩

/-- An outcome reported between the statements, a document's name, a lock: the message stays pending.  A replay that
is early violates the constraint.  A report of an unknown outcome hides the message from the reconciliation. -/
theorem stale_cleanup_overlooks :
    (∀ run ∈ [(outcomeBetween, expireAll 0), (scheduledDocument, expireAll 0), (unsentMessage, expireOthers)],
      ¬ Steps exampleSystem.step (fun _ a t' => LeavesNothing "company" ["account"] (fun _ => 0) a t') cleanupStart
        (run.1 ++ [run.2])) ∧
    (¬ ∀ as, Always exampleSystem.step (fun t => ∀ p, t.calls p ≠ .aborted) cleanupStart as) ∧
    ¬ ∀ t bs, runActions exampleSystem.step cleanupStart (unsentMessage ++ [expireAll 0]) = some t →
      t.shared.Has "account" 1 (timedOut "pending" · = true) →
      Steps exampleSystem.step
        (fun t _ t' => RepairsAlways "company" ["account"] (fun _ => 0) "account" "pending" 1 t t') t bs := by
  refine ⟨fun run hrun hsteps => ?_, fun hall => ?_, fun hall => ?_⟩
  · have hleft : ∀ run ∈ [(outcomeBetween, expireAll 0), (scheduledDocument, expireAll 0),
        (unsentMessage, expireOthers)], ((runActions exampleSystem.step cleanupStart run.1).any fun t =>
          (exampleSystem.step t run.2).any (leavesBehind "company" ["account"] (fun _ => 0) 0)) = true := by
      decide +kernel
    have hact : ∀ run ∈ [(outcomeBetween, expireAll 0), (scheduledDocument, expireAll 0),
        (unsentMessage, expireOthers)], ∃ x, run.2 = .act 0 x := by
      simp [expireAll, expireOthers]
    obtain ⟨x, hx⟩ := hact run hrun
    obtain ⟨t₁, t₂, hrun, hstep, hbad⟩ := evaluated (P := fun _ => leavesBehind "company" ["account"] (fun _ => 0) 0)
      (hleft run hrun)
    have hlast := hsteps.last hrun hstep
    rw [hx] at hlast
    exact not_leavesNothing _ _ _ hbad hlast
  · have habort : ((runActions exampleSystem.step cleanupStart earlyReplay).any
        fun t => (t.calls 0).isAborted) = true := by
      decide +kernel
    obtain ⟨t, hrun, hbad⟩ := (Option.any_eq_true _ _).mp habort
    have hfine := always_iff_reached.mp (hall earlyReplay) earlyReplay [] t (List.append_nil _).symm hrun 0
    exact hfine (eq_aborted hbad)
  · have hend : ((runActions exampleSystem.step cleanupStart (unsentMessage ++ [expireAll 0])).any fun t =>
        ((t.shared.messages "account").rows.any fun r => decide (r.id = 1) && timedOut "pending" r) &&
          (runActions exampleSystem.step t lateCertainty).any fun t₁ => (exampleSystem.step t₁ (reconcileAll 1)).any
            (unrepaired "company" ["account"] (fun _ => 0) 1 "account" "pending" 1 t₁)) = true := by
      decide +kernel
    obtain ⟨t, hrun, h⟩ := (Option.any_eq_true _ _).mp hend
    rw [Bool.and_eq_true] at h
    obtain ⟨r, hr, hcond⟩ := List.any_eq_true.mp h.1
    rw [Bool.and_eq_true, decide_eq_true_eq] at hcond
    obtain ⟨t₁, t₂, hrun₁, hstep, hbad⟩ := evaluated
      (P := unrepaired "company" ["account"] (fun _ => 0) 1 "account" "pending" 1) h.2
    have hlast := (hall t (lateCertainty ++ [reconcileAll 1]) hrun ⟨r, hr, hcond.1, hcond.2⟩).last hrun₁ hstep
    exact not_repairsAlways _ _ _ hbad hlast

end TeamInbox.Messages
