import TeamInbox.Broadcast.Moves

/-!
# TeamInbox.Broadcast.Quota — pacing and the daily quota of a connection

All claims of a connection go through its row of the ledger, one after another.  The pacing needs no more:
each claim has to come after the time the one before it has set.  The quota compares a day only with the day
of the last claim; a claim whose transaction began before that day resets the counter (`NoLateClaim`).
-/

namespace TeamInbox.Broadcast

open Lib Tenant

/-- Two claims of a connection are apart, and no day has more than the cap. -/
def WithinBudget (cfg : BulkConfig) (s : Tenant) : Prop :=
  ∀ connectionId,
    (s.claims.Pairwise fun c d => c.connectionId = connectionId → d.connectionId = connectionId →
      d.now + cfg.sendIntervalMs ≤ c.now) ∧
    ∀ day, (s.claims.countP fun c => decide (c.connectionId = connectionId) && decide (c.began = day)) ≤
      cfg.dailyCapPerConnection

/-- The time at which a connection may claim again never decreases. -/
def NextKept (s : Tenant) (_ : ScheduledAction) (s' : Tenant) : Prop :=
  ∀ connectionId budget, s.budgets connectionId = some budget →
    ∃ budget', s'.budgets connectionId = some budget' ∧ budget.nextEligibleAt ≤ budget'.nextEligibleAt

def ClaimsBudgeted (cfg : BulkConfig) (s : Tenant) (as : List ScheduledAction) : Prop :=
  Always (scheduledStep cfg) (WithinBudget cfg) s as ∧ Steps (scheduledStep cfg) NextKept s as

/-- A claim that takes a leaf does not belong to a day before the one the ledger counts. -/
def NoLateClaim (s : Tenant) : ScheduledAction → Prop
  | .claimBulk p connectionId skipped => ∀ now claimUntil date budget,
    s.processes p = .dispatching now claimUntil (some date) [] → s.budgets connectionId = some budget →
      budget.nextEligibleAt ≤ now → s.sendsOn connectionId = true →
        (s.dueLeaf connectionId now skipped).isSome = true → budget.quotaDate ≤ date
  | _ => True

/-- The clock of a call shows the time of the database when the call captures it. -/
def ClockSynced (s : Tenant) : ScheduledAction → Prop
  | .capture p _ => s.clock p = s.now
  | _ => True

instance (s : Tenant) (a : ScheduledAction) : Decidable (ClockSynced s a) := by
  unfold ClockSynced
  split <;> infer_instance

/-- The ledger of a connection stays: it is deleted with the connection only. -/
def KeepsLedger (_ : Tenant) : ScheduledAction → Prop
  | .purgeCommit _ => False
  | _ => True

instance (s : Tenant) (a : ScheduledAction) : Decidable (KeepsLedger s a) := by
  unfold KeepsLedger
  split <;> infer_instance

/-! ### The invariant -/

/-- What a row of the ledger says of the claims of its connection. -/
structure Accounts (cfg : BulkConfig) (claims : List BulkClaim) (connectionId : ℕ) (budget : Budget) : Prop where
  next : ∀ c ∈ claims, c.connectionId = connectionId → c.now + cfg.sendIntervalMs ≤ budget.nextEligibleAt
  past : ∀ c ∈ claims, c.connectionId = connectionId → c.began ≤ budget.quotaDate
  counted : (claims.countP fun c => decide (c.connectionId = connectionId) && decide (c.began = budget.quotaDate)) ≤
    budget.sentToday

structure LedgerInv (cfg : BulkConfig) (s : Tenant) : Prop where
  within : WithinBudget cfg s
  ledger : ∀ c ∈ s.claims, s.budgets c.connectionId ≠ none
  accounts : ∀ connectionId budget, s.budgets connectionId = some budget →
    Accounts cfg s.claims connectionId budget

namespace Accounts

variable {cfg : BulkConfig} {claims : List BulkClaim} {connectionId : ℕ} {budget : Budget}

theorem of_none (h : ∀ c ∈ claims, c.connectionId ≠ connectionId) : Accounts cfg claims connectionId budget where
  next := fun c hc hid => absurd hid (h c hc)
  past := fun c hc hid => absurd hid (h c hc)
  counted := by
    refine le_of_eq_of_le (List.countP_eq_zero.mpr fun c hc hq => ?_) (Nat.zero_le _)
    exact h c hc (of_decide_eq_true (Bool.and_eq_true_iff.mp hq).1)

theorem cons_of_ne (h : Accounts cfg claims connectionId budget) {claim : BulkClaim}
    (hne : claim.connectionId ≠ connectionId) : Accounts cfg (claim :: claims) connectionId budget where
  next := fun c hc hid => by
    rcases List.mem_cons.mp hc with rfl | hc
    · exact absurd hid hne
    · exact h.next c hc hid
  past := fun c hc hid => by
    rcases List.mem_cons.mp hc with rfl | hc
    · exact absurd hid hne
    · exact h.past c hc hid
  counted := by
    rw [List.countP_cons_of_neg (by simp [hne])]
    exact h.counted

theorem counted_today (h : Accounts cfg claims connectionId budget) {date sentToday : ℕ}
    (hsent : sentToday = if budget.quotaDate = date then budget.sentToday else 0) (hdate : budget.quotaDate ≤ date) :
    (claims.countP fun c => decide (c.connectionId = connectionId) && decide (c.began = date)) ≤ sentToday := by
  by_cases hsame : budget.quotaDate = date
  · rw [hsent, if_pos hsame, ← hsame]
    exact h.counted
  · refine le_of_eq_of_le (List.countP_eq_zero.mpr fun c hc hq => ?_) (Nat.zero_le _)
    obtain ⟨hid, hbegan⟩ := Bool.and_eq_true_iff.mp hq
    have hpast := h.past c hc (of_decide_eq_true hid)
    rw [of_decide_eq_true hbegan] at hpast
    omega

theorem charge (h : Accounts cfg claims connectionId budget) {now date sentToday : ℕ}
    (hsent : sentToday = if budget.quotaDate = date then budget.sentToday else 0) (hdate : budget.quotaDate ≤ date)
    (hnext : budget.nextEligibleAt ≤ now) :
    Accounts cfg (⟨connectionId, now, date⟩ :: claims) connectionId
      ⟨now + cfg.sendIntervalMs, date, sentToday + 1⟩ where
  next := fun c hc hid => by
    rcases List.mem_cons.mp hc with rfl | hc
    · exact le_refl _
    · have hold := h.next c hc hid
      show c.now + _ ≤ now + _
      omega
  past := fun c hc hid => by
    rcases List.mem_cons.mp hc with rfl | hc
    · exact le_refl _
    · exact le_trans (h.past c hc hid) hdate
  counted := by
    rw [List.countP_cons_of_pos (by simp)]
    exact Nat.succ_le_succ (h.counted_today hsent hdate)

end Accounts

namespace LedgerInv

variable {cfg : BulkConfig} {s s' : Tenant} {a : ScheduledAction}

theorem empty (clock : ℕ → ℕ) : LedgerInv cfg (.empty clock) where
  within := fun _ => ⟨List.Pairwise.nil, fun _ => Nat.zero_le _⟩
  ledger := fun _ hc => absurd hc List.not_mem_nil
  accounts := fun _ _ hb => nomatch hb

theorem budgetFor (h : LedgerInv cfg s) (connectionId now date : ℕ) :
    Accounts cfg s.claims connectionId (s.budgetFor connectionId now date) := by
  unfold Tenant.budgetFor
  cases hb : s.budgets connectionId with
  | none =>
    refine .of_none fun c hc hid => ?_
    rw [← hid] at hb
    exact h.ledger c hc hb
  | some budget => exact h.accounts connectionId budget hb

theorem budgetFor_date (hC : NoLateClaim s a) {p connectionId now claimUntil date : ℕ} {skipped : List ℕ}
    (ha : a = .claimBulk p connectionId skipped) (hp : s.processes p = .dispatching now claimUntil (some date) [])
    (hnext : (s.budgetFor connectionId now date).nextEligibleAt ≤ now) (hsends : s.sendsOn connectionId = true)
    (hleaf : (s.dueLeaf connectionId now skipped).isSome = true) :
    (s.budgetFor connectionId now date).quotaDate ≤ date := by
  subst ha
  unfold Tenant.budgetFor at hnext ⊢
  cases hb : s.budgets connectionId with
  | none => exact le_refl _
  | some budget =>
    rw [hb] at hnext
    exact hC now claimUntil date budget hp hb hnext hsends hleaf

theorem step (h : LedgerInv cfg s) (hC : NoLateClaim s a ∧ KeepsLedger s a)
    (hstep : scheduledStep cfg s a = some s') : LedgerInv cfg s' := by
  cases (rest_step hstep).ledger with
  | same hbudgets hclaims =>
    refine ⟨fun connectionId => ?_, ?_, ?_⟩
    · rw [hclaims]
      exact h.within connectionId
    · rw [hclaims, hbudgets]
      exact h.ledger
    · rw [hclaims, hbudgets]
      exact h.accounts
  | seeded ha hp hbudgets hclaims =>
    rename_i p now claimUntil date connectionId skipped
    refine ⟨fun connectionId => ?_, fun c hc => ?_, fun other budget hb => ?_⟩
    · rw [hclaims]
      exact h.within connectionId
    · rw [hclaims] at hc
      rw [hbudgets]
      by_cases hid : c.connectionId = connectionId
      · rw [hid, Function.update_self]
        exact Option.some_ne_none _
      · rw [Function.update_of_ne hid]
        exact h.ledger c hc
    · rw [hbudgets] at hb
      rw [hclaims]
      by_cases hid : other = connectionId
      · subst hid
        rw [Function.update_self] at hb
        obtain rfl := Option.some.inj hb
        exact h.budgetFor other now date
      · rw [Function.update_of_ne hid] at hb
        exact h.accounts other budget hb
  | charged ha hp hsent hcap hnext hsends hleaf hbudgets hclaims =>
    rename_i p now claimUntil date connectionId sentToday skipped
    have hold := h.budgetFor connectionId now date
    have hdate := budgetFor_date hC.1 ha hp hnext hsends hleaf
    refine ⟨fun other => ?_, fun c hc => ?_, fun other budget hb => ?_⟩
    · obtain ⟨hpaced, hquota⟩ := h.within other
      rw [hclaims]
      refine ⟨List.pairwise_cons.mpr ⟨fun c hc hid hid' => ?_, hpaced⟩, fun day => ?_⟩
      · have hbefore := hold.next c hc (hid'.trans hid.symm)
        show c.now + _ ≤ now
        omega
      · rw [List.countP_cons]
        split_ifs with hday
        · simp only [Bool.and_eq_true, decide_eq_true_eq] at hday
          obtain ⟨rfl, rfl⟩ := hday
          have htoday := hold.counted_today hsent hdate
          omega
        · exact hquota day
    · rw [hclaims] at hc
      rw [hbudgets]
      by_cases hid : c.connectionId = connectionId
      · rw [hid, Function.update_self]
        exact Option.some_ne_none _
      · rw [Function.update_of_ne hid]
        rcases List.mem_cons.mp hc with rfl | hc
        · exact absurd rfl hid
        · exact h.ledger c hc
    · rw [hbudgets] at hb
      rw [hclaims]
      by_cases hid : other = connectionId
      · subst hid
        rw [Function.update_self] at hb
        obtain rfl := Option.some.inj hb
        exact hold.charge hsent hdate hnext
      · rw [Function.update_of_ne hid] at hb
        exact (h.accounts other budget hb).cons_of_ne fun heq => hid heq.symm
  | purged ha =>
    subst ha
    exact absurd hC.2 id

theorem nextKept_of_update {connectionId : ℕ} {written : Budget}
    (hbudgets : s'.budgets = Function.update s.budgets connectionId (some written))
    (hle : ∀ budget, s.budgets connectionId = some budget → budget.nextEligibleAt ≤ written.nextEligibleAt) :
    NextKept s a s' := by
  intro other budget hb
  rw [hbudgets]
  by_cases hid : other = connectionId
  · subst hid
    exact ⟨written, Function.update_self _ _ _, hle budget hb⟩
  · exact ⟨budget, by rw [Function.update_of_ne hid, hb], le_refl _⟩

theorem nextKept (hC : KeepsLedger s a) (hstep : scheduledStep cfg s a = some s') : NextKept s a s' := by
  cases (rest_step hstep).ledger with
  | same hbudgets => exact fun _ budget hb => ⟨budget, by rw [hbudgets, hb], le_refl _⟩
  | seeded _ _ hbudgets =>
    refine nextKept_of_update hbudgets fun budget hb => ?_
    unfold Tenant.budgetFor
    rw [hb]
    exact le_refl _
  | charged _ _ _ _ hnext _ _ hbudgets =>
    refine nextKept_of_update hbudgets fun budget hb => ?_
    unfold Tenant.budgetFor at hnext
    rw [hb] at hnext
    exact le_trans hnext (Nat.le_add_right _ _)
  | purged ha =>
    subst ha
    exact absurd hC id

end LedgerInv

/-- **Pacing and quota of a connection**: in every run in which no claim takes a leaf after one of a later day,
any two claims of a connection are `sendIntervalMs` apart and no day has more of them than the cap. -/
theorem claims_within_budget (cfg : BulkConfig) (clock : ℕ → ℕ) (as : List ScheduledAction)
    (hkeeps : Meets (scheduledStep cfg) KeepsLedger (.empty clock) as)
    (h : Meets (scheduledStep cfg) NoLateClaim (.empty clock) as) : ClaimsBudgeted cfg (.empty clock) as := by
  have hrun := always_of_meets (fun s a s' hs ha hstep => LedgerInv.step hs ha hstep) (LedgerInv.empty clock)
    (h.and hkeeps)
  have hsteps := steps_of_meets (I := fun _ => True) (R := NextKept)
    (fun s a s' _ ha hstep => ⟨trivial, LedgerInv.nextKept ha hstep⟩) trivial hkeeps
  exact ⟨hrun.mono fun s hs => hs.within, hsteps⟩

/-- A check that is enough: the transaction began on the day of the ledger or later. -/
def claimsInOrder (s : Tenant) : ScheduledAction → Bool
  | .claimBulk p connectionId _ => match s.processes p, s.budgets connectionId with
    | .dispatching _ _ (some date) _, some budget => decide (budget.quotaDate ≤ date)
    | _, _ => true
  | _ => true

theorem noLateClaim_of_inOrder (s : Tenant) (a : ScheduledAction) (h : claimsInOrder s a = true) :
    NoLateClaim s a := by
  cases a with
  | claimBulk p connectionId skipped =>
    intro now claimUntil date budget hp hb _ _ _
    simp only [claimsInOrder, hp, hb, decide_eq_true_eq] at h
    exact h
  | _ => trivial

/-- A connection with three contacts and a broadcast to them; replicas 1, 2 and 3 show the time `n`. -/
def threeRecipients (n : ℕ) : List ScheduledAction :=
  [.setConnection 1 (some ⟨true, false⟩), .setContact 1 (some ⟨some 1⟩), .setContact 2 (some ⟨some 1⟩),
    .setContact 3 (some ⟨some 1⟩), .createJob 0 7 0 [⟨10, 1, none⟩, ⟨11, 2, none⟩, ⟨12, 3, none⟩], .tick n,
    .advance 1 n, .advance 2 n, .advance 3 n]

/-- Two claims on either side of midnight. -/
theorem claims_within_budget_midnight :
    ClaimsBudgeted (getBulkConfig none none (some 1)) (.empty fun _ => 0)
      (threeRecipients 86370000 ++ [.capture 1 0, .beginClaim 1, .claimBulk 1 1 [], .tick 40000, .advance 2 40000,
        .capture 2 0, .beginClaim 2, .claimBulk 2 1 []]) :=
  claims_within_budget _ _ _ (meets_of_check (by decide +kernel))
    ((meets_of_check (by decide +kernel)).mono noLateClaim_of_inOrder)

/-- Replica 1 begins its transaction before midnight and gets the lock after replica 2, which captured its time
earlier and began later; the counter of the new day is reset, and replica 3 claims again on it. -/
def lateClaim : List ScheduledAction :=
  threeRecipients 86370000 ++ [.capture 2 0, .tick 20000, .advance 1 20000, .capture 1 0, .beginClaim 1,
    .tick 11000, .beginClaim 2, .claimBulk 2 1 [], .claimBulk 1 1 [], .tick 4000, .advance 3 35000, .capture 3 0,
    .beginClaim 3, .claimBulk 3 1 []]

theorem late_claim_exceeds_cap : ¬ ∀ as,
    Meets (scheduledStep (getBulkConfig none none (some 1))) ClockSynced (.empty fun _ => 0) as →
      ClaimsBudgeted (getBulkConfig none none (some 1)) (.empty fun _ => 0) as := by
  intro h
  have hlast : (runActions (scheduledStep (getBulkConfig none none (some 1))) (.empty fun _ => 0) lateClaim).map
      (fun s => s.claims.countP fun c => decide (c.connectionId = 1) && decide (c.began = 1)) = some 2 := by
    decide +kernel
  obtain ⟨s, hrun, hcount⟩ := Option.map_eq_some_iff.mp hlast
  have hwithin := always_iff_reached.mp (h lateClaim (meets_of_check (by decide +kernel))).1 lateClaim [] s
    (List.append_nil _).symm hrun
  have hcap := (hwithin 1).2 1
  rw [hcount] at hcap
  exact absurd hcap (by decide)

end TeamInbox.Broadcast
