import TeamInbox.Broadcast.WellFormed

/-!
# TeamInbox.Broadcast.SentOnce — scheduled messages are sent once or not at all

The lease deadline is the token of a claim.  A claim takes over only what is due by the clock of its replica,
and its deadline lies after that time; a failure puts the row off by at least a lease.  So the deadline of a
row never falls and rises with every claim, whatever the clocks of the replicas show (`Fence.token`), and a
claimer that was superseded finds its token nowhere.
-/

namespace TeamInbox.Broadcast

open Lib Tenant

/-- The operations of dispatchers, the creation of rows and the passage of time. -/
def ScheduledAction.dispatches : ScheduledAction → Bool
  | .reschedule .. | .cancelBegin .. | .cancelFind .. | .cancelWrite .. | .cancelCount .. | .cancelCommit ..
  | .purgeLock .. | .purgeCount .. | .purgeDelete .. | .purgeCommit .. => false
  | _ => true

/-- A write of the claimer `p` about the row it is at. -/
def ScheduledAction.settles (p : ℕ) : ScheduledAction → Bool
  | .send q _ | .cancelAutoReply q | .fail q _ => decide (q = p)
  | _ => false

def Process.times : Process → Option (ℕ × ℕ)
  | .dispatching now claimUntil _ _ | .sweeping now claimUntil _ _ => some (now, claimUntil)
  | _ => none

structure SentOnce (cfg : BulkConfig) (s : Tenant) : Prop where
  messages : ∀ r ∈ s.rows,
    s.messages.countP (fun m => decide (m.1 = r.id)) = if r.status = .sent then 1 else 0
  commands : ∀ r ∈ s.rows, s.commands.count r.id = if r.status = .sent then 1 else 0
  final : ∀ a s', a.dispatches = true → scheduledStep cfg s a = some s' →
    ∀ r ∈ s.rows, r.status.final = true → ∃ r' ∈ s'.rows, r'.id = r.id ∧ r'.status = r.status
  fenced : ∀ p now claimUntil began h held, s.processes p = .dispatching now claimUntil began (h :: held) →
    ∀ r ∈ s.rows, r.id = h.id → r.claimNo ≠ h.claimNo + 1 →
      ∀ a s', a.settles p = true → scheduledStep cfg s a = some s' → r ∈ s'.rows

structure Fence (s : Tenant) : Prop where
  wf : Wf s
  lease : ∀ p now claimUntil, (s.processes p).times = some (now, claimUntil) →
    now < claimUntil ∧ claimUntil ≤ s.clock p + claimLeaseMs
  token : ∀ p now claimUntil began held, s.processes p = .dispatching now claimUntil began held →
    ∀ h ∈ held, ∀ r ∈ s.rows, r.id = h.id → h.claimNo < r.claimNo ∧ claimUntil ≤ r.nextAttemptAt ∧
      (r.claimNo = h.claimNo + 1 ∨ claimUntil < r.nextAttemptAt)
  messages : ∀ r ∈ s.rows,
    s.messages.countP (fun m => decide (m.1 = r.id)) = if r.status = .sent then 1 else 0
  commands : ∀ r ∈ s.rows, s.commands.count r.id = if r.status = .sent then 1 else 0
  logged : (∀ m ∈ s.messages, m.1 ∈ s.issued) ∧ ∀ c ∈ s.commands, c ∈ s.issued

section Rows

variable {s s' : Tenant} {a : ScheduledAction} {r r' : ScheduledMessage}

theorem RowMove.final (hmove : RowMove s a r r') (ha : a.dispatches = true) (h : r.status.final = true) :
    r' = r := by
  have hopen : r.status.isOpen = false ∧ r.status ≠ .processing := by
    cases hstatus : r.status <;> rw [hstatus] at h <;> first | contradiction | exact ⟨rfl, nofun⟩
  cases hmove with
  | same => rfl
  | claimed _ _ ho _ _ => exact absurd ho (by simp [hopen.1])
  | sent _ _ hc _ _ => exact absurd (carries_id hc).2.1 hopen.2
  | autoCanceled _ _ hc _ _ => exact absurd (carries_id hc).2.1 hopen.2
  | failed _ _ hc _ => exact absurd (carries_id hc).2.1 hopen.2
  | skipped _ _ hc _ => exact absurd (carries_id hc).2.1 hopen.2
  | swept _ _ ho _ => exact absurd ho (by simp [hopen.1])
  | rescheduled ha' => exact absurd ha (by rw [ha']; nofun)
  | canceled ha' => exact absurd ha (by rw [ha']; nofun)

theorem RowMove.sent_iff (hmove : RowMove s a r r') (ha : a.dispatches = true) :
    (r'.status = .sent ↔ r.status = .sent) ∨ ∃ p messageId, a = .send p messageId := by
  cases hmove with
  | same => exact .inl Iff.rfl
  | claimed _ _ ho _ _ =>
    refine .inl ⟨fun h => (nomatch h), fun h => ?_⟩
    rw [h] at ho
    contradiction
  | sent ha' => exact .inr ⟨_, _, ha'⟩
  | autoCanceled _ _ hc _ _ =>
    exact .inl ⟨fun h => (nomatch h), fun h => (nomatch h.symm.trans (carries_id hc).2.1)⟩
  | failed _ _ hc _ =>
    refine .inl ⟨fun h => ?_, fun h => (nomatch h.symm.trans (carries_id hc).2.1)⟩
    simp only [ScheduledMessage.dispatchFailed] at h
    split_ifs at h
  | skipped _ _ hc _ =>
    exact .inl ⟨fun h => (nomatch h), fun h => (nomatch h.symm.trans (carries_id hc).2.1)⟩
  | swept _ _ ho _ =>
    refine .inl ⟨fun h => (nomatch h), fun h => ?_⟩
    rw [h] at ho
    contradiction
  | rescheduled ha' => exact absurd ha (by rw [ha']; nofun)
  | canceled ha' => exact absurd ha (by rw [ha']; nofun)

end Rows

namespace Fence

variable {cfg : BulkConfig} {s s' : Tenant} {a : ScheduledAction}

theorem empty (clock : ℕ → ℕ) : Fence (.empty clock) where
  wf := .empty clock
  lease := fun _ _ _ hp => nomatch hp
  token := fun _ _ _ _ _ hp => nomatch hp
  messages := fun _ hr => absurd hr List.not_mem_nil
  commands := fun _ hr => absurd hr List.not_mem_nil
  logged := ⟨fun _ hm => absurd hm List.not_mem_nil, fun _ hc => absurd hc List.not_mem_nil⟩

theorem rises (h : Fence s) (ha : a.dispatches = true) {r r' : ScheduledMessage} (hmove : RowMove s a r r') :
    r.nextAttemptAt ≤ r'.nextAttemptAt ∧ (r'.claimNo = r.claimNo ∨
      r'.claimNo = r.claimNo + 1 ∧ r.nextAttemptAt < r'.nextAttemptAt) := by
  cases hmove with
  | same | sent | autoCanceled | skipped | swept => exact ⟨le_refl _, .inl rfl⟩
  | claimed hp _ _ hdue _ =>
    obtain ⟨hlt, -⟩ := h.lease _ _ _ (by rw [hp]; rfl)
    have hrise := lt_of_le_of_lt hdue hlt
    exact ⟨le_of_lt hrise, .inr ⟨rfl, hrise⟩⟩
  | failed _ hp hc _ =>
    rename_i p now claimUntil t held permanent _ _
    obtain ⟨-, hlease⟩ := h.lease p now claimUntil (by rw [hp]; rfl)
    have hdelay := claimLease_le_retryDelay t.attempts
    refine ⟨?_, .inl rfl⟩
    show r.nextAttemptAt ≤ s.clock p + getScheduleRetryDelayMs (t.attempts + 1)
    rw [(carries_id hc).2.2]
    omega
  | rescheduled ha' => exact absurd ha (by rw [ha']; nofun)
  | canceled ha' => exact absurd ha (by rw [ha']; nofun)

theorem token_step (h : Fence s) (ha : a.dispatches = true) (hstep : scheduledStep cfg s a = some s')
    {p now claimUntil : ℕ} {began : Option ℕ} {held : List ScheduledMessage}
    (hp : s'.processes p = .dispatching now claimUntil began held) {t : ScheduledMessage} (ht : t ∈ held)
    {r' : ScheduledMessage} (hr' : r' ∈ s'.rows) (hid : r'.id = t.id) :
    t.claimNo < r'.claimNo ∧ claimUntil ≤ r'.nextAttemptAt ∧
      (r'.claimNo = t.claimNo + 1 ∨ claimUntil < r'.nextAttemptAt) := by
  have hrows := rows_step h.wf.ids hstep
  have hheld : ∀ began held, s.processes p = .dispatching now claimUntil began held → t ∈ held →
      t.claimNo < r'.claimNo ∧ claimUntil ≤ r'.nextAttemptAt ∧
        (r'.claimNo = t.claimNo + 1 ∨ claimUntil < r'.nextAttemptAt) := by
    intro began held hp ht
    rcases hrows.of_mem hr' with ⟨r, hr, hmove⟩ | ⟨hnew, -⟩
    · obtain ⟨hno, hle, hlast⟩ := h.token p _ _ _ _ hp t ht r hr (hmove.id_eq.1.symm.trans hid)
      obtain ⟨hnext, hclaim⟩ := h.rises ha hmove
      omega
    · have hissued : t.id ∈ s.issued := by
        refine h.wf.rowIds p t.id ?_
        rw [hp]
        exact List.mem_map_of_mem ht
      exact absurd (hid ▸ hissued) hnew
  rcases processes_step hstep p with heq | hmove
  · exact hheld began held (heq ▸ hp) ht
  · generalize hx : s.processes p = x at hmove
    rw [hp] at hmove
    cases hmove with
    | captured | began | swept => exact absurd ht List.not_mem_nil
    | settled => exact hheld _ _ hx (List.mem_cons_of_mem _ ht)
    | claimed hmem hclaim =>
      -- the claim that took the copy
      rw [hclaim, claimRows_rows] at hr'
      obtain ⟨r, hr, rfl⟩ := List.mem_map.mp hr'
      have hsame : r.id = t.id := by
        rw [← hid]
        split <;> rfl
      obtain rfl := eq_of_id h.wf.ids hr (hmem t ht) hsame
      rw [if_pos (decide_eq_true (List.mem_map_of_mem ht))]
      exact ⟨Nat.lt_succ_self _, le_refl _, .inl rfl⟩

theorem lease_step (h : Fence s) (hstep : scheduledStep cfg s a = some s') {p now claimUntil : ℕ}
    (hp : (s'.processes p).times = some (now, claimUntil)) :
    now < claimUntil ∧ claimUntil ≤ s'.clock p + claimLeaseMs := by
  have hclock := (rest_step hstep).clock p
  have hkept : (s.processes p).times = some (now, claimUntil) →
      now < claimUntil ∧ claimUntil ≤ s'.clock p + claimLeaseMs := by
    intro hold
    obtain ⟨hlt, hle⟩ := h.lease p now claimUntil hold
    exact ⟨hlt, by omega⟩
  rcases processes_step hstep p with heq | hmove
  · exact hkept (heq ▸ hp)
  · generalize hx : s.processes p = x at hmove hkept
    generalize s'.processes p = y at hp hmove
    cases hmove with
    | captured delay hdelay =>
      simp only [Process.times, Option.some.injEq, Prod.mk.injEq] at hp
      obtain ⟨rfl, rfl⟩ := hp
      have hpos : 0 < claimLeaseMs := by decide
      omega
    | began | claimed | settled | sweeping | swept => exact hkept hp
    | _ => contradiction

theorem log_step (h : Fence s) (ha : a.dispatches = true) (hstep : scheduledStep cfg s a = some s')
    {r' : ScheduledMessage} (hr' : r' ∈ s'.rows) :
    s'.messages.countP (fun m => decide (m.1 = r'.id)) = (if r'.status = .sent then 1 else 0) ∧
      s'.commands.count r'.id = if r'.status = .sent then 1 else 0 := by
  have hrows := rows_step h.wf.ids hstep
  have hnone : ∀ i, i ∉ s.issued →
      s.messages.countP (fun m => decide (m.1 = i)) = 0 ∧ s.commands.count i = 0 := by
    intro i hi
    constructor
    · refine List.countP_eq_zero.mpr fun m hm hmi => hi ?_
      rw [← of_decide_eq_true hmi]
      exact h.logged.1 m hm
    · exact List.count_eq_zero_of_not_mem fun hc => hi (h.logged.2 i hc)
  have hnew : ∀ (new : ScheduledMessage), NewRow s a new → new.status ≠ .sent := by
    intro new hnew
    cases hnew <;> simp only [ScheduledMessage.fresh] <;> split_ifs <;> exact nofun
  cases (rest_step hstep).log with
  | same hmessages hcommands hsend =>
    rw [hmessages, hcommands]
    rcases hrows.of_mem hr' with ⟨r, hr, hmove⟩ | ⟨hfresh, hnewrow⟩
    · have hsame : r'.status = .sent ↔ r.status = .sent := by
        rcases hmove.sent_iff ha with hiff | hsent
        · exact hiff
        · obtain rfl := hsend hsent
          obtain rfl := eq_of_id h.wf.ids hr' hr hmove.id_eq.1
          exact Iff.rfl
      rw [hmove.id_eq.1, h.messages r hr, h.commands r hr]
      simp only [hsame, and_self]
    · obtain ⟨hm, hc⟩ := hnone r'.id hfresh
      rw [hm, hc, if_neg (hnew r' hnewrow)]
      exact ⟨rfl, rfl⟩
  | sent ha' hp hcarried hmap hmessages hcommands =>
    rename_i p now claimUntil messageId t held
    obtain ⟨u, hu, hcu⟩ := hcarried
    rw [hmap] at hr'
    obtain ⟨r, hr, rfl⟩ := List.mem_map.mp hr'
    rw [hmessages, hcommands]
    by_cases hc : r.carries t claimUntil = true
    · obtain ⟨hid, hstatus, -⟩ := carries_id hc
      have hbefore := h.messages r hr
      have hbefore' := h.commands r hr
      rw [hstatus] at hbefore hbefore'
      rw [if_pos hc]
      show List.countP (fun m : ℕ × ℕ => decide (m.1 = r.id)) _ = 1 ∧ List.count r.id _ = 1
      rw [List.countP_cons, List.count_cons, hbefore, hbefore']
      simp [hid]
    · have hne : t.id ≠ r.id := by
        intro hid
        obtain rfl := eq_of_id h.wf.ids hu hr ((carries_id hcu).1.trans hid)
        exact hc hcu
      rw [if_neg hc]
      simp [hne, h.messages r hr, h.commands r hr]

theorem logged_step (h : Fence s) (hstep : scheduledStep cfg s a = some s') :
    (∀ m ∈ s'.messages, m.1 ∈ s'.issued) ∧ ∀ c ∈ s'.commands, c ∈ s'.issued := by
  have hrows := rows_step h.wf.ids hstep
  have hold : (∀ m ∈ s.messages, m.1 ∈ s'.issued) ∧ ∀ c ∈ s.commands, c ∈ s'.issued :=
    ⟨fun m hm => hrows.issued_mono (h.logged.1 m hm), fun c hc => hrows.issued_mono (h.logged.2 c hc)⟩
  cases (rest_step hstep).log with
  | same hmessages hcommands _ =>
    rw [hmessages, hcommands]
    exact hold
  | sent _ hp _ _ hmessages hcommands =>
    rename_i p now claimUntil messageId t held _ _ _
    have ht : t.id ∈ s'.issued := by
      refine hrows.issued_mono (h.wf.rowIds p t.id ?_)
      rw [hp]
      exact List.mem_cons_self
    rw [hmessages, hcommands]
    refine ⟨fun m hm => ?_, fun c hc => ?_⟩
    · rcases List.mem_cons.mp hm with rfl | hm
      · exact ht
      · exact hold.1 m hm
    · rcases List.mem_cons.mp hc with rfl | hc
      · exact ht
      · exact hold.2 c hc

theorem step (h : Fence s) (ha : a.dispatches = true) (hstep : scheduledStep cfg s a = some s') : Fence s' where
  wf := h.wf.step hstep
  lease := fun _ _ _ hp => h.lease_step hstep hp
  token := fun _ _ _ _ _ hp _ ht _ hr hid => h.token_step ha hstep hp ht hr hid
  messages := fun _ hr => (h.log_step ha hstep hr).1
  commands := fun _ hr => (h.log_step ha hstep hr).2
  logged := h.logged_step hstep

theorem superseded (h : Fence s) {p now claimUntil : ℕ} {began : Option ℕ} {t : ScheduledMessage}
    {held : List ScheduledMessage} (hp : s.processes p = .dispatching now claimUntil began (t :: held))
    {r : ScheduledMessage} (hr : r ∈ s.rows) (hid : r.id = t.id) (hover : r.claimNo ≠ t.claimNo + 1)
    (ha : a.settles p = true) (hstep : scheduledStep cfg s a = some s') : r ∈ s'.rows := by
  obtain ⟨-, -, hlast⟩ := h.token p _ _ _ _ hp t List.mem_cons_self r hr hid
  have hlate : claimUntil < r.nextAttemptAt := hlast.resolve_left hover
  have hfenced : ∀ q now' claimUntil' began' t' held', q = p →
      s.processes q = .dispatching now' claimUntil' began' (t' :: held') →
      r.carries t' claimUntil' = true → False := by
    rintro q now' claimUntil' began' t' held' rfl hq hc
    rw [hp] at hq
    simp only [Process.dispatching.injEq] at hq
    have htoken := (carries_id hc).2.2
    omega
  rcases (rows_step h.wf.ids hstep).of_old hr with ⟨r', hr', hmove⟩ | ⟨q, _, _, _, _, hpurge, _⟩
  · have hsame : r' = r := by
      cases hmove with
      | same => rfl
      | claimed _ hclaim =>
        rcases hclaim with ⟨rfl, -⟩ | ⟨_, rfl, -⟩ <;> contradiction
      | sent ha' hq hc =>
        subst ha'
        exact (hfenced _ _ _ _ _ _ (of_decide_eq_true ha) hq hc).elim
      | autoCanceled ha' hq hc =>
        subst ha'
        exact (hfenced _ _ _ _ _ _ (of_decide_eq_true ha) hq hc).elim
      | failed ha' hq hc =>
        subst ha'
        exact (hfenced _ _ _ _ _ _ (of_decide_eq_true ha) hq hc).elim
      | skipped ha' hq hc =>
        subst ha'
        exact (hfenced _ _ _ _ _ _ (of_decide_eq_true ha) hq hc).elim
      | swept ha' | rescheduled ha' | canceled ha' =>
        subst ha'
        contradiction
    exact hsame ▸ hr'
  · rw [hpurge] at ha
    contradiction

theorem sentOnce (h : Fence s) : SentOnce cfg s where
  messages := h.messages
  commands := h.commands
  final := by
    intro a s' ha hstep r hr hfinal
    rcases (rows_step h.wf.ids hstep).of_old hr with ⟨r', hr', hmove⟩ | ⟨_, _, _, _, _, hpurge, _⟩
    · obtain rfl := hmove.final ha hfinal
      exact ⟨r', hr', rfl, rfl⟩
    · rw [hpurge] at ha
      contradiction
  fenced := fun _ _ _ _ _ _ hp _ hr hid hover _ _ ha hstep => h.superseded hp hr hid hover ha hstep

end Fence

/-- **Scheduled messages are sent exactly once or not at all.**  In every run of the dispatchers a row has one
message and one command when it is `sent` and none otherwise; `sent`, `skipped` and `canceled` are final; and
a claimer whose row was claimed again leaves the row as it is. -/
theorem scheduled_message_sent_once (cfg : BulkConfig) (clock : ℕ → ℕ) (as : List ScheduledAction)
    (h : ∀ a ∈ as, a.dispatches = true) : Always (scheduledStep cfg) (SentOnce cfg) (.empty clock) as := by
  have hmeets : Meets (scheduledStep cfg) (fun _ a => a.dispatches = true) (.empty clock) as := meets_of_actions h
  have hrun := always_of_meets (fun s a s' hs ha hstep => Fence.step hs ha hstep) (Fence.empty clock) hmeets
  exact hrun.mono fun s hs => hs.sentOnce

/-- A claim is taken over while the first claimer is still at it; both then send. -/
theorem scheduled_message_sent_once_takeover :
    Always (scheduledStep (getBulkConfig none none none)) (SentOnce (getBulkConfig none none none))
      (.empty fun p => 1000 * p)
      [.setContact 1 (some ⟨none⟩), .schedule 0 10 (some 1) 0, .capture 1 5, .claimDue 1 [], .advance 2 70000,
        .capture 2 0, .claimDue 2 [], .send 1 7, .send 2 8, .fail 1 .permanent] :=
  scheduled_message_sent_once _ _ _ (by decide)

end TeamInbox.Broadcast
