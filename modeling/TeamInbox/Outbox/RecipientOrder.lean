import TeamInbox.Outbox.CommandOutbox

/-!
# TeamInbox.Outbox.RecipientOrder — the order of one recipient's commands

Three invariants, each on top of the one before.  `AcceptInv`: the advisory lock makes the order of the
commits the order of `(created_at, id)`.  `LeaseInv`: the deadline a dispatcher keeps is below the one in
the row as soon as somebody else has claimed the row, so that the deadline identifies the claim.
`PublishInv`: whatever a dispatcher holds, has sent or the stream has stored, comes after earlier commands
that are all finished.  The order of the stream follows as long as no command is stored for the first time
after its row was given up as `failed`; the last steps of `givenUpThenStored` show what happens otherwise.
-/

namespace TeamInbox.Outbox

open Lib

/-! ### Deadlines -/

theorem lt_nextLease (now : ℕ) : now < nextLease now := by
  unfold nextLease claimLeaseMs
  omega

theorem nextLease_mono {a b : ℕ} (h : a ≤ b) : nextLease a ≤ nextLease b := by
  unfold nextLease claimLeaseMs
  omega

theorem nextLease_lt {a b : ℕ} (h : a + 1000 ≤ b) : nextLease a < nextLease b := by
  unfold nextLease claimLeaseMs
  omega

theorem retryDelay_ge (attempts : ℕ) : 1000 ≤ getOutboxRetryDelayMs attempts := by
  have hpow : 1 ≤ 2 ^ min attempts 6 := Nat.one_le_two_pow
  unfold getOutboxRetryDelayMs
  omega

/-! ### One statement on one row -/

namespace OutboxRow

/-- Both in the queue of one subject and recipient. -/
def sameQueue (r t : OutboxRow) : Prop :=
  r.subject = t.subject ∧ r.recipient = t.recipient ∧ r.recipient ≠ none

theorem earlier_iff {r t : OutboxRow} : r.earlier t = true ↔
    r.sameQueue t ∧ (r.createdAt < t.createdAt ∨ r.createdAt = t.createdAt ∧ r.id < t.id) := by
  simp only [earlier, sameQueue, Bool.and_eq_true, Bool.or_eq_true, decide_eq_true_eq,
    Option.isSome_iff_ne_none]
  tauto

/-- `r'` is `r` after some statements of the dispatchers: the command is the same, claims are counted up,
and a final row stays as it is. -/
structure Follows (r r' : OutboxRow) : Prop where
  id : r'.id = r.id
  subject : r'.subject = r.subject
  recipient : r'.recipient = r.recipient
  createdAt : r'.createdAt = r.createdAt
  claimNo : r.claimNo ≤ r'.claimNo
  final : r.status.waiting = false → r' = r

namespace Follows

theorem rfl' (r : OutboxRow) : r.Follows r := ⟨rfl, rfl, rfl, rfl, le_refl _, fun _ => rfl⟩

theorem claimedAt {r : OutboxRow} (now : ℕ) (h : r.status.waiting = true) :
    r.Follows (r.claimedAt now) := by
  refine ⟨rfl, rfl, rfl, rfl, Nat.le_succ _, fun hf => ?_⟩
  rw [h] at hf
  exact absurd hf (by decide)

theorem renewedAt {r : OutboxRow} (now : ℕ) (h : r.status.waiting = true) :
    r.Follows (r.renewedAt now) := by
  -- unfolded first: the kernel would compare the rows, and with them the deadlines
  unfold OutboxRow.renewedAt
  refine ⟨rfl, rfl, rfl, rfl, le_refl _, fun hf => ?_⟩
  rw [h] at hf
  exact absurd hf (by decide)

theorem outcome {r : OutboxRow} (now attempts : ℕ) (ok : Bool) (h : r.status.waiting = true) :
    r.Follows (r.outcome now attempts ok) := by
  have hfinal : r.status.waiting = false → r.outcome now attempts ok = r := by
    intro hf
    rw [h] at hf
    exact absurd hf (by decide)
  unfold OutboxRow.outcome at hfinal ⊢
  split_ifs at hfinal ⊢ <;> exact ⟨rfl, rfl, rfl, rfl, le_refl _, hfinal⟩

theorem selected {p : Bool} {r r' : OutboxRow} (h : p = true → r.Follows r') :
    r.Follows (if p then r' else r) := by
  by_cases hp : p = true
  · rw [if_pos hp]
    exact h hp
  · rw [if_neg hp]
    exact rfl' r

theorem sameQueue_iff {r r' t t' : OutboxRow} (hr : r.Follows r') (ht : t.Follows t') :
    r'.sameQueue t' ↔ r.sameQueue t := by
  unfold sameQueue
  rw [hr.subject, hr.recipient, ht.subject, ht.recipient]

theorem earlier_eq {r r' t t' : OutboxRow} (hr : r.Follows r') (ht : t.Follows t') :
    r'.earlier t' = r.earlier t := by
  rw [Bool.eq_iff_iff, earlier_iff, earlier_iff, sameQueue_iff hr ht, hr.id, hr.createdAt, ht.id,
    ht.createdAt]

end Follows

theorem carries_iff {r : OutboxRow} {c : Claimed} :
    r.carries c = true ↔ r.id = c.id ∧ r.status = .claimed ∧ r.nextAttemptAt = c.claimUntil := by
  simp only [carries, Bool.and_eq_true, decide_eq_true_eq, and_assoc]

theorem renewedAt_status (r : OutboxRow) (now : ℕ) : (r.renewedAt now).status = r.status := by
  unfold renewedAt
  rfl

theorem waiting_of_carries {r : OutboxRow} {c : Claimed} (h : r.carries c = true) :
    r.status.waiting = true := by
  rw [(carries_iff.mp h).2.1]
  rfl

theorem claimable_iff {rows : List OutboxRow} {now : ℕ} {r : OutboxRow} :
    r.claimable rows now = true ↔ r.status.waiting = true ∧ r.nextAttemptAt ≤ now ∧
      ∀ e ∈ rows, e.earlier r = true → e.status.waiting = false := by
  simp only [claimable, Bool.and_eq_true, Bool.not_eq_true', decide_eq_true_eq, List.any_eq_false,
    and_assoc]
  constructor
  · rintro ⟨hw, hdue, h⟩
    exact ⟨hw, hdue, fun e he hlt => by simpa [hlt] using h e he⟩
  · rintro ⟨hw, hdue, h⟩
    exact ⟨hw, hdue, fun e he => by simpa using h e he⟩

end OutboxRow

/-! ### Acceptance -/

def OutboxState.allRows (s : OutboxState) : List OutboxRow := s.rows ++ s.uncommitted.map (·.2)

structure AcceptInv (s : OutboxState) : Prop where
  ids : (s.allRows.map (·.id)).Nodup
  created : ∀ r ∈ s.allRows, r.createdAt ≤ s.now
  exclusive : ∀ l ∈ s.locks, ∀ l' ∈ s.locks, l.1 = l'.1 → l.2 = l'.2
  locked : ∀ u ∈ s.uncommitted, ∀ k ∈ u.2.recipient, ((u.2.subject, k), u.1) ∈ s.locks
  ordered : s.allRows.Pairwise fun r t => r.sameQueue t → r.createdAt < t.createdAt

namespace AcceptInv

variable {s : OutboxState}

theorem empty : AcceptInv emptyOutbox := by
  refine ⟨List.nodup_nil, ?_, ?_, ?_, List.Pairwise.nil⟩ <;> simp [emptyOutbox, OutboxState.allRows]

theorem rowsOrdered (h : AcceptInv s) :
    s.rows.Pairwise fun r t => r.sameQueue t → r.createdAt < t.createdAt :=
  (List.pairwise_append.mp h.ordered).1

theorem row_unique (h : AcceptInv s) {r t : OutboxRow} (hr : r ∈ s.rows) (ht : t ∈ s.rows)
    (hid : r.id = t.id) : r = t := by
  have hnodup : (s.rows.map (·.id)).Nodup := by
    have hids := h.ids
    rw [OutboxState.allRows, List.map_append] at hids
    exact hids.of_append_left
  exact List.inj_on_of_nodup_map hnodup hr ht hid

theorem tick (h : AcceptInv s) (duration : ℕ) : AcceptInv { s with now := s.now + duration } :=
  ⟨h.ids, fun r hr => (h.created r hr).trans (Nat.le_add_right _ _), h.exclusive, h.locked, h.ordered⟩

theorem lock (h : AcceptInv s) {tx : ℕ} {key : String × String}
    (hfree : ∀ l ∈ s.locks, l.1 = key → l.2 = tx) :
    AcceptInv { s with locks := (key, tx) :: s.locks } := by
  refine ⟨h.ids, h.created, ?_, fun u hu k hk => List.mem_cons_of_mem _ (h.locked u hu k hk), h.ordered⟩
  intro l hl l' hl' heq
  rcases List.mem_cons.mp hl with rfl | hl <;> rcases List.mem_cons.mp hl' with rfl | hl'
  · rfl
  · exact (hfree l' hl' heq.symm).symm
  · exact hfree l hl heq
  · exact h.exclusive l hl l' hl' heq

theorem insert (h : AcceptInv s) {tx : ℕ} {id : OutboxId} {subject : String} {recipient : Option String}
    (hok : s.accepts id subject recipient = true)
    (hlock : ∀ k ∈ recipient, ((subject, k), tx) ∈ s.locks) :
    AcceptInv { s with
      uncommitted := s.uncommitted ++ [(tx, ⟨id, subject, recipient, .pending, 0, s.now, s.now, 0⟩)] } := by
  have hall : ∀ r ∈ s.allRows, r.id ≠ id ∧
      (r.subject = subject → r.recipient = recipient → recipient ≠ none → r.createdAt ≠ s.now) := by
    intro r hr
    have hr' := List.all_eq_true.mp hok r hr
    simp only [Bool.and_eq_true, decide_eq_true_eq, Bool.not_eq_true', Bool.and_eq_false_iff,
      decide_eq_false_iff_not] at hr'
    refine ⟨hr'.1, fun hs hk hsome hnow => ?_⟩
    rcases hr'.2 with ((hne | hne) | hne) | hne
    · exact hne hs
    · cases recipient with
      | none => exact hsome rfl
      | some k => simp at hne
    · exact hne hk
    · exact hne hnow
  have hsplit : ∀ new : OutboxRow, s.rows ++ (s.uncommitted ++ [(tx, new)]).map (·.2) =
      s.allRows ++ [new] := by
    intro new
    simp [OutboxState.allRows]
  constructor
  · show ((s.rows ++ (s.uncommitted ++ [_]).map Prod.snd).map (·.id)).Nodup
    rw [hsplit, List.map_append, List.nodup_append]
    refine ⟨h.ids, List.nodup_singleton _, fun a ha b hb hab => ?_⟩
    obtain ⟨r, hr, rfl⟩ := List.mem_map.mp ha
    rw [List.map_singleton, List.mem_singleton] at hb
    exact (hall r hr).1 (hab.trans hb)
  · intro r hr
    rw [OutboxState.allRows, hsplit, List.mem_append, List.mem_singleton] at hr
    rcases hr with hr | rfl
    · exact h.created r hr
    · exact le_refl _
  · exact h.exclusive
  · intro u hu k hk
    rcases List.mem_append.mp hu with hu | hu
    · exact h.locked u hu k hk
    · obtain rfl := List.mem_singleton.mp hu
      exact hlock k hk
  · show (s.rows ++ (s.uncommitted ++ [_]).map Prod.snd).Pairwise _
    rw [hsplit, List.pairwise_append]
    refine ⟨h.ordered, List.pairwise_singleton _ _, fun r hr t ht hq => ?_⟩
    obtain rfl := List.mem_singleton.mp ht
    have hle := h.created r hr
    have hne := (hall r hr).2 hq.1 hq.2.1 fun hnone => hq.2.2 (hq.2.1.trans hnone)
    exact lt_of_le_of_ne hle hne

theorem lockedWithout (h : AcceptInv s) (tx : ℕ) :
    ∀ u ∈ s.uncommitted.filter fun u => !decide (u.1 = tx), ∀ k ∈ u.2.recipient,
      ((u.2.subject, k), u.1) ∈ s.locks.filter fun l => !decide (l.2 = tx) := by
  intro u hu k hk
  rw [List.mem_filter] at hu ⊢
  exact ⟨h.locked u hu.1 k hk, hu.2⟩

theorem exclusiveWithout (h : AcceptInv s) (tx : ℕ) :
    ∀ l ∈ s.locks.filter fun l => !decide (l.2 = tx), ∀ l' ∈ s.locks.filter fun l => !decide (l.2 = tx),
      l.1 = l'.1 → l.2 = l'.2 := fun l hl l' hl' =>
  h.exclusive l (List.mem_of_mem_filter hl) l' (List.mem_of_mem_filter hl')

theorem tx_unique (h : AcceptInv s) {u v : ℕ × OutboxRow} (hu : u ∈ s.uncommitted)
    (hv : v ∈ s.uncommitted) (hq : u.2.sameQueue v.2) : u.1 = v.1 := by
  obtain ⟨hsubject, hrecipient, hsome⟩ := hq
  obtain ⟨k, hk⟩ := Option.ne_none_iff_exists'.mp hsome
  have hul := h.locked u hu k hk
  have hvl := h.locked v hv k (hrecipient ▸ hk)
  exact h.exclusive _ hul _ hvl (by rw [hsubject])

theorem commit (h : AcceptInv s) (tx : ℕ) : AcceptInv { s with
    rows := s.rows ++ (s.uncommitted.filter fun u => decide (u.1 = tx)).map (·.2)
    uncommitted := s.uncommitted.filter fun u => !decide (u.1 = tx)
    locks := s.locks.filter fun l => !decide (l.2 = tx) } := by
  have hperm : ((s.rows ++ (s.uncommitted.filter fun u => decide (u.1 = tx)).map (·.2)) ++
      (s.uncommitted.filter fun u => !decide (u.1 = tx)).map (·.2)).Perm s.allRows := by
    rw [List.append_assoc, ← List.map_append]
    exact List.Perm.append_left _ ((List.filter_append_perm _ _).map _)
  refine ⟨(hperm.map _).nodup_iff.mpr h.ids, fun r hr => h.created r (hperm.mem_iff.mp hr),
    h.exclusiveWithout tx, h.lockedWithout tx, ?_⟩
  obtain ⟨hrows, hopen, hcross⟩ := List.pairwise_append.mp h.ordered
  rw [List.pairwise_map] at hopen
  have hmem : ∀ {p : ℕ × OutboxRow → Bool} {t}, t ∈ (s.uncommitted.filter p).map (·.2) →
      t ∈ s.uncommitted.map (·.2) := by
    intro p t ht
    exact ((List.filter_sublist).map _).subset ht
  show ((s.rows ++ _) ++ _).Pairwise _
  rw [List.append_assoc, List.pairwise_append, List.pairwise_append, List.pairwise_map, List.pairwise_map]
  refine ⟨hrows, ⟨hopen.filter _, hopen.filter _, ?_⟩, ?_⟩
  · intro r hr t ht hq
    obtain ⟨u, hu, rfl⟩ := List.mem_map.mp hr
    obtain ⟨v, hv, rfl⟩ := List.mem_map.mp ht
    simp only [List.mem_filter, decide_eq_true_eq, Bool.not_eq_true', decide_eq_false_iff_not] at hu hv
    have htx := h.tx_unique hu.1 hv.1 hq
    exact absurd (htx ▸ hu.2) hv.2
  · intro r hr t ht
    rcases List.mem_append.mp ht with ht | ht
    · exact hcross r hr t (hmem ht)
    · exact hcross r hr t (hmem ht)

theorem rollback (h : AcceptInv s) (tx : ℕ) : AcceptInv { s with
    uncommitted := s.uncommitted.filter fun u => !decide (u.1 = tx)
    locks := s.locks.filter fun l => !decide (l.2 = tx) } := by
  have hsub : (s.rows ++ (s.uncommitted.filter fun u => !decide (u.1 = tx)).map (·.2)).Sublist s.allRows :=
    (List.Sublist.refl _).append ((List.filter_sublist).map _)
  exact ⟨(hsub.map _).nodup h.ids, fun r hr => h.created r (hsub.subset hr), h.exclusiveWithout tx,
    h.lockedWithout tx, h.ordered.sublist hsub⟩

theorem updateRows (h : AcceptInv s) {p : OutboxRow → Bool} {g : OutboxRow → OutboxRow}
    (hg : ∀ r ∈ s.rows, p r = true → r.Follows (g r)) : AcceptInv (s.updateRows p g) := by
  have hf : ∀ r ∈ s.rows, r.Follows (if p r then g r else r) := fun r hr => .selected (hg r hr)
  obtain ⟨hrows, hopen, hcross⟩ := List.pairwise_append.mp h.ordered
  constructor
  · have hids : (s.updateRows p g).allRows.map (·.id) = s.allRows.map (·.id) := by
      simp only [OutboxState.allRows, OutboxState.updateRows, List.map_append, List.map_map]
      congr 1
      exact List.map_congr_left fun r hr => (hf r hr).id
    rw [hids]
    exact h.ids
  · intro r' hr'
    rcases List.mem_append.mp hr' with hr' | hr'
    · obtain ⟨r, hr, rfl⟩ := List.mem_map.mp hr'
      rw [(hf r hr).createdAt]
      exact h.created r (List.mem_append_left _ hr)
    · exact h.created r' (List.mem_append_right _ hr')
  · exact h.exclusive
  · exact h.locked
  · refine List.pairwise_append.mpr ⟨List.pairwise_map.mpr ?_, hopen, ?_⟩
    · refine hrows.imp_of_mem fun {r t} hr ht hlt => ?_
      rw [(hf r hr).sameQueue_iff (hf t ht), (hf r hr).createdAt, (hf t ht).createdAt]
      exact hlt
    · intro r' hr' t ht
      obtain ⟨r, hr, rfl⟩ := List.mem_map.mp hr'
      rw [(hf r hr).sameQueue_iff (OutboxRow.Follows.rfl' t), (hf r hr).createdAt]
      exact hcross r hr t ht

end AcceptInv

/-! ### The statements of a step -/

inductive OutboxMove (s : OutboxState) : OutboxAction → OutboxState → Prop
  | tick (duration : ℕ) : OutboxMove s (.tick duration) { s with now := s.now + duration }
  | lock (tx : ℕ) (subject recipient : String)
      (hfree : ∀ l ∈ s.locks, l.1 = (subject, recipient) → l.2 = tx) :
      OutboxMove s (.lock tx subject recipient) { s with locks := ((subject, recipient), tx) :: s.locks }
  | insert (tx : ℕ) (id : OutboxId) (subject : String) (recipient : Option String)
      (hok : s.accepts id subject recipient = true)
      (hlock : ∀ k ∈ recipient, ((subject, k), tx) ∈ s.locks) :
      OutboxMove s (.insert tx id subject recipient) { s with
        uncommitted := s.uncommitted ++ [(tx, ⟨id, subject, recipient, .pending, 0, s.now, s.now, 0⟩)] }
  | commit (tx : ℕ) : OutboxMove s (.commit tx) { s with
      rows := s.rows ++ (s.uncommitted.filter fun u => decide (u.1 = tx)).map (·.2)
      uncommitted := s.uncommitted.filter fun u => !decide (u.1 = tx)
      locks := s.locks.filter fun l => !decide (l.2 = tx) }
  | rollback (tx : ℕ) : OutboxMove s (.rollback tx) { s with
      uncommitted := s.uncommitted.filter fun u => !decide (u.1 = tx)
      locks := s.locks.filter fun l => !decide (l.2 = tx) }
  | claim (d : ℕ) (skipped : List OutboxId) : OutboxMove s (.claim d skipped)
      ((s.updateRows (fun r => decide (r.id ∈ (claimBatch s skipped).map (·.id)))
        (·.claimedAt s.now)).setDispatcher d
          (.next ((claimBatch s skipped).map fun r => ⟨r.id, r.attempts, nextLease s.now, r.claimNo + 1⟩)))
  | renew (d : ℕ) (c : Claimed) (rest : List Claimed) (hd : s.dispatchers d = .batch (c :: rest))
      (r : OutboxRow) (hr : r ∈ s.rows) (hc : r.carries c = true) : OutboxMove s (.renew d)
      ((s.updateRows (·.carries c) (·.renewedAt s.now)).setDispatcher d
        (.publishing { c with claimUntil := nextLease s.now } rest))
  | skip (d : ℕ) (c : Claimed) (rest : List Claimed) (hd : s.dispatchers d = .batch (c :: rest)) :
      OutboxMove s (.renew d) (s.setDispatcher d (.next rest))
  | send (d : ℕ) (c : Claimed) (rest : List Claimed) (hd : s.dispatchers d = .publishing c rest) :
      OutboxMove s (.send d) { s with sent := c.id :: s.sent }
  | store (id : OutboxId) (hsent : id ∈ s.sent) (hnew : id ∉ s.broker) : OutboxMove s (.store id)
      { s with broker := s.broker ++ [id] }
  | duplicate (id : OutboxId) : OutboxMove s (.store id) s
  | answer (d : ℕ) (c : Claimed) (rest : List Claimed) (ok : Bool)
      (hd : s.dispatchers d = .publishing c rest) (hok : ok = true → c.id ∈ s.broker) :
      OutboxMove s (.answer d ok) (s.setDispatcher d (.settling c rest ok))
  | settle (d : ℕ) (c : Claimed) (rest : List Claimed) (ok : Bool)
      (hd : s.dispatchers d = .settling c rest ok) : OutboxMove s (.settle d true)
      ((s.updateRows (·.carries c) (·.outcome s.now c.attempts ok)).setDispatcher d (.next rest))
  | unsettled (d : ℕ) (c : Claimed) (rest : List Claimed) (ok : Bool)
      (hd : s.dispatchers d = .settling c rest ok) : OutboxMove s (.settle d false)
      (s.setDispatcher d (if ok then .next rest else .idle))
  | crash (d : ℕ) : OutboxMove s (.crash d) (s.setDispatcher d .idle)

theorem outboxStep_move {s s' : OutboxState} {a : OutboxAction} (h : outboxStep s a = some s') :
    OutboxMove s a s' := by
  cases a with
  | tick duration => exact Option.some.inj h ▸ .tick duration
  | lock tx subject recipient =>
    simp only [outboxStep, List.all_eq_true, decide_eq_true_eq] at h
    split_ifs at h with hfree
    exact Option.some.inj h ▸ .lock tx subject recipient hfree
  | insert tx id subject recipient =>
    simp only [outboxStep] at h
    split_ifs at h with hok
    exact Option.some.inj h ▸ .insert tx id subject recipient hok.1 hok.2
  | commit tx => exact Option.some.inj h ▸ .commit tx
  | rollback tx => exact Option.some.inj h ▸ .rollback tx
  | claim d skipped =>
    simp only [outboxStep] at h
    split at h
    · exact Option.some.inj h ▸ .claim d skipped
    · contradiction
  | renew d =>
    simp only [outboxStep] at h
    split at h
    · rename_i c rest hd
      split_ifs at h with hany
      · obtain ⟨r, hr, hc⟩ := List.any_eq_true.mp hany
        exact Option.some.inj h ▸ .renew d c rest hd r hr hc
      · exact Option.some.inj h ▸ .skip d c rest hd
    · contradiction
  | send d =>
    simp only [outboxStep] at h
    split at h
    · rename_i c rest hd
      exact Option.some.inj h ▸ .send d c rest hd
    · contradiction
  | store id =>
    simp only [outboxStep] at h
    split_ifs at h with hsent hin
    · exact Option.some.inj h ▸ .duplicate id
    · exact Option.some.inj h ▸ .store id hsent hin
  | answer d ok =>
    simp only [outboxStep] at h
    split at h
    · rename_i c rest hd
      split_ifs at h with hok
      exact Option.some.inj h ▸ .answer d c rest ok hd hok
    · contradiction
  | settle d persisted =>
    simp only [outboxStep] at h
    split at h
    · rename_i c rest ok hd
      cases persisted with
      | true => exact Option.some.inj h ▸ .settle d c rest ok hd
      | false => exact Option.some.inj h ▸ .unsettled d c rest ok hd
    · contradiction
  | crash d => exact Option.some.inj h ▸ .crash d

@[simp] theorem Dispatcher.entries_next (rows : List Claimed) : (Dispatcher.next rows).entries = rows := by
  cases rows with
  | nil => rfl
  | cons c rest => rfl

theorem mem_claimBatch {s : OutboxState} {skipped : List OutboxId} {r : OutboxRow}
    (h : r ∈ claimBatch s skipped) : r ∈ s.rows ∧ r.claimable s.rows s.now = true := by
  have hsorted := (List.mem_filter.mp (List.mem_of_mem_take h)).1
  rw [List.mem_insertionSort] at hsorted
  exact List.mem_filter.mp hsorted

theorem AcceptInv.claimed {s : OutboxState} (h : AcceptInv s) {skipped : List OutboxId} {r : OutboxRow}
    (hr : r ∈ s.rows) (hid : decide (r.id ∈ (claimBatch s skipped).map (·.id)) = true) :
    r.claimable s.rows s.now = true := by
  obtain ⟨t, ht, heq⟩ := List.mem_map.mp (of_decide_eq_true hid)
  obtain ⟨htrows, hclaimable⟩ := mem_claimBatch ht
  obtain rfl := h.row_unique htrows hr heq
  exact hclaimable

theorem AcceptInv.follows {s : OutboxState} (h : AcceptInv s) :
    (∀ skipped, ∀ r ∈ s.rows, decide (r.id ∈ (claimBatch s skipped).map (·.id)) = true →
      r.Follows (r.claimedAt s.now)) ∧
    (∀ c, ∀ r ∈ s.rows, r.carries c = true → r.Follows (r.renewedAt s.now)) ∧
    ∀ c attempts ok, ∀ r ∈ s.rows, r.carries c = true → r.Follows (r.outcome s.now attempts ok) := by
  refine ⟨fun skipped r hr hid => ?_, fun c r hr hc => ?_, fun c attempts ok r hr hc => ?_⟩
  · have hclaimable := h.claimed hr hid
    exact .claimedAt _ (OutboxRow.claimable_iff.mp hclaimable).1
  · exact .renewedAt _ (OutboxRow.waiting_of_carries hc)
  · exact .outcome _ _ _ (OutboxRow.waiting_of_carries hc)

theorem AcceptInv.step {s s' : OutboxState} {a : OutboxAction} (h : AcceptInv s)
    (hstep : outboxStep s a = some s') : AcceptInv s' := by
  have hfollows := h.follows
  cases outboxStep_move hstep with
  | tick duration => exact h.tick duration
  | lock tx subject recipient hfree => exact h.lock hfree
  | insert tx id subject recipient hok hlock => exact h.insert hok hlock
  | commit tx => exact h.commit tx
  | rollback tx => exact h.rollback tx
  | claim d skipped =>
    have hrows := h.updateRows (hfollows.1 skipped)
    exact ⟨hrows.ids, hrows.created, hrows.exclusive, hrows.locked, hrows.ordered⟩
  | renew d c rest hd r hr hc =>
    have hrows := h.updateRows (hfollows.2.1 c)
    exact ⟨hrows.ids, hrows.created, hrows.exclusive, hrows.locked, hrows.ordered⟩
  | settle d c rest ok hd =>
    have hrows := h.updateRows (hfollows.2.2 c c.attempts ok)
    exact ⟨hrows.ids, hrows.created, hrows.exclusive, hrows.locked, hrows.ordered⟩
  | skip | send | store | duplicate | answer | unsettled | crash =>
    exact ⟨h.ids, h.created, h.exclusive, h.locked, h.ordered⟩

/-! ### The deadline as a token -/

/-- The deadline a dispatcher keeps is at most the row's, and below it once the row was claimed again. -/
structure OutboxRow.Bounds (r : OutboxRow) (c : Claimed) : Prop where
  id : r.id = c.id
  claimNo : c.claimNo ≤ r.claimNo
  pending : r.status = .pending → c.claimUntil < nextLease r.nextAttemptAt
  claimed : r.status = .claimed → c.claimUntil ≤ r.nextAttemptAt
  again : r.status = .claimed → c.claimNo < r.claimNo → c.claimUntil < r.nextAttemptAt

namespace OutboxRow.Bounds

variable {r : OutboxRow} {c : Claimed} {now : ℕ}

theorem claimNo_eq (h : r.Bounds c) (hc : r.carries c = true) : c.claimNo = r.claimNo := by
  obtain ⟨-, hstatus, htoken⟩ := carries_iff.mp hc
  have hle := h.claimNo
  by_contra hne
  have hlt := h.again hstatus (by omega)
  omega

theorem claimedAt (h : r.Bounds c) (hwaiting : r.status.waiting = true) (hdue : r.nextAttemptAt ≤ now) :
    (r.claimedAt now).Bounds c := by
  have hlt : c.claimUntil < nextLease now := by
    have hmono := nextLease_mono hdue
    have hnow := lt_nextLease now
    cases hstatus : r.status with
    | pending =>
      have hpending := h.pending hstatus
      omega
    | claimed =>
      have hclaimed := h.claimed hstatus
      omega
    | published | failed =>
      rw [hstatus] at hwaiting
      contradiction
  have hno := h.claimNo
  exact ⟨h.id, Nat.le_succ_of_le hno, fun hs => (nomatch hs), fun _ => le_of_lt hlt,
    fun _ _ => hlt⟩

theorem renewedAt {c' : Claimed} (h : r.Bounds c) (hc' : r.carries c' = true)
    (hissued : c.claimUntil ≤ nextLease now) (hissued' : c'.claimUntil ≤ nextLease now) :
    (r.renewedAt now).Bounds c := by
  obtain ⟨-, hstatus, htoken⟩ := carries_iff.mp hc'
  unfold OutboxRow.renewedAt
  refine ⟨h.id, h.claimNo, fun hpending => ?_, fun _ => hissued, fun _ hlt => ?_⟩
  · exact nomatch hstatus.symm.trans hpending
  · have hagain := h.again hstatus hlt
    show c.claimUntil < nextLease now
    omega

theorem outcome (h : r.Bounds c) (hissued : c.claimUntil ≤ nextLease now) (attempts : ℕ) (ok : Bool) :
    (r.outcome now attempts ok).Bounds c := by
  have hdelay := retryDelay_ge (attempts + 1)
  have hlt : nextLease now < nextLease (now + getOutboxRetryDelayMs (attempts + 1) * 1000) :=
    nextLease_lt (by omega)
  unfold OutboxRow.outcome
  split_ifs
  · exact ⟨h.id, h.claimNo, fun hs => (nomatch hs), fun hs => (nomatch hs), fun hs => (nomatch hs)⟩
  · exact ⟨h.id, h.claimNo, fun hs => (nomatch hs), fun hs => (nomatch hs), fun hs => (nomatch hs)⟩
  · exact ⟨h.id, h.claimNo, fun _ => lt_of_le_of_lt hissued hlt, fun hs => (nomatch hs),
      fun hs => (nomatch hs)⟩

end OutboxRow.Bounds

structure LeaseInv (s : OutboxState) : Prop where
  accept : AcceptInv s
  issued : ∀ d, ∀ c ∈ (s.dispatchers d).entries, c.claimUntil ≤ nextLease s.now
  backed : ∀ d, ∀ c ∈ (s.dispatchers d).entries, ∃ r ∈ s.rows, r.Bounds c

theorem entries_setDispatcher {s : OutboxState} {d d' : ℕ} {x : Dispatcher} {c : Claimed}
    (h : c ∈ ((s.setDispatcher d x).dispatchers d').entries) :
    c ∈ x.entries ∨ c ∈ (s.dispatchers d').entries := by
  by_cases hd : d' = d
  · subst hd
    left
    simpa [OutboxState.setDispatcher] using h
  · right
    simpa [OutboxState.setDispatcher, hd] using h

namespace LeaseInv

variable {s : OutboxState}

theorem empty : LeaseInv emptyOutbox :=
  ⟨.empty, fun _ _ hc => (nomatch hc), fun _ _ hc => (nomatch hc)⟩

theorem setDispatcher (h : LeaseInv s) {d : ℕ} {x : Dispatcher}
    (hx : ∀ c ∈ x.entries, c.claimUntil ≤ nextLease s.now ∧ ∃ r ∈ s.rows, r.Bounds c) :
    LeaseInv (s.setDispatcher d x) := by
  have haccept := h.accept
  refine ⟨⟨haccept.ids, haccept.created, haccept.exclusive, haccept.locked, haccept.ordered⟩, ?_, ?_⟩
  · intro d' c hc
    rcases entries_setDispatcher hc with hc | hc
    · exact (hx c hc).1
    · exact h.issued d' c hc
  · intro d' c hc
    rcases entries_setDispatcher hc with hc | hc
    · exact (hx c hc).2
    · exact h.backed d' c hc

theorem continues (h : LeaseInv s) {d : ℕ} {x : Dispatcher}
    (hx : ∀ c ∈ x.entries, c ∈ (s.dispatchers d).entries) : LeaseInv (s.setDispatcher d x) :=
  h.setDispatcher fun c hc => ⟨h.issued d c (hx c hc), h.backed d c (hx c hc)⟩

theorem updateRows (h : LeaseInv s) {p : OutboxRow → Bool} {g : OutboxRow → OutboxRow}
    (hg : ∀ r ∈ s.rows, p r = true → r.Follows (g r))
    (hbounds : ∀ r ∈ s.rows, p r = true → ∀ c, c.claimUntil ≤ nextLease s.now → r.Bounds c →
      (g r).Bounds c) : LeaseInv (s.updateRows p g) := by
  refine ⟨h.accept.updateRows hg, h.issued, fun d c hc => ?_⟩
  obtain ⟨r, hr, hb⟩ := h.backed d c hc
  refine ⟨_, List.mem_map_of_mem hr, ?_⟩
  by_cases hp : p r = true
  · rw [if_pos hp]
    exact hbounds r hr hp c (h.issued d c hc) hb
  · rw [if_neg hp]
    exact hb

end LeaseInv

theorem LeaseInv.step {s s' : OutboxState} {a : OutboxAction} (h : LeaseInv s)
    (hstep : outboxStep s a = some s') : LeaseInv s' := by
  have haccept := h.accept.step hstep
  have hfollows := h.accept.follows
  cases outboxStep_move hstep with
  | tick duration =>
    refine ⟨haccept, fun d c hc => ?_, h.backed⟩
    exact (h.issued d c hc).trans (nextLease_mono (Nat.le_add_right _ _))
  | commit tx =>
    refine ⟨haccept, h.issued, fun d c hc => ?_⟩
    obtain ⟨r, hr, hb⟩ := h.backed d c hc
    exact ⟨r, List.mem_append_left _ hr, hb⟩
  | lock | insert | rollback | send | store | duplicate => exact ⟨haccept, h.issued, h.backed⟩
  | claim d skipped =>
    have hrows : LeaseInv (s.updateRows (fun r => decide (r.id ∈ (claimBatch s skipped).map (·.id)))
        (·.claimedAt s.now)) := by
      refine h.updateRows (hfollows.1 skipped) fun r hr hid c _ hb => ?_
      obtain ⟨hwaiting, hdue, -⟩ := OutboxRow.claimable_iff.mp (h.accept.claimed hr hid)
      exact hb.claimedAt hwaiting hdue
    refine hrows.setDispatcher fun c hc => ?_
    rw [Dispatcher.entries_next] at hc
    obtain ⟨r, hr, rfl⟩ := List.mem_map.mp hc
    refine ⟨le_refl _, r.claimedAt s.now, ?_, ⟨rfl, le_refl _, ?_, fun _ => le_refl _, ?_⟩⟩
    · refine List.mem_map.mpr ⟨r, (mem_claimBatch hr).1, if_pos ?_⟩
      exact decide_eq_true (List.mem_map_of_mem hr)
    · intro hs
      contradiction
    · intro _ hlt
      exact absurd hlt (lt_irrefl _)
  | renew d c rest hd r hr hc =>
    have hbatch : ∀ e ∈ c :: rest, e ∈ (s.dispatchers d).entries := by
      intro e he
      rw [hd]
      exact he
    have hissued := h.issued d c (hbatch c List.mem_cons_self)
    have hrows : LeaseInv (s.updateRows (·.carries c) (·.renewedAt s.now)) :=
      h.updateRows (hfollows.2.1 c) fun t _ ht e he hb => hb.renewedAt ht he hissued
    refine hrows.setDispatcher fun e he => ?_
    rcases List.mem_cons.mp he with rfl | he
    · obtain ⟨t, ht, hb⟩ := h.backed d c (hbatch c List.mem_cons_self)
      obtain rfl := h.accept.row_unique ht hr (hb.id.trans (OutboxRow.carries_iff.mp hc).1.symm)
      refine ⟨le_refl _, t.renewedAt s.now, List.mem_map.mpr ⟨t, ht, if_pos hc⟩, ?_⟩
      have hno := hb.claimNo_eq hc
      have hstatus := (OutboxRow.carries_iff.mp hc).2.1
      unfold OutboxRow.renewedAt
      refine ⟨hb.id, hb.claimNo, fun hs => ?_, fun _ => le_refl _, fun _ hlt => ?_⟩
      · exact nomatch hstatus.symm.trans hs
      · exact absurd hno (Nat.ne_of_lt hlt)
    · exact ⟨hrows.issued d e (hbatch e (List.mem_cons_of_mem _ he)),
        hrows.backed d e (hbatch e (List.mem_cons_of_mem _ he))⟩
  | skip d c rest hd =>
    refine h.continues fun e he => ?_
    rw [Dispatcher.entries_next] at he
    rw [hd]
    exact List.mem_cons_of_mem _ he
  | answer d c rest ok hd hok =>
    refine h.continues fun e he => ?_
    rw [hd]
    exact he
  | settle d c rest ok hd =>
    have hrows := h.updateRows (hfollows.2.2 c c.attempts ok)
      fun t _ _ e he hb => hb.outcome he c.attempts ok
    refine hrows.continues fun e he => ?_
    rw [Dispatcher.entries_next] at he
    show e ∈ (s.dispatchers d).entries
    rw [hd]
    exact List.mem_cons_of_mem _ he
  | unsettled d c rest ok hd =>
    refine h.continues fun e he => ?_
    rw [hd]
    cases ok with
    | true =>
      rw [if_pos rfl, Dispatcher.entries_next] at he
      exact List.mem_cons_of_mem _ he
    | false => exact nomatch he
  | crash d => exact h.continues fun e he => nomatch he

theorem LeaseInv.stale {s : OutboxState} (h : LeaseInv s) {d : ℕ} {c : Claimed}
    (hc : c ∈ (s.dispatchers d).entries) {r : OutboxRow} (hr : r ∈ s.rows) (hid : r.id = c.id)
    (htaken : r.claimNo ≠ c.claimNo) (g : OutboxRow → OutboxRow) :
    (s.updateRows (·.carries c) g).rows = s.rows := by
  have hnone : ∀ t ∈ s.rows, ¬t.carries c = true := by
    intro t ht hcarries
    obtain ⟨b, hb, hbounds⟩ := h.backed d c hc
    obtain rfl := h.accept.row_unique ht hb ((OutboxRow.carries_iff.mp hcarries).1.trans hbounds.id.symm)
    obtain rfl := h.accept.row_unique ht hr (hbounds.id.trans hid.symm)
    exact htaken (hbounds.claimNo_eq hcarries).symm
  show s.rows.map _ = s.rows
  conv_rhs => rw [← List.map_id s.rows]
  exact List.map_congr_left fun t ht => if_neg (hnone t ht)

/-! ### Publication -/

/-- The commands before this one are published or given up. -/
def Cleared (s : OutboxState) (id : OutboxId) : Prop :=
  ∃ r ∈ s.rows, r.id = id ∧ ∀ e ∈ s.rows, e.earlier r = true → e.status.waiting = false

structure PublishInv (s : OutboxState) : Prop where
  lease : LeaseInv s
  fresh : ∀ u ∈ s.uncommitted, u.2.status = .pending
  held : ∀ d, ∀ c ∈ (s.dispatchers d).entries, Cleared s c.id
  sent : ∀ id ∈ s.sent, Cleared s id
  stored : ∀ id ∈ s.broker, Cleared s id
  answered : ∀ d c rest, s.dispatchers d = .settling c rest true → c.id ∈ s.broker
  published : ∀ r ∈ s.rows, r.status = .published → r.id ∈ s.broker

theorem rows_step {s s' : OutboxState} {a : OutboxAction} (h : AcceptInv s)
    (hstep : outboxStep s a = some s') :
    ∃ (f : OutboxRow → OutboxRow) (new : List OutboxRow), s'.rows = s.rows.map f ++ new ∧
      ∀ r ∈ s.rows, r.Follows (f r) := by
  have hupdate : ∀ (p : OutboxRow → Bool) (g : OutboxRow → OutboxRow),
      (∀ r ∈ s.rows, p r = true → r.Follows (g r)) →
      ∃ (f : OutboxRow → OutboxRow) (new : List OutboxRow),
        (s.updateRows p g).rows = s.rows.map f ++ new ∧ ∀ r ∈ s.rows, r.Follows (f r) := by
    intro p g hg
    exact ⟨fun r => if p r then g r else r, [], (List.append_nil _).symm, fun r hr => .selected (hg r hr)⟩
  have hfollows := h.follows
  cases outboxStep_move hstep with
  | claim d skipped => exact hupdate _ _ (hfollows.1 skipped)
  | renew d c rest hd r hr hc => exact hupdate _ _ (hfollows.2.1 c)
  | settle d c rest ok hd => exact hupdate _ _ (hfollows.2.2 c c.attempts ok)
  | commit tx => exact ⟨id, _, by rw [List.map_id], fun r _ => .rfl' r⟩
  | tick | lock | insert | rollback | skip | send | store | duplicate | answer | unsettled | crash =>
    exact ⟨id, [], by simp [OutboxState.setDispatcher], fun r _ => .rfl' r⟩

theorem Cleared.step {s s' : OutboxState} {a : OutboxAction} {id : OutboxId} (h : Cleared s id)
    (haccept : AcceptInv s) (hstep : outboxStep s a = some s') : Cleared s' id := by
  obtain ⟨f, new, hrows, hf⟩ := rows_step haccept hstep
  have hordered := (haccept.step hstep).rowsOrdered
  obtain ⟨r, hr, rfl, hclear⟩ := h
  have hmem : f r ∈ s.rows.map f := List.mem_map_of_mem hr
  refine ⟨f r, hrows ▸ List.mem_append_left _ hmem, (hf r hr).id, fun e' he' hlt => ?_⟩
  rw [hrows] at he' hordered
  rcases List.mem_append.mp he' with he' | he'
  · obtain ⟨e, he, rfl⟩ := List.mem_map.mp he'
    rw [(hf e he).earlier_eq (hf r hr)] at hlt
    have hfinal := hclear e he hlt
    rw [(hf e he).final hfinal]
    exact hfinal
  · obtain ⟨hq, hlt⟩ := OutboxRow.earlier_iff.mp hlt
    have hlater := (List.pairwise_append.mp hordered).2.2 (f r) hmem e' he'
      ⟨hq.1.symm, hq.2.1.symm, hq.2.1 ▸ hq.2.2⟩
    omega

theorem settling_setDispatcher {s : OutboxState} {d d' : ℕ} {x y : Dispatcher}
    (h : (s.setDispatcher d x).dispatchers d' = y) : x = y ∨ s.dispatchers d' = y := by
  by_cases hd : d' = d
  · subst hd
    left
    simpa [OutboxState.setDispatcher] using h
  · right
    simpa [OutboxState.setDispatcher, hd] using h

theorem next_ne_settling (rows : List Claimed) (c : Claimed) (rest : List Claimed) (ok : Bool) :
    Dispatcher.next rows ≠ .settling c rest ok := by
  cases rows with
  | nil => exact nofun
  | cons e rows => exact nofun

namespace PublishInv

variable {s s' : OutboxState} {a : OutboxAction}

theorem empty : PublishInv emptyOutbox :=
  ⟨.empty, fun _ h => (nomatch h), fun _ _ h => (nomatch h), fun _ h => (nomatch h),
    fun _ h => (nomatch h), fun _ _ _ h => (nomatch h), fun _ h => (nomatch h)⟩

theorem dispatcher (h : PublishInv s) (hstep : outboxStep s a = some s') {d : ℕ} {x : Dispatcher}
    (hd : s'.dispatchers = (s.setDispatcher d x).dispatchers) (hopen : s'.uncommitted = s.uncommitted)
    (hsent : s'.sent = s.sent) (hbroker : s'.broker = s.broker)
    (hx : ∀ c ∈ x.entries, Cleared s c.id)
    (hanswered : ∀ c rest, x = .settling c rest true → c.id ∈ s.broker)
    (hpublished : ∀ r ∈ s'.rows, r.status = .published → r.id ∈ s.broker) : PublishInv s' := by
  have hclear : ∀ id, Cleared s id → Cleared s' id := fun id hid => hid.step h.lease.accept hstep
  refine ⟨h.lease.step hstep, hopen ▸ h.fresh, fun d' c hc => hclear _ ?_, fun id hid => hclear _ ?_,
    fun id hid => hclear _ ?_, fun d' c rest hs => ?_, hbroker ▸ hpublished⟩
  · rw [hd] at hc
    rcases entries_setDispatcher hc with hc | hc
    · exact hx c hc
    · exact h.held d' c hc
  · exact h.sent id (hsent ▸ hid)
  · exact h.stored id (hbroker ▸ hid)
  · rw [hd] at hs
    rw [hbroker]
    rcases settling_setDispatcher hs with hs | hs
    · exact hanswered c rest hs
    · exact h.answered d' c rest hs

theorem step (h : PublishInv s) (hstep : outboxStep s a = some s') : PublishInv s' := by
  have haccept := h.lease.accept
  have hlease := h.lease.step hstep
  have hclear : ∀ id, Cleared s id → Cleared s' id := fun id hid => hid.step haccept hstep
  have hheld : ∀ {d c}, c ∈ (s.dispatchers d).entries → Cleared s' c.id :=
    fun hc => hclear _ (h.held _ _ hc)
  cases outboxStep_move hstep with
  | tick | lock | rollback | duplicate =>
    refine ⟨hlease, fun u hu => h.fresh u ?_, fun d c hc => hheld hc, fun id hid => hclear _ (h.sent id hid),
      fun id hid => hclear _ (h.stored id hid), h.answered, h.published⟩
    first
      | exact hu
      | exact List.mem_of_mem_filter hu
  | insert tx id subject recipient hok hlock =>
    refine ⟨hlease, fun u hu => ?_, fun d c hc => hheld hc, fun id hid => hclear _ (h.sent id hid),
      fun id hid => hclear _ (h.stored id hid), h.answered, h.published⟩
    rcases List.mem_append.mp hu with hu | hu
    · exact h.fresh u hu
    · rw [List.mem_singleton.mp hu]
  | commit tx =>
    refine ⟨hlease, fun u hu => h.fresh u (List.mem_of_mem_filter hu), fun d c hc => hheld hc,
      fun id hid => hclear _ (h.sent id hid), fun id hid => hclear _ (h.stored id hid), h.answered, ?_⟩
    intro r hr hs
    rcases List.mem_append.mp hr with hr | hr
    · exact h.published r hr hs
    · obtain ⟨u, hu, rfl⟩ := List.mem_map.mp hr
      rw [h.fresh u (List.mem_of_mem_filter hu)] at hs
      contradiction
  | claim d skipped =>
    refine h.dispatcher hstep rfl rfl rfl rfl ?_ (fun c rest hs => absurd hs (next_ne_settling _ _ _ _)) ?_
    · intro c hc
      rw [Dispatcher.entries_next] at hc
      obtain ⟨r, hr, rfl⟩ := List.mem_map.mp hc
      obtain ⟨hrows, hclaimable⟩ := mem_claimBatch hr
      exact ⟨r, hrows, rfl, (OutboxRow.claimable_iff.mp hclaimable).2.2⟩
    · intro r' hr' hs
      obtain ⟨r, hr, rfl⟩ := List.mem_map.mp hr'
      split_ifs at hs ⊢ with hid
      · contradiction
      · exact h.published r hr hs
  | renew d c rest hd r hr hc =>
    refine h.dispatcher hstep rfl rfl rfl rfl (fun e he => ?_) nofun ?_
    · rcases List.mem_cons.mp he with rfl | he
      · exact h.held d c (by rw [hd]; exact List.mem_cons_self)
      · exact h.held d e (by rw [hd]; exact List.mem_cons_of_mem _ he)
    · intro r' hr' hs
      obtain ⟨t, ht, rfl⟩ := List.mem_map.mp hr'
      by_cases hcarries : t.carries c = true
      · rw [if_pos hcarries, OutboxRow.renewedAt_status, (OutboxRow.carries_iff.mp hcarries).2.1] at hs
        contradiction
      · rw [if_neg hcarries] at hs ⊢
        exact h.published t ht hs
  | skip d c rest hd =>
    refine h.dispatcher hstep rfl rfl rfl rfl (fun e he => h.held d e ?_)
      (fun c rest hs => absurd hs (next_ne_settling _ _ _ _)) h.published
    rw [Dispatcher.entries_next] at he
    rw [hd]
    exact List.mem_cons_of_mem _ he
  | send d c rest hd =>
    refine ⟨hlease, h.fresh, fun d' e he => hheld he, fun id hid => hclear _ ?_,
      fun id hid => hclear _ (h.stored id hid), h.answered, h.published⟩
    rcases List.mem_cons.mp hid with rfl | hid
    · exact h.held d c (by rw [hd]; exact List.mem_cons_self)
    · exact h.sent id hid
  | store id hsent hnew =>
    refine ⟨hlease, h.fresh, fun d' e he => hheld he, fun id hid => hclear _ (h.sent id hid),
      fun id' hid => hclear _ ?_, fun d' c rest hs => ?_, fun r hr hs => ?_⟩
    · rcases List.mem_append.mp hid with hid | hid
      · exact h.stored id' hid
      · exact h.sent id' (List.mem_singleton.mp hid ▸ hsent)
    · exact List.mem_append_left _ (h.answered d' c rest hs)
    · exact List.mem_append_left _ (h.published r hr hs)
  | answer d c rest ok hd hok =>
    refine h.dispatcher hstep rfl rfl rfl rfl (fun e he => h.held d e ?_) (fun e l hs => ?_) h.published
    · rw [hd]
      exact he
    · injection hs with he hl hok'
      exact he ▸ hok hok'
  | settle d c rest ok hd =>
    refine h.dispatcher hstep rfl rfl rfl rfl (fun e he => h.held d e ?_)
      (fun c rest hs => absurd hs (next_ne_settling _ _ _ _)) ?_
    · rw [Dispatcher.entries_next] at he
      rw [hd]
      exact List.mem_cons_of_mem _ he
    · intro r' hr' hs
      obtain ⟨t, ht, rfl⟩ := List.mem_map.mp hr'
      by_cases hcarries : t.carries c = true
      · rw [if_pos hcarries] at hs ⊢
        have hid : (t.outcome s.now c.attempts ok).id = c.id :=
          (OutboxRow.Follows.outcome _ _ _ (OutboxRow.waiting_of_carries hcarries)).id.trans
            (OutboxRow.carries_iff.mp hcarries).1
        rw [hid]
        cases ok with
        | true => exact h.answered d c rest hd
        | false =>
          unfold OutboxRow.outcome at hs
          split_ifs at hs <;> contradiction
      · rw [if_neg hcarries] at hs ⊢
        exact h.published t ht hs
  | unsettled d c rest ok hd =>
    refine h.dispatcher hstep rfl rfl rfl rfl (fun e he => h.held d e ?_) (fun e l hs => ?_) h.published
    · rw [hd]
      cases ok with
      | true =>
        rw [if_pos rfl, Dispatcher.entries_next] at he
        exact List.mem_cons_of_mem _ he
      | false => exact nomatch he
    · cases ok with
      | true => exact absurd hs (next_ne_settling _ _ _ _)
      | false => exact nomatch hs
  | crash d => exact h.dispatcher hstep rfl rfl rfl rfl (fun e he => (nomatch he)) nofun h.published

end PublishInv

/-! ### The order of the stream -/

/-- Of two commands of one queue the one accepted first comes first in the queue, and in the stream. -/
def PublishedInOrder (s : OutboxState) : Prop :=
  s.rows.Pairwise fun r t => r.sameQueue t → r.earlier t = true ∧
    (r.id ∈ s.broker → t.id ∈ s.broker → [r.id, t.id].Sublist s.broker)

/-- The stream does not store a command for the first time after its row was given up. -/
def StoredBeforeGivenUp (s : OutboxState) : OutboxAction → Prop
  | .store id => id ∈ s.broker ∨ ∀ r ∈ s.rows, r.id = id → r.status ≠ .failed
  | _ => True

instance (s : OutboxState) (a : OutboxAction) : Decidable (StoredBeforeGivenUp s a) :=
  match a with
  | .store id =>
    inferInstanceAs (Decidable (id ∈ s.broker ∨ ∀ r ∈ s.rows, r.id = id → r.status ≠ .failed))
  | .tick _ | .lock .. | .insert .. | .commit _ | .rollback _ | .claim .. | .renew _ | .send _
  | .answer .. | .settle .. | .crash _ => isTrue trivial

/-- What every step keeps: a command is stored for the first time only after the earlier ones of its queue
are published or failed, the outcome of a claim that was taken over changes nothing, and a published or
failed row stays as it is. -/
structure FencedStep (s : OutboxState) (a : OutboxAction) (s' : OutboxState) : Prop where
  cleared : ∀ id ∈ s'.broker, id ∉ s.broker → ∀ r ∈ s'.rows, r.id = id →
    ∀ e ∈ s'.rows, e.earlier r = true → e.status = .published ∨ e.status = .failed
  stale : ∀ d persisted c rest ok, a = .settle d persisted → s.dispatchers d = .settling c rest ok →
    (∃ r ∈ s.rows, r.id = c.id ∧ r.claimNo ≠ c.claimNo) → s'.rows = s.rows ∧ s'.broker = s.broker
  final : ∀ r ∈ s.rows, r.status = .published ∨ r.status = .failed → r ∈ s'.rows

theorem OutboxStatus.waiting_eq_false {x : OutboxStatus} :
    x.waiting = false ↔ x = .published ∨ x = .failed := by
  cases x <;> simp [OutboxStatus.waiting]

theorem PublishInv.fenced {s s' : OutboxState} {a : OutboxAction} (h : PublishInv s)
    (hstep : outboxStep s a = some s') : FencedStep s a s' := by
  have h' := h.step hstep
  refine ⟨fun id hid _ r hr heq e he hlt => ?_, ?_, fun r hr hs => ?_⟩
  · obtain ⟨t, ht, hteq, hclear⟩ := h'.stored id hid
    obtain rfl := h'.lease.accept.row_unique ht hr (hteq.trans heq.symm)
    exact OutboxStatus.waiting_eq_false.mp (hclear e he hlt)
  · rintro d persisted c rest ok rfl hd ⟨r, hr, hid, htaken⟩
    have hc : c ∈ (s.dispatchers d).entries := by
      rw [hd]
      exact List.mem_cons_self
    cases outboxStep_move hstep with
    | settle d c' rest' ok' hd' =>
      rw [hd] at hd'
      injection hd' with hc'
      subst hc'
      exact ⟨h.lease.stale hc hr hid htaken _, rfl⟩
    | unsettled => exact ⟨rfl, rfl⟩
  · obtain ⟨f, new, hrows, hf⟩ := rows_step h.lease.accept hstep
    have hfinal := (hf r hr).final (OutboxStatus.waiting_eq_false.mpr hs)
    rw [hrows]
    exact List.mem_append_left _ (List.mem_map.mpr ⟨r, hr, hfinal⟩)

/-- Behind a stored command, a command that is not stored was given up. -/
structure OrderInv (s : OutboxState) : Prop where
  publish : PublishInv s
  order : ∀ r ∈ s.rows, ∀ t ∈ s.rows, r.earlier t = true → t.id ∈ s.broker →
    [r.id, t.id].Sublist s.broker ∨ r.id ∉ s.broker ∧ r.status = .failed

namespace OrderInv

variable {s s' : OutboxState} {a : OutboxAction}

theorem of_broker (h : OrderInv s) (hstep : outboxStep s a = some s') (hbroker : s'.broker = s.broker) :
    OrderInv s' := by
  have h' := h.publish.step hstep
  obtain ⟨f, new, hrows, hf⟩ := rows_step h.publish.lease.accept hstep
  -- a stored command has a row already
  have hold : ∀ t' ∈ s'.rows, t'.id ∈ s.broker → ∃ t ∈ s.rows, f t = t' := by
    intro t' ht' hid
    obtain ⟨t, ht, heq, -⟩ := h.publish.stored _ hid
    have hft : f t ∈ s'.rows := hrows ▸ List.mem_append_left _ (List.mem_map_of_mem ht)
    exact ⟨t, ht, h'.lease.accept.row_unique hft ht' ((hf t ht).id.trans heq)⟩
  refine ⟨h', fun r' hr' t' ht' hlt hid => ?_⟩
  rw [hbroker] at hid ⊢
  obtain ⟨t, ht, rfl⟩ := hold t' ht' hid
  have hordered := h'.lease.accept.rowsOrdered
  rw [hrows] at hr' hordered
  rcases List.mem_append.mp hr' with hr' | hr'
  · obtain ⟨r, hr, rfl⟩ := List.mem_map.mp hr'
    rw [(hf r hr).earlier_eq (hf t ht)] at hlt
    rw [(hf t ht).id] at hid ⊢
    rw [(hf r hr).id]
    rcases h.order r hr t ht hlt hid with hsub | ⟨hnot, hfailed⟩
    · exact .inl hsub
    · refine .inr ⟨hnot, ?_⟩
      rw [(hf r hr).final (OutboxStatus.waiting_eq_false.mpr (.inr hfailed))]
      exact hfailed
  · obtain ⟨hq, hlt⟩ := OutboxRow.earlier_iff.mp hlt
    have hlater := (List.pairwise_append.mp hordered).2.2 (f t) (List.mem_map_of_mem ht) r' hr'
      ⟨hq.1.symm, hq.2.1.symm, hq.2.1 ▸ hq.2.2⟩
    omega

/-- A command the stream stores for the first time finds the earlier ones in the stream or given up, and
no later one unless it was given up itself. -/
theorem store (h : OrderInv s) {id : OutboxId} (hstep : outboxStep s (.store id) = some s')
    (hs' : s' = { s with broker := s.broker ++ [id] }) (hsent : id ∈ s.sent) (hnew : id ∉ s.broker)
    (hcond : StoredBeforeGivenUp s (.store id)) : OrderInv s' := by
  have h' := h.publish.step hstep
  subst hs'
  refine ⟨h', fun r hr t ht hlt hid => ?_⟩
  have hrun : ∀ e ∈ s.rows, e.id = id → e.status ≠ .failed := hcond.resolve_left hnew
  rcases List.mem_append.mp hid with hid | hid
  · rcases h.order r hr t ht hlt hid with hsub | ⟨hnot, hfailed⟩
    · exact .inl (hsub.trans (List.sublist_append_left _ _))
    · refine .inr ⟨fun hin => ?_, hfailed⟩
      rcases List.mem_append.mp hin with hin | hin
      · exact hnot hin
      · exact hrun r hr (List.mem_singleton.mp hin) hfailed
  · have htid : t.id = id := List.mem_singleton.mp hid
    obtain ⟨t', ht', hteq, hclear⟩ := h.publish.sent id hsent
    obtain rfl := h.publish.lease.accept.row_unique ht' ht (hteq.trans htid.symm)
    by_cases hin : r.id ∈ s.broker
    · left
      rw [htid]
      exact (List.singleton_sublist.mpr hin).append (List.Sublist.refl [id])
    · right
      have hfailed : r.status = .failed := by
        rcases OutboxStatus.waiting_eq_false.mp (hclear r hr hlt) with hp | hf
        · exact absurd (h.publish.published r hr hp) hin
        · exact hf
      refine ⟨fun hmem => ?_, hfailed⟩
      rcases List.mem_append.mp hmem with hmem | hmem
      · exact hin hmem
      · exact hrun r hr (List.mem_singleton.mp hmem) hfailed

theorem step (h : OrderInv s) (hcond : StoredBeforeGivenUp s a) (hstep : outboxStep s a = some s') :
    OrderInv s' := by
  cases outboxStep_move hstep with
  | store id hsent hnew => exact h.store hstep rfl hsent hnew hcond
  | tick | lock | insert | commit | rollback | claim | renew | skip | send | duplicate | answer | settle
  | unsettled | crash => exact h.of_broker hstep rfl

theorem publishedInOrder (h : OrderInv s) : PublishedInOrder s := by
  refine h.publish.lease.accept.rowsOrdered.imp_of_mem fun {r t} hr ht hlt hq => ?_
  have hearlier : r.earlier t = true := OutboxRow.earlier_iff.mpr ⟨hq, .inl (hlt hq)⟩
  refine ⟨hearlier, fun hrid htid => ?_⟩
  rcases h.order r hr t ht hearlier htid with hsub | ⟨hnot, -⟩
  · exact hsub
  · exact absurd hrid hnot

end OrderInv

/-- **The command outbox.**  Every step of every run is fenced; and a run in which no command is stored for
the first time after it was given up publishes the commands of each queue in the order of acceptance. -/
theorem recipient_order (as : List OutboxAction) :
    Meets outboxStep (fun s a => ∀ s', outboxStep s a = some s' → FencedStep s a s') emptyOutbox as ∧
    (Meets outboxStep StoredBeforeGivenUp emptyOutbox as →
      Always outboxStep PublishedInOrder emptyOutbox as) := by
  constructor
  · have hrun : Always outboxStep (fun _ => True) emptyOutbox as :=
      always_of_step (fun _ _ _ _ _ => trivial) trivial as
    exact meets_of_always (fun s a s' h hstep _ => PublishInv.step h hstep)
      (fun s a s' h _ _ s₁ hs₁ => PublishInv.fenced h hs₁)
      PublishInv.empty hrun
  · intro hmeets
    have hstart : OrderInv emptyOutbox := ⟨.empty, fun _ hr => nomatch hr⟩
    have hrun := always_of_meets (fun s a s' h hcond hstep => OrderInv.step h hcond hstep) hstart hmeets
    exact hrun.mono fun s h => h.publishedInOrder

/-! ### A command stored after it was given up -/

def acceptCommand (tx : ℕ) (id : OutboxId) : List OutboxAction :=
  [.lock tx "commands" "bob", .insert tx id "commands" (some "bob"), .commit tx, .tick 1]

def failedAttempt : List OutboxAction :=
  [.claim 1 [], .renew 1, .answer 1 false, .settle 1 true, .tick 60000000]

/-- Dispatcher 0 renews its lease and outlives it; dispatcher 1 takes the row over, gives it up after the
tenth attempt and publishes the next command; then dispatcher 0 publishes. -/
def givenUpThenStored : List OutboxAction :=
  acceptCommand 1 10 ++ acceptCommand 2 20 ++ (List.replicate 9 failedAttempt).flatten ++
    [.claim 0 [], .renew 0, .tick 30000001, .claim 1 [], .renew 1, .answer 1 false, .settle 1 true,
      .claim 1 [], .renew 1, .send 1, .store 20, .answer 1 true, .settle 1 true, .send 0, .store 10]

theorem stale_publication_out_of_order :
    ¬Always outboxStep PublishedInOrder emptyOutbox givenUpThenStored := by
  intro h
  have hreached : ∃ s, runActions outboxStep emptyOutbox givenUpThenStored = some s ∧
      s.rows.map (fun r => (r.id, r.subject, r.recipient)) =
        [(10, "commands", some "bob"), (20, "commands", some "bob")] ∧ s.broker = [20, 10] :=
    ⟨_, rfl, rfl, rfl⟩
  obtain ⟨s, hs, hrows, hbroker⟩ := hreached
  have horder : PublishedInOrder s :=
    always_iff_reached.mp h givenUpThenStored [] s (List.append_nil _).symm hs
  rcases hs' : s.rows with - | ⟨r, - | ⟨t, l⟩⟩ <;> rw [hs'] at hrows <;>
    simp only [List.map_nil, List.map_cons, List.cons.injEq, Prod.mk.injEq, reduceCtorEq] at hrows
  · exact hrows.2
  · obtain ⟨⟨hrid, hrs, hrk⟩, ⟨htid, hts, htk⟩, -⟩ := hrows
    rw [PublishedInOrder, hs'] at horder
    have hpair := (List.pairwise_cons.mp horder).1 t List.mem_cons_self
      ⟨hrs.trans hts.symm, hrk.trans htk.symm, by rw [hrk]; exact nofun⟩
    have hsub := hpair.2 (by rw [hrid, hbroker]; decide) (by rw [htid, hbroker]; decide)
    rw [hrid, htid, hbroker] at hsub
    exact absurd hsub (by decide)

/-- Both commands published by one dispatcher. -/
theorem recipient_order_two_commands :
    Always outboxStep PublishedInOrder emptyOutbox
      (acceptCommand 1 10 ++ acceptCommand 2 20 ++
        [.claim 0 [], .renew 0, .send 0, .store 10, .answer 0 true, .settle 0 true,
          .claim 0 [], .renew 0, .send 0, .store 20, .answer 0 true, .settle 0 true]) :=
  (recipient_order _).2 (meets_of_check rfl)

end TeamInbox.Outbox
