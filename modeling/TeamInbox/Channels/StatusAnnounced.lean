import TeamInbox.Channels.StatusFanout

/-!
# TeamInbox.Channels.StatusAnnounced — a status change and its broadcast

Every stored message is queued, or a broadcast has seen its last status change: that is so as long as no insert is
dropped against a row whose delivery has read the message already, and no delivery reads while a change whose insert
was dropped waits for its commit.  Both happen: the insert does not wait for a row that is merely locked.
-/

namespace TeamInbox.Channels

open TeamInbox.Lib
open TeamInbox.Messages (MessageStatus)

/-- Queued, or announced with its last status change; what was announced last is what is stored once nothing is
queued. -/
def Fanned (s : Fanout) : Prop := ∀ id m, s.messages id = some m →
  (s.queued id .realtime = true ∨ ∃ b ∈ s.broadcasts, b.messageId = id ∧ s.changes id ≤ b.seen) ∧
    (s.queued id .realtime = false →
      ∃ b, s.broadcasts.find? (fun b => decide (b.messageId = id)) = some b ∧ b.status = m.status)

/-- No insert comes too late for the delivery it relies on, and what is delivered is there to be announced. -/
def FanoutOk (s : Fanout) : FanoutCall → FanoutAction → Prop
  | .updated id _, .enqueue _ => s.queued id .realtime = true → ∀ r ∈ s.reading, r.2 ≠ id
  | .held job, .readMessage => job.kind = .realtime → (∀ d ∈ s.dropped, d.2 ≠ job.messageId) ∧
      (s.messages job.messageId).any (fun m => !m.deletedBySender) = true
  | _, _ => True

def InTime (t : Calls Fanout FanoutCall) : CallAction FanoutAction StoredMessage → Prop
  | .act p a => FanoutOk t.shared (t.calls p) a
  | .env _ => True

/-! ### Assertions -/

structure FanoutInv (s : Fanout) : Prop where
  fanned : ∀ id m, s.messages id = some m →
    s.queued id .realtime = true ∨ ∃ b ∈ s.broadcasts, b.messageId = id ∧ s.changes id ≤ b.seen
  seen : ∀ b ∈ s.broadcasts, b.seen ≤ s.changes b.messageId
  status : ∀ b ∈ s.broadcasts, b.seen = s.changes b.messageId →
    ∃ m, s.messages b.messageId = some m ∧ m.status = b.status
  ordered : s.broadcasts.Pairwise fun b b' => b.messageId = b'.messageId → b'.seen ≤ b.seen
  apart : ∀ r ∈ s.reading, ∀ d ∈ s.dropped, r.2 ≠ d.2
  /-- who has read a message holds its row -/
  readers : ∀ r ∈ s.reading, s.locks.Owns r.1 (.job r.2 .realtime) ∧ s.queued r.2 .realtime = true

/-- The delivery has read, and announced, the last status change. -/
def Current (s : Fanout) (p : ℕ) (job : DeliveryRow) : Prop := job.kind = .realtime →
  (p, job.messageId) ∈ s.reading ∧ ∃ b ∈ s.broadcasts, b.messageId = job.messageId ∧ b.seen = s.changes job.messageId

structure Holding (s : Fanout) (p : ℕ) (job : DeliveryRow) : Prop where
  owns : s.locks.Owns p (.job job.messageId job.kind)
  queued : s.queued job.messageId job.kind = true

def FanoutCallOk (s : Fanout) (p : ℕ) : FanoutCall → Prop
  | .idle => True
  | .updated id _ => (s.messages id).isSome = true
  | .enqueued id _ none => (p, id) ∈ s.dropped ∧ s.queued id .realtime = true
  | .enqueued id _ (some row) => (s.messages id).isSome = true ∧ s.locks.Owns p (.key id .realtime) ∧
      Fanout.isJob id .realtime row = true ∧ s.queued id .realtime = false
  | .held job | .failed job => Holding s p job
  | .read job m seen => Holding s p job ∧ (job.kind = .realtime → (p, job.messageId) ∈ s.reading ∧
      seen = s.changes job.messageId ∧ ∃ x, m = some x ∧ x.deletedBySender = false ∧
        ∃ y, s.messages job.messageId = some y ∧ y.status = x.status)
  | .delivered job => Holding s p job ∧ Current s p job
  | .deleted job => Holding s p job ∧ Current s p job

/-- What a step of `p` may do to the others. -/
structure Interferes (p : ℕ) (s s' : Fanout) : Prop where
  locks : ∀ q k, q ≠ p → s.locks.Owns q k → s'.locks.Owns q k
  reading : ∀ r ∈ s.reading, r.1 ≠ p → r ∈ s'.reading
  dropped : ∀ d ∈ s.dropped, d.1 ≠ p → d ∈ s'.dropped
  broadcasts : ∀ b ∈ s.broadcasts, b ∈ s'.broadcasts
  stored : ∀ id m, s.messages id = some m →
    ∃ m', s'.messages id = some m' ∧ (s'.changes id = s.changes id → m'.status = m.status)
  /-- a status does not change while somebody has read it -/
  changed : ∀ id, s'.changes id = s.changes id ∨ ∀ r ∈ s.reading, r.2 ≠ id
  queued : ∀ id kind, s.queued id kind = true → s'.queued id kind = true ∨
    s.locks.Owns p (.job id kind) ∧ (kind = .realtime → ∀ d ∈ s.dropped, d.2 ≠ id)
  unqueued : ∀ id, s.queued id .realtime = false →
    s'.queued id .realtime = false ∨ s.locks.Owns p (.key id .realtime) ∨ s.messages id = none

variable {s s' : Fanout} {p q : ℕ} {x y : FanoutCall}

theorem Holding.keep {job : DeliveryRow} (h : Holding s q job) (hq : q ≠ p) (hi : Interferes p s s') :
    Holding s' q job :=
  ⟨hi.locks q _ hq h.owns, (hi.queued _ _ h.queued).resolve_right fun hp => hq (h.owns.unique hp.1)⟩

theorem changes_of_reading {id : ℕ} (h : (q, id) ∈ s.reading) (hi : Interferes p s s') :
    s'.changes id = s.changes id :=
  (hi.changed id).resolve_right fun hnone => hnone _ h rfl

theorem Current.keep {job : DeliveryRow} (h : Current s q job) (hq : q ≠ p) (hi : Interferes p s s') :
    Current s' q job := by
  intro hkind
  obtain ⟨hreading, b, hb, hid, hseen⟩ := h hkind
  exact ⟨hi.reading _ hreading hq, b, hi.broadcasts b hb, hid, by rw [changes_of_reading hreading hi, hseen]⟩

theorem isSome_keep {id : ℕ} (h : (s.messages id).isSome = true) (hi : Interferes p s s') :
    (s'.messages id).isSome = true := by
  obtain ⟨m, hm⟩ := Option.isSome_iff_exists.mp h
  obtain ⟨m', hm', -⟩ := hi.stored id m hm
  rw [hm']
  rfl

theorem FanoutCallOk.keep (h : FanoutCallOk s q x) (hq : q ≠ p) (hi : Interferes p s s') : FanoutCallOk s' q x := by
  cases x with
  | idle => trivial
  | updated id m => exact isSome_keep h hi
  | enqueued id m row =>
    cases row with
    | none =>
      obtain ⟨hdropped, hqueued⟩ := h
      refine ⟨hi.dropped _ hdropped hq, (hi.queued id _ hqueued).resolve_right fun hp => ?_⟩
      exact hp.2 rfl _ hdropped rfl
    | some row =>
      obtain ⟨hsome, howns, hrow, hun⟩ := h
      refine ⟨isSome_keep hsome hi, hi.locks q _ hq howns, hrow, ?_⟩
      rcases hi.unqueued id hun with hstill | hp | hnone
      · exact hstill
      · exact absurd (howns.unique hp) hq
      · rw [hnone] at hsome
        exact absurd hsome Bool.false_ne_true
  | held job => exact Holding.keep h hq hi
  | failed job => exact Holding.keep h hq hi
  | delivered job => exact ⟨h.1.keep hq hi, h.2.keep hq hi⟩
  | deleted job => exact ⟨h.1.keep hq hi, h.2.keep hq hi⟩
  | read job m seen =>
    refine ⟨h.1.keep hq hi, fun hkind => ?_⟩
    obtain ⟨hreading, hseen, x, hx, hlive, y, hy, hstatus⟩ := h.2 hkind
    have hsame := changes_of_reading hreading hi
    obtain ⟨y', hy', hsame'⟩ := hi.stored _ y hy
    exact ⟨hi.reading _ hreading hq, by rw [hsame, hseen], x, hx, hlive, y', hy', (hsame' hsame).trans hstatus⟩

/-! ### Locks, and the end of a transaction -/

theorem lock_some {k : FanoutLock} (h : s.lock p k = some s') :
    (∀ q k', s.locks.Owns q k' → s'.locks.Owns q k') ∧ s'.locks.Owns p k ∧ ∃ locks, s' = { s with locks } := by
  obtain ⟨locks, htake, rfl⟩ := Option.map_eq_some_iff.mp h
  exact ⟨fun q k' hq => (Locks.owns_take htake).mpr (.inl hq), (Locks.owns_take htake).mpr (.inr ⟨rfl, rfl⟩), locks, rfl⟩

theorem FanoutInv.locks (h : FanoutInv s) {locks : Locks FanoutLock} (hl : ∀ q k, s.locks.Owns q k → locks.Owns q k) :
    FanoutInv { s with locks } :=
  ⟨h.fanned, h.seen, h.status, h.ordered, h.apart, fun r hr => (h.readers r hr).imp_left (hl _ _)⟩

theorem interferes_locks {locks : Locks FanoutLock} (h : ∀ q k, q ≠ p → s.locks.Owns q k → locks.Owns q k) :
    Interferes p s { s with locks } :=
  ⟨h, fun _ hr _ => hr, fun _ hd _ => hd, fun _ hb => hb, fun _ m hm => ⟨m, hm, fun _ => rfl⟩, fun _ => .inl rfl,
    fun _ _ hq => .inl hq, fun _ hu => .inl hu⟩

theorem FanoutInv.finish (h : FanoutInv s) (p : ℕ) : FanoutInv (s.finish p) :=
  ⟨h.fanned, h.seen, h.status, h.ordered, fun r hr d hd =>
    h.apart r (List.mem_filter.mp hr).1 d (List.mem_filter.mp hd).1, fun r hr => by
      obtain ⟨hmem, hne⟩ := List.mem_filter.mp hr
      exact (h.readers r hmem).imp_left (Locks.owns_release (of_decide_eq_true hne)).mpr⟩

theorem mem_ended {l : List (ℕ × ℕ)} {r : ℕ × ℕ} (hr : r ∈ l) (hne : r.1 ≠ p) :
    r ∈ l.filter fun r => decide (r.1 ≠ p) := List.mem_filter.mpr ⟨hr, decide_eq_true hne⟩

theorem Interferes.finish (h : Interferes p s s') : Interferes p s (s'.finish p) :=
  ⟨fun q k hq hown => (Locks.owns_release hq).mpr (h.locks q k hq hown),
    fun r hr hne => mem_ended (h.reading r hr hne) hne, fun d hd hne => mem_ended (h.dropped d hd hne) hne,
    h.broadcasts, h.stored, h.changed, h.queued, h.unqueued⟩

theorem Interferes.refl (p : ℕ) (s : Fanout) : Interferes p s s := interferes_locks fun _ _ _ h => h

/-! ### Completions -/

theorem status_resultMessage {c : ClaimedIntent} {result : ProviderSendResult} (m : OutboundMessage)
    (h : announces c result = false) : (resultMessage c result m).status = m.status := by
  cases result with
  | success confirmed providerRequestId externalMessageId externalIdentityScope =>
    simp only [resultMessage, completeMessage]
    cases hop : c.operation with
    | action name =>
      dsimp only
      split_ifs
      · rfl
      · split <;> rfl
      · rfl
    | send | initiate =>
      simp only [announces, hop, Operation.isAction] at h
      exact absurd h (by decide)
  | failure outcome errorCode retryAfterMs providerRequestId =>
    simp only [resultMessage]
    refine congrArg OutboundMessage.status (if_neg fun hperm => ?_)
    rw [announces, hperm.1, hperm.2] at h
    exact absurd h (by decide)

theorem FanoutInv.setMessage {id : ℕ} {m m' : OutboundMessage} (h : FanoutInv s) (hm : s.messages id = some m)
    (hstatus : m'.status = m.status) : FanoutInv (s.setMessage id m') := by
  refine ⟨fun i x hx => ?_, h.seen, fun b hb hseen => ?_, h.ordered, h.apart, h.readers⟩
  · have hx : Function.update s.messages id (some m') i = some x := hx
    by_cases hi : i = id
    · subst hi
      exact h.fanned i m hm
    · rw [Function.update_of_ne hi] at hx
      exact h.fanned i x hx
  · obtain ⟨x, hx, hsame⟩ := h.status b hb hseen
    show ∃ y, Function.update s.messages id (some m') b.messageId = some y ∧ _
    by_cases hi : b.messageId = id
    · rw [hi, Function.update_self]
      rw [hi, hm] at hx
      obtain rfl := Option.some.inj hx
      exact ⟨m', rfl, hstatus.trans hsame⟩
    · rw [Function.update_of_ne hi]
      exact ⟨x, hx, hsame⟩

theorem interferes_setMessage {id : ℕ} {m m' : OutboundMessage} (hm : s.messages id = some m)
    (hstatus : m'.status = m.status) : Interferes p s (s.setMessage id m') := by
  refine ⟨fun _ _ _ h => h, fun _ hr _ => hr, fun _ hd _ => hd, fun _ hb => hb, fun i x hx => ?_, fun _ => .inl rfl,
    fun _ _ hq => .inl hq, fun _ hu => .inl hu⟩
  show ∃ y, Function.update s.messages id (some m') i = some y ∧ _
  by_cases hi : i = id
  · subst hi
    rw [hm] at hx
    obtain rfl := Option.some.inj hx
    exact ⟨m', Function.update_self .., fun _ => hstatus⟩
  · exact ⟨x, by rw [Function.update_of_ne hi, hx], fun _ => rfl⟩

def StepOk (p : ℕ) (s s' : Fanout) (y : FanoutCall) : Prop :=
  FanoutInv s' ∧ FanoutCallOk s' p y ∧ Interferes p s s'

theorem startCompletion_ok {c : ClaimedIntent} {result : ProviderSendResult} (hs : FanoutInv s)
    (h : startCompletion p c result s = some (s', y)) : StepOk p s s' y := by
  obtain ⟨id, -, h⟩ := Option.bind_eq_some_iff.mp h
  obtain ⟨m, hm, h⟩ := Option.bind_eq_some_iff.mp h
  obtain ⟨s₁, hlock, h⟩ := Option.map_eq_some_iff.mp h
  obtain ⟨hkept, -, locks, rfl⟩ := lock_some hlock
  have hlocks : Interferes p s { s with locks } := interferes_locks fun q k _ => hkept q k
  split_ifs at h with hann
  · obtain ⟨rfl, rfl⟩ := Prod.mk.inj h
    refine ⟨hs.locks hkept, ?_, hlocks⟩
    show (s.messages id).isSome = true
    rw [hm]
    rfl
  · obtain ⟨rfl, rfl⟩ := Prod.mk.inj h
    rw [Bool.not_eq_true] at hann
    have hstatus := status_resultMessage m hann
    refine ⟨((hs.locks hkept).setMessage hm hstatus).finish p, trivial, Interferes.finish ?_⟩
    have hi : Interferes p s (s.setMessage id (resultMessage c result m)) := interferes_setMessage hm hstatus
    exact ⟨fun q k _ => hkept q k, hi.reading, hi.dropped, hi.broadcasts, hi.stored, hi.changed, hi.queued, hi.unqueued⟩

theorem enqueue_ok {now id : ℕ} {m : OutboundMessage} (hs : FanoutInv s) (hx : (s.messages id).isSome = true)
    (hC : s.queued id .realtime = true → ∀ r ∈ s.reading, r.2 ≠ id)
    (h : enqueueOutboundRealtimeFanout p now id m s = some (s', y)) : StepOk p s s' y := by
  unfold enqueueOutboundRealtimeFanout at h
  split_ifs at h with hfree hqueued
  · obtain ⟨rfl, rfl⟩ := Prod.mk.inj (Option.some.inj h)
    refine ⟨⟨hs.fanned, hs.seen, hs.status, hs.ordered, fun r hr d hd => ?_, hs.readers⟩,
      ⟨List.mem_cons_self, hqueued⟩,
      ⟨fun _ _ _ h => h, fun _ hr _ => hr, fun _ hd _ => List.mem_cons_of_mem _ hd, fun _ hb => hb,
        fun _ m hm => ⟨m, hm, fun _ => rfl⟩, fun _ => .inl rfl, fun _ _ hq => .inl hq, fun _ hu => .inl hu⟩⟩
    rcases List.mem_cons.mp hd with rfl | hd
    · exact hC hqueued r hr
    · exact hs.apart r hr d hd
  · obtain ⟨s₁, hlock, h⟩ := Option.map_eq_some_iff.mp h
    obtain ⟨hkept, howns, locks, rfl⟩ := lock_some hlock
    obtain ⟨rfl, rfl⟩ := Prod.mk.inj h
    refine ⟨hs.locks hkept, ⟨hx, howns, ?_, Bool.eq_false_iff.mpr hqueued⟩, interferes_locks fun q k _ => hkept q k⟩
    rw [Fanout.isJob, decide_eq_true rfl, decide_eq_true rfl]
    rfl

theorem queued_append {l : List DeliveryRow} {id : ℕ} {kind : DeliveryKind} :
    ({ s with outbox := s.outbox ++ l } : Fanout).queued id kind =
      (s.queued id kind || l.any (Fanout.isJob id kind)) := List.any_append

theorem isJob_iff {id : ℕ} {kind : DeliveryKind} {r : DeliveryRow} :
    Fanout.isJob id kind r = true ↔ r.messageId = id ∧ r.kind = kind := by
  rw [Fanout.isJob, Bool.and_eq_true, decide_eq_true_eq, decide_eq_true_eq]

theorem commitCompletion_ok {id : ℕ} {m : OutboundMessage} {row : Option DeliveryRow} (hs : FanoutInv s)
    (hx : FanoutCallOk s p (.enqueued id m row)) : StepOk p s (commitCompletion p id m row s) .idle := by
  have hqueued : (s.queued id .realtime || row.toList.any (Fanout.isJob id .realtime)) = true := by
    cases row with
    | none => rw [hx.2, Bool.true_or]
    | some row =>
      show (_ || (Fanout.isJob id .realtime row || false)) = true
      rw [hx.2.2.1, Bool.true_or, Bool.or_true]
  -- whoever has read the message holds its row: then this insert has been dropped, which is excluded
  have hreading : ∀ r ∈ s.reading, r.2 ≠ id := by
    intro r hr hid
    cases row with
    | none => exact hs.apart r hr _ hx.1 hid
    | some row =>
      have hq := (hs.readers r hr).2
      rw [hid, hx.2.2.2] at hq
      exact absurd hq Bool.false_ne_true
  have hother : ∀ i, i ≠ id → (commitCompletion p id m row s).messages i = s.messages i ∧
      (commitCompletion p id m row s).changes i = s.changes i := fun i hi =>
    ⟨Function.update_of_ne hi _ _, Function.update_of_ne hi _ _⟩
  have hself : (commitCompletion p id m row s).messages id = some m ∧
      (commitCompletion p id m row s).changes id = s.changes id + 1 :=
    ⟨Function.update_self .., Function.update_self ..⟩
  have hstays : ∀ i kind, s.queued i kind = true → (commitCompletion p id m row s).queued i kind = true := by
    intro i kind hq
    show ({ s with outbox := s.outbox ++ row.toList } : Fanout).queued i kind = true
    rw [queued_append, hq, Bool.true_or]
  have hinv : FanoutInv ({ s.change id m with outbox := s.outbox ++ row.toList }) := by
    refine ⟨fun i x hx => ?_, fun b hb => ?_, fun b hb hseen => ?_, hs.ordered, hs.apart, fun r hr => ?_⟩
    · by_cases hi : i = id
      · subst hi
        exact .inl (queued_append.trans hqueued)
      · have hmsg : s.messages i = some x := (hother i hi).1 ▸ hx
        refine (hs.fanned i x hmsg).imp (hstays i .realtime) ?_
        rintro ⟨b, hb, hbid, hle⟩
        exact ⟨b, hb, hbid, (hother i hi).2.trans_le hle⟩
    · have hle := hs.seen b hb
      by_cases hi : b.messageId = id
      · rw [hi] at hle ⊢
        exact (Nat.le_succ_of_le hle).trans hself.2.ge
      · exact hle.trans (hother _ hi).2.ge
    · by_cases hi : b.messageId = id
      · have hle := hs.seen b hb
        have hseen : b.seen = (commitCompletion p id m row s).changes b.messageId := hseen
        rw [hi, hself.2] at hseen
        rw [hi] at hle
        omega
      · obtain ⟨x, hx, hstatus⟩ := hs.status b hb (hseen.trans (hother _ hi).2)
        exact ⟨x, (hother _ hi).1.trans hx, hstatus⟩
    · exact (hs.readers r hr).imp_right (hstays _ _)
  refine ⟨hinv.finish p, trivial, Interferes.finish ⟨fun _ _ _ h => h, fun _ hr _ => hr, fun _ hd _ => hd,
    fun _ hb => hb, fun i x hx => ?_, fun i => ?_, fun i kind hq => .inl (hstays i kind hq), fun i hu => ?_⟩⟩
  · by_cases hi : i = id
    · subst hi
      refine ⟨m, hself.1, fun hsame => ?_⟩
      have hsame : (commitCompletion p i m row s).changes i = s.changes i := hsame
      rw [hself.2] at hsame
      omega
    · exact ⟨x, (hother i hi).1.trans hx, fun _ => rfl⟩
  · by_cases hi : i = id
    · exact .inr (hi ▸ hreading)
    · exact .inl (hother i hi).2
  · by_cases hi : i = id
    · subst hi
      cases row with
      | none => exact absurd (hu.symm.trans hx.2) Bool.false_ne_true
      | some row => exact .inr (.inl hx.2.1)
    · refine .inl ?_
      rw [← hu]
      refine queued_append.trans ?_
      have hnone : row.toList.any (Fanout.isJob i .realtime) = false := by
        cases row with
        | none => rfl
        | some row =>
          rw [Bool.eq_false_iff]
          intro hany
          have hjob : Fanout.isJob i .realtime row = true := by simpa using hany
          exact hi ((isJob_iff.mp hjob).1.symm.trans (isJob_iff.mp hx.2.2.1).1)
      rw [hnone, Bool.or_false]
      rfl

/-! ### Deliveries -/

theorem queued_of_mem {job : DeliveryRow} (h : job ∈ s.outbox) : s.queued job.messageId job.kind = true :=
  List.any_eq_true.mpr ⟨job, h, isJob_iff.mpr ⟨rfl, rfl⟩⟩

theorem claimJob_ok {now : ℕ} {kind : Option DeliveryKind} {job : DeliveryRow} (hs : FanoutInv s)
    (hnext : s.isNext p now kind job = true) (hlock : s.lock p (.job job.messageId job.kind) = some s') :
    StepOk p s s' (.held job) := by
  obtain ⟨hkept, howns, locks, rfl⟩ := lock_some hlock
  refine ⟨hs.locks hkept, ⟨howns, queued_of_mem ?_⟩, interferes_locks fun q k _ => hkept q k⟩
  simp only [Fanout.isNext, Bool.and_eq_true] at hnext
  exact List.contains_iff_mem.mp hnext.1.1

theorem readMessage_ok {job : DeliveryRow} (hs : FanoutInv s) (hx : Holding s p job)
    (hC : job.kind = .realtime → (∀ d ∈ s.dropped, d.2 ≠ job.messageId) ∧
      (s.messages job.messageId).any (fun m => !m.deletedBySender) = true) :
    StepOk p s (readMessage p job s).1 (readMessage p job s).2 := by
  by_cases hkind : job.kind = .realtime
  · obtain ⟨hfree, hlive⟩ := hC hkind
    obtain ⟨m, hm, hlive⟩ := (Option.any_eq_true _ _).mp hlive
    rw [Bool.not_eq_true'] at hlive
    have hreading : (readMessage p job s).1.reading = (p, job.messageId) :: s.reading := if_pos hkind
    refine ⟨⟨hs.fanned, hs.seen, hs.status, hs.ordered, fun r hr d hd => ?_, fun r hr => ?_⟩,
      ⟨⟨hx.owns, hx.queued⟩, fun _ => ⟨?_, rfl, m, hm, hlive, m, hm, rfl⟩⟩,
      ⟨fun _ _ _ h => h, fun r hr _ => ?_, fun _ hd _ => hd, fun _ hb => hb, fun _ m hm => ⟨m, hm, fun _ => rfl⟩,
        fun _ => .inl rfl, fun _ _ hq => .inl hq, fun _ hu => .inl hu⟩⟩
    · rw [hreading] at hr
      rcases List.mem_cons.mp hr with rfl | hr
      · exact (hfree d hd).symm
      · exact hs.apart r hr d hd
    · rw [hreading] at hr
      rcases List.mem_cons.mp hr with rfl | hr
      · exact ⟨hkind ▸ hx.owns, hkind ▸ hx.queued⟩
      · exact hs.readers r hr
    · rw [hreading]
      exact List.mem_cons_self
    · rw [hreading]
      exact List.mem_cons_of_mem _ hr
  · have hsame : (readMessage p job s).1 = s := by
      show ({ s with reading := if job.kind = .realtime then _ else s.reading } : Fanout) = s
      rw [if_neg hkind]
    rw [hsame]
    exact ⟨hs, ⟨hx, fun h => absurd h hkind⟩, .refl p s⟩

theorem FanoutInv.broadcast (hs : FanoutInv s) {b : Announcement} (hseen : b.seen = s.changes b.messageId)
    (hstatus : ∃ m, s.messages b.messageId = some m ∧ m.status = b.status) :
    FanoutInv { s with broadcasts := b :: s.broadcasts } := by
  refine ⟨fun i m hm => (hs.fanned i m hm).imp_right ?_, fun b' hb' => ?_, fun b' hb' hcur => ?_, ?_, hs.apart,
    hs.readers⟩
  · rintro ⟨b', hb', h⟩
    exact ⟨b', List.mem_cons_of_mem _ hb', h⟩
  · rcases List.mem_cons.mp hb' with rfl | hb'
    · exact hseen.le
    · exact hs.seen b' hb'
  · rcases List.mem_cons.mp hb' with rfl | hb'
    · exact hstatus
    · exact hs.status b' hb' hcur
  · refine List.pairwise_cons.mpr ⟨fun b' hb' hid => ?_, hs.ordered⟩
    rw [hseen, hid]
    exact hs.seen b' hb'

theorem deliver_ok {job : DeliveryRow} {m : Option OutboundMessage} {seen : ℕ} (hs : FanoutInv s)
    (hx : FanoutCallOk s p (.read job m seen)) : StepOk p s (announce job m seen s) (.delivered job) := by
  obtain ⟨hhold, hread⟩ := hx
  by_cases hkind : job.kind = .realtime
  · obtain ⟨hreading, rfl, x, rfl, hlive, y, hy, hstatus⟩ := hread hkind
    have hnew : announce job (some x) (s.changes job.messageId) s = { s with
        broadcasts := ⟨job.messageId, x.status, s.changes job.messageId⟩ :: s.broadcasts } := by
      show (if x.deletedBySender = true then s else _) = _
      rw [hlive, if_neg Bool.false_ne_true, if_pos hkind]
    rw [hnew]
    refine ⟨hs.broadcast rfl ⟨y, hy, hstatus⟩, ⟨⟨hhold.owns, hhold.queued⟩, fun _ =>
      ⟨hreading, _, List.mem_cons_self, rfl, rfl⟩⟩, ?_⟩
    exact ⟨fun _ _ _ h => h, fun _ hr _ => hr, fun _ hd _ => hd, fun _ hb => List.mem_cons_of_mem _ hb,
      fun _ m hm => ⟨m, hm, fun _ => rfl⟩, fun _ => .inl rfl, fun _ _ hq => .inl hq, fun _ hu => .inl hu⟩
  · have hsame : announce job m seen s = s := by
      unfold announce
      split
      · rfl
      · split_ifs <;> rfl
    rw [hsame]
    exact ⟨hs, ⟨hhold, fun h => absurd h hkind⟩, .refl p s⟩

theorem throw_ok {job : DeliveryRow} (hs : FanoutInv s) (hx : Holding s p job) :
    StepOk p s (s.stopReading p) (.failed job) :=
  ⟨⟨hs.fanned, hs.seen, hs.status, hs.ordered, fun r hr => hs.apart r (List.mem_filter.mp hr).1,
    fun r hr => hs.readers r (List.mem_filter.mp hr).1⟩, ⟨hx.owns, hx.queued⟩,
    ⟨fun _ _ _ h => h, fun _ hr hne => mem_ended hr hne, fun _ hd _ => hd, fun _ hb => hb,
      fun _ m hm => ⟨m, hm, fun _ => rfl⟩, fun _ => .inl rfl, fun _ _ hq => .inl hq, fun _ hu => .inl hu⟩⟩

theorem delete_ok {job : DeliveryRow} {k : FanoutLock} (hs : FanoutInv s) (hx : FanoutCallOk s p (.delivered job))
    (hlock : s.lock p k = some s') : StepOk p s s' (.deleted job) := by
  obtain ⟨hkept, -, locks, rfl⟩ := lock_some hlock
  exact ⟨hs.locks hkept, ⟨⟨hkept _ _ hx.1.owns, hx.1.queued⟩, hx.2⟩, interferes_locks fun q k _ => hkept q k⟩

theorem queued_delete {job : DeliveryRow} {id : ℕ} {kind : DeliveryKind} (hne : ¬ (job.messageId = id ∧ job.kind = kind)) :
    ({ s with outbox := s.outbox.filter fun r => !Fanout.isJob job.messageId job.kind r } : Fanout).queued id kind =
      s.queued id kind := by
  rw [Bool.eq_iff_iff]
  constructor
  · intro h
    obtain ⟨r, hr, hjob⟩ := List.any_eq_true.mp h
    exact List.any_eq_true.mpr ⟨r, (List.mem_filter.mp hr).1, hjob⟩
  · intro h
    obtain ⟨r, hr, hjob⟩ := List.any_eq_true.mp h
    refine List.any_eq_true.mpr ⟨r, List.mem_filter.mpr ⟨hr, ?_⟩, hjob⟩
    rw [Bool.not_eq_true', Bool.eq_false_iff]
    intro hdel
    obtain ⟨hid, hkind⟩ := isJob_iff.mp hjob
    obtain ⟨hid', hkind'⟩ := isJob_iff.mp hdel
    exact hne ⟨hid'.symm.trans hid, hkind'.symm.trans hkind⟩

theorem commitDelete_ok {job : DeliveryRow} (hs : FanoutInv s) (hx : FanoutCallOk s p (.deleted job)) :
    StepOk p s (commitDelete p job s) .idle := by
  obtain ⟨hhold, hcurrent⟩ := hx
  have hkeeps : ∀ id kind, s.queued id kind = true → (commitDelete p job s).queued id kind = true ∨
      job.messageId = id ∧ job.kind = kind := by
    intro id kind hq
    by_cases hne : job.messageId = id ∧ job.kind = kind
    · exact .inr hne
    · exact .inl ((queued_delete hne).trans hq)
  have hgone : ∀ id kind, s.queued id kind = false → (commitDelete p job s).queued id kind = false := by
    intro id kind hq
    rw [Bool.eq_false_iff] at hq ⊢
    intro h
    obtain ⟨r, hr, hjob⟩ := List.any_eq_true.mp h
    exact hq (List.any_eq_true.mpr ⟨r, (List.mem_filter.mp hr).1, hjob⟩)
  refine ⟨⟨fun id m hm => ?_, hs.seen, hs.status, hs.ordered, fun r hr d hd => ?_, fun r hr => ?_⟩, trivial,
    Interferes.finish ⟨fun _ _ _ h => h, fun _ hr _ => hr, fun _ hd _ => hd, fun _ hb => hb,
      fun _ m hm => ⟨m, hm, fun _ => rfl⟩, fun _ => .inl rfl, fun id kind hq => ?_, fun id hu => .inl (hgone id _ hu)⟩⟩
  · rcases hs.fanned id m hm with hq | hb
    · rcases hkeeps id _ hq with hstill | ⟨rfl, hkind⟩
      · exact .inl hstill
      · -- the row that goes has been announced as it stands
        obtain ⟨-, b, hb, hid, hseen⟩ := hcurrent hkind
        exact .inr ⟨b, hb, hid, hseen.ge⟩
    · exact .inr hb
  · exact hs.apart r (List.mem_filter.mp hr).1 d (List.mem_filter.mp hd).1
  · obtain ⟨hmem, hne⟩ := List.mem_filter.mp hr
    obtain ⟨howns, hq⟩ := hs.readers r hmem
    refine ⟨(Locks.owns_release (of_decide_eq_true hne)).mpr howns, (hkeeps _ _ hq).resolve_right ?_⟩
    rintro ⟨hid, hkind⟩
    exact of_decide_eq_true hne (howns.unique (hid ▸ hkind ▸ hhold.owns))
  · refine (hkeeps id kind hq).imp_right ?_
    rintro ⟨rfl, rfl⟩
    exact ⟨hhold.owns, fun hkind d hd => (hs.apart _ (hcurrent hkind).1 d hd).symm⟩

theorem queued_retry {now id id' : ℕ} {kind kind' : DeliveryKind} :
    ({ s with outbox := s.outbox.map (Fanout.retry now id' kind') } : Fanout).queued id kind = s.queued id kind := by
  show (s.outbox.map _).any _ = s.outbox.any _
  rw [List.any_map]
  congr 1
  funext r
  show Fanout.isJob id kind (Fanout.retry now id' kind' r) = _
  unfold Fanout.retry
  split_ifs <;> rfl

theorem commitRetry_ok {now : ℕ} {job : DeliveryRow} (hs : FanoutInv s) :
    StepOk p s (commitRetry p now job s) .idle := by
  have hq : ∀ id kind, (commitRetry p now job s).queued id kind = s.queued id kind := fun id kind => queued_retry
  have hinv : FanoutInv { s with outbox := s.outbox.map (Fanout.retry now job.messageId job.kind) } :=
    ⟨fun id m hm => (hs.fanned id m hm).imp_left fun h => (hq id _).trans h, hs.seen, hs.status, hs.ordered, hs.apart,
      fun r hr => (hs.readers r hr).imp_right fun h => (hq _ _).trans h⟩
  exact ⟨hinv.finish p, trivial, Interferes.finish ⟨fun _ _ _ h => h, fun _ hr _ => hr, fun _ hd _ => hd, fun _ hb => hb,
    fun _ m hm => ⟨m, hm, fun _ => rfl⟩, fun _ => .inl rfl, fun id kind h => .inl ((hq id kind).trans h),
    fun id h => .inl ((hq id _).trans h)⟩⟩

/-! ### Steps and runs -/

theorem fanoutAct_ok {a : FanoutAction} (hs : FanoutInv s) (hx : FanoutCallOk s p x) (hC : FanoutOk s x a)
    (h : fanoutAct p s x a = some (s', y)) : StepOk p s s' y := by
  cases x <;> cases a <;> simp only [fanoutAct, reduceCtorEq, Option.some.injEq] at h
  case idle.complete c result => exact startCompletion_ok hs h
  case idle.claimJob now kind job =>
    split_ifs at h with hnext
    obtain ⟨s₁, hlock, heq⟩ := Option.map_eq_some_iff.mp h
    obtain ⟨rfl, rfl⟩ := Prod.mk.inj heq
    exact claimJob_ok hs hnext hlock
  case updated.enqueue id m now => exact enqueue_ok hs hx hC h
  case enqueued.commit id m row now =>
    obtain ⟨rfl, rfl⟩ := Prod.mk.inj h
    exact commitCompletion_ok hs hx
  case held.readMessage job =>
    obtain ⟨rfl, rfl⟩ := Prod.mk.inj h
    exact readMessage_ok hs hx hC
  case held.throw job =>
    obtain ⟨rfl, rfl⟩ := Prod.mk.inj h
    exact throw_ok hs hx
  case read.deliver job m seen =>
    obtain ⟨rfl, rfl⟩ := Prod.mk.inj h
    exact deliver_ok hs hx
  case read.throw job m seen =>
    obtain ⟨rfl, rfl⟩ := Prod.mk.inj h
    exact throw_ok hs hx.1
  case delivered.delete job =>
    obtain ⟨s₁, hlock, heq⟩ := Option.map_eq_some_iff.mp h
    obtain ⟨rfl, rfl⟩ := Prod.mk.inj heq
    exact delete_ok hs hx hlock
  case deleted.commit job now =>
    obtain ⟨rfl, rfl⟩ := Prod.mk.inj h
    exact commitDelete_ok hs hx
  case failed.commit job now =>
    obtain ⟨rfl, rfl⟩ := Prod.mk.inj h
    exact commitRetry_ok hs
  all_goals
    obtain ⟨rfl, rfl⟩ := Prod.mk.inj h
    exact ⟨hs.finish p, trivial, (Interferes.refl p s).finish⟩

theorem messageId_of_fanout {e : StoredMessage} {r : DeliveryRow} (h : r ∈ e.fanout) : r.messageId = e.id := by
  rcases List.mem_cons.mp h with rfl | h
  · rfl
  · split_ifs at h
    · rw [List.mem_singleton.mp h]
    · exact absurd h List.not_mem_nil

theorem storeWithFanout_ok {e : StoredMessage} (hs : FanoutInv s) (h : storeWithFanout e s = some s') :
    FanoutInv s' ∧ ∀ p, Interferes p s s' := by
  unfold storeWithFanout at h
  split_ifs at h with hnew
  obtain rfl := Option.some.inj h
  have hmsg : ∀ i, i ≠ e.id → (s.setMessage e.id e.message).messages i = s.messages i := fun i hi =>
    Function.update_of_ne hi _ _
  have hne : ∀ i m, s.messages i = some m → i ≠ e.id := by
    rintro i m hm rfl
    rw [hnew] at hm
    exact absurd hm.symm (Option.some_ne_none m)
  constructor
  · refine ⟨fun i m hm => ?_, hs.seen, fun b hb hcur => ?_, hs.ordered, hs.apart, fun r hr => ?_⟩
    · by_cases hi : i = e.id
      · refine .inl (queued_append.trans ?_)
        have hself : e.fanout.any (Fanout.isJob e.id .realtime) = true :=
          List.any_eq_true.mpr ⟨_, List.mem_cons_self, isJob_iff.mpr ⟨rfl, rfl⟩⟩
        rw [hi, hself, Bool.or_true]
      · refine (hs.fanned i m ((hmsg i hi) ▸ hm)).imp_left fun hq => queued_append.trans ?_
        have hq : (s.setMessage e.id e.message).queued i .realtime = true := hq
        rw [hq, Bool.true_or]
    · obtain ⟨m, hm, hstatus⟩ := hs.status b hb hcur
      exact ⟨m, (hmsg _ (hne _ m hm)).trans hm, hstatus⟩
    · refine (hs.readers r hr).imp_right fun hq => queued_append.trans ?_
      have hq : (s.setMessage e.id e.message).queued r.2 .realtime = true := hq
      rw [hq, Bool.true_or]
  · intro p
    refine ⟨fun _ _ _ h => h, fun _ hr _ => hr, fun _ hd _ => hd, fun _ hb => hb, fun i m hm =>
      ⟨m, (hmsg i (hne i m hm)).trans hm, fun _ => rfl⟩, fun _ => .inl rfl, fun i kind hq => .inl ?_, fun i hu => ?_⟩
    · refine queued_append.trans ?_
      have hq : (s.setMessage e.id e.message).queued i kind = true := hq
      rw [hq, Bool.true_or]
    · by_cases hi : i = e.id
      · exact .inr (.inr (hi ▸ hnew))
      · refine .inl (queued_append.trans ?_)
        have hu : (s.setMessage e.id e.message).queued i .realtime = false := hu
        rw [hu, Bool.false_or, Bool.eq_false_iff]
        intro hany
        obtain ⟨r, hr, hjob⟩ := List.any_eq_true.mp hany
        exact hi ((isJob_iff.mp hjob).1.symm.trans (messageId_of_fanout hr))

theorem FanoutInv.fannedLast (hs : FanoutInv s) : Fanned s := by
  intro id m hm
  refine ⟨hs.fanned id m hm, fun hq => ?_⟩
  obtain ⟨b, hb, hid, hle⟩ := (hs.fanned id m hm).resolve_left (Bool.eq_false_iff.mp hq)
  cases hfind : s.broadcasts.find? (fun b => decide (b.messageId = id)) with
  | none => exact absurd (decide_eq_true hid) (List.find?_eq_none.mp hfind b hb)
  | some b₀ =>
    obtain ⟨hid₀, l₁, l₂, hsplit, hnone⟩ := List.find?_eq_some_iff_append.mp hfind
    have hid₀ : b₀.messageId = id := of_decide_eq_true hid₀
    have hmem₀ : b₀ ∈ s.broadcasts := List.mem_of_find?_eq_some hfind
    -- the newest has seen at least as much as any other
    have hnewest : b.seen ≤ b₀.seen := by
      rw [hsplit] at hb
      rcases List.mem_append.mp hb with hb₁ | hb₂
      · have hno := hnone b hb₁
        rw [decide_eq_true hid] at hno
        exact absurd hno (by decide)
      · rcases List.mem_cons.mp hb₂ with rfl | hb₂
        · exact le_rfl
        · have hord := hs.ordered
          rw [hsplit] at hord
          exact (List.pairwise_cons.mp (List.pairwise_append.mp hord).2.1).1 b hb₂ (hid₀.trans hid.symm)
    have hcur : b₀.seen = s.changes b₀.messageId :=
      le_antisymm (hs.seen b₀ hmem₀) (by rw [hid₀]; exact hle.trans hnewest)
    obtain ⟨m', hm', hstatus⟩ := hs.status b₀ hmem₀ hcur
    rw [hid₀, hm] at hm'
    obtain rfl := Option.some.inj hm'
    exact ⟨b₀, rfl, hstatus.symm⟩

theorem fanoutInv_empty : FanoutInv .empty :=
  ⟨fun _ _ h => absurd h.symm (Option.some_ne_none _), fun _ h => absurd h List.not_mem_nil,
    fun _ h => absurd h List.not_mem_nil, List.Pairwise.nil, fun _ h => absurd h List.not_mem_nil,
    fun _ h => absurd h List.not_mem_nil⟩

def fanoutStart : Calls Fanout FanoutCall := Calls.start .empty .idle

/-- **No status change is lost** as long as every insert is in time. -/
theorem status_changes_announced (as : List (CallAction FanoutAction StoredMessage))
    (h : Meets fanoutSystem.step InTime fanoutStart as) :
    Always fanoutSystem.step (fun t => Fanned t.shared) fanoutStart as := by
  have hstart : Holds FanoutInv FanoutCallOk fanoutStart := holds_start fanoutInv_empty fun _ => trivial
  have hrun : Always fanoutSystem.step (Holds FanoutInv FanoutCallOk) fanoutStart as := by
    refine always_of_meets (C := InTime) (Machine.holds_step ?_ ?_) hstart h
    · intro t p a s' y ht hC hact
      obtain ⟨hs', hy, hi⟩ := fanoutAct_ok ht.1 (ht.2 p) hC hact
      exact ⟨hs', hy, fun q hq => (ht.2 q).keep hq hi⟩
    · intro t e s' ht _ henv
      obtain ⟨hs', hi⟩ := storeWithFanout_ok ht.1 henv
      exact ⟨hs', fun q => (ht.2 q).keep (Nat.ne_of_lt (Nat.lt_succ_self q)) (hi (q + 1))⟩
  exact hrun.mono fun t ht => FanoutInv.fannedLast ht.1

instance (s : Fanout) : (x : FanoutCall) → (a : FanoutAction) → Decidable (FanoutOk s x a)
  | .updated id _, .enqueue _ =>
    inferInstanceAs (Decidable (s.queued id .realtime = true → ∀ r ∈ s.reading, r.2 ≠ id))
  | .held job, .readMessage => inferInstanceAs (Decidable (job.kind = .realtime →
      (∀ d ∈ s.dropped, d.2 ≠ job.messageId) ∧ (s.messages job.messageId).any (fun m => !m.deletedBySender) = true))
  | .updated _ _, .complete _ _ | .updated _ _, .claimJob _ _ _ | .updated _ _, .readMessage | .updated _ _, .deliver
  | .updated _ _, .throw | .updated _ _, .delete | .updated _ _, .commit _ | .updated _ _, .rollback
  | .held _, .complete _ _ | .held _, .enqueue _ | .held _, .claimJob _ _ _ | .held _, .deliver | .held _, .throw
  | .held _, .delete | .held _, .commit _ | .held _, .rollback
  | .idle, _ | .enqueued _ _ _, _ | .read _ _ _, _ | .delivered _, _ | .failed _, _ | .deleted _, _ => .isTrue trivial

instance (t : Calls Fanout FanoutCall) : (a : CallAction FanoutAction StoredMessage) → Decidable (InTime t a)
  | .act p a => inferInstanceAs (Decidable (FanoutOk t.shared (t.calls p) a))
  | .env _ => .isTrue trivial

/-! ### A send that is confirmed while it is announced -/

def confirmedSend : FanoutAction :=
  .complete ⟨"intent", 1, 1, some 1, .send, .empty⟩ (.success true none (some "external") none)

def storedSend : CallAction FanoutAction StoredMessage :=
  .env ⟨1, ⟨1, .pending, none, none, none, none, none, "hello", false⟩, false, 0⟩

def queuedJob : DeliveryRow := ⟨1, .realtime, 0, 0, 0⟩

/-- The completion of `p`. -/
def completion (p : ℕ) : List (CallAction FanoutAction StoredMessage) :=
  [.act p confirmedSend, .act p (.enqueue 1), .act p (.commit 1)]

/-- The rest of a delivery that has locked its row. -/
def announcing (p : ℕ) : List (CallAction FanoutAction StoredMessage) :=
  [.act p .deliver, .act p .delete, .act p (.commit 2)]

/-- The row is still queued when the send is confirmed, and delivered afterwards. -/
theorem status_changes_announced_queued : Always fanoutSystem.step (fun t => Fanned t.shared) fanoutStart
    (storedSend :: completion 0 ++ [.act 1 (.claimJob 1 none queuedJob), .act 1 .readMessage] ++ announcing 1) :=
  status_changes_announced _ (meets_of_check (by decide +kernel))

/-- The delivery has read the message before the send is confirmed, and deletes the row afterwards. -/
theorem confirmation_not_announced :
    ¬ ∀ as, Always fanoutSystem.step (fun t => Fanned t.shared) fanoutStart as := by
  intro hall
  have hrun : (runActions fanoutSystem.step fanoutStart
      (storedSend :: [.act 1 (.claimJob 1 none queuedJob), .act 1 .readMessage] ++ completion 0 ++ announcing 1)).any
      (fun t => ((t.shared.messages 1).any fun m => decide (m.status = .sent)) && !t.shared.queued 1 .realtime &&
        decide (t.shared.changes 1 = 1) && t.shared.broadcasts.all fun b => decide (b.seen = 0)) = true := by
    decide +kernel
  obtain ⟨t, ht, hbad⟩ := (Option.any_eq_true _ _).mp hrun
  simp only [Bool.and_eq_true, Bool.not_eq_true', decide_eq_true_eq, List.all_eq_true] at hbad
  obtain ⟨⟨⟨hmsg, hqueued⟩, hchanges⟩, hbroadcasts⟩ := hbad
  obtain ⟨m, hm, -⟩ := (Option.any_eq_true _ _).mp hmsg
  have hfanned := always_iff_reached.mp (hall _) _ [] t (List.append_nil _).symm ht 1 m hm
  obtain ⟨b, hb, -, hle⟩ := hfanned.1.resolve_left (Bool.eq_false_iff.mp hqueued)
  rw [hchanges, hbroadcasts b hb] at hle
  exact absurd hle (by decide)

end TeamInbox.Channels
