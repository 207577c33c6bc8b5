import TeamInbox.Broadcast.Lifecycle

/-!
# TeamInbox.Broadcast.Purge — what a purge has counted is what it deletes

Between the count of a purge and its commit the contacts of the connection are locked: nothing is sent to
them, none of them leaves the connection and none comes to it.  So the leaves it will delete are the leaves it
has counted, each `sent` now if and only if it was then (`PurgeInv.counted`) — unless a broadcast to one of
the contacts is created in between (`NoLateLeaf`).
-/

namespace TeamInbox.Broadcast

open Lib Tenant

/-- No broadcast to a contact of a purge is created between the purge's count and its delete. -/
def NoLateLeaf (s : Tenant) : ScheduledAction → Prop
  | .createJob _ _ _ recipients => ∀ q connectionId contactRows counted,
    s.processes q = .purgeCounted connectionId contactRows counted →
      ∀ recipient ∈ recipients, recipient.contactId ∉ s.contactsOf connectionId
  | _ => True

namespace ScheduledMessage

/-- What the counters make of a leaf, as far as `sent` goes. -/
def purgeKey (r : ScheduledMessage) : Option ℕ × Bool := (r.bulkJobId, decide (r.status = .sent))

end ScheduledMessage

section Steps

variable {cfg : BulkConfig} {s s' : Tenant} {a : ScheduledAction}

theorem routed_iff {connectionId : ℕ} {r : ScheduledMessage} :
    s.routed connectionId r = true ↔ ∃ c, r.contactId = some c ∧ c ∈ s.contactsOf connectionId := by
  unfold routed
  cases hc : r.contactId with
  | none => simp
  | some c =>
    simp only [Option.any_some, Option.some.injEq, mem_contactsOf, exists_eq_left']
    cases hfind : s.contacts.find? c with
    | none => simp
    | some contact => simp

theorem routed_congr {connectionId : ℕ} {r r' : ScheduledMessage} (h : r'.contactId = r.contactId) :
    s.routed connectionId r' = s.routed connectionId r := by
  unfold routed
  rw [h]

theorem contactsOf_step (h : Wf s) (hstep : scheduledStep cfg s a = some s') {p connectionId : ℕ}
    {contactRows : List ℕ} (hp : (s.processes p).purges = some (connectionId, contactRows))
    (hbusy : s'.processes p ≠ .idle) (c : ℕ) : c ∈ s'.contactsOf connectionId ↔ c ∈ s.contactsOf connectionId := by
  obtain ⟨hconn, hcontacts⟩ := h.purge_locks hp
  rcases contacts_step hstep c with heq | ⟨-, hfree, hlink⟩ | ⟨q, connectionId', rows', _, _, rfl, hq, hmem, hnone⟩
  · rw [mem_contactsOf, mem_contactsOf, heq]
  · constructor
    · intro hc
      obtain ⟨contact, hfind, hto⟩ := mem_contactsOf.mp hc
      have hopen := hlink contact connectionId hfind hto
      rw [hconn] at hopen
      contradiction
    · intro hc
      rw [hcontacts c hc] at hfree
      contradiction
  · constructor
    · intro hc
      obtain ⟨contact, hfind, -⟩ := mem_contactsOf.mp hc
      rw [hnone] at hfind
      contradiction
    · -- the contact would be on both connections
      intro hc
      obtain ⟨contact, hfind, hto⟩ := mem_contactsOf.mp hc
      obtain ⟨contact', hfind', hto'⟩ := mem_contactsOf.mp hmem
      obtain rfl := Option.some.inj (hfind.symm.trans hfind')
      obtain rfl := Option.some.inj (hto.symm.trans hto')
      have hlock := h.locks p _ (Process.purges_locks hp).1
      have hpurges : (s.processes q).purges = some (connectionId, rows') := by
        rw [hq]
        rfl
      have hlock' := h.locks q _ (Process.purges_locks hpurges).1
      obtain rfl := h.exclusive _ p q hlock hlock'
      simp only [scheduledStep, hq] at hstep
      obtain rfl := Option.some.inj hstep
      exact absurd (Function.update_self _ _ _) hbusy

theorem routed_step (h : Wf s) (hstep : scheduledStep cfg s a = some s') {p connectionId : ℕ}
    {contactRows : List ℕ} (hp : (s.processes p).purges = some (connectionId, contactRows))
    (hbusy : s'.processes p ≠ .idle) (r : ScheduledMessage) :
    s'.routed connectionId r = s.routed connectionId r := by
  rw [Bool.eq_iff_iff, routed_iff, routed_iff]
  simp only [contactsOf_step h hstep hp hbusy]

theorem RowMove.purgeKey_eq (h : JobInv s) {r r' : ScheduledMessage} (hr : r ∈ s.rows) (hmove : RowMove s a r r')
    (hheld : ∃ c, r.contactId = some c ∧ s.unlocked (.contact c) = false) : r'.purgeKey = r.purgeKey := by
  have hkey : (r'.status = .sent ↔ r.status = .sent) → r'.purgeKey = r.purgeKey := by
    intro hiff
    simp only [ScheduledMessage.purgeKey, hmove.id_eq.2.1, hiff]
  have hunsent : ∀ {status : ScheduledMessageStatus}, r.status = status → status ≠ .sent → r'.status ≠ .sent →
      r'.purgeKey = r.purgeKey := by
    intro status hstatus hne hne'
    exact hkey ⟨fun hs => absurd hs hne', fun hs => absurd (hstatus.symm.trans hs) hne⟩
  have hopen : r.status.isOpen = true → r'.status ≠ .sent → r'.purgeKey = r.purgeKey := by
    intro hopen hne'
    rcases isOpen_iff.mp hopen with hs | hs
    · exact hunsent hs (by decide) hne'
    · exact hunsent hs (by decide) hne'
  cases hmove with
  | same | rescheduled => rfl
  | claimed _ _ ho => exact hopen ho fun h => by cases h
  | sent _ hp hc _ hreach =>
    obtain ⟨c, hcontact, hlocked⟩ := hheld
    rw [(h.wf.held _ _ _ _ _ hp _ List.mem_cons_self r hr (carries_id hc).1).2] at hcontact
    simp only [reachable, hcontact, Option.all_some, Bool.and_eq_true] at hreach
    rw [hlocked] at hreach
    exact absurd hreach.2 (by decide)
  | autoCanceled _ _ hc => exact hunsent (carries_id hc).2.1 (by decide) fun h => by cases h
  | failed _ _ hc =>
    refine hunsent (carries_id hc).2.1 (by decide) ?_
    simp only [ScheduledMessage.dispatchFailed]
    split_ifs <;> decide
  | skipped _ _ hc => exact hunsent (carries_id hc).2.1 (by decide) fun h => by cases h
  | swept _ _ ho => exact hopen ho fun h => by cases h
  | canceled _ hp hmem =>
    rcases h.written _ _ _ (by rw [hp]; rfl) r hr hmem with hs | hs
    · exact hunsent hs (by decide) fun h => by cases h
    · exact hunsent hs (by decide) fun h => by cases h

theorem purgeCount_spec {p : ℕ} (hstep : scheduledStep cfg s (.purgeCount p) = some s') :
    s'.rows = s.rows ∧ s'.contacts = s.contacts := by
  simp only [scheduledStep] at hstep
  split at hstep
  · obtain rfl := Option.some.inj hstep
    exact ⟨rfl, rfl⟩
  · contradiction

theorem purgeDelete_spec {p : ℕ} (hstep : scheduledStep cfg s (.purgeDelete p) = some s') :
    s'.rows = s.rows ∧ s'.contacts = s.contacts := by
  simp only [scheduledStep] at hstep
  split at hstep
  · split_ifs at hstep
    obtain rfl := Option.some.inj hstep
    exact ⟨rfl, rfl⟩
  · contradiction

end Steps

/-! ### The invariant -/

structure PurgeInv (s : Tenant) : Prop where
  jobs : JobInv s
  counted : ∀ p connectionId contactRows counted,
    s.processes p = .purgeCounted connectionId contactRows counted →
      (s.rows.filter fun r => r.bulkJobId.isSome && s.routed connectionId r).map (·.purgeKey) =
        counted.map (·.purgeKey)
  routed : ∀ p connectionId contactRows counted ids,
    s.processes p = .purgeDeleted connectionId contactRows counted ids →
      ∀ r ∈ s.rows, r.id ∈ ids → s.routed connectionId r = true
  deleted : ∀ p connectionId contactRows counted ids,
    s.processes p = .purgeDeleted connectionId contactRows counted ids →
      (s.rows.filter fun r => r.bulkJobId.isSome && decide (r.id ∈ ids)).map (·.purgeKey) =
        counted.map (·.purgeKey)

namespace PurgeInv

variable {cfg : BulkConfig} {s s' : Tenant} {a : ScheduledAction}

theorem empty (clock : ℕ → ℕ) : PurgeInv (.empty clock) where
  jobs := .empty clock
  counted := fun _ _ _ _ hp => nomatch hp
  routed := fun _ _ _ _ _ hp => nomatch hp
  deleted := fun _ _ _ _ _ hp => nomatch hp

theorem filter_map_key {rows : List ScheduledMessage} {f : ScheduledMessage → ScheduledMessage}
    {q q' : ScheduledMessage → Bool} (hq : ∀ r ∈ rows, q' (f r) = q r)
    (hkey : ∀ r ∈ rows, q r = true → (f r).purgeKey = r.purgeKey) :
    ((rows.map f).filter q').map (·.purgeKey) = (rows.filter q).map (·.purgeKey) := by
  rw [List.filter_map, List.map_map]
  have hfilter : rows.filter (q' ∘ f) = rows.filter q := List.filter_congr fun r hr => hq r hr
  rw [hfilter]
  refine List.map_congr_left fun r hr => ?_
  obtain ⟨hr, hqr⟩ := List.mem_filter.mp hr
  exact hkey r hr hqr

theorem disjoint (h : PurgeInv s) {p q connectionId connectionId' : ℕ} {contactRows contactRows' ids : List ℕ}
    {counted : List ScheduledMessage} (hp : (s.processes p).purges = some (connectionId, contactRows))
    (hq : s.processes q = .purgeDeleted connectionId' contactRows' counted ids) (hne : p ≠ q)
    {r : ScheduledMessage} (hr : r ∈ s.rows) (hrouted : s.routed connectionId r = true) : r.id ∉ ids := by
  intro hmem
  obtain ⟨c, hc, hon⟩ := routed_iff.mp hrouted
  obtain ⟨c', hc', hon'⟩ := routed_iff.mp (h.routed q _ _ _ _ hq r hr hmem)
  obtain rfl := Option.some.inj (hc.symm.trans hc')
  obtain ⟨contact, hfind, hto⟩ := mem_contactsOf.mp hon
  obtain ⟨contact', hfind', hto'⟩ := mem_contactsOf.mp hon'
  obtain rfl := Option.some.inj (hfind.symm.trans hfind')
  obtain rfl := Option.some.inj (hto.symm.trans hto')
  have hlock := h.jobs.wf.locks p _ (Process.purges_locks hp).1
  have hpurges : (s.processes q).purges = some (connectionId, contactRows') := by
    rw [hq]
    rfl
  have hlock' := h.jobs.wf.locks q _ (Process.purges_locks hpurges).1
  exact hne (h.jobs.wf.exclusive _ p q hlock hlock')

theorem routed_held (h : PurgeInv s) {p connectionId : ℕ} {contactRows : List ℕ}
    (hp : (s.processes p).purges = some (connectionId, contactRows)) {r : ScheduledMessage}
    (hrouted : s.routed connectionId r = true) : ∃ c, r.contactId = some c ∧ s.unlocked (.contact c) = false := by
  obtain ⟨c, hc, hon⟩ := routed_iff.mp hrouted
  exact ⟨c, hc, (h.jobs.wf.purge_locks hp).2 c hon⟩

theorem counted_step (h : PurgeInv s) (hC : NoLateLeaf s a) (hstep : scheduledStep cfg s a = some s')
    {p connectionId : ℕ} {contactRows : List ℕ} {counted : List ScheduledMessage}
    (hp : s'.processes p = .purgeCounted connectionId contactRows counted) :
    (s'.rows.filter fun r => r.bulkJobId.isSome && s'.routed connectionId r).map (·.purgeKey) =
      counted.map (·.purgeKey) := by
  rcases processes_step hstep p with heq | hmove
  · have hold := heq ▸ hp
    have hpurges : (s.processes p).purges = some (connectionId, contactRows) := by
      rw [hold]
      rfl
    have hrouted := routed_step h.jobs.wf hstep hpurges (by rw [hp]; exact nofun)
    rw [← h.counted p connectionId contactRows counted hold]
    cases rows_step h.jobs.wf.ids hstep with
    | moved f hmap _ hmove =>
      rw [hmap]
      refine filter_map_key (fun r hr => ?_) fun r hr hq => ?_
      · rw [hrouted, (hmove r hr).id_eq.2.1, routed_congr (hmove r hr).id_eq.2.2.1]
      · exact (hmove r hr).purgeKey_eq h.jobs hr (h.routed_held hpurges (Bool.and_eq_true_iff.mp hq).2)
    | created new happ _ _ _ hnew =>
      have hnone : new.filter (fun r => r.bulkJobId.isSome && s'.routed connectionId r) = [] := by
        refine List.filter_eq_nil_iff.mpr fun r hr => ?_
        rcases hnew with ⟨_, _, _, _, -, rfl⟩ | ⟨_, jobId, _, recipients, rfl, -, rfl⟩
        · obtain rfl := List.mem_singleton.mp hr
          exact nofun
        · obtain ⟨recipient, hmem, rfl⟩ := List.mem_map.mp hr
          intro hq
          obtain ⟨c, hc, hon⟩ := routed_iff.mp ((hrouted _).symm.trans (Bool.and_eq_true_iff.mp hq).2)
          obtain rfl := Option.some.inj hc
          exact hC p connectionId contactRows counted hold recipient hmem hon
      rw [happ, List.filter_append, hnone, List.append_nil]
      simp only [hrouted]
    | purged ha hq hfilter _ =>
      rename_i q _ _ ids _ _
      have hne : p ≠ q := by
        rintro rfl
        rw [hold] at hq
        contradiction
      rw [hfilter, List.filter_filter]
      refine congrArg _ (List.filter_congr fun r hr => ?_)
      rw [hrouted]
      cases hin : s.routed connectionId r with
      | false => simp
      | true => simp [h.disjoint hpurges hq hne hr hin]
  · generalize hx : s.processes p = x at hmove
    rw [hp] at hmove
    cases hmove with
    | purgeCounted ha =>
      subst ha
      obtain ⟨hrows, hcontacts⟩ := purgeCount_spec hstep
      rw [hrows]
      have hrouted : ∀ r, s'.routed connectionId r = s.routed connectionId r := by
        intro r
        unfold Tenant.routed
        rw [hcontacts]
      simp only [hrouted]

theorem kept (h : PurgeInv s) {p connectionId : ℕ} {contactRows ids : List ℕ} {counted : List ScheduledMessage}
    (hp : s.processes p = .purgeDeleted connectionId contactRows counted ids) {r r' : ScheduledMessage}
    (hmove : RowMove s a r r') (hmem : r.id ∈ ids) : r' = r := by
  have hlock : .leaf r.id ∈ (s.processes p).locks := by
    rw [hp]
    exact List.mem_append_right _ (List.mem_map_of_mem hmem)
  rcases hmove.locked (h.jobs.wf.locked_elsewhere hlock) with hsame | ⟨q, j, now, ids', n, -, hq, hmem'⟩
  · exact hsame
  · have hwrote : (s.processes q).wrote = some (j, ids') := by
      rw [hq]
      rfl
    have hlock' : .leaf r.id ∈ (s.processes q).locks := JobInv.wrote_locks hwrote _ hmem'
    obtain rfl := h.jobs.wf.exclusive _ p q (h.jobs.wf.locks p _ hlock) (h.jobs.wf.locks q _ hlock')
    rw [hp] at hq
    contradiction

theorem deleted_disjoint (h : PurgeInv s) {p q connectionId connectionId' : ℕ}
    {contactRows contactRows' ids ids' : List ℕ} {counted counted' : List ScheduledMessage}
    (hp : s.processes p = .purgeDeleted connectionId contactRows counted ids)
    (hq : s.processes q = .purgeDeleted connectionId' contactRows' counted' ids') (hne : p ≠ q) {i : ℕ}
    (hi : i ∈ ids) : i ∉ ids' := by
  intro hi'
  have hlock : .leaf i ∈ (s.processes p).locks := by
    rw [hp]
    exact List.mem_append_right _ (List.mem_map_of_mem hi)
  have hlock' : .leaf i ∈ (s.processes q).locks := by
    rw [hq]
    exact List.mem_append_right _ (List.mem_map_of_mem hi')
  exact hne (h.jobs.wf.exclusive _ p q (h.jobs.wf.locks p _ hlock) (h.jobs.wf.locks q _ hlock'))

theorem deletes_issued (h : PurgeInv s) {p connectionId : ℕ} {contactRows ids : List ℕ}
    {counted : List ScheduledMessage} (hp : s.processes p = .purgeDeleted connectionId contactRows counted ids)
    {i : ℕ} (hi : i ∈ ids) : i ∈ s.issued := by
  refine h.jobs.wf.rowIds p i ?_
  rw [hp]
  exact List.mem_append_right _ hi

theorem routed_kept (h : PurgeInv s) (hstep : scheduledStep cfg s a = some s') {p connectionId : ℕ}
    {contactRows ids : List ℕ} {counted : List ScheduledMessage}
    (hp : s'.processes p = .purgeDeleted connectionId contactRows counted ids) :
    ∀ r ∈ s'.rows, r.id ∈ ids → s'.routed connectionId r = true := by
  intro r' hr' hmem
  rcases processes_step hstep p with heq | hmove
  · have hold := heq ▸ hp
    have hpurges : (s.processes p).purges = some (connectionId, contactRows) := by
      rw [hold]
      rfl
    obtain ⟨r, hr, hid, hmove⟩ := h.jobs.row_before hstep (h.deletes_issued hold hmem) hr' rfl
    obtain rfl := h.kept hold hmove (hid ▸ hmem)
    rw [routed_step h.jobs.wf hstep hpurges (by rw [hp]; exact nofun)]
    exact h.routed p _ _ _ _ hold r' hr hmem
  · generalize hx : s.processes p = x at hmove
    rw [hp] at hmove
    cases hmove with
    | purgeDeleted ha =>
      subst ha
      obtain ⟨hrows, hcontacts⟩ := purgeDelete_spec hstep
      have hsame : s'.routed connectionId r' = s.routed connectionId r' := by
        unfold Tenant.routed
        rw [hcontacts]
      rw [hsame]
      exact h.jobs.mem_of_id (hrows ▸ hr') hmem

theorem deleted_step (h : PurgeInv s) (hstep : scheduledStep cfg s a = some s') {p connectionId : ℕ}
    {contactRows ids : List ℕ} {counted : List ScheduledMessage}
    (hp : s'.processes p = .purgeDeleted connectionId contactRows counted ids) :
    (s'.rows.filter fun r => r.bulkJobId.isSome && decide (r.id ∈ ids)).map (·.purgeKey) =
      counted.map (·.purgeKey) := by
  rcases processes_step hstep p with heq | hmove
  · have hold := heq ▸ hp
    rw [← h.deleted p connectionId contactRows counted ids hold]
    cases rows_step h.jobs.wf.ids hstep with
    | moved f hmap _ hmove =>
      rw [hmap]
      refine filter_map_key (fun r hr => ?_) fun r hr hq => ?_
      · rw [(hmove r hr).id_eq.1, (hmove r hr).id_eq.2.1]
      · rw [h.kept hold (hmove r hr) (of_decide_eq_true (Bool.and_eq_true_iff.mp hq).2)]
    | created new happ _ _ hfresh _ =>
      have hnone : new.filter (fun r => r.bulkJobId.isSome && decide (r.id ∈ ids)) = [] := by
        refine List.filter_eq_nil_iff.mpr fun r hr hq => ?_
        exact hfresh r hr (h.deletes_issued hold (of_decide_eq_true (Bool.and_eq_true_iff.mp hq).2))
      rw [happ, List.filter_append, hnone, List.append_nil]
    | purged ha hq hfilter _ =>
      rename_i q _ _ ids' _ _
      have hne : p ≠ q := by
        rintro rfl
        subst ha
        simp only [scheduledStep, hold] at hstep
        obtain rfl := Option.some.inj hstep
        rw [show ((_ : Tenant).setProcess p .idle).processes p = .idle from Function.update_self _ _ _] at hp
        contradiction
      rw [hfilter, List.filter_filter]
      refine congrArg _ (List.filter_congr fun r hr => ?_)
      by_cases hin : r.id ∈ ids
      · simp [hin, h.deleted_disjoint hold hq hne hin]
      · simp [hin]
  · generalize hx : s.processes p = x at hmove
    rw [hp] at hmove
    cases hmove with
    | purgeDeleted ha =>
      subst ha
      rw [(purgeDelete_spec hstep).1, ← h.counted p connectionId contactRows counted hx]
      refine congrArg _ (List.filter_congr fun r hr => ?_)
      congr 1
      rw [Bool.eq_iff_iff, decide_eq_true_eq]
      constructor
      · exact fun hmem => h.jobs.mem_of_id hr hmem
      · exact fun hrouted => List.mem_map_of_mem (List.mem_filter.mpr ⟨hr, hrouted⟩)

theorem step (h : PurgeInv s) (hC : NoLateLeaf s a) (hstep : scheduledStep cfg s a = some s') : PurgeInv s' where
  jobs := h.jobs.step hstep
  counted := fun _ _ _ _ hp => h.counted_step hC hstep hp
  routed := fun _ _ _ _ _ hp => h.routed_kept hstep hp
  deleted := fun _ _ _ _ _ hp => h.deleted_step hstep hp

end PurgeInv

end TeamInbox.Broadcast
