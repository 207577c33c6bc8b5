import TeamInbox.Broadcast.Creation

/-!
# TeamInbox.Broadcast.Idempotence — one job for a key, complete or absent

The keys of the committed jobs and of the open transactions are distinct (`CreationInv.keys`): a transaction
inserts its row only where no other has the key.  What an open transaction has written and has still to write
are together the leaves of its job.
-/

namespace TeamInbox.Broadcast

open Lib Tenant

def Creation.rows (s : Creation) : List BulkJobRow := s.uncommitted.map (·.2) ++ s.jobs

structure Prepared (digest : String → String) (params : CreateBulkJobParams) (directory : Directory)
    (job : BulkJobRow) (leaves : List BulkLeaf) : Prop where
  hash : (resolveBulkAudience digest directory params.audience).audienceHash = params.audienceHash
  row : ∃ now, job = newJobRow params (resolveBulkAudience digest directory params.audience) job.id now
  leaves : ∃ now leafIds, leafIds.length =
      (resolveBulkAudience digest directory params.audience).recipients.length ∧
    leaves = newBulkLeaves params (resolveBulkAudience digest directory params.audience) job.id now leafIds

structure CreationInv (digest : String → String) (s : Creation) : Prop where
  keys : (s.rows.map (·.idempotencyKey)).Nodup
  ids : (s.rows.map (·.id)).Nodup
  issued : ∀ job ∈ s.rows, job.id ∈ s.issued
  admitted : ∀ p params directory now, s.calls p = .admitted params directory now →
    (resolveBulkAudience digest directory params.audience).audienceHash = params.audienceHash
  writing : ∀ p params directory job written rest, s.calls p = .writing params directory job written rest →
    (p, job) ∈ s.uncommitted ∧ Prepared digest params directory job (written ++ rest)
  owned : ∀ leaf ∈ s.leaves, ∃ job ∈ s.jobs, leaf.message.bulkJobId = some job.id
  complete : ∀ job ∈ s.jobs, ∃ w ∈ s.record, Materialised digest s.leaves job w
  recorded : ∀ w ∈ s.record, ∃ job ∈ s.jobs, Materialised digest s.leaves job w
  ended : ∀ w ∈ s.record, (s.calls w.call).mayHaveCommitted = true
  result : ∀ p params job, (s.calls p).result = some (params, job) → job ∈ s.jobs ∧ Matches job params

section Leaves

variable {digest : String → String} {params : CreateBulkJobParams} {directory : Directory} {job : BulkJobRow}
  {leaves : List BulkLeaf}

theorem Prepared.request (h : Prepared digest params directory job leaves) : Matches job params := by
  obtain ⟨now, hjob⟩ := h.row
  have hhash : job.audienceHash = params.audienceHash := by
    rw [hjob]
    exact h.hash
  rw [hjob] at hhash ⊢
  exact ⟨rfl, rfl, rfl, rfl, rfl, rfl, rfl, hhash, List.Perm.refl _, List.Perm.refl _, rfl⟩

theorem newBulkLeaves_recipient (resolved : ResolvedAudience) (jobId now : ℕ) {leafIds : List ℕ}
    (hlength : leafIds.length = resolved.recipients.length) :
    (newBulkLeaves params resolved jobId now leafIds).map (·.recipient) =
      resolved.recipients.map (·.leaf params.content) := by
  unfold newBulkLeaves
  generalize resolved.recipients = recipients at hlength
  induction recipients generalizing leafIds with
  | nil => rw [List.eq_nil_of_length_eq_zero hlength, List.zipWith_nil_left, List.map_nil, List.map_nil]
  | cons r recipients ih =>
    cases leafIds with
    | nil => contradiction
    | cons i leafIds =>
      rw [List.zipWith_cons_cons, List.map_cons, List.map_cons, ih (Nat.succ.inj hlength)]
      rfl

theorem newBulkLeaves_job (resolved : ResolvedAudience) (jobId now : ℕ) (leafIds : List ℕ) :
    ∀ leaf ∈ newBulkLeaves params resolved jobId now leafIds, leaf.message.bulkJobId = some jobId := by
  unfold newBulkLeaves
  generalize resolved.recipients = recipients
  induction recipients generalizing leafIds with
  | nil =>
    intro leaf hleaf
    rw [List.zipWith_nil_right] at hleaf
    contradiction
  | cons r recipients ih =>
    cases leafIds with
    | nil => exact fun leaf hleaf => absurd hleaf List.not_mem_nil
    | cons i leafIds =>
      intro leaf hleaf
      rcases List.mem_cons.mp hleaf with rfl | hleaf
      · rfl
      · exact ih leafIds leaf hleaf

/-! ### The dispatch system's view -/

/-- The recipients, with the ids of their leaves. -/
def dispatchRecipients (leafIds : List ℕ) (resolved : ResolvedAudience) : List Recipient :=
  List.zipWith (fun i r => ⟨i, r.contactId, r.skipReason⟩) leafIds resolved.recipients

theorem newBulkLeaves_messages (resolved : ResolvedAudience) (jobId now : ℕ) (leafIds : List ℕ) :
    (newBulkLeaves params resolved jobId now leafIds).map (·.message) =
      newLeaves jobId params.scheduledAt now (dispatchRecipients leafIds resolved) := by
  unfold newBulkLeaves newLeaves dispatchRecipients
  rw [List.map_zipWith, List.map_zipWith]
  rfl

theorem dispatchRecipients_countP (resolved : ResolvedAudience) {leafIds : List ℕ}
    (hlength : leafIds.length = resolved.recipients.length) (q : Option BulkRecipientSkipReason → Bool) :
    (dispatchRecipients leafIds resolved).countP (fun r => q r.skipReason) =
      resolved.recipients.countP fun r => q r.skipReason := by
  unfold dispatchRecipients
  generalize resolved.recipients = recipients at hlength
  induction recipients generalizing leafIds with
  | nil => rw [List.eq_nil_of_length_eq_zero hlength, List.zipWith_nil_left, List.countP_nil, List.countP_nil]
  | cons r recipients ih =>
    cases leafIds with
    | nil => contradiction
    | cons i leafIds =>
      rw [List.zipWith_cons_cons, List.countP_cons, List.countP_cons, ih (Nat.succ.inj hlength)]

theorem dispatchRecipients_ids (resolved : ResolvedAudience) {leafIds : List ℕ}
    (hlength : leafIds.length = resolved.recipients.length) :
    (dispatchRecipients leafIds resolved).map (·.leafId) = leafIds := by
  unfold dispatchRecipients
  generalize resolved.recipients = recipients at hlength
  induction recipients generalizing leafIds with
  | nil => rw [List.eq_nil_of_length_eq_zero hlength, List.zipWith_nil_left, List.map_nil]
  | cons r recipients ih =>
    cases leafIds with
    | nil => contradiction
    | cons i leafIds =>
      rw [List.zipWith_cons_cons, List.map_cons, ih (Nat.succ.inj hlength)]

/-- What a commit adds to the tables is what `createJob` adds to those of the dispatch system, which takes the step if the
job and its leaves are new and somebody is eligible. -/
theorem created_in_dispatch (digest : String → String) (directory : Directory) (params : CreateBulkJobParams)
    (cfg : BulkConfig) (t : Tenant) (p jobId : ℕ) :
    let resolved := resolveBulkAudience digest directory params.audience
    ∀ leafIds : Vector ℕ resolved.recipients.length,
      scheduledStep cfg t (.createJob p jobId params.scheduledAt (dispatchRecipients leafIds.toList resolved)) =
        if t.jobs jobId = none ∧ t.freshIds leafIds.toList = true ∧ resolved.eligible ≠ [] then
          some ((t.insertRows ((newBulkLeaves params resolved jobId (t.clock p) leafIds.toList).map (·.message))).setJob
            jobId { newJob params.scheduledAt [] with
              totalRecipients := resolved.eligible.length
              skippedRecipients := resolved.skipped.length })
        else none := by
  intro resolved leafIds
  obtain ⟨hnone, hsome⟩ := resolveBulkAudience_reasons digest directory params.audience
  have hlength : leafIds.toList.length = resolved.recipients.length := Vector.length_toList
  have htotal : (dispatchRecipients leafIds.toList resolved).countP (·.skipReason.isNone) = resolved.eligible.length := by
    refine (dispatchRecipients_countP resolved hlength (·.isNone)).trans ?_
    unfold ResolvedAudience.recipients
    rw [List.countP_append, List.countP_eq_length.mpr fun r hr => by rw [hnone r hr]; rfl, Nat.add_eq_left]
    refine List.countP_eq_zero.mpr fun r hr hq => hsome r hr (Option.isNone_iff_eq_none.mp hq)
  have hskipped : (dispatchRecipients leafIds.toList resolved).countP (·.skipReason.isSome) =
      resolved.skipped.length := by
    refine (dispatchRecipients_countP resolved hlength (·.isSome)).trans ?_
    unfold ResolvedAudience.recipients
    rw [List.countP_append, List.countP_eq_length.mpr fun r hr => Option.isSome_iff_ne_none.mpr (hsome r hr),
      Nat.add_eq_right]
    refine List.countP_eq_zero.mpr fun r hr hq => Option.isSome_iff_ne_none.mp hq (hnone r hr)
  have hany : (dispatchRecipients leafIds.toList resolved).any (·.skipReason.isNone) = true ↔ resolved.eligible ≠ [] := by
    rw [List.any_eq_true, ← List.countP_pos_iff, htotal, List.length_pos_iff]
  simp only [scheduledStep, dispatchRecipients_ids resolved hlength, hany, newBulkLeaves_messages, newJob, htotal, hskipped]

end Leaves

namespace CreationInv

variable {digest : String → String} {cfg : BulkConfig} {s s' : Creation} {a : CreateAction}

theorem empty (directory : Directory) : CreationInv digest (.empty directory) where
  keys := List.nodup_nil
  ids := List.nodup_nil
  issued := fun _ hj => absurd hj List.not_mem_nil
  admitted := fun _ _ _ _ hp => nomatch hp
  writing := fun _ _ _ _ _ _ hp => nomatch hp
  owned := fun _ hl => absurd hl List.not_mem_nil
  complete := fun _ hj => absurd hj List.not_mem_nil
  recorded := fun _ hw => absurd hw List.not_mem_nil
  ended := fun _ hw => absurd hw List.not_mem_nil
  result := fun _ _ _ hp => nomatch hp

theorem calls_setCall (s : Creation) (p q : ℕ) (x : CreateCall) :
    (q = p ∧ (s.setCall p x).calls q = x) ∨ (q ≠ p ∧ (s.setCall p x).calls q = s.calls q) := by
  by_cases hq : q = p
  · subst hq
    exact .inl ⟨rfl, Function.update_self _ _ _⟩
  · exact .inr ⟨hq, Function.update_of_ne hq _ _⟩

theorem call_step (h : CreationInv digest s) {p : ℕ} {x : CreateCall} (hx : CallMove digest s (s.calls p) x) :
    CreationInv digest (s.setCall p x) where
  keys := h.keys
  ids := h.ids
  issued := h.issued
  admitted := fun q params directory now hq => by
    rcases calls_setCall s p q x with ⟨rfl, heq⟩ | ⟨-, heq⟩
    · rw [heq] at hq
      subst hq
      generalize s.calls q = y at hx
      cases hx with
      | admitted hhash => exact hhash
    · exact h.admitted q params directory now (heq ▸ hq)
  writing := fun q params directory job written rest hq => by
    rcases calls_setCall s p q x with ⟨rfl, heq⟩ | ⟨-, heq⟩
    · rw [heq] at hq
      subst hq
      generalize hy : s.calls q = y at hx
      cases hx with
      | wrote =>
        obtain ⟨hopen, hprepared⟩ := h.writing q _ _ _ _ _ hy
        rw [List.append_assoc, List.take_append_drop]
        exact ⟨hopen, hprepared⟩
    · exact h.writing q params directory job written rest (heq ▸ hq)
  owned := h.owned
  complete := h.complete
  recorded := h.recorded
  ended := fun w hw => by
    have hold := h.ended w hw
    rcases calls_setCall s p w.call x with ⟨heq, hnew⟩ | ⟨-, hnew⟩
    · rw [hnew]
      rw [heq] at hold
      generalize s.calls p = y at hx hold
      cases hx with
      | replied => rfl
      | threw _ _ hy =>
        rw [hy] at hold
        contradiction
      | replayed hy =>
        rw [hy] at hold
        contradiction
      | called | unseen | admitted | conflicted | wrote => contradiction
    · rw [hnew]
      exact hold
  result := fun q params job hq => by
    rcases calls_setCall s p q x with ⟨rfl, heq⟩ | ⟨-, heq⟩
    · rw [heq] at hq
      generalize hy : s.calls q = y at hx
      cases hx with
      | replied =>
        obtain ⟨rfl, rfl⟩ := Prod.mk.inj (Option.some.inj hq)
        exact h.result q _ _ (by rw [hy]; rfl)
      | replayed _ hjob hmatches =>
        obtain ⟨rfl, rfl⟩ := Prod.mk.inj (Option.some.inj hq)
        exact ⟨hjob, hmatches⟩
      | called | unseen | admitted | conflicted | wrote | threw => contradiction
    · exact h.result q params job (heq ▸ hq)

theorem rollback_rows (s : Creation) (p : ℕ) : (s.rollback p).rows.Sublist s.rows :=
  (List.filter_sublist.map _).append_right _

theorem end_step (h : CreationInv digest s) {p : ℕ} {x : CreateCall}
    (hx : x = .crashed ∨ (∃ params, x = .threw params .database) ∧ (s.calls p).mayHaveCommitted = false) :
    CreationInv digest ((s.rollback p).setCall p x) where
  keys := h.keys.sublist ((rollback_rows s p).map _)
  ids := h.ids.sublist ((rollback_rows s p).map _)
  issued := fun job hjob => h.issued job ((rollback_rows s p).subset hjob)
  admitted := fun q params directory now hq => by
    rcases calls_setCall (s.rollback p) p q x with ⟨rfl, heq⟩ | ⟨-, heq⟩
    · rw [heq] at hq
      subst hq
      rcases hx with hx | ⟨⟨_, hx⟩, -⟩ <;> contradiction
    · exact h.admitted q params directory now (heq ▸ hq)
  writing := fun q params directory job written rest hq => by
    rcases calls_setCall (s.rollback p) p q x with ⟨rfl, heq⟩ | ⟨hne, heq⟩
    · rw [heq] at hq
      subst hq
      rcases hx with hx | ⟨⟨_, hx⟩, -⟩ <;> contradiction
    · obtain ⟨hopen, hprepared⟩ := h.writing q params directory job written rest (heq ▸ hq)
      exact ⟨List.mem_filter.mpr ⟨hopen, by simp [hne]⟩, hprepared⟩
  owned := h.owned
  complete := h.complete
  recorded := h.recorded
  ended := fun w hw => by
    have hold := h.ended w hw
    rcases calls_setCall (s.rollback p) p w.call x with ⟨heq, hnew⟩ | ⟨-, hnew⟩
    · rw [hnew]
      rcases hx with rfl | ⟨-, hx⟩
      · rfl
      · rw [heq, hx] at hold
        contradiction
    · rw [hnew]
      exact hold
  result := fun q params job hq => by
    rcases calls_setCall (s.rollback p) p q x with ⟨rfl, heq⟩ | ⟨-, heq⟩
    · rw [heq] at hq
      rcases hx with rfl | ⟨⟨_, rfl⟩, -⟩ <;> contradiction
    · exact h.result q params job (heq ▸ hq)

theorem insert_step (h : CreationInv digest s) {p jobId now : ℕ} {leafIds : List ℕ} {params : CreateBulkJobParams}
    {directory : Directory} (hp : s.calls p = .admitted params directory now)
    (hopen : ∀ u ∈ s.uncommitted, u.2.idempotencyKey ≠ params.idempotencyKey)
    (hjobs : ∀ job ∈ s.jobs, job.idempotencyKey ≠ params.idempotencyKey) (hfresh : jobId ∉ s.issued)
    (hlength : leafIds.length = (resolveBulkAudience digest directory params.audience).recipients.length) :
    CreationInv digest ({ s with
      issued := jobId :: leafIds ++ s.issued
      uncommitted := (p, newJobRow params (resolveBulkAudience digest directory params.audience) jobId now) ::
        s.uncommitted }.setCall p (.writing params directory
          (newJobRow params (resolveBulkAudience digest directory params.audience) jobId now) []
          (newBulkLeaves params (resolveBulkAudience digest directory params.audience) jobId now leafIds))) := by
  have hkey : params.idempotencyKey ∉ s.rows.map (·.idempotencyKey) := by
    intro hmem
    obtain ⟨job, hjob, hkey⟩ := List.mem_map.mp hmem
    rcases List.mem_append.mp hjob with hjob | hjob
    · obtain ⟨u, hu, rfl⟩ := List.mem_map.mp hjob
      exact hopen u hu hkey
    · exact hjobs job hjob hkey
  have hid : jobId ∉ s.rows.map (·.id) := by
    intro hmem
    obtain ⟨job, hjob, rfl⟩ := List.mem_map.mp hmem
    exact hfresh (h.issued job hjob)
  constructor
  case keys => exact List.nodup_cons.mpr ⟨hkey, h.keys⟩
  case ids => exact List.nodup_cons.mpr ⟨hid, h.ids⟩
  case issued =>
    intro job hjob
    rcases List.mem_cons.mp hjob with rfl | hjob
    · exact List.mem_cons_self
    · exact List.mem_append_right _ (h.issued job hjob)
  case admitted =>
    intro q params' directory' now' hq
    rcases calls_setCall _ p q _ with ⟨rfl, heq⟩ | ⟨-, heq⟩
    · rw [heq] at hq
      contradiction
    · exact h.admitted q params' directory' now' (heq ▸ hq)
  case writing =>
    intro q params' directory' job written rest hq
    rcases calls_setCall _ p q _ with ⟨rfl, heq⟩ | ⟨-, heq⟩
    · rw [heq] at hq
      obtain ⟨rfl, rfl, rfl, rfl, rfl⟩ := CreateCall.writing.inj hq
      exact ⟨List.mem_cons_self, h.admitted q _ _ _ hp, ⟨now, rfl⟩, now, leafIds, hlength, rfl⟩
    · obtain ⟨hmem, hprepared⟩ := h.writing q params' directory' job written rest (heq ▸ hq)
      exact ⟨List.mem_cons_of_mem _ hmem, hprepared⟩
  case owned => exact h.owned
  case complete => exact h.complete
  case recorded => exact h.recorded
  case ended =>
    intro w hw
    have hold := h.ended w hw
    rcases calls_setCall _ p w.call _ with ⟨heq, -⟩ | ⟨-, hnew⟩
    · rw [heq, hp] at hold
      contradiction
    · exact (congrArg CreateCall.mayHaveCommitted hnew).trans hold
  case result =>
    intro q params' job hq
    rcases calls_setCall _ p q _ with ⟨rfl, heq⟩ | ⟨-, heq⟩
    · rw [heq] at hq
      contradiction
    · exact h.result q params' job (heq ▸ hq)

theorem commit_rows {p : ℕ} {job : BulkJobRow} (hmem : (p, job) ∈ s.uncommitted) :
    (((s.rollback p).uncommitted.map (·.2)) ++ (s.jobs ++ [job])).Subperm s.rows := by
  obtain ⟨before, after, hsplit⟩ := List.append_of_mem hmem
  have hfilter : ((s.rollback p).uncommitted.map (·.2)).Sublist ((before ++ after).map (·.2)) := by
    refine List.Sublist.map _ ?_
    show (s.uncommitted.filter _).Sublist _
    rw [hsplit, List.filter_append, List.filter_cons_of_neg (by simp), ← List.filter_append]
    exact List.filter_sublist
  refine (hfilter.append_right (s.jobs ++ [job])).subperm.trans (List.Perm.subperm ?_)
  unfold Creation.rows
  rw [hsplit]
  simp only [List.map_append, List.map_cons, List.append_assoc]
  refine List.Perm.append_left _ ?_
  rw [← List.append_assoc]
  exact List.perm_append_singleton _ _

theorem nodup_of_subperm {l l' : List BulkJobRow} (h : l.Subperm l') {β : Type} {f : BulkJobRow → β}
    (hnodup : (l'.map f).Nodup) : (l.map f).Nodup := by
  obtain ⟨t, hperm, hsub⟩ := h
  exact (hperm.map f).nodup_iff.mp (hnodup.sublist (hsub.map f))

theorem leavesIn_append {job : BulkJobRow} {leaves written : List BulkLeaf} {jobId : ℕ} (hne : job.id ≠ jobId)
    (hwritten : ∀ leaf ∈ written, leaf.message.bulkJobId = some jobId) :
    job.leavesIn (leaves ++ written) = job.leavesIn leaves := by
  have hnone : written.filter (fun leaf => leaf.message.leafOf job.id) = [] := by
    refine List.filter_eq_nil_iff.mpr fun leaf hleaf => ?_
    simp only [ScheduledMessage.leafOf, hwritten leaf hleaf, Option.some.injEq, decide_eq_true_eq]
    exact fun heq => hne heq.symm
  unfold BulkJobRow.leavesIn
  rw [List.filter_append, hnone, List.append_nil]

theorem leavesIn_new {job : BulkJobRow} {leaves written : List BulkLeaf}
    (hold : ∀ leaf ∈ leaves, leaf.message.bulkJobId ≠ some job.id)
    (hwritten : ∀ leaf ∈ written, leaf.message.bulkJobId = some job.id) : job.leavesIn (leaves ++ written) = written := by
  have hnone : leaves.filter (fun leaf => leaf.message.leafOf job.id) = [] :=
    List.filter_eq_nil_iff.mpr fun leaf hleaf hq => hold leaf hleaf (of_decide_eq_true hq)
  unfold BulkJobRow.leavesIn
  rw [List.filter_append, hnone, List.nil_append]
  exact List.filter_eq_self.mpr fun leaf hleaf => decide_eq_true (hwritten leaf hleaf)

theorem commit_step (h : CreationInv digest s) {p : ℕ} {params : CreateBulkJobParams} {directory : Directory}
    {job : BulkJobRow} {written : List BulkLeaf} (hp : s.calls p = .writing params directory job written []) :
    CreationInv digest ({ s.rollback p with
      jobs := s.jobs ++ [job]
      leaves := s.leaves ++ written
      record := ⟨p, params, directory, job.id⟩ :: s.record }.setCall p (.committed params job)) := by
  obtain ⟨hopen, hprepared⟩ := h.writing p _ _ _ _ _ hp
  rw [List.append_nil] at hprepared
  obtain ⟨now, leafIds, hlength, hleaves⟩ := hprepared.leaves
  have hrows := commit_rows hopen
  have hwritten : ∀ leaf ∈ written, leaf.message.bulkJobId = some job.id := by
    rw [hleaves]
    exact newBulkLeaves_job _ _ _ _
  -- the job is not in the table before
  have hother : ∀ other ∈ s.jobs, other.id ≠ job.id := by
    have hids := h.ids
    unfold Creation.rows at hids
    rw [List.map_append] at hids
    intro other hother heq
    refine (List.nodup_append.mp hids).2.2 job.id ?_ other.id (List.mem_map_of_mem hother) heq.symm
    exact List.mem_map_of_mem (List.mem_map_of_mem hopen)
  have hold : ∀ leaf ∈ s.leaves, leaf.message.bulkJobId ≠ some job.id := by
    intro leaf hleaf heq
    obtain ⟨other, hmem, hid⟩ := h.owned leaf hleaf
    exact hother other hmem (Option.some.inj (hid.symm.trans heq))
  have hnew : Materialised digest (s.leaves ++ written) job ⟨p, params, directory, job.id⟩ := by
    refine ⟨rfl, hprepared.request, ?_⟩
    rw [leavesIn_new hold hwritten, hleaves]
    exact newBulkLeaves_recipient _ _ _ hlength
  have hkept : ∀ other ∈ s.jobs, ∀ w, Materialised digest s.leaves other w →
      Materialised digest (s.leaves ++ written) other w := by
    intro other hmem w hw
    refine ⟨hw.id, hw.request, ?_⟩
    rw [leavesIn_append (hother other hmem) hwritten]
    exact hw.leaves
  constructor
  case keys => exact nodup_of_subperm hrows h.keys
  case ids => exact nodup_of_subperm hrows h.ids
  case issued => exact fun other hmem => h.issued other (hrows.subset hmem)
  case admitted =>
    intro q params' directory' now' hq
    rcases calls_setCall _ p q _ with ⟨rfl, heq⟩ | ⟨-, heq⟩
    · rw [heq] at hq
      contradiction
    · exact h.admitted q params' directory' now' (heq ▸ hq)
  case writing =>
    intro q params' directory' job' written' rest hq
    rcases calls_setCall _ p q _ with ⟨rfl, heq⟩ | ⟨hne, heq⟩
    · rw [heq] at hq
      contradiction
    · obtain ⟨hmem, hprepared'⟩ := h.writing q params' directory' job' written' rest (heq ▸ hq)
      exact ⟨List.mem_filter.mpr ⟨hmem, by simp [hne]⟩, hprepared'⟩
  case owned =>
    intro leaf hleaf
    rcases List.mem_append.mp hleaf with hleaf | hleaf
    · obtain ⟨other, hmem, hid⟩ := h.owned leaf hleaf
      exact ⟨other, List.mem_append_left _ hmem, hid⟩
    · exact ⟨job, List.mem_append_right _ List.mem_cons_self, hwritten leaf hleaf⟩
  case complete =>
    intro other hmem
    rcases List.mem_append.mp hmem with hmem | hmem
    · obtain ⟨w, hw, hmaterialised⟩ := h.complete other hmem
      exact ⟨w, List.mem_cons_of_mem _ hw, hkept other hmem w hmaterialised⟩
    · obtain rfl := List.mem_singleton.mp hmem
      exact ⟨_, List.mem_cons_self, hnew⟩
  case recorded =>
    intro w hw
    rcases List.mem_cons.mp hw with rfl | hw
    · exact ⟨job, List.mem_append_right _ List.mem_cons_self, hnew⟩
    · obtain ⟨other, hmem, hmaterialised⟩ := h.recorded w hw
      exact ⟨other, List.mem_append_left _ hmem, hkept other hmem w hmaterialised⟩
  case ended =>
    intro w hw
    rcases List.mem_cons.mp hw with rfl | hw
    · show (Function.update s.calls p _ p).mayHaveCommitted = true
      rw [Function.update_self]
      rfl
    · have hold := h.ended w hw
      rcases calls_setCall _ p w.call _ with ⟨heq, -⟩ | ⟨-, hnew⟩
      · rw [heq, hp] at hold
        contradiction
      · exact (congrArg CreateCall.mayHaveCommitted hnew).trans hold
  case result =>
    intro q params' job' hq
    rcases calls_setCall _ p q _ with ⟨rfl, heq⟩ | ⟨-, heq⟩
    · rw [heq] at hq
      obtain ⟨rfl, rfl⟩ := Prod.mk.inj (Option.some.inj hq)
      exact ⟨List.mem_append_right _ List.mem_cons_self, hprepared.request⟩
    · obtain ⟨hmem, hmatches⟩ := h.result q params' job' (heq ▸ hq)
      exact ⟨List.mem_append_left _ hmem, hmatches⟩

theorem step (h : CreationInv digest s) (hstep : createStep digest cfg s a = some s') : CreationInv digest s' := by
  cases createStep_move hstep with
  | still now directory =>
    exact ⟨h.keys, h.ids, h.issued, h.admitted, h.writing, h.owned, h.complete, h.recorded, h.ended, h.result⟩
  | went hx => exact h.call_step hx
  | inserted hp hopen hjobs hfresh hlength => exact h.insert_step hp hopen hjobs hfresh hlength
  | ended hx => exact h.end_step hx
  | committed hp => exact h.commit_step hp

theorem one_leaf {job : BulkJobRow} {w : CreateRecord} (h : Materialised digest s.leaves job w)
    {contact : AudienceContact} (hmem : contact ∈ w.directory.contacts)
    (hselects : w.directory.selects w.params.audience contact = true) :
    (job.leavesIn s.leaves).countP (fun leaf => decide (leaf.message.contactId = some contact.id)) = 1 := by
  obtain ⟨hnodup, hcontacts⟩ := resolveBulkAudience_contacts digest w.directory w.params.audience
  have hids : (job.leavesIn s.leaves).map (·.message.contactId) =
      ((resolveBulkAudience digest w.directory w.params.audience).recipients.map (·.contactId)).map some := by
    have hfirst := congrArg (List.map Prod.fst) h.leaves
    rw [List.map_map, List.map_map] at hfirst
    rw [List.map_map]
    exact hfirst
  have hcount := List.count_eq_one_of_mem hnodup ((hcontacts contact.id).mpr ⟨contact, hmem, rfl, hselects⟩)
  have hleaves := congrArg (List.countP fun c => decide (c = some contact.id)) hids
  rw [List.countP_map, List.countP_map] at hleaves
  refine hleaves.trans (Eq.trans ?_ hcount)
  rw [List.count_eq_countP]
  exact List.countP_congr fun c _ => by simp

theorem createdOnce (h : CreationInv digest s) : CreatedOnce digest s where
  unique := by
    have hkeys := h.keys
    unfold Creation.rows at hkeys
    rw [List.map_append] at hkeys
    exact (List.nodup_append.mp hkeys).2.1
  complete := h.complete
  each := fun job hjob w hw hid contact hmem hselects => by
    obtain ⟨other, hother, hmaterialised⟩ := h.recorded w hw
    have hids := h.ids
    unfold Creation.rows at hids
    rw [List.map_append] at hids
    obtain rfl := List.inj_on_of_nodup_map (List.nodup_append.mp hids).2.1 hother hjob
      (hmaterialised.id.symm.trans hid)
    exact one_leaf hmaterialised hmem hselects
  owned := h.owned
  returned := fun p params job created hp => h.result p params job (by rw [hp]; rfl)
  threw := fun p params error hp w hw heq => by
    have hended := h.ended w hw
    rw [heq, hp] at hended
    contradiction

end CreationInv

/-- **Creation is idempotent**, for any calls in any order, with contacts that change, statements that fail and
processes that stop. -/
theorem broadcast_created_once (digest : String → String) (cfg : BulkConfig) (directory : Directory)
    (as : List CreateAction) :
    Always (createStep digest cfg) (CreatedOnce digest) (.empty directory) as := by
  have hrun : Always (createStep digest cfg) (CreationInv digest) (.empty directory) as :=
    always_of_step (fun _ _ _ h hstep => CreationInv.step h hstep) (CreationInv.empty directory) as
  exact hrun.mono fun s h => h.createdOnce

end TeamInbox.Broadcast
