import TeamInbox.Broadcast.Audience
import TeamInbox.Broadcast.System

/-!
# TeamInbox.Broadcast.Creation — `createBulkJob` is idempotent

A call looks for a job with its key, resolves the audience, and writes the job and its leaves in a
transaction.  The unique index on the key decides between calls that find nothing: a transaction waits for an
open one with the same key, and fails if that one commits; its call then looks for the job again.  Contacts
may change between any two steps, any statement may fail, and a process may stop at any point.

A call that has ended stays in its final state; `record` keeps, for every commit, the call and what it
resolved the audience from.
-/

namespace TeamInbox.Broadcast

open Lib

inductive BulkMessageType
  | text
  | image
  | video
  | document
  deriving DecidableEq

structure CreateBulkJobParams where
  name : String
  audience : BulkJobAudience
  content : String
  messageType : BulkMessageType
  mediaUrl : Option String
  mediaMimeType : Option String
  mediaFileName : Option String
  scheduledAt : ℕ
  audienceHash : String
  idempotencyKey : String
  createdBy : ℕ
  deriving DecidableEq

/-- A row of `bulk_jobs`, as it is created. -/
structure BulkJobRow where
  id : ℕ
  name : String
  content : String
  messageType : BulkMessageType
  mediaUrl : Option String
  mediaMimeType : Option String
  mediaFileName : Option String
  audience : BulkJobAudience
  audienceHash : String
  scheduledAt : ℕ
  totalRecipients : ℕ
  skippedRecipients : ℕ
  idempotencyKey : String
  createdBy : ℕ
  createdAt : ℕ
  deriving DecidableEq

structure BulkLeaf where
  message : ScheduledMessage
  content : String
  messageType : BulkMessageType
  mediaUrl : Option String
  mediaMimeType : Option String
  mediaFileName : Option String
  createdBy : ℕ
  deriving DecidableEq

inductive CreateError
  | unknownVariables (names : List (List Char))
  | conflict
  | drift (resolved : ResolvedAudience)
  | noEligible
  | tooMany (limit : ℕ)
  | tooLarge
  | database
  deriving DecidableEq

def maxResolvedAudience : ℕ := 2000
def leafInsertChunk : ℕ := 500

/-- The checks between the resolution and the transaction. -/
def rejectAudience (cfg : BulkConfig) (params : CreateBulkJobParams) (resolved : ResolvedAudience) :
    Option CreateError :=
  if resolved.audienceHash ≠ params.audienceHash then some (.drift resolved)
  else if resolved.eligible = [] then some .noEligible
  else if cfg.maxRecipientsPerJob < resolved.eligible.length then some (.tooMany cfg.maxRecipientsPerJob)
  else if maxResolvedAudience < resolved.eligible.length + resolved.skipped.length then some .tooLarge
  else none

def newJobRow (params : CreateBulkJobParams) (resolved : ResolvedAudience) (id now : ℕ) : BulkJobRow where
  id := id
  name := params.name
  content := params.content
  messageType := params.messageType
  mediaUrl := params.mediaUrl
  mediaMimeType := params.mediaMimeType
  mediaFileName := params.mediaFileName
  audience := params.audience
  audienceHash := resolved.audienceHash
  scheduledAt := params.scheduledAt
  totalRecipients := resolved.eligible.length
  skippedRecipients := resolved.skipped.length
  idempotencyKey := params.idempotencyKey
  createdBy := params.createdBy
  createdAt := now

def newLeaf (params : CreateBulkJobParams) (jobId now leafId : ℕ) (r : ResolvedRecipient) : BulkLeaf where
  message := .fresh leafId (some r.contactId) (some jobId) params.scheduledAt now r.skipReason
  content := String.ofList (renderBulkTemplate params.content r)
  messageType := params.messageType
  mediaUrl := params.mediaUrl
  mediaMimeType := params.mediaMimeType
  mediaFileName := params.mediaFileName
  createdBy := params.createdBy

/-- The leaves of a job; `leafIds` are their identifiers. -/
def newBulkLeaves (params : CreateBulkJobParams) (resolved : ResolvedAudience) (jobId now : ℕ)
    (leafIds : List ℕ) : List BulkLeaf :=
  List.zipWith (newLeaf params jobId now) leafIds resolved.recipients

def canonicalAudience (audience : BulkJobAudience) : List ℕ × List ℕ × Option ℕ :=
  (audience.tagIds.insertionSort (· ≤ ·), audience.contactIds.insertionSort (· ≤ ·), audience.connectionId)

def replayOrConflict (job : BulkJobRow) (params : CreateBulkJobParams) : Except CreateError BulkJobRow :=
  if job.createdBy = params.createdBy ∧ job.name = params.name ∧ job.content = params.content ∧
      job.messageType = params.messageType ∧ job.mediaUrl = params.mediaUrl ∧
      job.scheduledAt = params.scheduledAt ∧ job.audienceHash = params.audienceHash ∧
      canonicalAudience job.audience = canonicalAudience params.audience then .ok job
  else .error .conflict

/-! ### Calls -/

/-- Where a call of `createBulkJob` stands. -/
inductive CreateCall
  | idle
  | called (params : CreateBulkJobParams)
  | unseen (params : CreateBulkJobParams)
  /-- the audience, resolved from this directory, passed the checks -/
  | admitted (params : CreateBulkJobParams) (directory : Directory) (now : ℕ)
  /-- the transaction has inserted the job and some of the leaves -/
  | writing (params : CreateBulkJobParams) (directory : Directory) (job : BulkJobRow) (written rest : List BulkLeaf)
  | committed (params : CreateBulkJobParams) (job : BulkJobRow)
  /-- the transaction failed on the unique index -/
  | conflicted (params : CreateBulkJobParams)
  | returned (params : CreateBulkJobParams) (job : BulkJobRow) (created : Bool)
  | threw (params : CreateBulkJobParams) (error : CreateError)
  | crashed

structure CreateRecord where
  call : ℕ
  params : CreateBulkJobParams
  directory : Directory
  jobId : ℕ

structure Creation where
  now : ℕ
  directory : Directory
  jobs : List BulkJobRow
  leaves : List BulkLeaf
  /-- identifiers of all rows there have been -/
  issued : List ℕ
  calls : ℕ → CreateCall
  /-- the job rows of open transactions -/
  uncommitted : List (ℕ × BulkJobRow)
  record : List CreateRecord

inductive CreateAction
  | tick (duration : ℕ)
  | change (directory : Directory)
  | call (p : ℕ) (params : CreateBulkJobParams)
  | find (p : ℕ)
  | resolve (p : ℕ)
  | insertJob (p jobId : ℕ) (leafIds : List ℕ)
  | insertLeaves (p : ℕ)
  | commit (p : ℕ)
  | findAgain (p : ℕ)
  | reply (p : ℕ)
  | fail (p : ℕ)
  | crash (p : ℕ)

namespace Creation

def setCall (s : Creation) (p : ℕ) (x : CreateCall) : Creation := { s with calls := Function.update s.calls p x }

def rollback (s : Creation) (p : ℕ) : Creation :=
  { s with uncommitted := s.uncommitted.filter fun u => !decide (u.1 = p) }

def findJobByIdempotencyKey (s : Creation) (key : String) : Option BulkJobRow :=
  s.jobs.find? fun job => decide (job.idempotencyKey = key)

end Creation

def replied (params : CreateBulkJobParams) : Except CreateError BulkJobRow → CreateCall
  | .ok job => .returned params job false
  | .error error => .threw params error

/-- The parameters of a call that has not ended. -/
def CreateCall.pending : CreateCall → Option CreateBulkJobParams
  | .called params | .unseen params | .admitted params _ _ | .writing params _ _ _ _ | .conflicted params => some params
  | _ => none

def createStep (digest : String → String) (cfg : BulkConfig) (s : Creation) : CreateAction → Option Creation
  | .tick duration => some { s with now := s.now + duration }
  | .change directory => some { s with directory := directory }
  | .call p params =>
    match s.calls p with
    | .idle =>
      let unknown := findUnknownTemplateVariables params.content
      some (s.setCall p (if unknown ≠ [] then .threw params (.unknownVariables unknown) else .called params))
    | _ => none
  | .find p =>
    match s.calls p with
    | .called params =>
      match s.findJobByIdempotencyKey params.idempotencyKey with
      | some existing => some (s.setCall p (replied params (replayOrConflict existing params)))
      | none => some (s.setCall p (.unseen params))
    | _ => none
  | .resolve p =>
    match s.calls p with
    | .unseen params =>
      match rejectAudience cfg params (resolveBulkAudience digest s.directory params.audience) with
      | some error => some (s.setCall p (.threw params error))
      | none => some (s.setCall p (.admitted params s.directory s.now))
    | _ => none
  | .insertJob p jobId leafIds =>
    match s.calls p with
    | .admitted params directory now =>
      let resolved := resolveBulkAudience digest directory params.audience
      -- an open transaction with the key is waited for
      if s.uncommitted.any fun u => decide (u.2.idempotencyKey = params.idempotencyKey) then none
      else if s.jobs.any fun job => decide (job.idempotencyKey = params.idempotencyKey) then
        some (s.setCall p (.conflicted params))
      else if (jobId :: leafIds).Nodup ∧ (∀ i ∈ jobId :: leafIds, i ∉ s.issued) ∧
          leafIds.length = resolved.recipients.length then
        let job := newJobRow params resolved jobId now
        some ({ s with
          issued := jobId :: leafIds ++ s.issued
          uncommitted := (p, job) :: s.uncommitted }.setCall p
            (.writing params directory job [] (newBulkLeaves params resolved jobId now leafIds)))
      else none
    | _ => none
  | .insertLeaves p =>
    match s.calls p with
    | .writing params directory job written rest =>
      if rest = [] then none
      else some (s.setCall p (.writing params directory job (written ++ rest.take leafInsertChunk)
        (rest.drop leafInsertChunk)))
    | _ => none
  | .commit p =>
    match s.calls p with
    | .writing params directory job written [] =>
      some ({ s.rollback p with
        jobs := s.jobs ++ [job]
        leaves := s.leaves ++ written
        record := ⟨p, params, directory, job.id⟩ :: s.record }.setCall p (.committed params job))
    | _ => none
  | .findAgain p =>
    match s.calls p with
    | .conflicted params =>
      match s.findJobByIdempotencyKey params.idempotencyKey with
      | some winner => some (s.setCall p (replied params (replayOrConflict winner params)))
      | none => some (s.setCall p (.threw params .database))
    | _ => none
  | .reply p =>
    match s.calls p with
    | .committed params job => some (s.setCall p (.returned params job true))
    | _ => none
  | .fail p =>
    match (s.calls p).pending with
    | some params => some ((s.rollback p).setCall p (.threw params .database))
    | none => none
  | .crash p =>
    match s.calls p with
    | .returned _ _ _ | .threw _ _ => none
    | _ => some ((s.rollback p).setCall p .crashed)

def Creation.empty (directory : Directory) : Creation :=
  ⟨0, directory, [], [], [], fun _ => .idle, [], []⟩

/-! ### What is promised -/

structure Matches (job : BulkJobRow) (params : CreateBulkJobParams) : Prop where
  key : job.idempotencyKey = params.idempotencyKey
  createdBy : job.createdBy = params.createdBy
  name : job.name = params.name
  content : job.content = params.content
  messageType : job.messageType = params.messageType
  mediaUrl : job.mediaUrl = params.mediaUrl
  scheduledAt : job.scheduledAt = params.scheduledAt
  audienceHash : job.audienceHash = params.audienceHash
  tagIds : job.audience.tagIds.Perm params.audience.tagIds
  contactIds : job.audience.contactIds.Perm params.audience.contactIds
  connectionId : job.audience.connectionId = params.audience.connectionId

def BulkJobRow.leavesIn (job : BulkJobRow) (leaves : List BulkLeaf) : List BulkLeaf :=
  leaves.filter fun leaf => leaf.message.leafOf job.id

def BulkLeaf.recipient (leaf : BulkLeaf) : Option ℕ × Option BulkRecipientSkipReason × String :=
  (leaf.message.contactId, leaf.message.skipReason, leaf.content)

def ResolvedRecipient.leaf (content : String) (r : ResolvedRecipient) :
    Option ℕ × Option BulkRecipientSkipReason × String :=
  (some r.contactId, r.skipReason, String.ofList (renderBulkTemplate content r))

/-- The job is what its call asked for, with a leaf for every recipient it resolved. -/
structure Materialised (digest : String → String) (leaves : List BulkLeaf) (job : BulkJobRow)
    (w : CreateRecord) : Prop where
  id : w.jobId = job.id
  request : Matches job w.params
  leaves : (job.leavesIn leaves).map (·.recipient) =
    (resolveBulkAudience digest w.directory w.params.audience).recipients.map (·.leaf w.params.content)

def CreateCall.mayHaveCommitted : CreateCall → Bool
  | .committed _ _ | .returned _ _ true | .crashed => true
  | _ => false

def CreateCall.result : CreateCall → Option (CreateBulkJobParams × BulkJobRow)
  | .committed params job | .returned params job _ => some (params, job)
  | _ => none

/-- One job for a key, made by one call, complete; and every call that returns returns it. -/
structure CreatedOnce (digest : String → String) (s : Creation) : Prop where
  unique : (s.jobs.map (·.idempotencyKey)).Nodup
  complete : ∀ job ∈ s.jobs, ∃ w ∈ s.record, Materialised digest s.leaves job w
  each : ∀ job ∈ s.jobs, ∀ w ∈ s.record, w.jobId = job.id →
    ∀ contact ∈ w.directory.contacts, w.directory.selects w.params.audience contact = true →
      (job.leavesIn s.leaves).countP (fun leaf => decide (leaf.message.contactId = some contact.id)) = 1
  owned : ∀ leaf ∈ s.leaves, ∃ job ∈ s.jobs, leaf.message.bulkJobId = some job.id
  returned : ∀ p params job created, s.calls p = .returned params job created → job ∈ s.jobs ∧ Matches job params
  threw : ∀ p params error, s.calls p = .threw params error → ∀ w ∈ s.record, w.call ≠ p

/-! ### Steps -/

/-- What a step of a call does that leaves the tables alone. -/
inductive CallMove (digest : String → String) (s : Creation) : CreateCall → CreateCall → Prop
  | called (params : CreateBulkJobParams) : CallMove digest s .idle (.called params)
  | unseen (params : CreateBulkJobParams) : CallMove digest s (.called params) (.unseen params)
  | threw {x : CreateCall} (params : CreateBulkJobParams) (error : CreateError)
      (hx : x.mayHaveCommitted = false) : CallMove digest s x (.threw params error)
  | replayed {x : CreateCall} {params : CreateBulkJobParams} {job : BulkJobRow} (hx : x.mayHaveCommitted = false)
      (hjob : job ∈ s.jobs) (hmatches : Matches job params) : CallMove digest s x (.returned params job false)
  | admitted {params : CreateBulkJobParams}
      (hhash : (resolveBulkAudience digest s.directory params.audience).audienceHash = params.audienceHash) :
      CallMove digest s (.unseen params) (.admitted params s.directory s.now)
  | conflicted {params : CreateBulkJobParams} {directory : Directory} {now : ℕ} :
      CallMove digest s (.admitted params directory now) (.conflicted params)
  | wrote {params : CreateBulkJobParams} {directory : Directory} {job : BulkJobRow} {written rest : List BulkLeaf} :
      CallMove digest s (.writing params directory job written rest)
        (.writing params directory job (written ++ rest.take leafInsertChunk) (rest.drop leafInsertChunk))
  | replied {params : CreateBulkJobParams} {job : BulkJobRow} :
      CallMove digest s (.committed params job) (.returned params job true)

inductive CreateMove (digest : String → String) (s : Creation) : Creation → Prop
  | still (now : ℕ) (directory : Directory) : CreateMove digest s { s with
      now := now
      directory := directory }
  | went {p : ℕ} {x : CreateCall} (hx : CallMove digest s (s.calls p) x) : CreateMove digest s (s.setCall p x)
  | inserted {p jobId now : ℕ} {leafIds : List ℕ} {params : CreateBulkJobParams} {directory : Directory}
      (hp : s.calls p = .admitted params directory now)
      (hopen : ∀ u ∈ s.uncommitted, u.2.idempotencyKey ≠ params.idempotencyKey)
      (hjobs : ∀ job ∈ s.jobs, job.idempotencyKey ≠ params.idempotencyKey) (hfresh : jobId ∉ s.issued)
      (hlength : leafIds.length = (resolveBulkAudience digest directory params.audience).recipients.length) :
      CreateMove digest s ({ s with
        issued := jobId :: leafIds ++ s.issued
        uncommitted := (p, newJobRow params (resolveBulkAudience digest directory params.audience) jobId now) ::
          s.uncommitted }.setCall p (.writing params directory
            (newJobRow params (resolveBulkAudience digest directory params.audience) jobId now) []
            (newBulkLeaves params (resolveBulkAudience digest directory params.audience) jobId now leafIds)))
  | ended {p : ℕ} {x : CreateCall} (hx : x = .crashed ∨ (∃ params, x = .threw params .database) ∧
      (s.calls p).mayHaveCommitted = false) : CreateMove digest s ((s.rollback p).setCall p x)
  | committed {p : ℕ} {params : CreateBulkJobParams} {directory : Directory} {job : BulkJobRow}
      {written : List BulkLeaf} (hp : s.calls p = .writing params directory job written []) :
      CreateMove digest s ({ s.rollback p with
        jobs := s.jobs ++ [job]
        leaves := s.leaves ++ written
        record := ⟨p, params, directory, job.id⟩ :: s.record }.setCall p (.committed params job))

section Steps

variable {digest : String → String} {cfg : BulkConfig} {s s' : Creation} {a : CreateAction}

theorem perm_of_insertionSort_eq {l l' : List ℕ}
    (h : l.insertionSort (· ≤ ·) = l'.insertionSort (· ≤ ·)) : l.Perm l' :=
  (List.perm_insertionSort _ l).symm.trans (h ▸ List.perm_insertionSort _ l')

theorem matches_of_replay {job : BulkJobRow} {params : CreateBulkJobParams}
    (hkey : job.idempotencyKey = params.idempotencyKey)
    (hmatches : job.createdBy = params.createdBy ∧ job.name = params.name ∧ job.content = params.content ∧
      job.messageType = params.messageType ∧ job.mediaUrl = params.mediaUrl ∧
      job.scheduledAt = params.scheduledAt ∧ job.audienceHash = params.audienceHash ∧
      canonicalAudience job.audience = canonicalAudience params.audience) : Matches job params := by
  obtain ⟨hcreated, hname, hcontent, htype, hmedia, htime, hhash, haudience⟩ := hmatches
  simp only [canonicalAudience, Prod.mk.injEq] at haudience
  exact ⟨hkey, hcreated, hname, hcontent, htype, hmedia, htime, hhash, perm_of_insertionSort_eq haudience.1,
    perm_of_insertionSort_eq haudience.2.1, haudience.2.2⟩

theorem callMove_replied {params : CreateBulkJobParams} {job : BulkJobRow} {x : CreateCall}
    (hx : x.mayHaveCommitted = false) (hfind : s.findJobByIdempotencyKey params.idempotencyKey = some job) :
    CallMove digest s x (replied params (replayOrConflict job params)) := by
  unfold Creation.findJobByIdempotencyKey at hfind
  have hkey := List.find?_some hfind
  unfold replayOrConflict
  split_ifs with hmatches
  · exact .replayed hx (List.mem_of_find?_eq_some hfind) (matches_of_replay (of_decide_eq_true hkey) hmatches)
  · exact .threw params .conflict hx

theorem createStep_move (hstep : createStep digest cfg s a = some s') : CreateMove digest s s' := by
  cases a with
  | tick duration =>
    obtain rfl := Option.some.inj hstep
    exact .still _ _
  | change directory =>
    obtain rfl := Option.some.inj hstep
    exact .still _ _
  | call p params =>
    simp only [createStep] at hstep
    split at hstep
    · rename_i hp
      obtain rfl := Option.some.inj hstep
      refine .went ?_
      rw [hp]
      split_ifs
      · exact .threw _ _ rfl
      · exact .called params
    · contradiction
  | find p =>
    simp only [createStep] at hstep
    split at hstep
    · rename_i params hp
      split at hstep
      · rename_i existing hfind
        obtain rfl := Option.some.inj hstep
        refine .went ?_
        rw [hp]
        exact callMove_replied rfl hfind
      · obtain rfl := Option.some.inj hstep
        refine .went ?_
        rw [hp]
        exact .unseen params
    · contradiction
  | resolve p =>
    simp only [createStep] at hstep
    split at hstep
    · rename_i params hp
      split at hstep
      · obtain rfl := Option.some.inj hstep
        refine .went ?_
        rw [hp]
        exact .threw _ _ rfl
      · rename_i haccepted
        obtain rfl := Option.some.inj hstep
        refine .went ?_
        rw [hp]
        refine .admitted ?_
        by_contra hdrift
        unfold rejectAudience at haccepted
        rw [if_pos hdrift] at haccepted
        contradiction
    · contradiction
  | insertJob p jobId leafIds =>
    simp only [createStep] at hstep
    split at hstep
    · rename_i params directory now hp
      split_ifs at hstep with hopen hjobs hfresh
      · obtain rfl := Option.some.inj hstep
        refine .went ?_
        rw [hp]
        exact .conflicted
      · obtain rfl := Option.some.inj hstep
        refine .inserted hp (fun u hu hkey => hopen ?_) (fun job hjob hkey => hjobs ?_)
          (hfresh.2.1 jobId List.mem_cons_self) hfresh.2.2
        · exact List.any_eq_true.mpr ⟨u, hu, decide_eq_true hkey⟩
        · exact List.any_eq_true.mpr ⟨job, hjob, decide_eq_true hkey⟩
    · contradiction
  | insertLeaves p =>
    simp only [createStep] at hstep
    split at hstep
    · rename_i params directory job written rest hp
      split_ifs at hstep
      obtain rfl := Option.some.inj hstep
      refine .went ?_
      rw [hp]
      exact .wrote
    · contradiction
  | commit p =>
    simp only [createStep] at hstep
    split at hstep
    · rename_i params directory job written hp
      obtain rfl := Option.some.inj hstep
      exact .committed hp
    · contradiction
  | findAgain p =>
    simp only [createStep] at hstep
    split at hstep
    · rename_i params hp
      split at hstep
      · rename_i winner hfind
        obtain rfl := Option.some.inj hstep
        refine .went ?_
        rw [hp]
        exact callMove_replied rfl hfind
      · obtain rfl := Option.some.inj hstep
        refine .went ?_
        rw [hp]
        exact .threw _ _ rfl
    · contradiction
  | reply p =>
    simp only [createStep] at hstep
    split at hstep
    · rename_i params job hp
      obtain rfl := Option.some.inj hstep
      refine .went ?_
      rw [hp]
      exact .replied
    · contradiction
  | fail p =>
    simp only [createStep] at hstep
    split at hstep
    · rename_i params hpending
      obtain rfl := Option.some.inj hstep
      refine .ended (.inr ⟨⟨params, rfl⟩, ?_⟩)
      generalize s.calls p = x at hpending
      cases x <;> first | rfl | contradiction
    · contradiction
  | crash p =>
    simp only [createStep] at hstep
    split at hstep
    · contradiction
    · contradiction
    · obtain rfl := Option.some.inj hstep
      exact .ended (.inl rfl)

end Steps

end TeamInbox.Broadcast
