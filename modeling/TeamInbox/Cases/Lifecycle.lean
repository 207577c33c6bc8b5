import TeamInbox.Lib.Run
import Mathlib.Data.String.Basic

/-!
# TeamInbox.Cases.Lifecycle — conversation cases

A case is one cycle of a conversation, from its opening to its resolution.  Its transitions come in two
families, keyed by a contact or by a conversation; both write `conversation_cases` and the projection
`conversation_states`.  A transition is one transaction under a row lock, so transitions of one contact
or conversation come one after the other and a failed one leaves nothing.  The functions of the two
families are instances of the same code over a `Family`, which says by which key a family locks, reads
and writes.
-/

namespace TeamInbox.Cases

open TeamInbox.Lib

abbrev Uuid := String

/-! ### Data -/

inductive CaseKind
  | direct
  | group
  deriving DecidableEq

inductive CaseStatus
  /-- `'open'` -/
  | opened
  | pending
  | resolved
  deriving DecidableEq

def CaseStatus.active : CaseStatus → Bool
  | .resolved => false
  | _ => true

inductive OpenSource
  | liveInbound
  | manual
  deriving DecidableEq

/-- `ConversationCaseResolutionOutcome`. -/
inductive ResolutionOutcome
  | handled
  | noReplyNeeded
  | spam
  | duplicate
  | other
  deriving DecidableEq

/-- A row of `conversation_cases`. -/
structure Case where
  id : Uuid
  contactID : Option Uuid
  conversationID : Option Uuid
  kind : CaseKind
  status : CaseStatus
  openedAt : ℕ
  openingMessageID : Option Uuid
  openSource : OpenSource
  openedBy : Option Uuid
  policyID : Uuid
  responseTargetMinutes : ℕ
  resolutionTargetMinutes : ℕ
  reopenedFromCaseID : Option Uuid
  reopenReason : Option String
  resolvedAt : Option ℕ
  resolvedBy : Option Uuid
  resolutionOutcome : Option ResolutionOutcome
  resolutionNotes : Option String
  createdAt : ℕ
  deriving DecidableEq

/-- A row of `conversation_states`, without its unread counters. -/
structure StateRow where
  contactID : Option Uuid
  conversationID : Option Uuid
  activeCaseID : Option Uuid
  status : CaseStatus
  resolvedAt : Option ℕ
  resolvedBy : Option Uuid
  resolutionNotes : Option String
  reopenedAt : Option ℕ
  reopenedBy : Option Uuid
  deriving DecidableEq

/-- A row of `contact_assignments`. -/
structure Assignment where
  contactID : Option Uuid
  conversationID : Option Uuid
  assignedTo : Uuid
  unassignedAt : Option ℕ
  deriving DecidableEq

/-- A row of `messages`; `timestamp` is the client's clock, `createdAt` the server's. -/
structure Message where
  id : Uuid
  contactID : Option Uuid
  caseID : Option Uuid
  fromMe : Bool
  seq : ℕ
  createdAt : ℕ
  timestamp : ℕ
  sentByUserID : Option Uuid
  deriving DecidableEq

structure Conversation where
  id : Uuid
  legacyContactID : Option Uuid
  archivedAt : Option ℕ
  deriving DecidableEq

/-- The tables; of cases and states the rows of one contact and its conversation. -/
structure CaseDb where
  contacts : List Uuid
  conversations : List Conversation
  cases : List Case
  states : List StateRow
  assignments : List Assignment
  messages : List Message
  deriving DecidableEq

inductive CaseError
  | notFound (what : String)
  | assignedToOther (user : Uuid)
  | conflict (text : String)
  | validation (text : String)
  /-- A unique index rejected the row. -/
  | constraint (index : String)
  deriving DecidableEq

structure SlaPolicy where
  id : Uuid
  targetMinutes : ℕ
  directResolutionTargetMinutes : ℕ
  groupResponseTargetMinutes : ℕ
  groupResolutionTargetMinutes : ℕ
  deriving DecidableEq

/-- The clock, the defaults of a new row and the current policy. -/
structure Supply where
  now : ℕ
  createdAt : ℕ
  caseID : Uuid
  policy : Option SlaPolicy
  deriving DecidableEq

abbrev CaseM := ExceptT CaseError (StateM CaseDb)

/-! ### Reads -/

def resolveCaseTargets (policy : SlaPolicy) : CaseKind → ℕ × ℕ
  | .group => (policy.groupResponseTargetMinutes, policy.groupResolutionTargetMinutes)
  | .direct => (policy.targetMinutes, policy.directResolutionTargetMinutes)

/-- `contact_id = id OR conversation_id = id`. -/
def Case.keyed (id : Uuid) (c : Case) : Bool :=
  decide (c.contactID = some id) || decide (c.conversationID = some id)

/-- `ORDER BY created_at DESC, id DESC`. -/
def Case.newer (c d : Case) : Bool :=
  decide (d.createdAt < c.createdAt) || (decide (d.createdAt = c.createdAt) && decide (d.id < c.id))

/-- `LIMIT 1` of the ordered rows. -/
def mostRecent : List Case → Option Case
  | [] => none
  | c :: rest =>
    match mostRecent rest with
    | none => some c
    | some d => if d.newer c then some d else some c

namespace CaseDb

def conversationIDForContact (db : CaseDb) (contactID : Uuid) : Option Uuid :=
  (db.conversations.find? fun v => v.legacyContactID = some contactID ∧ v.archivedAt = none).map (·.id)

def getActiveCase (db : CaseDb) (id : Uuid) : Option Case :=
  db.cases.find? fun c => c.keyed id && c.status.active

def getMostRecentCase (db : CaseDb) (id : Uuid) : Option Case := mostRecent (db.cases.filter (·.keyed id))

def getCurrentAssignment (db : CaseDb) (contactID : Uuid) : Option Assignment :=
  db.assignments.find? fun a => a.contactID = some contactID ∧ a.unassignedAt = none

def getCurrentConversationAssignment (db : CaseDb) (conversationID : Uuid) : Option Assignment :=
  db.assignments.find? fun a => a.conversationID = some conversationID ∧ a.unassignedAt = none

end CaseDb

/-- The last message of a case by `seq`. -/
def lastMessage (messages : List Message) (caseID : Uuid) : Option Message :=
  (messages.filter (·.caseID = some caseID)).foldl (fun last m =>
    match last with
    | none => some m
    | some l => if l.seq ≤ m.seq then some m else some l) none

def hasUnansweredLatestTurn (messages : List Message) (activeCaseID : Uuid) : Bool :=
  match lastMessage messages activeCaseID with
  | some last => !last.fromMe
  | none => false

/-! ### Statements -/

/-- `ProjectionSync`; an omitted field is `none`. -/
structure ProjectionSync where
  activeCaseID : Option Uuid
  status : CaseStatus
  resolvedAt : Option (Option ℕ) := none
  resolvedBy : Option (Option Uuid) := none
  resolutionNotes : Option (Option String) := none
  reopenedAt : Option (Option ℕ) := none
  reopenedBy : Option (Option Uuid) := none

/-- What both projections write into an existing row. -/
def ProjectionSync.update (sync : ProjectionSync) (row : StateRow) : StateRow :=
  { row with
    activeCaseID := sync.activeCaseID
    status := sync.status
    resolvedAt := sync.resolvedAt.getD row.resolvedAt
    resolvedBy := sync.resolvedBy.getD row.resolvedBy
    resolutionNotes := sync.resolutionNotes.getD row.resolutionNotes
    reopenedAt := sync.reopenedAt.getD row.reopenedAt
    reopenedBy := sync.reopenedBy.getD row.reopenedBy }

def ProjectionSync.insert (sync : ProjectionSync) (contactID conversationID : Option Uuid) : StateRow :=
  ⟨contactID, conversationID, sync.activeCaseID, sync.status, sync.resolvedAt.getD none,
    sync.resolvedBy.getD none, sync.resolutionNotes.getD none, sync.reopenedAt.getD none,
    sync.reopenedBy.getD none⟩

/-- Update the rows that satisfy `p`; insert `row` if there is none. -/
def upsert (p : StateRow → Bool) (f : StateRow → StateRow) (row : StateRow) (rows : List StateRow) :
    List StateRow :=
  if rows.any p then rows.map fun r => if p r then f r else r else rows ++ [row]

/-- The upsert on `contact_id`; it looks the conversation up. -/
def syncProjection (contactID : Uuid) (sync : ProjectionSync) : CaseM Unit :=
  modify fun db =>
    let conversationID := db.conversationIDForContact contactID
    { db with
      states := upsert (fun r => r.contactID = some contactID)
        (fun r => { sync.update r with conversationID := conversationID })
        (sync.insert (some contactID) conversationID) db.states }

/-- The update by `conversation_id`; it writes the contact it is given. -/
def syncConversationProjection (conversationID : Uuid) (contactID : Option Uuid) (sync : ProjectionSync) :
    CaseM Unit :=
  modify fun db =>
    { db with
      states := upsert (fun r => r.conversationID = some conversationID)
        (fun r => { sync.update r with contactID := contactID })
        (sync.insert contactID (some conversationID)) db.states }

def lockContact (contactID : Uuid) : CaseM Unit := do
  if contactID ∈ (← get).contacts then pure () else throw (.notFound "Contact")

def lockConversation (conversationID : Uuid) : CaseM Unit := do
  if conversationID ∈ (← get).conversations.map (·.id) then pure () else throw (.notFound "Conversation")

inductive Arbiter
  | contact
  | conversation
  deriving DecidableEq

/-- `INSERT … ON CONFLICT (…) WHERE status IN ('open', 'pending') DO NOTHING`; the other partial index
rejects the row. -/
def insertCase (arbiter : Arbiter) (row : Case) : CaseM (Option Case) := do
  let db ← get
  let onContact := row.contactID.isSome &&
    db.cases.any fun c => c.status.active && decide (c.contactID = row.contactID)
  let onConversation := row.conversationID.isSome &&
    db.cases.any fun c => c.status.active && decide (c.conversationID = row.conversationID)
  match arbiter, onContact, onConversation with
  | .contact, true, _ => pure none
  | .conversation, _, true => pure none
  | .contact, false, true => throw (.constraint "conversation_cases (conversation_id)")
  | .conversation, true, false => throw (.constraint "conversation_cases (contact_id)")
  | _, false, false => do
    set { db with cases := row :: db.cases }
    pure (some row)

/-- `UPDATE conversation_cases SET … WHERE p RETURNING *`, the first row of it. -/
def updateCases (p : Case → Bool) (f : Case → Case) : CaseM (Option Case) := do
  let db ← get
  set { db with cases := db.cases.map fun c => if p c then f c else c }
  pure ((db.cases.find? p).map f)

/-- `messages.case_id` of the message that opened or continued a case. -/
def stampMessage (messageID caseID : Uuid) : CaseM Unit :=
  modify fun db =>
    { db with
      messages := db.messages.map fun m =>
        if m.id = messageID then { m with caseID := some caseID } else m }

/-! ### The two families -/

structure Family where
  id : Uuid
  lock : CaseM Unit
  /-- `contact_id` and `conversation_id` of a new case -/
  keys : CaseDb → Option Uuid × Option Uuid
  arbiter : Arbiter
  assignment : CaseDb → Option Assignment
  /-- The assignments an automatic reopen closes. -/
  assigned : Assignment → Bool
  projected : StateRow → Bool
  owns : Case → Bool
  sync : ProjectionSync → CaseM Unit

def contactFamily (contactID : Uuid) : Family where
  id := contactID
  lock := lockContact contactID
  keys db := (some contactID, db.conversationIDForContact contactID)
  arbiter := .contact
  assignment db := db.getCurrentAssignment contactID
  assigned a := a.contactID = some contactID ∧ a.unassignedAt = none
  projected r := r.contactID = some contactID
  owns c := c.contactID = some contactID
  sync := syncProjection contactID

def conversationFamily (conversationID : Uuid) (contactID : Option Uuid) : Family where
  id := conversationID
  lock := lockConversation conversationID
  keys _ := (contactID, some conversationID)
  arbiter := .conversation
  assignment db := db.getCurrentConversationAssignment conversationID
  assigned a := a.conversationID = some conversationID ∧ a.unassignedAt = none
  projected r := r.conversationID = some conversationID
  owns c := c.conversationID = some conversationID
  sync := syncConversationProjection conversationID contactID

section Transitions

-- `trim` of the language
variable (trim : String → String)

/-- `assertActorOwnsContact`, `assertActorOwnsConversation`. -/
def assertActorOwns (fam : Family) (actor : Uuid) : CaseM Unit := do
  match fam.assignment (← get) with
  | none => pure ()
  | some a => if a.assignedTo = actor then pure () else throw (.assignedToOther a.assignedTo)

/-- `getCurrentSlaPolicy`. -/
def getCurrentSlaPolicy (supply : Supply) : CaseM SlaPolicy :=
  match supply.policy with
  | some policy => pure policy
  | none => throw (.notFound "SLA policy")

structure ResolveCaseInput where
  outcome : ResolutionOutcome
  notes : Option String
  resolvedBy : Uuid
  deriving DecidableEq

/-- The body of `resolveActiveCase` and `resolveActiveCaseForConversation`. -/
def resolveCase (fam : Family) (supply : Supply) (input : ResolveCaseInput) : CaseM Uuid := do
  let notes := trim (input.notes.getD "")
  if input.outcome = .other ∧ notes = "" then
    throw (.validation "Notes are required when the outcome is 'other'")
  fam.lock
  assertActorOwns fam input.resolvedBy
  match (← get).getActiveCase fam.id with
  | none => throw (.conflict "This conversation has no active case to resolve")
  | some active =>
    if input.outcome = .handled ∧ hasUnansweredLatestTurn (← get).messages active.id then
      throw (.validation ("'handled' requires a team reply to the latest inbound message - choose " ++
        "no_reply_needed, spam, or duplicate, or 'other' with notes"))
    match ← updateCases (fun c => decide (c.id = active.id) && c.status.active) ({ · with
        status := .resolved
        resolvedAt := some supply.now
        resolvedBy := some input.resolvedBy
        resolutionOutcome := some input.outcome
        resolutionNotes := if notes = "" then none else some notes }) with
    | none =>
      throw (.conflict "This conversation's active case changed before the resolve could be applied")
    | some row =>
      fam.sync { activeCaseID := none, status := .resolved, resolvedAt := some row.resolvedAt
                 resolvedBy := some row.resolvedBy, resolutionNotes := some row.resolutionNotes }
      pure row.id

/-- The body of the pending and resume transitions: flip the active case from one status to the other,
or find it there. -/
def flipCase (fam : Family) (actor : Uuid) (source target : CaseStatus) (changed missing : String) :
    CaseM Uuid := do
  fam.lock
  assertActorOwns fam actor
  match ← updateCases (fun c => fam.owns c && decide (c.status = source)) ({ · with status := target }) with
  | some row => do
    fam.sync { activeCaseID := some row.id, status := target }
    pure row.id
  | none =>
    match (← get).getActiveCase fam.id with
    | some current =>
      if current.status = target then pure current.id
      else throw (.conflict ("This conversation's active case changed before it could be " ++ changed))
    | none => throw (.conflict ("This conversation has no active case to " ++ missing))

inductive OpenMode
  | openFirst
  | reopen
  deriving DecidableEq

structure ManualOpenCaseInput where
  isGroup : Bool
  openedBy : Uuid
  reason : Option String
  expectedMode : OpenMode
  deriving DecidableEq

def newCase (fam : Family) (db : CaseDb) (supply : Supply) (policy : SlaPolicy) (kind : CaseKind)
    (source : OpenSource) (openedBy openingMessageID : Option Uuid) (prior : Option Case)
    (reason : Option String) : Case where
  id := supply.caseID
  contactID := (fam.keys db).1
  conversationID := (fam.keys db).2
  kind := kind
  status := .opened
  openedAt := supply.now
  openingMessageID := openingMessageID
  openSource := source
  openedBy := openedBy
  policyID := policy.id
  responseTargetMinutes := (resolveCaseTargets policy kind).1
  resolutionTargetMinutes := (resolveCaseTargets policy kind).2
  reopenedFromCaseID := prior.map (·.id)
  reopenReason := reason
  resolvedAt := none
  resolvedBy := none
  resolutionOutcome := none
  resolutionNotes := none
  createdAt := supply.createdAt

def openedSync (row : Case) (reopened : Option (ℕ × Option Uuid)) : ProjectionSync where
  activeCaseID := some row.id
  status := .opened
  resolvedAt := some none
  resolvedBy := some none
  resolutionNotes := some none
  reopenedAt := reopened.map fun r => some r.1
  reopenedBy := reopened.map fun r => r.2

/-- The body of `openCaseWithin` and `reopenAsNewCaseForConversation`. -/
def openCase (fam : Family) (supply : Supply) (input : ManualOpenCaseInput) : CaseM Uuid := do
  fam.lock
  assertActorOwns fam input.openedBy
  let db ← get
  let prior := db.getMostRecentCase fam.id
  let reason := trim (input.reason.getD "")
  if input.expectedMode = .openFirst ∧ prior.isSome then
    throw (.conflict "This conversation already has prior case history - use Reopen instead of Open")
  if input.expectedMode = .reopen ∧ prior.isNone then
    throw (.conflict "This conversation has no prior case history - use Open instead of Reopen")
  if prior.isSome ∧ reason = "" then
    throw (.validation "A reason is required to reopen a previously-closed conversation")
  let policy ← getCurrentSlaPolicy supply
  match ← insertCase fam.arbiter (newCase fam db supply policy
      (if input.isGroup then .group else .direct) .manual (some input.openedBy) none prior
      (if reason = "" then none else some reason)) with
  | none => throw (.conflict "This conversation already has an active case")
  | some row =>
    fam.sync (openedSync row (prior.map fun _ => (row.openedAt, some input.openedBy)))
    pure row.id

/-- `resolveActiveCaseIdForContact`, then `openCaseWithin` in the mode the history asks for. -/
def ensureActiveCaseWithin (contactID : Uuid) (supply : Supply) (isGroup : Bool) (openedBy : Uuid)
    (reason : String) : CaseM Uuid := do
  lockContact contactID
  match (← get).cases.find? fun c => decide (c.contactID = some contactID) && c.status.active with
  | some active => pure active.id
  | none =>
    let prior := (← get).getMostRecentCase contactID
    openCase trim (contactFamily contactID) supply
      ⟨isGroup, openedBy, if prior.isSome then some reason else none,
        if prior.isSome then .reopen else .openFirst⟩

/-- What the inbound transitions return: the case, whether it was reopened, who lost the assignment. -/
structure InboundResult where
  caseID : Uuid
  wasAutoReopen : Bool
  unassignedPreviousAssignee : Option Uuid
  deriving DecidableEq

/-- Close the current assignments of the family. -/
def unassign (fam : Family) (now : ℕ) : CaseM (Option Uuid) := do
  match fam.assignment (← get) with
  | none => pure none
  | some a => do
    modify fun db =>
      { db with
        assignments := db.assignments.map fun a =>
          if fam.assigned a then { a with unassignedAt := some now } else a }
    pure (some a.assignedTo)

/-- The body of the two inbound transitions; `active` and `prior` are the family's reads. -/
def openOrReopen (fam : Family) (active prior : CaseDb → Option Case) (supply : Supply) (isGroup : Bool)
    (messageID : Uuid) : CaseM (Option InboundResult) := do
  fam.lock
  let db ← get
  let policy ← getCurrentSlaPolicy supply
  -- the projection, not the history, says whether this is a reopen
  let isReopen := (db.states.find? fam.projected).any fun r => decide (r.status = .resolved)
  let priorCase := if isReopen then prior db else none
  match ← insertCase fam.arbiter (newCase fam db supply policy (if isGroup then .group else .direct)
      .liveInbound none (some messageID) priorCase none) with
  | some row => do
    let previous ← if isReopen then unassign fam supply.now else pure none
    fam.sync (openedSync row (if isReopen then some (supply.now, none) else none))
    stampMessage messageID row.id
    pure (some ⟨row.id, isReopen, previous⟩)
  | none =>
    match active (← get) with
    | none => pure none
    | some current =>
      let updated ← if current.status = .pending then
          updateCases (fun c => decide (c.id = current.id) && decide (c.status = .pending))
            ({ · with status := .opened })
        else pure none
      match updated with
      | some _ => do
        fam.sync { activeCaseID := some current.id, status := .opened }
        stampMessage messageID current.id
        pure (some ⟨current.id, false, none⟩)
      | none => do
        fam.sync { activeCaseID := some current.id, status := current.status }
        stampMessage messageID current.id
        pure none

/-! ### The entry points -/

def openOrReopenCaseForInboundMessage (contactID : Uuid) (supply : Supply) (isGroup : Bool)
    (messageID : Uuid) : CaseM (Option InboundResult) :=
  openOrReopen (contactFamily contactID) (·.getActiveCase contactID) (·.getMostRecentCase contactID)
    supply isGroup messageID

def resolveActiveCase (contactID : Uuid) (supply : Supply) (input : ResolveCaseInput) : CaseM Uuid :=
  resolveCase trim (contactFamily contactID) supply input

def setActiveCasePending (contactID actor : Uuid) : CaseM Uuid :=
  flipCase (contactFamily contactID) actor .opened .pending "marked pending" "mark pending"

def resumePendingCase (contactID actor : Uuid) : CaseM Uuid :=
  flipCase (contactFamily contactID) actor .pending .opened "resumed" "resume"

def openCaseWithin (contactID : Uuid) (supply : Supply) (input : ManualOpenCaseInput) : CaseM Uuid :=
  openCase trim (contactFamily contactID) supply input

/-- Its reads are by `conversation_id` alone. -/
def openOrReopenCaseForInboundConversation (conversationID : Uuid) (contactID : Option Uuid)
    (supply : Supply) (isGroup : Bool) (messageID : Uuid) : CaseM (Option InboundResult) :=
  openOrReopen (conversationFamily conversationID contactID)
    (fun db => db.cases.find? fun c => decide (c.conversationID = some conversationID) && c.status.active)
    (fun db => mostRecent (db.cases.filter (·.conversationID = some conversationID)))
    supply isGroup messageID

def resolveActiveCaseForConversation (conversationID : Uuid) (supply : Supply) (input : ResolveCaseInput) :
    CaseM Uuid :=
  resolveCase trim (conversationFamily conversationID none) supply input

def setActiveCasePendingForConversation (conversationID actor : Uuid) : CaseM Uuid :=
  flipCase (conversationFamily conversationID none) actor .opened .pending "marked pending" "mark pending"

def resumePendingCaseForConversation (conversationID actor : Uuid) : CaseM Uuid :=
  flipCase (conversationFamily conversationID none) actor .pending .opened "resumed" "resume"

def reopenAsNewCaseForConversation (conversationID : Uuid) (supply : Supply) (input : ManualOpenCaseInput) :
    CaseM Uuid :=
  openCase trim (conversationFamily conversationID none) supply input

end Transitions

/-! ### Runs -/

inductive CaseAction
  | inboundMessage (contactID : Uuid) (supply : Supply) (isGroup : Bool) (messageID : Uuid)
  | resolve (contactID : Uuid) (supply : Supply) (input : ResolveCaseInput)
  | setPending (contactID actor : Uuid)
  | resume (contactID actor : Uuid)
  | openCase (contactID : Uuid) (supply : Supply) (input : ManualOpenCaseInput)
  | ensureActive (contactID : Uuid) (supply : Supply) (isGroup : Bool) (openedBy : Uuid) (reason : String)
  | inboundConversation (conversationID : Uuid) (contactID : Option Uuid) (supply : Supply)
      (isGroup : Bool) (messageID : Uuid)
  | resolveConversation (conversationID : Uuid) (supply : Supply) (input : ResolveCaseInput)
  | setPendingConversation (conversationID actor : Uuid)
  | resumeConversation (conversationID actor : Uuid)
  | reopenConversation (conversationID : Uuid) (supply : Supply) (input : ManualOpenCaseInput)
  /-- What other routes write: messages and assignments. -/
  | elsewhere (messages : List Message) (assignments : List Assignment)
  deriving DecidableEq

def transact {α : Type} (m : CaseM α) (db : CaseDb) : Except CaseError Unit × CaseDb :=
  match m.run db with
  | (.ok _, db') => (.ok (), db')
  | (.error e, _) => (.error e, db)

def perform (trim : String → String) (a : CaseAction) (db : CaseDb) : Except CaseError Unit × CaseDb :=
  match a with
  | .inboundMessage c supply isGroup m =>
    transact (openOrReopenCaseForInboundMessage c supply isGroup m) db
  | .resolve c supply input => transact (resolveActiveCase trim c supply input) db
  | .setPending c actor => transact (setActiveCasePending c actor) db
  | .resume c actor => transact (resumePendingCase c actor) db
  | .openCase c supply input => transact (openCaseWithin trim c supply input) db
  | .ensureActive c supply isGroup openedBy reason =>
    transact (ensureActiveCaseWithin trim c supply isGroup openedBy reason) db
  | .inboundConversation v c supply isGroup m =>
    transact (openOrReopenCaseForInboundConversation v c supply isGroup m) db
  | .resolveConversation v supply input =>
    transact (resolveActiveCaseForConversation trim v supply input) db
  | .setPendingConversation v actor => transact (setActiveCasePendingForConversation v actor) db
  | .resumeConversation v actor => transact (resumePendingCaseForConversation v actor) db
  | .reopenConversation v supply input => transact (reopenAsNewCaseForConversation trim v supply input) db
  | .elsewhere messages assignments =>
    (.ok (), { db with messages := messages, assignments := assignments })

/-- The defaults of the row a transition would insert. -/
def CaseAction.supply? : CaseAction → Option Supply
  | .inboundMessage _ supply _ _ | .openCase _ supply _ | .ensureActive _ supply _ _ _
  | .inboundConversation _ _ supply _ _ | .reopenConversation _ supply _ => some supply
  | _ => none

/-- A transition; the identifier of a new case is fresh. -/
def caseStep (trim : String → String) (db : CaseDb) (a : CaseAction) : Option CaseDb :=
  if ∀ supply ∈ a.supply?, ∀ c ∈ db.cases, c.id ≠ supply.caseID then some (perform trim a db).2
  else none

end TeamInbox.Cases
