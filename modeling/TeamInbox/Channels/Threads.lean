import TeamInbox.Cases.Lifecycle
import TeamInbox.Lib.Indexed
import TeamInbox.Messages.Handlers

/-!
# TeamInbox.Channels.Threads — a message of a channel reaches its thread

`applyMessageUpsert` is one transaction: it finds or creates the conversation and the endpoint of the sender, ties the
thread to a customer, stores the message and brings the workflow rows of the thread up to date.  The tables of the
workflow carry their unique indexes, on the contact and on the conversation; a statement that breaks one of them ends
the transaction.
-/

namespace TeamInbox.Channels

open TeamInbox.Lib
open TeamInbox.Cases (Uuid Case CaseKind CaseStatus Assignment StateRow ProjectionSync SlaPolicy resolveCaseTargets
  mostRecent openedSync)
open TeamInbox.Messages (givenId)

/-! ### Rows -/

inductive ThreadKind
  | direct
  | group
  | thread
  deriving DecidableEq

/-- A row of `conversations`. -/
structure SpineConversation where
  id : Uuid
  channelAccountID : Uuid
  clientThreadKey : String
  kind : ThreadKind
  subject : Option String
  legacyContactID : Option Uuid
  firstMessageAt : Option ℕ
  lastMessageAt : Option ℕ
  deriving DecidableEq

/-- A row of `contact_endpoints`. -/
structure SpineEndpoint where
  id : Uuid
  contactID : Option Uuid
  channel : String
  provider : String
  channelAccountID : Uuid
  identityScope : String
  externalID : String
  endpointKind : String
  normalizedAddress : Option String
  addressDisplay : Option String
  displayName : Option String
  deriving DecidableEq

/-- A row of `conversation_participants`. -/
structure SpineParticipant where
  conversationID : Uuid
  contactEndpointID : Option Uuid
  external : Bool
  role : String
  isSelf : Bool
  leftAt : Option ℕ
  deriving DecidableEq

/-- A row of `contacts` as `attachWorkflowContact` inserts it. -/
structure SpineContact where
  id : Uuid
  pushName : Option String
  username : Option String
  displayName : Option String
  deriving DecidableEq

/-- A row of `messages`. -/
structure SpineMessage where
  id : Uuid
  contactID : Option Uuid
  conversationID : Uuid
  channelAccountID : Uuid
  externalIdentityScope : String
  externalMessageID : String
  fromMe : Bool
  textContent : Option String
  providerOccurredAt : Option ℕ
  caseID : Option Uuid
  deriving DecidableEq

/-- A row of `conversation_states`. -/
structure ThreadState extends StateRow where
  unreadCount : ℕ
  lastMessageAt : Option ℕ
  lastMessagePreview : Option String
  deriving DecidableEq

/-! ### Tables -/

def conversationIndexes : List (SpineConversation → Option Uuid) := [fun v => some v.id, fun v => v.legacyContactID]

def endpointIndexes : List (SpineEndpoint → Option Uuid) := [fun f => some f.id]

def stateIndexes : List (ThreadState → Option Uuid) := [fun r => r.contactID, fun r => r.conversationID]

/-- `ca_active_uidx`. -/
def currentContact (a : Assignment) : Option Uuid := if a.unassignedAt.isNone then a.contactID else none

/-- `ca_conversation_uidx`. -/
def currentConversation (a : Assignment) : Option Uuid := if a.unassignedAt.isNone then a.conversationID else none

def assignmentIndexes : List (Assignment → Option Uuid) := [currentContact, currentConversation]

/-- `cc_active_uidx`. -/
def activeContact (c : Case) : Option Uuid := if c.status.active then c.contactID else none

/-- `cc_conversation_uidx`. -/
def activeConversation (c : Case) : Option Uuid := if c.status.active then c.conversationID else none

def caseIndexes : List (Case → Option Uuid) := [fun c => some c.id, activeContact, activeConversation]

structure SpineDb where
  contacts : List SpineContact
  conversations : Indexed conversationIndexes
  endpoints : Indexed endpointIndexes
  participants : List SpineParticipant
  states : Indexed stateIndexes
  assignments : Indexed assignmentIndexes
  cases : Indexed caseIndexes
  messages : List SpineMessage

def SpineDb.empty : SpineDb := ⟨[], .empty, .empty, [], .empty, .empty, .empty, []⟩

/-- `gen_random_uuid` -/
structure UuidSource where
  draw : List Uuid → Uuid
  fresh : ∀ used, draw used ∉ used

structure Occasion where
  now : ℕ
  policy : SlaPolicy
  uuids : UuidSource
  /-- `slice(0, 100)` -/
  slice : String → String

/-! ### Events -/

structure ConversationReference where
  clientThreadKey : String
  kind : ThreadKind
  subject : Option String
  deriving DecidableEq

structure EndpointReference where
  externalID : String
  identityScope : String
  endpointKind : String
  normalizedAddress : Option String
  addressDisplay : Option String
  displayName : Option String
  deriving DecidableEq

structure MessageUpsert where
  channelAccountID : Uuid
  channel : String
  provider : String
  occurredAt : ℕ
  conversation : ConversationReference
  sender : Option EndpointReference
  inbound : Bool
  externalMessageID : String
  externalIdentityScope : String
  textContent : Option String
  deriving DecidableEq

/-! ### The thread and the sender -/

def SpineDb.thread (db : SpineDb) (e : MessageUpsert) : Option SpineConversation :=
  db.conversations.rows.find? fun v =>
    v.channelAccountID = e.channelAccountID ∧ v.clientThreadKey = e.conversation.clientThreadKey

def SpineDb.conversationIDs (db : SpineDb) : List Uuid :=
  db.conversations.rows.map (·.id) ++ db.states.rows.filterMap (·.conversationID) ++
    db.assignments.rows.filterMap (·.conversationID) ++ db.cases.rows.filterMap (·.conversationID)

def SpineConversation.refer (reference : ConversationReference) (v : SpineConversation) : SpineConversation :=
  { v with
    kind := reference.kind
    subject := reference.subject }

theorem keeps_refer (p : SpineConversation → Bool) (reference : ConversationReference) :
    Indexed.Keeps conversationIndexes p (SpineConversation.refer reference) := by
  intro key hkey v _
  rcases List.mem_cons.mp hkey with rfl | hkey
  · exact .inl rfl
  · obtain rfl := List.mem_singleton.mp hkey
    exact .inl rfl

def newConversation (o : Occasion) (e : MessageUpsert) (db : SpineDb) : SpineConversation :=
  ⟨o.uuids.draw db.conversationIDs, e.channelAccountID, e.conversation.clientThreadKey, e.conversation.kind,
    e.conversation.subject, none, none, none⟩

def ensureConversation (o : Occasion) (e : MessageUpsert) (db : SpineDb) : Option (Uuid × SpineDb) :=
  match db.thread e with
  | some existing =>
    some (existing.id, { db with
      conversations := db.conversations.set (fun v => v.id = existing.id) (SpineConversation.refer e.conversation)
        (keeps_refer _ _) })
  | none =>
    (db.conversations.insert (newConversation o e db)).map fun conversations =>
      ((newConversation o e db).id, { db with conversations := conversations })

def SpineDb.endpoint (db : SpineDb) (e : MessageUpsert) (sender : EndpointReference) : Option SpineEndpoint :=
  db.endpoints.rows.find? fun f =>
    f.channel = e.channel ∧ f.provider = e.provider ∧ f.channelAccountID = e.channelAccountID ∧
      f.identityScope = sender.identityScope ∧ f.externalID = sender.externalID

def SpineEndpoint.refer (sender : EndpointReference) (f : SpineEndpoint) : SpineEndpoint :=
  { f with
    endpointKind := sender.endpointKind
    normalizedAddress := sender.normalizedAddress
    addressDisplay := sender.addressDisplay
    displayName := sender.displayName }

theorem keeps_endpoint (p : SpineEndpoint → Bool) {f : SpineEndpoint → SpineEndpoint} (h : ∀ e, (f e).id = e.id) :
    Indexed.Keeps endpointIndexes p f := by
  intro key hkey e _
  obtain rfl := List.mem_singleton.mp hkey
  exact .inl (congrArg some (h e))

def ensureEndpoint (o : Occasion) (e : MessageUpsert) (sender : EndpointReference) (db : SpineDb) :
    Option (Uuid × SpineDb) :=
  match db.endpoint e sender with
  | some existing =>
    some (existing.id, { db with
      endpoints := db.endpoints.set (fun f => f.id = existing.id) (SpineEndpoint.refer sender)
        (keeps_endpoint _ fun _ => rfl) })
  | none =>
    let id := o.uuids.draw (db.endpoints.rows.map (·.id))
    (db.endpoints.insert ⟨id, none, e.channel, e.provider, e.channelAccountID, sender.identityScope, sender.externalID,
      sender.endpointKind, sender.normalizedAddress, sender.addressDisplay, sender.displayName⟩).map fun endpoints =>
        (id, { db with endpoints := endpoints })

def ensureParticipant (conversationID endpointID : Uuid) (sender : EndpointReference) (db : SpineDb) : SpineDb :=
  if db.participants.any fun q =>
      decide (q.conversationID = conversationID) && decide (q.contactEndpointID = some endpointID) && q.leftAt.isNone then
    db
  else { db with participants := ⟨conversationID, some endpointID, true, sender.endpointKind, false, none⟩ :: db.participants }

/-! ### The customer -/

def customerEndpointKinds : List String := ["person", "user", "phone", "email"]

def SpineEndpoint.isCustomer (f : SpineEndpoint) : Bool := customerEndpointKinds.contains f.endpointKind

/-- The sender, or else the external participants. -/
def workflowCandidates (conversationID : Uuid) (candidateEndpointID : Option Uuid) (db : SpineDb) : List SpineEndpoint :=
  match candidateEndpointID with
  | some id => (db.endpoints.rows.find? (·.id = id)).toList
  | none =>
    (db.participants.filter fun q =>
      decide (q.conversationID = conversationID) && q.external && !q.isSelf && q.leftAt.isNone).filterMap fun q =>
        db.endpoints.rows.find? fun f => some f.id = q.contactEndpointID

def claimEndpoint (o : Occasion) (endpoint : SpineEndpoint) (db : SpineDb) : Uuid × SpineDb :=
  match endpoint.contactID with
  | some contact => (contact, db)
  | none =>
    let contact := o.uuids.draw (db.contacts.map (·.id))
    (contact, { db with
      contacts := ⟨contact, endpoint.displayName.or endpoint.addressDisplay, endpoint.normalizedAddress,
        endpoint.displayName⟩ :: db.contacts
      endpoints := db.endpoints.set (fun f => f.id = endpoint.id) ({ · with contactID := some contact })
        (keeps_endpoint _ fun _ => rfl) })

def unlinked (conversationID : Uuid) (v : SpineConversation) : Bool :=
  decide (v.id = conversationID) && v.legacyContactID.isNone

def SpineConversation.link (contact : Uuid) (v : SpineConversation) : SpineConversation :=
  { v with legacyContactID := some contact }

/-- The first thread of the contact is named by it. -/
def linkThread (conversationID contact : Uuid) (db : SpineDb) : Option SpineDb :=
  if db.conversations.rows.any fun v => decide (v.legacyContactID = some contact) then some db
  else
    (db.conversations.update (unlinked conversationID) (SpineConversation.link contact)).map fun conversations =>
      { db with conversations := conversations }

def unclaimed (conversationID : Uuid) (rowContact rowConversation : Option Uuid) : Bool :=
  decide (rowConversation = some conversationID) && rowContact.isNone

def unclaimedState (conversationID : Uuid) (r : ThreadState) : Bool :=
  unclaimed conversationID r.contactID r.conversationID

def unclaimedAssignment (conversationID : Uuid) (a : Assignment) : Bool :=
  unclaimed conversationID a.contactID a.conversationID

def unclaimedCase (conversationID : Uuid) (c : Case) : Bool := unclaimed conversationID c.contactID c.conversationID

def claimState (contact : Uuid) (r : ThreadState) : ThreadState := { r with contactID := some contact }

def claimAssignment (contact : Uuid) (a : Assignment) : Assignment := { a with contactID := some contact }

def claimCase (contact : Uuid) (c : Case) : Case := { c with contactID := some contact }

def backfillContact (conversationID contact : Uuid) (db : SpineDb) : Option SpineDb :=
  (db.states.update (unclaimedState conversationID) (claimState contact)).bind fun states =>
  (db.assignments.update (unclaimedAssignment conversationID) (claimAssignment contact)).bind fun assignments =>
  (db.cases.update (unclaimedCase conversationID) (claimCase contact)).map fun cases =>
  { db with
    states := states
    assignments := assignments
    cases := cases }

def attachWorkflowContact (o : Occasion) (conversationID : Uuid) (candidateEndpointID : Option Uuid) (db : SpineDb) :
    Option (Option Uuid × SpineDb) :=
  (db.conversations.rows.find? (·.id = conversationID)).bind fun conversation =>
  match conversation.legacyContactID with
  | some contact => some (some contact, db)
  | none =>
    if conversation.kind ≠ .direct then some (none, db)
    else
      match (workflowCandidates conversationID candidateEndpointID db).filter (·.isCustomer) with
      | [endpoint] =>
        let (contact, db) := claimEndpoint o endpoint db
        ((linkThread conversationID contact db).bind (backfillContact conversationID contact)).map fun db =>
          (some contact, db)
      | _ => some (none, db)

/-! ### The workflow -/

def ThreadState.isOf (conversationID : Uuid) (r : ThreadState) : Bool := decide (r.conversationID = some conversationID)

def ThreadState.project (contactID : Option Uuid) (sync : ProjectionSync) (r : ThreadState) : ThreadState :=
  { r with toStateRow := { sync.update r.toStateRow with contactID := contactID } }

def syncConversationProjection (conversationID : Uuid) (contactID : Option Uuid) (sync : ProjectionSync) (db : SpineDb) :
    Option SpineDb :=
  let states :=
    if db.states.rows.any (ThreadState.isOf conversationID) then
      db.states.update (ThreadState.isOf conversationID) (ThreadState.project contactID sync)
    else db.states.insert ⟨sync.insert contactID (some conversationID), 0, none, none⟩
  states.map fun states => { db with states := states }

def currentAssignment (conversationID : Uuid) (a : Assignment) : Bool :=
  decide (a.conversationID = some conversationID) && a.unassignedAt.isNone

def unassigned (now : ℕ) (a : Assignment) : Assignment := { a with unassignedAt := some now }

theorem keeps_unassigned (p : Assignment → Bool) (now : ℕ) :
    Indexed.Keeps assignmentIndexes p (unassigned now) := by
  intro key hkey a _
  rcases List.mem_cons.mp hkey with rfl | hkey
  · exact .inr (if_neg nofun)
  · obtain rfl := List.mem_singleton.mp hkey
    exact .inr (if_neg nofun)

def unassignConversation (now : ℕ) (conversationID : Uuid) (db : SpineDb) : SpineDb :=
  { db with
    assignments := db.assignments.set (currentAssignment conversationID) (unassigned now) (keeps_unassigned _ _) }

def pendingCase (id : Uuid) (c : Case) : Bool := decide (c.id = id) && decide (c.status = .pending)

def openedCase (c : Case) : Case := { c with status := .opened }

theorem keeps_opened (id : Uuid) : Indexed.Keeps caseIndexes (pendingCase id) openedCase := by
  intro key hkey c hc
  have hpending : c.status = .pending := of_decide_eq_true (Bool.and_eq_true_iff.mp hc).2
  rcases List.mem_cons.mp hkey with rfl | hkey
  · exact .inl rfl
  · rcases List.mem_cons.mp hkey with rfl | hkey
    · refine .inl ?_
      simp [activeContact, openedCase, CaseStatus.active, hpending]
    · obtain rfl := List.mem_singleton.mp hkey
      refine .inl ?_
      simp [activeConversation, openedCase, CaseStatus.active, hpending]

def stampMessage (messageID caseID : Uuid) (db : SpineDb) : SpineDb :=
  { db with
    messages := db.messages.map fun m => if m.id = messageID then { m with caseID := some caseID } else m }

def inboundCase (o : Occasion) (conversationID : Uuid) (contactID : Option Uuid) (kind : CaseKind) (messageID : Uuid)
    (prior : Option Case) (db : SpineDb) : Case where
  id := o.uuids.draw (db.cases.rows.map (·.id))
  contactID := contactID
  conversationID := some conversationID
  kind := kind
  status := .opened
  openedAt := o.now
  openingMessageID := some messageID
  openSource := .liveInbound
  openedBy := none
  policyID := o.policy.id
  responseTargetMinutes := (resolveCaseTargets o.policy kind).1
  resolutionTargetMinutes := (resolveCaseTargets o.policy kind).2
  reopenedFromCaseID := prior.map (·.id)
  reopenReason := none
  resolvedAt := none
  resolvedBy := none
  resolutionOutcome := none
  resolutionNotes := none
  createdAt := o.now

/-- The conversation has an active case already. -/
def continueCase (conversationID : Uuid) (contactID : Option Uuid) (messageID : Uuid) (db : SpineDb) : Option SpineDb :=
  match db.cases.rows.find? fun c => decide (c.conversationID = some conversationID) && c.status.active with
  | none => some db
  | some active =>
    if active.status = .pending then
      (syncConversationProjection conversationID contactID { activeCaseID := some active.id, status := .opened }
        { db with
          cases := db.cases.set (pendingCase active.id) openedCase (keeps_opened _) }).map (stampMessage messageID active.id)
    else
      (syncConversationProjection conversationID contactID { activeCaseID := some active.id, status := active.status }
        db).map (stampMessage messageID active.id)

/-- The projection says that the conversation has been resolved. -/
def isReopen (conversationID : Uuid) (db : SpineDb) : Bool :=
  (db.states.rows.find? (ThreadState.isOf conversationID)).any fun r => decide (r.status = .resolved)

def priorCase (conversationID : Uuid) (db : SpineDb) : Option Case :=
  if isReopen conversationID db then mostRecent (db.cases.rows.filter (·.conversationID = some conversationID)) else none

def caseKind (isGroup : Bool) : CaseKind := if isGroup then .group else .direct

def startCase (o : Occasion) (conversationID : Uuid) (contactID : Option Uuid) (messageID : Uuid) (reopened : Bool)
    (row : Case) (db : SpineDb) : Option SpineDb :=
  (syncConversationProjection conversationID contactID (openedSync row (if reopened then some (o.now, none) else none))
    (if reopened then unassignConversation o.now conversationID db else db)).map (stampMessage messageID row.id)

def openOrReopenCaseForInboundConversation (o : Occasion) (conversationID : Uuid) (contactID : Option Uuid)
    (isGroup : Bool) (messageID : Uuid) (db : SpineDb) : Option SpineDb :=
  let row := inboundCase o conversationID contactID (caseKind isGroup) messageID (priorCase conversationID db) db
  (db.cases.insertUnless activeConversation row).bind fun (cases, inserted) =>
    if inserted then
      startCase o conversationID contactID messageID (isReopen conversationID db) row { db with cases := cases }
    else continueCase conversationID contactID messageID db

def ThreadState.count (e : MessageUpsert) (preview : Option String) (r : ThreadState) : ThreadState :=
  { r with
    unreadCount := r.unreadCount + 1
    lastMessageAt := some e.occurredAt
    lastMessagePreview := preview }

theorem keeps_count (p : ThreadState → Bool) (e : MessageUpsert) (preview : Option String) :
    Indexed.Keeps stateIndexes p (ThreadState.count e preview) := by
  intro key hkey r _
  rcases List.mem_cons.mp hkey with rfl | hkey
  · exact .inl rfl
  · obtain rfl := List.mem_singleton.mp hkey
    exact .inl rfl

def countUnread (o : Occasion) (e : MessageUpsert) (conversationID : Uuid) (contactID : Option Uuid) (db : SpineDb) :
    Option SpineDb :=
  let preview := givenId (some (o.slice (e.textContent.getD "")))
  if db.states.rows.any (ThreadState.isOf conversationID) then
    some { db with
      states := db.states.set (ThreadState.isOf conversationID) (ThreadState.count e preview) (keeps_count _ _ _) }
  else
    (db.states.insert ⟨⟨contactID, some conversationID, none, .opened, none, none, none, none, none⟩, 1,
      some e.occurredAt, preview⟩).map fun states => { db with states := states }

/-! ### The message -/

def SpineDb.stored (db : SpineDb) (e : MessageUpsert) : Option SpineMessage :=
  db.messages.find? fun m =>
    m.channelAccountID = e.channelAccountID ∧ m.externalIdentityScope = e.externalIdentityScope ∧
      m.externalMessageID = e.externalMessageID

def ensureSender (o : Occasion) (e : MessageUpsert) (db : SpineDb) : Option (Option Uuid × SpineDb) :=
  match e.sender with
  | none => some (none, db)
  | some sender => (ensureEndpoint o e sender db).map fun r => (some r.1, r.2)

def nameSender (e : MessageUpsert) (conversationID : Uuid) (senderEndpointID : Option Uuid) (db : SpineDb) : SpineDb :=
  match senderEndpointID, e.sender with
  | some endpointID, some sender => ensureParticipant conversationID endpointID sender db
  | _, _ => db

def SpineConversation.touch (occurredAt : ℕ) (v : SpineConversation) : SpineConversation :=
  { v with
    firstMessageAt := some (min (v.firstMessageAt.getD occurredAt) occurredAt)
    lastMessageAt := some (max (v.lastMessageAt.getD occurredAt) occurredAt) }

theorem keeps_touch (p : SpineConversation → Bool) (occurredAt : ℕ) :
    Indexed.Keeps conversationIndexes p (SpineConversation.touch occurredAt) := by
  intro key hkey v _
  rcases List.mem_cons.mp hkey with rfl | hkey
  · exact .inl rfl
  · obtain rfl := List.mem_singleton.mp hkey
    exact .inl rfl

def touchConversation (e : MessageUpsert) (conversationID : Uuid) (db : SpineDb) : SpineDb :=
  { db with
    conversations := db.conversations.set (fun v => v.id = conversationID) (SpineConversation.touch e.occurredAt)
      (keeps_touch _ _) }

def rewriteMessage (e : MessageUpsert) (conversationID : Uuid) (stored : SpineMessage) (db : SpineDb) : SpineDb :=
  { db with
    messages := db.messages.map fun m =>
      if m.id = stored.id then
        { m with
          conversationID := conversationID
          textContent := e.textContent
          providerOccurredAt := some e.occurredAt }
      else m }

def insertMessage (o : Occasion) (e : MessageUpsert) (conversationID : Uuid) (contactID : Option Uuid) (db : SpineDb) :
    Uuid × SpineDb :=
  let id := o.uuids.draw (db.messages.map (·.id))
  (id, { db with
    messages := ⟨id, contactID, conversationID, e.channelAccountID, e.externalIdentityScope, e.externalMessageID,
      !e.inbound, e.textContent, some e.occurredAt, none⟩ :: db.messages })

def isGroupThread (conversationID : Uuid) (db : SpineDb) : Bool :=
  (db.conversations.rows.find? (·.id = conversationID)).any fun v => decide (v.kind ≠ .direct)

def recordInbound (o : Occasion) (e : MessageUpsert) (conversationID : Uuid) (contactID : Option Uuid) (messageID : Uuid)
    (db : SpineDb) : Option SpineDb :=
  (openOrReopenCaseForInboundConversation o conversationID contactID (isGroupThread conversationID db) messageID db).bind
    (countUnread o e conversationID contactID)

def storeMessage (o : Occasion) (e : MessageUpsert) (conversationID : Uuid) (senderEndpointID contactID : Option Uuid)
    (db : SpineDb) : Option SpineDb :=
  match db.stored e with
  | some stored =>
    if stored.providerOccurredAt.any fun occurredAt => decide (e.occurredAt < occurredAt) then some db
    else
      some (touchConversation e conversationID
        (nameSender e conversationID senderEndpointID (rewriteMessage e conversationID stored db)))
  | none =>
    let (messageID, db) := insertMessage o e conversationID contactID db
    let db := nameSender e conversationID senderEndpointID db
    (if e.inbound then recordInbound o e conversationID contactID messageID db else some db).map
      (touchConversation e conversationID)

def applyMessageUpsert (o : Occasion) (e : MessageUpsert) (db : SpineDb) : Option SpineDb :=
  (ensureConversation o e db).bind fun (conversationID, db) =>
  (ensureSender o e db).bind fun (senderEndpointID, db) =>
  (attachWorkflowContact o conversationID (if e.inbound then senderEndpointID else none) db).bind fun (contactID, db) =>
  storeMessage o e conversationID senderEndpointID contactID db

end TeamInbox.Channels
