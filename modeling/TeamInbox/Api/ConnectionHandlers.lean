import TeamInbox.Lib.Run
import TeamInbox.Worker.Ledger

/-!
# TeamInbox.Api.ConnectionHandlers — what the API stores for a connection status

`processWhatsAppEvent` resolves the session of a worker event and hands connection statuses to
`handleConnectedEvent` or `handleDisconnectedEvent`.  A handler is a sequence of statements and
transactions on the tenant database; each of them, a broadcast included, may fail, and a handler that
throws leaves what it has written.  Times are supplied by the delivery.
-/

namespace TeamInbox.Api

open TeamInbox.Lib
open TeamInbox.Worker (Fault)

abbrev SessionID := String

abbrev ConnectionID := String

/-! ### Data -/

/-- `WhatsAppConnectionStatus`. -/
inductive ConnectionStatus
  | connected
  | connecting
  | disconnected
  | banned
  | pending
  | error
  deriving DecidableEq

inductive SessionStatus
  | pending
  | connecting
  | connected
  | disconnected
  | ended
  deriving DecidableEq

inductive SyncStatus
  | syncing
  | completed
  | interrupted
  deriving DecidableEq

/-- A row of `whatsapp_connections`. -/
structure Connection where
  id : ConnectionID
  status : ConnectionStatus
  phoneNumber : Option String
  jid : Option String
  connectedAt : Option ℕ
  qrCode : Option String
  archivedAt : Option ℕ
  loggedOutAt : Option ℕ
  syncStatus : Option SyncStatus
  deriving DecidableEq

/-- A row of `whatsapp_connection_sessions`. -/
structure Session where
  id : SessionID
  connectionID : ConnectionID
  status : SessionStatus
  expectedPhoneNumber : Option String
  connectedAt : Option ℕ
  endedAt : Option ℕ
  endReason : Option String
  deriving DecidableEq

/-- A `kill` in the command outbox. -/
structure Kill where
  sessionID : SessionID
  reason : String
  unlink : Bool
  deriving DecidableEq

structure TenantDb where
  connections : List Connection
  sessions : List Session
  kills : List Kill
  deriving DecidableEq

inductive ApiError
  /-- A statement or a broadcast failed. -/
  | failed (what : String)
  | duplicateWhatsAppPhone (existing : ConnectionID) (phone : String)
  | whatsAppIdentityMismatch (expected actual : String)
  | connectionNotFound (id : String)
  /-- `PermanentEventError`. -/
  | permanent (text : String)
  deriving DecidableEq

/-- The `type` of a connection status. -/
inductive StatusType
  | connected
  | paired
  | disconnected
  | loggedOut
  | error
  deriving DecidableEq

/-- The type changes the stored status; an `error` is only shown to the user. -/
def StatusType.stores : StatusType → Bool
  | .error => false
  | _ => true

/-- `ConnectionEvent` with its `ConnectionPayload`. -/
structure ConnectionEvent where
  type : StatusType
  reason : String
  phoneNumber : String
  jid : String
  deriving DecidableEq

/-- What `admitConnectedPhone` answers; an exception is `none`. -/
inductive Admission
  | allowed
  | denied (code message : String) (paymentRequired : Bool)
  deriving DecidableEq

inductive Verdict
  | stored
  /-- `stopPairedSession` refused the pairing. -/
  | refused
  | late
  deriving DecidableEq

/-! ### The tenant database -/

namespace TenantDb

def session? (db : TenantDb) (id : SessionID) : Option Session := db.sessions.find? (·.id = id)

def connection? (db : TenantDb) (id : ConnectionID) : Option Connection :=
  db.connections.find? (·.id = id)

/-- `UPDATE whatsapp_connections SET … WHERE id = …`. -/
def setConnection (db : TenantDb) (id : ConnectionID) (f : Connection → Connection) : TenantDb :=
  { db with connections := db.connections.map fun c => if c.id = id then f c else c }

/-- `UPDATE whatsapp_connection_sessions SET … WHERE id = … AND p`. -/
def setSession (db : TenantDb) (id : SessionID) (p : Session → Bool) (f : Session → Session) : TenantDb :=
  { db with sessions := db.sessions.map fun r => if r.id = id ∧ p r then f r else r }

/-- `updateSessionStatus`. -/
def updateSessionStatus (now : ℕ) (id : SessionID) (status : SessionStatus) (reason : Option String)
    (db : TenantDb) : TenantDb :=
  db.setSession id (fun r => decide (status = .ended) || r.endedAt.isNone) fun r =>
    let r := { r with status := status }
    let r := if status = .connected then
        { r with connectedAt := some now, endedAt := none, endReason := none } else r
    if status = .ended then
      { r with endedAt := some now, endReason := some (reason.getD "session ended") } else r

/-- `PAIRED_SESSION_STOP_POLICIES`. -/
structure StopPolicy where
  unlink : Bool
  endSession : Bool
  archive : Bool
  deriving DecidableEq

def admissionUnavailable : StopPolicy := ⟨false, false, false⟩

def admissionRejected : StopPolicy := ⟨true, true, false⟩

def identityRejected : StopPolicy := ⟨true, true, true⟩

def qrExpired : StopPolicy := ⟨false, true, false⟩

/-- The transaction of `stopPairedSession`. -/
def stopPairedSession (now : ℕ) (sid : SessionID) (cid : ConnectionID) (commandReason : String)
    (policy : StopPolicy) (db : TenantDb) : TenantDb :=
  let db := { db with kills := ⟨sid, commandReason, policy.unlink⟩ :: db.kills }
  let db := db.updateSessionStatus now sid (if policy.endSession then .ended else .disconnected)
    (some commandReason)
  db.setConnection cid fun c =>
    { c with
      status := .disconnected, qrCode := none
      archivedAt := if policy.archive then some now else c.archivedAt }

/-- What `updateConnectionStatus` writes. -/
def connectionUpdate (now : ℕ) (status : ConnectionStatus) (phone : Option String) (jid : String)
    (c : Connection) : Connection :=
  let c := { c with status := status }
  let c := if status = .connected then
      { c with connectedAt := some now, qrCode := none, loggedOutAt := none } else c
  let c := if status = .disconnected then { c with qrCode := none } else c
  let c := match phone with
    | some p => { c with phoneNumber := some p }
    | none => c
  if jid = "" then c else { c with jid := some jid }

/-- The transaction of `updateConnectionStatus` for a connected identity. -/
def claimPhone (now : ℕ) (cid : ConnectionID) (phone jid : String) (db : TenantDb) :
    Except ApiError TenantDb :=
  match db.connections.find? fun c => c.phoneNumber = some phone ∧ c.id ≠ cid with
  | some duplicate => .error (.duplicateWhatsAppPhone duplicate.id phone)
  | none => .ok (db.setConnection cid (connectionUpdate now .connected (some phone) jid))

/-- A session becomes connected and points to `target`. -/
def Session.connect (now : ℕ) (target : ConnectionID) (r : Session) : Session :=
  { r with
    connectionID := target, status := .connected, connectedAt := some now, endedAt := none
    endReason := none }

/-- `claimConnectedSession`. -/
def claimConnectedSession (now : ℕ) (sid : SessionID) (phone jid : String) (db : TenantDb) :
    Except ApiError TenantDb :=
  match db.session? sid with
  | none => .error (.connectionNotFound sid)
  | some session =>
    match session.expectedPhoneNumber with
    | some expected =>
      if expected ≠ "" ∧ expected ≠ phone then .error (.whatsAppIdentityMismatch expected phone)
      else claim session.connectionID
    | none => claim session.connectionID
where
  claim (current : ConnectionID) : Except ApiError TenantDb :=
    match db.connections.find? fun c => c.phoneNumber = some phone ∧ c.id ≠ current with
    | some existing =>
      if existing.archivedAt = none then .error (.duplicateWhatsAppPhone existing.id phone)
      else
        -- earlier sessions of the historical account are retired
        let db := { db with sessions := db.sessions.map fun (r : Session) =>
          if r.connectionID = existing.id ∧ r.id ≠ sid ∧ r.endedAt = none then
            { r with
              status := .ended, endedAt := some now
              endReason := some "replaced by a newly paired session" }
          else r }
        let db := db.setSession sid (fun _ => true) (Session.connect now existing.id)
        -- the provisional connection goes with the sessions that still point to it
        let db := { db with
          connections := db.connections.filter (·.id ≠ current)
          sessions := db.sessions.filter (·.connectionID ≠ current) }
        .ok (db.setConnection existing.id (linked now phone jid))
    | none =>
      .ok ((db.setSession sid (fun _ => true) (Session.connect now current)).setConnection current
        (linked now phone jid))
  /-- The columns of the connection a paired session is attached to. -/
  linked (now : ℕ) (phone jid : String) (c : Connection) : Connection :=
    { c with
      phoneNumber := some phone, jid := if jid = "" then none else some jid, status := .connected
      connectedAt := some now, qrCode := none, archivedAt := none }

/-- The stored status of the connection a session belongs to. -/
def storedStatus (db : TenantDb) (sid : SessionID) : Option ConnectionStatus :=
  (db.session? sid).bind fun r => (db.connection? r.connectionID).map (·.status)

end TenantDb

/-! ### Handlers -/

/-- The database, and how the next statements fail. -/
structure ApiState where
  db : TenantDb
  faults : List Fault

abbrev ApiM := ExceptT ApiError (StateM ApiState)

namespace ApiM

/-- One statement or transaction.  An error of its own rolls it back. -/
def execute {α : Type} (what : String) (f : TenantDb → Except ApiError (α × TenantDb)) : ApiM α :=
  ExceptT.mk fun s =>
    match s.faults.headD .none, f s.db with
    | .failed, _ => (.error (.failed what), ⟨s.db, s.faults.tail⟩)
    | _, .error e => (.error e, ⟨s.db, s.faults.tail⟩)
    | .none, .ok (a, db) => (.ok a, ⟨db, s.faults.tail⟩)
    | .lost, .ok (_, db) => (.error (.failed what), ⟨db, s.faults.tail⟩)

def select {α : Type} (what : String) (f : TenantDb → α) : ApiM α := execute what fun db => .ok (f db, db)

def update (what : String) (f : TenantDb → TenantDb) : ApiM Unit := execute what fun db => .ok ((), f db)

def transaction (what : String) (f : TenantDb → Except ApiError TenantDb) : ApiM Unit :=
  execute what fun db => (f db).map fun db => ((), db)

def broadcastToCompany : ApiM Unit := select "broadcastToCompany" fun _ => ()

end ApiM

section Handlers

-- `trim` and `toLowerCase` of the language, and the clock of the delivery
variable (trimLower : String → String) (now : ℕ)

def normalizeWhatsAppPhone (phone : String) : String :=
  let digits := String.ofList (phone.toList.filter Char.isDigit)
  if digits ≠ "" then digits else trimLower phone

/-- `isEstablishedReconnect` on the joined rows. -/
def isEstablishedReconnect (prior : Option (Session × Connection)) (cid : ConnectionID) (phone : String) :
    Bool :=
  match prior with
  | none => false
  | some (session, connection) =>
    session.endedAt.isNone && session.connectedAt.isSome && connection.archivedAt.isNone &&
      connection.loggedOutAt.isNone && decide (session.connectionID = cid) &&
      match connection.phoneNumber with
      | none => false
      | some established =>
        decide (normalizeWhatsAppPhone trimLower established = normalizeWhatsAppPhone trimLower phone)

def updateConnectionStatus (status : ConnectionStatus) (cid : ConnectionID) (phone jid : String) :
    ApiM Unit := do
  match ← ApiM.select "select whatsapp_connections" (·.connection? cid) with
  | none => pure ()
  | some _ =>
    if phone ≠ "" then
      let normalized := normalizeWhatsAppPhone trimLower phone
      if status = .connected ∧ normalized ≠ "" then
        ApiM.transaction "claim phone" (TenantDb.claimPhone now cid normalized jid)
      else
        ApiM.update "update whatsapp_connections"
          (·.setConnection cid (TenantDb.connectionUpdate now status
            (if normalized = "" then none else some normalized) jid))
    else
      ApiM.update "update whatsapp_connections"
        (·.setConnection cid (TenantDb.connectionUpdate now status none jid))

def stopPairedSession (sid : SessionID) (cid : ConnectionID) (commandReason : String)
    (policy : TenantDb.StopPolicy) : ApiM Unit := do
  ApiM.update "stop paired session" (TenantDb.stopPairedSession now sid cid commandReason policy)
  ApiM.broadcastToCompany
  ApiM.broadcastToCompany

/-- The `try` block of `handleConnectedEvent`. -/
def connectSession (event : ConnectionEvent) (sid : SessionID) (cid : ConnectionID)
    (admission : Option Admission) : ApiM Verdict := do
  if event.phoneNumber ≠ "" then
    let prior ← ApiM.select "select prior session" fun db =>
      (db.session? sid).bind fun session => (db.connection? session.connectionID).map (session, ·)
    if isEstablishedReconnect trimLower prior cid event.phoneNumber then
      ApiM.update "update session" (TenantDb.updateSessionStatus now sid .connected none)
      updateConnectionStatus trimLower now .connected cid event.phoneNumber event.jid
    else
      match admission with
      | none =>
        stopPairedSession now sid cid "connection admission unavailable" TenantDb.admissionUnavailable
        return .refused
      | some (.denied _ _ _) =>
        stopPairedSession now sid cid "connection admission rejected" TenantDb.admissionRejected
        return .refused
      | some .allowed =>
        ApiM.transaction "claim connected session" (TenantDb.claimConnectedSession now sid
          (normalizeWhatsAppPhone trimLower event.phoneNumber) event.jid)
  else
    updateConnectionStatus trimLower now .connected cid event.phoneNumber event.jid
  ApiM.broadcastToCompany
  return .stored

def handleConnectedEvent (event : ConnectionEvent) (sid : SessionID) (cid : ConnectionID)
    (admission : Option Admission) : ApiM Verdict :=
  tryCatch (connectSession trimLower now event sid cid admission) fun e =>
    match e with
    | .duplicateWhatsAppPhone _ _ | .whatsAppIdentityMismatch _ _ => do
      stopPairedSession now sid cid "duplicate phone pairing rejected" TenantDb.identityRejected
      return .refused
    | e => throw e

/-- `isUnscannedPairingAttempt`. -/
def isUnscannedPairingAttempt (db : TenantDb) (sid : SessionID) : Bool :=
  match db.session? sid with
  | none => false
  | some session => session.connectedAt.isNone && session.endedAt.isNone

/-- `handleDisconnectedEvent` past the expired QR. -/
def disconnectSession (event : ConnectionEvent) (sid : SessionID) (cid : ConnectionID) : ApiM Unit := do
  let sync ← ApiM.select "select sync_status" fun db => (db.connection? cid).bind (·.syncStatus)
  ApiM.update "update session" (TenantDb.updateSessionStatus now sid .disconnected none)
  updateConnectionStatus trimLower now .disconnected cid "" ""
  if sync = some .syncing then
    ApiM.update "interrupt sync" (·.setConnection cid ({ · with syncStatus := some .interrupted }))
    ApiM.broadcastToCompany
  if event.type = .loggedOut then
    ApiM.update "record logout" (·.setConnection cid ({ · with loggedOutAt := some now, qrCode := none }))
  ApiM.broadcastToCompany
  if event.type = .loggedOut then ApiM.broadcastToCompany

def handleDisconnectedEvent (event : ConnectionEvent) (sid : SessionID) (cid : ConnectionID) :
    ApiM Unit := do
  if event.type = .disconnected ∧ event.reason = "qr_timeout" then
    if ← ApiM.select "select session" (isUnscannedPairingAttempt · sid) then
      stopPairedSession now sid cid "QR pairing expired without a scan" TenantDb.qrExpired
    else disconnectSession trimLower now event sid cid
  else disconnectSession trimLower now event sid cid

/-- `processWhatsAppEvent` for a connection status. -/
def processConnectionEvent (event : ConnectionEvent) (sid : SessionID) (admission : Option Admission) :
    ApiM Verdict := do
  match ← ApiM.select "resolve session" (·.session? sid) with
  | none => throw (.permanent ("WhatsApp session " ++ sid ++ " does not exist"))
  | some session =>
    match event.type with
    | .connected | .paired =>
      if session.status = .ended then return .late
      else handleConnectedEvent trimLower now event sid session.connectionID admission
    | .disconnected | .loggedOut => do
      handleDisconnectedEvent trimLower now event sid session.connectionID
      return .stored
    | .error => do
      ApiM.broadcastToCompany
      return .stored

end Handlers

end TeamInbox.Api
