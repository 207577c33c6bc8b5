import TeamInbox.Lib.Calls
import TeamInbox.Api.ConnectionHandlers

/-!
# TeamInbox.Api.SessionEvents — the events of sessions, statement by statement

A call is the handling of one event: `processWhatsAppEvent` looks the session up, and the handler of the event
performs its statements on the tenant database, each of them a step of its own.  A statement that fails ends the
call.  An update of a row that is not there does nothing, so the look-up of `updateConnectionStatus` is a step only
where the update may throw.  Broadcasts are left out.

`last` keeps, for the record, which session has last connected on a connection, and under which identity, until the
connection is logged out or archived or the session is ended.
-/

namespace TeamInbox.Api

open TeamInbox.Lib

/-- The status of a `connection_status`. -/
inductive WorkerStatus
  | error
  | failed
  | connecting
  | connected
  deriving DecidableEq

inductive SessionEvent
  | connection (e : ConnectionEvent)
  | connectionStatus (status : WorkerStatus)
  | qr (qrCode : String)
  deriving DecidableEq

/-- The updates of a handler that has nothing left to decide. -/
inductive RowUpdate
  | session (status : SessionStatus)
  /-- the session of a worker that is starting -/
  | sessionConnecting
  | disconnect
  | interruptSync
  | recordLogout
  | worker (status : WorkerStatus)
  | qr (qrCode : String)
  deriving DecidableEq

inductive EventCall
  | idle
  | received (e : SessionEvent) (sid : SessionID)
  /-- `handleConnectedEvent` is to read the session and its connection -/
  | identifying (e : ConnectionEvent) (sid : SessionID) (cid : ConnectionID)
  | resuming (e : ConnectionEvent) (sid : SessionID) (cid : ConnectionID)
  /-- `updateConnectionStatus` for a connected session -/
  | looking (e : ConnectionEvent) (sid : SessionID) (cid : ConnectionID)
  | linking (e : ConnectionEvent) (sid : SessionID) (cid : ConnectionID)
  | admitting (e : ConnectionEvent) (sid : SessionID) (cid : ConnectionID)
  | claiming (e : ConnectionEvent) (sid : SessionID) (cid : ConnectionID)
  | stopping (e : ConnectionEvent) (sid : SessionID) (cid : ConnectionID) (commandReason : String)
      (policy : TenantDb.StopPolicy)
  /-- `handleDisconnectedEvent` is to see whether a pairing attempt has expired -/
  | expiring (e : ConnectionEvent) (sid : SessionID) (cid : ConnectionID)
  | dropping (e : ConnectionEvent) (sid : SessionID) (cid : ConnectionID)
  | updating (e : SessionEvent) (sid : SessionID) (cid : ConnectionID) (todo : List RowUpdate)
  deriving DecidableEq

inductive EventAction
  | receive (e : SessionEvent) (sid : SessionID)
  | next (now : ℕ)
  | admission (answer : Option Admission)
  | fail
  deriving DecidableEq

inductive AccountAction
  | relink (cid : ConnectionID) (sid : SessionID)
  | archive (now : ℕ) (cid : ConnectionID)
  deriving DecidableEq

structure EventState where
  db : TenantDb
  last : ConnectionID → Option (SessionID × String)

namespace TenantDb

/-- The rows `handleConnectedEvent` reads. -/
def prior (db : TenantDb) (sid : SessionID) : Option (Session × Connection) :=
  (db.session? sid).bind fun session => (db.connection? session.connectionID).map (session, ·)

/-- `getActiveSessionId`; sessions are in the order of their creation. -/
def activeSession? (db : TenantDb) (cid : ConnectionID) : Option Session :=
  (db.sessions.filter fun r => decide (r.connectionID = cid) && r.endedAt.isNone).getLast?

/-- The connection `claimConnectedSession` makes connected, unless it throws. -/
def claimTarget (db : TenantDb) (sid : SessionID) (phone : String) : Option ConnectionID :=
  (db.session? sid).bind fun session =>
    if session.expectedPhoneNumber.any (fun expected => decide (expected ≠ "" ∧ expected ≠ phone)) then none
    else match db.connections.find? fun c => c.phoneNumber = some phone ∧ c.id ≠ session.connectionID with
      | some existing => if existing.archivedAt = none then none else some existing.id
      | none => some session.connectionID

end TenantDb

def RowUpdate.run (now : ℕ) (sid : SessionID) (cid : ConnectionID) : RowUpdate → TenantDb → TenantDb
  | .session status => TenantDb.updateSessionStatus now sid status none
  | .sessionConnecting => (·.setSession sid (fun r => r.endedAt.isNone && decide (r.status ≠ .connected))
      ({ · with status := .connecting }))
  | .disconnect => (·.setConnection cid (TenantDb.connectionUpdate now .disconnected none ""))
  | .interruptSync => (·.setConnection cid ({ · with syncStatus := some .interrupted }))
  | .recordLogout => (·.setConnection cid fun c =>
      { c with
        loggedOutAt := some now
        qrCode := none })
  | .worker .connecting => (·.setConnection cid fun c =>
      if c.status ≠ .connected then { c with status := .pending } else c)
  | .worker .connected => (·.setConnection cid fun c =>
      { c with
        status := .connected
        qrCode := none })
  | .worker _ => (·.setConnection cid ({ · with status := .disconnected }))
  | .qr qrCode => (·.setConnection cid fun c =>
      { c with
        status := .pending
        qrCode := some qrCode })

/-- The updates of `handleWorkerConnectionStatusEvent`. -/
def workerUpdates : WorkerStatus → List RowUpdate
  | .connecting => [.sessionConnecting, .worker .connecting]
  | .connected => [.session .connected, .worker .connected]
  | status => [.session .disconnected, .worker status]

/-- The updates of `handleDisconnectedEvent`. -/
def disconnectUpdates (e : ConnectionEvent) (wasSyncing : Bool) : List RowUpdate :=
  [.session .disconnected, .disconnect] ++ (if wasSyncing then [.interruptSync] else []) ++
    (if e.type = .loggedOut then [.recordLogout] else [])

/-- `processWhatsAppEvent`, the session found. -/
def dispatchEvent (session : Session) (sid : SessionID) : SessionEvent → EventCall
  | .connection e =>
    let cid := session.connectionID
    match e.type with
    | .connected | .paired =>
      if session.status = .ended then .idle
      else if e.phoneNumber ≠ "" then .identifying e sid cid else .looking e sid cid
    | .disconnected => if e.reason = "qr_timeout" then .expiring e sid cid else .dropping e sid cid
    | .loggedOut => .dropping e sid cid
    | .error => .idle
  | .connectionStatus status => .updating (.connectionStatus status) sid session.connectionID (workerUpdates status)
  | .qr qrCode =>
    if session.status = .ended then .idle
    else .updating (.qr qrCode) sid session.connectionID [.session .pending, .qr qrCode]

namespace EventState

def forget (s : EventState) (P : ConnectionID → SessionID → Bool) : EventState :=
  { s with last := fun cid => (s.last cid).filter fun e => !P cid e.1 }

/-- The session has connected, if the connection is there. -/
def connected (s : EventState) (cid : ConnectionID) (sid : SessionID) (phone : String) : EventState :=
  if (s.db.connection? cid).isSome then { s with last := Function.update s.last cid (some (sid, phone)) } else s

def write (s : EventState) (f : TenantDb → TenantDb) : EventState := { s with db := f s.db }

/-- One of the updates; the last of a logout is what records it. -/
def update (s : EventState) (now : ℕ) (sid : SessionID) (cid : ConnectionID) (u : RowUpdate) : EventState :=
  (s.write (u.run now sid cid)).forget fun c _ => decide (u = .recordLogout ∧ c = cid)

def stop (s : EventState) (now : ℕ) (sid : SessionID) (cid : ConnectionID) (commandReason : String)
    (policy : TenantDb.StopPolicy) : EventState :=
  (s.write (TenantDb.stopPairedSession now sid cid commandReason policy)).forget fun c r =>
    (policy.archive && decide (c = cid)) || (policy.endSession && decide (r = sid))

/-- `archiveConnectionWithUnlink`. -/
def archive (s : EventState) (now : ℕ) (cid : ConnectionID) : Option EventState :=
  match s.db.connection? cid, s.db.activeSession? cid with
  | some connection, some session =>
    if connection.archivedAt = none then
      some ((s.write fun db =>
        let db := { db with kills := ⟨session.id, "connection archived and unlinked", true⟩ :: db.kills }
        let db := db.setConnection cid fun c =>
          { c with
            status := .disconnected
            qrCode := none
            archivedAt := some now }
        db.updateSessionStatus now session.id .ended (some "connection archived and unlinked")).forget
          fun c r => decide (c = cid) || decide (r = session.id))
    else none
  | _, _ => none

end EventState

section Handlers

-- `trim` and `toLowerCase` of the language
variable (trimLower : String → String)

/-- The write of `updateConnectionStatus` for a connected session. -/
def linkSession (now : ℕ) (e : ConnectionEvent) (cid : ConnectionID) (db : TenantDb) : Except ApiError TenantDb :=
  let phone := normalizeWhatsAppPhone trimLower e.phoneNumber
  if e.phoneNumber ≠ "" ∧ phone ≠ "" then db.claimPhone now cid phone e.jid
  else .ok (db.setConnection cid (TenantDb.connectionUpdate now .connected none e.jid))

def ApiError.rejectsIdentity : ApiError → Bool
  | .duplicateWhatsAppPhone _ _ | .whatsAppIdentityMismatch _ _ => true
  | _ => false

/-- The `catch` of `handleConnectedEvent`. -/
def rejectIdentity (e : ConnectionEvent) (sid : SessionID) (cid : ConnectionID) (error : ApiError) : EventCall :=
  if error.rejectsIdentity then .stopping e sid cid "duplicate phone pairing rejected" TenantDb.identityRejected
  else .idle

/-- The row of `createConnectionSession`. -/
def createConnectionSession (sid : SessionID) (cid : ConnectionID) (expected : Option String) : Session :=
  ⟨sid, cid, .pending, (expected.filter fun phone => decide (phone ≠ "")).map (normalizeWhatsAppPhone trimLower), none, none,
    none⟩

/-- What the answer of the admission service leads to. -/
def admitted (e : ConnectionEvent) (sid : SessionID) (cid : ConnectionID) : Option Admission → EventCall
  | none => .stopping e sid cid "connection admission unavailable" TenantDb.admissionUnavailable
  | some (.denied _ _ _) => .stopping e sid cid "connection admission rejected" TenantDb.admissionRejected
  | some .allowed => .claiming e sid cid

namespace EventState

/-- `relinkArchivedConnection`; the identifier of the session is new. -/
def relink (s : EventState) (cid : ConnectionID) (sid : SessionID) : Option EventState :=
  if (s.db.session? sid).isSome then none
  else match s.db.connection? cid with
    | none => none
    | some connection =>
      if connection.archivedAt = none then none
      else some (s.write fun db =>
        { db.setConnection cid fun c =>
            { c with
              status := .pending
              archivedAt := none
              qrCode := none } with
          sessions := db.sessions ++ [createConnectionSession trimLower sid cid connection.phoneNumber] })

def link (s : EventState) (now : ℕ) (e : ConnectionEvent) (sid : SessionID) (cid : ConnectionID) :
    EventState × EventCall :=
  match linkSession trimLower now e cid s.db with
  | .error error => (s, rejectIdentity e sid cid error)
  | .ok db =>
    let s := { s with db := db }
    (if e.phoneNumber ≠ "" then s.connected cid sid (normalizeWhatsAppPhone trimLower e.phoneNumber) else s, .idle)

def claim (s : EventState) (now : ℕ) (e : ConnectionEvent) (sid : SessionID) (cid : ConnectionID) :
    EventState × EventCall :=
  let phone := normalizeWhatsAppPhone trimLower e.phoneNumber
  match s.db.claimConnectedSession now sid phone e.jid, s.db.claimTarget sid phone with
  | .ok db, some target =>
    -- the connection the session has come from is gone, unless it is the target
    ((({ s with db := db } : EventState).forget fun c _ =>
        (s.db.session? sid).any fun r => decide (c = r.connectionID)).connected target sid phone, .idle)
  | .error error, _ => (s, rejectIdentity e sid cid error)
  | _, _ => (s, .idle)

end EventState

def eventAct (s : EventState) : EventCall → EventAction → Option (EventState × EventCall)
  | .idle, .receive e sid => some (s, .received e sid)
  | .received e sid, .next _ => some (s, match s.db.session? sid with
    | none => .idle
    | some session => dispatchEvent session sid e)
  | .identifying e sid cid, .next _ =>
    some (s, if isEstablishedReconnect trimLower (s.db.prior sid) cid e.phoneNumber then .resuming e sid cid
      else .admitting e sid cid)
  | .resuming e sid cid, .next now =>
    some (s.write (TenantDb.updateSessionStatus now sid .connected none), .looking e sid cid)
  | .looking e sid cid, .next _ => some (s, if (s.db.connection? cid).isSome then .linking e sid cid else .idle)
  | .linking e sid cid, .next now => some (s.link trimLower now e sid cid)
  | .admitting e sid cid, .admission answer => some (s, admitted e sid cid answer)
  | .claiming e sid cid, .next now => some (s.claim trimLower now e sid cid)
  | .stopping _ sid cid reason policy, .next now => some (s.stop now sid cid reason policy, .idle)
  | .expiring e sid cid, .next _ =>
    some (s, if isUnscannedPairingAttempt s.db sid then
      .stopping e sid cid "QR pairing expired without a scan" TenantDb.qrExpired else .dropping e sid cid)
  | .dropping e sid cid, .next _ =>
    some (s, .updating (.connection e) sid cid
      (disconnectUpdates e (decide ((s.db.connection? cid).bind (·.syncStatus) = some .syncing))))
  | .updating e sid cid (u :: todo), .next now => some (s.update now sid cid u, .updating e sid cid todo)
  | .updating _ _ _ [], .next _ => some (s, .idle)
  | .idle, _ => none
  | _, .fail => some (s, .idle)
  | _, _ => none

def eventSystem : Machine EventState EventCall EventAction AccountAction where
  act := fun _ s x a => eventAct trimLower s x a
  env := fun e s => match e with
    | .relink cid sid => s.relink trimLower cid sid
    | .archive now cid => s.archive now cid

/-! ### Steps -/

namespace TenantDb

def retire (now : ℕ) (target : ConnectionID) (sid : SessionID) (db : TenantDb) : TenantDb :=
  { db with
    sessions := db.sessions.map fun (r : Session) =>
      if r.connectionID = target ∧ r.id ≠ sid ∧ r.endedAt = none then
        { r with
          status := .ended
          endedAt := some now
          endReason := some "replaced by a newly paired session" }
      else r }

/-- A provisional connection goes with its sessions. -/
def dropConnection (cid : ConnectionID) (db : TenantDb) : TenantDb :=
  { db with
    connections := db.connections.filter (·.id ≠ cid)
    sessions := db.sessions.filter (·.connectionID ≠ cid) }

end TenantDb

inductive Claimed (now : ℕ) (sid : SessionID) (phone jid : String) (db : TenantDb) : ConnectionID → TenantDb → Prop
  | fresh {r : Session} (hr : db.session? sid = some r) :
    Claimed now sid phone jid db r.connectionID
      ((db.setSession sid (fun _ => true) (TenantDb.Session.connect now r.connectionID)).setConnection r.connectionID
        (TenantDb.claimConnectedSession.linked now phone jid))
  | merged {r : Session} {existing : Connection} (hr : db.session? sid = some r) (hmem : existing ∈ db.connections)
      (hne : existing.id ≠ r.connectionID) :
    Claimed now sid phone jid db existing.id
      ((((db.retire now existing.id sid).setSession sid (fun _ => true) (TenantDb.Session.connect now existing.id)).dropConnection
        r.connectionID).setConnection existing.id (TenantDb.claimConnectedSession.linked now phone jid))

theorem claimed_of_ok {db db' : TenantDb} {sid : SessionID} {now : ℕ} {phone jid : String} (h : db.claimConnectedSession now sid phone jid = .ok db') :
    ∃ target, db.claimTarget sid phone = some target ∧ Claimed now sid phone jid db target db' := by
  unfold TenantDb.claimConnectedSession at h
  cases hr : db.session? sid with
  | none =>
    rw [hr] at h
    exact nomatch h
  | some r =>
    rw [hr] at h
    have hclaim : (∀ expected, r.expectedPhoneNumber = some expected → ¬ (expected ≠ "" ∧ expected ≠ phone)) ∧
        TenantDb.claimConnectedSession.claim now sid phone jid db r.connectionID = .ok db' := by
      cases hexpected : r.expectedPhoneNumber with
      | none =>
        simp only [hexpected] at h
        exact ⟨nofun, h⟩
      | some expected =>
        simp only [hexpected] at h
        split_ifs at h with hmismatch
        exact ⟨fun e he => Option.some.inj he ▸ hmismatch, h⟩
    obtain ⟨hmatch, hclaim⟩ := hclaim
    have hany : (r.expectedPhoneNumber.any fun expected => decide (expected ≠ "" ∧ expected ≠ phone)) = false := by
      cases hexpected : r.expectedPhoneNumber with
      | none => rfl
      | some expected => exact decide_eq_false (hmatch expected hexpected)
    unfold TenantDb.claimConnectedSession.claim at hclaim
    unfold TenantDb.claimTarget
    rw [hr, Option.bind_some, hany, if_neg Bool.false_ne_true]
    cases hfind : db.connections.find? fun c =>
        decide (c.phoneNumber = some phone ∧ c.id ≠ r.connectionID) with
    | some existing =>
      simp only [hfind] at hclaim ⊢
      split_ifs at hclaim with harchived
      obtain rfl := Except.ok.inj hclaim
      have hfound := List.find?_some hfind
      simp only [decide_eq_true_eq] at hfound
      exact ⟨existing.id, if_neg harchived, .merged hr (List.mem_of_find?_eq_some hfind) hfound.2⟩
    | none =>
      simp only [hfind] at hclaim ⊢
      obtain rfl := Except.ok.inj hclaim
      exact ⟨r.connectionID, rfl, .fresh hr⟩

theorem db_connected {s : EventState} {cid : ConnectionID} {sid : SessionID} {phone : String} :
    (s.connected cid sid phone).db = s.db := by
  unfold EventState.connected
  split_ifs <;> rfl

theorem linkSession_ok {db db' : TenantDb} {now : ℕ} {e : ConnectionEvent} {cid : ConnectionID}
    (h : linkSession trimLower now e cid db = .ok db') :
    ∃ o, db' = db.setConnection cid (TenantDb.connectionUpdate now .connected o e.jid) ∧
      ∀ q ∈ o, q = normalizeWhatsAppPhone trimLower e.phoneNumber ∧ e.phoneNumber ≠ "" := by
  unfold linkSession at h
  dsimp only at h
  split_ifs at h with hphone
  · unfold TenantDb.claimPhone at h
    split at h
    · exact nomatch h
    · obtain rfl := Except.ok.inj h
      exact ⟨_, rfl, fun q hq => ⟨(Option.some.inj hq).symm, hphone.1⟩⟩
  · obtain rfl := Except.ok.inj h
    exact ⟨none, rfl, nofun⟩

inductive EventMove (s : EventState) : EventCall → EventAction → EventState → EventCall → Prop
  | receive {e : SessionEvent} {sid : SessionID} : EventMove s .idle (.receive e sid) s (.received e sid)
  | unknown {e : SessionEvent} {sid : SessionID} {now : ℕ} (hnone : s.db.session? sid = none) :
    EventMove s (.received e sid) (.next now) s .idle
  | dispatch {e : SessionEvent} {sid : SessionID} {now : ℕ} {r : Session} (hr : s.db.session? sid = some r) :
    EventMove s (.received e sid) (.next now) s (dispatchEvent r sid e)
  | recognise {e : ConnectionEvent} {sid : SessionID} {cid : ConnectionID} {now : ℕ}
    (hknown : isEstablishedReconnect trimLower (s.db.prior sid) cid e.phoneNumber = true) :
    EventMove s (.identifying e sid cid) (.next now) s (.resuming e sid cid)
  | pair {e : ConnectionEvent} {sid : SessionID} {cid : ConnectionID} {now : ℕ}
    (hunknown : isEstablishedReconnect trimLower (s.db.prior sid) cid e.phoneNumber = false) :
    EventMove s (.identifying e sid cid) (.next now) s (.admitting e sid cid)
  | resume {e : ConnectionEvent} {sid : SessionID} {cid : ConnectionID} {now : ℕ} :
    EventMove s (.resuming e sid cid) (.next now) (s.write (TenantDb.updateSessionStatus now sid .connected none))
      (.looking e sid cid)
  | found {e : ConnectionEvent} {sid : SessionID} {cid : ConnectionID} {now : ℕ} :
    EventMove s (.looking e sid cid) (.next now) s (.linking e sid cid)
  | gone {e : ConnectionEvent} {sid : SessionID} {cid : ConnectionID} {now : ℕ} :
    EventMove s (.looking e sid cid) (.next now) s .idle
  | link {e : ConnectionEvent} {sid : SessionID} {cid : ConnectionID} {now : ℕ} {db : TenantDb}
    (hdb : linkSession trimLower now e cid s.db = .ok db) :
    EventMove s (.linking e sid cid) (.next now)
      (if e.phoneNumber ≠ "" then
        ({ s with db := db } : EventState).connected cid sid (normalizeWhatsAppPhone trimLower e.phoneNumber)
      else { s with db := db }) .idle
  | reject {e : ConnectionEvent} {sid : SessionID} {cid : ConnectionID} {now : ℕ} {error : ApiError} :
    EventMove s (.linking e sid cid) (.next now) s (rejectIdentity e sid cid error)
  | answer {e : ConnectionEvent} {sid : SessionID} {cid : ConnectionID} {answer : Option Admission} :
    EventMove s (.admitting e sid cid) (.admission answer) s (admitted e sid cid answer)
  | claim {e : ConnectionEvent} {sid : SessionID} {cid target : ConnectionID} {now : ℕ} {db : TenantDb}
    (htarget : s.db.claimTarget sid (normalizeWhatsAppPhone trimLower e.phoneNumber) = some target)
    (hclaimed : Claimed now sid (normalizeWhatsAppPhone trimLower e.phoneNumber) e.jid s.db target db) :
    EventMove s (.claiming e sid cid) (.next now)
      ((({ s with db := db } : EventState).forget fun c _ =>
        (s.db.session? sid).any fun r => decide (c = r.connectionID)).connected target sid
          (normalizeWhatsAppPhone trimLower e.phoneNumber)) .idle
  | refuse {e : ConnectionEvent} {sid : SessionID} {cid : ConnectionID} {now : ℕ} {error : ApiError} :
    EventMove s (.claiming e sid cid) (.next now) s (rejectIdentity e sid cid error)
  | stop {e : ConnectionEvent} {sid : SessionID} {cid : ConnectionID} {now : ℕ} {reason : String}
    {policy : TenantDb.StopPolicy} :
    EventMove s (.stopping e sid cid reason policy) (.next now) (s.stop now sid cid reason policy) .idle
  | expire {e : ConnectionEvent} {sid : SessionID} {cid : ConnectionID} {now : ℕ} :
    EventMove s (.expiring e sid cid) (.next now) s
      (.stopping e sid cid "QR pairing expired without a scan" TenantDb.qrExpired)
  | keep {e : ConnectionEvent} {sid : SessionID} {cid : ConnectionID} {now : ℕ} :
    EventMove s (.expiring e sid cid) (.next now) s (.dropping e sid cid)
  | drop {e : ConnectionEvent} {sid : SessionID} {cid : ConnectionID} {now : ℕ} (wasSyncing : Bool) :
    EventMove s (.dropping e sid cid) (.next now) s (.updating (.connection e) sid cid (disconnectUpdates e wasSyncing))
  | update {e : SessionEvent} {sid : SessionID} {cid : ConnectionID} {now : ℕ} {u : RowUpdate} {todo : List RowUpdate} :
    EventMove s (.updating e sid cid (u :: todo)) (.next now) (s.update now sid cid u) (.updating e sid cid todo)
  | updated {e : SessionEvent} {sid : SessionID} {cid : ConnectionID} {now : ℕ} :
    EventMove s (.updating e sid cid []) (.next now) s .idle
  | fail {x : EventCall} : EventMove s x .fail s .idle

theorem eventAct_move {s w : EventState} {x y : EventCall} {a : EventAction} (h : eventAct trimLower s x a = some (w, y)) :
    EventMove trimLower s x a w y := by
  have hstay : ∀ {u v : EventCall}, some (s, u) = some (w, y) → u = v → EventMove trimLower s x a s v →
      EventMove trimLower s x a w y := fun heq huv hmove => by
    obtain ⟨rfl, rfl⟩ := Prod.mk.inj (Option.some.inj heq)
    exact huv ▸ hmove
  cases a with
  | receive e sid =>
    cases x with
    | idle => exact hstay h rfl .receive
    | updating e' sid' cid todo =>
      cases todo with
      | nil | cons => exact nomatch h
    | _ => exact nomatch h
  | admission answer =>
    cases x with
    | admitting e sid cid => exact hstay h rfl .answer
    | updating e sid cid todo =>
      cases todo with
      | nil | cons => exact nomatch h
    | _ => exact nomatch h
  | fail =>
    cases x with
    | idle => exact nomatch h
    | updating e sid cid todo =>
      cases todo with
      | nil => exact hstay h rfl .fail
      | cons u todo => exact hstay h rfl .fail
    | _ => exact hstay h rfl .fail
  | next now =>
    cases x with
    | idle | admitting => exact nomatch h
    | received e sid =>
      cases hr : s.db.session? sid with
      | none =>
        simp only [eventAct, hr] at h
        exact hstay h rfl (.unknown hr)
      | some r =>
        simp only [eventAct, hr] at h
        exact hstay h rfl (.dispatch hr)
    | identifying e sid cid =>
      by_cases hknown : isEstablishedReconnect trimLower (s.db.prior sid) cid e.phoneNumber = true
      · exact hstay h (if_pos hknown) (.recognise hknown)
      · exact hstay h (if_neg hknown) (.pair (Bool.not_eq_true _ ▸ hknown))
    | resuming e sid cid =>
      obtain ⟨rfl, rfl⟩ := Prod.mk.inj (Option.some.inj h)
      exact .resume
    | looking e sid cid =>
      by_cases hfound : (s.db.connection? cid).isSome = true
      · exact hstay h (if_pos hfound) .found
      · exact hstay h (if_neg hfound) .gone
    | linking e sid cid =>
      have h : s.link trimLower now e sid cid = (w, y) := Option.some.inj h
      unfold EventState.link at h
      cases hdb : linkSession trimLower now e cid s.db with
      | error error =>
        rw [hdb] at h
        exact hstay (congrArg some h) rfl .reject
      | ok db =>
        rw [hdb] at h
        obtain ⟨rfl, rfl⟩ := Prod.mk.inj h
        exact .link hdb
    | claiming e sid cid =>
      have h : s.claim trimLower now e sid cid = (w, y) := Option.some.inj h
      unfold EventState.claim at h
      cases hdb : s.db.claimConnectedSession now sid (normalizeWhatsAppPhone trimLower e.phoneNumber) e.jid with
      | error error =>
        simp only [hdb] at h
        exact hstay (congrArg some h) rfl .refuse
      | ok db =>
        obtain ⟨target, htarget, hclaimed⟩ := claimed_of_ok hdb
        simp only [hdb, htarget] at h
        obtain ⟨rfl, rfl⟩ := Prod.mk.inj h
        exact .claim htarget hclaimed
    | stopping e sid cid reason policy =>
      obtain ⟨rfl, rfl⟩ := Prod.mk.inj (Option.some.inj h)
      exact .stop
    | expiring e sid cid =>
      by_cases hunscanned : isUnscannedPairingAttempt s.db sid = true
      · exact hstay h (if_pos hunscanned) .expire
      · exact hstay h (if_neg hunscanned) .keep
    | dropping e sid cid => exact hstay h rfl (.drop _)
    | updating e sid cid todo =>
      cases todo with
      | nil => exact hstay h rfl .updated
      | cons u todo =>
        obtain ⟨rfl, rfl⟩ := Prod.mk.inj (Option.some.inj h)
        exact .update

end Handlers

end TeamInbox.Api
