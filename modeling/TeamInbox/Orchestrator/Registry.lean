import TeamInbox.Orchestrator.Types

/-!
# TeamInbox.Orchestrator.Registry — the statements on `worker_registry` and `orchestrator_nodes`

One definition per method of `WorkerRegistry` in `persistence.go`, as the effect of its SQL on the
database: `stmt db` is the result the caller reads and the database afterwards.  Every method is one
statement or one transaction, hence one atomic step.  A `Fault` says how the call itself went: it
was answered, it failed without an effect, or it committed and the answer was lost.

Most statements share the guard `connection_id = … AND company_id = … AND launch_id = …`; they are
`updateLaunch` and `deleteLaunch` at their own values.
-/

namespace TeamInbox.Orchestrator

open TeamInbox.Lib

inductive Fault
  | ok | fail | failAfter
  deriving DecidableEq

/-- Perform a statement under a fault; a lost answer leaves the effect. -/
def Fault.exec {α : Type} (f : Fault) (stmt : Db → α × Db) (db : Db) : Except Err α × Db :=
  match f with
  | .ok => (.ok (stmt db).1, (stmt db).2)
  | .fail => (.error .database, db)
  | .failAfter => (.error .database, (stmt db).2)

theorem Fault.exec_snd {α : Type} (f : Fault) (stmt : Db → α × Db) (db : Db) :
    (f.exec stmt db).2 = db ∨ (f.exec stmt db).2 = (stmt db).2 := by
  cases f with
  | ok => exact Or.inr rfl
  | fail => exact Or.inl rfl
  | failAfter => exact Or.inr rfl

theorem Fault.exec_fst {α : Type} {f : Fault} {stmt : Db → α × Db} {db : Db} {a : α}
    (h : (f.exec stmt db).1 = .ok a) : (stmt db).1 = a ∧ (f.exec stmt db).2 = (stmt db).2 := by
  cases f with
  | ok => exact ⟨by simpa [Fault.exec] using h, rfl⟩
  | fail => simp [Fault.exec] at h
  | failAfter => simp [Fault.exec] at h

/-! ### Statements scoped to one launch -/

def ofLaunch (companyID : CompanyID) (launchID : LaunchID) (r : WorkerRecord) : Prop :=
  r.companyID = companyID ∧ r.launchID = launchID

instance (companyID : CompanyID) (launchID : LaunchID) :
    DecidablePred (ofLaunch companyID launchID) :=
  fun _ => inferInstanceAs (Decidable (_ ∧ _))

/-- `UPDATE worker_registry SET set WHERE connection_id = … AND company_id = … AND launch_id = …
AND extra`. -/
def updateLaunch (connectionID : ConnectionID) (companyID : CompanyID) (launchID : LaunchID)
    (extra : WorkerRecord → Prop) [DecidablePred extra] (set : WorkerRecord → WorkerRecord)
    (db : Db) : Bool × Db :=
  let r := db.registry.updateWhere connectionID
    (fun r => ofLaunch companyID launchID r ∧ extra r) set
  (r.2, { db with registry := r.1 })

/-- `DELETE FROM worker_registry WHERE connection_id = … AND company_id = … AND launch_id = …`. -/
def deleteLaunch (connectionID : ConnectionID) (companyID : CompanyID) (launchID : LaunchID)
    (db : Db) : Bool × Db :=
  let r := db.registry.deleteWhere connectionID (ofLaunch companyID launchID)
  (r.2, { db with registry := r.1 })

def always (_ : WorkerRecord) : Prop := True

instance : DecidablePred always := fun _ => inferInstanceAs (Decidable True)

def activateWorkerLaunch (nodeID : NodeID) (w : WorkerProcess) (db : Db) : Bool × Db :=
  updateLaunch w.connectionID w.companyID w.launchID
    (fun r => r.workerUID = w.workerUID ∧ r.workerGID = w.workerGID ∧ r.nodeID = some nodeID)
    (fun r => { r with
      tenantSchema := w.tenantSchema, pid := w.pid, status := w.status, startedAt := db.now,
      lastHeartbeat := db.now, restartCount := w.restartCount, desiredState := w.desiredState,
      artifact := w.artifact }) db

def deactivateWorkerLaunch (connectionID : ConnectionID) (companyID : CompanyID)
    (launchID : LaunchID) (pid : ℕ) (db : Db) : Bool × Db :=
  updateLaunch connectionID companyID launchID (fun r => r.pid = pid)
    (fun r => { r with pid := 0, status := .recovering, lastHeartbeat := db.now }) db

def removeWorkerLaunch (connectionID : ConnectionID) (companyID : CompanyID)
    (launchID : LaunchID) (db : Db) : Bool × Db :=
  deleteLaunch connectionID companyID launchID db

/-- `acceptsRuntimeConnectionState` and the status list of `UpdateRuntimeStatusLaunch`. -/
def WorkerStatus.isRuntime : WorkerStatus → Bool
  | .starting | .connecting | .connected | .disconnected => true
  | .stopping | .stopped | .error | .recovering => false

def updateRuntimeStatusLaunch (nodeID : NodeID) (connectionID : ConnectionID)
    (companyID : CompanyID) (launchID : LaunchID) (status : WorkerStatus) (db : Db) : Bool × Db :=
  updateLaunch connectionID companyID launchID
    (fun r => r.nodeID = some nodeID ∧ r.desiredState = .running ∧ r.status.isRuntime = true ∧
      r.status ≠ status)
    (fun r => { r with status := status }) db

def updateStatusLaunch (connectionID : ConnectionID) (companyID : CompanyID)
    (launchID : LaunchID) (status : WorkerStatus) (db : Db) : Bool × Db :=
  updateLaunch connectionID companyID launchID always
    (fun r => { r with status := status, lastHeartbeat := db.now }) db

def updateHeartbeatLaunch (connectionID : ConnectionID) (companyID : CompanyID)
    (launchID : LaunchID) (db : Db) : Bool × Db :=
  updateLaunch connectionID companyID launchID always
    (fun r => { r with lastHeartbeat := db.now }) db

def incrementRestartCountLaunch (connectionID : ConnectionID) (companyID : CompanyID)
    (launchID : LaunchID) (db : Db) : Bool × Db :=
  updateLaunch connectionID companyID launchID (fun r => r.desiredState = .running)
    (fun r => { r with restartCount := r.restartCount + 1 }) db

def resetRestartCountLaunch (connectionID : ConnectionID) (companyID : CompanyID)
    (launchID : LaunchID) (db : Db) : Bool × Db :=
  updateLaunch connectionID companyID launchID
    (fun r => r.desiredState = .running ∧ r.restartCount ≠ 0)
    (fun r => { r with restartCount := 0 }) db

/-- The artifact columns a row had before migration 071: version `embedded`, no digest. -/
def embeddedArtifact : WorkerArtifact := ⟨0, 0⟩

def normalizeLegacyWorkerArtifact (connectionID : ConnectionID) (companyID : CompanyID)
    (tenantSchema : TenantSchema) (launchID : LaunchID) (artifact : WorkerArtifact) (db : Db) :
    Bool × Db :=
  updateLaunch connectionID companyID launchID
    (fun r => r.tenantSchema = tenantSchema ∧ r.artifactNormalized = false ∧
      r.artifact = embeddedArtifact)
    (fun r => { r with
      artifact := artifact, artifactNormalized := true, pid := 0, status := .recovering,
      lastHeartbeat := db.now }) db

def getWorker (connectionID : ConnectionID) (db : Db) : Option WorkerRecord × Db :=
  (db.registry.find? connectionID, db)

def getRestartCountLaunch (connectionID : ConnectionID) (companyID : CompanyID)
    (launchID : LaunchID) (db : Db) : Option ℕ × Db :=
  (((db.registry.find? connectionID).filter (ofLaunch companyID launchID)).map
    WorkerRecord.restartCount, db)

section Launch

variable {connectionID : ConnectionID} {companyID : CompanyID} {launchID : LaunchID}
  {extra : WorkerRecord → Prop} [DecidablePred extra] {set : WorkerRecord → WorkerRecord} {db : Db}

theorem updateLaunch_true
    (h : (updateLaunch connectionID companyID launchID extra set db).1 = true) :
    ∃ r, db.registry.find? connectionID = some r ∧ ofLaunch companyID launchID r ∧ extra r ∧
      (updateLaunch connectionID companyID launchID extra set db).2 =
        { db with registry := db.registry.put connectionID (set r) } := by
  obtain ⟨r, hr, hp⟩ := Table.updateWhere_snd_iff.mp h
  refine ⟨r, hr, hp.1, hp.2, ?_⟩
  unfold updateLaunch
  rw [Table.updateWhere_of_pos hr hp]

theorem find?_updateLaunch (c : ConnectionID) :
    (updateLaunch connectionID companyID launchID extra set db).2.registry.find? c =
      if c = connectionID then
        (db.registry.find? c).map fun r => if ofLaunch companyID launchID r ∧ extra r then set r else r
      else db.registry.find? c := by
  unfold updateLaunch
  rw [Table.find?_updateWhere]
  by_cases hc : c = connectionID
  · subst hc
    simp
  · simp [hc]

theorem find?_deleteLaunch (c : ConnectionID) :
    (deleteLaunch connectionID companyID launchID db).2.registry.find? c =
      if c = connectionID then
        (db.registry.find? c).filter fun r => ¬ ofLaunch companyID launchID r
      else db.registry.find? c := by
  unfold deleteLaunch
  rw [Table.find?_deleteWhere]
  by_cases hc : c = connectionID
  · subst hc
    simp
  · simp [hc]

end Launch

/-! ### The launch claim -/

/-- The row `claimWorkerLaunchSQL` writes: every column but `company_id` is `EXCLUDED`'s. -/
def claimedRecord (nodeID : NodeID) (w : WorkerProcess) (workerUID : ℕ) (now : ℕ) :
    WorkerRecord where
  companyID := w.companyID
  tenantSchema := w.tenantSchema
  pid := w.pid
  status := w.status
  startedAt := now
  lastHeartbeat := now
  restartCount := w.restartCount
  launchID := w.launchID
  desiredState := w.desiredState
  artifact := w.artifact
  artifactNormalized := true
  workerUID := workerUID
  nodeID := some nodeID

/-- `claimWorkerLaunchSQL`.  The default of `worker_uid` draws from the sequence before the conflict
is examined, and the sequence is `NO CYCLE`.  The `WHERE` clause belongs to `DO UPDATE`: without a
row for the connection the insert goes through whatever launch the caller expected. -/
def claimWorkerLaunchSQL (nodeID : NodeID) (w : WorkerProcess) (expected : Option LaunchID)
    (db : Db) : Except Err (ℕ × ℕ) × Db :=
  if maximumWorkerIdentity < db.identitySeq then (.error .database, db)
  else
    let uid := db.identitySeq
    let drawn := { db with identitySeq := db.identitySeq + 1 }
    let claimed := { drawn with
      registry := db.registry.put w.connectionID (claimedRecord nodeID w uid db.now) }
    match db.registry.find? w.connectionID with
    | none => (.ok (uid, uid), claimed)
    | some r =>
      if r.companyID = w.companyID ∧ expected = some r.launchID then (.ok (uid, uid), claimed)
      else (.error .workerLaunchConflict, drawn)

/-- The database half of `ClaimWorkerLaunch`, with the admission check of `claimWithFleetLimit` in the
same transaction.  `validWorkerIdentity` is checked on the result by the caller. -/
def claimWorkerLaunch (cfg : Config) (nodeID : NodeID) (w : WorkerProcess)
    (expected : Option LaunchID) (db : Db) : Except Err (ℕ × ℕ) × Db :=
  if 0 < cfg.fleetMaxConnections ∧ db.registry.find? w.connectionID = none ∧
      cfg.fleetMaxConnections ≤ db.registry.size then (.error .fleetConnectionLimit, db)
  else claimWorkerLaunchSQL nodeID w expected db

/-- What one execution of the claim can do: nothing to the rows, or write the claimed row over a row
of the same company that holds the expected launch, or over no row at all. -/
theorem claimWorkerLaunchSQL_cases (nodeID : NodeID) (w : WorkerProcess)
    (expected : Option LaunchID) (db : Db) :
    (∃ e n, claimWorkerLaunchSQL nodeID w expected db =
        (.error e, { db with identitySeq := db.identitySeq + n })) ∨
      ((db.registry.find? w.connectionID = none ∨
          ∃ r, db.registry.find? w.connectionID = some r ∧ r.companyID = w.companyID ∧
            expected = some r.launchID) ∧
        claimWorkerLaunchSQL nodeID w expected db =
          (.ok (db.identitySeq, db.identitySeq), { db with
            identitySeq := db.identitySeq + 1
            registry := db.registry.put w.connectionID
              (claimedRecord nodeID w db.identitySeq db.now) })) := by
  unfold claimWorkerLaunchSQL
  by_cases hmax : maximumWorkerIdentity < db.identitySeq
  · rw [if_pos hmax]
    exact Or.inl ⟨_, 0, rfl⟩
  · rw [if_neg hmax]
    cases hr : db.registry.find? w.connectionID with
    | none => exact Or.inr ⟨Or.inl rfl, rfl⟩
    | some r =>
      by_cases hp : r.companyID = w.companyID ∧ expected = some r.launchID
      · refine Or.inr ⟨Or.inr ⟨r, rfl, hp.1, hp.2⟩, ?_⟩
        simp [hp]
      · exact Or.inl ⟨.workerLaunchConflict, 1, by simp [hp]⟩

theorem claimWorkerLaunch_cases (cfg : Config) (nodeID : NodeID) (w : WorkerProcess)
    (expected : Option LaunchID) (db : Db) :
    (∃ e n, claimWorkerLaunch cfg nodeID w expected db =
        (.error e, { db with identitySeq := db.identitySeq + n })) ∨
      ((db.registry.find? w.connectionID = none ∨
          ∃ r, db.registry.find? w.connectionID = some r ∧ r.companyID = w.companyID ∧
            expected = some r.launchID) ∧
        claimWorkerLaunch cfg nodeID w expected db =
          (.ok (db.identitySeq, db.identitySeq), { db with
            identitySeq := db.identitySeq + 1
            registry := db.registry.put w.connectionID
              (claimedRecord nodeID w db.identitySeq db.now) })) := by
  unfold claimWorkerLaunch
  split
  · exact Or.inl ⟨_, 0, rfl⟩
  · exact claimWorkerLaunchSQL_cases nodeID w expected db

/-! ### Node ownership and leases -/

def getNodeWorkers (nodeID : NodeID) (db : Db) : List (ConnectionID × WorkerRecord) × Db :=
  (db.registry.entries.filter fun e => e.2.nodeID = some nodeID, db)

/-- `AdoptUnassignedWorkers`; the count it returns is only logged. -/
def adoptUnassignedWorkers (nodeID : NodeID) (db : Db) : Unit × Db :=
  ((), { db with
    registry := db.registry.updateAll (fun _ r => r.nodeID = none)
      (fun r => { r with nodeID := some nodeID }) })

/-- `RegisterNodeLease`: refused while the lease of the node is live. -/
def registerNodeLease (nodeID : NodeID) (leaseDuration : ℕ) (db : Db) : Bool × Db :=
  match db.nodes.find? nodeID with
  | none => (true, { db with nodes := db.nodes.put nodeID ⟨db.now + leaseDuration⟩ })
  | some n =>
    if n.leaseExpiresAt ≤ db.now then
      (true, { db with nodes := db.nodes.put nodeID ⟨db.now + leaseDuration⟩ })
    else (false, db)

/-- `RenewNodeLease`: extends only a lease that has not expired. -/
def renewNodeLease (nodeID : NodeID) (leaseDuration : ℕ) (db : Db) : Bool × Db :=
  let r := db.nodes.updateWhere nodeID (fun n => db.now < n.leaseExpiresAt)
    (fun _ => ⟨db.now + leaseDuration⟩)
  (r.2, { db with nodes := r.1 })

def releaseNodeLease (nodeID : NodeID) (db : Db) : Unit × Db :=
  ((), { db with
    nodes := (db.nodes.updateWhere nodeID (fun _ => True) (fun _ => ⟨db.now⟩)).1 })

/-- The lease of the node is recorded and has been expired for the takeover margin. -/
def leaseExpiredPast (nodeID : NodeID) (takeoverMargin : ℕ) (db : Db) : Prop :=
  ∃ n, db.nodes.find? nodeID = some n ∧ n.leaseExpiresAt + takeoverMargin ≤ db.now

instance (nodeID : NodeID) (takeoverMargin : ℕ) (db : Db) :
    Decidable (leaseExpiredPast nodeID takeoverMargin db) :=
  decidable_of_iff
    (((db.nodes.find? nodeID).any fun n => decide (n.leaseExpiresAt + takeoverMargin ≤ db.now)) = true)
    (by simp [leaseExpiredPast, Option.any_eq_true])

def listFailedNodeWorkers (nodeID : NodeID) (takeoverMargin : ℕ) (db : Db) :
    List (ConnectionID × WorkerRecord) × Db :=
  (db.registry.entries.filter fun e =>
    e.2.desiredState = .running ∧
      (e.2.nodeID.any fun n => n ≠ nodeID ∧ leaseExpiredPast n takeoverMargin db), db)

def takeOverFailedNodeWorker (nodeID : NodeID) (connectionID : ConnectionID)
    (previousNodeID : NodeID) (takeoverMargin : ℕ) (db : Db) : Bool × Db :=
  let r := db.registry.updateWhere connectionID
    (fun r => r.nodeID = some previousNodeID ∧ r.desiredState = .running ∧
      leaseExpiredPast previousNodeID takeoverMargin db)
    (fun r => { r with nodeID := some nodeID })
  (r.2, { db with registry := r.1 })

theorem takeOverFailedNodeWorker_row (nodeID : NodeID) (connectionID : ConnectionID)
    (previousNodeID : NodeID) (takeoverMargin : ℕ) (db : Db) (c : ConnectionID) :
    (takeOverFailedNodeWorker nodeID connectionID previousNodeID takeoverMargin db).2.registry.find? c
        = db.registry.find? c ∨
      c = connectionID ∧ ∃ r, db.registry.find? c = some r ∧ r.nodeID = some previousNodeID ∧
        r.desiredState = .running ∧ leaseExpiredPast previousNodeID takeoverMargin db ∧
        (takeOverFailedNodeWorker nodeID connectionID previousNodeID takeoverMargin db).2.registry.find? c
          = some { r with nodeID := some nodeID } := by
  unfold takeOverFailedNodeWorker
  rw [Table.find?_updateWhere]
  by_cases hc : c = connectionID
  · subst hc
    rw [if_pos rfl]
    cases hr : db.registry.find? c with
    | none => exact Or.inl rfl
    | some r =>
      by_cases hp : r.nodeID = some previousNodeID ∧ r.desiredState = .running ∧
          leaseExpiredPast previousNodeID takeoverMargin db
      · exact Or.inr ⟨rfl, r, rfl, hp.1, hp.2.1, hp.2.2, by simp [hp]⟩
      · exact Or.inl (by simp [hp])
  · exact Or.inl (if_neg hc)

/-- `MarkWorkersRecovering`. -/
def markWorkersRecovering (connectionIDs : List ConnectionID) (db : Db) : Unit × Db :=
  ((), connectionIDs.foldl (fun d c => { d with
    registry := (d.registry.updateWhere c (fun r => r.desiredState = .running)
      (fun r => { r with status := .recovering, lastHeartbeat := d.now })).1 }) db)

end TeamInbox.Orchestrator
