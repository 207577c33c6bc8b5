import TeamInbox.Lib.Proc
import TeamInbox.Orchestrator.Manager
import TeamInbox.Orchestrator.UpgradeStore

/-!
# TeamInbox.Orchestrator.World — the atomic operations of the orchestrator

The state all nodes share, and every operation a goroutine of `manager` performs on it in one step: a
statement on the database, a section under `m.mu`, a lock, a system call on a worker process, or the
start of another goroutine.  The functions of the source are procedures over these operations.  A
`Choice` holds what an operation cannot know: how the database call went, the identifier that was
drawn, the outcome of a system call.

Process identifiers are never reused here.  A `lifecycle` lock belongs to one connection; the 256
stripes of the source exclude more.
-/

namespace TeamInbox.Orchestrator

open TeamInbox.Lib

/-! ### Statements -/

/-- The statements that carry a connection, a company and a launch. -/
inductive LaunchStmt
  | deactivate (pid : ℕ)
  | remove
  | runtimeStatus (status : WorkerStatus)
  | status (status : WorkerStatus)
  | heartbeat
  | incrementRestart
  | resetRestart
  deriving DecidableEq

def LaunchStmt.exec (nodeID : NodeID) (c : ConnectionID) (companyID : CompanyID)
    (launchID : LaunchID) : LaunchStmt → Db → Bool × Db
  | .deactivate pid => deactivateWorkerLaunch c companyID launchID pid
  | .remove => removeWorkerLaunch c companyID launchID
  | .runtimeStatus st => updateRuntimeStatusLaunch nodeID c companyID launchID st
  | .status st => updateStatusLaunch c companyID launchID st
  | .heartbeat => updateHeartbeatLaunch c companyID launchID
  | .incrementRestart => incrementRestartCountLaunch c companyID launchID
  | .resetRestart => resetRestartCountLaunch c companyID launchID

inductive BatchStmt
  | advance (ref : ItemRef) (expected next : UpgradePhase) (target : Option LaunchID)
  | reserve (ref : ItemRef) (phase : UpgradePhase) (column : GenerationColumn) (g : LaunchID)
  | fence (ref : ItemRef) (phase : UpgradePhase) (fence : WorkerUpgradeLiveFence)
  | beginRefresh (ref : ItemRef) (target : LaunchID)
  | completeRefresh (ref : ItemRef) (previous refreshed : LaunchID)
  | beginRollback (ref : ItemRef) (expected : UpgradePhase) (target : Option LaunchID)
  | halt (ref : ItemRef) (itemPhase batchPhase : UpgradePhase) (target : Option LaunchID)
  | resume (batchID : BatchID) (c : ConnectionID)
  | completeItem (ref : ItemRef) (phase : UpgradePhase) (fence : WorkerUpgradeLiveFence)
  | completeBatch (batchID : BatchID) (phase : UpgradePhase) (result : BatchResult)
  deriving DecidableEq

def BatchStmt.exec : BatchStmt → Db → Except Err Bool × Db
  | .advance ref expected next target, db =>
    ((advanceWorkerUpgradeItem ref expected next target db).map .ok id)
  | .reserve ref phase column g, db =>
    ((reserveWorkerUpgradeGeneration ref phase column g db).map .ok id)
  | .fence ref phase live, db => ((fenceWorkerUpgradeOwnedLaunch ref phase live db).map .ok id)
  | .beginRefresh ref target, db => ((beginWorkerUpgradeVerifyRefresh ref target db).map .ok id)
  | .completeRefresh ref previous refreshed, db =>
    ((completeWorkerUpgradeVerifyRefresh ref previous refreshed db).map .ok id)
  | .beginRollback ref expected target, db =>
    ((beginWorkerUpgradeRollback ref expected target db).map .ok id)
  | .halt ref itemPhase batchPhase target, db =>
    ((haltWorkerUpgrade ref itemPhase batchPhase target db).map .ok id)
  | .resume batchID c, db => ((resumeHaltedWorkerUpgradeRollback batchID c db).map .ok id)
  | .completeItem ref phase live, db => completeWorkerUpgradeItem ref phase live db
  | .completeBatch batchID phase result, db => completeWorkerUpgradeBatch batchID phase result db

inductive LaunchOrigin
  /-- `SpawnWorker`. -/
  | explicit
  /-- `scheduleRestart`. -/
  | automatic
  | unlink
  | rollout
  deriving DecidableEq

inductive Sql
  | launch (c : ConnectionID) (companyID : CompanyID) (launchID : LaunchID) (stmt : LaunchStmt)
  | claim (origin : LaunchOrigin) (w : WorkerProcess) (expected : Option LaunchID)
  | activate (w : WorkerProcess)
  | setDesired (c : ConnectionID) (companyID : CompanyID) (tenantSchema : TenantSchema)
      (launchID : LaunchID) (desiredState : DesiredState)
  | normalize (c : ConnectionID) (companyID : CompanyID) (tenantSchema : TenantSchema)
      (launchID : LaunchID) (artifact : WorkerArtifact)
  | getWorker (c : ConnectionID)
  | getRestartCount (c : ConnectionID) (companyID : CompanyID) (launchID : LaunchID)
  | adoptUnassigned
  | getNodeWorkers
  | listFailed
  | takeOver (c : ConnectionID) (previousNodeID : NodeID)
  | markRecovering (cs : List ConnectionID)
  | batch (stmt : BatchStmt)
  | getBatch (batchID : BatchID)
  | getActiveBatch
  | createBatch (target : WorkerArtifact) (intents : List WorkerUpgradeItemIntent)
  deriving DecidableEq

@[reducible] def Sql.Answer : Sql → Type
  | .launch .. => Bool
  | .claim .. => ℕ × ℕ
  | .activate .. => Bool
  | .setDesired .. => Bool × Bool
  | .normalize .. => Bool
  | .getWorker _ => Option WorkerRecord
  | .getRestartCount .. => Option ℕ
  | .adoptUnassigned => Unit
  | .getNodeWorkers => List (ConnectionID × WorkerRecord)
  | .listFailed => List (ConnectionID × WorkerRecord)
  | .takeOver .. => Bool
  | .markRecovering _ => Unit
  | .batch _ => Bool
  | .getBatch _ => Option WorkerUpgradeBatch
  | .getActiveBatch => Option (BatchID × WorkerUpgradeBatch)
  | .createBatch .. => BatchID

/-- `ClaimWorkerLaunch` with the check of the identity it returns. -/
def claimChecked (cfg : Config) (nodeID : NodeID) (w : WorkerProcess) (expected : Option LaunchID)
    (db : Db) : Except Err (ℕ × ℕ) × Db :=
  match claimWorkerLaunch cfg nodeID w expected db with
  | (.ok p, db') =>
    if validWorkerIdentity p.1 p.2 then (.ok p, db')
    else (.error (.failed "unsafe durable worker identity"), db')
  | r => r

/-- The effect of a statement on the database; `fresh` is the identifier a new batch receives. -/
def Sql.stmt (cfg : Config) (nodeID : NodeID) (fresh : ℕ) :
    (q : Sql) → Db → Except Err q.Answer × Db
  | .launch c companyID launchID stmt, db => (stmt.exec nodeID c companyID launchID db).map .ok id
  | .claim _ w expected, db => claimChecked cfg nodeID w expected db
  | .activate w, db => (activateWorkerLaunch nodeID w db).map .ok id
  | .setDesired c companyID tenantSchema launchID desiredState, db =>
    setDesiredStateAndAbandonHaltedUpgrade c companyID tenantSchema launchID desiredState db
  | .normalize c companyID tenantSchema launchID artifact, db =>
    (normalizeLegacyWorkerArtifact c companyID tenantSchema launchID artifact db).map .ok id
  | .getWorker c, db => (Orchestrator.getWorker c db).map .ok id
  | .getRestartCount c companyID launchID, db =>
    (getRestartCountLaunch c companyID launchID db).map .ok id
  | .adoptUnassigned, db => (adoptUnassignedWorkers nodeID db).map .ok id
  | .getNodeWorkers, db => (Orchestrator.getNodeWorkers nodeID db).map .ok id
  | .listFailed, db => (listFailedNodeWorkers nodeID cfg.nodeTakeoverMargin db).map .ok id
  | .takeOver c previousNodeID, db =>
    (takeOverFailedNodeWorker nodeID c previousNodeID cfg.nodeTakeoverMargin db).map .ok id
  | .markRecovering cs, db => (markWorkersRecovering cs db).map .ok id
  | .batch stmt, db => stmt.exec db
  | .getBatch batchID, db => (getWorkerUpgradeBatch batchID db).map .ok id
  | .getActiveBatch, db => (getActiveWorkerUpgradeBatch db).map .ok id
  | .createBatch target intents, db => createWorkerUpgradeBatch fresh target intents db

def Fault.perform {α : Type} (f : Fault) (stmt : Db → Except Err α × Db) (db : Db) :
    Except Err α × Db :=
  match f with
  | .ok => stmt db
  | .fail => (.error .database, db)
  | .failAfter => (.error .database, (stmt db).2)

theorem Fault.perform_snd {α : Type} (f : Fault) (stmt : Db → Except Err α × Db) (db : Db) :
    (f.perform stmt db).2 = db ∨ (f.perform stmt db).2 = (stmt db).2 := by
  cases f with
  | ok => exact Or.inr rfl
  | fail => exact Or.inl rfl
  | failAfter => exact Or.inr rfl

theorem Fault.perform_ok {α : Type} {f : Fault} {stmt : Db → Except Err α × Db} {db : Db} {a : α}
    (h : (f.perform stmt db).1 = .ok a) :
    (stmt db).1 = .ok a ∧ (f.perform stmt db).2 = (stmt db).2 := by
  cases f with
  | ok => exact ⟨h, rfl⟩
  | fail => cases h
  | failAfter => cases h

/-! ### Sections under `m.mu` -/

/-- The fields a section changes in an entry that still holds its launch. -/
inductive EntryUpdate
  /-- `markLaunchFailed`, and an adopted process that does not match. -/
  | failed
  | identity (uid gid : ℕ)
  | healthAttached
  | healthCanceled
  /-- `stopWorkerInternal` takes its intent back. -/
  | stopRestored (status : WorkerStatus) (desiredState : DesiredState)
  | stopFailed
  /-- An unlink whose purge is not proved keeps the entry. -/
  | unlinkRetained
  | recovering
  deriving DecidableEq

def EntryUpdate.apply : EntryUpdate → WorkerProcess → WorkerProcess
  | .failed, w => { w with pid := 0, status := .error }
  | .identity uid gid, w => { w with workerUID := uid, workerGID := gid }
  | .healthAttached, w => { w with healthCheck := true }
  | .healthCanceled, w => { w with healthCheck := false }
  | .stopRestored status desiredState, w =>
    { w with status := status, desiredState := desiredState, expectedExit := false }
  | .stopFailed, w => { w with status := .error, expectedExit := false }
  | .unlinkRetained, w => { w with pid := 0, status := .error, desiredState := .unlinking }
  | .recovering, w => { w with pid := 0, status := .recovering }

inductive Signal
  | term | usr1 | kill
  deriving DecidableEq

/-- What `stopWorkerInternal` keeps from its first section. -/
structure StopTicket where
  /-- The entry as it was before the stop. -/
  previous : WorkerProcess
  target : DesiredState
  deriving DecidableEq

/-- What `monitorWorkerProcess` reads when its process has exited. -/
structure MonitorView where
  isCurrent : Bool
  expectedExit : Bool
  shuttingDown : Bool
  deriving DecidableEq

inductive RuntimeSignal
  | processReady | connected | authenticated | disconnected
  deriving DecidableEq

/-- An authenticated runtime signal of a worker; `token` stands for its signature. -/
structure WorkerRuntimeStatus where
  companyID : CompanyID
  connectionID : ConnectionID
  launchID : LaunchID
  artifactVersion : ℕ
  token : ℕ
  signal : RuntimeSignal
  timestamp : ℕ
  deriving DecidableEq

namespace Manager

/-- The first section of `handleWorkerFailure`. -/
def failureSection (c : ConnectionID) (launchID : LaunchID) (m : Manager) :
    Option WorkerProcess × Manager :=
  match m.workers.find? c with
  | none => (none, m)
  | some w =>
    if w.launchID ≠ launchID ∨ w.desiredState ≠ .running then (none, m)
    else
      let failed := { w with status := .error, pid := 0, healthCheck := false }
      (some failed, m.insert c failed)

/-- The first section of `stopWorkerInternal`. -/
def stopSection (companyID : CompanyID) (c : ConnectionID) (signal : Signal)
    (preserveRegistry : Bool) (m : Manager) : Except Err StopTicket × Manager :=
  match m.workers.find? c with
  | none => (.error .workerNotFound, m)
  | some w =>
    if w.companyID ≠ companyID then (.error (.failed "worker belongs to another company"), m)
    else if w.pid = 0 ∧ w.status ≠ .error ∧ w.status ≠ .stopped then
      (.error (.failed "worker has no process ID"), m)
    else
      let target := if signal = .usr1 then DesiredState.unlinking else .stopped
      (.ok ⟨w, target⟩, m.insert c { w with
        status := .stopping, expectedExit := true
        desiredState := if preserveRegistry then w.desiredState else target })

/-- The first section of `monitorWorkerProcess`.  The flags of a launch that has left the map are
those of its own `WorkerProcess`, which nothing else reads; `detached` stands for its
`ExpectedExit`. -/
def monitorSection (c : ConnectionID) (launchID : LaunchID) (token : Option ℕ) (removeOnExit : Bool)
    (detached : Bool) (m : Manager) : MonitorView × Manager :=
  let isCurrent := (m.workers.find? c).any fun w => w.launchID = launchID
  let expectedExit :=
    match m.workers.find? c with
    | some w => if w.launchID = launchID ∧ w.readinessToken = token then w.expectedExit else detached
    | none => detached
  (⟨isCurrent, expectedExit, m.shuttingDown⟩,
    if removeOnExit then m.updateEntry c launchID EntryUpdate.healthCanceled.apply else m)

/-- The entry `reconcileDurableLifecycleWorker` makes visible. -/
def durableEntry (c : ConnectionID) (r : WorkerRecord) : WorkerProcess where
  connectionID := c
  launchID := r.launchID
  desiredState := r.desiredState
  companyID := r.companyID
  tenantSchema := r.tenantSchema
  status := if r.pid = 0 then .error else r.status
  pid := r.pid
  restartCount := r.restartCount
  artifact := r.artifact
  workerUID := r.workerUID
  workerGID := r.workerGID

/-- The last section of `reconcileDurableLifecycleWorker`. -/
def reconcileSection (c : ConnectionID) (r : WorkerRecord) (m : Manager) : Manager :=
  match m.workers.find? c with
  | none => m.insert c (durableEntry c r)
  | some w =>
    if w.launchID = r.launchID ∧ w.companyID = r.companyID ∧ w.tenantSchema = r.tenantSchema then m
    else m.insert c (durableEntry c r)

/-- `acceptsRuntimeConnectionState`. -/
def acceptsRuntimeConnectionState (w : WorkerProcess) : Bool :=
  decide (w.desiredState = .running) && w.status.isRuntime

/-- The flags and the status after one runtime signal. -/
def applyRuntimeSignal (signal : RuntimeSignal) (w : WorkerProcess) : WorkerProcess :=
  match signal with
  | .processReady => { w with processReady := true }
  | .connected =>
    { w with
      runtimeConnected := true
      status := if acceptsRuntimeConnectionState w then .connected else w.status }
  | .authenticated => { w with authenticated := true }
  | .disconnected =>
    { w with
      processReady := false, runtimeConnected := false, authenticated := false
      status := if acceptsRuntimeConnectionState w then .disconnected else w.status }

def durableStatus (signal : RuntimeSignal) (w : WorkerProcess) : Option WorkerStatus :=
  match signal with
  | .connected => if acceptsRuntimeConnectionState w then some .connected else none
  | .disconnected => if acceptsRuntimeConnectionState w then some .disconnected else none
  | _ => none

/-- What `RecordWorkerRuntimeStatus` goes on with: whether the readiness is complete, whether the
budget was cleared, and the status to persist. -/
structure RuntimeResult where
  complete : Bool
  clearRestartBudget : Bool
  durable : Option WorkerStatus
  deriving DecidableEq

/-- The section of `RecordWorkerRuntimeStatus` that accepts a signal. -/
def runtimeSection (status : WorkerRuntimeStatus) (m : Manager) : Option RuntimeResult × Manager :=
  match m.workers.find? status.connectionID with
  | none => (none, m)
  | some w =>
    if w.companyID ≠ status.companyID ∨ w.launchID ≠ status.launchID ∨
        w.artifact.version ≠ status.artifactVersion ∨ w.readinessToken ≠ some status.token ∨
        ¬ w.lastRuntimeSignalAt < status.timestamp then (none, m)
    else
      let w' := { applyRuntimeSignal status.signal w with lastRuntimeSignalAt := status.timestamp }
      let complete := w'.processReady && w'.runtimeConnected && w'.authenticated
      let clear := complete && decide (w'.restartCount ≠ 0)
      (some ⟨complete, clear, durableStatus status.signal w⟩,
        m.insert status.connectionID { w' with
          restartCount := if clear then 0 else w'.restartCount })

end Manager

inductive Section
  /-- `GetWorkerStatus` and the other read sections. -/
  | find (c : ConnectionID)
  | list
  | isShuttingDown
  | beginShutdown
  /-- `WorkerCount() >= MaxWorkers`. -/
  | atCapacity
  /-- The reservation; without a planned launch it draws a fresh one. -/
  | reserve (origin : LaunchOrigin) (spec : Manager.LaunchSpec) (planned : Option LaunchID)
  | insert (c : ConnectionID) (w : WorkerProcess)
  | insertIfAbsent (c : ConnectionID) (w : WorkerProcess)
  /-- `restorePrevious`. -/
  | restore (c : ConnectionID) (w : WorkerProcess)
  /-- `installRolloutPredecessor`. -/
  | install (c : ConnectionID) (w : WorkerProcess)
  | update (c : ConnectionID) (launchID : LaunchID) (u : EntryUpdate)
  | delete (c : ConnectionID) (launchID : LaunchID)
  /-- `delete(m.workers, c)`. -/
  | deleteAny (c : ConnectionID)
  | recordStarted (spec : Manager.LaunchSpec) (pid : ℕ)
  | failure (c : ConnectionID) (launchID : LaunchID)
  | stop (companyID : CompanyID) (c : ConnectionID) (signal : Signal) (preserveRegistry : Bool)
  | monitor (c : ConnectionID) (launchID : LaunchID) (token : Option ℕ) (removeOnExit : Bool)
  | reconcile (c : ConnectionID) (r : WorkerRecord)
  | runtime (status : WorkerRuntimeStatus)
  deriving DecidableEq

@[reducible] def Section.Answer : Section → Type
  | .find _ => Option WorkerProcess
  | .list => List WorkerProcess
  | .isShuttingDown => Bool
  | .beginShutdown => Unit
  | .atCapacity => Bool
  | .reserve .. => Manager.Reservation × LaunchID × ℕ
  | .insert .. => Unit
  | .insertIfAbsent .. => Bool
  | .restore .. => Unit
  | .install .. => Unit
  | .update .. => Unit
  | .delete .. => Unit
  | .deleteAny _ => Unit
  | .recordStarted .. => Option WorkerProcess
  | .failure .. => Option WorkerProcess
  | .stop .. => Except Err StopTicket
  | .monitor .. => MonitorView
  | .reconcile .. => Unit
  | .runtime _ => Option Manager.RuntimeResult

/-- The specification with the launch and the token of its reservation. -/
def Manager.LaunchSpec.drawn (spec : Manager.LaunchSpec) (launchID : LaunchID) (token : ℕ) :
    Manager.LaunchSpec :=
  { spec with launchID := launchID, readinessToken := token }

def Section.apply (cfg : Config) (fresh token : ℕ) (flag : Bool) :
    (sec : Section) → Manager → sec.Answer × Manager
  | .find c, m => (m.workers.find? c, m)
  | .list, m => (m.workers.entries.map Prod.snd, m)
  | .isShuttingDown, m => (m.shuttingDown, m)
  | .beginShutdown, m => ((), { m with shuttingDown := true })
  | .atCapacity, m => (decide (0 < cfg.maxWorkers ∧ cfg.maxWorkers ≤ m.workerCount), m)
  | .reserve _ spec planned, m =>
    -- the planned launch, or the fresh one
    let r := Manager.reserveSlot cfg (spec.drawn (planned.getD fresh) token) m
    ((r.1, planned.getD fresh, token), r.2)
  | .insert c w, m => ((), m.insert c w)
  | .insertIfAbsent c w, m => m.insertIfAbsent c w
  | .restore c w, m => ((), (m.insertIfAbsent c w).2)
  | .install c w, m => ((), m.insert c w)
  | .update c launchID u, m => ((), m.updateEntry c launchID u.apply)
  | .delete c launchID, m => ((), m.deleteEntry c launchID)
  | .deleteAny c, m => ((), { m with workers := m.workers.erase c })
  | .recordStarted spec pid, m => Manager.recordStarted spec pid m
  | .failure c launchID, m => Manager.failureSection c launchID m
  | .stop companyID c signal preserveRegistry, m =>
    Manager.stopSection companyID c signal preserveRegistry m
  | .monitor c launchID token' removeOnExit, m =>
    Manager.monitorSection c launchID token' removeOnExit flag m
  | .reconcile c r, m => ((), Manager.reconcileSection c r m)
  | .runtime status, m => Manager.runtimeSection status m

/-! ### Processes, goroutines and events -/

structure Process where
  nodeID : NodeID
  connectionID : ConnectionID
  companyID : CompanyID
  launchID : LaunchID
  artifact : WorkerArtifact
  workerUID : ℕ
  workerGID : ℕ
  token : Option ℕ
  /-- It was started with `UNLINK_ON_START`, or SIGUSR1 reached it alive. -/
  purge : Bool
  killed : Bool
  /-- The wait status of a process that has exited. -/
  exited : Option ℕ
  deriving DecidableEq

def Process.alive (p : Process) : Bool := p.exited.isNone

/-- What `monitorWorkerProcess` was started with. -/
structure MonitorTask where
  connectionID : ConnectionID
  companyID : CompanyID
  launchID : LaunchID
  token : Option ℕ
  removeOnExit : Bool
  pid : ℕ
  deriving DecidableEq

/-- A goroutine that was started with `go`. -/
inductive Goroutine
  | restart (w : WorkerProcess)
  | failure (c : ConnectionID) (launchID : LaunchID)
  | monitor (task : MonitorTask)
  | healthCheck (c : ConnectionID) (launchID : LaunchID)
  | stopForShutdown (companyID : CompanyID) (c : ConnectionID)
  deriving DecidableEq

/-- What the properties of whole runs are about. -/
inductive Event
  /-- A claim wrote the row over the launch `predecessor`. -/
  | claimed (c : ConnectionID) (origin : LaunchOrigin) (launchID : LaunchID)
      (predecessor : Option LaunchID)
  /-- The row was deleted; `purged` says that a purge process of its launch had exited with status
  0. -/
  | removed (c : ConnectionID) (row : WorkerRecord) (purged : Bool)
  /-- The readiness of a launch is complete; `current` says that the row holds it. -/
  | ready (c : ConnectionID) (launchID : LaunchID) (current : Bool)
  /-- A rollout put the predecessor of its launch into the map. -/
  | installed (c : ConnectionID) (launchID : LaunchID)
  | started (c : ConnectionID) (launchID : LaunchID) (pid : ℕ)
  /-- A reservation of the thread drew the launch, for a worker with this count. -/
  | reserved (c : ConnectionID) (launchID : LaunchID) (restartCount : ℕ) (thread : ℕ)
  deriving DecidableEq

inductive NodePhase
  | down | starting | serving
  deriving DecidableEq

/-- One orchestrator: its memory and its locks, held by thread numbers. -/
structure Node where
  phase : NodePhase
  manager : Manager
  lifecycle : Table ConnectionID ℕ
  rolloutReaders : List ℕ
  rolloutWriter : Option ℕ

def Node.stopped : Node := ⟨.down, Manager.fresh, Table.empty, [], none⟩

instance : Inhabited Node := ⟨Node.stopped⟩

structure World where
  db : Db
  node : NodeID → Node
  processes : Table ℕ Process
  /-- The launch IDs drawn so far, with the company they were drawn for. -/
  owners : Table LaunchID CompanyID
  planned : List LaunchID
  pending : List (NodeID × Goroutine)
  log : List Event

namespace World

def setNode (w : World) (n : NodeID) (x : Node) : World :=
  { w with node := fun n' => if n' = n then x else w.node n' }

def setManager (w : World) (n : NodeID) (m : Manager) : World :=
  w.setNode n { w.node n with manager := m }

def row (w : World) (c : ConnectionID) : Option WorkerRecord := w.db.registry.find? c

def entry (w : World) (n : NodeID) (c : ConnectionID) : Option WorkerProcess :=
  (w.node n).manager.workers.find? c

/-- A purge process of the launch has exited with status 0. -/
def purged (w : World) (c : ConnectionID) (launchID : LaunchID) : Prop :=
  ∃ e ∈ w.processes.entries, e.2.connectionID = c ∧ e.2.launchID = launchID ∧ e.2.purge = true ∧
    e.2.exited = some 0

instance (w : World) (c : ConnectionID) (launchID : LaunchID) : Decidable (w.purged c launchID) :=
  inferInstanceAs (Decidable (∃ e ∈ _, _))

end World

/-! ### Operations -/

inductive ProcessOp
  /-- `cmd.Start`. -/
  | start (w : WorkerProcess)
  /-- `stopUnregisteredProcess`: it returns also when the process outlives SIGKILL. -/
  | stopUnregistered (pid : ℕ)
  | signal (pid : ℕ) (signal : Signal)
  /-- `waitForWorkerExit`: the wait status, or nothing after the grace period. -/
  | waitExit (pid : ℕ)
  /-- `cmd.Wait`. -/
  | wait (pid : ℕ)
  | probe (pid : ℕ)
  | isZombie (pid : ℕ)
  /-- `isExpectedWorkerProcessAtPath`. -/
  | isExpected (pid : ℕ) (companyID : CompanyID) (c : ConnectionID) (artifact : WorkerArtifact)
      (uid gid : ℕ)
  deriving DecidableEq

@[reducible] def ProcessOp.Answer : ProcessOp → Type
  | .start _ => Option ℕ
  | .stopUnregistered _ => Unit
  | .signal .. => Bool
  | .waitExit _ => Option ℕ
  | .wait _ => ℕ
  | .probe _ => Bool
  | .isZombie _ => Bool
  | .isExpected .. => Except Err Bool

inductive Op
  | lockLifecycle (c : ConnectionID)
  | unlockLifecycle (c : ConnectionID)
  | rlockRollout
  | runlockRollout
  | tryLockRollout
  | lockRollout
  | unlockRollout
  /-- `rolloutWG.Wait()`: the runner holds the lock until it ends. -/
  | awaitRollout
  | sql (q : Sql)
  | mem (sec : Section)
  | process (p : ProcessOp)
  | go (g : Goroutine)
  /-- `newLaunchID` for a generation a rollout is about to reserve. -/
  | mintGeneration (companyID : CompanyID)
  /-- `resolveArtifact`: the host has the artifact or not. -/
  | resolveArtifact (artifact : WorkerArtifact)
  /-- `defaultArtifact`. -/
  | defaultArtifact
  /-- `ctx.Err() != nil` of the rollout context, canceled by `Stop`. -/
  | rolloutCanceled
  /-- `waitWorkerReady` has returned; the answer says that it was in time. -/
  | waitReady (launchID : LaunchID)
  /-- `SelectSpawnNode`: whether a live peer has a free slot. -/
  | selectSpawnNode
  /-- `Start` is through and commands are consumed. -/
  | serve
  deriving DecidableEq

@[reducible] def Op.Resp : Op → Type
  | .lockLifecycle _ => Unit
  | .unlockLifecycle _ => Unit
  | .rlockRollout => Unit
  | .runlockRollout => Unit
  | .tryLockRollout => Bool
  | .lockRollout => Unit
  | .unlockRollout => Unit
  | .awaitRollout => Unit
  | .sql q => Except Err q.Answer
  | .mem sec => sec.Answer
  | .process p => p.Answer
  | .go _ => Unit
  | .mintGeneration _ => LaunchID
  | .resolveArtifact _ => Except Err WorkerArtifact
  | .defaultArtifact => Except Err WorkerArtifact
  | .rolloutCanceled => Bool
  | .waitReady _ => Bool
  | .selectSpawnNode => Except Err Bool
  | .serve => Unit

structure Choice where
  fault : Fault := .ok
  /-- A launch, batch or process identifier. -/
  fresh : ℕ := 0
  token : ℕ := 0
  flag : Bool := true
  artifact : WorkerArtifact := ⟨0, 0⟩

/-- The goroutines of one node are started for a task. -/
inductive Command
  | spawn (companyID : CompanyID) (c : ConnectionID) (tenantSchema : TenantSchema)
  | stop (companyID : CompanyID) (c : ConnectionID)
  | unlink (companyID : CompanyID) (c : ConnectionID) (tenantSchema : TenantSchema)
  | takeOver
  | runtimeStatus (status : WorkerRuntimeStatus)
  | startUpgrade (target : WorkerArtifact) (companyID : Option CompanyID)
      (c : Option ConnectionID)
  | retryUpgrade (batchID : BatchID) (c : ConnectionID)
  | boot
  | shutdown
  deriving DecidableEq

inductive Task
  | command (cmd : Command)
  | goroutine (g : Goroutine)
  deriving DecidableEq

structure Ctx where
  nodeID : NodeID
  task : Task
  deriving DecidableEq

namespace World

def removedRow (w : World) (c : ConnectionID) (companyID : CompanyID) (launchID : LaunchID) :
    Option WorkerRecord :=
  (w.row c).filter (ofLaunch companyID launchID)

/-- The events of a statement that was carried out. -/
def sqlEvents (cfg : Config) (n : NodeID) (w : World) : Sql → List Event
  | .claim origin p expected =>
    match (claimWorkerLaunch cfg n p expected w.db).1 with
    | .ok _ => [.claimed p.connectionID origin p.launchID
        ((w.row p.connectionID).map WorkerRecord.launchID)]
    | .error _ => []
  | .launch c companyID launchID .remove =>
    ((w.removedRow c companyID launchID).map fun r =>
      Event.removed c r (decide (w.purged c r.launchID))).toList
  | _ => []

def sectionEvents (w : World) (thread fresh : ℕ) : (sec : Section) → sec.Answer → List Event
  | .reserve _ spec none, _ => [.reserved spec.connectionID fresh spec.restartCount thread]
  | .install c p, _ => [.installed c p.launchID]
  | .runtime status, some result =>
    if result.complete then
      [.ready status.connectionID status.launchID
        (decide ((w.row status.connectionID).map WorkerRecord.launchID = some status.launchID))]
    else []
  | _, _ => []

def reserveOwners (w : World) (fresh : ℕ) : Section → Option (Table LaunchID CompanyID)
  | .reserve _ spec none =>
    if w.owners.find? fresh = none then some (w.owners.put fresh spec.companyID) else none
  | _ => some w.owners

/-- The process with this number, if it runs on the node. -/
def local? (w : World) (n : NodeID) (pid : ℕ) : Option Process :=
  (w.processes.find? pid).filter fun p => p.nodeID = n

def execProcess (w : World) (n : NodeID) (f : Choice) : (p : ProcessOp) → Option (p.Answer × World)
  | .start p =>
    if f.flag = false then some (none, w)
    else if f.fresh = 0 ∨ w.processes.find? f.fresh ≠ none then none
    else
      let child : Process :=
        { nodeID := n, connectionID := p.connectionID, companyID := p.companyID
          launchID := p.launchID, artifact := p.artifact, workerUID := p.workerUID
          workerGID := p.workerGID, token := p.readinessToken, purge := p.removeOnExit
          killed := false, exited := none }
      some (some f.fresh, { w with
        processes := w.processes.put f.fresh child
        log := .started p.connectionID p.launchID f.fresh :: w.log })
  | .stopUnregistered pid =>
    some ((), { w with
      processes := (w.processes.updateWhere pid (fun p => p.alive = true)
        (fun p => { p with killed := true, exited := if f.flag then some 137 else none })).1 })
  | .signal pid signal =>
    some (f.flag, { w with
      processes := (w.processes.updateWhere pid (fun p => p.alive = true ∧ p.nodeID = n)
        (fun p => { p with
          purge := p.purge || decide (signal = .usr1)
          killed := p.killed || decide (signal = .kill) })).1 })
  | .waitExit pid => some (if f.flag then (w.processes.find? pid).bind Process.exited else none, w)
  | .wait pid =>
    match (w.processes.find? pid).bind Process.exited with
    | some status => some (status, w)
    | none => none
  | .probe pid => some ((w.local? n pid).any Process.alive || f.flag, w)
  | .isZombie pid => some (f.flag && (w.local? n pid).any fun p => !p.alive, w)
  | .isExpected pid companyID c artifact uid gid =>
    match f.fault with
    | .ok => some (.ok ((w.local? n pid).any fun p => p.alive && decide (p.companyID = companyID ∧
        p.connectionID = c ∧ p.artifact = artifact ∧ p.workerUID = uid ∧ p.workerGID = gid)), w)
    | _ => some (.error (.failed "verify worker process"), w)

/-- One operation of the thread `t`. -/
def exec (cfg : Config) (t : Who Ctx) (op : Op) (f : Choice) (w : World) :
    Option (op.Resp × World) :=
  let n := t.ctx.nodeID
  let x := w.node n
  match op with
  | .lockLifecycle c =>
    match x.lifecycle.find? c with
    | none => some ((), w.setNode n { x with lifecycle := x.lifecycle.put c t.id })
    | some _ => none
  | .unlockLifecycle c => some ((), w.setNode n { x with lifecycle := x.lifecycle.erase c })
  | .rlockRollout =>
    if x.rolloutWriter = none then
      some ((), w.setNode n { x with rolloutReaders := t.id :: x.rolloutReaders })
    else none
  | .runlockRollout =>
    some ((), w.setNode n { x with rolloutReaders := x.rolloutReaders.erase t.id })
  | .tryLockRollout =>
    if x.rolloutWriter = none ∧ x.rolloutReaders = [] then
      some (true, w.setNode n { x with rolloutWriter := some t.id })
    else some (false, w)
  | .lockRollout =>
    if x.rolloutWriter = none ∧ x.rolloutReaders = [] then
      some ((), w.setNode n { x with rolloutWriter := some t.id })
    else none
  | .unlockRollout => some ((), w.setNode n { x with rolloutWriter := none })
  | .awaitRollout => if x.rolloutWriter = none then some ((), w) else none
  | .sql q =>
    let r := f.fault.perform (q.stmt cfg n f.fresh) w.db
    some (r.1, { w with
      db := r.2
      log := (if f.fault = .fail then [] else w.sqlEvents cfg n q) ++ w.log })
  | .mem sec =>
    match w.reserveOwners f.fresh sec with
    | none => none
    | some owners =>
      let r := sec.apply cfg f.fresh f.token f.flag x.manager
      some (r.1, { w.setManager n r.2 with
        owners := owners, log := w.sectionEvents t.id f.fresh sec r.1 ++ w.log })
  | .process p => w.execProcess n f p
  | .go g => some ((), { w with pending := w.pending ++ [(n, g)] })
  | .mintGeneration companyID =>
    if w.owners.find? f.fresh = none then
      some (f.fresh, { w with
        owners := w.owners.put f.fresh companyID, planned := f.fresh :: w.planned })
    else none
  | .resolveArtifact artifact =>
    some (if f.flag then .ok artifact else .error (.failed "artifact is not available"), w)
  | .defaultArtifact =>
    some (if f.flag then .ok f.artifact else .error (.failed "resolve default worker artifact"), w)
  | .rolloutCanceled => some (f.flag && x.manager.shuttingDown, w)
  | .waitReady _ => some (f.flag, w)
  | .selectSpawnNode =>
    some (if f.fault = .ok then .ok f.flag else .error .database, w)
  | .serve => some ((), w.setNode n { x with phase := .serving })

end World

end TeamInbox.Orchestrator
