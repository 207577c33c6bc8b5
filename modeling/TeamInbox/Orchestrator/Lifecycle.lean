import TeamInbox.Orchestrator.World

/-!
# TeamInbox.Orchestrator.Lifecycle — spawn, stop, the spawn command and the runtime status

The functions of `spawn.go` and `stop.go`, the spawn command and the runtime status handler as
procedures.  Publishing a connection status and logging are left out: they touch nothing
the functions read.
-/

namespace TeamInbox.Orchestrator

open TeamInbox.Lib
open Manager (LaunchSpec Reservation)

abbrev Go (α : Type) := Proc Op Op.Resp Err α

def perform (op : Op) : Go op.Resp := Proc.call op

def sql (q : Sql) : Go (Except Err q.Answer) := perform (.sql q)

def mem (sec : Section) : Go sec.Answer := perform (.mem sec)

def process (p : ProcessOp) : Go p.Answer := perform (.process p)

def go (g : Goroutine) : Go Unit := perform (.go g)

/-- `unlock := m.lockLifecycle(c); defer unlock()`. -/
def withLifecycle {α : Type} (c : ConnectionID) (body : Go α) : Go α := do
  perform (.lockLifecycle c)
  let r ← body.attempt
  perform (.unlockLifecycle c)
  Proc.ofExcept r

/-- `m.rolloutMu.RLock(); defer m.rolloutMu.RUnlock()`. -/
def withRolloutRead {α : Type} (body : Go α) : Go α := do
  perform .rlockRollout
  let r ← body.attempt
  perform .runlockRollout
  Proc.ofExcept r

/-! ### Spawn -/

/-- The arguments of `spawnWorkerArtifactWithLaunch`; the reservation fills in launch and token. -/
def launchSpec (companyID : CompanyID) (c : ConnectionID) (tenantSchema : TenantSchema)
    (unlinkOnStart : Bool) (restartCount : ℕ) (artifact : WorkerArtifact) : LaunchSpec :=
  ⟨companyID, c, tenantSchema, unlinkOnStart, restartCount, artifact, 0, 0⟩

def removeInMemory (a : LaunchSpec) : Go Unit := mem (.delete a.connectionID a.launchID)

def restorePrevious (a : LaunchSpec) : Option WorkerProcess → Go Unit
  | none => pure ()
  | some w => mem (.restore a.connectionID w)

/-- `RemoveWorkerLaunch` with its result dropped. -/
def removeLaunch (a : LaunchSpec) : Go Unit := do
  let _ ← sql (.launch a.connectionID a.companyID a.launchID .remove)

def markLaunchFailed (a : LaunchSpec) : Go Unit := do
  mem (.update a.connectionID a.launchID .failed)
  let _ ← sql (.launch a.connectionID a.companyID a.launchID (.status .error))

/-- What a launch that failed after its claim leaves behind. -/
def abandonLaunch (a : LaunchSpec) : Go Unit := do
  if a.preserveFailedIntent then markLaunchFailed a
  else
    removeLaunch a
    removeInMemory a

/-- Every launch but a one-shot unlink is watched by a health check. -/
def startHealthCheck (a : LaunchSpec) : Go Unit := do
  if a.unlinkOnStart then pure ()
  else
    mem (.update a.connectionID a.launchID .healthAttached)
    go (.healthCheck a.connectionID a.launchID)

/-- The part of `spawnWorkerArtifactWithLaunch` from the activation on. -/
def activateStarted (a : LaunchSpec) (pid : ℕ) (worker : WorkerProcess) : Go Unit := do
  match ← sql (.activate worker) with
  | .ok true =>
    startHealthCheck a
    go (.monitor ⟨a.connectionID, a.companyID, a.launchID, some a.readinessToken, a.unlinkOnStart,
      pid⟩)
  | .ok false =>
    process (.stopUnregistered pid)
    removeInMemory a
    .fail .workerLaunchConflict
  | .error e =>
    process (.stopUnregistered pid)
    abandonLaunch a
    .fail e

/-- The part of `spawnWorkerArtifactWithLaunch` from `cmd.Start` on. -/
def startClaimed (a : LaunchSpec) (uid gid : ℕ) : Go Unit := do
  match ← process (.start { a.worker with workerUID := uid, workerGID := gid }) with
  | none =>
    abandonLaunch a
    .fail (.failed "failed to start worker process")
  | some pid =>
    match ← mem (.recordStarted a pid) with
    | none =>
      process (.stopUnregistered pid)
      removeLaunch a
      .fail (.failed "worker launch changed during process start")
    | some worker => activateStarted a pid worker

/-- What a refused claim leaves behind: a launch that lost the row is not brought back. -/
def abandonReservation (a : LaunchSpec) (previous : Option WorkerProcess) (e : Err) : Go Unit := do
  removeInMemory a
  if e = .workerLaunchConflict then pure () else restorePrevious a previous

/-- The part of `spawnWorkerArtifactWithLaunch` from the claim on. -/
def claimReserved (origin : LaunchOrigin) (a : LaunchSpec) (previous : Option WorkerProcess) :
    Go Unit := do
  match ← sql (.claim origin a.worker (previous.map WorkerProcess.launchID)) with
  | .error e =>
    abandonReservation a previous e
    .fail e
  | .ok (uid, gid) =>
    mem (.update a.connectionID a.launchID (.identity uid gid))
    -- `newWorkerSysProcAttr`
    if validWorkerIdentity uid gid then startClaimed a uid gid
    else
      removeLaunch a
      removeInMemory a
      .fail (.failed "configure worker process isolation")

/-- `spawnWorkerArtifactWithLaunch`. -/
def spawnWorkerArtifactWithLaunch (origin : LaunchOrigin) (spec : LaunchSpec)
    (plannedLaunchID : Option LaunchID) : Go Unit := do
  let r ← mem (.reserve origin spec plannedLaunchID)
  match r.1 with
  | .shuttingDown => .fail (.failed "process manager is shutting down")
  | .otherCompany => .fail (.failed "worker belongs to another company")
  | .alreadyRunning => pure ()
  | .workerLimit => .fail (.failed "worker limit reached")
  | .missingCredentials => .fail (.failed "restricted worker database and NATS credentials are required")
  | .reserved previous => claimReserved origin (spec.drawn r.2.1 r.2.2) previous

/-- `spawnWorker`. -/
def spawnWorker (origin : LaunchOrigin) (companyID : CompanyID) (c : ConnectionID)
    (tenantSchema : TenantSchema) (unlinkOnStart : Bool) (restartCount : ℕ) : Go Unit := do
  match ← perform .defaultArtifact with
  | .error e => .fail e
  | .ok artifact =>
    spawnWorkerArtifactWithLaunch origin
      (launchSpec companyID c tenantSchema unlinkOnStart restartCount artifact) none

/-! ### Stop -/

/-- `reconcileDurableLifecycleWorker`. -/
def reconcileDurableLifecycleWorker (companyID : CompanyID) (c : ConnectionID)
    (tenantHint : Option TenantSchema) : Go (Option WorkerRecord) := do
  match ← sql (.getWorker c) with
  | .error e => .fail e
  | .ok none => pure none
  | .ok (some r) =>
    if r.companyID ≠ companyID then .fail (.failed "worker belongs to another company")
    else if tenantHint ≠ none ∧ tenantHint ≠ some r.tenantSchema then
      .fail (.failed "worker tenant changed before lifecycle operation")
    else if r.artifact = embeddedArtifact then
      .fail (.failed "worker artifact normalization incomplete")
    else
      let exactMap := (← mem (.find c)).any fun w =>
        w.launchID = r.launchID ∧ w.companyID = r.companyID ∧ w.tenantSchema = r.tenantSchema
      if exactMap then pure (some r)
      else
        match ← perform (.resolveArtifact r.artifact) with
        | .error e => .fail e
        | .ok _ =>
          mem (.reconcile c r)
          pure (some r)

/-- The durable intent of a stop: `desired_state`, or `recovering` when the row is to survive. -/
def persistStopIntent (companyID : CompanyID) (c : ConnectionID) (preserveRegistry : Bool)
    (ticket : StopTicket) : Go Unit := do
  let w := ticket.previous
  if preserveRegistry then
    let _ ← sql (.launch c companyID w.launchID (.status .recovering))
  else
    match ← sql (.setDesired c companyID w.tenantSchema w.launchID ticket.target) with
    | .ok (true, _) => pure ()
    | .ok (false, _) =>
      mem (.update c w.launchID (.stopRestored w.status w.desiredState))
      .fail (.failed "worker launch changed while stopping")
    | .error e =>
      mem (.update c w.launchID (.stopRestored w.status w.desiredState))
      .fail e

/-- `RemoveWorkerLaunch` on the way of a stop that finds no process. -/
def removeProcessless (companyID : CompanyID) (c : ConnectionID) (launchID : LaunchID) :
    Go Unit := do
  match ← sql (.launch c companyID launchID .remove) with
  | .ok true => pure ()
  | .ok false =>
    mem (.update c launchID .stopFailed)
    .fail (.failed "processless worker launch changed before removal")
  | .error e =>
    mem (.update c launchID .stopFailed)
    .fail e

def stopProcessless (companyID : CompanyID) (c : ConnectionID) (preserveRegistry : Bool)
    (ticket : StopTicket) : Go Unit := do
  let launchID := ticket.previous.launchID
  if preserveRegistry = false ∧ ticket.target = .unlinking then
    mem (.update c launchID .stopFailed)
    .fail (.failed "worker has no live process; durable unlink must be resumed")
  else if preserveRegistry then mem (.delete c launchID)
  else
    removeProcessless companyID c launchID
    mem (.delete c launchID)

/-- Wait for the exit, escalate to SIGKILL, and wait again; the answer is the wait status. -/
def awaitTermination (pid : ℕ) : Go ℕ := do
  match ← process (.waitExit pid) with
  | some status => pure status
  | none =>
    let _ ← process (.signal pid .kill)
    match ← process (.waitExit pid) with
    | some status => pure status
    | none => .fail (.failed "worker did not exit")

/-- A process this manager did not start is signaled only if it still is the expected one. -/
def confirmIdentity (c : ConnectionID) (w : WorkerProcess) : Go Unit := do
  if w.cmd then pure ()
  else
    match ← process (.isExpected w.pid w.companyID c w.artifact w.workerUID w.workerGID) with
    | .error e => .fail e
    | .ok false => .fail (.failed "refusing to signal reused PID")
    | .ok true => pure ()

/-- Signal the process of an entry and wait for its exit; one that has exited already is not
signaled. -/
def terminateWorker (c : ConnectionID) (signal : Signal) (w : WorkerProcess) : Go ℕ := do
  if ← process (.isZombie w.pid) then awaitTermination w.pid
  else
    confirmIdentity c w
    if ← process (.signal w.pid signal) then awaitTermination w.pid
    else .fail (.failed "signal worker")

/-- The row of a stop that is to survive records the confirmed exit. -/
def deactivateStopped (companyID : CompanyID) (c : ConnectionID) (w : WorkerProcess) :
    Go Unit := do
  match ← sql (.launch c companyID w.launchID (.deactivate w.pid)) with
  | .ok true => mem (.update c w.launchID .recovering)
  | .ok false => .fail (.failed "worker launch or PID changed before deactivation")
  | .error e => .fail e

/-- `RemoveWorkerLaunch` after a confirmed exit. -/
def removeStopped (companyID : CompanyID) (c : ConnectionID) (launchID : LaunchID) : Go Unit := do
  match ← sql (.launch c companyID launchID .remove) with
  | .ok true => pure ()
  | .ok false => .fail (.failed "worker launch changed before registry removal")
  | .error e => .fail e

/-- Only `cmd.Wait` knows how the process ended: an unlink whose process failed keeps its row. -/
def refuseFailedPurge (c : ConnectionID) (signal : Signal) (w : WorkerProcess) (status : ℕ) :
    Go Unit := do
  if signal = .usr1 ∧ w.cmd = true ∧ status ≠ 0 then
    mem (.update c w.launchID .unlinkRetained)
    .fail (.failed "unlink worker exited before completing purge")
  else pure ()

/-- The end of a stop whose process has exited with `status`. -/
def finishStop (companyID : CompanyID) (c : ConnectionID) (signal : Signal)
    (preserveRegistry : Bool) (ticket : StopTicket) (status : ℕ) : Go Unit := do
  let w := ticket.previous
  if preserveRegistry then
    deactivateStopped companyID c w
    refuseFailedPurge c signal w status
    mem (.delete c w.launchID)
  else
    refuseFailedPurge c signal w status
    removeStopped companyID c w.launchID
    mem (.delete c w.launchID)

/-- `stopWorkerInternal`. -/
def stopWorkerInternal (companyID : CompanyID) (c : ConnectionID) (signal : Signal)
    (preserveRegistry : Bool) : Go Unit := do
  match ← mem (.stop companyID c signal preserveRegistry) with
  | .error e => .fail e
  | .ok ticket =>
    persistStopIntent companyID c preserveRegistry ticket
    mem (.update c ticket.previous.launchID .healthCanceled)
    if ticket.previous.pid = 0 then stopProcessless companyID c preserveRegistry ticket
    else
      let status ← terminateWorker c signal ticket.previous
      finishStop companyID c signal preserveRegistry ticket status

/-- `StopWorker` under its locks. -/
def stopLocked (companyID : CompanyID) (c : ConnectionID) : Go Unit := do
  let _ ← reconcileDurableLifecycleWorker companyID c none
  stopWorkerInternal companyID c .term false

/-- `StopWorker`. -/
def stopWorker (companyID : CompanyID) (c : ConnectionID) : Go Unit :=
  withRolloutRead (withLifecycle c (stopLocked companyID c))

/-! ### Commands -/

/-- `resolveOwnership`: the durable record, and whether another node owns the connection. -/
def resolveOwnership (nodeID : NodeID) (companyID : CompanyID) (c : ConnectionID) :
    Go (Option WorkerRecord × Bool) := do
  match ← sql (.getWorker c) with
  | .error e => .fail e
  | .ok none => pure (none, false)
  | .ok (some r) =>
    if r.companyID ≠ companyID then .fail (.failed "worker belongs to another company")
    else pure (some r, decide (r.nodeID ≠ none ∧ r.nodeID ≠ some nodeID))

/-- A new connection that lands on a full node is placed on a live peer. -/
def placedElsewhere (record : Option WorkerRecord) : Go Bool := do
  if record.isSome then pure false
  else if ← mem .atCapacity then
    match ← perform .selectSpawnNode with
    | .error e => .fail e
    | .ok found => pure found
  else pure false

/-- A reconnect replaces a worker that is still on its way. -/
def stopStale (companyID : CompanyID) (c : ConnectionID) : Go Unit := do
  match ← mem (.find c) with
  | none => pure ()
  | some w =>
    if w.status ≠ .connected ∧ w.pid ≠ 0 then
      let _ ← (stopWorker companyID c).attempt
    else pure ()

/-- `handleSpawnCommand`; a command for another node is forwarded and ends here. -/
def handleSpawnCommand (nodeID : NodeID) (companyID : CompanyID) (c : ConnectionID)
    (tenantSchema : TenantSchema) : Go Unit := do
  let owner ← resolveOwnership nodeID companyID c
  if owner.2 then pure ()
  else if ← placedElsewhere owner.1 then pure ()
  else
    stopStale companyID c
    withRolloutRead (withLifecycle c (spawnWorker .explicit companyID c tenantSchema false 0))

/-! ### The runtime status -/

/-- `resetWorkerRestartCount`, when the section cleared the budget. -/
def clearDurableBudget (status : WorkerRuntimeStatus) (clearRestartBudget : Bool) : Go Unit := do
  if clearRestartBudget then
    let _ ← sql (.launch status.connectionID status.companyID status.launchID .resetRestart)
  else pure ()

/-- `persistWorkerRuntimeStatus`, when the signal has a durable status. -/
def persistRuntimeStatus (status : WorkerRuntimeStatus) : Option WorkerStatus → Go Unit
  | none => pure ()
  | some st => do
    let _ ← sql (.launch status.connectionID status.companyID status.launchID (.runtimeStatus st))

/-- `RecordWorkerRuntimeStatus`. -/
def recordWorkerRuntimeStatus (status : WorkerRuntimeStatus) : Go Unit := do
  match ← mem (.runtime status) with
  | none => pure ()
  | some r =>
    clearDurableBudget status r.clearRestartBudget
    persistRuntimeStatus status r.durable

end TeamInbox.Orchestrator
