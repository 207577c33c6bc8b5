import TeamInbox.Lib.Table

/-!
# TeamInbox.Orchestrator.Types — the data of the orchestrator

Rows of `worker_registry`, `orchestrator_nodes`, `worker_upgrade_batches` and
`worker_upgrade_items`, the in-memory `WorkerProcess` of a manager and the child processes of the
hosts.  Identifiers are numbers; a Go string that may be empty (an expected launch, a generation
column that is not reserved yet, a missing node) is an `Option`.  `worker_gid` is
`GENERATED ALWAYS AS (worker_uid)`, so a row has no field of its own for it.
-/

namespace TeamInbox.Orchestrator

open TeamInbox.Lib

abbrev ConnectionID := ℕ
abbrev CompanyID := ℕ
abbrev TenantSchema := ℕ
abbrev LaunchID := ℕ
abbrev NodeID := ℕ
abbrev BatchID := ℕ

/-- The connection status vocabulary of `services/shared/nats`, and the registry-only
`recovering` of `recovery.go`. -/
inductive WorkerStatus
  | starting | connecting | connected | disconnected | stopping | stopped | error | recovering
  deriving DecidableEq

/-- `desired_state`, checked by `worker_registry_desired_state_check`. -/
inductive DesiredState
  | running | stopped | unlinking
  deriving DecidableEq

inductive UpgradePhase
  | stop | launch | verify | rollback | recovery | canceled | halted | abandoned
  deriving DecidableEq

inductive ItemResult
  | targetComplete | rollbackComplete | canceledUntouched | abandonedExternal
  deriving DecidableEq

inductive BatchResult
  | completed | rolledBack | abandoned
  deriving DecidableEq

/-- An immutable worker executable.  Digests are stored in lower case, so `strings.EqualFold` on
them is equality. -/
structure WorkerArtifact where
  version : ℕ
  sha256 : ℕ
  deriving DecidableEq

/-- A row of `worker_registry`. -/
structure WorkerRecord where
  companyID : CompanyID
  tenantSchema : TenantSchema
  pid : ℕ
  status : WorkerStatus
  startedAt : ℕ
  lastHeartbeat : ℕ
  restartCount : ℕ
  launchID : LaunchID
  desiredState : DesiredState
  artifact : WorkerArtifact
  artifactNormalized : Bool
  workerUID : ℕ
  nodeID : Option NodeID
  deriving DecidableEq

/-- `worker_gid INTEGER GENERATED ALWAYS AS (worker_uid) STORED`. -/
def WorkerRecord.workerGID (r : WorkerRecord) : ℕ := r.workerUID

/-- A row of `orchestrator_nodes`. -/
structure OrchestratorNode where
  leaseExpiresAt : ℕ
  deriving DecidableEq

/-- A row of `worker_upgrade_items`; `completed` stands for `completed_at IS NOT NULL`. -/
structure WorkerUpgradeItem where
  position : ℕ
  companyID : CompanyID
  tenantSchema : TenantSchema
  connectionID : ConnectionID
  sourceGeneration : LaunchID
  sourceArtifact : WorkerArtifact
  targetGeneration : Option LaunchID
  recoveryGeneration : Option LaunchID
  rollbackGeneration : Option LaunchID
  phase : UpgradePhase
  result : Option ItemResult
  completed : Bool
  deriving DecidableEq

/-- A row of `worker_upgrade_batches` with its items in `position` order. -/
structure WorkerUpgradeBatch where
  targetArtifact : WorkerArtifact
  phase : UpgradePhase
  result : Option BatchResult
  completed : Bool
  items : List WorkerUpgradeItem
  deriving DecidableEq

/-- The state shared by every node: the tables the orchestrator reads and writes, the identity
sequence and the clock `now()` reads. -/
structure Db where
  registry : Table ConnectionID WorkerRecord
  identitySeq : ℕ
  nodes : Table NodeID OrchestratorNode
  batches : Table BatchID WorkerUpgradeBatch
  now : ℕ

/-- A managed worker as one manager keeps it in memory.  `cmd` says that this manager started the
process itself (`worker.cmd != nil`), `healthCheck` that a health-check goroutine watches it
(`healthCancel` set and not called), `readinessToken` that a token was minted for this launch. -/
structure WorkerProcess where
  connectionID : ConnectionID
  launchID : LaunchID
  desiredState : DesiredState
  companyID : CompanyID
  tenantSchema : TenantSchema
  status : WorkerStatus
  pid : ℕ := 0
  restartCount : ℕ := 0
  artifact : WorkerArtifact
  workerUID : ℕ := 0
  workerGID : ℕ := 0
  processReady : Bool := false
  runtimeConnected : Bool := false
  authenticated : Bool := false
  lastRuntimeSignalAt : ℕ := 0
  expectedExit : Bool := false
  removeOnExit : Bool := false
  cmd : Bool := false
  healthCheck : Bool := false
  readinessToken : Option ℕ := none
  deriving DecidableEq

/-- The identity range of `worker_os_identity_seq`. -/
def minimumWorkerIdentity : ℕ := 100000

def maximumWorkerIdentity : ℕ := 2147483646

/-- `validateWorkerIdentity`. -/
def validWorkerIdentity (uid gid : ℕ) : Prop :=
  minimumWorkerIdentity ≤ uid ∧ uid ≤ maximumWorkerIdentity ∧ gid = uid

instance (uid gid : ℕ) : Decidable (validWorkerIdentity uid gid) :=
  inferInstanceAs (Decidable (_ ∧ _ ∧ _))

/-- The settings of `manager.Config` the lifecycle reads. -/
structure Config where
  autoRestartEnabled : Bool
  autoRestartMaxRetries : ℕ
  /-- `0` means unlimited. -/
  maxWorkers : ℕ
  /-- `FleetMaxConnections`; `0` means unlimited. -/
  fleetMaxConnections : ℕ
  /-- `NodeLeaseDuration` and `NodeTakeoverMargin` in the unit of `Db.now`. -/
  nodeLeaseDuration : ℕ
  nodeTakeoverMargin : ℕ
  /-- `WorkerDatabaseURL` and `WorkerNATSURL` are both set. -/
  restrictedCredentials : Bool := true

/-- The errors the callers tell apart; every other error is `failed` with the text of its source. -/
inductive Err
  | workerLaunchConflict
  | fleetConnectionLimit
  | workerUpgradeBatchActive
  | workerNotFound
  | database
  | failed (message : String)
  deriving DecidableEq

end TeamInbox.Orchestrator
