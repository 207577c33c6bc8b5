import TeamInbox.Orchestrator.Registry

/-!
# TeamInbox.Orchestrator.UpgradeStore — the statements on batches and their items

The methods of `WorkerRegistry` that read and write `worker_upgrade_batches` and
`worker_upgrade_items`, each one transaction and so one atomic step.  Every write selects one item of
one batch under a guard and then changes that batch; `onItem` is this form.
`UNIQUE (batch_id, connection_id)` identifies an item by its connection.  The error texts the statements store are left out.
-/

namespace TeamInbox.Orchestrator

open TeamInbox.Lib

structure ItemRef where
  batchID : BatchID
  companyID : CompanyID
  tenantSchema : TenantSchema
  connectionID : ConnectionID
  sourceGeneration : LaunchID
  deriving DecidableEq

/-- `company_id = … AND tenant_schema = … AND connection_id = … AND source_generation = …`. -/
def ItemRef.names (ref : ItemRef) (i : WorkerUpgradeItem) : Prop :=
  i.companyID = ref.companyID ∧ i.tenantSchema = ref.tenantSchema ∧
    i.connectionID = ref.connectionID ∧ i.sourceGeneration = ref.sourceGeneration

instance (ref : ItemRef) : DecidablePred ref.names := fun _ => inferInstanceAs (Decidable (_ ∧ _))

/-- `WorkerUpgradeLiveFence`. -/
structure WorkerUpgradeLiveFence where
  launchID : LaunchID
  artifact : WorkerArtifact
  workerUID : ℕ
  workerGID : ℕ
  deriving DecidableEq

/-- `WorkerUpgradeItemIntent`. -/
structure WorkerUpgradeItemIntent where
  position : ℕ
  companyID : CompanyID
  tenantSchema : TenantSchema
  connectionID : ConnectionID
  sourceGeneration : LaunchID
  sourceArtifact : WorkerArtifact
  deriving DecidableEq

inductive GenerationColumn
  | target | recovery | rollback
  deriving DecidableEq

def WorkerUpgradeItem.generation (i : WorkerUpgradeItem) : GenerationColumn → Option LaunchID
  | .target => i.targetGeneration
  | .recovery => i.recoveryGeneration
  | .rollback => i.rollbackGeneration

def WorkerUpgradeItem.setGeneration (i : WorkerUpgradeItem) (g : LaunchID) :
    GenerationColumn → WorkerUpgradeItem
  | .target => { i with targetGeneration := some g }
  | .recovery => { i with recoveryGeneration := some g }
  | .rollback => { i with rollbackGeneration := some g }

/-- `COALESCE(NULLIF($1, '')::uuid, target_generation)`. -/
def WorkerUpgradeItem.coalesceTarget (i : WorkerUpgradeItem) (g : Option LaunchID) :
    WorkerUpgradeItem :=
  { i with targetGeneration := match g with | some g => some g | none => i.targetGeneration }

namespace WorkerUpgradeBatch

/-- `UPDATE worker_upgrade_items SET set WHERE batch_id = … AND p`. -/
def updateItems (b : WorkerUpgradeBatch) (p : WorkerUpgradeItem → Prop) [DecidablePred p]
    (set : WorkerUpgradeItem → WorkerUpgradeItem) : WorkerUpgradeBatch :=
  { b with items := b.items.map fun i => if p i then set i else i }

def updateItem (b : WorkerUpgradeBatch) (i : WorkerUpgradeItem)
    (set : WorkerUpgradeItem → WorkerUpgradeItem) : WorkerUpgradeBatch :=
  b.updateItems (fun j => j.connectionID = i.connectionID) set

end WorkerUpgradeBatch

/-- Select one item of a batch under a guard and change the batch. -/
def onItem (batchID : BatchID) (guard : WorkerUpgradeBatch → WorkerUpgradeItem → Prop)
    [∀ b, DecidablePred (guard b)]
    (set : WorkerUpgradeBatch → WorkerUpgradeItem → WorkerUpgradeBatch) (db : Db) : Bool × Db :=
  match db.batches.find? batchID with
  | none => (false, db)
  | some b =>
    match b.items.find? fun i => guard b i with
    | none => (false, db)
    | some i => (true, { db with batches := db.batches.put batchID (set b i) })

def rowHolds (db : Db) (connectionID : ConnectionID) (p : WorkerRecord → Prop) : Prop :=
  ∃ r, db.registry.find? connectionID = some r ∧ p r

instance (db : Db) (connectionID : ConnectionID) (p : WorkerRecord → Prop) [DecidablePred p] :
    Decidable (rowHolds db connectionID p) :=
  decidable_of_iff (((db.registry.find? connectionID).any fun r => p r) = true)
    (by simp [rowHolds, Option.any_eq_true])

/-- The row is the tenant's, runs `launchID` from `artifact` and is desired running. -/
def runsGeneration (i : WorkerUpgradeItem) (launchID : LaunchID) (artifact : WorkerArtifact)
    (r : WorkerRecord) : Prop :=
  r.companyID = i.companyID ∧ r.tenantSchema = i.tenantSchema ∧ r.launchID = launchID ∧
    r.desiredState = .running ∧ r.artifact = artifact

instance (i : WorkerUpgradeItem) (launchID : LaunchID) (artifact : WorkerArtifact) :
    DecidablePred (runsGeneration i launchID artifact) := fun _ => inferInstanceAs (Decidable (_ ∧ _))

/-- `runsGeneration` under the identity of a live fence. -/
def meetsFence (i : WorkerUpgradeItem) (fence : WorkerUpgradeLiveFence) (r : WorkerRecord) : Prop :=
  runsGeneration i fence.launchID fence.artifact r ∧ r.workerUID = fence.workerUID ∧
    r.workerGID = fence.workerGID ∧ minimumWorkerIdentity ≤ r.workerUID ∧
    r.workerUID ≤ maximumWorkerIdentity

instance (i : WorkerUpgradeItem) (fence : WorkerUpgradeLiveFence) :
    DecidablePred (meetsFence i fence) := fun _ => inferInstanceAs (Decidable (_ ∧ _))

/-! ### Reads -/

def getWorkerUpgradeBatch (batchID : BatchID) (db : Db) : Option WorkerUpgradeBatch × Db :=
  (db.batches.find? batchID, db)

/-- `GetActiveWorkerUpgradeBatch`: `worker_upgrade_batches_one_active_idx` leaves at most one. -/
def getActiveWorkerUpgradeBatch (db : Db) : Option (BatchID × WorkerUpgradeBatch) × Db :=
  (db.batches.entries.find? fun e => e.2.completed = false, db)

/-! ### Creation -/

/-- The item an intent inserts; every other column takes its default. -/
def WorkerUpgradeItemIntent.item (intent : WorkerUpgradeItemIntent) : WorkerUpgradeItem where
  position := intent.position
  companyID := intent.companyID
  tenantSchema := intent.tenantSchema
  connectionID := intent.connectionID
  sourceGeneration := intent.sourceGeneration
  sourceArtifact := intent.sourceArtifact
  targetGeneration := none
  recoveryGeneration := none
  rollbackGeneration := none
  phase := .stop
  result := none
  completed := false

/-- The row the intent was snapshotted from is still there. -/
def WorkerUpgradeItemIntent.current (db : Db) (intent : WorkerUpgradeItemIntent) : Prop :=
  rowHolds db intent.connectionID fun r =>
    runsGeneration intent.item intent.sourceGeneration intent.sourceArtifact r ∧
      r.artifactNormalized = true

instance (db : Db) : DecidablePred (WorkerUpgradeItemIntent.current db) :=
  fun _ => inferInstanceAs (Decidable (rowHolds _ _ _))

/-- `CreateWorkerUpgradeBatch`; `batchID` is the identifier the database generates. -/
def createWorkerUpgradeBatch (batchID : BatchID) (targetArtifact : WorkerArtifact)
    (intents : List WorkerUpgradeItemIntent) (db : Db) : Except Err BatchID × Db :=
  if intents = [] then (.error (.failed "worker upgrade batch requires at least one item"), db)
  else if db.batches.find? batchID ≠ none then (.error .database, db)
  else if ∃ e ∈ db.registry.entries, e.2.desiredState = .running ∧ e.2.artifactNormalized = false then
    (.error (.failed "worker artifact normalization incomplete"), db)
  else if ∃ e ∈ db.batches.entries, e.2.completed = false then (.error .workerUpgradeBatchActive, db)
  else if ∃ intent ∈ intents, ¬ WorkerUpgradeItemIntent.current db intent then
    (.error (.failed "worker upgrade snapshot changed"), db)
  else if ¬ (intents.map WorkerUpgradeItemIntent.connectionID).Nodup ∨
      ¬ (intents.map WorkerUpgradeItemIntent.position).Nodup then (.error .database, db)
  else
    (.ok batchID, { db with
      batches := db.batches.put batchID
        ⟨targetArtifact, .stop, none, false, intents.map WorkerUpgradeItemIntent.item⟩ })

/-! ### Forward statements -/

/-- `AdvanceWorkerUpgradeItem`. -/
def advanceWorkerUpgradeItem (ref : ItemRef) (expectedPhase nextPhase : UpgradePhase)
    (targetGeneration : Option LaunchID) (db : Db) : Bool × Db :=
  onItem ref.batchID
    (fun _ i => ref.names i ∧ i.phase = expectedPhase ∧ i.completed = false ∧
      (expectedPhase = .stop →
        rowHolds db i.connectionID (runsGeneration i i.sourceGeneration i.sourceArtifact)))
    (fun b i => b.updateItem i fun j => { j.coalesceTarget targetGeneration with phase := nextPhase })
    db

/-- `ReserveWorkerUpgradeGeneration`. -/
def reserveWorkerUpgradeGeneration (ref : ItemRef) (phase : UpgradePhase) (column : GenerationColumn)
    (generation : LaunchID) (db : Db) : Bool × Db :=
  onItem ref.batchID
    (fun b i => ref.names i ∧ i.phase = phase ∧ i.completed = false ∧ b.completed = false ∧
      b.phase ≠ .halted ∧ i.generation column = none)
    (fun b i => b.updateItem i fun j => j.setGeneration generation column) db

/-- `FenceWorkerUpgradeOwnedLaunch`: the one statement here that writes the registry. -/
def fenceWorkerUpgradeOwnedLaunch (ref : ItemRef) (itemPhase : UpgradePhase)
    (fence : WorkerUpgradeLiveFence) (db : Db) : Bool × Db :=
  match db.batches.find? ref.batchID with
  | none => (false, db)
  | some b =>
    match b.items.find? fun i => ref.names i ∧ i.phase = itemPhase ∧ i.completed = false ∧
        b.completed = false with
    | none => (false, db)
    | some i =>
      let r := db.registry.updateWhere i.connectionID (meetsFence i fence)
        (fun r => { r with status := .recovering, lastHeartbeat := db.now })
      (r.2, { db with registry := r.1 })

/-- `BeginWorkerUpgradeVerifyRefresh`. -/
def beginWorkerUpgradeVerifyRefresh (ref : ItemRef) (targetGeneration : LaunchID) (db : Db) :
    Bool × Db :=
  onItem ref.batchID
    (fun b i => ref.names i ∧ i.targetGeneration = some targetGeneration ∧ i.phase = .verify ∧
      i.completed = false ∧ b.completed = false ∧ b.phase ≠ .halted)
    (fun b i => b.updateItem i fun j => { j with phase := .recovery, recoveryGeneration := none }) db

/-- `CompleteWorkerUpgradeVerifyRefresh`. -/
def completeWorkerUpgradeVerifyRefresh (ref : ItemRef)
    (previousTargetGeneration refreshedTargetGeneration : LaunchID) (db : Db) : Bool × Db :=
  onItem ref.batchID
    (fun b i => ref.names i ∧ i.targetGeneration = some previousTargetGeneration ∧
      i.recoveryGeneration = some refreshedTargetGeneration ∧ i.phase = .recovery ∧
      i.completed = false ∧ b.completed = false ∧ b.phase ≠ .halted ∧
      rowHolds db i.connectionID fun r =>
        runsGeneration i refreshedTargetGeneration b.targetArtifact r ∧
          validWorkerIdentity r.workerUID r.workerGID)
    (fun b i => b.updateItem i fun j => { j with
      phase := .verify, targetGeneration := some refreshedTargetGeneration
      recoveryGeneration := none }) db

/-- `CompleteWorkerUpgradeItem`; the two phases that complete an item fix its result, its generation
column and its artifact, and every other phase is refused before the transaction. -/
def completeWorkerUpgradeItem (ref : ItemRef) (expectedPhase : UpgradePhase)
    (fence : WorkerUpgradeLiveFence) (db : Db) : Except Err Bool × Db :=
  let complete (result : ItemResult) (column : GenerationColumn)
      (artifact : WorkerUpgradeBatch → WorkerUpgradeItem → WorkerArtifact) : Except Err Bool × Db :=
    let r := onItem ref.batchID
      (fun b i => ref.names i ∧ i.phase = expectedPhase ∧ i.completed = false ∧ i.result = none ∧
        b.completed = false ∧ i.generation column = some fence.launchID ∧
        artifact b i = fence.artifact ∧ rowHolds db i.connectionID (meetsFence i fence))
      (fun b i => b.updateItem i fun j => { j with result := some result, completed := true }) db
    (.ok r.1, r.2)
  match expectedPhase with
  | .verify => complete .targetComplete .target fun b _ => b.targetArtifact
  | .rollback => complete .rollbackComplete .rollback fun _ i => i.sourceArtifact
  | _ => (.error (.failed "phase cannot complete a worker upgrade item"), db)

/-- An item that `CompleteWorkerUpgradeBatch` may not leave behind. -/
def blocksCompletion (result : BatchResult) (i : WorkerUpgradeItem) : Prop :=
  i.completed = false ∨
    (result = .completed ∧ ∃ r, i.result = some r ∧ r ≠ .targetComplete) ∨
    (result = .rolledBack ∧ ∃ r, i.result = some r ∧ r ≠ .rollbackComplete ∧ r ≠ .canceledUntouched)

instance (result : BatchResult) : DecidablePred (blocksCompletion result) := fun i =>
  decidable_of_iff
    (i.completed = false ∨ (result = .completed ∧ (i.result.any fun r => r ≠ .targetComplete) = true) ∨
      (result = .rolledBack ∧
        (i.result.any fun r => r ≠ .rollbackComplete ∧ r ≠ .canceledUntouched) = true))
    (by simp [blocksCompletion, Option.any_eq_true])

/-- `CompleteWorkerUpgradeBatch`; `abandoned` is refused before the statement. -/
def completeWorkerUpgradeBatch (batchID : BatchID) (expectedPhase : UpgradePhase)
    (result : BatchResult) (db : Db) : Except Err Bool × Db :=
  if result = .abandoned then (.error (.failed "invalid worker upgrade batch result"), db)
  else
    let r := db.batches.updateWhere batchID
      (fun b => b.phase = expectedPhase ∧ b.completed = false ∧
        ∀ i ∈ b.items, ¬ blocksCompletion result i)
      (fun b => { b with
        result := some result, completed := true
        phase := if result = .completed then .verify else .rollback })
    (.ok r.2, { db with batches := r.1 })

/-! ### Rollback, halt and resume -/

/-- The changes of `BeginWorkerUpgradeRollback` to the batch, for the failed item `i`: it and the
items before it that had reached the target go to `rollback`, untouched later ones are canceled. -/
def WorkerUpgradeBatch.beginRollback (b : WorkerUpgradeBatch) (i : WorkerUpgradeItem)
    (targetGeneration : Option LaunchID) : WorkerUpgradeBatch :=
  let reopened := { b with phase := .rollback }.updateItem i fun j =>
    { j.coalesceTarget targetGeneration with phase := .rollback, result := none, completed := false }
  let prior := reopened.updateItems
    (fun j => j.position < i.position ∧ j.result = some .targetComplete ∧ j.completed = true)
    fun j => { j with phase := .rollback, result := none, completed := false }
  prior.updateItems
    (fun j => i.position < j.position ∧ j.phase = .stop ∧ j.targetGeneration = none ∧
      j.completed = false)
    fun j => { j with phase := .canceled, result := some .canceledUntouched, completed := true }

/-- `BeginWorkerUpgradeRollback`. -/
def beginWorkerUpgradeRollback (ref : ItemRef) (expectedPhase : UpgradePhase)
    (targetGeneration : Option LaunchID) (db : Db) : Bool × Db :=
  onItem ref.batchID
    (fun b i => ref.names i ∧ i.phase = expectedPhase ∧ i.completed = false ∧ b.completed = false ∧
      b.phase ≠ .halted ∧ ∀ j ∈ b.items, i.position < j.position → j.completed = false →
        j.phase = .stop ∧ j.targetGeneration = none)
    (fun b i => b.beginRollback i targetGeneration) db

/-- `HaltWorkerUpgrade`. -/
def haltWorkerUpgrade (ref : ItemRef) (expectedItemPhase expectedBatchPhase : UpgradePhase)
    (targetGeneration : Option LaunchID) (db : Db) : Bool × Db :=
  onItem ref.batchID
    (fun b i => ref.names i ∧ i.phase = expectedItemPhase ∧ i.completed = false ∧
      b.phase = expectedBatchPhase ∧ b.completed = false)
    (fun b i => { b with phase := .halted }.updateItem i fun j =>
      { j.coalesceTarget targetGeneration with phase := .halted }) db

/-- The row still runs a generation of the item, from the artifact that belongs to it. -/
def runsOwnGeneration (b : WorkerUpgradeBatch) (i : WorkerUpgradeItem) (r : WorkerRecord) : Prop :=
  (i.rollbackGeneration = some r.launchID ∧ r.artifact = i.sourceArtifact) ∨
    (i.recoveryGeneration = some r.launchID ∧ r.artifact = b.targetArtifact) ∨
    (i.targetGeneration = some r.launchID ∧ r.artifact = b.targetArtifact) ∨
    (i.sourceGeneration = r.launchID ∧ r.artifact = i.sourceArtifact)

instance (b : WorkerUpgradeBatch) (i : WorkerUpgradeItem) : DecidablePred (runsOwnGeneration b i) :=
  fun _ => inferInstanceAs (Decidable (_ ∨ _))

/-- `ResumeHaltedWorkerUpgradeRollback`. -/
def resumeHaltedWorkerUpgradeRollback (batchID : BatchID) (connectionID : ConnectionID) (db : Db) :
    Bool × Db :=
  onItem batchID
    (fun b i => i.connectionID = connectionID ∧ b.phase = .halted ∧ b.completed = false ∧
      i.phase = .halted ∧ i.completed = false ∧
      rowHolds db i.connectionID fun r =>
        r.companyID = i.companyID ∧ r.tenantSchema = i.tenantSchema ∧ r.desiredState = .running ∧
          validWorkerIdentity r.workerUID r.workerGID ∧ runsOwnGeneration b i r)
    (fun b i => { b with phase := .rollback }.updateItem i fun j => { j with phase := .rollback }) db

/-! ### Stop and unlink intents -/

def WorkerUpgradeBatch.abandon (b : WorkerUpgradeBatch) : WorkerUpgradeBatch :=
  { b with phase := .abandoned, result := some .abandoned, completed := true }.updateItems
    (fun j => j.completed = false)
    fun j => { j with phase := .abandoned, result := some .abandonedExternal, completed := true }

/-- An active halted batch with an item of the connection. -/
def haltedWith (companyID : CompanyID) (tenantSchema : TenantSchema) (connectionID : ConnectionID)
    (e : BatchID × WorkerUpgradeBatch) : Prop :=
  e.2.phase = .halted ∧ e.2.completed = false ∧ ∃ i ∈ e.2.items, i.companyID = companyID ∧
    i.tenantSchema = tenantSchema ∧ i.connectionID = connectionID

instance (companyID : CompanyID) (tenantSchema : TenantSchema) (connectionID : ConnectionID) :
    DecidablePred (haltedWith companyID tenantSchema connectionID) :=
  fun _ => inferInstanceAs (Decidable (_ ∧ _))

/-- `SetDesiredStateAndAbandonHaltedUpgrade`: the intent and, if a halted batch holds the connection,
its abandonment.  A batch without an unfinished item makes the transaction fail. -/
def setDesiredStateAndAbandonHaltedUpgrade (connectionID : ConnectionID) (companyID : CompanyID)
    (tenantSchema : TenantSchema) (launchID : LaunchID) (desiredState : DesiredState) (db : Db) :
    Except Err (Bool × Bool) × Db :=
  if desiredState = .running then (.error (.failed "invalid authoritative desired state"), db)
  else
    let r := updateLaunch connectionID companyID launchID (fun r => r.tenantSchema = tenantSchema)
      (fun r => { r with desiredState := desiredState, lastHeartbeat := db.now }) db
    if r.1 = false then (.ok (false, false), db)
    else
      match r.2.batches.entries.find? fun e => haltedWith companyID tenantSchema connectionID e with
      | none => (.ok (true, false), r.2)
      | some (batchID, b) =>
        if ∀ j ∈ b.items, j.completed = true then
          (.error (.failed "abandon halted rollout items"), db)
        else (.ok (true, true), { r.2 with batches := r.2.batches.put batchID b.abandon })

end TeamInbox.Orchestrator
