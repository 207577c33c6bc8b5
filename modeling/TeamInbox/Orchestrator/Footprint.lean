import TeamInbox.Orchestrator.Lifecycle

/-!
# TeamInbox.Orchestrator.Footprint — which operations a procedure performs

Under which lifecycle lock an operation is performed (`Op.lockedOn`), of which kind it is (`Op.kind`),
and for the reservation, the stop and the reconciliation the lock and the kinds of all their
operations, by one walk over their branches.  What a procedure cannot do is read off here.
-/

namespace TeamInbox.Orchestrator

open TeamInbox.Lib
open Manager (LaunchSpec)

/-- The connection whose lifecycle lock an operation is performed under. -/
def Op.lockedOn : Op → Option ConnectionID
  | .unlockLifecycle c => some c
  | .sql (.claim _ w _) => some w.connectionID
  | .sql (.launch c _ _ .remove) => some c
  | .sql (.setDesired c _ _ _ _) => some c
  | .mem (.reserve _ spec _) => some spec.connectionID
  | .mem (.insert c _) => some c
  | .mem (.restore c _) => some c
  | .mem (.install c _) => some c
  | .mem (.update c _ _) => some c
  | .mem (.delete c _) => some c
  | .mem (.deleteAny c) => some c
  | .mem (.recordStarted spec _) => some spec.connectionID
  | .mem (.failure c _) => some c
  | .mem (.stop _ c _ _) => some c
  | .mem (.monitor c _ _ _) => some c
  | .mem (.reconcile c _) => some c
  | _ => none

def Op.isLifecycleLock : Op → Bool
  | .lockLifecycle _ => true
  | .unlockLifecycle _ => true
  | _ => false

/-- The kinds of operations, as the results on whole runs tell them apart. -/
inductive OpKind
  | lifecycle | rollout
  /-- A statement that writes nothing. -/
  | query
  | claim | activate | remove | setDesired
  /-- The statements that change `restart_count` alone. -/
  | budget
  /-- The other statements on a row that is there. -/
  | launch
  | ownership
  /-- A statement on one item of a batch. -/
  | item
  /-- A statement that turns a batch around, halts, resumes or completes it. -/
  | turn
  | createBatch
  /-- A section that changes no entry. -/
  | look
  | reserve | insert | insertIfAbsent | restore | install | update | delete | recordStarted | failure | stop
  | monitor | reconcile | runtime
  | start | signal
  /-- A system call that changes no process. -/
  | observe
  | restart
  | go
  | other
  deriving DecidableEq

def LaunchStmt.kind : LaunchStmt → OpKind
  | .remove => .remove
  | .incrementRestart => .budget
  | .resetRestart => .budget
  | _ => .launch

def BatchStmt.kind : BatchStmt → OpKind
  | .beginRollback .. => .turn
  | .halt .. => .turn
  | .resume .. => .turn
  | .completeBatch .. => .turn
  | _ => .item

def Sql.kind : Sql → OpKind
  | .launch _ _ _ stmt => stmt.kind
  | .claim .. => .claim
  | .activate _ => .activate
  | .setDesired .. => .setDesired
  | .normalize .. => .launch
  | .markRecovering _ => .launch
  | .adoptUnassigned => .ownership
  | .takeOver .. => .ownership
  | .batch stmt => stmt.kind
  | .createBatch .. => .createBatch
  | _ => .query

def Section.kind : Section → OpKind
  | .reserve .. => .reserve
  | .insert .. => .insert
  | .insertIfAbsent .. => .insertIfAbsent
  | .restore .. => .restore
  | .install .. => .install
  | .update .. => .update
  | .delete .. => .delete
  | .deleteAny _ => .delete
  | .recordStarted .. => .recordStarted
  | .failure .. => .failure
  | .stop .. => .stop
  | .monitor .. => .monitor
  | .reconcile .. => .reconcile
  | .runtime _ => .runtime
  | _ => .look

def ProcessOp.kind : ProcessOp → OpKind
  | .start _ => .start
  | .stopUnregistered _ => .signal
  | .signal .. => .signal
  | _ => .observe

def Op.kind : Op → OpKind
  | .lockLifecycle _ => .lifecycle
  | .unlockLifecycle _ => .lifecycle
  | .rlockRollout | .runlockRollout | .tryLockRollout | .lockRollout | .unlockRollout
  | .awaitRollout => .rollout
  | .sql q => q.kind
  | .mem sec => sec.kind
  | .process p => p.kind
  | .go (.restart _) => .restart
  | .go _ => .go
  | _ => .other

/-! ### Procedures under the lock -/

/-- The operation is no lock operation and needs no lock but that of `c`. -/
def UnderOp (c : ConnectionID) (op : Op) : Prop :=
  op.isLifecycleLock = false ∧ (op.lockedOn = none ∨ op.lockedOn = some c)

/-- Every operation of the procedure may be performed under the lock of `c` and is of one of the
kinds `ks`. -/
def Under {α : Type} (c : ConnectionID) (ks : List OpKind) (p : Go α) : Prop :=
  p.AllOps fun op => UnderOp c op ∧ op.kind ∈ ks

/-- No operation of the procedure needs a lock, and all are of the kinds `ks`. -/
def Free {α : Type} (ks : List OpKind) (p : Go α) : Prop :=
  p.AllOps fun op => (op.isLifecycleLock = false ∧ op.lockedOn = none) ∧ op.kind ∈ ks

section Rules

variable {α β : Type} {c : ConnectionID} {ks ks' : List OpKind} {p : Go α} {g : α → Go β} {op : Op}

theorem Free.under (h : Free ks p) (c : ConnectionID) : Under c ks p :=
  h.mono fun _ hop => ⟨⟨hop.1.1, Or.inl hop.1.2⟩, hop.2⟩

theorem under_op (h : op.lockedOn = some c) (hop : op.isLifecycleLock = false)
    (hk : ks.contains op.kind = true) : Under c ks (perform op) :=
  ⟨⟨⟨hop, Or.inr h⟩, List.contains_iff_mem.mp hk⟩, fun _ => trivial⟩

theorem free_op (h : op.lockedOn = none) (hop : op.isLifecycleLock = false)
    (hk : ks.contains op.kind = true) : Free ks (perform op) :=
  ⟨⟨⟨hop, h⟩, List.contains_iff_mem.mp hk⟩, fun _ => trivial⟩

theorem free_pure (a : α) : Free ks (pure a : Go α) := trivial

theorem free_fail (e : Err) : Free ks (Proc.fail e : Go α) := trivial

theorem under_pure (a : α) : Under c ks (pure a : Go α) := trivial

theorem under_fail (e : Err) : Under c ks (Proc.fail e : Go α) := trivial

theorem Under.bind (hp : Under c ks p) (hg : ∀ a, Under c ks (g a)) : Under c ks (p >>= g) :=
  Proc.AllOps.bind hp hg

theorem Free.bind (hp : Free ks p) (hg : ∀ a, Free ks (g a)) : Free ks (p >>= g) :=
  Proc.AllOps.bind hp hg

end Rules

/-! ### Spawn -/

/-- The kinds of operations of `claimReserved`. -/
def launchKinds : List OpKind :=
  [.claim, .activate, .remove, .launch, .restore, .update, .delete, .recordStarted, .start, .signal, .go]

section Spawn

variable (a : LaunchSpec)

theorem removeInMemory_under : Under a.connectionID launchKinds (removeInMemory a) :=
  under_op rfl rfl rfl

theorem removeLaunch_under : Under a.connectionID launchKinds (removeLaunch a) :=
  (under_op rfl rfl rfl).bind fun _ => under_pure _

theorem restorePrevious_under (previous : Option WorkerProcess) :
    Under a.connectionID launchKinds (restorePrevious a previous) := by
  cases previous with
  | none => exact under_pure _
  | some w => exact under_op rfl rfl rfl

theorem markLaunchFailed_under : Under a.connectionID launchKinds (markLaunchFailed a) :=
  (under_op rfl rfl rfl).bind fun _ =>
    ((free_op rfl rfl rfl).under _).bind fun _ => under_pure _

theorem abandonLaunch_under : Under a.connectionID launchKinds (abandonLaunch a) := by
  unfold abandonLaunch
  split
  · exact markLaunchFailed_under a
  · exact (removeLaunch_under a).bind fun _ => removeInMemory_under a

theorem startHealthCheck_under : Under a.connectionID launchKinds (startHealthCheck a) := by
  unfold startHealthCheck
  split
  · exact under_pure _
  · exact (under_op rfl rfl rfl).bind fun _ => (free_op rfl rfl rfl).under _

theorem stopUnregistered_under (c : ConnectionID) (pid : ℕ) :
    Under c launchKinds (process (.stopUnregistered pid)) :=
  (free_op rfl rfl rfl).under _

theorem activateStarted_under (pid : ℕ) (worker : WorkerProcess) :
    Under a.connectionID launchKinds (activateStarted a pid worker) := by
  refine ((free_op rfl rfl rfl).under _).bind fun answer => ?_
  split
  · exact (startHealthCheck_under a).bind fun _ => (free_op rfl rfl rfl).under _
  · exact (stopUnregistered_under _ pid).bind fun _ =>
      (removeInMemory_under a).bind fun _ => under_fail _
  · exact (stopUnregistered_under _ pid).bind fun _ =>
      (abandonLaunch_under a).bind fun _ => under_fail _

theorem startClaimed_under (uid gid : ℕ) :
    Under a.connectionID launchKinds (startClaimed a uid gid) := by
  refine ((free_op rfl rfl rfl).under _).bind fun started => ?_
  split
  · exact (abandonLaunch_under a).bind fun _ => under_fail _
  · refine (under_op rfl rfl rfl).bind fun recorded => ?_
    split
    · exact (stopUnregistered_under _ _).bind fun _ =>
        (removeLaunch_under a).bind fun _ => under_fail _
    · exact activateStarted_under a _ _

theorem abandonReservation_under (previous : Option WorkerProcess) (e : Err) :
    Under a.connectionID launchKinds (abandonReservation a previous e) := by
  refine (removeInMemory_under a).bind fun _ => ?_
  split
  · exact under_pure _
  · exact restorePrevious_under a previous

theorem claimReserved_under (origin : LaunchOrigin) (previous : Option WorkerProcess) :
    Under a.connectionID launchKinds (claimReserved origin a previous) := by
  refine (under_op rfl rfl rfl).bind fun answer => ?_
  split
  · exact (abandonReservation_under a previous _).bind fun _ => under_fail _
  · refine (under_op rfl rfl rfl).bind fun _ => ?_
    split
    · exact startClaimed_under a _ _
    · exact (removeLaunch_under a).bind fun _ => (removeInMemory_under a).bind fun _ => under_fail _

end Spawn

/-! ### Stop and unlink -/

/-- The kinds of operations of `stopWorkerInternal`. -/
def stopKinds : List OpKind :=
  [.stop, .setDesired, .launch, .remove, .update, .delete, .signal, .observe]

section Stop

variable (companyID : CompanyID) (c : ConnectionID)

theorem removeProcessless_under (launchID : LaunchID) :
    Under c stopKinds (removeProcessless companyID c launchID) := by
  refine (under_op rfl rfl rfl).bind fun answer => ?_
  split
  · exact under_pure _
  · exact (under_op rfl rfl rfl).bind fun _ => under_fail _
  · exact (under_op rfl rfl rfl).bind fun _ => under_fail _

theorem persistStopIntent_under (preserveRegistry : Bool) (ticket : StopTicket) :
    Under c stopKinds (persistStopIntent companyID c preserveRegistry ticket) := by
  unfold persistStopIntent
  split
  · exact ((free_op rfl rfl rfl).under _).bind fun _ => under_pure _
  · refine (under_op rfl rfl rfl).bind fun answer => ?_
    split
    · exact under_pure _
    · exact (under_op rfl rfl rfl).bind fun _ => under_fail _
    · exact (under_op rfl rfl rfl).bind fun _ => under_fail _

theorem stopProcessless_under (preserveRegistry : Bool) (ticket : StopTicket) :
    Under c stopKinds (stopProcessless companyID c preserveRegistry ticket) := by
  unfold stopProcessless
  simp only []
  split
  · exact (under_op rfl rfl rfl).bind fun _ => under_fail _
  · split
    · exact under_op rfl rfl rfl
    · exact (removeProcessless_under companyID c _).bind fun _ => under_op rfl rfl rfl

theorem awaitTermination_free (pid : ℕ) : Free stopKinds (awaitTermination pid) := by
  refine (free_op rfl rfl rfl).bind fun exited => ?_
  split
  · exact free_pure _
  · refine (free_op rfl rfl rfl).bind fun _ => (free_op rfl rfl rfl).bind fun exited => ?_
    split
    · exact free_pure _
    · exact free_fail _

theorem confirmIdentity_free (w : WorkerProcess) : Free stopKinds (confirmIdentity c w) := by
  unfold confirmIdentity
  split
  · exact free_pure _
  · refine (free_op rfl rfl rfl).bind fun answer => ?_
    split
    · exact free_fail _
    · exact free_fail _
    · exact free_pure _

theorem terminateWorker_free (signal : Signal) (w : WorkerProcess) :
    Free stopKinds (terminateWorker c signal w) := by
  refine (free_op rfl rfl rfl).bind fun zombie => ?_
  split
  · exact awaitTermination_free _
  · refine (confirmIdentity_free c w).bind fun _ => (free_op rfl rfl rfl).bind fun sent => ?_
    split
    · exact awaitTermination_free _
    · exact free_fail _

theorem deactivateStopped_under (w : WorkerProcess) :
    Under c stopKinds (deactivateStopped companyID c w) := by
  refine ((free_op rfl rfl rfl).under _).bind fun answer => ?_
  split
  · exact under_op rfl rfl rfl
  · exact under_fail _
  · exact under_fail _

theorem removeStopped_under (launchID : LaunchID) :
    Under c stopKinds (removeStopped companyID c launchID) := by
  refine (under_op rfl rfl rfl).bind fun answer => ?_
  split
  · exact under_pure _
  · exact under_fail _
  · exact under_fail _

theorem refuseFailedPurge_under (signal : Signal) (w : WorkerProcess) (status : ℕ) :
    Under c stopKinds (refuseFailedPurge c signal w status) := by
  unfold refuseFailedPurge
  split
  · exact (under_op rfl rfl rfl).bind fun _ => under_fail _
  · exact under_pure _

theorem finishStop_under (signal : Signal) (preserveRegistry : Bool) (ticket : StopTicket)
    (status : ℕ) :
    Under c stopKinds (finishStop companyID c signal preserveRegistry ticket status) := by
  unfold finishStop
  simp only []
  split
  · exact (deactivateStopped_under companyID c _).bind fun _ =>
      (refuseFailedPurge_under c signal _ status).bind fun _ => under_op rfl rfl rfl
  · exact (refuseFailedPurge_under c signal _ status).bind fun _ =>
      (removeStopped_under companyID c _).bind fun _ => under_op rfl rfl rfl

theorem stopWorkerInternal_under (signal : Signal) (preserveRegistry : Bool) :
    Under c stopKinds (stopWorkerInternal companyID c signal preserveRegistry) := by
  refine (under_op rfl rfl rfl).bind fun answer => ?_
  split
  · exact under_fail _
  · refine (persistStopIntent_under companyID c preserveRegistry _).bind fun _ =>
      (under_op rfl rfl rfl).bind fun _ => ?_
    split
    · exact stopProcessless_under companyID c preserveRegistry _
    · exact ((terminateWorker_free c signal _).under c).bind fun status =>
        finishStop_under companyID c signal preserveRegistry _ status

end Stop

/-- The kinds of operations of `reconcileDurableLifecycleWorker`. -/
def reconcileKinds : List OpKind := [.query, .look, .reconcile, .other]

theorem reconcileDurableLifecycleWorker_under (companyID : CompanyID) (c : ConnectionID)
    (tenantHint : Option TenantSchema) :
    Under c reconcileKinds (reconcileDurableLifecycleWorker companyID c tenantHint) := by
  refine ((free_op rfl rfl rfl).under c).bind fun answer => ?_
  split
  · exact under_fail _
  · exact under_pure _
  · split
    · exact under_fail _
    · split
      · exact under_fail _
      · split
        · exact under_fail _
        · refine ((free_op rfl rfl rfl).under c).bind fun current => ?_
          dsimp only
          split
          · exact under_pure _
          · refine ((free_op rfl rfl rfl).under c).bind fun resolved => ?_
            split
            · exact under_fail _
            · exact (under_op rfl rfl rfl).bind fun _ => under_pure _

end TeamInbox.Orchestrator
