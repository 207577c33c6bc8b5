import TeamInbox.Lib.Calls
import TeamInbox.Lib.Locks
import TeamInbox.Orchestrator.World
import Mathlib.Tactic.Cases

/-!
# TeamInbox.Orchestrator.Readiness — runtime signals and the wait for a ready launch

`RecordWorkerRuntimeStatus` and `waitWorkerReady` as calls over the memory of one manager.  A signal looks its worker
up, takes the `runtimeStatusMu` of the worker, is accepted or refused under `m.mu`, and where it completes the readiness
closes the channel of the launch under `readinessMu`; then come the two statements.  The wait inspects the flags and
registers its channel under `readinessMu`; only the runner of a rollout waits, which holds `rolloutMu`.

Everything else may put, change or drop entries between two steps and do anything to the database.  The worker of a
`runtimeStatusMu` is told by its launch.
-/

namespace TeamInbox.Orchestrator

open TeamInbox.Lib

structure RuntimeDelivery where
  status : WorkerRuntimeStatus
  /-- The timestamp parses and lies between `workerRuntimeSignalMaxAge` and `workerRuntimeSignalFutureSkew`. -/
  timely : Bool
  known : Bool
  deriving DecidableEq

structure AcceptedSignal where
  signal : RuntimeSignal
  timestamp : ℕ
  deriving DecidableEq

def WorkerProcess.isReady (w : WorkerProcess) : Bool := w.processReady && w.runtimeConnected && w.authenticated

/-- The signals since the last `disconnected`; the list has the latest first. -/
def sinceDisconnected (h : List AcceptedSignal) : List AcceptedSignal :=
  h.takeWhile fun a => decide (a.signal ≠ .disconnected)

def announcedSince (signal : RuntimeSignal) (h : List AcceptedSignal) : Bool :=
  (sinceDisconnected h).any fun a => decide (a.signal = signal)

def lastTimestamp (h : List AcceptedSignal) : ℕ := (h.head?.map AcceptedSignal.timestamp).getD 0

def Reflects (h : List AcceptedSignal) (w : WorkerProcess) : Prop :=
  w.processReady = announcedSince .processReady h ∧ w.runtimeConnected = announcedSince .connected h ∧
    w.authenticated = announcedSince .authenticated h ∧ w.lastRuntimeSignalAt = lastTimestamp h

instance (h : List AcceptedSignal) (w : WorkerProcess) : Decidable (Reflects h w) :=
  inferInstanceAs (Decidable (_ ∧ _ ∧ _ ∧ _))

/-- Since the last `disconnected` all three have been accepted, every signal later than the one before it. -/
structure ReadySignals (h : List AcceptedSignal) : Prop where
  processReady : ∃ a ∈ sinceDisconnected h, a.signal = .processReady
  connected : ∃ a ∈ sinceDisconnected h, a.signal = .connected
  authenticated : ∃ a ∈ sinceDisconnected h, a.signal = .authenticated
  increasing : h.Pairwise fun later earlier => earlier.timestamp < later.timestamp

/-- The memory of the manager, and the database. -/
structure ReadinessState where
  manager : Manager
  db : Db
  /-- Held `runtimeStatusMu`. -/
  runtimeStatusMu : Locks (ConnectionID × LaunchID)
  rolloutMu : Option ℕ
  readinessMu : Option ℕ
  /-- `m.readiness`. -/
  readiness : Table LaunchID ℕ
  closed : List ℕ
  channels : ℕ
  /-- The accepted signals of a launch, latest first. -/
  accepted : ConnectionID → LaunchID → List AcceptedSignal
  /-- The channels that were registered when a signal made their launch ready. -/
  announced : List ℕ

namespace ReadinessState

def boot (db : Db) : ReadinessState where
  manager := Manager.fresh
  db := db
  runtimeStatusMu := Locks.unlocked
  rolloutMu := none
  readinessMu := none
  readiness := Table.empty
  closed := []
  channels := 0
  accepted := fun _ _ => []
  announced := []

/-- The scan of `waitWorkerReady`. -/
def launchReady (l : LaunchID) (s : ReadinessState) : Bool :=
  s.manager.workers.entries.any fun e => decide (e.2.launchID = l) && e.2.isReady

/-- The section of `RecordWorkerRuntimeStatus` under `m.mu`, for a worker that was looked up under the launch `l`. -/
def accept (d : RuntimeDelivery) (l : LaunchID) (s : ReadinessState) : Option (Manager.RuntimeResult × ReadinessState) :=
  let c := d.status.connectionID
  if (s.manager.workers.find? c).map WorkerProcess.launchID ≠ some l then none
  else
    match Manager.runtimeSection d.status s.manager with
    | (none, _) => none
    | (some r, m) =>
      if d.known = false then none
      else
        some (r,
          { s with
            manager := m
            accepted := fun c' l' =>
              if c' = c ∧ l' = l then ⟨d.status.signal, d.status.timestamp⟩ :: s.accepted c' l' else s.accepted c' l'
            announced := if r.complete then (s.readiness.find? l).toList ++ s.announced else s.announced })

/-- Close the channel of the launch, if there is one. -/
def closeReadiness (l : LaunchID) (s : ReadinessState) : ReadinessState :=
  match s.readiness.find? l with
  | none => s
  | some channel =>
    { s with
      closed := channel :: s.closed
      readiness := s.readiness.erase l }

/-- The channel of the launch, made where there is none. -/
def register (l : LaunchID) (s : ReadinessState) : ℕ × ReadinessState :=
  match s.readiness.find? l with
  | some channel =>
    (channel,
      { s with
        readinessMu := none })
  | none =>
    (s.channels,
      { s with
        readinessMu := none
        readiness := s.readiness.put l s.channels
        channels := s.channels + 1 })

/-- `ctx.Done()`: the channel is dropped while it is the one of the launch. -/
def expire (l : LaunchID) (channel : ℕ) (s : ReadinessState) : ReadinessState :=
  if s.readiness.find? l = some channel then
    { s with
      readiness := s.readiness.erase l }
  else s

/-- `resetWorkerRestartCount`, when the section cleared the budget. -/
def resetBudget (f : Fault) (status : WorkerRuntimeStatus) (clear : Bool) (s : ReadinessState) : ReadinessState :=
  if clear then
    { s with
      db := (f.perform (fun db =>
        (resetRestartCountLaunch status.connectionID status.companyID status.launchID db).map .ok id) s.db).2 }
  else s

/-- `persistWorkerRuntimeStatus`, when the signal has a durable status. -/
def persistStatus (nodeID : NodeID) (f : Fault) (status : WorkerRuntimeStatus) (durable : Option WorkerStatus)
    (s : ReadinessState) : ReadinessState :=
  match durable with
  | none => s
  | some st =>
    { s with
      db := (f.perform (fun db => (updateRuntimeStatusLaunch nodeID status.connectionID status.companyID status.launchID
        st db).map .ok id) s.db).2 }

end ReadinessState

inductive ReadinessStage
  | idle
  /-- The worker of the connection was found under the launch. -/
  | observed (d : RuntimeDelivery) (l : LaunchID)
  /-- `runtimeStatusMu` is held. -/
  | locked (d : RuntimeDelivery) (l : LaunchID)
  /-- The signal completed the readiness of its launch. -/
  | closing (status : WorkerRuntimeStatus) (r : Manager.RuntimeResult)
  | resetting (status : WorkerRuntimeStatus) (r : Manager.RuntimeResult)
  | persisting (status : WorkerRuntimeStatus) (r : Manager.RuntimeResult)
  | unlocking
  /-- The runner of a rollout outside of a wait. -/
  | rollout
  /-- `readinessMu` is held, the flags are next. -/
  | inspecting (l : LaunchID)
  /-- `readinessMu` is held, the flags were down. -/
  | registering (l : LaunchID)
  | waiting (l : LaunchID) (channel : ℕ)
  deriving DecidableEq

inductive ReadinessAction
  /-- `RecordWorkerRuntimeStatus` is called. -/
  | record (d : RuntimeDelivery)
  | lockRollout
  | unlockRollout
  /-- `waitWorkerReady` is called. -/
  | wait (l : LaunchID)
  | wake
  | expire
  /-- The next step of a call; a statement may fail. -/
  | next (f : Fault)
  deriving DecidableEq

inductive ReadinessEvent
  /-- An entry is put into the map, new or as it was before. -/
  | put (c : ConnectionID) (w : WorkerProcess)
  /-- Other fields of an entry change. -/
  | adjust (c : ConnectionID) (w : WorkerProcess)
  | drop (c : ConnectionID)
  | database (db : Db)

section Step

variable (nodeID : NodeID)

/-- One step of the call `p`. -/
def readinessAct (p : ℕ) (s : ReadinessState) (x : ReadinessStage) (a : ReadinessAction) :
    Option (ReadinessState × ReadinessStage) :=
  match x, a with
  | .idle, .record d =>
    if d.timely = false then some (s, .idle)
    else
      match s.manager.workers.find? d.status.connectionID with
      | none => some (s, .idle)
      | some w => some (s, .observed d w.launchID)
  | .observed d l, .next _ =>
    (s.runtimeStatusMu.take p (d.status.connectionID, l)).map fun t =>
      ({ s with
        runtimeStatusMu := t }, .locked d l)
  | .locked d l, .next _ =>
    match s.accept d l with
    | none => some (s, .unlocking)
    | some (r, s') => some (s', if r.complete then .closing d.status r else .resetting d.status r)
  | .closing status r, .next _ =>
    if s.readinessMu = none then some (s.closeReadiness status.launchID, .resetting status r) else none
  | .resetting status r, .next f => some (s.resetBudget f status r.clearRestartBudget, .persisting status r)
  | .persisting status r, .next f => some (s.persistStatus nodeID f status r.durable, .unlocking)
  | .unlocking, .next _ =>
    some ({ s with
      runtimeStatusMu := s.runtimeStatusMu.release p }, .idle)
  | .idle, .lockRollout =>
    if s.rolloutMu = none then
      some ({ s with
        rolloutMu := some p }, .rollout)
    else none
  | .rollout, .unlockRollout =>
    some ({ s with
      rolloutMu := none }, .idle)
  | .rollout, .wait l =>
    if s.readinessMu = none then
      some ({ s with
        readinessMu := some p }, .inspecting l)
    else none
  | .inspecting l, .next _ =>
    if s.launchReady l then
      some ({ s with
        readinessMu := none }, .rollout)
    else some (s, .registering l)
  | .registering l, .next _ => some ((s.register l).2, .waiting l (s.register l).1)
  | .waiting _ channel, .wake => if channel ∈ s.closed then some (s, .rollout) else none
  | .waiting l channel, .expire => if s.readinessMu = none then some (s.expire l channel, .rollout) else none
  | _, _ => none

/-- What happens to the entries and to the database besides.  A launch that is waited for does not come back ready: only
a lifecycle operation brings an entry back, and the rollout excludes it. -/
def readinessEnv (e : ReadinessEvent) (s : ReadinessState) : Option ReadinessState :=
  match e with
  | .put c w =>
    if Reflects (s.accepted c w.launchID) w ∧
        (w.isReady = true → s.readinessMu = none ∧ s.readiness.find? w.launchID = none) then
      some { s with
        manager := s.manager.insert c w }
    else if Reflects [] w then
      some { s with
        manager := s.manager.insert c w
        accepted := fun c' l' => if c' = c ∧ l' = w.launchID then [] else s.accepted c' l' }
    else none
  | .adjust c w =>
    match s.manager.workers.find? c with
    | none => none
    | some w' =>
      if w.launchID = w'.launchID ∧ w.processReady = w'.processReady ∧ w.runtimeConnected = w'.runtimeConnected ∧
          w.authenticated = w'.authenticated ∧ w.lastRuntimeSignalAt = w'.lastRuntimeSignalAt then
        some { s with
          manager := s.manager.insert c w }
      else none
  | .drop c =>
    some { s with
      manager := { s.manager with
        workers := s.manager.workers.erase c } }
  | .database db =>
    some { s with
      db := db }

def readinessMachine : Machine ReadinessState ReadinessStage ReadinessAction ReadinessEvent where
  act := readinessAct nodeID
  env := readinessEnv

end Step

variable {nodeID : NodeID} {p : ℕ} {s s' : ReadinessState} {x x' : ReadinessStage} {a : ReadinessAction}
  {l : LaunchID} {d : RuntimeDelivery}

/-! ### One signal -/

theorem launchReady_iff : s.launchReady l = true ↔
    ∃ c w, s.manager.workers.find? c = some w ∧ w.launchID = l ∧ w.isReady = true := by
  unfold ReadinessState.launchReady
  rw [List.any_eq_true]
  constructor
  · rintro ⟨⟨c, w⟩, hmem, h⟩
    rw [Bool.and_eq_true, decide_eq_true_eq] at h
    exact ⟨c, w, Table.mem_entries.mp hmem, h.1, h.2⟩
  · rintro ⟨c, w, hw, hl, hready⟩
    refine ⟨(c, w), Table.mem_entries.mpr hw, ?_⟩
    rw [Bool.and_eq_true, decide_eq_true_eq]
    exact ⟨hl, hready⟩

theorem sinceDisconnected_cons {signal : RuntimeSignal} {timestamp : ℕ} {h : List AcceptedSignal} :
    sinceDisconnected (⟨signal, timestamp⟩ :: h) =
      if signal = .disconnected then [] else ⟨signal, timestamp⟩ :: sinceDisconnected h := by
  unfold sinceDisconnected
  rw [List.takeWhile_cons]
  by_cases hs : signal = .disconnected
  · rw [if_pos hs, if_neg]
    rw [decide_eq_true_eq]
    exact not_not.mpr hs
  · rw [if_neg hs, if_pos]
    rw [decide_eq_true_eq]
    exact hs

theorem announcedSince_cons {k signal : RuntimeSignal} {timestamp : ℕ} {h : List AcceptedSignal} :
    announcedSince k (⟨signal, timestamp⟩ :: h) =
      if signal = .disconnected then false else decide (signal = k) || announcedSince k h := by
  unfold announcedSince
  rw [sinceDisconnected_cons]
  split_ifs
  · rfl
  · rw [List.any_cons]

theorem reflects_apply {signal : RuntimeSignal} {timestamp : ℕ} {h : List AcceptedSignal} {w : WorkerProcess} {n : ℕ}
    (hw : Reflects h w) : Reflects (⟨signal, timestamp⟩ :: h)
      { Manager.applyRuntimeSignal signal w with
        lastRuntimeSignalAt := timestamp
        restartCount := n } := by
  obtain ⟨hprocess, hconnected, hauthenticated, -⟩ := hw
  cases signal <;> refine ⟨?_, ?_, ?_, rfl⟩ <;>
    simp [Manager.applyRuntimeSignal, announcedSince_cons, hprocess, hconnected, hauthenticated]

theorem isReady_iff {h : List AcceptedSignal} {w : WorkerProcess} (hw : Reflects h w)
    (hordered : h.Pairwise fun later earlier => earlier.timestamp < later.timestamp) :
    w.isReady = true ↔ ReadySignals h := by
  obtain ⟨hprocess, hconnected, hauthenticated, -⟩ := hw
  have hany : ∀ k, announcedSince k h = true ↔ ∃ a ∈ sinceDisconnected h, a.signal = k := fun k => by
    unfold announcedSince
    rw [List.any_eq_true]
    simp only [decide_eq_true_eq]
  unfold WorkerProcess.isReady
  rw [hprocess, hconnected, hauthenticated, Bool.and_eq_true, Bool.and_eq_true, hany, hany, hany]
  constructor
  · rintro ⟨⟨h₁, h₂⟩, h₃⟩
    exact ⟨h₁, h₂, h₃, hordered⟩
  · rintro ⟨h₁, h₂, h₃, -⟩
    exact ⟨⟨h₁, h₂⟩, h₃⟩

/-- The worker found at the start is still there, the signal is of it, is signed with its token and is later than the
last one. -/
def Accepts (d : RuntimeDelivery) (l : LaunchID) (s : ReadinessState) : Prop :=
  d.known = true ∧ ∃ w, s.manager.workers.find? d.status.connectionID = some w ∧ w.launchID = l ∧
    w.companyID = d.status.companyID ∧ w.launchID = d.status.launchID ∧ w.artifact.version = d.status.artifactVersion ∧
      w.readinessToken = some d.status.token ∧ w.lastRuntimeSignalAt < d.status.timestamp

def signaledEntry (status : WorkerRuntimeStatus) (w : WorkerProcess) : WorkerProcess :=
  let w' := { Manager.applyRuntimeSignal status.signal w with lastRuntimeSignalAt := status.timestamp }
  { w' with restartCount := if w'.isReady && decide (w'.restartCount ≠ 0) then 0 else w'.restartCount }

theorem signaledEntry_keeps {status : WorkerRuntimeStatus} {w : WorkerProcess} :
    (signaledEntry status w).companyID = w.companyID ∧ (signaledEntry status w).launchID = w.launchID ∧
      (signaledEntry status w).restartCount = if (signaledEntry status w).isReady then 0 else w.restartCount := by
  unfold signaledEntry WorkerProcess.isReady Manager.applyRuntimeSignal
  cases status.signal <;> refine ⟨rfl, rfl, ?_⟩ <;> dsimp only <;> by_cases hzero : w.restartCount = 0 <;> simp [hzero]

theorem runtimeSection_cases (status : WorkerRuntimeStatus) (m : Manager) :
    ((∀ w, m.workers.find? status.connectionID = some w → ¬ (w.companyID = status.companyID ∧
        w.launchID = status.launchID ∧ w.artifact.version = status.artifactVersion ∧
          w.readinessToken = some status.token ∧ w.lastRuntimeSignalAt < status.timestamp)) ∧
        Manager.runtimeSection status m = (none, m)) ∨
      ∃ w r, m.workers.find? status.connectionID = some w ∧ (w.companyID = status.companyID ∧
        w.launchID = status.launchID ∧ w.artifact.version = status.artifactVersion ∧
          w.readinessToken = some status.token ∧ w.lastRuntimeSignalAt < status.timestamp) ∧
        Manager.runtimeSection status m = (some r, m.insert status.connectionID (signaledEntry status w)) ∧
        r.complete = (signaledEntry status w).isReady ∧
        r.clearRestartBudget = (r.complete && decide (w.restartCount ≠ 0)) := by
  unfold Manager.runtimeSection
  cases hw : m.workers.find? status.connectionID with
  | none =>
    refine .inl ⟨fun w hw' => ?_, rfl⟩
    cases hw'
  | some w =>
    dsimp only
    by_cases hrefused : w.companyID ≠ status.companyID ∨ w.launchID ≠ status.launchID ∨
        w.artifact.version ≠ status.artifactVersion ∨ w.readinessToken ≠ some status.token ∨
          ¬ w.lastRuntimeSignalAt < status.timestamp
    · rw [if_pos hrefused]
      refine .inl ⟨fun w' hw' => ?_, rfl⟩
      obtain rfl := Option.some.inj hw'
      rintro ⟨h₁, h₂, h₃, h₄, h₅⟩
      rcases hrefused with h | h | h | h | h
      · exact h h₁
      · exact h h₂
      · exact h h₃
      · exact h h₄
      · exact h h₅
    · rw [if_neg hrefused]
      simp only [not_or, not_not] at hrefused
      refine .inr ⟨w, _, rfl, hrefused, rfl, rfl, ?_⟩
      cases status.signal <;> rfl

theorem accept_cases : (¬ Accepts d l s ∧ s.accept d l = none) ∨
    (Accepts d l s ∧ ∃ w r s', s.manager.workers.find? d.status.connectionID = some w ∧ w.launchID = l ∧
      d.status.launchID = l ∧ w.lastRuntimeSignalAt < d.status.timestamp ∧ s.accept d l = some (r, s') ∧
      r.complete = (signaledEntry d.status w).isReady ∧
      s' = { s with
        manager := s.manager.insert d.status.connectionID (signaledEntry d.status w)
        accepted := fun c' l' => if c' = d.status.connectionID ∧ l' = l then
          ⟨d.status.signal, d.status.timestamp⟩ :: s.accepted c' l' else s.accepted c' l'
        announced := if r.complete then (s.readiness.find? l).toList ++ s.announced else s.announced }) := by
  unfold Accepts ReadinessState.accept
  dsimp only
  cases hw : s.manager.workers.find? d.status.connectionID with
  | none =>
    refine .inl ⟨?_, if_pos nofun⟩
    rintro ⟨-, w, hw', -⟩
    cases hw'
  | some w =>
    by_cases hl : w.launchID = l
    · rw [if_neg (by rw [Option.map_some, hl]; exact fun h => h rfl)]
      rcases runtimeSection_cases d.status s.manager with ⟨hrefused, hnone⟩ | ⟨w', r, hw', hsigned, hsome, hcomplete, -⟩
      · rw [hnone]
        refine .inl ⟨?_, rfl⟩
        rintro ⟨-, w', hw', -, hsigned⟩
        obtain rfl := Option.some.inj hw'
        exact hrefused w hw hsigned
      · rw [hw] at hw'
        obtain rfl := Option.some.inj hw'
        rw [hsome]
        dsimp only
        by_cases hknown : d.known = false
        · rw [if_pos hknown]
          refine .inl ⟨?_, rfl⟩
          rintro ⟨hknown', -⟩
          rw [hknown] at hknown'
          cases hknown'
        · rw [if_neg hknown]
          refine .inr ⟨⟨eq_true_of_ne_false hknown, w, rfl, hl, hsigned⟩, w, r, _, rfl, hl, ?_, hsigned.2.2.2.2, rfl,
            hcomplete, rfl⟩
          exact hsigned.2.1.symm.trans hl
    · rw [if_pos]
      · refine .inl ⟨?_, rfl⟩
        rintro ⟨-, w', hw', hl', -⟩
        obtain rfl := Option.some.inj hw'
        exact hl hl'
      · rw [Option.map_some]
        exact fun h => hl (Option.some.inj h)

end TeamInbox.Orchestrator
