import TeamInbox.Orchestrator.Registry

/-!
# TeamInbox.Orchestrator.Manager — the in-memory workers map

The sections of `manager` code that run under `m.mu`, each a function on the map and hence one atomic
step.  Most of them touch an entry only `if current, ok := m.workers[c]; ok && current.LaunchID == l`:
they are `updateEntry` and `deleteEntry` at their own values.
-/

namespace TeamInbox.Orchestrator

open TeamInbox.Lib

/-- The state of one manager that `m.mu` guards. -/
structure Manager where
  workers : Table ConnectionID WorkerProcess
  shuttingDown : Bool

/-- A manager as `New` makes it. -/
def Manager.fresh : Manager := ⟨Table.empty, false⟩

instance : Inhabited Manager := ⟨Manager.fresh⟩

namespace Manager

/-- `m.workers[c] = w`. -/
def insert (connectionID : ConnectionID) (w : WorkerProcess) (m : Manager) : Manager :=
  { m with workers := m.workers.put connectionID w }

/-- Store an entry unless the connection has one; the flag says whether it was stored. -/
def insertIfAbsent (connectionID : ConnectionID) (w : WorkerProcess) (m : Manager) : Bool × Manager :=
  match m.workers.find? connectionID with
  | none => (true, m.insert connectionID w)
  | some _ => (false, m)

/-- Change the entry of a connection while it still holds the launch. -/
def updateEntry (connectionID : ConnectionID) (launchID : LaunchID)
    (f : WorkerProcess → WorkerProcess) (m : Manager) : Manager :=
  { m with workers := (m.workers.updateWhere connectionID (fun w => w.launchID = launchID) f).1 }

/-- Delete the entry of a connection while it still holds the launch. -/
def deleteEntry (connectionID : ConnectionID) (launchID : LaunchID) (m : Manager) : Manager :=
  { m with workers := (m.workers.deleteWhere connectionID (fun w => w.launchID = launchID)).1 }

/-- `WorkerCount`. -/
def workerCount (m : Manager) : ℕ := m.workers.size

section Entries

variable {connectionID : ConnectionID} {launchID : LaunchID} {f : WorkerProcess → WorkerProcess}
  {m : Manager}

theorem find?_updateEntry (c : ConnectionID) :
    (m.updateEntry connectionID launchID f).workers.find? c =
      if c = connectionID then
        (m.workers.find? c).map fun w => if w.launchID = launchID then f w else w
      else m.workers.find? c := by
  unfold updateEntry
  rw [Table.find?_updateWhere]
  by_cases hc : c = connectionID
  · subst hc
    rfl
  · simp [hc]

theorem find?_deleteEntry (c : ConnectionID) :
    (m.deleteEntry connectionID launchID).workers.find? c =
      if c = connectionID then (m.workers.find? c).filter fun w => w.launchID ≠ launchID
      else m.workers.find? c := by
  unfold deleteEntry
  rw [Table.find?_deleteWhere]
  by_cases hc : c = connectionID
  · subst hc
    simp
  · simp [hc]

theorem find?_insert (w : WorkerProcess) (c : ConnectionID) :
    (m.insert connectionID w).workers.find? c =
      if c = connectionID then some w else m.workers.find? c :=
  Table.find?_put _ _ _ _

theorem workerCount_insert_le (w : WorkerProcess) :
    (m.insert connectionID w).workerCount ≤ m.workerCount + 1 := Table.size_put_le _ _ _

theorem workerCount_insert_of_some {w₀ : WorkerProcess} (w : WorkerProcess)
    (h : m.workers.find? connectionID = some w₀) :
    (m.insert connectionID w).workerCount = m.workerCount := Table.size_put_of_some _ h

theorem workerCount_updateEntry :
    (m.updateEntry connectionID launchID f).workerCount = m.workerCount := by
  unfold updateEntry workerCount Table.updateWhere
  cases hw : m.workers.find? connectionID with
  | none => rfl
  | some w =>
    by_cases hl : w.launchID = launchID
    · simp only [if_pos hl]
      exact Table.size_put_of_some _ hw
    · simp only [if_neg hl]

theorem workerCount_deleteEntry_le :
    (m.deleteEntry connectionID launchID).workerCount ≤ m.workerCount := by
  unfold deleteEntry workerCount Table.deleteWhere
  cases hw : m.workers.find? connectionID with
  | none => exact Nat.le_refl _
  | some w =>
    by_cases hl : w.launchID = launchID
    · simp only [if_pos hl]
      exact Table.size_erase_le _ _
    · simp only [if_neg hl]
      exact Nat.le_refl _

theorem workerCount_deleteEntry_of_some {w : WorkerProcess}
    (hw : m.workers.find? connectionID = some w) (hl : w.launchID = launchID) :
    (m.deleteEntry connectionID launchID).workerCount + 1 = m.workerCount := by
  unfold deleteEntry workerCount
  rw [Table.deleteWhere_of_pos hw hl]
  exact Table.size_erase_of_some hw

end Entries

/-! ### Sections of `spawnWorkerArtifactWithLaunch` -/

/-- The arguments of `spawnWorkerArtifactWithLaunch` that reach the entry, with the launch ID and the
readiness token it has minted. -/
structure LaunchSpec where
  companyID : CompanyID
  connectionID : ConnectionID
  tenantSchema : TenantSchema
  unlinkOnStart : Bool
  restartCount : ℕ
  artifact : WorkerArtifact
  launchID : LaunchID
  readinessToken : ℕ
  deriving DecidableEq

def LaunchSpec.worker (a : LaunchSpec) : WorkerProcess where
  connectionID := a.connectionID
  launchID := a.launchID
  desiredState := if a.unlinkOnStart then .unlinking else .running
  companyID := a.companyID
  tenantSchema := a.tenantSchema
  status := .starting
  restartCount := a.restartCount
  artifact := a.artifact
  removeOnExit := a.unlinkOnStart
  cmd := true
  readinessToken := some a.readinessToken

/-- `preserveFailedIntent`. -/
def LaunchSpec.preserveFailedIntent (a : LaunchSpec) : Bool :=
  decide (0 < a.restartCount) || a.unlinkOnStart

inductive Reservation
  | shuttingDown
  | otherCompany
  /-- A live entry: its status is republished and the call returns without an error. -/
  | alreadyRunning
  | workerLimit
  /-- `workerRuntimeURLs` fails. -/
  | missingCredentials
  | reserved (previous : Option WorkerProcess)
  deriving DecidableEq

/-- The critical section that reserves the map slot.  An entry that may be replaced is deleted before
the cap and the credentials are checked. -/
def reserveSlot (cfg : Config) (a : LaunchSpec) (m : Manager) : Reservation × Manager :=
  if m.shuttingDown then (.shuttingDown, m)
  else
    match m.workers.find? a.connectionID with
    | none =>
      if 0 < cfg.maxWorkers ∧ cfg.maxWorkers ≤ m.workerCount then (.workerLimit, m)
      else if cfg.restrictedCredentials = false then (.missingCredentials, m)
      else (.reserved none, m.insert a.connectionID a.worker)
    | some existing =>
      if existing.companyID ≠ a.companyID then (.otherCompany, m)
      else if existing.status ≠ .stopped ∧ existing.status ≠ .error then (.alreadyRunning, m)
      else
        let m' := { m with workers := m.workers.erase a.connectionID }
        if 0 < cfg.maxWorkers ∧ cfg.maxWorkers ≤ m'.workerCount then (.workerLimit, m')
        else if cfg.restrictedCredentials = false then (.missingCredentials, m')
        else (.reserved (some existing), m'.insert a.connectionID a.worker)

/-- `removeInMemory`. -/
def removeInMemory (a : LaunchSpec) (m : Manager) : Manager := m.deleteEntry a.connectionID a.launchID

/-- `restorePrevious`. -/
def restorePrevious (a : LaunchSpec) (previous : Option WorkerProcess) (m : Manager) : Manager :=
  match previous with
  | none => m
  | some w => (m.insertIfAbsent a.connectionID w).2

/-- The in-memory half of `markLaunchFailed`. -/
def markLaunchFailed (a : LaunchSpec) (m : Manager) : Manager :=
  m.updateEntry a.connectionID a.launchID fun w => { w with pid := 0, status := .error }

/-- The section after `cmd.Start`: record the child unless the slot was lost. -/
def recordStarted (a : LaunchSpec) (pid : ℕ) (m : Manager) : Option WorkerProcess × Manager :=
  match m.workers.find? a.connectionID with
  | none => (none, m)
  | some w =>
    if w.launchID = a.launchID then
      (some { w with pid := pid, status := .connecting },
        m.insert a.connectionID { w with pid := pid, status := .connecting })
    else (none, m)

/-- What `reserveSlot` can do to the map: nothing, drop a replaceable entry at the cap or without
credentials, or put a new entry in the place of the previous one without passing the cap. -/
theorem reserveSlot_cases (cfg : Config) (a : LaunchSpec) (m : Manager) :
    ((∀ previous, (reserveSlot cfg a m).1 ≠ .reserved previous) ∧ (reserveSlot cfg a m).2 = m) ∨
      ((∀ previous, (reserveSlot cfg a m).1 ≠ .reserved previous) ∧
        (reserveSlot cfg a m).2 = { m with workers := m.workers.erase a.connectionID }) ∨
      ((reserveSlot cfg a m).1 = .reserved (m.workers.find? a.connectionID) ∧
        (∀ c, (reserveSlot cfg a m).2.workers.find? c =
          if c = a.connectionID then some a.worker else m.workers.find? c) ∧
        (reserveSlot cfg a m).2.shuttingDown = m.shuttingDown ∧
        (∀ w, m.workers.find? a.connectionID = some w →
          w.companyID = a.companyID ∧ (w.status = .stopped ∨ w.status = .error)) ∧
        (0 < cfg.maxWorkers → (reserveSlot cfg a m).2.workerCount ≤ cfg.maxWorkers)) := by
  unfold reserveSlot
  by_cases hdown : m.shuttingDown = true
  · rw [if_pos hdown]
    exact Or.inl ⟨by simp, rfl⟩
  · rw [if_neg hdown]
    cases hw : m.workers.find? a.connectionID with
    | none =>
      by_cases hcap : 0 < cfg.maxWorkers ∧ cfg.maxWorkers ≤ m.workerCount
      · simp only [if_pos hcap]
        exact Or.inl ⟨by simp, trivial⟩
      · simp only [if_neg hcap]
        by_cases hcred : cfg.restrictedCredentials = false
        · simp only [if_pos hcred]
          exact Or.inl ⟨by simp, trivial⟩
        simp only [if_neg hcred]
        refine Or.inr (Or.inr ⟨trivial, fun c => find?_insert _ _, rfl, by simp, fun hpos => ?_⟩)
        have hsize : (m.workers.put a.connectionID a.worker).size = m.workers.size + 1 :=
          Table.size_put_of_none _ hw
        have hfree : ¬ cfg.maxWorkers ≤ m.workers.size := fun h => hcap ⟨hpos, h⟩
        show (m.workers.put a.connectionID a.worker).size ≤ cfg.maxWorkers
        omega
    | some existing =>
      by_cases hcompany : existing.companyID ≠ a.companyID
      · simp only [if_pos hcompany]
        exact Or.inl ⟨by simp, trivial⟩
      · by_cases hlive : existing.status ≠ .stopped ∧ existing.status ≠ .error
        · simp only [if_neg hcompany, if_pos hlive]
          exact Or.inl ⟨by simp, trivial⟩
        · simp only [if_neg hcompany, if_neg hlive]
          by_cases hcap : 0 < cfg.maxWorkers ∧
              cfg.maxWorkers ≤ workerCount { m with workers := m.workers.erase a.connectionID }
          · simp only [if_pos hcap]
            exact Or.inr (Or.inl ⟨by simp, trivial⟩)
          · simp only [if_neg hcap]
            by_cases hcred : cfg.restrictedCredentials = false
            · simp only [if_pos hcred]
              exact Or.inr (Or.inl ⟨by simp, trivial⟩)
            simp only [if_neg hcred]
            refine Or.inr (Or.inr ⟨trivial, fun c => ?_, rfl, ?_, fun hpos => ?_⟩)
            · rw [find?_insert]
              show (if c = a.connectionID then _ else (m.workers.erase a.connectionID).find? c) = _
              by_cases hc : c = a.connectionID
              · rw [if_pos hc, if_pos hc]
              · rw [if_neg hc, if_neg hc, Table.find?_erase_ne _ hc]
            · rintro w hw'
              obtain rfl := Option.some.inj hw'
              refine ⟨not_not.mp hcompany, ?_⟩
              by_contra hstatus
              exact hlive (not_or.mp hstatus)
            · have hle := Table.size_put_le (m.workers.erase a.connectionID) a.connectionID a.worker
              have hfree : ¬ cfg.maxWorkers ≤ (m.workers.erase a.connectionID).size :=
                fun h => hcap ⟨hpos, h⟩
              show ((m.workers.erase a.connectionID).put a.connectionID a.worker).size ≤ _
              omega

end Manager

end TeamInbox.Orchestrator
