import TeamInbox.Lib.Run
import TeamInbox.Orchestrator.Manager

/-!
# TeamInbox.Orchestrator.WorkerCap — the number of entries in the workers map of one node

The critical sections that add or remove entries, interleaved in any order: startup recovery, spawns
(commands, delayed restarts, one-shot unlinks), takeovers of failed-node workers, the reconciliation
of a stop or unlink, and the removals at the end of a stop or failure.  What the database answers
between two sections is left open.  A spawn holds the lifecycle lock of its connection from the
reservation to its end, so no second spawn and no stop of that connection runs meanwhile.

`reserveSlot` checks the cap and inserts in one section.  Three other insertions do not: the takeover
checks `WorkerCount` in an earlier section, `restorePrevious` comes back for a slot `removeInMemory`
has freed, and `reconcileDurableLifecycleWorker` does not look at the cap.
-/

namespace TeamInbox.Orchestrator

open TeamInbox.Lib

/-- Where a spawn that has reserved its slot stands. -/
inductive SpawnPoint
  /-- The claim is in flight, or the child is being started. -/
  | launching (previous : Option WorkerProcess)
  /-- `removeInMemory` has run and left `freed` entries; `restorePrevious` comes next. -/
  | restoring (previous : Option WorkerProcess) (freed : ℕ)
  deriving DecidableEq

structure CapSpawn where
  spec : Manager.LaunchSpec
  point : SpawnPoint
  deriving DecidableEq

structure CapState where
  manager : Manager
  /-- The spawns in progress, by connection. -/
  spawns : Table ConnectionID CapSpawn
  /-- What `takeOverFailedNodes` read from `WorkerCount` for the record it is working on. -/
  reading : Option ℕ
  /-- `Start` has not finished `recoverOrphanedWorkers` yet. -/
  starting : Bool
  /-- The connections recovered at startup, each once. -/
  recovered : List ConnectionID

/-- A node at the beginning of `Start`. -/
def CapState.initial : CapState := ⟨Manager.fresh, Table.empty, none, true, []⟩

inductive CapAction
  /-- `recoverOrphanedWorkers` puts a row of this node into the map. -/
  | recover (connectionID : ConnectionID) (w : WorkerProcess)
  | startupDone
  /-- The reservation of a spawn command, a delayed restart or a one-shot unlink. -/
  | reserve (spec : Manager.LaunchSpec)
  /-- `ClaimWorkerLaunch` returned an error. -/
  | claimFailed (connectionID : ConnectionID) (conflict : Bool)
  | restore (connectionID : ConnectionID)
  /-- The launch failed after its claim; `drop` says that the entry is removed, not marked. -/
  | launchFailed (connectionID : ConnectionID) (drop : Bool)
  | launched (connectionID : ConnectionID)
  /-- `takeOverFailedNodes` reads `WorkerCount` for its next record. -/
  | checkCapacity
  /-- The ownership CAS went through and the record is put into the map. -/
  | takeOver (connectionID : ConnectionID) (w : WorkerProcess)
  /-- `reconcileDurableLifecycleWorker` puts the durable launch into the map. -/
  | reconcile (connectionID : ConnectionID) (w : WorkerProcess)
  /-- A stop, a failure or a finished unlink deletes its entry. -/
  | remove (connectionID : ConnectionID) (launchID : LaunchID)
  /-- A section changes fields of an entry: status, process, flags, budget. -/
  | update (connectionID : ConnectionID) (w : WorkerProcess)
  deriving DecidableEq

def capStep (cfg : Config) (s : CapState) : CapAction → Option CapState
  | .recover c w =>
    if s.starting = true ∧ s.spawns.find? c = none then
      some { s with manager := s.manager.insert c w, recovered := s.recovered.insert c }
    else none
  | .startupDone => some { s with starting := false }
  | .reserve spec =>
    -- before the commands are consumed, only recovered workers are restarted
    if s.spawns.find? spec.connectionID = none ∧
        (s.starting = true → spec.connectionID ∈ s.recovered) then
      match Manager.reserveSlot cfg spec s.manager with
      | (.reserved previous, m) => some { s with
          manager := m, spawns := s.spawns.put spec.connectionID ⟨spec, .launching previous⟩ }
      | (_, m) => some { s with manager := m }
    else none
  | .claimFailed c conflict =>
    match s.spawns.find? c with
    | some ⟨spec, .launching previous⟩ =>
      let m := Manager.removeInMemory spec s.manager
      if conflict then some { s with manager := m, spawns := s.spawns.erase c }
      else some { s with
        manager := m, spawns := s.spawns.put c ⟨spec, .restoring previous m.workerCount⟩ }
    | _ => none
  | .restore c =>
    match s.spawns.find? c with
    | some ⟨spec, .restoring previous _⟩ => some { s with
        manager := Manager.restorePrevious spec previous s.manager, spawns := s.spawns.erase c }
    | _ => none
  | .launchFailed c drop =>
    match s.spawns.find? c with
    | some ⟨spec, .launching _⟩ => some { s with
        manager :=
          if drop then Manager.removeInMemory spec s.manager
          else Manager.markLaunchFailed spec s.manager
        spawns := s.spawns.erase c }
    | _ => none
  | .launched c =>
    match s.spawns.find? c with
    | some ⟨_, .launching _⟩ => some { s with spawns := s.spawns.erase c }
    | _ => none
  | .checkCapacity =>
    if s.starting = false ∧ ¬ (0 < cfg.maxWorkers ∧ cfg.maxWorkers ≤ s.manager.workerCount) then
      some { s with reading := some s.manager.workerCount }
    else none
  | .takeOver c w =>
    match s.reading with
    | some _ => some { s with manager := (s.manager.insertIfAbsent c w).2, reading := none }
    | none => none
  | .reconcile c w =>
    if s.starting = false ∧ s.spawns.find? c = none then
      some { s with manager := s.manager.insert c w }
    else none
  | .remove c launchID =>
    if s.spawns.find? c = none then some { s with manager := s.manager.deleteEntry c launchID }
    else none
  | .update c w => some { s with manager := s.manager.updateEntry c w.launchID fun _ => w }

/-- The map holds at most `max(MaxWorkers, recovered)` entries. -/
def CapBound (cfg : Config) (s : CapState) : Prop :=
  s.manager.workerCount ≤ max cfg.maxWorkers s.recovered.length

def Tracked (s : CapState) (c : ConnectionID) : Prop := ∃ w, s.manager.workers.find? c = some w

/-- The slot an insertion counts on is still there: the map has not grown since the takeover read
`WorkerCount`, or since `removeInMemory` freed the slot; a reconciled connection finds a free one. -/
def SlotKept (cfg : Config) (s : CapState) : CapAction → Prop
  | .takeOver c _ => Tracked s c ∨ ∀ n, s.reading = some n → s.manager.workerCount ≤ n
  | .restore c => Tracked s c ∨
      ∀ spec previous freed, s.spawns.find? c = some ⟨spec, .restoring previous freed⟩ →
        s.manager.workerCount ≤ freed
  | .reconcile c _ => Tracked s c ∨ s.manager.workerCount < cfg.maxWorkers
  | _ => True

/-! ### The invariant -/

/-- The slot a spawn in progress holds, or has left to `restorePrevious`. -/
def HoldsSlot (cfg : Config) (s : CapState) (c : ConnectionID) (sp : CapSpawn) : Prop :=
  sp.spec.connectionID = c ∧ (s.starting = true → c ∈ s.recovered) ∧
    match sp.point with
    | .launching _ => ∃ w, s.manager.workers.find? c = some w ∧ w.launchID = sp.spec.launchID
    | .restoring _ freed => freed < max cfg.maxWorkers s.recovered.length

structure CapInv (cfg : Config) (s : CapState) : Prop where
  bound : CapBound cfg s
  startup : s.starting = true → ∀ c w, s.manager.workers.find? c = some w → c ∈ s.recovered
  spawns : ∀ c sp, s.spawns.find? c = some sp → HoldsSlot cfg s c sp
  reading : ∀ n, s.reading = some n → n < cfg.maxWorkers ∧ s.starting = false

section Steps

variable {cfg : Config} {s : CapState}

theorem capBound_of_startup {m : Manager} {recovered : List ConnectionID}
    (h : ∀ c w, m.workers.find? c = some w → c ∈ recovered) :
    m.workerCount ≤ max cfg.maxWorkers recovered.length :=
  Nat.le_trans (Table.size_le_of_keys h) (Nat.le_max_right _ _)

/-- Another map under the same bookkeeping: the bound, the startup entries and the slots of the spawns
in progress have to be shown for it. -/
theorem CapInv.withManager {m : Manager} (hI : CapInv cfg s)
    (hbound : s.starting = false → m.workerCount ≤ max cfg.maxWorkers s.recovered.length)
    (hstart : s.starting = true → ∀ c w, m.workers.find? c = some w → c ∈ s.recovered)
    (hslot : ∀ c sp w, s.spawns.find? c = some sp → s.manager.workers.find? c = some w →
      w.launchID = sp.spec.launchID → ∃ w', m.workers.find? c = some w' ∧ w'.launchID = w.launchID) :
    CapInv cfg { s with manager := m } where
  bound := by
    cases hs : s.starting with
    | false => exact hbound hs
    | true => exact capBound_of_startup (hstart hs)
  startup := hstart
  spawns := by
    intro c sp hsp
    obtain ⟨hc, hrec, hpoint⟩ := hI.spawns c sp hsp
    refine ⟨hc, hrec, ?_⟩
    cases hp : sp.point with
    | launching previous =>
      rw [hp] at hpoint
      obtain ⟨w, hw, hl⟩ := hpoint
      obtain ⟨w', hw', hl'⟩ := hslot c sp w hsp hw hl
      exact ⟨w', hw', hl'.trans hl⟩
    | restoring previous freed =>
      rw [hp] at hpoint
      exact hpoint
  reading := hI.reading

theorem CapInv.eraseSpawn (hI : CapInv cfg s) (c : ConnectionID) :
    CapInv cfg { s with spawns := s.spawns.erase c } where
  bound := hI.bound
  startup := hI.startup
  spawns := by
    intro c' sp hsp
    have hne : c' ≠ c := by
      rintro rfl
      rw [Table.find?_erase_self] at hsp
      cases hsp
    rw [Table.find?_erase_ne _ hne] at hsp
    exact hI.spawns c' sp hsp
  reading := hI.reading

theorem CapInv.putSpawn (hI : CapInv cfg s) {c : ConnectionID} {sp : CapSpawn}
    (h : HoldsSlot cfg s c sp) : CapInv cfg { s with spawns := s.spawns.put c sp } where
  bound := hI.bound
  startup := hI.startup
  spawns := by
    intro c' sp' hsp
    rw [Table.find?_put] at hsp
    by_cases hc : c' = c
    · rw [if_pos hc] at hsp
      obtain rfl := Option.some.inj hsp
      exact hc ▸ h
    · rw [if_neg hc] at hsp
      exact hI.spawns c' sp' hsp
  reading := hI.reading

theorem CapInv.spawnsExt (hI : CapInv cfg s) {t : Table ConnectionID CapSpawn}
    (ht : ∀ c, t.find? c = s.spawns.find? c) : CapInv cfg { s with spawns := t } where
  bound := hI.bound
  startup := hI.startup
  spawns := fun c sp hsp => hI.spawns c sp (by rw [← ht]; exact hsp)
  reading := hI.reading

theorem CapInv.recover (hI : CapInv cfg s) (c : ConnectionID) :
    CapInv cfg { s with recovered := s.recovered.insert c } := by
  have hlen : s.recovered.length ≤ (s.recovered.insert c).length := by
    rw [List.length_insert]
    split <;> omega
  have hmem : ∀ c', c' ∈ s.recovered → c' ∈ s.recovered.insert c :=
    fun c' h => List.mem_insert_of_mem h
  refine ⟨?_, fun hs c' w hw => hmem c' (hI.startup hs c' w hw), fun c' sp hsp => ?_, hI.reading⟩
  · have hbound : s.manager.workerCount ≤ max cfg.maxWorkers s.recovered.length := hI.bound
    show s.manager.workerCount ≤ max cfg.maxWorkers (s.recovered.insert c).length
    omega
  · obtain ⟨hc, hrec, hpoint⟩ := hI.spawns c' sp hsp
    refine ⟨hc, fun hs => hmem c' (hrec hs), ?_⟩
    cases hp : sp.point with
    | launching previous =>
      rw [hp] at hpoint
      exact hpoint
    | restoring previous freed =>
      rw [hp] at hpoint
      have hfreed : freed < max cfg.maxWorkers s.recovered.length := hpoint
      show freed < max cfg.maxWorkers (s.recovered.insert c).length
      omega

theorem CapInv.insert (hI : CapInv cfg s) {c : ConnectionID} (w : WorkerProcess)
    (hfree : s.starting = false →
      Tracked s c ∨ s.manager.workerCount < max cfg.maxWorkers s.recovered.length)
    (hstart : s.starting = true → c ∈ s.recovered)
    (hnone : ∀ sp, s.spawns.find? c = some sp → s.manager.workers.find? c = none) :
    CapInv cfg { s with manager := s.manager.insert c w } := by
  refine hI.withManager (fun hs => ?_) (fun hs c' w' hw' => ?_) (fun c' sp w₀ hsp hw₀ _ => ?_)
  · rcases hfree hs with ⟨w₀, hw₀⟩ | hlt
    · rw [Manager.workerCount_insert_of_some w hw₀]
      exact hI.bound
    · have hle : (s.manager.insert c w).workerCount ≤ s.manager.workerCount + 1 :=
        Manager.workerCount_insert_le w
      omega
  · rw [Manager.find?_insert] at hw'
    by_cases hc : c' = c
    · exact hc ▸ hstart hs
    · rw [if_neg hc] at hw'
      exact hI.startup hs c' w' hw'
  · have hne : c' ≠ c := by
      rintro rfl
      rw [hnone sp hsp] at hw₀
      cases hw₀
    rw [Manager.find?_insert, if_neg hne]
    exact ⟨w₀, hw₀, rfl⟩

theorem CapInv.insertIfAbsent (hI : CapInv cfg s) {c : ConnectionID} (w : WorkerProcess)
    (hfree : s.manager.workers.find? c = none → s.starting = false →
      s.manager.workerCount < max cfg.maxWorkers s.recovered.length)
    (hstart : s.starting = true → c ∈ s.recovered) :
    CapInv cfg { s with manager := (s.manager.insertIfAbsent c w).2 } := by
  unfold Manager.insertIfAbsent
  cases hw : s.manager.workers.find? c with
  | some w₀ => exact hI
  | none => exact hI.insert w (fun hs => Or.inr (hfree hw hs)) hstart fun sp _ => hw

theorem CapInv.deleteEntry (hI : CapInv cfg s) {c : ConnectionID} (launchID : LaunchID)
    (hnone : s.spawns.find? c = none) :
    CapInv cfg { s with manager := s.manager.deleteEntry c launchID } := by
  refine hI.withManager (fun _ => ?_) (fun hs c' w' hw' => ?_) (fun c' sp w₀ hsp hw₀ _ => ?_)
  · exact Nat.le_trans Manager.workerCount_deleteEntry_le hI.bound
  · rw [Manager.find?_deleteEntry] at hw'
    by_cases hc : c' = c
    · rw [if_pos hc] at hw'
      exact hI.startup hs c' w' (Option.filter_eq_some_iff.mp hw').1
    · rw [if_neg hc] at hw'
      exact hI.startup hs c' w' hw'
  · have hne : c' ≠ c := by
      rintro rfl
      rw [hnone] at hsp
      cases hsp
    rw [Manager.find?_deleteEntry, if_neg hne]
    exact ⟨w₀, hw₀, rfl⟩

theorem CapInv.updateEntry (hI : CapInv cfg s) (c : ConnectionID) {launchID : LaunchID}
    {f : WorkerProcess → WorkerProcess} (hf : ∀ w, w.launchID = launchID → (f w).launchID = launchID) :
    CapInv cfg { s with manager := s.manager.updateEntry c launchID f } := by
  refine hI.withManager (fun _ => ?_) (fun hs c' w' hw' => ?_) (fun c' sp w₀ hsp hw₀ _ => ?_)
  · rw [Manager.workerCount_updateEntry]
    exact hI.bound
  · rw [Manager.find?_updateEntry] at hw'
    by_cases hc : c' = c
    · rw [if_pos hc] at hw'
      obtain ⟨w₀, hw₀, -⟩ := Option.map_eq_some_iff.mp hw'
      exact hI.startup hs c' w₀ hw₀
    · rw [if_neg hc] at hw'
      exact hI.startup hs c' w' hw'
  · rw [Manager.find?_updateEntry]
    by_cases hc : c' = c
    · rw [if_pos hc, hw₀]
      refine ⟨_, rfl, ?_⟩
      show (if w₀.launchID = launchID then f w₀ else w₀).launchID = w₀.launchID
      by_cases hl : w₀.launchID = launchID
      · rw [if_pos hl, hf w₀ hl, hl]
      · rw [if_neg hl]
    · rw [if_neg hc]
      exact ⟨w₀, hw₀, rfl⟩

theorem CapInv.reserve (hN : 0 < cfg.maxWorkers) (hI : CapInv cfg s) {spec : Manager.LaunchSpec}
    {s' : CapState} (h : capStep cfg s (.reserve spec) = some s') : CapInv cfg s' := by
  simp only [capStep] at h
  by_cases hg : s.spawns.find? spec.connectionID = none ∧
      (s.starting = true → spec.connectionID ∈ s.recovered)
  · rw [if_pos hg] at h
    obtain ⟨hfree, hrec⟩ := hg
    rcases Manager.reserveSlot_cases cfg spec s.manager with ⟨hno, hm⟩ | ⟨hlimit, hm⟩ | ⟨hres, hfind, -, -, hcap⟩
    · -- refused: the map is as it was
      generalize Manager.reserveSlot cfg spec s.manager = r at h hno hm
      obtain ⟨result, m⟩ := r
      subst hm
      cases result with
      | reserved previous => exact absurd rfl (hno previous)
      | _ => obtain rfl := Option.some.inj h; exact hI
    · -- refused after the replaceable entry is gone
      generalize Manager.reserveSlot cfg spec s.manager = r at h hlimit hm
      obtain ⟨result, m⟩ := r
      subst hm
      have hs' : s' = { s with
          manager := { s.manager with workers := s.manager.workers.erase spec.connectionID } } := by
        cases result with
        | reserved previous => exact absurd rfl (hlimit previous)
        | _ => exact (Option.some.inj h).symm
      subst hs'
      refine hI.withManager (fun _ => ?_) (fun hs c w hw => ?_) (fun c sp w hsp hw _ => ?_)
      · exact Nat.le_trans (Table.size_erase_le _ _) hI.bound
      · rw [Table.find?_erase] at hw
        by_cases hc : c = spec.connectionID
        · rw [if_pos hc] at hw
          cases hw
        · rw [if_neg hc] at hw
          exact hI.startup hs c w hw
      · have hne : c ≠ spec.connectionID := by
          rintro rfl
          rw [hfree] at hsp
          cases hsp
        exact ⟨w, by rw [← hw]; exact Table.find?_erase_ne _ hne, rfl⟩
    · have hcap' := hcap hN
      generalize Manager.reserveSlot cfg spec s.manager = r at h hres hfind hcap'
      obtain ⟨result, m⟩ := r
      subst hres
      obtain rfl := Option.some.inj h
      have hm : CapInv cfg { s with manager := m } := by
        refine hI.withManager (fun _ => ?_) (fun hs c w hw => ?_) (fun c sp w hsp hw _ => ?_)
        · exact Nat.le_trans hcap' (Nat.le_max_left _ _)
        · rw [hfind] at hw
          by_cases hc : c = spec.connectionID
          · exact hc ▸ hrec hs
          · rw [if_neg hc] at hw
            exact hI.startup hs c w hw
        · have hne : c ≠ spec.connectionID := by
            rintro rfl
            rw [hfree] at hsp
            cases hsp
          exact ⟨w, by rw [hfind, if_neg hne, hw], rfl⟩
      refine hm.putSpawn ⟨rfl, hrec, spec.worker, ?_, rfl⟩
      show m.workers.find? spec.connectionID = some spec.worker
      rw [hfind, if_pos rfl]
  · rw [if_neg hg] at h
    cases h

theorem CapInv.removeInMemory (hI : CapInv cfg s) {c : ConnectionID} {spec : Manager.LaunchSpec}
    {previous : Option WorkerProcess} (hsp : s.spawns.find? c = some ⟨spec, .launching previous⟩) :
    CapInv cfg { s with
      manager := Manager.removeInMemory spec s.manager, spawns := s.spawns.erase c } ∧
    (Manager.removeInMemory spec s.manager).workerCount < max cfg.maxWorkers s.recovered.length := by
  obtain ⟨hc, -, w, hw, hl⟩ := hI.spawns c _ hsp
  have hc' : spec.connectionID = c := hc
  constructor
  · have herased := (hI.eraseSpawn c).deleteEntry (c := c) spec.launchID (Table.find?_erase_self _ _)
    rw [← hc'] at herased ⊢
    exact herased
  · have hcount := Manager.workerCount_deleteEntry_of_some hw hl
    have hbound : s.manager.workerCount ≤ max cfg.maxWorkers s.recovered.length := hI.bound
    unfold Manager.removeInMemory
    rw [hc']
    have hspec : (⟨spec, SpawnPoint.launching previous⟩ : CapSpawn).spec = spec := rfl
    rw [hspec] at hcount
    omega

/-- **One step** of the node keeps the invariant when the slot an insertion counts on is there. -/
theorem capStep_inv (hN : 0 < cfg.maxWorkers) {a : CapAction} {s' : CapState} (hI : CapInv cfg s)
    (hC : SlotKept cfg s a) (h : capStep cfg s a = some s') : CapInv cfg s' := by
  cases a with
  | recover c w =>
    simp only [capStep] at h
    split at h
    · rename_i hg
      obtain rfl := Option.some.inj h
      refine (hI.recover c).insert w (fun hs => ?_) (fun _ => List.mem_insert_self) (fun sp hsp => ?_)
      · rw [show s.starting = true from hg.1] at hs
        cases hs
      · rw [show s.spawns.find? c = none from hg.2] at hsp
        cases hsp
    · cases h
  | startupDone =>
    obtain rfl := Option.some.inj h
    refine ⟨hI.bound, fun hs => absurd hs Bool.false_ne_true, fun c sp hsp => ?_,
      fun n hn => ⟨(hI.reading n hn).1, rfl⟩⟩
    obtain ⟨hc, -, hpoint⟩ := hI.spawns c sp hsp
    exact ⟨hc, fun hs => absurd hs Bool.false_ne_true, hpoint⟩
  | reserve spec => exact hI.reserve hN h
  | claimFailed c conflict =>
    simp only [capStep] at h
    split at h
    · rename_i spec previous hsp
      obtain ⟨hrem, hlt⟩ := hI.removeInMemory hsp
      cases conflict with
      | true =>
        obtain rfl := Option.some.inj h
        exact hrem
      | false =>
        obtain rfl := Option.some.inj h
        obtain ⟨hc, hrec, -⟩ := hI.spawns c _ hsp
        have hslot : HoldsSlot cfg { s with
            manager := Manager.removeInMemory spec s.manager, spawns := s.spawns.erase c } c
            ⟨spec, .restoring previous (Manager.removeInMemory spec s.manager).workerCount⟩ :=
          ⟨hc, hrec, hlt⟩
        refine (hrem.putSpawn hslot).spawnsExt fun c' => ?_
        rw [Table.find?_put, Table.find?_put]
        by_cases hne : c' = c
        · rw [if_pos hne, if_pos hne]
        · rw [if_neg hne, if_neg hne, Table.find?_erase_ne _ hne]
    · cases h
  | restore c =>
    simp only [capStep] at h
    split at h
    · rename_i spec previous freed hsp
      obtain rfl := Option.some.inj h
      obtain ⟨hc, hrec, hfreed⟩ := hI.spawns c _ hsp
      have hc' : spec.connectionID = c := hc
      have herased := hI.eraseSpawn c
      cases previous with
      | none => exact herased
      | some w =>
        unfold Manager.restorePrevious
        rw [hc']
        refine herased.insertIfAbsent w (fun hnone _ => ?_) hrec
        rcases hC with ⟨w₀, hw₀⟩ | hle
        · rw [show s.manager.workers.find? c = none from hnone] at hw₀
          cases hw₀
        · exact Nat.lt_of_le_of_lt (hle spec (some w) freed hsp) hfreed
    · cases h
  | launchFailed c drop =>
    simp only [capStep] at h
    split at h
    · rename_i spec previous hsp
      obtain rfl := Option.some.inj h
      cases drop with
      | true => exact (hI.removeInMemory hsp).1
      | false => exact (hI.eraseSpawn c).updateEntry _ fun w hw => hw
    · cases h
  | launched c =>
    simp only [capStep] at h
    split at h
    · obtain rfl := Option.some.inj h
      exact hI.eraseSpawn c
    · cases h
  | checkCapacity =>
    simp only [capStep] at h
    split at h
    · rename_i hg
      obtain rfl := Option.some.inj h
      refine ⟨hI.bound, hI.startup, hI.spawns, fun n hn => ⟨?_, hg.1⟩⟩
      obtain rfl := Option.some.inj hn
      by_contra hge
      exact hg.2 ⟨hN, Nat.le_of_not_lt hge⟩
    · cases h
  | takeOver c w =>
    simp only [capStep] at h
    split at h
    · rename_i n hn
      obtain rfl := Option.some.inj h
      obtain ⟨hlt, hrunning⟩ := hI.reading n hn
      have hdropped : CapInv cfg { s with reading := none } :=
        ⟨hI.bound, hI.startup, hI.spawns, fun n hn => by cases hn⟩
      refine hdropped.insertIfAbsent w (fun hnone _ => ?_) (fun hs => ?_)
      · rcases hC with ⟨w₀, hw₀⟩ | hle
        · rw [show s.manager.workers.find? c = none from hnone] at hw₀
          cases hw₀
        · have hread := hle n hn
          show s.manager.workerCount < max cfg.maxWorkers s.recovered.length
          omega
      · rw [show s.starting = false from hrunning] at hs
        cases hs
    · cases h
  | reconcile c w =>
    simp only [capStep] at h
    split at h
    · rename_i hg
      obtain rfl := Option.some.inj h
      refine hI.insert w (fun _ => ?_) (fun hs => ?_) (fun sp hsp => ?_)
      · rcases hC with htracked | hlt
        · exact Or.inl htracked
        · exact Or.inr (Nat.lt_of_lt_of_le hlt (Nat.le_max_left _ _))
      · rw [hg.1] at hs
        cases hs
      · rw [hg.2] at hsp
        cases hsp
    · cases h
  | remove c launchID =>
    simp only [capStep] at h
    split at h
    · rename_i hg
      obtain rfl := Option.some.inj h
      exact hI.deleteEntry launchID hg
    · cases h
  | update c w =>
    obtain rfl := Option.some.inj h
    exact hI.updateEntry c fun _ _ => rfl

end Steps

theorem capInv_initial (cfg : Config) : CapInv cfg CapState.initial where
  bound := Nat.zero_le _
  startup := fun _ c w hw => by cases hw
  spawns := fun c sp hsp => by cases hsp
  reading := fun n hn => by cases hn

/-- **Worker cap.**  With a positive `MaxWorkers`, in every interleaving in which the three insertions
outside the reserving section find the slot they count on, the map never holds more entries than
`max(MaxWorkers, workers recovered at startup)`. -/
theorem worker_count_within_cap (cfg : Config) (hN : 0 < cfg.maxWorkers) (as : List CapAction)
    (hC : Meets (capStep cfg) (SlotKept cfg) CapState.initial as) :
    Always (capStep cfg) (CapBound cfg) CapState.initial as := by
  have h : Always (capStep cfg) (CapInv cfg) CapState.initial as :=
    always_of_meets (fun s a s' hI hCa hs => capStep_inv hN hI hCa hs) (capInv_initial cfg) hC
  exact h.mono fun s hs => hs.bound

/-! ### A takeover that loses its slot -/

def oneWorkerConfig : Config where
  autoRestartEnabled := true
  autoRestartMaxRetries := 5
  maxWorkers := 1
  fleetMaxConnections := 0
  nodeLeaseDuration := 60
  nodeTakeoverMargin := 60

def spawnSpec (c : ConnectionID) (launchID : LaunchID) : Manager.LaunchSpec :=
  ⟨1, c, 1, false, 0, ⟨1, 1⟩, launchID, 1⟩

/-- The record of connection 2, owned by a failed node. -/
def failedNodeWorker : WorkerProcess where
  connectionID := 2
  launchID := 20
  desiredState := .running
  companyID := 1
  tenantSchema := 1
  status := .error
  artifact := ⟨1, 1⟩

/-- The takeover of connection 2 reads an empty map, a spawn command fills the only slot, the takeover
inserts. -/
def takeoverRace : List CapAction :=
  [.startupDone, .checkCapacity, .reserve (spawnSpec 1 10), .takeOver 2 failedNodeWorker]

/-- With `MaxWorkers = 1` and nothing recovered the map ends with two entries. -/
theorem takeover_race_exceeds_cap :
    ¬ Always (capStep oneWorkerConfig) (CapBound oneWorkerConfig) CapState.initial takeoverRace := by
  intro h
  obtain ⟨s, hrun, hcount, hrec⟩ : ∃ s, runActions (capStep oneWorkerConfig) CapState.initial
      takeoverRace = some s ∧ s.manager.workerCount = 2 ∧ s.recovered.length = 0 := ⟨_, rfl, rfl, rfl⟩
  have hbound := always_iff_reached.mp h takeoverRace [] s rfl hrun
  rw [CapBound, hcount, hrec] at hbound
  exact absurd hbound (by decide)

/-- The same node without the race: the takeover inserts into the map it read. -/
theorem worker_count_within_cap_takeover :
    Always (capStep oneWorkerConfig) (CapBound oneWorkerConfig) CapState.initial
      [.startupDone, .checkCapacity, .takeOver 2 failedNodeWorker] :=
  worker_count_within_cap oneWorkerConfig (by decide) _ (by
    intro s₁ h₁
    refine ⟨trivial, fun s₂ h₂ => ⟨trivial, fun s₃ _ => ⟨Or.inr fun n hn => ?_, trivial⟩⟩⟩
    obtain rfl := Option.some.inj h₁
    obtain rfl := Option.some.inj h₂
    obtain rfl := Option.some.inj hn
    exact Nat.le_refl _)

end TeamInbox.Orchestrator
