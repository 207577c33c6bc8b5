import TeamInbox.Lib.Run
import TeamInbox.Orchestrator.Registry

/-!
# TeamInbox.Orchestrator.LaunchExclusion — who launches a connection

The registry row of one connection under any number of nodes.  A spawner is one call of
`spawnWorkerArtifactWithLaunch` on some node: it claims the row, starts a child, activates, and stops
the child again if the activation does not go through.  Its statements, those of takeovers, adoptions
and removals, and every other change of the row interleave in any order, one statement a step.  An
ordinary spawn carries a launch ID that was never used before (`newLaunchID`) and expects whatever
launch its node remembers; a rollout that finds its reserved generation dead claims the same launch ID
again (`relaunchDeadReservedGeneration`).

`claimWorkerLaunchSQL` compares the expected launch only when a row is there.  A relaunch that finds
the row gone inserts its old launch ID again, and that launch can then be replaced a second time
(`relaunch_over_missing_row`); in every other interleaving a launch is replaced once
(`launch_exclusion`).
-/

namespace TeamInbox.Orchestrator

open TeamInbox.Lib

inductive ChildState
  | running
  /-- SIGKILL was sent, by `stopUnregisteredProcess` or as the parent-death signal. -/
  | killed
  | exited
  deriving DecidableEq

/-- Where a spawner stands; `returned` is the end of the call, or the end of its ownership. -/
inductive LaunchPoint
  | claiming | claimed | started | activated | stopping | returned
  deriving DecidableEq

structure Spawner where
  nodeID : NodeID
  worker : WorkerProcess
  expected : Option LaunchID
  /-- A reserved generation is launched again under its old launch ID. -/
  relaunch : Bool
  point : LaunchPoint
  child : Option ChildState
  deriving DecidableEq

inductive LaunchEvent
  /-- A claim wrote the row; `predecessor` is the launch the row held. -/
  | claimed (launchID : LaunchID) (predecessor : Option LaunchID) (relaunch : Bool)
  /-- An activation succeeded on the row as it then was. -/
  | activated (nodeID : NodeID) (w : WorkerProcess) (row : Option WorkerRecord)
  deriving DecidableEq

structure LaunchState where
  db : Db
  spawners : Table ℕ Spawner
  used : List LaunchID
  /-- What happened to the row, latest first. -/
  log : List LaunchEvent

inductive LaunchAction
  | spawn (id : ℕ) (nodeID : NodeID) (w : WorkerProcess) (expected : Option LaunchID)
  | relaunch (id : ℕ) (nodeID : NodeID) (w : WorkerProcess)
  | claim (id : ℕ) (fault : Fault)
  /-- `newWorkerSysProcAttr` or `cmd.Start` failed. -/
  | startFailed (id : ℕ)
  | start (id : ℕ)
  /-- The map slot changed during `cmd.Start`. -/
  | slotLost (id : ℕ)
  | activate (id : ℕ) (fault : Fault)
  | stopChild (id : ℕ) (reaped : Bool)
  /-- The child of an activated launch ends, by itself or by a stop. -/
  | childEnds (id : ℕ)
  | crash (nodeID : NodeID)
  | takeOver (nodeID previousNodeID : NodeID)
  | remove (companyID : CompanyID) (launchID : LaunchID)
  | adopt (nodeID : NodeID)
  /-- Any other statement on the row: it keeps the owner and the generation. -/
  | touch (r : WorkerRecord)
  /-- A claim of another connection draws from the identity sequence. -/
  | claimElsewhere
  | leases (nodes : Table NodeID OrchestratorNode) (now : ℕ)

/-- The database call a spawner is at, with its answer flattened: a claim whose identity is not valid
is an error after the row was written. -/
def claimAnswer (answer : Except Err (Except Err (ℕ × ℕ))) : Option (ℕ × ℕ) :=
  match answer with
  | .ok (.ok p) => if validWorkerIdentity p.1 p.2 then some p else none
  | _ => none

/-- The events of a claim: one if the row was written. -/
def claimEvents (fault : Fault) (result : Except Err (ℕ × ℕ)) (sp : Spawner)
    (row : Option WorkerRecord) : List LaunchEvent :=
  match fault, result with
  | .fail, _ => []
  | _, .ok _ => [.claimed sp.worker.launchID (row.map WorkerRecord.launchID) sp.relaunch]
  | _, .error _ => []

/-- One statement or one local step on the connection `c`. -/
def launchStep (cfg : Config) (c : ConnectionID) (s : LaunchState) :
    LaunchAction → Option LaunchState
  | .spawn id nodeID w expected =>
    if s.spawners.find? id = none ∧ w.launchID ∉ s.used ∧ w.connectionID = c then
      some { s with
        spawners := s.spawners.put id ⟨nodeID, w, expected, false, .claiming, none⟩
        used := w.launchID :: s.used }
    else none
  | .relaunch id nodeID w =>
    if s.spawners.find? id = none ∧ w.launchID ∈ s.used ∧ w.connectionID = c then
      some { s with
        spawners := s.spawners.put id ⟨nodeID, w, some w.launchID, true, .claiming, none⟩ }
    else none
  | .claim id fault =>
    match s.spawners.find? id with
    | some sp =>
      if sp.point = .claiming then
        let stmt := claimWorkerLaunch cfg sp.nodeID sp.worker sp.expected
        let r := fault.exec stmt s.db
        let sp' := match claimAnswer r.1 with
          | some p => { sp with
              worker := { sp.worker with workerUID := p.1, workerGID := p.2 }, point := .claimed }
          | none => { sp with point := .returned }
        some { s with
          db := r.2
          spawners := s.spawners.put id sp'
          log := claimEvents fault (stmt s.db).1 sp (s.db.registry.find? c) ++ s.log }
      else none
    | none => none
  | .startFailed id =>
    match s.spawners.find? id with
    | some sp =>
      if sp.point = .claimed then
        some { s with spawners := s.spawners.put id { sp with point := .returned } }
      else none
    | none => none
  | .start id =>
    match s.spawners.find? id with
    | some sp =>
      if sp.point = .claimed then
        some { s with
          spawners := s.spawners.put id { sp with point := .started, child := some .running } }
      else none
    | none => none
  | .slotLost id =>
    match s.spawners.find? id with
    | some sp =>
      if sp.point = .started then
        some { s with spawners := s.spawners.put id { sp with point := .stopping } }
      else none
    | none => none
  | .activate id fault =>
    match s.spawners.find? id with
    | some sp =>
      if sp.point = .started then
        let r := fault.exec (activateWorkerLaunch sp.nodeID sp.worker) s.db
        match r.1 with
        | .ok true => some { s with
            db := r.2
            spawners := s.spawners.put id { sp with point := .activated }
            log := .activated sp.nodeID sp.worker (s.db.registry.find? c) :: s.log }
        | _ => some { s with
            db := r.2, spawners := s.spawners.put id { sp with point := .stopping } }
      else none
    | none => none
  | .stopChild id reaped =>
    match s.spawners.find? id with
    | some sp =>
      if sp.point = .stopping then
        some { s with
          spawners := s.spawners.put id { sp with
            point := .returned, child := some (if reaped then .exited else .killed) } }
      else none
    | none => none
  | .childEnds id =>
    match s.spawners.find? id with
    | some sp =>
      if sp.point = .activated then
        some { s with
          spawners := s.spawners.put id { sp with point := .returned, child := some .exited } }
      else none
    | none => none
  | .crash nodeID =>
    -- the parent-death signal takes the children of the node with it
    some { s with
      spawners := s.spawners.updateAll (fun _ sp => sp.nodeID = nodeID)
        (fun sp => { sp with point := .returned, child := sp.child.map fun _ => .killed }) }
  | .takeOver nodeID previousNodeID =>
    some { s with
      db := (takeOverFailedNodeWorker nodeID c previousNodeID cfg.nodeTakeoverMargin s.db).2 }
  | .remove companyID launchID =>
    some { s with db := (removeWorkerLaunch c companyID launchID s.db).2 }
  | .adopt nodeID => some { s with db := (adoptUnassignedWorkers nodeID s.db).2 }
  | .touch r =>
    match s.db.registry.find? c with
    | some r₀ =>
      if r.launchID = r₀.launchID ∧ r.companyID = r₀.companyID ∧ r.workerUID = r₀.workerUID ∧
          r.nodeID = r₀.nodeID then
        some { s with db := { s.db with registry := s.db.registry.put c r } }
      else none
    | none => none
  | .claimElsewhere => some { s with db := { s.db with identitySeq := s.db.identitySeq + 1 } }
  | .leases nodes now => some { s with db := { s.db with nodes := nodes, now := now } }

/-- Any database, no spawner yet; the launch of the row counts as used. -/
def LaunchState.start (c : ConnectionID) (db : Db) : LaunchState where
  db := db
  spawners := Table.empty
  used := ((db.registry.find? c).map WorkerRecord.launchID).toList
  log := []

/-- The event is a claim with a fresh launch ID that replaced the launch `p`. -/
def Replaces (p : LaunchID) (e : LaunchEvent) : Prop := ∃ l, e = .claimed l (some p) false

/-- The spawner was activated on the generation the row holds now, and believes to own its child. -/
def OwnsCurrent (c : ConnectionID) (s : LaunchState) (sp : Spawner) : Prop :=
  sp.point = .activated ∧ ∃ r, s.db.registry.find? c = some r ∧
    r.launchID = sp.worker.launchID ∧ r.workerUID = sp.worker.workerUID

/-- Launch mutual exclusion in one state of a run. -/
structure LaunchExclusive (c : ConnectionID) (s : LaunchState) : Prop where
  /-- No two claims with fresh launch IDs replaced the same launch. -/
  claims : s.log.Pairwise fun e e' => ∀ p, Replaces p e → ¬ Replaces p e'
  /-- Every activation that succeeded found the spawner's company, launch, identity and node. -/
  activations : ∀ n w row, LaunchEvent.activated n w row ∈ s.log → ∃ r, row = some r ∧
    r.companyID = w.companyID ∧ r.launchID = w.launchID ∧ r.workerUID = w.workerUID ∧
      r.workerGID = w.workerGID ∧ r.nodeID = some n
  /-- Only a successful activation ends with the child running. -/
  activated : ∀ id sp, s.spawners.find? id = some sp → sp.point = .activated →
    ∃ row, LaunchEvent.activated sp.nodeID sp.worker row ∈ s.log
  /-- A spawner whose call or ownership is over has no running child. -/
  stopped : ∀ id sp, s.spawners.find? id = some sp → sp.point = .returned → sp.child ≠ some .running
  /-- At most one spawner owns the generation of the row. -/
  unique : ∀ i j si sj, s.spawners.find? i = some si → s.spawners.find? j = some sj →
    OwnsCurrent c s si → OwnsCurrent c s sj → i = j

/-- A rollout that launches its reserved generation again finds a row to replace. -/
def RelaunchFindsRow (c : ConnectionID) (s : LaunchState) : LaunchAction → Prop
  | .claim id _ => ∀ sp, s.spawners.find? id = some sp → sp.relaunch = true →
      s.db.registry.find? c ≠ none
  | _ => True

/-! ### The invariant -/

/-- The claim went through and the call is not over. -/
def HasIdentity (sp : Spawner) : Prop := sp.point ≠ .claiming ∧ sp.point ≠ .returned

structure SpawnerOk (c : ConnectionID) (s : LaunchState) (sp : Spawner) : Prop where
  used : sp.worker.launchID ∈ s.used
  connection : sp.worker.connectionID = c
  expects : sp.relaunch = true → sp.expected = some sp.worker.launchID
  /-- A fresh launch ID that is not claimed yet is neither in the row nor among the replaced ones. -/
  fresh : sp.point = .claiming → sp.relaunch = false →
    (∀ r, s.db.registry.find? c = some r → r.launchID ≠ sp.worker.launchID) ∧
      ∀ e ∈ s.log, ¬ Replaces sp.worker.launchID e
  identity : HasIdentity sp → sp.worker.workerUID < s.db.identitySeq
  childless : sp.point = .claiming ∨ sp.point = .claimed → sp.child = none
  stopped : sp.point = .returned → sp.child ≠ some .running
  activated : sp.point = .activated →
    ∃ row, LaunchEvent.activated sp.nodeID sp.worker row ∈ s.log

/-- What holds of two different spawners: fresh launch IDs differ, and so do claimed identities. -/
def Apart (sp sp' : Spawner) : Prop :=
  (sp.relaunch = false → sp'.relaunch = false → sp.worker.launchID ≠ sp'.worker.launchID) ∧
    (HasIdentity sp → HasIdentity sp' → sp.worker.workerUID ≠ sp'.worker.workerUID)

theorem Apart.symm {sp sp' : Spawner} (h : Apart sp sp') : Apart sp' sp :=
  ⟨fun h' hs => (h.1 hs h').symm, fun h' hs => (h.2 hs h').symm⟩

structure LaunchInv (c : ConnectionID) (s : LaunchState) : Prop where
  row : ∀ r, s.db.registry.find? c = some r → r.launchID ∈ s.used
  /-- A launch that a fresh claim replaced does not come back. -/
  replaced : ∀ p e, e ∈ s.log → Replaces p e →
    p ∈ s.used ∧ ∀ r, s.db.registry.find? c = some r → r.launchID ≠ p
  claims : s.log.Pairwise fun e e' => ∀ p, Replaces p e → ¬ Replaces p e'
  activations : ∀ n w row, LaunchEvent.activated n w row ∈ s.log → ∃ r, row = some r ∧
    r.companyID = w.companyID ∧ r.launchID = w.launchID ∧ r.workerUID = w.workerUID ∧
      r.workerGID = w.workerGID ∧ r.nodeID = some n
  spawners : ∀ id sp, s.spawners.find? id = some sp → SpawnerOk c s sp
  apart : ∀ i j si sj, s.spawners.find? i = some si → s.spawners.find? j = some sj → i ≠ j →
    Apart si sj

theorem LaunchInv.exclusive {c : ConnectionID} {s : LaunchState} (hI : LaunchInv c s) :
    LaunchExclusive c s where
  claims := hI.claims
  activations := hI.activations
  activated := fun id sp hsp => (hI.spawners id sp hsp).activated
  stopped := fun id sp hsp => (hI.spawners id sp hsp).stopped
  unique := by
    rintro i j si sj hi hj ⟨hpi, ri, hri, -, hui⟩ ⟨hpj, rj, hrj, -, huj⟩
    by_contra hne
    have hsame : ri = rj := Option.some.inj (hri.symm.trans hrj)
    have hidi : HasIdentity si := by rw [HasIdentity, hpi]; decide
    have hidj : HasIdentity sj := by rw [HasIdentity, hpj]; decide
    subst hsame
    exact (hI.apart i j si sj hi hj hne).2 hidi hidj (hui.symm.trans huj)

theorem launchInv_start (c : ConnectionID) (db : Db) : LaunchInv c (LaunchState.start c db) where
  row := fun r hr => by
    have hr' : db.registry.find? c = some r := hr
    show r.launchID ∈ ((db.registry.find? c).map WorkerRecord.launchID).toList
    rw [hr']
    exact List.mem_singleton_self _
  replaced := fun p e he => absurd he List.not_mem_nil
  claims := List.Pairwise.nil
  activations := fun n w row h => absurd h List.not_mem_nil
  spawners := fun id sp h => by cases h
  apart := fun i j si sj h => by cases h

section Steps

variable {cfg : Config} {c : ConnectionID} {s s' : LaunchState}

theorem LaunchInv.withDb (hI : LaunchInv c s) {db : Db} (hseq : s.db.identitySeq ≤ db.identitySeq)
    (hrow : ∀ r, db.registry.find? c = some r →
      ∃ r₀, s.db.registry.find? c = some r₀ ∧ r.launchID = r₀.launchID) :
    LaunchInv c { s with db := db } where
  row := fun r hr => by
    obtain ⟨r₀, hr₀, hl⟩ := hrow r hr
    rw [hl]
    exact hI.row r₀ hr₀
  replaced := fun p e he hp => by
    obtain ⟨hused, hne⟩ := hI.replaced p e he hp
    refine ⟨hused, fun r hr => ?_⟩
    obtain ⟨r₀, hr₀, hl⟩ := hrow r hr
    rw [hl]
    exact hne r₀ hr₀
  claims := hI.claims
  activations := hI.activations
  spawners := fun id sp hsp => by
    have hok := hI.spawners id sp hsp
    refine ⟨hok.used, hok.connection, hok.expects, fun hpt hfresh => ?_,
      fun hid => Nat.lt_of_lt_of_le (hok.identity hid) hseq, hok.childless, hok.stopped,
      hok.activated⟩
    refine ⟨fun r hr => ?_, (hok.fresh hpt hfresh).2⟩
    obtain ⟨r₀, hr₀, hl⟩ := hrow r hr
    rw [hl]
    exact (hok.fresh hpt hfresh).1 r₀ hr₀
  apart := hI.apart

theorem LaunchInv.putSpawner (hI : LaunchInv c s) (id : ℕ) {sp : Spawner} (hok : SpawnerOk c s sp)
    (hapart : ∀ j sj, s.spawners.find? j = some sj → j ≠ id → Apart sp sj) :
    LaunchInv c { s with spawners := s.spawners.put id sp } where
  row := hI.row
  replaced := hI.replaced
  claims := hI.claims
  activations := hI.activations
  spawners := fun j sj hj => by
    have hok' : SpawnerOk c s sj := by
      by_cases hji : j = id
      · subst hji
        rw [show (s.spawners.put j sp).find? j = some sp from Table.find?_put_self _ _ _] at hj
        exact Option.some.inj hj ▸ hok
      · rw [show (s.spawners.put id sp).find? j = s.spawners.find? j from
          Table.find?_put_ne _ _ hji] at hj
        exact hI.spawners j sj hj
    exact ⟨hok'.used, hok'.connection, hok'.expects, hok'.fresh, hok'.identity, hok'.childless,
      hok'.stopped, hok'.activated⟩
  apart := fun i j si sj hi hj hne => by
    rw [Table.find?_put] at hi hj
    by_cases hii : i = id
    · rw [if_pos hii] at hi
      rw [if_neg (fun h => hne (hii.trans h.symm))] at hj
      exact Option.some.inj hi ▸ hapart j sj hj (fun h => hne (hii.trans h.symm))
    · rw [if_neg hii] at hi
      by_cases hji : j = id
      · rw [if_pos hji] at hj
        exact (Option.some.inj hj ▸ hapart i si hi hii).symm
      · rw [if_neg hji] at hj
        exact hI.apart i j si sj hi hj hne

theorem LaunchInv.advance (hI : LaunchInv c s) {id : ℕ} {sp : Spawner}
    (hsp : s.spawners.find? id = some sp) (point : LaunchPoint) (child : Option ChildState)
    (hpoint : point ≠ .claiming) (hid : HasIdentity sp ∨ point = .returned)
    (hchildless : point = .claimed → child = none)
    (hstopped : point = .returned → child ≠ some .running)
    (hactivated : point = .activated →
      ∃ row, LaunchEvent.activated sp.nodeID sp.worker row ∈ s.log) :
    LaunchInv c { s with
      spawners := s.spawners.put id { sp with point := point, child := child } } := by
  have hok := hI.spawners id sp hsp
  have hmoved : HasIdentity { sp with point := point, child := child } → HasIdentity sp := by
    rintro ⟨-, hne⟩
    exact hid.resolve_right hne
  refine hI.putSpawner id ⟨hok.used, hok.connection, hok.expects, fun h => absurd h hpoint,
    fun h => hok.identity (hmoved h), fun h => hchildless (h.resolve_left hpoint), hstopped,
    hactivated⟩ fun j sj hj hne => ?_
  have hapart := hI.apart id j sp sj hsp hj (Ne.symm hne)
  exact ⟨hapart.1, fun h => hapart.2 (hmoved h)⟩

theorem LaunchInv.logActivation (hI : LaunchInv c s) {n : NodeID} {w : WorkerProcess}
    {r : WorkerRecord} (hcompany : r.companyID = w.companyID) (hlaunch : r.launchID = w.launchID)
    (huid : r.workerUID = w.workerUID) (hgid : r.workerGID = w.workerGID)
    (hnode : r.nodeID = some n) :
    LaunchInv c { s with log := .activated n w (some r) :: s.log } := by
  have hno : ∀ p, ¬ Replaces p (.activated n w (some r)) := by
    rintro p ⟨l, hl⟩
    cases hl
  refine ⟨hI.row, fun p e he hp => ?_, ?_, fun n' w' row hmem => ?_, fun id sp hsp => ?_, hI.apart⟩
  · rcases List.mem_cons.mp he with rfl | he
    · exact absurd hp (hno p)
    · exact hI.replaced p e he hp
  · exact List.pairwise_cons.mpr ⟨fun e _ p hp => absurd hp (hno p), hI.claims⟩
  · rcases List.mem_cons.mp hmem with heq | hmem
    · cases heq
      exact ⟨r, rfl, hcompany, hlaunch, huid, hgid, hnode⟩
    · exact hI.activations n' w' row hmem
  · have hok := hI.spawners id sp hsp
    refine ⟨hok.used, hok.connection, hok.expects, fun hpt hfresh => ⟨(hok.fresh hpt hfresh).1, ?_⟩,
      hok.identity, hok.childless, hok.stopped, fun hact => ?_⟩
    · intro e he
      rcases List.mem_cons.mp he with rfl | he
      · exact hno _
      · exact (hok.fresh hpt hfresh).2 e he
    · obtain ⟨row, hrow⟩ := hok.activated hact
      exact ⟨row, List.mem_cons_of_mem _ hrow⟩

theorem LaunchInv.writeRow (hI : LaunchInv c s) {id : ℕ} {sp : Spawner} {r' : WorkerRecord} (db : Db)
    (hsp : s.spawners.find? id = some sp) (hpoint : sp.point = .returned)
    (hfresh : sp.relaunch = false →
      (∀ r, s.db.registry.find? c = some r → r.launchID ≠ sp.worker.launchID) ∧
        ∀ e ∈ s.log, ¬ Replaces sp.worker.launchID e)
    (hrelaunch : sp.relaunch = true → ∃ r, s.db.registry.find? c = some r ∧
      r.launchID = sp.worker.launchID)
    (hdb : db.registry.find? c = some r') (hl : r'.launchID = sp.worker.launchID)
    (hseq : s.db.identitySeq ≤ db.identitySeq) :
    LaunchInv c { s with
      db := db
      log := .claimed sp.worker.launchID
        ((s.db.registry.find? c).map WorkerRecord.launchID) sp.relaunch :: s.log } := by
  have hused := (hI.spawners id sp hsp).used
  have hnew : ∀ r, db.registry.find? c = some r → r.launchID = sp.worker.launchID := by
    intro r hr
    rw [hdb] at hr
    exact Option.some.inj hr ▸ hl
  -- the new event can only replace the launch the row held
  have hev : ∀ p, Replaces p (.claimed sp.worker.launchID
      ((s.db.registry.find? c).map WorkerRecord.launchID) sp.relaunch) →
      sp.relaunch = false ∧ ∃ r, s.db.registry.find? c = some r ∧ r.launchID = p := by
    rintro p ⟨l, hl⟩
    simp only [LaunchEvent.claimed.injEq] at hl
    obtain ⟨r, hr, hrp⟩ := Option.map_eq_some_iff.mp hl.2.1
    exact ⟨hl.2.2, r, hr, hrp⟩
  refine ⟨fun r hr => ?_, fun p e he hp => ?_, ?_, fun n w row hmem => ?_, fun j sj hj => ?_, hI.apart⟩
  · rw [hnew r hr]
    exact hused
  · rcases List.mem_cons.mp he with rfl | he
    · obtain ⟨hno, r, hr, rfl⟩ := hev p hp
      refine ⟨hI.row r hr, fun r₁ hr₁ => ?_⟩
      rw [hnew r₁ hr₁]
      exact ((hfresh hno).1 r hr).symm
    · refine ⟨(hI.replaced p e he hp).1, fun r₁ hr₁ hr₁p => ?_⟩
      rw [hnew r₁ hr₁] at hr₁p
      subst hr₁p
      cases hre : sp.relaunch with
      | false => exact (hfresh hre).2 e he hp
      | true =>
        obtain ⟨r, hr, hrl⟩ := hrelaunch hre
        exact (hI.replaced _ e he hp).2 r hr hrl
  · refine List.pairwise_cons.mpr ⟨fun e he p hp hp' => ?_, hI.claims⟩
    obtain ⟨-, r, hr, rfl⟩ := hev p hp
    exact (hI.replaced _ e he hp').2 r hr rfl
  · rcases List.mem_cons.mp hmem with heq | hmem
    · cases heq
    · exact hI.activations n w row hmem
  · have hok := hI.spawners j sj hj
    refine ⟨hok.used, hok.connection, hok.expects, fun hpt hno => ?_,
      fun hid => Nat.lt_of_lt_of_le (hok.identity hid) hseq, hok.childless, hok.stopped,
      fun hact => ?_⟩
    · obtain ⟨hrow, hlog⟩ := hok.fresh hpt hno
      have hne : sp.worker.launchID ≠ sj.worker.launchID := by
        cases hre : sp.relaunch with
        | false =>
          have hij : id ≠ j := by
            rintro rfl
            rw [hsp] at hj
            obtain rfl := Option.some.inj hj
            rw [hpoint] at hpt
            cases hpt
          exact (hI.apart id j sp sj hsp hj hij).1 hre hno
        | true =>
          obtain ⟨r, hr, hrl⟩ := hrelaunch hre
          exact hrl ▸ hrow r hr
      refine ⟨fun r hr => by rw [hnew r hr]; exact hne, fun e he hp => ?_⟩
      rcases List.mem_cons.mp he with rfl | he
      · obtain ⟨-, r, hr, hrp⟩ := hev _ hp
        exact hrow r hr hrp
      · exact hlog e he hp
    · obtain ⟨row, hrow⟩ := hok.activated hact
      exact ⟨row, List.mem_cons_of_mem _ hrow⟩

theorem LaunchInv.claim (hI : LaunchInv c s) {id : ℕ} {fault : Fault}
    (hC : RelaunchFindsRow c s (.claim id fault))
    (h : launchStep cfg c s (.claim id fault) = some s') : LaunchInv c s' := by
  simp only [launchStep] at h
  split at h
  · rename_i sp hsp
    split at h
    · rename_i hpt
      have hok := hI.spawners id sp hsp
      have hret := hI.advance hsp .returned sp.child (by decide) (Or.inr rfl)
        (absurd · (by decide)) (fun _ => by rw [hok.childless (Or.inl hpt)]; decide)
        (absurd · (by decide))
      obtain rfl := Option.some.inj h
      rcases claimWorkerLaunch_cases cfg sp.nodeID sp.worker sp.expected s.db with
        ⟨e, n, hclaim⟩ | ⟨hrow, hclaim⟩
      · -- the row stays: the call ends, and at most the sequence has moved
        cases fault with
        | fail => exact hret
        | ok =>
          simp only [Fault.exec, hclaim, claimAnswer, claimEvents, List.nil_append]
          exact hret.withDb (Nat.le_add_right _ _) fun r hr => ⟨r, hr, rfl⟩
        | failAfter =>
          simp only [Fault.exec, hclaim, claimAnswer, claimEvents, List.nil_append]
          exact hret.withDb (Nat.le_add_right _ _) fun r hr => ⟨r, hr, rfl⟩
      · -- the row is written; the spawner learns of it unless the answer is lost
        have hnew : (s.db.registry.put sp.worker.connectionID
            (claimedRecord sp.nodeID sp.worker s.db.identitySeq s.db.now)).find? c =
              some (claimedRecord sp.nodeID sp.worker s.db.identitySeq s.db.now) := by
          rw [hok.connection]
          exact Table.find?_put_self _ _ _
        have hwritten := hret.writeRow
          { s.db with
            identitySeq := s.db.identitySeq + 1
            registry := s.db.registry.put sp.worker.connectionID
              (claimedRecord sp.nodeID sp.worker s.db.identitySeq s.db.now) }
          (Table.find?_put_self _ id _) rfl (hok.fresh hpt) (fun hre => ?_) hnew rfl (Nat.le_succ _)
        · cases fault with
          | fail => exact hret
          | ok =>
            simp only [Fault.exec, hclaim, claimAnswer, claimEvents, List.cons_append,
              List.nil_append]
            by_cases hvalid : validWorkerIdentity s.db.identitySeq s.db.identitySeq
            · simp only [if_pos hvalid]
              have hok' := hwritten.spawners id _ (Table.find?_put_self _ _ _)
              have hclaimed : SpawnerOk c _ { sp with
                  worker := { sp.worker with
                    workerUID := s.db.identitySeq, workerGID := s.db.identitySeq }
                  point := .claimed } :=
                ⟨hok'.used, hok'.connection, hok'.expects, (fun h => by cases h),
                  fun _ => Nat.lt_succ_self _, fun _ => hok.childless (Or.inl hpt),
                  (fun h => by cases h), (fun h => by cases h)⟩
              have hput := hwritten.putSpawner id hclaimed fun j sj hj hne => ?_
              · simpa only [Table.put_put] using hput
              · rw [Table.find?_put_ne _ _ hne] at hj
                refine ⟨(hI.apart id j sp sj hsp hj (Ne.symm hne)).1, fun _ hid => ?_⟩
                exact Nat.ne_of_gt ((hI.spawners j sj hj).identity hid)
            · simp only [if_neg hvalid]
              exact hwritten
          | failAfter =>
            simp only [Fault.exec, hclaim, claimAnswer, claimEvents, List.cons_append,
              List.nil_append]
            exact hwritten
        · rw [hok.connection] at hrow
          rcases hrow with hnone | ⟨r, hr, -, hexp⟩
          · exact absurd hnone (hC sp hsp hre)
          · refine ⟨r, hr, ?_⟩
            rw [hok.expects hre] at hexp
            exact (Option.some.inj hexp).symm
    · cases h
  · cases h

theorem LaunchInv.activate (hI : LaunchInv c s) {id : ℕ} {fault : Fault}
    (h : launchStep cfg c s (.activate id fault) = some s') : LaunchInv c s' := by
  simp only [launchStep] at h
  split at h
  · rename_i sp hsp
    split at h
    · rename_i hpt
      have hid : HasIdentity sp := by
        rw [HasIdentity, hpt]
        decide
      have hok := hI.spawners id sp hsp
      -- the statement keeps the launch of the row
      have hdb : ∀ {t : LaunchState}, LaunchInv c t → t.db = s.db → LaunchInv c { t with
          db := (fault.exec (activateWorkerLaunch sp.nodeID sp.worker) s.db).2 } := by
        intro t ht htdb
        rcases fault.exec_snd (activateWorkerLaunch sp.nodeID sp.worker) s.db with he | he
        · rw [he, ← htdb]
          exact ht
        · rw [he]
          refine ht.withDb (by rw [htdb]; exact Nat.le_refl _) fun r hr => ?_
          rw [activateWorkerLaunch, find?_updateLaunch, hok.connection, if_pos rfl] at hr
          obtain ⟨r₀, hr₀, hmap⟩ := Option.map_eq_some_iff.mp hr
          refine ⟨r₀, by rw [htdb]; exact hr₀, ?_⟩
          rw [← hmap]
          split <;> rfl
      split at h
      · rename_i hans
        obtain rfl := Option.some.inj h
        obtain ⟨htrue, -⟩ := Fault.exec_fst hans
        obtain ⟨r, hr, hlaunch, hextra, -⟩ := updateLaunch_true htrue
        rw [hok.connection] at hr
        have hlogged := hI.logActivation hlaunch.1 hlaunch.2 hextra.1 hextra.2.1 hextra.2.2
        rw [← hr] at hlogged
        have hadv := hlogged.advance hsp .activated sp.child (by decide) (Or.inl hid)
          nofun nofun (fun _ => ⟨_, List.mem_cons_self⟩)
        exact hdb hadv rfl
      · obtain rfl := Option.some.inj h
        have hadv := hI.advance hsp .stopping sp.child (by decide) (Or.inl hid) nofun nofun nofun
        exact hdb hadv rfl
    · cases h
  · cases h

theorem LaunchInv.crash (hI : LaunchInv c s) (nodeID : NodeID) :
    LaunchInv c { s with
      spawners := s.spawners.updateAll (fun _ sp => sp.nodeID = nodeID)
        (fun sp => { sp with point := .returned, child := sp.child.map fun _ => .killed }) } := by
  -- every spawner is one of before, or one of before that has returned
  have hback : ∀ id sp', (s.spawners.updateAll (fun _ sp => sp.nodeID = nodeID)
      (fun sp => { sp with point := .returned, child := sp.child.map fun _ => .killed })).find? id =
        some sp' → ∃ sp, s.spawners.find? id = some sp ∧ (sp' = sp ∨
          sp' = { sp with point := .returned, child := sp.child.map fun _ => .killed }) := by
    intro id sp' h
    rw [Table.find?_updateAll] at h
    obtain ⟨sp, hsp, hsp'⟩ := Option.map_eq_some_iff.mp h
    refine ⟨sp, hsp, ?_⟩
    by_cases hn : sp.nodeID = nodeID
    · rw [if_pos hn] at hsp'
      exact Or.inr hsp'.symm
    · rw [if_neg hn] at hsp'
      exact Or.inl hsp'.symm
  refine ⟨hI.row, hI.replaced, hI.claims, hI.activations, fun id sp' h => ?_,
    fun i j si sj hi hj hne => ?_⟩
  · obtain ⟨sp, hsp, rfl | rfl⟩ := hback id sp' h
    · have hok := hI.spawners id sp' hsp
      exact ⟨hok.used, hok.connection, hok.expects, hok.fresh, hok.identity, hok.childless,
        hok.stopped, hok.activated⟩
    · have hok := hI.spawners id sp hsp
      refine ⟨hok.used, hok.connection, hok.expects, nofun, fun h => absurd rfl h.2,
        fun h => ?_, fun _ => ?_, nofun⟩
      · rcases h with h | h <;> cases h
      · show sp.child.map (fun _ => ChildState.killed) ≠ some .running
        cases sp.child with
        | none => decide
        | some child => exact fun h => by cases h
  · obtain ⟨ti, hti, hsi⟩ := hback i si hi
    obtain ⟨tj, htj, hsj⟩ := hback j sj hj
    have hapart := hI.apart i j ti tj hti htj hne
    rcases hsi with rfl | rfl <;> rcases hsj with rfl | rfl
    · exact hapart
    · exact ⟨hapart.1, fun _ h => absurd rfl h.2⟩
    · exact ⟨hapart.1, fun h => absurd rfl h.2⟩
    · exact ⟨hapart.1, fun h => absurd rfl h.2⟩

theorem LaunchInv.enter (hI : LaunchInv c s) {id : ℕ} {sp : Spawner} {used : List LaunchID}
    (hsub : ∀ l ∈ s.used, l ∈ used)
    (hmem : sp.worker.launchID ∈ used) (hconn : sp.worker.connectionID = c)
    (hpoint : sp.point = .claiming) (hchild : sp.child = none)
    (hexp : sp.relaunch = true → sp.expected = some sp.worker.launchID)
    (hfresh : sp.relaunch = false → sp.worker.launchID ∉ s.used) :
    LaunchInv c { s with spawners := s.spawners.put id sp, used := used } := by
  have hgrown : LaunchInv c { s with used := used } := by
    refine ⟨fun r hr => hsub _ (hI.row r hr),
      fun p e he hp => ⟨hsub p (hI.replaced p e he hp).1, (hI.replaced p e he hp).2⟩, hI.claims,
      hI.activations, fun j sj hj => ?_, hI.apart⟩
    have hok := hI.spawners j sj hj
    exact ⟨hsub _ hok.used, hok.connection, hok.expects, hok.fresh, hok.identity, hok.childless,
      hok.stopped, hok.activated⟩
  have hidentity : ¬ HasIdentity sp := fun h => h.1 hpoint
  refine hgrown.putSpawner id ⟨hmem, hconn, hexp, fun _ hno => ⟨fun r hr hl => ?_, fun e he hp => ?_⟩,
    fun h => absurd h hidentity, fun _ => hchild, fun h => ?_, fun h => ?_⟩ fun j sj hj hne => ?_
  · exact hfresh hno (hl ▸ hI.row r hr)
  · exact hfresh hno (hI.replaced _ e he hp).1
  · rw [hpoint] at h
    cases h
  · rw [hpoint] at h
    cases h
  · refine ⟨fun hno _ hl => ?_, fun h => absurd h hidentity⟩
    exact hfresh hno (hl ▸ (hI.spawners j sj hj).used)

/-- **One step** keeps the invariant, if a relaunch finds the row it is to replace. -/
theorem launchStep_inv {a : LaunchAction} (hI : LaunchInv c s) (hC : RelaunchFindsRow c s a)
    (h : launchStep cfg c s a = some s') : LaunchInv c s' := by
  cases a with
  | spawn id nodeID w expected =>
    simp only [launchStep] at h
    split at h
    · rename_i hg
      obtain rfl := Option.some.inj h
      exact hI.enter (fun l hl => List.mem_cons_of_mem _ hl) List.mem_cons_self hg.2.2 rfl rfl
        nofun (fun _ => hg.2.1)
    · cases h
  | relaunch id nodeID w =>
    simp only [launchStep] at h
    split at h
    · rename_i hg
      obtain rfl := Option.some.inj h
      exact hI.enter (fun l hl => hl) hg.2.1 hg.2.2 rfl rfl (fun _ => rfl) nofun
    · cases h
  | claim id fault => exact hI.claim hC h
  | startFailed id =>
    simp only [launchStep] at h
    split at h
    · rename_i sp hsp
      split at h
      · rename_i hpt
        obtain rfl := Option.some.inj h
        refine hI.advance hsp .returned sp.child (by decide) (Or.inr rfl) nofun
          (fun _ => ?_) nofun
        rw [(hI.spawners id sp hsp).childless (Or.inr hpt)]
        decide
      · cases h
    · cases h
  | start id =>
    simp only [launchStep] at h
    split at h
    · rename_i sp hsp
      split at h
      · rename_i hpt
        obtain rfl := Option.some.inj h
        refine hI.advance hsp .started (some .running) (by decide) (Or.inl ?_) nofun nofun
          nofun
        rw [HasIdentity, hpt]
        decide
      · cases h
    · cases h
  | slotLost id =>
    simp only [launchStep] at h
    split at h
    · rename_i sp hsp
      split at h
      · rename_i hpt
        obtain rfl := Option.some.inj h
        refine hI.advance hsp .stopping sp.child (by decide) (Or.inl ?_) nofun
          nofun nofun
        rw [HasIdentity, hpt]
        decide
      · cases h
    · cases h
  | activate id fault => exact hI.activate h
  | stopChild id reaped =>
    simp only [launchStep] at h
    split at h
    · rename_i sp hsp
      split at h
      · obtain rfl := Option.some.inj h
        refine hI.advance hsp .returned (some (if reaped then .exited else .killed)) (by decide)
          (Or.inr rfl) nofun (fun _ => ?_) nofun
        cases reaped <;> decide
      · cases h
    · cases h
  | childEnds id =>
    simp only [launchStep] at h
    split at h
    · rename_i sp hsp
      split at h
      · obtain rfl := Option.some.inj h
        exact hI.advance hsp .returned (some .exited) (by decide) (Or.inr rfl) nofun
          (fun _ => by decide) nofun
      · cases h
    · cases h
  | crash nodeID =>
    obtain rfl := Option.some.inj h
    exact hI.crash nodeID
  | takeOver nodeID previousNodeID =>
    obtain rfl := Option.some.inj h
    refine hI.withDb (Nat.le_refl _) fun r hr => ?_
    rcases takeOverFailedNodeWorker_row nodeID c previousNodeID cfg.nodeTakeoverMargin s.db c with
      heq | ⟨-, r₀, hr₀, -, -, -, hnew⟩
    · exact ⟨r, heq ▸ hr, rfl⟩
    · rw [hnew] at hr
      obtain rfl := Option.some.inj hr
      exact ⟨r₀, hr₀, rfl⟩
  | remove companyID launchID =>
    obtain rfl := Option.some.inj h
    refine hI.withDb (Nat.le_refl _) fun r hr => ⟨r, ?_, rfl⟩
    rw [removeWorkerLaunch, find?_deleteLaunch, if_pos rfl] at hr
    exact (Option.filter_eq_some_iff.mp hr).1
  | adopt nodeID =>
    obtain rfl := Option.some.inj h
    refine hI.withDb (Nat.le_refl _) fun r hr => ?_
    have hr' : (s.db.registry.updateAll (fun _ r => r.nodeID = none)
        (fun r => { r with nodeID := some nodeID })).find? c = some r := hr
    rw [Table.find?_updateAll] at hr'
    obtain ⟨r₀, hr₀, hmap⟩ := Option.map_eq_some_iff.mp hr'
    refine ⟨r₀, hr₀, ?_⟩
    rw [← hmap]
    split <;> rfl
  | touch r =>
    simp only [launchStep] at h
    split at h
    · rename_i r₀ hr₀
      split at h
      · rename_i hg
        obtain rfl := Option.some.inj h
        refine hI.withDb (Nat.le_refl _) fun r₁ hr₁ => ⟨r₀, hr₀, ?_⟩
        rw [Table.find?_put_self] at hr₁
        exact Option.some.inj hr₁ ▸ hg.1
      · cases h
    · cases h
  | claimElsewhere =>
    obtain rfl := Option.some.inj h
    exact hI.withDb (Nat.le_succ _) fun r hr => ⟨r, hr, rfl⟩
  | leases nodes now =>
    obtain rfl := Option.some.inj h
    exact hI.withDb (Nat.le_refl _) fun r hr => ⟨r, hr, rfl⟩

end Steps

/-- **Launch mutual exclusion.**  From any database, over any number of nodes and any interleaving of
claims, activations, takeovers, removals and spawns in which a relaunch of a reserved generation finds
a row, every state satisfies `LaunchExclusive`. -/
theorem launch_exclusion (cfg : Config) (c : ConnectionID) (db : Db) (as : List LaunchAction)
    (hC : Meets (launchStep cfg c) (RelaunchFindsRow c) (LaunchState.start c db) as) :
    Always (launchStep cfg c) (LaunchExclusive c) (LaunchState.start c db) as := by
  have h : Always (launchStep cfg c) (LaunchInv c) (LaunchState.start c db) as :=
    always_of_meets (fun s a s' hI hCa hs => launchStep_inv hI hCa hs) (launchInv_start c db) hC
  exact h.mono fun s hs => hs.exclusive

/-! ### A relaunch over a missing row -/

def launchConfig : Config where
  autoRestartEnabled := true
  autoRestartMaxRetries := 5
  maxWorkers := 0
  fleetMaxConnections := 0
  nodeLeaseDuration := 60
  nodeTakeoverMargin := 60

def launchEntry (launchID : LaunchID) : WorkerProcess where
  connectionID := 1
  launchID := launchID
  desiredState := .running
  companyID := 1
  tenantSchema := 1
  status := .starting
  artifact := ⟨1, 1⟩

/-- The row of connection 1 holds the launch 10 of node 1, a generation reserved by a rollout. -/
def reservedRow : Db where
  registry := Table.empty.put 1 (claimedRecord 1 (launchEntry 10) minimumWorkerIdentity 0)
  identitySeq := minimumWorkerIdentity + 1
  nodes := Table.empty
  batches := Table.empty
  now := 0

/-- Node 1 is about to launch the reserved generation 10 again.  Before its claim arrives, node 2
replaces 10 by 11 and removes the row again; the claim of node 1 then inserts 10 a second time, and
the next restart replaces 10 by 12. -/
def relaunchRace : List LaunchAction :=
  [.relaunch 0 1 (launchEntry 10), .spawn 1 2 (launchEntry 11) (some 10), .claim 1 .ok,
    .remove 1 11, .claim 0 .ok, .spawn 2 1 (launchEntry 12) (some 10), .claim 2 .ok]

/-- Two claims with fresh launch IDs replace the launch 10. -/
theorem relaunch_over_missing_row :
    ¬ Always (launchStep launchConfig 1) (LaunchExclusive 1) (LaunchState.start 1 reservedRow)
      relaunchRace := by
  intro h
  obtain ⟨s, hrun, hlog⟩ : ∃ s, runActions (launchStep launchConfig 1)
      (LaunchState.start 1 reservedRow) relaunchRace = some s ∧
      s.log = [.claimed 12 (some 10) false, .claimed 10 none true, .claimed 11 (some 10) false] :=
    ⟨_, rfl, rfl⟩
  have hclaims := (always_iff_reached.mp h relaunchRace [] s rfl hrun).claims
  rw [hlog] at hclaims
  exact (List.pairwise_cons.mp hclaims).1 _ (by simp) 10 ⟨12, rfl⟩ ⟨11, rfl⟩

/-- Two nodes race for the launch 10 with fresh launch IDs: one claim goes through. -/
theorem launch_exclusion_race :
    Always (launchStep launchConfig 1) (LaunchExclusive 1) (LaunchState.start 1 reservedRow)
      [.spawn 0 1 (launchEntry 11) (some 10), .spawn 1 2 (launchEntry 12) (some 10), .claim 1 .ok,
        .claim 0 .ok, .start 1, .activate 1 .ok] :=
  launch_exclusion launchConfig 1 reservedRow _ (by
    intro s₁ h₁
    refine ⟨trivial, fun s₂ h₂ => ⟨trivial, fun s₃ h₃ => ⟨fun sp hsp hre => ?_, fun s₄ h₄ =>
      ⟨fun sp hsp hre => ?_, fun s₅ h₅ => ⟨trivial, fun s₆ h₆ => ⟨trivial, trivial⟩⟩⟩⟩⟩⟩
    · obtain rfl := Option.some.inj h₁
      obtain rfl := Option.some.inj h₂
      obtain rfl := Option.some.inj hsp
      cases hre
    · obtain rfl := Option.some.inj h₁
      obtain rfl := Option.some.inj h₂
      obtain rfl := Option.some.inj h₃
      obtain rfl := Option.some.inj hsp
      cases hre)

end TeamInbox.Orchestrator
