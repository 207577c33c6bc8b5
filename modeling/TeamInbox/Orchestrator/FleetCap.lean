import TeamInbox.Lib.Run
import TeamInbox.Orchestrator.Registry

/-!
# TeamInbox.Orchestrator.FleetCap — the fleet limit under concurrent claims

`claimWithFleetLimit` is one transaction of four statements: take the advisory lock, inspect the
table, insert, commit.  Other nodes run their own transactions and statements in between, so here
every statement is a step of its own.  The advisory lock lasts until the transaction ends; the insert
locks the row of its connection and is seen by nobody before the commit.  Removals and updates of rows
take no advisory lock and may come between any two statements of a claim.
-/

namespace TeamInbox.Orchestrator

open TeamInbox.Lib

inductive FleetStage
  | begun
  | locked
  | admitted
  /-- The row is written and not committed. -/
  | written (row : WorkerRecord)
  /-- `ErrFleetConnectionLimit`. -/
  | refused
  | ended
  deriving DecidableEq

/-- A call of `ClaimWorkerLaunch` on a node with a fleet limit. -/
structure FleetClaim where
  nodeID : NodeID
  worker : WorkerProcess
  expected : Option LaunchID
  stage : FleetStage
  deriving DecidableEq

structure FleetState where
  db : Db
  /-- The transaction that holds `fleetCapacityAdvisoryLockID`. -/
  holder : Option ℕ
  claims : Table ℕ FleetClaim

def FleetState.start (db : Db) : FleetState := ⟨db, none, Table.empty⟩

inductive FleetAction
  | begin (id : ℕ) (nodeID : NodeID) (worker : WorkerProcess) (expected : Option LaunchID)
  | lock (id : ℕ)
  | inspect (id : ℕ)
  | write (id : ℕ)
  | commit (id : ℕ)
  /-- The transaction fails or its node crashes: it is rolled back. -/
  | abort (id : ℕ)
  /-- A statement that deletes the row of a connection under some guard. -/
  | remove (c : ConnectionID) (companyID : CompanyID) (launchID : LaunchID)
  /-- A statement that updates the row of a connection. -/
  | update (c : ConnectionID) (set : WorkerRecord → WorkerRecord)

namespace FleetState

def setStage (s : FleetState) (id : ℕ) (claim : FleetClaim) (stage : FleetStage) : FleetState :=
  { s with claims := s.claims.put id { claim with stage := stage } }

/-- The end of a transaction releases its advisory lock. -/
def finish (s : FleetState) (id : ℕ) (claim : FleetClaim) (stage : FleetStage) : FleetState :=
  { s.setStage id claim stage with holder := if s.holder = some id then none else s.holder }

/-- A written, uncommitted row locks its connection. -/
def rowLocked (s : FleetState) (c : ConnectionID) : Bool :=
  match s.holder.bind s.claims.find? with
  | some ⟨_, w, _, .written _⟩ => decide (w.connectionID = c)
  | _ => false

end FleetState

/-- One statement of one transaction; `limit` is `fleetMaxConnections`. -/
def fleetStep (limit : ℕ) (s : FleetState) : FleetAction → Option FleetState
  | .begin id nodeID worker expected =>
    match s.claims.find? id with
    | none => some { s with claims := s.claims.put id ⟨nodeID, worker, expected, .begun⟩ }
    | some _ => none
  | .lock id =>
    match s.claims.find? id, s.holder with
    | some ⟨n, w, e, .begun⟩, none => some { s.setStage id ⟨n, w, e, .begun⟩ .locked with holder := some id }
    | _, _ => none
  | .inspect id =>
    match s.claims.find? id with
    | some ⟨n, w, e, .locked⟩ =>
      let connectionExists := (s.db.registry.find? w.connectionID).isSome
      let occupied := s.db.registry.size
      if connectionExists = false ∧ limit ≤ occupied then
        some (s.finish id ⟨n, w, e, .locked⟩ .refused)
      else some (s.setStage id ⟨n, w, e, .locked⟩ .admitted)
    | _ => none
  | .write id =>
    match s.claims.find? id with
    | some ⟨n, w, e, .admitted⟩ =>
      -- the sequence advances whether or not the transaction commits
      match claimWorkerLaunchSQL n w e s.db with
      | (.ok (uid, _), db') =>
        some { s.setStage id ⟨n, w, e, .admitted⟩ (.written (claimedRecord n w uid s.db.now)) with
          db := { s.db with identitySeq := db'.identitySeq } }
      | (.error _, db') =>
        some { s.finish id ⟨n, w, e, .admitted⟩ .ended with
          db := { s.db with identitySeq := db'.identitySeq } }
    | _ => none
  | .commit id =>
    match s.claims.find? id with
    | some ⟨n, w, e, .written row⟩ =>
      some { s.finish id ⟨n, w, e, .written row⟩ .ended with
        db := { s.db with registry := s.db.registry.put w.connectionID row } }
    | _ => none
  | .abort id =>
    match s.claims.find? id with
    | some ⟨_, _, _, .refused⟩ => none
    | some ⟨_, _, _, .ended⟩ => none
    | some claim => some (s.finish id claim .ended)
    | none => none
  | .remove c companyID launchID =>
    if s.rowLocked c then none
    else some { s with db := (deleteLaunch c companyID launchID s.db).2 }
  | .update c set =>
    if s.rowLocked c then none
    else some { s with
      db := { s.db with registry := (s.db.registry.updateWhere c (fun _ => True) set).1 } }

/-! ### The invariant -/

/-- The row of the connection can be written without passing the bound. -/
def FleetState.hasRoom (s : FleetState) (bound : ℕ) (c : ConnectionID) : Prop :=
  s.db.registry.find? c ≠ none ∨ s.db.registry.size < bound

/-- Only the holder of the advisory lock is past it, and one that was admitted still has room. -/
structure FleetInv (bound : ℕ) (s : FleetState) : Prop where
  size_le : s.db.registry.size ≤ bound
  holder : ∀ id claim, s.claims.find? id = some claim →
    claim.stage ≠ .begun → claim.stage ≠ .refused → claim.stage ≠ .ended → s.holder = some id
  room : ∀ id claim, s.claims.find? id = some claim →
    (claim.stage = .admitted ∨ ∃ row, claim.stage = .written row) →
      s.hasRoom bound claim.worker.connectionID

section Steps

variable {limit bound : ℕ} {s s' : FleetState}

theorem fleetInv_start (limit : ℕ) (db : Db) :
    FleetInv (max limit db.registry.size) (FleetState.start db) where
  size_le := Nat.le_max_right _ _
  holder id claim h := by cases h
  room id claim h := by cases h

theorem FleetInv.setStage {id : ℕ} {claim : FleetClaim} {stage : FleetStage}
    (hI : FleetInv bound s) (hid : s.holder = some id)
    (hroom : (stage = .admitted ∨ ∃ row, stage = .written row) →
      s.hasRoom bound claim.worker.connectionID) :
    FleetInv bound (s.setStage id claim stage) where
  size_le := hI.size_le
  holder id' claim' h hb hr he := by
    change (s.claims.put id _).find? id' = _ at h
    rw [Table.find?_put] at h
    by_cases hne : id' = id
    · rw [hne]
      exact hid
    · rw [if_neg hne] at h
      exact hI.holder id' claim' h hb hr he
  room id' claim' h hstage := by
    change (s.claims.put id _).find? id' = _ at h
    rw [Table.find?_put] at h
    by_cases hne : id' = id
    · rw [if_pos hne] at h
      obtain rfl := Option.some.inj h
      exact hroom hstage
    · rw [if_neg hne] at h
      exact hI.room id' claim' h hstage

theorem FleetInv.finish {id : ℕ} {claim : FleetClaim} {stage : FleetStage} (hI : FleetInv bound s)
    (hstage : stage = .refused ∨ stage = .ended) : FleetInv bound (s.finish id claim stage) where
  size_le := hI.size_le
  holder id' claim' h hb hr he := by
    change (s.claims.put id _).find? id' = _ at h
    rw [Table.find?_put] at h
    by_cases hne : id' = id
    · rw [if_pos hne] at h
      obtain rfl := Option.some.inj h
      obtain rfl | rfl := hstage
      · exact absurd rfl hr
      · exact absurd rfl he
    · rw [if_neg hne] at h
      have hold := hI.holder id' claim' h hb hr he
      show (if s.holder = some id then none else s.holder) = some id'
      rw [hold, if_neg fun heq => hne (Option.some.inj heq)]
  room id' claim' h hadm := by
    change (s.claims.put id _).find? id' = _ at h
    rw [Table.find?_put] at h
    by_cases hne : id' = id
    · rw [if_pos hne] at h
      obtain rfl := Option.some.inj h
      obtain rfl | rfl := hstage
      · obtain hadm | ⟨row, hrow⟩ := hadm
        · cases hadm
        · cases hrow
      · obtain hadm | ⟨row, hrow⟩ := hadm
        · cases hadm
        · cases hrow
    · rw [if_neg hne] at h
      exact hI.room id' claim' h hadm

theorem FleetInv.withRegistry {db : Db} (hI : FleetInv bound s) (hbound : db.registry.size ≤ bound)
    (hroom : ∀ c, s.hasRoom bound c → { s with db := db }.hasRoom bound c) :
    FleetInv bound { s with db := db } :=
  ⟨hbound, hI.holder, fun id claim h hstage => hroom _ (hI.room id claim h hstage)⟩

theorem FleetInv.remove {c : ConnectionID} {companyID : CompanyID} {launchID : LaunchID}
    (hI : FleetInv bound s) : FleetInv bound { s with db := (deleteLaunch c companyID launchID s.db).2 } := by
  have hcases : (deleteLaunch c companyID launchID s.db).2 = s.db ∨
      (∃ r, s.db.registry.find? c = some r) ∧
        (deleteLaunch c companyID launchID s.db).2.registry = s.db.registry.erase c := by
    unfold deleteLaunch Table.deleteWhere
    cases hr : s.db.registry.find? c with
    | none => exact Or.inl rfl
    | some r =>
      by_cases hp : ofLaunch companyID launchID r
      · exact Or.inr ⟨⟨r, rfl⟩, by simp [hp]⟩
      · exact Or.inl (by simp [hp])
  obtain hsame | ⟨⟨r, hr⟩, herase⟩ := hcases
  · rw [hsame]
    exact hI
  · have hsize : (s.db.registry.erase c).size + 1 = s.db.registry.size := Table.size_erase_of_some hr
    have hbound := hI.size_le
    refine hI.withRegistry ?_ fun c' _ => Or.inr ?_
    · rw [herase]
      omega
    · show (deleteLaunch c companyID launchID s.db).2.registry.size < bound
      rw [herase]
      omega

theorem FleetInv.update {c : ConnectionID} {set : WorkerRecord → WorkerRecord}
    (hI : FleetInv bound s) : FleetInv bound { s with
      db := { s.db with registry := (s.db.registry.updateWhere c (fun _ => True) set).1 } } := by
  have hsize : (s.db.registry.updateWhere c (fun _ => True) set).1.size = s.db.registry.size := by
    unfold Table.updateWhere
    cases hr : s.db.registry.find? c with
    | none => rfl
    | some r =>
      simp only [if_true]
      exact Table.size_put_of_some _ hr
  refine hI.withRegistry (Nat.le_trans (Nat.le_of_eq hsize) hI.size_le) fun c' hroom => ?_
  obtain hrow | hfree := hroom
  · refine Or.inl ?_
    show (s.db.registry.updateWhere c (fun _ => True) set).1.find? c' ≠ none
    rw [Table.find?_updateWhere]
    by_cases hc : c' = c
    · subst hc
      rw [if_pos rfl]
      simpa using hrow
    · rw [if_neg hc]
      exact hrow
  · exact Or.inr (Nat.lt_of_le_of_lt (Nat.le_of_eq hsize) hfree)

theorem FleetInv.commit {id : ℕ} {n : NodeID} {w : WorkerProcess} {e : Option LaunchID}
    {row : WorkerRecord} (hI : FleetInv bound s)
    (hclaim : s.claims.find? id = some ⟨n, w, e, .written row⟩) :
    FleetInv bound { s.finish id ⟨n, w, e, .written row⟩ .ended with
      db := { s.db with registry := s.db.registry.put w.connectionID row } } := by
  have hroom : s.hasRoom bound w.connectionID := hI.room id _ hclaim (Or.inr ⟨row, rfl⟩)
  have hholder : s.holder = some id := hI.holder id _ hclaim (by simp) (by simp) (by simp)
  have hsize : (s.db.registry.put w.connectionID row).size ≤ bound := by
    obtain hrow | hfree := hroom
    · obtain ⟨r, hr⟩ := Option.ne_none_iff_exists'.mp hrow
      rw [Table.size_put_of_some row hr]
      exact hI.size_le
    · have hle := Table.size_put_le s.db.registry w.connectionID row
      omega
  have hended : FleetInv bound (s.finish id ⟨n, w, e, .written row⟩ .ended) :=
    hI.finish (Or.inr rfl)
  refine ⟨hsize, hended.holder, fun id' claim' h hstage => ?_⟩
  -- nobody else is past the lock, so no other claim relies on its room
  exfalso
  have hnone : (s.finish id ⟨n, w, e, .written row⟩ .ended).holder = none := by
    show (if s.holder = some id then none else s.holder) = none
    rw [hholder, if_pos rfl]
  have hsome := hended.holder id' claim' h
  obtain hadm | ⟨row', hrow'⟩ := hstage
  · rw [hadm] at hsome
    have := hsome (by simp) (by simp) (by simp)
    rw [hnone] at this
    cases this
  · rw [hrow'] at hsome
    have := hsome (by simp) (by simp) (by simp)
    rw [hnone] at this
    cases this

theorem FleetInv.write {id : ℕ} {n : NodeID} {w : WorkerProcess} {e : Option LaunchID}
    (hI : FleetInv bound s) (hclaim : s.claims.find? id = some ⟨n, w, e, .admitted⟩)
    (h : fleetStep limit s (.write id) = some s') : FleetInv bound s' := by
  have hholder : s.holder = some id := hI.holder id _ hclaim (by simp) (by simp) (by simp)
  have hroom : s.hasRoom bound w.connectionID := hI.room id _ hclaim (Or.inl rfl)
  simp only [fleetStep, hclaim] at h
  split at h
  · obtain rfl := Option.some.inj h
    exact (hI.setStage hholder fun _ => hroom).withRegistry hI.size_le fun c hc => hc
  · obtain rfl := Option.some.inj h
    exact (hI.finish (Or.inr rfl)).withRegistry hI.size_le fun c hc => hc

theorem FleetInv.inspect {id : ℕ} {n : NodeID} {w : WorkerProcess} {e : Option LaunchID}
    (hI : FleetInv bound s) (hlimit : limit ≤ bound)
    (hclaim : s.claims.find? id = some ⟨n, w, e, .locked⟩)
    (h : fleetStep limit s (.inspect id) = some s') : FleetInv bound s' := by
  have hholder : s.holder = some id := hI.holder id _ hclaim (by simp) (by simp) (by simp)
  simp only [fleetStep, hclaim] at h
  split at h
  · obtain rfl := Option.some.inj h
    exact hI.finish (Or.inl rfl)
  · next hpass =>
    obtain rfl := Option.some.inj h
    refine hI.setStage hholder fun _ => ?_
    cases hrow : s.db.registry.find? w.connectionID with
    | some r => exact Or.inl (by simp [hrow])
    | none =>
      have hfree : ¬ limit ≤ s.db.registry.size := fun hfull => hpass ⟨by simp [hrow], hfull⟩
      exact Or.inr (by omega)

/-- **One statement** keeps the invariant. -/
theorem fleetInv_step (hlimit : limit ≤ bound) {a : FleetAction} (hI : FleetInv bound s)
    (h : fleetStep limit s a = some s') : FleetInv bound s' := by
  cases a with
  | begin id nodeID worker expected =>
    simp only [fleetStep] at h
    split at h
    · next hnew =>
      obtain rfl := Option.some.inj h
      refine ⟨hI.size_le, fun id' claim' hc hb hr he => ?_, fun id' claim' hc hstage => ?_⟩
      · rw [Table.find?_put] at hc
        by_cases hne : id' = id
        · rw [if_pos hne] at hc
          obtain rfl := Option.some.inj hc
          exact absurd rfl hb
        · rw [if_neg hne] at hc
          exact hI.holder id' claim' hc hb hr he
      · rw [Table.find?_put] at hc
        by_cases hne : id' = id
        · rw [if_pos hne] at hc
          obtain rfl := Option.some.inj hc
          obtain hadm | ⟨row, hrow⟩ := hstage
          · cases hadm
          · cases hrow
        · rw [if_neg hne] at hc
          exact hI.room id' claim' hc hstage
    · cases h
  | lock id =>
    simp only [fleetStep] at h
    split at h
    · next n w e hclaim hfree =>
      obtain rfl := Option.some.inj h
      -- nobody is past the lock while it is free
      have hfreed : FleetInv bound { s with holder := some id } := by
        refine ⟨hI.size_le, fun id' claim' hc hb hr he => ?_, hI.room⟩
        have hheld := hI.holder id' claim' hc hb hr he
        rw [hfree] at hheld
        cases hheld
      exact hfreed.setStage rfl fun hstage => by
        obtain hadm | ⟨row, hrow⟩ := hstage
        · cases hadm
        · cases hrow
    · cases h
  | inspect id =>
    have hclaim : ∃ n w e, s.claims.find? id = some ⟨n, w, e, .locked⟩ := by
      simp only [fleetStep] at h
      split at h
      · next n w e hclaim => exact ⟨n, w, e, hclaim⟩
      · cases h
    obtain ⟨n, w, e, hclaim⟩ := hclaim
    exact hI.inspect hlimit hclaim h
  | write id =>
    have hclaim : ∃ n w e, s.claims.find? id = some ⟨n, w, e, .admitted⟩ := by
      simp only [fleetStep] at h
      split at h
      · next n w e hclaim => exact ⟨n, w, e, hclaim⟩
      · cases h
    obtain ⟨n, w, e, hclaim⟩ := hclaim
    exact hI.write hclaim h
  | commit id =>
    simp only [fleetStep] at h
    split at h
    · next n w e row hclaim =>
      obtain rfl := Option.some.inj h
      exact hI.commit hclaim
    · cases h
  | abort id =>
    simp only [fleetStep] at h
    split at h
    · cases h
    · cases h
    · obtain rfl := Option.some.inj h
      exact hI.finish (Or.inr rfl)
    · cases h
  | remove c companyID launchID =>
    simp only [fleetStep] at h
    split at h
    · cases h
    · obtain rfl := Option.some.inj h
      exact hI.remove
  | update c set =>
    simp only [fleetStep] at h
    split at h
    · cases h
    · obtain rfl := Option.some.inj h
      exact hI.update

end Steps

/-- The claim `id` was refused for capacity. -/
def FleetState.isRefused (s : FleetState) (id : ℕ) : Prop :=
  ∃ claim, s.claims.find? id = some claim ∧ claim.stage = .refused

/-- Only a claim for a connection without a row is refused, and only while the fleet is full. -/
def RefusedForCapacity (limit : ℕ) (s : FleetState) (a : FleetAction) : Prop :=
  ∀ s' id, fleetStep limit s a = some s' → ¬ s.isRefused id → s'.isRefused id →
    ∃ claim, s.claims.find? id = some claim ∧
      s.db.registry.find? claim.worker.connectionID = none ∧ limit ≤ s.db.registry.size

theorem isRefused_of_put {s : FleetState} {t : Table ℕ FleetClaim} {id id' : ℕ} {claim : FleetClaim}
    (ht : t = s.claims.put id claim) (hstage : claim.stage ≠ .refused)
    (h : ∃ claim', t.find? id' = some claim' ∧ claim'.stage = .refused) : s.isRefused id' := by
  obtain ⟨claim', hc, hr⟩ := h
  rw [ht, Table.find?_put] at hc
  by_cases hne : id' = id
  · rw [if_pos hne] at hc
    obtain rfl := Option.some.inj hc
    exact absurd hr hstage
  · rw [if_neg hne] at hc
    exact ⟨claim', hc, hr⟩

theorem refused_step (limit : ℕ) (s : FleetState) (a : FleetAction) :
    RefusedForCapacity limit s a := by
  intro s' id h hnot hrefused
  cases a with
  | begin id' nodeID worker expected =>
    simp only [fleetStep] at h
    split at h
    · obtain rfl := Option.some.inj h
      exact absurd (isRefused_of_put rfl (by simp) hrefused) hnot
    · cases h
  | lock id' =>
    simp only [fleetStep] at h
    split at h
    · obtain rfl := Option.some.inj h
      exact absurd (isRefused_of_put rfl (by simp) hrefused) hnot
    · cases h
  | inspect id' =>
    simp only [fleetStep] at h
    split at h
    · next n w e hclaim =>
      split at h
      · next hfull =>
        obtain rfl := Option.some.inj h
        by_cases hid : id = id'
        · subst hid
          exact ⟨_, hclaim, by simpa using hfull.1, hfull.2⟩
        · obtain ⟨claim', hc, hr⟩ := hrefused
          change (s.claims.put id' _).find? id = _ at hc
          rw [Table.find?_put_ne _ _ hid] at hc
          exact absurd ⟨claim', hc, hr⟩ hnot
      · obtain rfl := Option.some.inj h
        exact absurd (isRefused_of_put rfl (by simp) hrefused) hnot
    · cases h
  | write id' =>
    simp only [fleetStep] at h
    split at h
    · split at h
      · obtain rfl := Option.some.inj h
        exact absurd (isRefused_of_put rfl (by simp) hrefused) hnot
      · obtain rfl := Option.some.inj h
        exact absurd (isRefused_of_put rfl (by simp) hrefused) hnot
    · cases h
  | commit id' =>
    simp only [fleetStep] at h
    split at h
    · obtain rfl := Option.some.inj h
      exact absurd (isRefused_of_put rfl (by simp) hrefused) hnot
    · cases h
  | abort id' =>
    simp only [fleetStep] at h
    split at h
    · cases h
    · cases h
    · obtain rfl := Option.some.inj h
      exact absurd (isRefused_of_put rfl (by simp) hrefused) hnot
    · cases h
  | remove c companyID launchID =>
    simp only [fleetStep] at h
    split at h
    · cases h
    · obtain rfl := Option.some.inj h
      exact absurd hrefused hnot
  | update c set =>
    simp only [fleetStep] at h
    split at h
    · cases h
    · obtain rfl := Option.some.inj h
      exact absurd hrefused hnot

/-- **Fleet cap.**  In every interleaving of claims, removals and updates the table never holds more
than `max(limit, initial)` rows, and a claim is refused for capacity only when its connection has no
row. -/
theorem fleet_cap (limit : ℕ) (db : Db) (as : List FleetAction) :
    Always (fleetStep limit) (fun s => s.db.registry.size ≤ max limit db.registry.size)
        (FleetState.start db) as ∧
      Meets (fleetStep limit) (RefusedForCapacity limit) (FleetState.start db) as := by
  constructor
  · have hinv : Always (fleetStep limit) (FleetInv (max limit db.registry.size))
        (FleetState.start db) as :=
      always_of_step (fun s a s' hI h => fleetInv_step (Nat.le_max_left _ _) hI h)
        (fleetInv_start limit db) as
    exact hinv.mono fun s hI => hI.size_le
  · exact meets_of_forall (refused_step limit)

end TeamInbox.Orchestrator
