import TeamInbox.Worker.Bootstrap

/-!
# TeamInbox.Worker.BootstrapRepair — a contact repair is not lost

One run of a kind at most.  A due time that was asked for stays recorded until a contact run that began no earlier has
succeeded in a session that was still alive; while a session is started and a time is recorded, a forced request that
covers it is queued, or held by the lane.

The covering request moves: the newest one is pending, the one before it may still be held.  The pending one covers
whenever there is one, else the held one does.
-/

namespace TeamInbox.Worker

open TeamInbox.Lib

abbrev BootstrapCalls := Calls Bootstrap BootstrapStage

namespace BootstrapStage

def inLane (k : BootstrapKind) : BootstrapStage → Bool
  | .idle => false
  | .top k' | .waiting k' .. | .woken k' _ | .fired k' _ | .running k' .. | .settling k' .. => decide (k' = k)

def held : BootstrapStage → Option (BootstrapKind × BootstrapRequest)
  | .waiting k r _ | .woken k r | .fired k r | .running k r _ | .settling k r .. => some (k, r)
  | .idle | .top _ => none

def runs (k : BootstrapKind) : BootstrapStage → Bool
  | .running k' .. => decide (k' = k)
  | _ => false

end BootstrapStage

/-- The request is queued, or a lane has taken it. -/
def InFlight (k : BootstrapKind) (r : BootstrapRequest) (s : BootstrapCalls) : Prop :=
  (s.shared.jobs k).pending = some r ∨ ∃ p, (s.calls p).held = some (k, r)

def Bootstrap.retryAt (cfg : BootstrapConfig) (b : Bootstrap) : ℕ := b.lastFailure.elim 0 (· + cfg.retry)

structure BootstrapHolds (cfg : BootstrapConfig) (s : BootstrapCalls) : Prop where
  oneRun : ∀ k p q, (s.calls p).runs k = true → (s.calls q).runs k = true → p = q
  recorded : ∀ d ∈ s.shared.requested, ∃ due, s.shared.contactRepairDue = some due ∧ d ≤ due
  covered : ∀ ctx due, s.shared.ctx = some ctx → s.shared.Alive ctx → s.shared.started = some ctx →
    s.shared.contactRepairDue = some due → ∃ r, InFlight .contacts r s ∧ r.ctx = ctx ∧ r.force = true ∧
      r.notBefore ≤ max due (s.shared.retryAt cfg)

/-- What one step does with the due times that were asked for. -/
structure RequestStep (s : BootstrapCalls) (a : CallAction BootstrapAction BootstrapEvent) (s' : BootstrapCalls) :
    Prop where
  records : ∀ p delay, a = .act p (.requestContactRepair delay) → s.shared.now + delay ∈ s'.shared.requested
  /-- A due time goes with a contact run that began no earlier and has succeeded in a session that is alive. -/
  served : ∀ d ∈ s.shared.requested, d ∉ s'.shared.requested → ∃ p r t, a = .act p .next ∧
    s.calls p = .settling .contacts r (some t) .success ∧ d ≤ t ∧ s.shared.Alive r.ctx
  /-- A run is said to have begun when it has. -/
  begins : ∀ p k r t, (s.calls p).runs k = false → s'.calls p = .running k r t → t = s.shared.now

/-! ### The invariant -/

/-- The goroutines of a job: none, one that has not begun, or one that runs. -/
def LaneOf (j : BootstrapJob) : Prop :=
  (j.running = false ∧ j.spawned = 0 ∧ j.runner = none) ∨ (j.running = true ∧ j.spawned = 1 ∧ j.runner = none) ∨
    (j.running = true ∧ j.spawned = 0 ∧ j.runner ≠ none)

structure Lanes (s : BootstrapCalls) : Prop where
  owned : ∀ k, Owned (BootstrapStage.inLane k) (fun b => (b.jobs k).runner) s
  job : ∀ k, LaneOf (s.shared.jobs k)

structure Sessions (s : BootstrapCalls) : Prop where
  ctx : ∀ c, s.shared.ctx = some c → c < s.shared.sessions
  started : ∀ c, s.shared.started = some c → c < s.shared.sessions
  pending : ∀ k r, (s.shared.jobs k).pending = some r → s.shared.ctx = some r.ctx
  held : ∀ p k r, (s.calls p).held = some (k, r) → s.shared.Alive r.ctx → s.shared.ctx = some r.ctx
  announced : ∀ p k r, (s.calls p).held = some (k, r) → s.shared.Alive r.ctx →
    (s.shared.jobs k).wake = true ∨ s.calls p = .woken k r → (s.shared.jobs k).pending ≠ none

/-- A request that runs was due; one that did not run has lost its session. -/
def Due (b : Bootstrap) : BootstrapStage → Prop
  | .waiting _ r due => r.notBefore ≤ due
  | .fired _ r => r.notBefore ≤ b.now
  | .running _ r t => r.notBefore ≤ t ∧ t ≤ b.now
  | .settling _ r (some t) _ => r.notBefore ≤ t ∧ t ≤ b.now
  | .settling _ r none _ => ¬ b.Alive r.ctx
  | _ => True

/-- The latest time a contact request may be put off to. -/
def Bootstrap.latest (cfg : BootstrapConfig) (force : Bool) (b : Bootstrap) : ℕ :=
  max (if force then b.contactRepairDue.getD b.now else b.now) (b.retryAt cfg)

structure Timing (cfg : BootstrapConfig) (s : BootstrapCalls) : Prop where
  failure : ∀ t, s.shared.lastFailure = some t → t ≤ s.shared.now
  due : ∀ p, Due s.shared (s.calls p)
  bound : ∀ r, InFlight .contacts r s → s.shared.Alive r.ctx → r.notBefore ≤ s.shared.latest cfg r.force

/-- The request serves a repair that is due then. -/
def Covers (due : ℕ) (r : BootstrapRequest) : Prop := r.force = true ∧ due ≤ r.notBefore

structure Cover (s : BootstrapCalls) : Prop where
  inFlight : ∀ c due, s.shared.ctx = some c → s.shared.Alive c → s.shared.contactRepairDue = some due →
    s.shared.started = some c ∨ s.shared.contactsRequested = true →
      (s.shared.jobs .contacts).pending ≠ none ∨ ∃ p r, (s.calls p).held = some (.contacts, r) ∧ r.ctx = c
  pending : ∀ c due r, s.shared.ctx = some c → s.shared.Alive c → s.shared.contactRepairDue = some due →
    (s.shared.jobs .contacts).pending = some r → Covers due r
  held : ∀ p due r, (s.calls p).held = some (.contacts, r) → s.shared.Alive r.ctx →
    s.shared.contactRepairDue = some due → (s.shared.jobs .contacts).pending = none → Covers due r

structure BootstrapInv (cfg : BootstrapConfig) (s : BootstrapCalls) : Prop where
  lanes : Lanes s
  sessions : Sessions s
  timing : Timing cfg s
  cover : Cover s
  recorded : ∀ d ∈ s.shared.requested, ∃ due, s.shared.contactRepairDue = some due ∧ d ≤ due

variable {cfg : BootstrapConfig} {p : ℕ} {s : BootstrapCalls} {w w' : Bootstrap} {x x' : BootstrapStage}
  {a : BootstrapAction} {k : BootstrapKind} {r : BootstrapRequest} {j : BootstrapJob}

@[simp] theorem jobs_setJob : (w.setJob k j).jobs k = j := Function.update_self ..

theorem jobs_setJob_ne {k' : BootstrapKind} (h : k' ≠ k) : (w.setJob k j).jobs k' = w.jobs k' := Function.update_of_ne h ..

/-! ### The moves of a call -/

inductive BootstrapSection (w : Bootstrap) : BootstrapAction → Bootstrap → Prop
  | begin (live : Bool) : BootstrapSection w (.begin live) (w.begin live)
  | cancel : BootstrapSection w .cancel w.cancel
  | start (ctx : GoContext) : BootstrapSection w (.start ctx) (w.start ctx)
  | request (delay : ℕ) : BootstrapSection w (.requestContactRepair delay) (w.requestContactRepair delay)

inductive LaneMove (cfg : BootstrapConfig) (p : ℕ) (k : BootstrapKind) (w : Bootstrap) :
    BootstrapStage → BootstrapAction → Bootstrap → BootstrapStage → Prop
  | begin (h : (w.jobs k).spawned ≠ 0) : LaneMove cfg p k w .idle (.lane k)
      (w.setJob k { w.jobs k with spawned := (w.jobs k).spawned - 1, runner := some p }) (.top k)
  | exit (h : (w.jobs k).pending = none) : LaneMove cfg p k w (.top k) .next
      (w.setJob k { w.jobs k with running := false, runner := none }) .idle
  | take (r : BootstrapRequest) (h : (w.jobs k).pending = some r) : LaneMove cfg p k w (.top k) .next
      (w.setJob k { w.jobs k with pending := none, wake := false }) (.waiting k r (w.due cfg k r))
  | wake (r : BootstrapRequest) (due : ℕ) (h : (w.jobs k).wake = true) : LaneMove cfg p k w (.waiting k r due) .wake
      (w.setJob k { w.jobs k with wake := false }) (.woken k r)
  | merge (r : BootstrapRequest) : LaneMove cfg p k w (.woken k r) .next
      (w.setJob k { w.jobs k with
        pending := (w.jobs k).pending.map fun latest => mergeBootstrapRequest latest (some r) }) (.top k)
  | done (r : BootstrapRequest) (due : ℕ) (h : ¬ w.Alive r.ctx) :
      LaneMove cfg p k w (.waiting k r due) .done w (.settling k r none .cancelled)
  | timer (r : BootstrapRequest) (due : ℕ) (h : due ≤ w.now) : LaneMove cfg p k w (.waiting k r due) .timer w (.fired k r)
  | run (r : BootstrapRequest) : LaneMove cfg p k w (.fired k r) .next w (.running k r w.now)
  | dead (r : BootstrapRequest) (h : ¬ w.Alive r.ctx) :
      LaneMove cfg p k w (.fired k r) .next w (.settling k r none .cancelled)
  | result (r : BootstrapRequest) (t : ℕ) (result : BootstrapResult) :
      LaneMove cfg p k w (.running k r t) (.result result) w (.settling k r (some t) result)
  | settle (r : BootstrapRequest) (t : Option ℕ) (result : BootstrapResult) :
      LaneMove cfg p k w (.settling k r t result) .next (w.settle cfg k r t result) (.top k)

theorem bootstrap_move (h : bootstrapAct cfg p w x a = some (w', x')) :
    (x = .idle ∧ x' = .idle ∧ BootstrapSection w a w') ∨ ∃ k, LaneMove cfg p k w x a w' x' := by
  unfold bootstrapAct at h
  split at h
  · cases h
    exact .inl ⟨rfl, rfl, .begin _⟩
  · cases h
    exact .inl ⟨rfl, rfl, .cancel⟩
  · cases h
    exact .inl ⟨rfl, rfl, .start _⟩
  · cases h
    exact .inl ⟨rfl, rfl, .request _⟩
  · split_ifs at h with hspawned
    cases h
    exact .inr ⟨_, .begin hspawned⟩
  · split at h
    · next hpending =>
      cases h
      exact .inr ⟨_, .exit hpending⟩
    · next hpending =>
      cases h
      exact .inr ⟨_, .take _ hpending⟩
  · split_ifs at h with hwake
    cases h
    exact .inr ⟨_, .wake _ _ hwake⟩
  · cases h
    exact .inr ⟨_, .merge _⟩
  · split_ifs at h with halive
    cases h
    exact .inr ⟨_, .done _ _ halive⟩
  · split_ifs at h with hdue
    cases h
    exact .inr ⟨_, .timer _ _ hdue⟩
  · split_ifs at h with halive <;> cases h
    · exact .inr ⟨_, .run _⟩
    · exact .inr ⟨_, .dead _ halive⟩
  · cases h
    exact .inr ⟨_, .result _ _ _⟩
  · cases h
    exact .inr ⟨_, .settle _ _ _⟩
  · cases h

/-! ### Requests -/

@[simp] theorem ctx_merge {latest : BootstrapRequest} {previous : Option BootstrapRequest} :
    (mergeBootstrapRequest latest previous).ctx = latest.ctx := by
  unfold mergeBootstrapRequest
  split
  · rfl
  · split_ifs <;> rfl

theorem covers_merge {due : ℕ} {latest : BootstrapRequest} {previous : Option BootstrapRequest} (h : Covers due latest) :
    Covers due (mergeBootstrapRequest latest previous) := by
  unfold mergeBootstrapRequest
  split
  · exact h
  · split_ifs
    · exact h
    · exact ⟨rfl, Nat.le_trans h.2 (Nat.le_max_left _ _)⟩

theorem merge_cases (latest : BootstrapRequest) (previous : Option BootstrapRequest) :
    mergeBootstrapRequest latest previous = latest ∨ ∃ old, previous = some old ∧ latest.ctx = old.ctx ∧ old.force = true ∧
      (mergeBootstrapRequest latest previous).force = true ∧
        (mergeBootstrapRequest latest previous).notBefore = max latest.notBefore old.notBefore := by
  unfold mergeBootstrapRequest
  split
  · exact .inl rfl
  · next old =>
    split_ifs with hold
    · exact .inl rfl
    · rw [not_or, not_not, Bool.not_eq_false] at hold
      exact .inr ⟨old, rfl, hold.1, hold.2, rfl, rfl⟩

structure SameSession (w w' : Bootstrap) : Prop where
  cancelled : w'.cancelled = w.cancelled
  ctx : w'.ctx = w.ctx
  contactsRequested : w'.contactsRequested = w.contactsRequested
  due : w'.contactRepairDue = w.contactRepairDue
  started : w'.started = w.started

theorem SameSession.alive {ctx : GoContext} (h : SameSession w w') : w'.Alive ctx ↔ w.Alive ctx := by
  unfold Bootstrap.Alive
  rw [h.cancelled]

theorem sameSession_setJob : SameSession w (w.setJob k j) := ⟨rfl, rfl, rfl, rfl, rfl⟩

theorem pending_queue : ((w.queue k r).jobs k).pending = some (mergeBootstrapRequest r (w.jobs k).pending) := by
  unfold Bootstrap.queue
  rw [jobs_setJob]
  split_ifs <;> rfl

theorem jobs_queue_ne {k' : BootstrapKind} (h : k' ≠ k) : (w.queue k r).jobs k' = w.jobs k' := jobs_setJob_ne h

/-! ### Lanes -/

theorem set_idle (h : s.calls p = .idle) : s.set p w .idle = { s with shared := w } := by
  unfold Calls.set
  rw [← h, Function.update_eq_self]

theorem Lanes.shared (h : Lanes s) (hrunner : ∀ k, (w.jobs k).runner = (s.shared.jobs k).runner)
    (hjob : ∀ k, LaneOf (w.jobs k)) : Lanes { s with shared := w } := by
  refine ⟨fun k q => ?_, hjob⟩
  show (w.jobs k).runner = some q ↔ _
  rw [hrunner]
  exact h.owned k q

theorem lanes_queue (h : Lanes s) : Lanes { s with shared := s.shared.queue k r } := by
  have hjob : ((s.shared.queue k r).jobs k).runner = (s.shared.jobs k).runner ∧ LaneOf ((s.shared.queue k r).jobs k) := by
    unfold Bootstrap.queue
    rw [jobs_setJob]
    rcases h.job k with ⟨hrunning, hspawned, hrunner⟩ | ⟨hrunning, hspawned, hrunner⟩ | ⟨hrunning, hspawned, hrunner⟩
    · rw [if_neg (by rw [hrunning]; exact nofun)]
      exact ⟨rfl, .inr (.inl ⟨rfl, congrArg (· + 1) hspawned, hrunner⟩)⟩
    · rw [if_pos hrunning]
      exact ⟨rfl, .inr (.inl ⟨hrunning, hspawned, hrunner⟩)⟩
    · rw [if_pos hrunning]
      exact ⟨rfl, .inr (.inr ⟨hrunning, hspawned, hrunner⟩)⟩
  refine h.shared (fun k' => ?_) fun k' => ?_
  · by_cases hk : k' = k
    · rw [hk]
      exact hjob.1
    · rw [jobs_queue_ne hk]
  · by_cases hk : k' = k
    · rw [hk]
      exact hjob.2
    · rw [jobs_queue_ne hk]
      exact h.job k'

theorem Lanes.step (h : Lanes s) (hx : s.calls p = x) (hstage : ∀ k', x'.inLane k' = x.inLane k')
    (hothers : ∀ k', k' ≠ k → w.jobs k' = s.shared.jobs k')
    (hjob : (w.jobs k).running = (s.shared.jobs k).running ∧ (w.jobs k).spawned = (s.shared.jobs k).spawned ∧
      (w.jobs k).runner = (s.shared.jobs k).runner) : Lanes (s.set p w x') := by
  have hall : ∀ k', (w.jobs k').running = (s.shared.jobs k').running ∧
      (w.jobs k').spawned = (s.shared.jobs k').spawned ∧ (w.jobs k').runner = (s.shared.jobs k').runner := fun k' => by
    by_cases hk : k' = k
    · rw [hk]
      exact hjob
    · rw [hothers k' hk]
      exact ⟨rfl, rfl, rfl⟩
  refine ⟨fun k' => (h.owned k').keep hx (hall k').2.2 (hstage k'), fun k' => ?_⟩
  unfold LaneOf
  rw [Calls.shared_set, (hall k').1, (hall k').2.1, (hall k').2.2]
  exact h.job k'

theorem inLane_of_held (h : x.held = some (k, r)) : x.inLane k = true := by
  revert h
  cases x <;> simp +contextual [BootstrapStage.held, BootstrapStage.inLane]

theorem Lanes.free (h : Lanes s) (hmove : LaneMove cfg p k s.shared (s.calls p) a w' x') {q : ℕ} {r : BootstrapRequest}
    (hq : q ≠ p) : (s.calls q).held ≠ some (k, r) := by
  intro hheld
  have hlane := inLane_of_held hheld
  have hp : (s.calls p).inLane k = true → False := fun hp => hq ((h.owned k).unique hp hlane)
  generalize s.calls p = x at hmove hp
  cases hmove with
  | begin hspawned =>
    have hrunner : (s.shared.jobs k).runner = some q := (h.owned k q).mpr hlane
    rcases h.job k with ⟨-, hzero, -⟩ | ⟨-, -, hnone⟩ | ⟨-, hzero, -⟩
    · exact hspawned hzero
    · rw [hnone] at hrunner
      cases hrunner
    · exact hspawned hzero
  | exit | take | wake | merge | done | timer | run | dead | result | settle => exact hp (decide_eq_true rfl)

theorem settle_cases (cfg : BootstrapConfig) (k : BootstrapKind) (r : BootstrapRequest) (t : Option ℕ)
    (result : BootstrapResult) (w : Bootstrap) : ∃ j, j.running = (w.jobs k).running ∧ j.spawned = (w.jobs k).spawned ∧
      j.runner = (w.jobs k).runner ∧ j.wake = (w.jobs k).wake ∧
      ((¬ w.Alive r.ctx ∧ j.pending = (w.jobs k).pending ∧ w.settle cfg k r t result = w.setJob k j) ∨
      (w.Alive r.ctx ∧ result = .success ∧ j.pending = (w.jobs k).pending ∧ w.settle cfg k r t result =
        { w.setJob k j with
          contactRepairDue :=
            if k = .contacts ∧ r.force = true ∧ w.contactRepairDue.all fun due => decide (due ≤ r.notBefore) then none
            else w.contactRepairDue
          requested :=
            if k = .contacts then w.requested.filter fun d => t.all fun t => decide (t < d) else w.requested }) ∨
      (w.Alive r.ctx ∧ result ≠ .success ∧
        j.pending = some ((w.jobs k).pending.getD { r with notBefore := w.now + cfg.retry }) ∧
        w.settle cfg k r t result =
          { w.setJob k j with
            lastFailure := some w.now })) := by
  unfold Bootstrap.settle
  dsimp only
  by_cases halive : w.Alive r.ctx
  · rw [if_pos halive]
    by_cases hresult : result = .success
    · rw [if_pos hresult, hresult]
      refine ⟨_, ?_, ?_, ?_, ?_, .inr (.inl ⟨halive, rfl, ?_, rfl⟩)⟩ <;> rfl
    · rw [if_neg hresult]
      refine ⟨_, ?_, ?_, ?_, ?_, .inr (.inr ⟨halive, hresult, ?_, rfl⟩)⟩ <;> split_ifs <;> rfl
  · rw [if_neg halive]
    refine ⟨_, ?_, ?_, ?_, ?_, .inl ⟨halive, ?_, rfl⟩⟩ <;> split_ifs <;> rfl

theorem settle_jobs (cfg : BootstrapConfig) (k : BootstrapKind) (r : BootstrapRequest) (t : Option ℕ)
    (result : BootstrapResult) (w : Bootstrap) : (∀ k', k' ≠ k → (w.settle cfg k r t result).jobs k' = w.jobs k') ∧
      ((w.settle cfg k r t result).jobs k).running = (w.jobs k).running ∧
      ((w.settle cfg k r t result).jobs k).spawned = (w.jobs k).spawned ∧
      ((w.settle cfg k r t result).jobs k).runner = (w.jobs k).runner := by
  obtain ⟨j, h₁, h₂, h₃, -, h⟩ := settle_cases cfg k r t result w
  have hjobs : (w.settle cfg k r t result).jobs = (w.setJob k j).jobs := by
    rcases h with ⟨-, -, h⟩ | ⟨-, -, -, h⟩ | ⟨-, -, -, h⟩ <;> rw [h]
  rw [hjobs, jobs_setJob]
  exact ⟨fun k' hk => jobs_setJob_ne hk, h₁, h₂, h₃⟩

theorem lanes_move (h : Lanes s) (hmove : LaneMove cfg p k s.shared (s.calls p) a w' x') : Lanes (s.set p w' x') := by
  generalize hx : s.calls p = x at hmove
  have hlane : ∀ {k'}, (BootstrapStage.top k).inLane k' = true ↔ k = k' := decide_eq_true_iff
  have hout : ∀ {k'}, k' ≠ k → (BootstrapStage.top k).inLane k' = BootstrapStage.idle.inLane k' := fun hk =>
    decide_eq_false fun heq => hk heq.symm
  cases hmove with
  | begin hspawned =>
    have hstarting : (s.shared.jobs k).running = true ∧ (s.shared.jobs k).spawned = 1 ∧ (s.shared.jobs k).runner = none := by
      rcases h.job k with ⟨-, hzero, -⟩ | hstarting | ⟨-, hzero, -⟩
      · exact absurd hzero hspawned
      · exact hstarting
      · exact absurd hzero hspawned
    refine ⟨fun k' => ?_, fun k' => ?_⟩
    · by_cases hk : k' = k
      · rw [hk]
        exact (h.owned k).take hstarting.2.2 (congrArg BootstrapJob.runner jobs_setJob) (hlane.mpr rfl)
      · exact (h.owned k').keep hx (congrArg BootstrapJob.runner (jobs_setJob_ne hk)) (hout hk)
    · rw [Calls.shared_set]
      by_cases hk : k' = k
      · rw [hk, jobs_setJob]
        exact .inr (.inr ⟨hstarting.1, by rw [hstarting.2.1], nofun⟩)
      · rw [jobs_setJob_ne hk]
        exact h.job k'
  | exit hpending =>
    refine ⟨fun k' => ?_, fun k' => ?_⟩
    · by_cases hk : k' = k
      · rw [hk]
        exact (h.owned k).release hx (hlane.mpr rfl) (congrArg BootstrapJob.runner jobs_setJob) rfl
      · exact (h.owned k').keep hx (congrArg BootstrapJob.runner (jobs_setJob_ne hk)) (hout hk).symm
    · rw [Calls.shared_set]
      by_cases hk : k' = k
      · have hrunner : (s.shared.jobs k).runner = some p := (h.owned k p).mpr (hx ▸ hlane.mpr rfl)
        rw [hk, jobs_setJob]
        rcases h.job k with ⟨-, hzero, -⟩ | ⟨-, -, hnone⟩ | ⟨-, hzero, -⟩
        · exact .inl ⟨rfl, hzero, rfl⟩
        · rw [hnone] at hrunner
          cases hrunner
        · exact .inl ⟨rfl, hzero, rfl⟩
      · rw [jobs_setJob_ne hk]
        exact h.job k'
  | take r hpending | wake r due hwake | merge r =>
    refine h.step (k := k) hx (fun _ => rfl) (fun k' hk => jobs_setJob_ne hk) ?_
    rw [jobs_setJob]
    exact ⟨rfl, rfl, rfl⟩
  | done | timer | run | dead | result =>
    exact h.step (k := k) hx (fun _ => rfl) (fun _ _ => rfl) ⟨rfl, rfl, rfl⟩
  | settle r t result =>
    obtain ⟨hothers, hjob⟩ := settle_jobs cfg k r t result s.shared
    exact h.step hx (fun _ => rfl) hothers hjob

/-! ### Sessions -/

theorem Sessions.step (h : Sessions s) (hfree : ∀ q r, q ≠ p → (s.calls q).held ≠ some (k, r))
    (hsession : w.cancelled = s.shared.cancelled ∧ w.ctx = s.shared.ctx ∧ w.started = s.shared.started ∧
      w.sessions = s.shared.sessions) (hothers : ∀ k', k' ≠ k → w.jobs k' = s.shared.jobs k')
    (hpending : ∀ r, (w.jobs k).pending = some r → s.shared.ctx = some r.ctx)
    (hheld : ∀ k' r, x'.held = some (k', r) → k' = k ∧ (s.shared.Alive r.ctx → s.shared.ctx = some r.ctx ∧
      ((w.jobs k).wake = true ∨ x' = .woken k r → (w.jobs k).pending ≠ none))) : Sessions (s.set p w x') := by
  obtain ⟨hcancelled, hctx, hstarted, hsessions⟩ := hsession
  have halive : ∀ ctx, w.Alive ctx ↔ s.shared.Alive ctx := fun ctx => by
    unfold Bootstrap.Alive
    rw [hcancelled]
  constructor
  · rw [Calls.shared_set, hctx, hsessions]
    exact h.ctx
  · rw [Calls.shared_set, hstarted, hsessions]
    exact h.started
  · intro k' r hr
    rw [Calls.shared_set] at hr ⊢
    rw [hctx]
    by_cases hk : k' = k
    · exact hpending r (hk ▸ hr)
    · rw [hothers k' hk] at hr
      exact h.pending k' r hr
  · intro q k' r hq hr
    rw [Calls.shared_set, halive] at hr
    rw [Calls.shared_set, hctx]
    by_cases hqp : q = p
    · rw [hqp, Calls.calls_set_self] at hq
      exact ((hheld k' r hq).2 hr).1
    · rw [Calls.calls_set_ne s w x' hqp] at hq
      exact h.held q k' r hq hr
  · intro q k' r hq hr hannounced
    rw [Calls.shared_set, halive] at hr
    rw [Calls.shared_set] at hannounced ⊢
    by_cases hqp : q = p
    · rw [hqp, Calls.calls_set_self] at hq hannounced
      obtain ⟨rfl, hall⟩ := hheld k' r hq
      exact (hall hr).2 hannounced
    · rw [Calls.calls_set_ne s w x' hqp] at hq hannounced
      have hk : k' ≠ k := by
        rintro rfl
        exact hfree q r hqp hq
      rw [hothers k' hk] at hannounced ⊢
      exact h.announced q k' r hq hr hannounced

theorem sessions_move (hlanes : Lanes s) (h : Sessions s) (hmove : LaneMove cfg p k s.shared (s.calls p) a w' x') :
    Sessions (s.set p w' x') := by
  have hfree : ∀ q r, q ≠ p → (s.calls q).held ≠ some (k, r) := fun q r hq => hlanes.free hmove hq
  generalize hx : s.calls p = x at hmove
  have hkept : ∀ r, (s.calls p).held = some (k, r) → ∀ k' r', some (k, r) = some (k', r') → k' = k ∧
      (s.shared.Alive r'.ctx → s.shared.ctx = some r'.ctx ∧ ((s.shared.jobs k).wake = true ∨ s.calls p = .woken k r' →
        (s.shared.jobs k).pending ≠ none)) := by
    rintro r hr k' r' heq
    obtain ⟨rfl, rfl⟩ := Prod.mk.inj (Option.some.inj heq)
    exact ⟨rfl, fun halive => ⟨h.held p _ _ hr halive, h.announced p _ _ hr halive⟩⟩
  have hstill : ∀ {r x'}, (s.calls p).held = some (k, r) → x'.held = some (k, r) → (∀ r', x' ≠ .woken k r') →
      Sessions (s.set p s.shared x') := by
    intro r x' hr hr' hnot
    refine h.step hfree ⟨rfl, rfl, rfl, rfl⟩ (fun _ _ => rfl) (h.pending k) fun k' r'' hr'' => ?_
    obtain ⟨hk, hall⟩ := hkept r hr k' r'' (hr'.symm.trans hr'')
    exact ⟨hk, fun halive => ⟨(hall halive).1, fun hannounced =>
      (hall halive).2 (hannounced.imp_right fun hwoken => absurd hwoken (hnot r''))⟩⟩
  cases hmove with
  | begin hspawned =>
    refine h.step hfree ⟨rfl, rfl, rfl, rfl⟩ (fun k' hk => jobs_setJob_ne hk) (fun r hr => ?_) nofun
    rw [jobs_setJob] at hr
    exact h.pending k r hr
  | exit hpending =>
    refine h.step hfree ⟨rfl, rfl, rfl, rfl⟩ (fun k' hk => jobs_setJob_ne hk) (fun r hr => ?_) nofun
    rw [jobs_setJob] at hr
    exact h.pending k r hr
  | take r hpending =>
    refine h.step hfree ⟨rfl, rfl, rfl, rfl⟩ (fun k' hk => jobs_setJob_ne hk) (fun r' hr => ?_) fun k' r' hr => ?_
    · rw [jobs_setJob] at hr
      cases hr
    · obtain ⟨rfl, rfl⟩ := Prod.mk.inj (Option.some.inj hr)
      refine ⟨rfl, fun _ => ⟨h.pending k r hpending, fun hannounced => ?_⟩⟩
      rw [jobs_setJob] at hannounced
      rcases hannounced with hwake | hwoken
      · cases hwake
      · cases hwoken
  | wake r due hwake =>
    refine h.step hfree ⟨rfl, rfl, rfl, rfl⟩ (fun k' hk => jobs_setJob_ne hk) (fun r' hr => ?_) fun k' r' hr => ?_
    · rw [jobs_setJob] at hr
      exact h.pending k r' hr
    · obtain ⟨rfl, hall⟩ := hkept r (congrArg BootstrapStage.held hx) k' r' hr
      refine ⟨rfl, fun halive => ⟨(hall halive).1, fun _ => ?_⟩⟩
      rw [jobs_setJob]
      exact (hall halive).2 (.inl hwake)
  | merge r =>
    refine h.step hfree ⟨rfl, rfl, rfl, rfl⟩ (fun k' hk => jobs_setJob_ne hk) (fun r' hr => ?_) nofun
    rw [jobs_setJob] at hr
    obtain ⟨latest, hlatest, rfl⟩ := Option.map_eq_some_iff.mp hr
    rw [ctx_merge]
    exact h.pending k latest hlatest
  | done | dead | timer | run | result => exact hstill (congrArg BootstrapStage.held hx) rfl nofun
  | settle r t result =>
    obtain ⟨j, -, -, -, -, hcases⟩ := settle_cases cfg k r t result s.shared
    have hothers := (settle_jobs cfg k r t result s.shared).1
    have hold : ∀ r', (s.shared.jobs k).pending = some r' → s.shared.ctx = some r'.ctx := h.pending k
    rcases hcases with ⟨-, hj, hw⟩ | ⟨-, -, hj, hw⟩ | ⟨halive, -, hj, hw⟩ <;> rw [hw] at hothers ⊢
    · refine h.step hfree ⟨rfl, rfl, rfl, rfl⟩ hothers (fun r' hr => hold r' ?_) nofun
      rw [jobs_setJob, hj] at hr
      exact hr
    · refine h.step hfree ⟨rfl, rfl, rfl, rfl⟩ hothers (fun r' hr => hold r' ?_) nofun
      have hr : ((s.shared.setJob k j).jobs k).pending = some r' := hr
      rw [jobs_setJob, hj] at hr
      exact hr
    · refine h.step hfree ⟨rfl, rfl, rfl, rfl⟩ hothers (fun r' hr => ?_) nofun
      have hr : ((s.shared.setJob k j).jobs k).pending = some r' := hr
      rw [jobs_setJob, hj] at hr
      obtain rfl := Option.some.inj hr
      cases hpending : (s.shared.jobs k).pending with
      | none => exact h.held p k r (congrArg BootstrapStage.held hx) halive
      | some r' => exact hold r' hpending

/-! ### Timing -/

theorem le_due : r.notBefore ≤ w.due cfg k r := by
  unfold Bootstrap.due
  dsimp only
  split_ifs
  · exact Nat.le_max_left _ _
  · exact Nat.le_trans (Nat.le_max_left _ _) (Nat.le_max_left _ _)

theorem Timing.step (h : Timing cfg s) (hnow : w.now = s.shared.now) (hcancelled : w.cancelled = s.shared.cancelled)
    (hfailure : ∀ t, w.lastFailure = some t → t ≤ s.shared.now)
    (hlatest : ∀ force, s.shared.latest cfg force ≤ w.latest cfg force) (hdue : Due s.shared x')
    (hpending : ∀ r, (w.jobs .contacts).pending = some r → s.shared.Alive r.ctx →
      InFlight .contacts r s ∨ r.notBefore ≤ w.latest cfg r.force)
    (hheld : ∀ r, x'.held = some (.contacts, r) → InFlight .contacts r s) : Timing cfg (s.set p w x') := by
  have halive : ∀ ctx, w.Alive ctx ↔ s.shared.Alive ctx := fun ctx => by
    unfold Bootstrap.Alive
    rw [hcancelled]
  have hsame : ∀ y, Due w y ↔ Due s.shared y := fun y => by
    unfold Due
    simp only [hnow, halive]
  refine ⟨fun t ht => ?_, fun q => ?_, fun r hr hctx => ?_⟩
  · rw [Calls.shared_set, hnow]
    exact hfailure t ht
  · rw [Calls.shared_set, hsame]
    by_cases hq : q = p
    · rw [hq, Calls.calls_set_self]
      exact hdue
    · rw [Calls.calls_set_ne s w x' hq]
      exact h.due q
  · rw [Calls.shared_set, halive] at hctx
    rw [Calls.shared_set]
    have hold : InFlight .contacts r s → r.notBefore ≤ w.latest cfg r.force := fun hold =>
      Nat.le_trans (h.bound r hold hctx) (hlatest r.force)
    rcases hr with hr | ⟨q, hq⟩
    · exact (hpending r hr hctx).elim hold id
    · by_cases hqp : q = p
      · rw [hqp, Calls.calls_set_self] at hq
        exact hold (hheld r hq)
      · rw [Calls.calls_set_ne s w x' hqp] at hq
        exact hold (.inr ⟨q, hq⟩)

theorem forced_of_due {due : ℕ} (hsessions : Sessions s) (hcover : Cover s)
    (hr : (s.shared.jobs .contacts).pending = some r) (halive : s.shared.Alive r.ctx)
    (hdue : s.shared.contactRepairDue = some due) : Covers due r :=
  hcover.pending _ _ r (hsessions.pending .contacts r hr) halive hdue hr

theorem bound_merge {latest : BootstrapRequest} {previous : Option BootstrapRequest}
    (hlatest : latest.notBefore ≤ w.latest cfg latest.force)
    (hforce : latest.force = false → w.contactRepairDue = none)
    (hprevious : ∀ old, previous = some old → old.ctx = latest.ctx → old.notBefore ≤ w.latest cfg old.force) :
    (mergeBootstrapRequest latest previous).notBefore ≤ w.latest cfg (mergeBootstrapRequest latest previous).force := by
  rcases merge_cases latest previous with heq | ⟨old, hold, hctx, hforced, htrue, hmax⟩
  · rw [heq]
    exact hlatest
  · have hboth : latest.notBefore ≤ w.latest cfg true := by
      cases hf : latest.force with
      | true =>
        rw [hf] at hlatest
        exact hlatest
      | false =>
        rw [hf] at hlatest
        have hnone := hforce hf
        unfold Bootstrap.latest at hlatest ⊢
        rw [hnone]
        exact hlatest
    have hold := hprevious old hold hctx.symm
    rw [hforced] at hold
    rw [htrue, hmax]
    exact Nat.max_le.mpr ⟨hboth, hold⟩

theorem timing_move (hsessions : Sessions s) (hcover : Cover s) (h : Timing cfg s)
    (hmove : LaneMove cfg p k s.shared (s.calls p) a w' x') : Timing cfg (s.set p w' x') := by
  have hheld : ∀ r, (s.calls p).held = some (.contacts, r) → InFlight .contacts r s := fun r hr => .inr ⟨p, hr⟩
  have hdue := h.due p
  generalize hx : s.calls p = x at hmove hheld hdue
  have hset : ∀ {j} r, ((s.shared.setJob k j).jobs .contacts).pending = some r →
      (j.pending = some r → (s.shared.jobs k).pending = some r) → InFlight .contacts r s := by
    intro j r hr hj
    by_cases hk : BootstrapKind.contacts = k
    · rw [hk, jobs_setJob] at hr
      exact .inl (hk ▸ hj hr)
    · rw [jobs_setJob_ne hk] at hr
      exact .inl hr
  have hsame : ∀ {x'}, Due s.shared x' → (∀ r, x'.held = some (.contacts, r) → x.held = some (.contacts, r)) →
      Timing cfg (s.set p s.shared x') := fun hdue' hx' =>
    h.step rfl rfl h.failure (fun _ => Nat.le_refl _) hdue' (fun r hr _ => .inl (.inl hr)) fun r hr => hheld r (hx' r hr)
  cases hmove with
  | begin | exit =>
    exact h.step rfl rfl h.failure (fun _ => Nat.le_refl _) trivial (fun r hr _ => .inl (hset r hr id)) nofun
  | wake r due hwake =>
    exact h.step rfl rfl h.failure (fun _ => Nat.le_refl _) trivial (fun r hr _ => .inl (hset r hr id)) hheld
  | take r hpending =>
    refine h.step rfl rfl h.failure (fun _ => Nat.le_refl _) le_due (fun r hr _ => .inl (hset r hr nofun)) fun r' hr' => ?_
    obtain ⟨rfl, rfl⟩ := Prod.mk.inj (Option.some.inj hr')
    exact .inl hpending
  | merge r =>
    refine h.step rfl rfl h.failure (fun _ => Nat.le_refl _) trivial (fun r' hr halive => ?_) nofun
    by_cases hk : BootstrapKind.contacts = k
    · subst hk
      rw [jobs_setJob] at hr
      obtain ⟨latest, hlatest, rfl⟩ := Option.map_eq_some_iff.mp hr
      rw [ctx_merge] at halive
      refine .inr (bound_merge (h.bound latest (.inl hlatest) halive) (fun hforce => ?_) fun old hold hctx => ?_)
      · refine Option.eq_none_iff_forall_ne_some.mpr fun due hdue' => ?_
        rw [(forced_of_due hsessions hcover hlatest halive hdue').1] at hforce
        cases hforce
      · obtain rfl := Option.some.inj hold
        exact h.bound r (hheld r rfl) (hctx ▸ halive)
    · rw [jobs_setJob_ne hk] at hr
      exact .inl (.inl hr)
  | done r due halive => exact hsame halive fun _ => id
  | dead r halive => exact hsame halive fun _ => id
  | timer r due hnow => exact hsame (Nat.le_trans hdue hnow) fun _ => id
  | run r => exact hsame ⟨hdue, Nat.le_refl _⟩ fun _ => id
  | result r t result => exact hsame hdue fun _ => id
  | settle r t result =>
    obtain ⟨j, -, -, -, -, hcases⟩ := settle_cases cfg k r t result s.shared
    rcases hcases with ⟨-, hj, hw⟩ | ⟨halive, -, hj, hw⟩ | ⟨-, -, hj, hw⟩ <;> rw [hw]
    · exact h.step rfl rfl h.failure (fun _ => Nat.le_refl _) trivial
        (fun r' hr _ => .inl (hset r' hr fun hr => hj.symm.trans hr)) nofun
    · refine h.step rfl rfl h.failure (fun force => ?_) trivial
        (fun r' hr _ => .inl (hset r' hr fun hr => hj.symm.trans hr)) nofun
      refine Nat.max_le.mpr ⟨Nat.le_trans ?_ (Nat.le_max_left _ _), Nat.le_max_right _ _⟩
      show (if force then s.shared.contactRepairDue.getD s.shared.now else s.shared.now) ≤
        if force then (if k = .contacts ∧ r.force = true ∧ s.shared.contactRepairDue.all fun due =>
          decide (due ≤ r.notBefore) then none else s.shared.contactRepairDue).getD s.shared.now else s.shared.now
      cases force with
      | false => exact Nat.le_refl _
      | true =>
        rw [if_pos rfl, if_pos rfl]
        by_cases hcleared : k = .contacts ∧ r.force = true ∧ (s.shared.contactRepairDue.all fun due =>
            decide (due ≤ r.notBefore)) = true
        · -- a repair is served no earlier than it was due
          rw [if_pos hcleared]
          cases hd : s.shared.contactRepairDue with
          | none => exact Nat.le_refl _
          | some due =>
            have hle := hcleared.2.2
            rw [hd] at hle
            have hle : due ≤ r.notBefore := of_decide_eq_true hle
            cases t with
            | none => exact absurd halive hdue
            | some t => exact Nat.le_trans hle (Nat.le_trans hdue.1 hdue.2)
        · exact Nat.le_of_eq (by rw [if_neg hcleared])
    · have hfailed : ∀ force, s.shared.latest cfg force ≤ Bootstrap.latest cfg force
          { s.shared.setJob k j with
            lastFailure := some s.shared.now } := fun force => by
        refine Nat.max_le.mpr ⟨Nat.le_max_left _ _, Nat.le_trans ?_ (Nat.le_max_right _ _)⟩
        show s.shared.retryAt cfg ≤ s.shared.now + cfg.retry
        unfold Bootstrap.retryAt
        cases hf : s.shared.lastFailure with
        | none => exact Nat.zero_le _
        | some t => exact Nat.add_le_add_right (h.failure t hf) _
      refine h.step rfl rfl (fun t ht => ?_) hfailed trivial (fun r' hr _ => ?_) nofun
      · exact Nat.le_of_eq (Option.some.inj ht).symm
      · by_cases hpending : (s.shared.jobs k).pending = none
        · by_cases hk : BootstrapKind.contacts = k
          · subst hk
            have hr : ((s.shared.setJob .contacts j).jobs .contacts).pending = some r' := hr
            rw [jobs_setJob, hj, hpending] at hr
            obtain rfl := Option.some.inj hr
            exact .inr (Nat.le_max_right _ _)
          · have hr : ((s.shared.setJob k j).jobs .contacts).pending = some r' := hr
            rw [jobs_setJob_ne hk] at hr
            exact .inl (.inl hr)
        · obtain ⟨old, hold⟩ := Option.ne_none_iff_exists'.mp hpending
          refine .inl (hset r' hr fun hr => ?_)
          rw [hj, hold] at hr
          exact hold.trans hr

/-! ### The covering request -/

theorem cover_vacuous (hsessions : Sessions s) (h : s.shared.contactRepairDue = none ∨
    ∀ c, s.shared.ctx = some c → ¬ s.shared.Alive c) : Cover s := by
  have hno : ∀ c due, s.shared.ctx = some c → s.shared.Alive c → s.shared.contactRepairDue ≠ some due :=
    fun c due hc halive hdue => h.elim (fun hnone => by rw [hnone] at hdue; cases hdue) fun hdead => hdead c hc halive
  refine ⟨fun c due hc halive hdue => ?_, fun c due r hc halive hdue => ?_, fun q due r hq halive hdue => ?_⟩
  · exact absurd hdue (hno c due hc halive)
  · exact absurd hdue (hno c due hc halive)
  · exact absurd hdue (hno r.ctx due (hsessions.held q .contacts r hq halive) halive)

theorem Cover.same (h : Cover s) (hsession : SameSession s.shared w)
    (hpending : (w.jobs .contacts).pending = (s.shared.jobs .contacts).pending)
    (hheld : ∀ r, x'.held = some (.contacts, r) ↔ (s.calls p).held = some (.contacts, r)) : Cover (s.set p w x') := by
  have hall : ∀ q r, ((s.set p w x').calls q).held = some (.contacts, r) ↔ (s.calls q).held = some (.contacts, r) :=
    fun q r => by
      by_cases hq : q = p
      · rw [hq, Calls.calls_set_self]
        exact hheld r
      · rw [Calls.calls_set_ne s w x' hq]
  constructor
  · intro c due hc halive hdue hasked
    rw [Calls.shared_set] at hc halive hdue hasked ⊢
    rw [hsession.ctx] at hc
    rw [hsession.alive] at halive
    rw [hsession.due] at hdue
    rw [hsession.started, hsession.contactsRequested] at hasked
    rw [hpending]
    refine (h.inFlight c due hc halive hdue hasked).imp_right ?_
    rintro ⟨q, r, hq, hr⟩
    exact ⟨q, r, (hall q r).mpr hq, hr⟩
  · intro c due r hc halive hdue hr
    rw [Calls.shared_set] at hc halive hdue hr
    rw [hsession.ctx] at hc
    rw [hsession.alive] at halive
    rw [hsession.due] at hdue
    rw [hpending] at hr
    exact h.pending c due r hc halive hdue hr
  · intro q due r hq halive hdue hnone
    rw [Calls.shared_set] at halive hdue hnone
    rw [hsession.alive] at halive
    rw [hsession.due] at hdue
    rw [hpending] at hnone
    exact h.held q due r ((hall q r).mp hq) halive hdue hnone

theorem Cover.step (hfree : ∀ q r, q ≠ p → (s.calls q).held ≠ some (.contacts, r)) (hctx : w.ctx = s.shared.ctx)
    (hcancelled : w.cancelled = s.shared.cancelled)
    (hinFlight : ∀ c due, s.shared.ctx = some c → s.shared.Alive c → w.contactRepairDue = some due →
      w.started = some c ∨ w.contactsRequested = true →
        (w.jobs .contacts).pending ≠ none ∨ ∃ r, x'.held = some (.contacts, r) ∧ r.ctx = c)
    (hpending : ∀ c due r, s.shared.ctx = some c → s.shared.Alive c → w.contactRepairDue = some due →
      (w.jobs .contacts).pending = some r → Covers due r)
    (hheld : ∀ due r, x'.held = some (.contacts, r) → s.shared.Alive r.ctx → w.contactRepairDue = some due →
      (w.jobs .contacts).pending = none → Covers due r) : Cover (s.set p w x') := by
  have halive' : ∀ ctx, w.Alive ctx ↔ s.shared.Alive ctx := fun ctx => by
    unfold Bootstrap.Alive
    rw [hcancelled]
  constructor
  · intro c due hc halive hdue hasked
    rw [Calls.shared_set] at hc halive hdue hasked ⊢
    rw [hctx] at hc
    rw [halive'] at halive
    refine (hinFlight c due hc halive hdue hasked).imp_right ?_
    rintro ⟨r, hr, hrc⟩
    exact ⟨p, r, by rw [Calls.calls_set_self]; exact hr, hrc⟩
  · intro c due r hc halive hdue hr
    rw [Calls.shared_set] at hc halive hdue hr
    rw [hctx] at hc
    rw [halive'] at halive
    exact hpending c due r hc halive hdue hr
  · intro q due r hq halive hdue hnone
    rw [Calls.shared_set] at halive hdue hnone
    rw [halive'] at halive
    by_cases hqp : q = p
    · rw [hqp, Calls.calls_set_self] at hq
      exact hheld due r hq halive hdue hnone
    · rw [Calls.calls_set_ne s w x' hqp] at hq
      exact absurd hq (hfree q r hqp)

theorem cover_other (hk : BootstrapKind.contacts ≠ k) (h : Cover s)
    (hmove : LaneMove cfg p k s.shared (s.calls p) a w' x') : Cover (s.set p w' x') := by
  generalize hx : s.calls p = x at hmove
  have hout : ∀ {x' : BootstrapStage}, (∀ r, x.held ≠ some (.contacts, r)) → (∀ r, x'.held ≠ some (.contacts, r)) →
      ∀ r, x'.held = some (.contacts, r) ↔ (s.calls p).held = some (.contacts, r) := fun hold hnew r =>
    iff_of_false (hnew r) (hx ▸ hold r)
  have hheld : ∀ {r' : BootstrapRequest} r, some (k, r') ≠ some (BootstrapKind.contacts, r) := fun r heq =>
    hk (Prod.mk.inj (Option.some.inj heq)).1.symm
  cases hmove with
  | begin | exit => exact h.same sameSession_setJob (congrArg _ (jobs_setJob_ne hk)) (hout nofun nofun)
  | take => exact h.same sameSession_setJob (congrArg _ (jobs_setJob_ne hk)) (hout nofun hheld)
  | wake => exact h.same sameSession_setJob (congrArg _ (jobs_setJob_ne hk)) (hout hheld hheld)
  | merge => exact h.same sameSession_setJob (congrArg _ (jobs_setJob_ne hk)) (hout hheld nofun)
  | done | dead | timer | run | result => exact h.same ⟨rfl, rfl, rfl, rfl, rfl⟩ rfl (hout hheld hheld)
  | settle r t result =>
    obtain ⟨j, -, -, -, -, hcases⟩ := settle_cases cfg k r t result s.shared
    have hpending := congrArg BootstrapJob.pending ((settle_jobs cfg k r t result s.shared).1 _ hk)
    have hsession : SameSession s.shared (s.shared.settle cfg k r t result) := by
      rcases hcases with ⟨-, -, hw⟩ | ⟨-, -, -, hw⟩ | ⟨-, -, -, hw⟩ <;> rw [hw]
      · exact sameSession_setJob
      · exact ⟨rfl, rfl, rfl, if_neg fun hserved => hk hserved.1.symm, rfl⟩
      · exact ⟨rfl, rfl, rfl, rfl, rfl⟩
    exact h.same hsession hpending (hout hheld nofun)

theorem cover_move (hlanes : Lanes s) (hsessions : Sessions s) (htiming : Timing cfg s) (h : Cover s)
    (hmove : LaneMove cfg p k s.shared (s.calls p) a w' x') : Cover (s.set p w' x') := by
  by_cases hk : BootstrapKind.contacts = k
  case neg => exact cover_other hk h hmove
  subst hk
  have hfree : ∀ q r, q ≠ p → (s.calls q).held ≠ some (.contacts, r) := fun q r hq => hlanes.free hmove hq
  have hdue := htiming.due p
  have hheld := h.held p
  have hannounced := hsessions.announced p .contacts
  -- what this call holds, if nothing is pending
  have hflight : ∀ c due, s.shared.ctx = some c → s.shared.Alive c → s.shared.contactRepairDue = some due →
      s.shared.started = some c ∨ s.shared.contactsRequested = true →
        (s.shared.jobs .contacts).pending ≠ none ∨ ∃ r, (s.calls p).held = some (.contacts, r) ∧ r.ctx = c := by
    intro c due hc halive hd hasked
    refine (h.inFlight c due hc halive hd hasked).imp_right ?_
    rintro ⟨q, r, hq, hr⟩
    by_cases hqp : q = p
    · exact ⟨r, hqp ▸ hq, hr⟩
    · exact absurd hq (hfree q r hqp)
  generalize hx : s.calls p = x at hmove hdue hheld hflight hannounced
  have hkept : ∀ {x' : BootstrapStage}, x'.held = x.held → Cover (s.set p s.shared x') := fun hx' =>
    h.same ⟨rfl, rfl, rfl, rfl, rfl⟩ rfl fun r => by rw [hx', hx]
  cases hmove with
  | begin hspawned | exit hpending =>
    refine h.same sameSession_setJob ?_ fun r => by rw [hx]; exact iff_of_false nofun nofun
    rw [jobs_setJob]
  | wake r due hwake =>
    refine h.same sameSession_setJob ?_ fun r => by rw [hx]; exact Iff.rfl
    rw [jobs_setJob]
  | done | dead | timer | run | result => exact hkept rfl
  | take r hpending =>
    refine Cover.step hfree rfl rfl (fun c due hc halive hd hasked => .inr ⟨r, rfl, ?_⟩) ?_ ?_
    · exact Option.some.inj ((hsessions.pending .contacts r hpending).symm.trans hc)
    · intro c due r' hc halive hd hr
      rw [jobs_setJob] at hr
      cases hr
    · intro due r' hr' halive hd hnone
      obtain ⟨-, rfl⟩ := Prod.mk.inj (Option.some.inj hr')
      exact forced_of_due hsessions h hpending halive hd
  | merge r =>
    refine Cover.step hfree rfl rfl (fun c due hc halive hd hasked => .inl ?_) (fun c due r' hc halive hd hr => ?_) nofun
    · rw [jobs_setJob]
      show (s.shared.jobs .contacts).pending.map _ ≠ none
      rw [ne_eq, Option.map_eq_none_iff]
      rcases hflight c due hc halive hd hasked with hpending | ⟨r', hr', hctx⟩
      · exact hpending
      · obtain ⟨-, rfl⟩ := Prod.mk.inj (Option.some.inj hr')
        exact hannounced r rfl (hctx ▸ halive) (.inr rfl)
    · rw [jobs_setJob] at hr
      obtain ⟨latest, hlatest, rfl⟩ := Option.map_eq_some_iff.mp hr
      exact covers_merge (h.pending c due latest hc halive hd hlatest)
  | settle r t result =>
    obtain ⟨j, -, -, -, -, hcases⟩ := settle_cases cfg .contacts r t result s.shared
    rcases hcases with ⟨hdead, hj, hw⟩ | ⟨-, -, hj, hw⟩ | ⟨hrun, -, hj, hw⟩ <;> rw [hw]
    · refine Cover.step hfree rfl rfl (fun c due hc halive hd hasked => .inl ?_) (fun c due r' hc halive hd hr => ?_) nofun
      · rw [jobs_setJob, hj]
        rcases hflight c due hc halive hd hasked with hpending | ⟨r', hr', hctx⟩
        · exact hpending
        · obtain ⟨-, rfl⟩ := Prod.mk.inj (Option.some.inj hr')
          exact absurd (hctx ▸ halive) hdead
      · rw [jobs_setJob, hj] at hr
        exact h.pending c due r' hc halive hd hr
    · -- a repair that is still due was asked for while this run was on its way
      have hstill : ∀ {due}, (if BootstrapKind.contacts = .contacts ∧ r.force = true ∧ (s.shared.contactRepairDue.all
          fun due => decide (due ≤ r.notBefore)) = true then none else s.shared.contactRepairDue) = some due →
            s.shared.contactRepairDue = some due ∧ ¬ Covers due r := by
        intro due hd
        split_ifs at hd with hserved
        refine ⟨hd, fun hcovers => hserved ⟨rfl, hcovers.1, ?_⟩⟩
        rw [hd]
        exact decide_eq_true hcovers.2
      have hjob : ((s.shared.setJob .contacts j).jobs .contacts).pending = (s.shared.jobs .contacts).pending := by
        rw [jobs_setJob, hj]
      refine Cover.step hfree rfl rfl (fun c due hc halive hd hasked => .inl fun hnone => ?_)
        (fun c due r' hc halive hd hr => h.pending c due r' hc halive (hstill hd).1 (hjob.symm.trans hr)) nofun
      have hnone := hjob.symm.trans hnone
      obtain ⟨hd, hnot⟩ := hstill hd
      rcases hflight c due hc halive hd hasked with hpending | ⟨r', hr', hctx⟩
      · exact hpending hnone
      · obtain ⟨-, rfl⟩ := Prod.mk.inj (Option.some.inj hr')
        exact hnot (hheld due r rfl (hctx ▸ halive) hd hnone)
    · have hjob : ((s.shared.setJob .contacts j).jobs .contacts).pending =
          some ((s.shared.jobs .contacts).pending.getD { r with notBefore := s.shared.now + cfg.retry }) := by
        rw [jobs_setJob, hj]
      refine Cover.step hfree rfl rfl (fun c due hc halive hd hasked => .inl fun hnone => ?_)
        (fun c due r' hc halive hd hr => ?_) nofun
      · have hnone := hjob.symm.trans hnone
        cases hnone
      · have hr := hjob.symm.trans hr
        cases hpending : (s.shared.jobs .contacts).pending with
        | some old =>
          rw [hpending] at hr
          obtain rfl := Option.some.inj hr
          exact h.pending c due old hc halive hd hpending
        | none =>
          rw [hpending] at hr
          obtain rfl := Option.some.inj hr
          obtain ⟨hforce, hle⟩ := hheld due r rfl hrun hd hpending
          cases t with
          | none => exact absurd hrun hdue
          | some t =>
            refine ⟨hforce, Nat.le_trans hle (Nat.le_trans hdue.1 (Nat.le_trans hdue.2 (Nat.le_add_right _ _)))⟩

/-! ### The sections of an idle call -/

theorem Timing.shared (h : Timing cfg s) (hnow : s.shared.now ≤ w.now) (hfailure : w.lastFailure = s.shared.lastFailure)
    (hcancelled : ∀ ctx, w.Alive ctx → s.shared.Alive ctx)
    (hlatest : ∀ force, s.shared.latest cfg force ≤ w.latest cfg force)
    (hpending : ∀ r, (w.jobs .contacts).pending = some r → w.Alive r.ctx →
      InFlight .contacts r s ∨ r.notBefore ≤ w.latest cfg r.force) : Timing cfg { s with shared := w } := by
  refine ⟨fun t ht => ?_, fun q => ?_, fun r hr hctx => ?_⟩
  · exact Nat.le_trans (h.failure t (hfailure.symm.trans ht)) hnow
  · have hdue := h.due q
    show Due w (s.calls q)
    revert hdue
    unfold Due
    split
    · exact id
    · exact fun hle => Nat.le_trans hle hnow
    · exact fun hle => ⟨hle.1, Nat.le_trans hle.2 hnow⟩
    · exact fun hle => ⟨hle.1, Nat.le_trans hle.2 hnow⟩
    · exact fun hdead halive => hdead (hcancelled _ halive)
    · exact id
  · have hold : InFlight .contacts r s → r.notBefore ≤ w.latest cfg r.force := fun hold =>
      Nat.le_trans (h.bound r hold (hcancelled _ hctx)) (hlatest r.force)
    rcases hr with hr | hr
    · exact (hpending r hr hctx).elim hold id
    · exact hold (.inr hr)

theorem latest_mono (hnow : w.now ≤ w'.now) (hdue : w'.contactRepairDue = w.contactRepairDue)
    (hfailure : w'.lastFailure = w.lastFailure) (force : Bool) : w.latest cfg force ≤ w'.latest cfg force := by
  unfold Bootstrap.latest Bootstrap.retryAt
  rw [hdue, hfailure]
  refine Nat.max_le.mpr ⟨Nat.le_trans ?_ (Nat.le_max_left _ _), Nat.le_max_right _ _⟩
  cases force with
  | false => exact hnow
  | true =>
    cases w.contactRepairDue with
    | none => exact hnow
    | some due => exact Nat.le_refl _

theorem inv_drop (h : BootstrapInv cfg s) : BootstrapInv cfg { s with shared := s.shared.dropSession } := by
  have hcancelled : ∀ ctx, s.shared.dropSession.Alive ctx → s.shared.Alive ctx ∧ s.shared.ctx ≠ some ctx := by
    refine fun ctx halive => ⟨fun hmem => halive (List.mem_append_right _ hmem), fun hctx => halive ?_⟩
    exact List.mem_append_left _ (Option.mem_toList.mpr hctx)
  have hsessions : Sessions { s with shared := s.shared.dropSession } := by
    refine ⟨nofun, h.sessions.started, nofun, fun q k r hq halive => ?_, fun q k r hq halive => ?_⟩
    · exact absurd (h.sessions.held q k r hq (hcancelled _ halive).1) (hcancelled _ halive).2
    · exact absurd (h.sessions.held q k r hq (hcancelled _ halive).1) (hcancelled _ halive).2
  exact ⟨h.lanes.shared (fun _ => rfl) h.lanes.job, hsessions, h.timing.shared (Nat.le_refl _) rfl
    (fun ctx halive => (hcancelled ctx halive).1) (fun _ => Nat.le_refl _) nofun, cover_vacuous hsessions (.inr nofun),
    h.recorded⟩

theorem inv_session (h : BootstrapInv cfg s) (hnone : s.shared.ctx = none) : BootstrapInv cfg
    { s with
      shared := { s.shared with
        sessions := s.shared.sessions + 1
        ctx := some s.shared.sessions
        contactsRequested := false } } := by
  have hpending : ∀ k r, (s.shared.jobs k).pending ≠ some r := fun k r hr => by
    have hctx := h.sessions.pending k r hr
    rw [hnone] at hctx
    cases hctx
  have hheld : ∀ q k r, (s.calls q).held = some (k, r) → ¬ s.shared.Alive r.ctx := fun q k r hq halive => by
    have hctx := h.sessions.held q k r hq halive
    rw [hnone] at hctx
    cases hctx
  refine ⟨h.lanes.shared (fun _ => rfl) h.lanes.job, ⟨fun c hc => ?_, fun c hc => ?_, fun k r hr => ?_,
    fun q k r hq halive => ?_, fun q k r hq halive => ?_⟩, ?_, ⟨fun c due hc halive hdue hasked => ?_,
    fun c due r hc halive hdue hr => ?_, fun q due r hq halive => ?_⟩, h.recorded⟩
  · obtain rfl := Option.some.inj hc
    exact Nat.lt_succ_self _
  · exact Nat.lt_succ_of_lt (h.sessions.started c hc)
  · exact absurd hr (hpending k r)
  · exact absurd halive (hheld q k r hq)
  · exact absurd halive (hheld q k r hq)
  · exact h.timing.shared (Nat.le_refl _) rfl (fun _ => id) (fun _ => Nat.le_refl _) fun r hr => absurd hr (hpending _ r)
  · obtain rfl := Option.some.inj hc
    rcases hasked with hstarted | hrequested
    · exact absurd (h.sessions.started _ hstarted) (Nat.lt_irrefl _)
    · cases hrequested
  · exact absurd hr (hpending _ r)
  · exact absurd halive (hheld q _ r hq)

theorem inv_begin {live : Bool} (h : BootstrapInv cfg s) : BootstrapInv cfg { s with shared := s.shared.begin live } := by
  unfold Bootstrap.begin
  by_cases hrefused : live = false ∨ s.shared.hasSession = true
  · rw [if_pos hrefused]
    exact h
  · rw [if_neg hrefused]
    by_cases hnone : s.shared.ctx = none
    · rw [if_pos hnone]
      exact inv_session h hnone
    · rw [if_neg hnone]
      exact inv_session (inv_drop h) rfl

theorem sessions_queue (h : Sessions s) (hctx : s.shared.ctx = some r.ctx) :
    Sessions { s with shared := s.shared.queue k r } := by
  refine ⟨h.ctx, h.started, fun k' r' hr => ?_, h.held, fun q k' r' hq halive hannounced => ?_⟩
  · by_cases hk : k' = k
    · subst hk
      have hr := pending_queue.symm.trans hr
      obtain rfl := Option.some.inj hr
      rw [ctx_merge]
      exact hctx
    · have hr : ((s.shared.queue k r).jobs k').pending = some r' := hr
      rw [jobs_queue_ne hk] at hr
      exact h.pending k' r' hr
  · by_cases hk : k' = k
    · subst hk
      intro hnone
      have hnone := pending_queue.symm.trans hnone
      cases hnone
    · have hannounced : ((s.shared.queue k r).jobs k').wake = true ∨ s.calls q = .woken k' r' := hannounced
      rw [jobs_queue_ne hk] at hannounced
      show ((s.shared.queue k r).jobs k').pending ≠ none
      rw [jobs_queue_ne hk]
      exact h.announced q k' r' hq halive hannounced

theorem timing_queue (h : Timing cfg s) (hbound : k = .contacts → r.notBefore ≤ s.shared.latest cfg r.force)
    (hforce : k = .contacts → r.force = false → s.shared.contactRepairDue = none) :
    Timing cfg { s with shared := s.shared.queue k r } := by
  refine h.shared (Nat.le_refl _) rfl (fun _ => id) (fun _ => Nat.le_refl _) fun r' hr halive => ?_
  by_cases hk : BootstrapKind.contacts = k
  · subst hk
    rw [pending_queue] at hr
    obtain rfl := Option.some.inj hr
    rw [ctx_merge] at halive
    exact .inr (bound_merge (w := s.shared) (hbound rfl) (hforce rfl) fun old hold hctx =>
      h.bound old (.inl hold) (hctx ▸ halive))
  · rw [jobs_queue_ne hk] at hr
    exact .inl (.inl hr)

theorem cover_queue (hcovers : ∀ due, s.shared.contactRepairDue = some due → Covers due r) :
    Cover { s with shared := s.shared.queue .contacts r } := by
  have hpending : ∀ r', ((s.shared.queue .contacts r).jobs .contacts).pending = some r' →
      r' = mergeBootstrapRequest r (s.shared.jobs .contacts).pending := fun r' hr =>
    (Option.some.inj (pending_queue.symm.trans hr)).symm
  refine ⟨fun c due hc halive hdue hasked => .inl fun hnone => ?_, fun c due r' hc halive hdue hr => ?_,
    fun q due r' hq halive hdue hnone => ?_⟩
  · have hnone := pending_queue.symm.trans hnone
    cases hnone
  · rw [hpending r' hr]
    exact covers_merge (hcovers due hdue)
  · have hnone := pending_queue.symm.trans hnone
    cases hnone

theorem cover_groups (h : Cover s) : Cover { s with shared := s.shared.queue .groups r } := by
  have hpending : ((s.shared.queue .groups r).jobs .contacts).pending = (s.shared.jobs .contacts).pending :=
    congrArg BootstrapJob.pending (jobs_queue_ne nofun)
  refine ⟨fun c due hc halive hdue hasked => ?_, fun c due r' hc halive hdue hr => ?_,
    fun q due r' hq halive hdue hnone => ?_⟩
  · exact (h.inFlight c due hc halive hdue hasked).imp_left fun hne hnone => hne (hpending.symm.trans hnone)
  · exact h.pending c due r' hc halive hdue (hpending.symm.trans hr)
  · exact h.held q due r' hq halive hdue (hpending.symm.trans hnone)

theorem inv_groups (h : BootstrapInv cfg s) (hctx : s.shared.ctx = some r.ctx) :
    BootstrapInv cfg { s with shared := s.shared.queue .groups r } :=
  ⟨lanes_queue h.lanes, sessions_queue h.sessions hctx, timing_queue h.timing nofun nofun, cover_groups h.cover, h.recorded⟩

theorem startRequest_spec (cfg : BootstrapConfig) (ctx : GoContext) (w : Bootstrap) : (w.startRequest ctx).ctx = ctx ∧
    (w.startRequest ctx).notBefore ≤ w.latest cfg (w.startRequest ctx).force ∧
      ((w.startRequest ctx).force = false → w.contactRepairDue = none) ∧
        ∀ due, w.contactRepairDue = some due → Covers due (w.startRequest ctx) := by
  unfold Bootstrap.startRequest Bootstrap.latest
  cases w.contactRepairDue with
  | none => exact ⟨rfl, Nat.le_max_left _ _, fun _ => rfl, nofun⟩
  | some due =>
    refine ⟨rfl, Nat.le_max_left _ _, nofun, fun due' h => ?_⟩
    obtain rfl := Option.some.inj h
    exact ⟨rfl, Nat.le_refl _⟩

theorem inv_contacts {ctx : GoContext} (h : BootstrapInv cfg s) (hctx : s.shared.ctx = some ctx) : BootstrapInv cfg
    { s with
      shared := { s.shared with
        started := some ctx }.startKind ctx .contacts } := by
  have hlanes : Lanes { s with shared := { s.shared with started := some ctx } } :=
    h.lanes.shared (fun _ => rfl) h.lanes.job
  have hsessions : Sessions { s with shared := { s.shared with started := some ctx } } := by
    refine ⟨h.sessions.ctx, fun c hc => ?_, h.sessions.pending, h.sessions.held, h.sessions.announced⟩
    obtain rfl := Option.some.inj hc
    exact h.sessions.ctx _ hctx
  have htiming : Timing cfg { s with shared := { s.shared with started := some ctx } } :=
    h.timing.shared (Nat.le_refl _) rfl (fun _ => id) (fun _ => Nat.le_refl _) fun r hr _ => .inl (.inl hr)
  unfold Bootstrap.startKind
  dsimp only
  by_cases hskip : (s.shared.jobs .contacts).lastSuccess ≠ none ∧ s.shared.contactRepairDue = none
  · rw [if_pos hskip]
    exact ⟨hlanes, hsessions, htiming, cover_vacuous hsessions (.inl hskip.2), h.recorded⟩
  · rw [if_neg hskip]
    by_cases hrequested : s.shared.contactsRequested = true
    · rw [if_pos hrequested]
      refine ⟨hlanes, hsessions, htiming, ⟨fun c due hc halive hdue _ => ?_, h.cover.pending, h.cover.held⟩, h.recorded⟩
      exact h.cover.inFlight c due hc halive hdue (.inr hrequested)
    · rw [if_neg hrequested]
      obtain ⟨hreq, hbound, hforce, hcovers⟩ := startRequest_spec cfg ctx { s.shared with started := some ctx }
      exact ⟨lanes_queue hlanes, sessions_queue hsessions (by rw [hreq]; exact hctx), timing_queue htiming
        (fun _ => hbound) fun _ => hforce,
        cover_queue (s := { s with shared := { s.shared with started := some ctx } }) hcovers, h.recorded⟩

theorem ctx_startKind {ctx : GoContext} : (w.startKind ctx k).ctx = w.ctx := by
  unfold Bootstrap.startKind
  cases k with
  | contacts =>
    dsimp only
    split_ifs <;> rfl
  | groups => rfl

theorem inv_start {ctx : GoContext} (h : BootstrapInv cfg s) : BootstrapInv cfg { s with shared := s.shared.start ctx } := by
  unfold Bootstrap.start
  by_cases hrefused : s.shared.ctx ≠ some ctx ∨ ¬ s.shared.Alive ctx
  · rw [if_pos hrefused]
    exact h
  · rw [if_neg hrefused]
    have hctx : s.shared.ctx = some ctx := not_not.mp (not_or.mp hrefused).1
    exact inv_groups (inv_contacts h hctx) (ctx_startKind.trans hctx)

theorem le_dueAfter {delay : ℕ} : w.now + delay ≤ w.dueAfter delay ∧
    ∀ old, w.contactRepairDue = some old → old ≤ w.dueAfter delay := by
  unfold Bootstrap.dueAfter
  cases w.contactRepairDue with
  | none => exact ⟨Nat.le_refl _, nofun⟩
  | some old =>
    refine ⟨Nat.le_max_left _ _, fun old' heq => ?_⟩
    obtain rfl := Option.some.inj heq
    exact Nat.le_max_right _ _

theorem latest_recordRepair {delay : ℕ} (force : Bool) : w.latest cfg force ≤ (w.recordRepair delay).latest cfg force := by
  refine Nat.max_le.mpr ⟨Nat.le_trans ?_ (Nat.le_max_left _ _), Nat.le_max_right _ _⟩
  cases force with
  | false => exact Nat.le_refl _
  | true =>
    show w.contactRepairDue.getD w.now ≤ w.dueAfter delay
    cases hold : w.contactRepairDue with
    | none => exact Nat.le_trans (Nat.le_add_right _ _) le_dueAfter.1
    | some old => exact le_dueAfter.2 old hold

theorem inv_recordRepair {delay : ℕ} (asked : Bool) (h : BootstrapInv cfg s)
    (hcover : Lanes { s with shared := { s.shared.recordRepair delay with contactsRequested := asked } } →
      Sessions { s with shared := { s.shared.recordRepair delay with contactsRequested := asked } } →
      Timing cfg { s with shared := { s.shared.recordRepair delay with contactsRequested := asked } } →
      (∀ d ∈ (s.shared.recordRepair delay).requested, ∃ due,
        (s.shared.recordRepair delay).contactRepairDue = some due ∧ d ≤ due) → BootstrapInv cfg { s with shared := w }) :
    BootstrapInv cfg { s with shared := w } := by
  refine hcover (h.lanes.shared (fun _ => rfl) h.lanes.job)
    ⟨h.sessions.ctx, h.sessions.started, h.sessions.pending, h.sessions.held, h.sessions.announced⟩
    (h.timing.shared (Nat.le_refl _) rfl (fun _ => id) latest_recordRepair fun r hr _ => .inl (.inl hr)) ?_
  refine List.forall_mem_cons.mpr ⟨⟨_, rfl, le_dueAfter.1⟩, fun d hd => ?_⟩
  obtain ⟨old, hold, hle⟩ := h.recorded d hd
  exact ⟨_, rfl, Nat.le_trans hle (le_dueAfter.2 old hold)⟩

theorem inv_request {delay : ℕ} (h : BootstrapInv cfg s) :
    BootstrapInv cfg { s with shared := s.shared.requestContactRepair delay } := by
  have hdead : (∀ c, s.shared.ctx = some c → ¬ s.shared.Alive c) →
      BootstrapInv cfg { s with shared := s.shared.recordRepair delay } := fun hdead =>
    inv_recordRepair s.shared.contactsRequested h fun hlanes hsessions htiming hrecorded =>
      ⟨hlanes, hsessions, htiming, cover_vacuous hsessions (.inr hdead), hrecorded⟩
  unfold Bootstrap.requestContactRepair
  split
  · next hctx =>
    refine hdead fun c hc => ?_
    cases hctx.symm.trans hc
  · next ctx hctx =>
    split_ifs with halive
    · -- the newest request bears the latest due time
      refine inv_recordRepair true h fun hlanes hsessions htiming hrecorded =>
        ⟨lanes_queue hlanes, sessions_queue hsessions hctx, timing_queue htiming (fun _ => Nat.le_max_left _ _)
          (fun _ => nofun), cover_queue (s := { s with shared := { s.shared.recordRepair delay with contactsRequested := true } })
          fun due hdue => ?_, hrecorded⟩
      obtain rfl := Option.some.inj hdue
      exact ⟨rfl, Nat.le_refl _⟩
    · refine hdead fun c hc => ?_
      obtain rfl := Option.some.inj (hctx.symm.trans hc)
      exact halive

/-! ### Every run -/

theorem recorded_settle {r : BootstrapRequest} {t : Option ℕ} {result : BootstrapResult}
    (h : ∀ d ∈ w.requested, ∃ due, w.contactRepairDue = some due ∧ d ≤ due)
    (hdue : Due w (.settling k r t result)) (d : ℕ) (hd : d ∈ (w.settle cfg k r t result).requested) :
    ∃ due, (w.settle cfg k r t result).contactRepairDue = some due ∧ d ≤ due := by
  obtain ⟨j, -, -, -, -, hcases⟩ := settle_cases cfg k r t result w
  rcases hcases with ⟨-, -, hw⟩ | ⟨halive, -, -, hw⟩ | ⟨-, -, -, hw⟩ <;> rw [hw] at hd ⊢
  · exact h d hd
  · have hd : d ∈ (if k = .contacts then w.requested.filter fun d => t.all fun t => decide (t < d) else w.requested) := hd
    show ∃ due, (if k = .contacts ∧ r.force = true ∧ w.contactRepairDue.all fun due => decide (due ≤ r.notBefore) then none
      else w.contactRepairDue) = some due ∧ d ≤ due
    have hmem : d ∈ w.requested := by
      split_ifs at hd
      · exact (List.mem_filter.mp hd).1
      · exact hd
    obtain ⟨due, hsome, hle⟩ := h d hmem
    rw [if_neg]
    · exact ⟨due, hsome, hle⟩
    · rintro ⟨hk, -, hall⟩
      rw [if_pos hk] at hd
      rw [hsome] at hall
      have hall : due ≤ r.notBefore := of_decide_eq_true hall
      cases t with
      | none => exact hdue halive
      | some t =>
        have hlater : t < d := of_decide_eq_true (List.mem_filter.mp hd).2
        exact Nat.not_le_of_gt hlater (Nat.le_trans hle (Nat.le_trans hall hdue.1))
  · exact h d hd

theorem recorded_move (htiming : Timing cfg s)
    (h : ∀ d ∈ s.shared.requested, ∃ due, s.shared.contactRepairDue = some due ∧ d ≤ due)
    (hmove : LaneMove cfg p k s.shared (s.calls p) a w' x') :
    ∀ d ∈ w'.requested, ∃ due, w'.contactRepairDue = some due ∧ d ≤ due := by
  have hdue := htiming.due p
  generalize s.calls p = x at hmove hdue
  cases hmove with
  | settle r t result => exact recorded_settle h hdue
  | begin | exit | take | wake | merge | done | timer | run | dead | result => exact h

theorem inv_act (h : BootstrapInv cfg s) (hact : bootstrapAct cfg p s.shared (s.calls p) a = some (w', x')) :
    BootstrapInv cfg (s.set p w' x') := by
  rcases bootstrap_move hact with ⟨hp, rfl, hsection⟩ | ⟨k, hmove⟩
  · rw [set_idle hp]
    cases hsection with
    | begin => exact inv_begin h
    | cancel => exact inv_drop h
    | start => exact inv_start h
    | request => exact inv_request h
  · exact ⟨lanes_move h.lanes hmove, sessions_move h.lanes h.sessions hmove, timing_move h.sessions h.cover h.timing hmove,
      cover_move h.lanes h.sessions h.timing h.cover hmove, recorded_move h.timing h.recorded hmove⟩

theorem inv_env {e : BootstrapEvent} (h : BootstrapInv cfg s) (he : bootstrapEnv e s.shared = some w') :
    BootstrapInv cfg { s with shared := w' } := by
  cases e with
  | tick d =>
    obtain rfl := Option.some.inj he
    exact ⟨h.lanes.shared (fun _ => rfl) h.lanes.job, ⟨h.sessions.ctx, h.sessions.started, h.sessions.pending,
      h.sessions.held, h.sessions.announced⟩, h.timing.shared (Nat.le_add_right _ _) rfl (fun _ => id)
      (latest_mono (Nat.le_add_right _ _) rfl rfl) fun r hr _ => .inl (.inl hr),
      ⟨h.cover.inFlight, h.cover.pending, h.cover.held⟩, h.recorded⟩
  | cancel ctx =>
    obtain rfl := Option.some.inj he
    have hold : ∀ c, Bootstrap.Alive c { s.shared with cancelled := ctx :: s.shared.cancelled } → s.shared.Alive c :=
      fun c halive hmem => halive (List.mem_cons_of_mem _ hmem)
    exact ⟨h.lanes.shared (fun _ => rfl) h.lanes.job, ⟨h.sessions.ctx, h.sessions.started, h.sessions.pending,
      fun q k r hq halive => h.sessions.held q k r hq (hold _ halive),
      fun q k r hq halive => h.sessions.announced q k r hq (hold _ halive)⟩,
      h.timing.shared (Nat.le_refl _) rfl hold (fun _ => Nat.le_refl _) fun r hr _ => .inl (.inl hr),
      ⟨fun c due hc halive => h.cover.inFlight c due hc (hold c halive),
        fun c due r hc halive => h.cover.pending c due r hc (hold c halive),
        fun q due r hq halive => h.cover.held q due r hq (hold _ halive)⟩, h.recorded⟩

theorem bootstrapInv_start (cfg : BootstrapConfig) : BootstrapInv cfg (Calls.start Bootstrap.new .idle) :=
  ⟨⟨fun k => owned_start rfl rfl, fun k => .inl ⟨rfl, rfl, rfl⟩⟩, ⟨nofun, nofun, nofun, nofun, nofun⟩,
    ⟨nofun, fun p => trivial, fun r hr => by rcases hr with hr | ⟨p, hp⟩ <;> contradiction⟩, ⟨nofun, nofun, nofun⟩, nofun⟩

theorem bootstrapInv_step {e : CallAction BootstrapAction BootstrapEvent} {s' : BootstrapCalls} (h : BootstrapInv cfg s)
    (hs : (bootstrapMachine cfg).step s e = some s') : BootstrapInv cfg s' := by
  cases e with
  | act p a =>
    obtain ⟨w, x, hact, rfl⟩ := Machine.step_act hs
    exact inv_act h hact
  | env e =>
    obtain ⟨w, henv, rfl⟩ := Machine.step_env hs
    exact inv_env h henv

theorem BootstrapInv.holds (h : BootstrapInv cfg s) : BootstrapHolds cfg s where
  oneRun k p q hp hq := by
    have hlane : ∀ {x : BootstrapStage}, x.runs k = true → x.inLane k = true := fun {x} hx => by
      cases x <;> simp_all [BootstrapStage.runs, BootstrapStage.inLane]
    exact (h.lanes.owned k).unique (hlane hq) (hlane hp)
  recorded := h.recorded
  covered ctx due hctx halive hstarted hdue := by
    have hbound : ∀ r, InFlight .contacts r s → r.ctx = ctx → Covers due r → ∃ r, InFlight .contacts r s ∧ r.ctx = ctx ∧
        r.force = true ∧ r.notBefore ≤ max due (s.shared.retryAt cfg) := by
      intro r hr hrctx hcovers
      refine ⟨r, hr, hrctx, hcovers.1, ?_⟩
      have hle := h.timing.bound r hr (hrctx ▸ halive)
      unfold Bootstrap.latest at hle
      rw [hcovers.1, hdue] at hle
      exact hle
    cases hpending : (s.shared.jobs .contacts).pending with
    | some r =>
      refine hbound r (.inl hpending) ?_ (h.cover.pending ctx due r hctx halive hdue hpending)
      exact Option.some.inj ((h.sessions.pending .contacts r hpending).symm.trans hctx)
    | none =>
      rcases h.cover.inFlight ctx due hctx halive hdue (.inl hstarted) with hne | ⟨p, r, hp, hrctx⟩
      · exact absurd hpending hne
      · exact hbound r (.inr ⟨p, hp⟩) hrctx (h.cover.held p due r hp (hrctx ▸ halive) hdue hpending)

/-! ### Due times that were asked for -/

theorem requested_startKind {ctx : GoContext} : (w.startKind ctx k).requested = w.requested := by
  unfold Bootstrap.startKind
  cases k with
  | contacts =>
    dsimp only
    split_ifs <;> rfl
  | groups => rfl

theorem requested_section (h : BootstrapSection w a w') : ∀ d ∈ w.requested, d ∈ w'.requested := by
  cases h with
  | begin live =>
    intro d hd
    unfold Bootstrap.begin
    split_ifs <;> exact hd
  | cancel => exact fun d hd => hd
  | start ctx =>
    intro d hd
    unfold Bootstrap.start
    split_ifs
    · exact hd
    · rw [requested_startKind, requested_startKind]
      exact hd
  | request delay =>
    intro d hd
    unfold Bootstrap.requestContactRepair
    split
    · exact List.mem_cons_of_mem _ hd
    · split_ifs <;> exact List.mem_cons_of_mem _ hd

theorem requested_request {delay : ℕ} : w.now + delay ∈ (w.requestContactRepair delay).requested := by
  unfold Bootstrap.requestContactRepair
  split
  · exact List.mem_cons_self
  · split_ifs <;> exact List.mem_cons_self

theorem served_settle {t : Option ℕ} {result : BootstrapResult} (hdue : Due w (.settling k r t result)) {d : ℕ}
    (hd : d ∈ w.requested) (hgone : d ∉ (w.settle cfg k r t result).requested) :
    k = .contacts ∧ result = .success ∧ w.Alive r.ctx ∧ ∃ t', t = some t' ∧ d ≤ t' := by
  obtain ⟨j, -, -, -, -, hcases⟩ := settle_cases cfg k r t result w
  rcases hcases with ⟨-, -, hw⟩ | ⟨halive, hresult, -, hw⟩ | ⟨-, -, -, hw⟩ <;> rw [hw] at hgone
  · exact absurd hd hgone
  · have hgone : d ∉ (if k = .contacts then w.requested.filter fun d => t.all fun t => decide (t < d)
      else w.requested) := hgone
    by_cases hk : k = .contacts
    · rw [if_pos hk, List.mem_filter, not_and] at hgone
      cases t with
      | none => exact absurd halive hdue
      | some t => exact ⟨hk, hresult, halive, t, rfl, Nat.le_of_not_gt fun hlt => hgone hd (decide_eq_true hlt)⟩
    · rw [if_neg hk] at hgone
      exact absurd hd hgone
  · exact absurd hd hgone

theorem request_step (h : BootstrapInv cfg s) {e : CallAction BootstrapAction BootstrapEvent} {s' : BootstrapCalls}
    (hs : (bootstrapMachine cfg).step s e = some s') : RequestStep s e s' := by
  cases e with
  | env e =>
    obtain ⟨w, henv, rfl⟩ := Machine.step_env hs
    have hsame : w.requested = s.shared.requested := by
      cases e <;> obtain rfl := Option.some.inj henv <;> rfl
    refine ⟨nofun, fun d hd hgone => absurd (hsame.symm ▸ hd) hgone, fun p k r t hruns hrunning => ?_⟩
    have hrunning : s.calls p = .running k r t := hrunning
    rw [hrunning] at hruns
    exact absurd hruns (by simp [BootstrapStage.runs])
  | act p a =>
    obtain ⟨w, x, hact, rfl⟩ := Machine.step_act hs
    have hact : bootstrapAct cfg p s.shared (s.calls p) a = some (w, x) := hact
    have hbegins : (∀ k r t, x = .running k r t → s.calls p ≠ x → t = s.shared.now) → ∀ q k r t,
        (s.calls q).runs k = false → (s.set p w x).calls q = .running k r t → t = s.shared.now := by
      intro hx q k r t hruns hq
      by_cases hqp : q = p
      · rw [hqp, Calls.calls_set_self] at hq
        refine hx k r t hq fun heq => ?_
        rw [hqp, heq, hq] at hruns
        exact absurd hruns (by simp [BootstrapStage.runs])
      · rw [Calls.calls_set_ne s w x hqp] at hq
        rw [hq] at hruns
        exact absurd hruns (by simp [BootstrapStage.runs])
    rcases bootstrap_move hact with ⟨hp, rfl, hsection⟩ | ⟨k, hmove⟩
    · refine ⟨fun q delay heq => ?_, fun d hd hgone => absurd (requested_section hsection d hd) hgone, hbegins nofun⟩
      obtain ⟨rfl, rfl⟩ := CallAction.act.inj heq
      cases hsection with
      | request => exact requested_request
    · have hdue := h.timing.due p
      generalize hx : s.calls p = y at hmove hdue
      have hkept : w.requested = s.shared.requested → ∀ d ∈ s.shared.requested, d ∉ w.requested → ∃ q r t,
          (CallAction.act p a : CallAction BootstrapAction BootstrapEvent) = .act q .next ∧
            s.calls q = .settling .contacts r (some t) .success ∧ d ≤ t ∧ s.shared.Alive r.ctx := fun hw d hd hgone => absurd (hw.symm ▸ hd) hgone
      cases hmove with
      | settle r t result =>
        refine ⟨fun q delay heq => (nomatch heq), fun d hd hgone => ?_, hbegins nofun⟩
        obtain ⟨rfl, rfl, halive, t', rfl, hle⟩ := served_settle hdue hd hgone
        exact ⟨p, r, t', rfl, hx, hle, halive⟩
      | run r =>
        refine ⟨fun q delay heq => (nomatch heq), hkept rfl, hbegins fun k' r' t hrunning _ => ?_⟩
        obtain ⟨-, -, rfl⟩ := BootstrapStage.running.inj hrunning
        rfl
      | begin | exit | take | wake | merge | done | timer | dead | result =>
        exact ⟨fun q delay heq => (nomatch heq), hkept rfl, hbegins nofun⟩

/-- **Contact repairs.**  In every state of every run one run of a kind is in progress at most, the recorded due time is
no earlier than any that was asked for and not served, and in a session that is alive and was started a forced request
for it is queued or held by the lane, put off no longer than to the due time or to the retry after the last failure; and
every step keeps the due times that were asked for, except that a contact run that succeeds in a live session serves
those up to its beginning. -/
theorem contact_repair (cfg : BootstrapConfig) (as : List (CallAction BootstrapAction BootstrapEvent)) :
    Always (bootstrapMachine cfg).step (BootstrapHolds cfg) (Calls.start Bootstrap.new .idle) as ∧
      Steps (bootstrapMachine cfg).step RequestStep (Calls.start Bootstrap.new .idle) as := by
  refine ⟨(always_of_step (fun s a s' h hs => bootstrapInv_step h hs) (bootstrapInv_start cfg) as).mono
    fun s h => h.holds, ?_⟩
  exact steps_of_meets (C := fun _ _ => True) (fun s a s' h _ hs => ⟨bootstrapInv_step h hs, request_step h hs⟩)
    (bootstrapInv_start cfg) (meets_of_forall fun _ _ => trivial)

end TeamInbox.Worker
