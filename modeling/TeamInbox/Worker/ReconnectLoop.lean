import TeamInbox.Worker.Reconnect

/-!
# TeamInbox.Worker.ReconnectLoop — no disconnect is lost, none is delivered late

One recovery goroutine at most, one dial at most.  A goroutine that has ended leaves nothing pending but a disconnect
that waits for its request; one that sleeps is woken by what concerns it; lifecycle events reach the handlers by
increasing generation, the last one included.

An attempt is decided under `c.mu`, its dial starts after: a terminal event that comes between the two stops only the
attempts after it.
-/

namespace TeamInbox.Worker

open TeamInbox.Lib

abbrev ReconnectCalls := Calls ReconnectState ReconnectStage

namespace ReconnectStage

def recovers : ReconnectStage → Bool
  | .top | .looking .. | .asleep .. | .queued _ | .revalidating _ | .decided .. | .dialing .. | .dialed .. | .leaving =>
    true
  | _ => false

/-- `reconnectMu` is held. -/
def holdsLane : ReconnectStage → Bool
  | .connecting | .resetting | .revalidating _ | .decided .. | .dialing .. | .dialed .. | .leaving => true
  | _ => false

/-- `connectionEventMu` is held. -/
def holdsEvents : ReconnectStage → Bool
  | .checking _ | .delivering _ | .returning => true
  | _ => false

def dials : ReconnectStage → Bool
  | .connecting | .dialing .. => true
  | _ => false

def isDecided : ReconnectStage → Bool
  | .decided .. => true
  | _ => false

/-- The generation of an event on its way to the handlers. -/
def flight : ReconnectStage → Option ℕ
  | .recorded g | .checking g | .delivering g => some g
  | _ => none

end ReconnectStage

namespace ReconnectState

/-- The caller of the last `HandleReconnect` is cancelled. -/
def CallerGone (w : ReconnectState) : Prop := ∃ ctx, w.lastRequest = some ctx ∧ ¬ w.Alive ctx

def Concerns (deadline : Option ℕ) (generation : ℕ) (w : ReconnectState) : Prop :=
  w.reconnectPending = false ∨ w.reconnectBlocked = true ∨ (deadline = none ∧ w.reconnectGeneration ≠ generation)

end ReconnectState

structure Pending (w : ReconnectState) : Prop where
  blocked : w.reconnectBlocked = true → w.reconnectPending = false
  connected : w.connected = true → w.reconnectPending = false
  request : w.reconnectPending = true → w.unhandled = true ∨ w.reconnectRequestCtx = w.lastRequest ∨ w.CallerGone ∨
    ¬ w.Alive workerCtx
  exited : w.reconnecting = none → w.reconnectPending = true → w.unhandled = true ∨ w.CallerGone ∨ ¬ w.Alive workerCtx

structure Sleepers (s : ReconnectCalls) : Prop where
  made : ∀ p, (s.calls p).recovers = true → s.shared.reconnectWake ≠ none ∧ s.shared.reconnectRequestCtx ≠ none
  woken : ∀ p ctx deadline g, s.calls p = .asleep ctx deadline g → s.shared.Concerns deadline g →
    s.shared.reconnectWake = some true

structure Generations (s : ReconnectCalls) : Prop where
  flight : ∀ p g, (s.calls p).flight = some g → 0 < g ∧ g ≤ s.shared.reconnectGeneration ∧ g ∉ s.shared.delivered ∧
    g ∉ s.shared.skipped
  distinct : ∀ p q g, (s.calls p).flight = some g → (s.calls q).flight = some g → p = q
  current : ∀ p g, s.calls p = .delivering g → ∀ g' ∈ s.shared.delivered, g' < g
  ordered : s.shared.delivered.Pairwise fun later earlier => earlier < later
  delivered : ∀ g ∈ s.shared.delivered, g ≤ s.shared.reconnectGeneration
  skipped : ∀ g ∈ s.shared.skipped, g < s.shared.reconnectGeneration
  settled : ∀ g, 0 < g → g ≤ s.shared.reconnectGeneration → g ∈ s.shared.delivered ∨ g ∈ s.shared.skipped ∨
    ∃ p, (s.calls p).flight = some g

/-- At most the dial that was decided before starts in a blocked client. -/
structure LateDials (s : ReconnectCalls) : Prop where
  none : s.shared.reconnectBlocked = false → s.shared.lateDials = 0
  one : s.shared.lateDials = 0 ∨
    (s.shared.lateDials = 1 ∧ s.shared.reconnectBlocked = true ∧ ∀ p, (s.calls p).isDecided = false)

structure ReconnectInv (s : ReconnectCalls) : Prop where
  runner : Owned ReconnectStage.recovers ReconnectState.reconnecting s
  lane : Owned ReconnectStage.holdsLane ReconnectState.reconnectMu s
  events : Owned ReconnectStage.holdsEvents ReconnectState.connectionEventMu s
  pending : Pending s.shared
  sleepers : Sleepers s
  generations : Generations s
  lateDials : LateDials s

structure ReconnectHolds (s : ReconnectCalls) : Prop where
  oneRecovery : ∀ p q, (s.calls p).recovers = true → (s.calls q).recovers = true → p = q
  oneDial : ∀ p q, (s.calls p).dials = true → (s.calls q).dials = true → p = q
  lateDials : s.shared.lateDials ≤ 1
  exited : (∀ p, (s.calls p).recovers = false) → s.shared.Alive workerCtx → ¬ s.shared.CallerGone →
    s.shared.reconnectPending = true → s.shared.reconnectBlocked = true ∨ s.shared.unhandled = true
  /-- A sleeper that has to look again can be woken. -/
  woken : ∀ p ctx deadline g, s.calls p = .asleep ctx deadline g → s.shared.Concerns deadline g →
    reconnectMachine.step s (.act p .woken) ≠ none
  ordered : s.shared.delivered.Pairwise fun later earlier => earlier < later
  notSkipped : ∀ g ∈ s.shared.skipped, g < s.shared.reconnectGeneration
  last : 0 < s.shared.reconnectGeneration → s.shared.reconnectGeneration ∈ s.shared.delivered ∨
    ∃ p, (s.calls p).flight = some s.shared.reconnectGeneration

/-- An attempt is decided only while one is due. -/
def DecidesDue (s : ReconnectCalls) (p : ℕ) (s' : ReconnectCalls) : Prop :=
  (s.calls p).isDecided = false → (s'.calls p).isDecided = true → s.shared.reconnectPending = true ∧
    s.shared.reconnectBlocked = false ∧ s.shared.Alive workerCtx ∧ ∃ ctx, s.calls p = .revalidating ctx ∧ s.shared.Alive ctx

variable {p : ℕ} {s : ReconnectCalls} {w w' : ReconnectState} {x x' : ReconnectStage} {a : ReconnectAction}

/-! ### The moves of a call -/

/-- What the call `p` can do. -/
inductive ReconnectMove (p : ℕ) (w : ReconnectState) :
    ReconnectStage → ReconnectAction → ReconnectState → ReconnectStage → Prop
  | ignore (e : LifecycleEvent) (live : Bool) : ReconnectMove p w .idle (.dispatch e live) w .idle
  | observe (e : LifecycleEvent) (live : Bool) : ReconnectMove p w .idle (.dispatch e live) w (.observed e)
  | refuse (e : LifecycleEvent) : ReconnectMove p w (.observed e) .next w .idle
  | record (e : LifecycleEvent) (g : ℕ) (w' : ReconnectState) (h : w.recordConnectionEvent e = some (g, w')) :
      ReconnectMove p w (.observed e) .next w' (.recorded g)
  | lockEvents (g : ℕ) (h : w.connectionEventMu = none) :
      ReconnectMove p w (.recorded g) .next { w with connectionEventMu := some p } (.checking g)
  | current (g : ℕ) (h : g = w.reconnectGeneration) : ReconnectMove p w (.checking g) .next w (.delivering g)
  | skip (g : ℕ) (h : g ≠ w.reconnectGeneration) :
      ReconnectMove p w (.checking g) .next { w with skipped := g :: w.skipped } .returning
  | deliver (g : ℕ) : ReconnectMove p w (.delivering g) .next { w with delivered := g :: w.delivered } .returning
  | unlockEvents : ReconnectMove p w .returning .next { w with connectionEventMu := none } .idle
  | drop (ctx : Option GoContext) (h : w.Drops (ctx.getD workerCtx)) :
      ReconnectMove p w .idle (.handle ctx) (w.called (ctx.getD workerCtx)) .idle
  | join (ctx : Option GoContext) (h : ¬ w.Drops (ctx.getD workerCtx)) (hrunning : w.reconnecting ≠ none) :
      ReconnectMove p w .idle (.handle ctx) (w.requested (ctx.getD workerCtx)).wakeReconnectLocked .idle
  | spawn (ctx : Option GoContext) (h : ¬ w.Drops (ctx.getD workerCtx)) (hnone : w.reconnecting = none) :
      ReconnectMove p w .idle (.handle ctx) { w.requested (ctx.getD workerCtx) with reconnecting := some p } .top
  | stop : ReconnectMove p w .idle .stop w.stopReconnect .stopping
  | stopped : ReconnectMove p w .stopping .next { w with cancelled := workerCtx :: w.cancelled } .idle
  | connect (h : w.reconnectMu = none) :
      ReconnectMove p w .idle .connect { w with reconnectMu := some p } .connecting
  | connected (ok : Bool) : ReconnectMove p w .connecting (.dialResult ok) { w with reconnectMu := none } .idle
  | keepAlive (h : w.reconnectMu = none) :
      ReconnectMove p w .idle .keepAlive { w with reconnectMu := some p } .resetting
  | reset : ReconnectMove p w .resetting .next { w with reconnectMu := none } .idle
  | exit (delay : ℕ) (ctx : GoContext) (hctx : w.reconnectRequestCtx = some ctx) (h : w.Exits ctx) :
      ReconnectMove p w .top (.backoff delay) { w with reconnecting := none } .idle
  | start (delay started : ℕ) (ctx : GoContext) (h : ¬ w.Exits ctx) :
      ReconnectMove p w .top (.backoff delay) { w with reconnectStartTime := some started }
        (.looking ctx (some (w.now + delay)) w.reconnectGeneration)
  | giveUp (ctx : GoContext) (deadline : Option ℕ) (g : ℕ) :
      ReconnectMove p w (.looking ctx deadline g) .next w .top
  | sleep (ctx : GoContext) (deadline : Option ℕ) (g : ℕ) (h : ¬ w.Concerns deadline g) :
      ReconnectMove p w (.looking ctx deadline g) .next w (.asleep ctx deadline g)
  | cancelled (ctx : GoContext) (deadline : Option ℕ) (g : ℕ) :
      ReconnectMove p w (.asleep ctx deadline g) .cancelled w .top
  | workerDone (ctx : GoContext) (deadline : Option ℕ) (g : ℕ) :
      ReconnectMove p w (.asleep ctx deadline g) .workerDone w .top
  | elapsed (ctx : GoContext) (deadline : ℕ) (g : ℕ) :
      ReconnectMove p w (.asleep ctx (some deadline) g) .elapsed w (.queued ctx)
  | woken (ctx : GoContext) (deadline : Option ℕ) (g : ℕ) : ReconnectMove p w (.asleep ctx deadline g) .woken
      { w with reconnectWake := some false } (.looking ctx deadline g)
  | queue (ctx : GoContext) (h : w.reconnectMu = none) :
      ReconnectMove p w (.queued ctx) .next { w with reconnectMu := some p } (.revalidating ctx)
  | abandon (ctx : GoContext) : ReconnectMove p w (.revalidating ctx) .next w .leaving
  | decide (ctx : GoContext) (n : ℕ) (h : ¬ w.Exits ctx) : ReconnectMove p w (.revalidating ctx) .next
      { w with reconnectAttemptNum := n } (.decided ctx w.reconnectGeneration)
  | leave : ReconnectMove p w .leaving .next { w with reconnectMu := none } .top
  | dial (ctx : GoContext) (g : ℕ) : ReconnectMove p w (.decided ctx g) .next
      { w with lateDials := if w.reconnectBlocked then w.lateDials + 1 else w.lateDials } (.dialing ctx g)
  | dialed (ctx : GoContext) (g : ℕ) (ok : Bool) :
      ReconnectMove p w (.dialing ctx g) (.dialResult ok) w (.dialed ctx g ok)
  | handshake (ctx : GoContext) (g : ℕ) : ReconnectMove p w (.dialed ctx g true) .next
      { w with reconnectMu := none } (.looking ctx none g)
  | failed (ctx : GoContext) (g : ℕ) : ReconnectMove p w (.dialed ctx g false) .next
      { w with reconnectMu := none } .top

theorem reconnect_move (h : reconnectAct p w x a = some (w', x')) : ReconnectMove p w x a w' x' := by
  unfold reconnectAct at h
  split at h
  · split_ifs at h <;> cases h
    · exact .ignore _ _
    · exact .observe _ _
  · split at h
    · cases h
      exact .refuse _
    · next hrecord =>
      cases h
      exact .record _ _ _ hrecord
  · split_ifs at h with hmu
    cases h
    exact .lockEvents _ hmu
  · split_ifs at h with hg <;> cases h
    · exact .current _ hg
    · exact .skip _ hg
  · cases h
    exact .deliver _
  · cases h
    exact .unlockEvents
  · dsimp only at h
    split_ifs at h with hdrop hrunning <;> cases h
    · exact .drop _ hdrop
    · exact .join _ hdrop hrunning
    · exact .spawn _ hdrop (not_not.mp hrunning)
  · cases h
    exact .stop
  · cases h
    exact .stopped
  · split_ifs at h with hmu
    cases h
    exact .connect hmu
  · cases h
    exact .connected _
  · split_ifs at h with hmu
    cases h
    exact .keepAlive hmu
  · cases h
    exact .reset
  · split at h
    · cases h
    · next ctx hctx =>
      by_cases hexits : w.Exits ctx
      · rw [if_pos hexits] at h
        cases h
        exact .exit _ _ hctx hexits
      · rw [if_neg hexits] at h
        dsimp only at h
        split_ifs at h
        cases h
        exact .start _ _ _ hexits
  · split_ifs at h with hover hchanged <;> cases h
    · exact .giveUp _ _ _
    · exact .giveUp _ _ _
    · refine .sleep _ _ _ ?_
      rintro (hpending | hblocked | hgeneration)
      · exact hover (.inl hpending)
      · exact hover (.inr hblocked)
      · exact hchanged hgeneration
  · split_ifs at h
    cases h
    exact .cancelled _ _ _
  · split_ifs at h
    cases h
    exact .workerDone _ _ _
  · split_ifs at h
    cases h
    exact .elapsed _ _ _
  · split_ifs at h
    cases h
    exact .woken _ _ _
  · split_ifs at h with hmu
    cases h
    exact .queue _ hmu
  · next ctx =>
    by_cases hexits : w.Exits ctx
    · rw [if_pos hexits] at h
      cases h
      exact .abandon _
    · rw [if_neg hexits] at h
      cases h
      exact .decide _ _ hexits
  · cases h
    exact .leave
  · cases h
    exact .dial _ _
  · cases h
    exact .dialed _ _ _
  · next ok =>
    cases ok <;> cases h
    · exact .failed _ _
    · exact .handshake _ _
  · cases h

/-! ### An event is recorded -/

structure Recorded (w : ReconnectState) (g : ℕ) (w' : ReconnectState) : Prop where
  fresh : g = w.reconnectGeneration + 1
  generation : w'.reconnectGeneration = g
  wake : w'.reconnectWake = w.reconnectWake.map fun _ => true
  request : w'.reconnectRequestCtx = w.reconnectRequestCtx
  reconnecting : w'.reconnecting = w.reconnecting
  reconnectMu : w'.reconnectMu = w.reconnectMu
  connectionEventMu : w'.connectionEventMu = w.connectionEventMu
  delivered : w'.delivered = w.delivered
  skipped : w'.skipped = w.skipped
  lateDials : w'.lateDials = w.lateDials
  blocked : w.reconnectBlocked = true → w'.reconnectBlocked = true

theorem record_cases {e : LifecycleEvent} {g : ℕ} (h : w.recordConnectionEvent e = some (g, w')) :
    Recorded w g w' ∧ (w' = w.recordConnected.nextGeneration ∨ w' = w.recordDisconnected.nextGeneration ∨
      w' = w.recordTerminal.nextGeneration) := by
  unfold ReconnectState.recordConnectionEvent at h
  split at h
  · split_ifs at h
    cases h
    exact ⟨⟨rfl, rfl, rfl, rfl, rfl, rfl, rfl, rfl, rfl, rfl, id⟩, .inl rfl⟩
  · cases h
    exact ⟨⟨rfl, rfl, rfl, rfl, rfl, rfl, rfl, rfl, rfl, rfl, id⟩, .inr (.inl rfl)⟩
  · cases h
    exact ⟨⟨rfl, rfl, rfl, rfl, rfl, rfl, rfl, rfl, rfl, rfl, fun _ => rfl⟩, .inr (.inr rfl)⟩

theorem pending_record {e : LifecycleEvent} {g : ℕ} (hw : Pending w) (h : w.recordConnectionEvent e = some (g, w')) :
    Pending w' := by
  obtain ⟨-, rfl | rfl | rfl⟩ := record_cases h
  · exact ⟨fun _ => rfl, fun _ => rfl, nofun, fun _ => nofun⟩
  · refine ⟨fun hblocked => ?_, nofun, fun _ => .inl rfl, fun _ _ => .inl rfl⟩
    have hblocked : w.reconnectBlocked = true := hblocked
    show (!w.reconnectBlocked) = false
    rw [hblocked]
    rfl
  · exact ⟨fun _ => rfl, fun _ => rfl, nofun, fun _ => nofun⟩

/-! ### What is pending -/

/-- The part of the state that `Pending` speaks of is the same, up to cancelled contexts. -/
structure SamePending (w w' : ReconnectState) : Prop where
  blocked : w'.reconnectBlocked = w.reconnectBlocked
  pending : w'.reconnectPending = w.reconnectPending
  connected : w'.connected = w.connected
  unhandled : w'.unhandled = w.unhandled
  request : w'.reconnectRequestCtx = w.reconnectRequestCtx
  caller : w'.lastRequest = w.lastRequest
  reconnecting : w'.reconnecting = w.reconnecting
  cancelled : ∀ ctx, w'.Alive ctx → w.Alive ctx

theorem callerGone_mono (hcaller : w'.lastRequest = w.lastRequest) (hcancelled : ∀ ctx, w'.Alive ctx → w.Alive ctx)
    (h : w.CallerGone) : w'.CallerGone := by
  obtain ⟨ctx, hctx, hgone⟩ := h
  exact ⟨ctx, hcaller.trans hctx, fun halive => hgone (hcancelled ctx halive)⟩

theorem Pending.same (hw : Pending w) (h : SamePending w w') : Pending w' := by
  have hgone : ¬ w.Alive workerCtx → ¬ w'.Alive workerCtx := mt (h.cancelled workerCtx)
  refine ⟨?_, ?_, ?_, ?_⟩
  · rw [h.blocked, h.pending]
    exact hw.blocked
  · rw [h.connected, h.pending]
    exact hw.connected
  · rw [h.pending, h.unhandled, h.request, h.caller]
    exact fun hpending => (hw.request hpending).imp_right (Or.imp_right
      (Or.imp (callerGone_mono h.caller h.cancelled) hgone))
  · rw [h.reconnecting, h.pending, h.unhandled]
    exact fun hnone hpending => (hw.exited hnone hpending).imp_right
      (Or.imp (callerGone_mono h.caller h.cancelled) hgone)

theorem pending_called {ctx : GoContext} (hw : Pending w) (h : w.Drops ctx) : Pending (w.called ctx) := by
  have hgone : w.reconnectPending = true → (w.called ctx).CallerGone ∨ ¬ (w.called ctx).Alive workerCtx := by
    intro hpending
    rcases h with hctx | hblocked | hconnected | hworker
    · exact .inl ⟨ctx, rfl, hctx⟩
    · rw [hw.blocked hblocked] at hpending
      cases hpending
    · rw [hw.connected hconnected] at hpending
      cases hpending
    · exact .inr hworker
  exact ⟨hw.blocked, hw.connected, fun hpending => .inr (.inr (hgone hpending)), fun _ hpending => .inr (hgone hpending)⟩

theorem pending_requested {ctx : GoContext} (h : ¬ w.Drops ctx) (hw' : w'.reconnecting ≠ none)
    (hblocked : w'.reconnectBlocked = w.reconnectBlocked) (hconnected : w'.connected = w.connected)
    (hrequest : w'.reconnectRequestCtx = w'.lastRequest) : Pending w' := by
  simp only [ReconnectState.Drops, not_or] at h
  refine ⟨fun hb => ?_, fun hc => ?_, fun _ => .inr (.inl hrequest), fun hnone => absurd hnone hw'⟩
  · exact absurd (hblocked.symm.trans hb) h.2.1
  · exact absurd (hconnected.symm.trans hc) h.2.2.1

theorem pending_exit {ctx : GoContext} (hw : Pending w) (hctx : w.reconnectRequestCtx = some ctx) (h : w.Exits ctx) :
    Pending { w with reconnecting := none } := by
  refine ⟨hw.blocked, hw.connected, hw.request, fun _ hpending => ?_⟩
  have hpending : w.reconnectPending = true := hpending
  rcases h with hblocked | hnot | hgone | hworker
  · rw [hw.blocked hblocked] at hpending
    cases hpending
  · rw [hnot] at hpending
    cases hpending
  · rcases hw.request hpending with hunhandled | hsame | hcaller | hworker
    · exact .inl hunhandled
    · exact .inr (.inl ⟨ctx, hsame.symm.trans hctx, hgone⟩)
    · exact .inr (.inl hcaller)
    · exact .inr (.inr hworker)
  · exact .inr (.inr hworker)

theorem pending_move (hmove : ReconnectMove p w x a w' x') (hw : Pending w) : Pending w' := by
  cases hmove with
  | record e g w' h => exact pending_record hw h
  | drop ctx h => exact pending_called hw h
  | join ctx h hrunning => exact pending_requested h hrunning rfl rfl rfl
  | spawn ctx h hnone => exact pending_requested h nofun rfl rfl rfl
  | stop => exact ⟨fun _ => rfl, fun _ => rfl, nofun, fun _ => nofun⟩
  | exit delay ctx hctx h => exact pending_exit hw hctx h
  | stopped =>
    exact hw.same ⟨rfl, rfl, rfl, rfl, rfl, rfl, rfl, fun ctx halive hmem => halive (List.mem_cons_of_mem _ hmem)⟩
  | ignore | observe | refuse | lockEvents | current | skip | deliver | unlockEvents | connect | connected | keepAlive
  | reset | start | giveUp | sleep | cancelled | workerDone | elapsed | woken | queue | abandon | decide | leave | dial
  | dialed | handshake | failed =>
    exact hw.same ⟨rfl, rfl, rfl, rfl, rfl, rfl, rfl, fun _ => id⟩

/-! ### The goroutine and the two locks -/

theorem runner_move (h : Owned ReconnectStage.recovers ReconnectState.reconnecting s)
    (hmove : ReconnectMove p s.shared (s.calls p) a w' x') :
    Owned ReconnectStage.recovers ReconnectState.reconnecting (s.set p w' x') := by
  generalize hx : s.calls p = x at hmove
  cases hmove with
  | record e g _ hrecord => exact h.keep hx (record_cases hrecord).1.reconnecting rfl
  | spawn ctx hdrop hnone => exact h.take hnone rfl rfl
  | exit delay ctx hctx hexits => exact h.release hx rfl rfl rfl
  | ignore | observe | refuse | lockEvents | current | skip | deliver | unlockEvents | drop | join | stop | stopped
  | connect | connected | keepAlive | reset | start | giveUp | sleep | cancelled | workerDone | elapsed | woken | queue
  | abandon | decide | leave | dial | dialed | handshake | failed => exact h.keep hx rfl rfl

theorem lane_move (h : Owned ReconnectStage.holdsLane ReconnectState.reconnectMu s)
    (hmove : ReconnectMove p s.shared (s.calls p) a w' x') :
    Owned ReconnectStage.holdsLane ReconnectState.reconnectMu (s.set p w' x') := by
  generalize hx : s.calls p = x at hmove
  cases hmove with
  | record e g _ hrecord => exact h.keep hx (record_cases hrecord).1.reconnectMu rfl
  | connect hmu | keepAlive hmu | queue _ hmu => exact h.take hmu rfl rfl
  | connected | reset | leave | handshake | failed => exact h.release hx rfl rfl rfl
  | ignore | observe | refuse | lockEvents | current | skip | deliver | unlockEvents | drop | join | spawn | stop
  | stopped | exit | start | giveUp | sleep | cancelled | workerDone | elapsed | woken | abandon | decide | dial | dialed =>
    exact h.keep hx rfl rfl

theorem events_move (h : Owned ReconnectStage.holdsEvents ReconnectState.connectionEventMu s)
    (hmove : ReconnectMove p s.shared (s.calls p) a w' x') :
    Owned ReconnectStage.holdsEvents ReconnectState.connectionEventMu (s.set p w' x') := by
  generalize hx : s.calls p = x at hmove
  cases hmove with
  | record e g _ hrecord => exact h.keep hx (record_cases hrecord).1.connectionEventMu rfl
  | lockEvents g hmu => exact h.take hmu rfl rfl
  | unlockEvents => exact h.release hx rfl rfl rfl
  | ignore | observe | refuse | current | skip | deliver | drop | join | spawn | stop | stopped | connect | connected
  | keepAlive | reset | exit | start | giveUp | sleep | cancelled | workerDone | elapsed | woken | queue | abandon
  | decide | leave | dial | dialed | handshake | failed => exact h.keep hx rfl rfl

/-! ### Sleepers -/

theorem calls_of_set {q : ℕ} {y : ReconnectStage} (h : (s.set p w x).calls q = y) (hx : x ≠ y) : s.calls q = y := by
  by_cases hq : q = p
  · rw [hq, Calls.calls_set_self] at h
    exact absurd h hx
  · rwa [Calls.calls_set_ne s w x hq] at h

theorem made_set (h : Sleepers s) (hp : s.calls p = x) (hx : x'.recovers = x.recovers)
    (hwake : s.shared.reconnectWake ≠ none → w'.reconnectWake ≠ none)
    (hrequest : s.shared.reconnectRequestCtx ≠ none → w'.reconnectRequestCtx ≠ none) (q : ℕ)
    (hq : ((s.set p w' x').calls q).recovers = true) : w'.reconnectWake ≠ none ∧ w'.reconnectRequestCtx ≠ none := by
  have hmade : s.shared.reconnectWake ≠ none ∧ s.shared.reconnectRequestCtx ≠ none := by
    by_cases hqp : q = p
    · rw [hqp, Calls.calls_set_self, hx] at hq
      exact h.made p (hp ▸ hq)
    · rw [Calls.calls_set_ne s w' x' hqp] at hq
      exact h.made q hq
  exact ⟨hwake hmade.1, hrequest hmade.2⟩

theorem Sleepers.keep (h : Sleepers s) (hp : s.calls p = x) (hx : x'.recovers = x.recovers)
    (hasleep : ∀ ctx deadline g, x' ≠ .asleep ctx deadline g) (hwake : w'.reconnectWake = s.shared.reconnectWake)
    (hrequest : w'.reconnectRequestCtx = s.shared.reconnectRequestCtx)
    (hconcerns : ∀ deadline g, w'.Concerns deadline g → s.shared.Concerns deadline g) : Sleepers (s.set p w' x') := by
  refine ⟨made_set h hp hx (fun hne => hwake ▸ hne) (fun hne => hrequest ▸ hne), fun q ctx deadline g hq hc => ?_⟩
  rw [Calls.shared_set, hwake]
  exact h.woken q ctx deadline g (calls_of_set hq (hasleep ctx deadline g)) (hconcerns deadline g hc)

theorem Sleepers.wake (h : Sleepers s) (hp : s.calls p = x) (hx : x'.recovers = x.recovers)
    (hwake : w'.reconnectWake = s.shared.reconnectWake.map fun _ => true)
    (hasleep : ∀ ctx deadline g, x' ≠ .asleep ctx deadline g)
    (hrequest : s.shared.reconnectRequestCtx ≠ none → w'.reconnectRequestCtx ≠ none) : Sleepers (s.set p w' x') := by
  have hne : s.shared.reconnectWake ≠ none → w'.reconnectWake = some true := fun hne => by
    obtain ⟨b, hb⟩ := Option.ne_none_iff_exists'.mp hne
    rw [hwake, hb]
    rfl
  refine ⟨made_set h hp hx (fun hw => by rw [hne hw]; exact nofun) hrequest, fun q ctx deadline g hq _ => ?_⟩
  refine hne (h.made q ?_).1
  rw [calls_of_set hq (hasleep ctx deadline g)]
  rfl

theorem sleepers_move (hrunner : Owned ReconnectStage.recovers ReconnectState.reconnecting s) (h : Sleepers s)
    (hmove : ReconnectMove p s.shared (s.calls p) a w' x') : Sleepers (s.set p w' x') := by
  have halone : ∀ {q : ℕ}, (s.calls p).recovers = true → (s.calls q).recovers = true → q = p := hrunner.unique
  generalize hx : s.calls p = x at hmove
  cases hmove with
  | record e g _ hrecord =>
    obtain ⟨hrecorded, -⟩ := record_cases hrecord
    exact h.wake hx rfl hrecorded.wake nofun fun hne => hrecorded.request ▸ hne
  | stop => exact h.wake hx rfl rfl nofun id
  | join ctx hdrop hrunning =>
    obtain ⟨r, hr⟩ := Option.ne_none_iff_exists'.mp hrunning
    obtain ⟨b, hb⟩ := Option.ne_none_iff_exists'.mp (h.made r ((hrunner r).mp hr)).1
    refine h.wake hx rfl ?_ nofun fun _ => nofun
    show (s.shared.reconnectWake.or (some false)).map _ = _
    rw [hb]
    rfl
  | spawn ctx hdrop hnone =>
    refine ⟨fun q _ => ⟨?_, nofun⟩, fun q ctx' deadline g hq _ => ?_⟩
    · show s.shared.reconnectWake.or (some false) ≠ none
      cases s.shared.reconnectWake <;> exact nofun
    · have hq := calls_of_set hq nofun
      have hfree := hrunner.none_of_free hnone (p := q)
      rw [hq] at hfree
      cases hfree
  | exit delay ctx hctx hexits =>
    have hothers : ∀ q, ((s.set p { s.shared with reconnecting := none } .idle).calls q).recovers = false := fun q => by
      by_cases hq : q = p
      · rw [hq, Calls.calls_set_self]
        rfl
      · rw [Calls.calls_set_ne s _ _ hq]
        exact Bool.eq_false_iff.mpr fun hrec => hq (halone (congrArg ReconnectStage.recovers hx) hrec)
    refine ⟨fun q hq => absurd hq (by rw [hothers q]; exact nofun), fun q ctx' deadline g hq _ => ?_⟩
    have hq' := hothers q
    rw [hq] at hq'
    cases hq'
  | sleep ctx deadline g hsleep =>
    refine ⟨made_set h hx rfl id id, fun q ctx' deadline' g' hq hc => ?_⟩
    have hqp : q = p := by
      by_contra hne
      rw [Calls.calls_set_ne s _ _ hne] at hq
      exact hne (halone (congrArg ReconnectStage.recovers hx) (congrArg ReconnectStage.recovers hq))
    rw [hqp, Calls.calls_set_self] at hq
    cases hq
    exact absurd hc hsleep
  | woken ctx deadline g =>
    refine ⟨made_set h hx rfl (fun _ => nofun) id, fun q ctx' deadline' g' hq _ => ?_⟩
    have hqp : q = p := halone (congrArg ReconnectStage.recovers hx)
      (congrArg ReconnectStage.recovers (calls_of_set hq nofun))
    rw [hqp, Calls.calls_set_self] at hq
    cases hq
  | ignore | observe | refuse | lockEvents | current | skip | deliver | unlockEvents | drop | stopped | connect | connected
  | keepAlive | reset | start | giveUp | cancelled | workerDone | elapsed | queue | abandon | decide | leave | dial
  | dialed | handshake | failed => exact h.keep hx rfl nofun rfl rfl fun _ _ => id

/-! ### Generations -/

theorem flight_keep (hp : s.calls p = x) (hx : x'.flight = x.flight) (q : ℕ) :
    ((s.set p w' x').calls q).flight = (s.calls q).flight := by
  by_cases hq : q = p
  · rw [hq, Calls.calls_set_self, hp, hx]
  · rw [Calls.calls_set_ne s w' x' hq]

theorem Generations.keep (h : Generations s) (hp : s.calls p = x) (hx : x'.flight = x.flight)
    (hdelivering : ∀ g, x' = .delivering g → ∀ g' ∈ s.shared.delivered, g' < g)
    (hgeneration : w'.reconnectGeneration = s.shared.reconnectGeneration) (hdelivered : w'.delivered = s.shared.delivered)
    (hskipped : w'.skipped = s.shared.skipped) : Generations (s.set p w' x') := by
  constructor
  · intro q g hq
    rw [Calls.shared_set, hgeneration, hdelivered, hskipped]
    exact h.flight q g ((flight_keep hp hx q).symm.trans hq)
  · intro q r g hq hr
    exact h.distinct q r g ((flight_keep hp hx q).symm.trans hq) ((flight_keep hp hx r).symm.trans hr)
  · intro q g hq
    rw [Calls.shared_set, hdelivered]
    by_cases hqp : q = p
    · rw [hqp, Calls.calls_set_self] at hq
      exact hdelivering g hq
    · rw [Calls.calls_set_ne s w' x' hqp] at hq
      exact h.current q g hq
  · rw [Calls.shared_set, hdelivered]
    exact h.ordered
  · rw [Calls.shared_set, hdelivered, hgeneration]
    exact h.delivered
  · rw [Calls.shared_set, hskipped, hgeneration]
    exact h.skipped
  · intro g hpos hle
    rw [Calls.shared_set, hgeneration] at hle
    rw [Calls.shared_set, hdelivered, hskipped]
    exact (h.settled g hpos hle).imp_right (Or.imp_right fun ⟨q, hq⟩ => ⟨q, (flight_keep hp hx q).trans hq⟩)

theorem Generations.record {g : ℕ} (h : Generations s) (hp : (s.calls p).flight = none) (hw : Recorded s.shared g w') :
    Generations (s.set p w' (.recorded g)) := by
  have hset : ∀ q g', ((s.set p w' (.recorded g)).calls q).flight = some g' →
      (q = p ∧ g' = g) ∨ (q ≠ p ∧ (s.calls q).flight = some g' ∧ g' < g) := fun q g' hq => by
    by_cases hqp : q = p
    · rw [hqp, Calls.calls_set_self] at hq
      exact .inl ⟨hqp, (Option.some.inj hq).symm⟩
    · rw [Calls.calls_set_ne s _ _ hqp] at hq
      have hle := (h.flight q g' hq).2.1
      have hfresh := hw.fresh
      exact .inr ⟨hqp, hq, by omega⟩
  have hfresh := hw.fresh
  constructor
  · intro q g' hq
    rw [Calls.shared_set, hw.generation, hw.delivered, hw.skipped]
    rcases hset q g' hq with ⟨-, rfl⟩ | ⟨-, hq, hlt⟩
    · refine ⟨by omega, Nat.le_refl _, fun hmem => ?_, fun hmem => ?_⟩
      · have hle := h.delivered _ hmem
        omega
      · have hlt := h.skipped _ hmem
        omega
    · obtain ⟨hpos, -, hnot⟩ := h.flight q g' hq
      exact ⟨hpos, Nat.le_of_lt hlt, hnot⟩
  · intro q r g' hq hr
    rcases hset q g' hq with ⟨hqp, hg⟩ | ⟨-, hq, hlt⟩ <;> rcases hset r g' hr with ⟨hrp, hg'⟩ | ⟨-, hr, hlt'⟩
    · exact hqp.trans hrp.symm
    · omega
    · omega
    · exact h.distinct q r g' hq hr
  · intro q g' hq
    rw [Calls.shared_set, hw.delivered]
    exact h.current q g' (calls_of_set hq nofun)
  · rw [Calls.shared_set, hw.delivered]
    exact h.ordered
  · intro g' hmem
    rw [Calls.shared_set, hw.delivered] at hmem
    rw [Calls.shared_set, hw.generation]
    have hle := h.delivered g' hmem
    omega
  · intro g' hmem
    rw [Calls.shared_set, hw.skipped] at hmem
    rw [Calls.shared_set, hw.generation]
    have hlt := h.skipped g' hmem
    omega
  · intro g' hpos hle
    rw [Calls.shared_set, hw.generation] at hle
    rw [Calls.shared_set, hw.delivered, hw.skipped]
    by_cases hg : g' = g
    · refine .inr (.inr ⟨p, ?_⟩)
      rw [Calls.calls_set_self, hg]
      rfl
    · refine (h.settled g' hpos (by omega)).imp_right (Or.imp_right ?_)
      rintro ⟨q, hq⟩
      refine ⟨q, ?_⟩
      rw [Calls.calls_set_ne]
      · exact hq
      · rintro rfl
        rw [hp] at hq
        cases hq

theorem Generations.settle {g : ℕ} (h : Generations s) (hevents : Owned ReconnectStage.holdsEvents
    ReconnectState.connectionEventMu s) (hp : (s.calls p).flight = some g) (hholds : (s.calls p).holdsEvents = true)
    (hgeneration : w'.reconnectGeneration = s.shared.reconnectGeneration)
    (hw : (s.calls p = .delivering g ∧ w'.delivered = g :: s.shared.delivered ∧ w'.skipped = s.shared.skipped) ∨
      (g < s.shared.reconnectGeneration ∧ w'.delivered = s.shared.delivered ∧ w'.skipped = g :: s.shared.skipped)) :
    Generations (s.set p w' .returning) := by
  have hset : ∀ q g', ((s.set p w' .returning).calls q).flight = some g' →
      q ≠ p ∧ (s.calls q).flight = some g' ∧ g' ≠ g := fun q g' hq => by
    have hqp : q ≠ p := by
      rintro rfl
      rw [Calls.calls_set_self] at hq
      cases hq
    rw [Calls.calls_set_ne s _ _ hqp] at hq
    exact ⟨hqp, hq, fun hg => hqp (h.distinct q p g' hq (hg ▸ hp))⟩
  have hnodelivery : ∀ q g', (s.set p w' .returning).calls q ≠ .delivering g' := fun q g' hq => by
    have hqp : q ≠ p := by
      rintro rfl
      rw [Calls.calls_set_self] at hq
      cases hq
    rw [Calls.calls_set_ne s _ _ hqp] at hq
    exact hqp (hevents.unique hholds (congrArg ReconnectStage.holdsEvents hq))
  have hle := (h.flight p g hp).2.1
  have hmem : ∀ g', (g' ∈ w'.delivered ∨ g' ∈ w'.skipped) ↔
      g' = g ∨ g' ∈ s.shared.delivered ∨ g' ∈ s.shared.skipped := fun g' => by
    rcases hw with ⟨-, hdelivered, hskipped⟩ | ⟨-, hdelivered, hskipped⟩ <;> rw [hdelivered, hskipped, List.mem_cons]
    · exact or_assoc
    · exact or_left_comm
  constructor
  · intro q g' hq
    obtain ⟨-, hq, hne⟩ := hset q g' hq
    obtain ⟨hpos, hle', hdelivered, hskipped⟩ := h.flight q g' hq
    rw [Calls.shared_set, hgeneration]
    have hnot : ¬ (g' ∈ w'.delivered ∨ g' ∈ w'.skipped) := fun h' =>
      ((hmem g').mp h').elim hne fun h' => h'.elim hdelivered hskipped
    exact ⟨hpos, hle', not_or.mp hnot⟩
  · exact fun q r g' hq hr => h.distinct q r g' (hset q g' hq).2.1 (hset r g' hr).2.1
  · exact fun q g' hq => absurd hq (hnodelivery q g')
  · rw [Calls.shared_set]
    rcases hw with ⟨hdelivering, hdelivered, -⟩ | ⟨-, hdelivered, -⟩ <;> rw [hdelivered]
    · exact List.pairwise_cons.mpr ⟨h.current p g hdelivering, h.ordered⟩
    · exact h.ordered
  · intro g' hg'
    rw [Calls.shared_set] at hg' ⊢
    rw [hgeneration]
    rcases hw with ⟨-, hdelivered, -⟩ | ⟨-, hdelivered, -⟩ <;> rw [hdelivered] at hg'
    · rcases List.mem_cons.mp hg' with rfl | hg'
      · exact hle
      · exact h.delivered g' hg'
    · exact h.delivered g' hg'
  · intro g' hg'
    rw [Calls.shared_set] at hg' ⊢
    rw [hgeneration]
    rcases hw with ⟨-, -, hskipped⟩ | ⟨hlt, -, hskipped⟩ <;> rw [hskipped] at hg'
    · exact h.skipped g' hg'
    · rcases List.mem_cons.mp hg' with rfl | hg'
      · exact hlt
      · exact h.skipped g' hg'
  · intro g' hpos hle'
    rw [Calls.shared_set, hgeneration] at hle'
    rw [Calls.shared_set, ← or_assoc, hmem g']
    rcases h.settled g' hpos hle' with hdelivered | hskipped | ⟨q, hq⟩
    · exact .inl (.inr (.inl hdelivered))
    · exact .inl (.inr (.inr hskipped))
    · by_cases hqp : q = p
      · rw [hqp, hp] at hq
        exact .inl (.inl (Option.some.inj hq).symm)
      · refine .inr ⟨q, ?_⟩
        rw [Calls.calls_set_ne s _ _ hqp]
        exact hq

theorem generations_move (hevents : Owned ReconnectStage.holdsEvents ReconnectState.connectionEventMu s)
    (h : Generations s) (hmove : ReconnectMove p s.shared (s.calls p) a w' x') : Generations (s.set p w' x') := by
  generalize hx : s.calls p = x at hmove
  cases hmove with
  | record e g _ hrecord => exact h.record (by rw [hx]; rfl) (record_cases hrecord).1
  | current g hg =>
    refine h.keep hx rfl (fun g' hg' d hd => ?_) rfl rfl rfl
    cases hg'
    obtain ⟨-, -, hnot, -⟩ := h.flight p g (by rw [hx]; rfl)
    exact Nat.lt_of_le_of_ne (hg ▸ h.delivered d hd) fun heq => hnot (heq ▸ hd)
  | skip g hg =>
    have hflight : (s.calls p).flight = some g := by rw [hx]; rfl
    exact h.settle hevents hflight (by rw [hx]; rfl) rfl
      (.inr ⟨Nat.lt_of_le_of_ne (h.flight p g hflight).2.1 hg, rfl, rfl⟩)
  | deliver g =>
    exact h.settle hevents (by rw [hx]; rfl) (by rw [hx]; rfl) rfl (.inl ⟨hx, rfl, rfl⟩)
  | ignore | observe | refuse | lockEvents | unlockEvents | drop | join | spawn | stop | stopped | connect | connected
  | keepAlive | reset | exit | start | giveUp | sleep | cancelled | workerDone | elapsed | woken | queue | abandon
  | decide | leave | dial | dialed | handshake | failed => exact h.keep hx rfl nofun rfl rfl rfl

/-! ### Dials after a terminal event -/

theorem LateDials.keep (h : LateDials s) (hlate : w'.lateDials = s.shared.lateDials)
    (hblocked : s.shared.reconnectBlocked = true → w'.reconnectBlocked = true)
    (hdecided : x'.isDecided = true → s.shared.reconnectBlocked = false) : LateDials (s.set p w' x') := by
  refine ⟨fun hnot => ?_, ?_⟩
  · rw [Calls.shared_set, hlate]
    refine h.none (Bool.eq_false_iff.mpr fun hb => ?_)
    rw [Calls.shared_set, hblocked hb] at hnot
    cases hnot
  · rw [Calls.shared_set, hlate]
    refine h.one.imp_right fun ⟨hone, hb, hnone⟩ => ⟨hone, hblocked hb, fun q => ?_⟩
    by_cases hq : q = p
    · rw [hq, Calls.calls_set_self]
      refine Bool.eq_false_iff.mpr fun hx => ?_
      rw [hdecided hx] at hb
      cases hb
    · rw [Calls.calls_set_ne s _ _ hq]
      exact hnone q

theorem not_exits {ctx : GoContext} (h : ¬ w.Exits ctx) : w.reconnectPending = true ∧ w.reconnectBlocked = false ∧
    w.Alive workerCtx ∧ w.Alive ctx := by
  simp only [ReconnectState.Exits, not_or, Bool.not_eq_true, Bool.not_eq_false, not_not] at h
  exact ⟨h.2.1, h.1, h.2.2.2, h.2.2.1⟩

theorem lateDials_move (hrunner : Owned ReconnectStage.recovers ReconnectState.reconnecting s) (h : LateDials s)
    (hmove : ReconnectMove p s.shared (s.calls p) a w' x') : LateDials (s.set p w' x') := by
  generalize hx : s.calls p = x at hmove
  cases hmove with
  | record e g _ hrecord => exact h.keep (record_cases hrecord).1.lateDials (record_cases hrecord).1.blocked nofun
  | stop => exact h.keep rfl (fun _ => rfl) nofun
  | decide ctx n hdue => exact h.keep rfl id fun _ => (not_exits hdue).2.1
  | dial ctx g =>
    have hothers : ∀ w q, ((s.set p w (.dialing ctx g)).calls q).isDecided = false := fun w q => by
      by_cases hq : q = p
      · rw [hq, Calls.calls_set_self]
        rfl
      · rw [Calls.calls_set_ne s _ _ hq]
        refine Bool.eq_false_iff.mpr fun hdecided => hq (hrunner.unique (congrArg ReconnectStage.recovers hx) ?_)
        revert hdecided
        cases s.calls q <;> simp [ReconnectStage.isDecided, ReconnectStage.recovers]
    by_cases hb : s.shared.reconnectBlocked = true
    · have hzero : s.shared.lateDials = 0 := h.one.resolve_right fun ⟨_, _, hnone⟩ => by
        have hp := hnone p
        rw [hx] at hp
        cases hp
      rw [if_pos hb]
      refine ⟨fun hnot => ?_, .inr ⟨congrArg (· + 1) hzero, hb, hothers _⟩⟩
      exact absurd (hb.symm.trans hnot) nofun
    · rw [if_neg hb]
      exact h.keep rfl id nofun
  | ignore | observe | refuse | lockEvents | current | skip | deliver | unlockEvents | drop | join | spawn | stopped
  | connect | connected | keepAlive | reset | exit | start | giveUp | sleep | cancelled | workerDone | elapsed | woken
  | queue | abandon | leave | dialed | handshake | failed => exact h.keep rfl id nofun

/-! ### Every run -/

theorem reconnectInv_start : ReconnectInv (Calls.start ReconnectState.new .idle) where
  runner := owned_start rfl rfl
  lane := owned_start rfl rfl
  events := owned_start rfl rfl
  pending := ⟨nofun, nofun, nofun, fun _ => nofun⟩
  sleepers := ⟨nofun, nofun⟩
  generations := ⟨nofun, nofun, nofun, .nil, nofun, nofun, fun g hpos hle => by
    have hle : g ≤ 0 := hle
    omega⟩
  lateDials := ⟨fun _ => rfl, .inl rfl⟩

theorem reconnectInv_move (h : ReconnectInv s) (hmove : ReconnectMove p s.shared (s.calls p) a w' x') :
    ReconnectInv (s.set p w' x') where
  runner := runner_move h.runner hmove
  lane := lane_move h.lane hmove
  events := events_move h.events hmove
  pending := pending_move hmove h.pending
  sleepers := sleepers_move h.runner h.sleepers hmove
  generations := generations_move h.events h.generations hmove
  lateDials := lateDials_move h.runner h.lateDials hmove

theorem reconnectInv_env {e : ReconnectEvent} (h : ReconnectInv s) (he : reconnectEnv e s.shared = some w') :
    ReconnectInv { s with shared := w' } := by
  cases e with
  | tick d =>
    obtain rfl := Option.some.inj he
    refine ⟨h.runner, h.lane, h.events, h.pending.same ⟨rfl, rfl, rfl, rfl, rfl, rfl, rfl, fun _ => id⟩,
      ⟨h.sleepers.made, h.sleepers.woken⟩, ?_, ⟨h.lateDials.none, h.lateDials.one⟩⟩
    obtain ⟨h₁, h₂, h₃, h₄, h₅, h₆, h₇⟩ := h.generations
    exact ⟨h₁, h₂, h₃, h₄, h₅, h₆, h₇⟩
  | cancel ctx =>
    obtain rfl := Option.some.inj he
    refine ⟨h.runner, h.lane, h.events, h.pending.same ⟨rfl, rfl, rfl, rfl, rfl, rfl, rfl, fun ctx halive hmem =>
      halive (List.mem_cons_of_mem _ hmem)⟩, ⟨h.sleepers.made, h.sleepers.woken⟩, ?_, ⟨h.lateDials.none, h.lateDials.one⟩⟩
    obtain ⟨h₁, h₂, h₃, h₄, h₅, h₆, h₇⟩ := h.generations
    exact ⟨h₁, h₂, h₃, h₄, h₅, h₆, h₇⟩

theorem reconnect_inv (as : List (CallAction ReconnectAction ReconnectEvent)) :
    Always reconnectMachine.step ReconnectInv (Calls.start ReconnectState.new .idle) as := by
  refine always_of_step (fun s a s' h hs => ?_) reconnectInv_start as
  cases a with
  | act p a =>
    obtain ⟨w, x, hact, rfl⟩ := Machine.step_act hs
    exact reconnectInv_move h (reconnect_move hact)
  | env e =>
    obtain ⟨w, henv, rfl⟩ := Machine.step_env hs
    exact reconnectInv_env h henv

theorem holdsLane_of_dials (h : x.dials = true) : x.holdsLane = true := by
  cases x <;> simp_all [ReconnectStage.dials, ReconnectStage.holdsLane]

theorem ReconnectInv.holds (h : ReconnectInv s) : ReconnectHolds s where
  oneRecovery p q hp hq := h.runner.unique hq hp
  oneDial p q hp hq := h.lane.unique (holdsLane_of_dials hq) (holdsLane_of_dials hp)
  lateDials := by
    rcases h.lateDials.one with hzero | ⟨hone, -, -⟩
    · omega
    · omega
  exited hnone hworker hcaller hpending := by
    have hfree : s.shared.reconnecting = none := by
      cases hr : s.shared.reconnecting with
      | none => rfl
      | some p =>
        have hp := (h.runner p).mp hr
        rw [hnone p] at hp
        cases hp
    rcases h.pending.exited hfree hpending with hunhandled | hgone | hdone
    · exact .inr hunhandled
    · exact absurd hgone hcaller
    · exact absurd hworker hdone
  woken p ctx deadline g hp hconcerns := by
    have hwake := h.sleepers.woken p ctx deadline g hp hconcerns
    have hact : reconnectAct p s.shared (.asleep ctx deadline g) .woken =
        some ({ s.shared with reconnectWake := some false }, .looking ctx deadline g) := if_pos hwake
    show (reconnectAct p s.shared (s.calls p) .woken).map _ ≠ none
    rw [hp, hact]
    exact nofun
  ordered := h.generations.ordered
  notSkipped := h.generations.skipped
  last hpos := by
    rcases h.generations.settled _ hpos (Nat.le_refl _) with hdelivered | hskipped | hflight
    · exact .inl hdelivered
    · have hlt := h.generations.skipped _ hskipped
      omega
    · exact .inr hflight

theorem decides_due (hmove : ReconnectMove p s.shared (s.calls p) a w' x') : DecidesDue s p (s.set p w' x') := by
  intro hbefore hafter
  rw [Calls.calls_set_self] at hafter
  generalize hx : s.calls p = x at hmove
  cases hmove with
  | decide ctx n hdue =>
    obtain ⟨hpending, hblocked, hworker, hctx⟩ := not_exits hdue
    exact ⟨hpending, hblocked, hworker, ctx, rfl, hctx⟩
  | _ => cases hafter

/-- **The reconnect loop.**  In every state of every run there is one recovery goroutine at most and one dial at most;
a goroutine that has ended while its contexts live has left nothing pending but a disconnect that waits for its request,
and one that sleeps can be woken when something concerns it; the generations that were delivered increase, and the last
one is delivered or on its way.  An attempt is decided only while it is due; after a terminal event or a stop one dial at
most starts, which was decided before. -/
theorem reconnect_loop (as : List (CallAction ReconnectAction ReconnectEvent)) :
    Always reconnectMachine.step ReconnectHolds (Calls.start ReconnectState.new .idle) as ∧
      Steps reconnectMachine.step (fun s a s' => ∀ p b, a = .act p b → DecidesDue s p s')
        (Calls.start ReconnectState.new .idle) as := by
  refine ⟨(reconnect_inv as).mono fun s h => h.holds, ?_⟩
  refine steps_of_meets (I := fun _ => True) (C := fun _ _ => True) (fun s a s' _ _ hs => ⟨trivial, ?_⟩) trivial
    (meets_of_forall fun _ _ => trivial)
  rintro p b rfl
  obtain ⟨w, x, hact, rfl⟩ := Machine.step_act hs
  exact decides_due (reconnect_move hact)

/-- A disconnect and its request; the delay passes and the attempt is decided.  Then the account is logged out. -/
def loggedOutRun : List (CallAction ReconnectAction ReconnectEvent) :=
  [.act 0 (.dispatch .disconnected true), .act 0 .next, .act 1 (.handle none), .act 1 (.backoff 2000), .act 1 .next,
    .env (.tick 2000), .act 1 .elapsed, .act 1 .next, .act 1 .next, .act 2 (.dispatch .loggedOut true), .act 2 .next]

/-- The dial starts after the terminal event. -/
theorem dial_after_loggedOut : ∃ s s', runActions reconnectMachine.step (Calls.start ReconnectState.new .idle)
    loggedOutRun = some s ∧ reconnectMachine.step s (.act 1 .next) = some s' ∧ s.shared.reconnectBlocked = true ∧
      (s.calls 1).dials = false ∧ (s'.calls 1).dials = true := ⟨_, _, rfl, rfl, rfl, rfl, rfl⟩

end TeamInbox.Worker
