import Mathlib.Algebra.Group.Nat.Defs
import TeamInbox.Lib.Calls
import Mathlib.Tactic.SplitIfs
import Mathlib.Tactic.Cases

/-!
# TeamInbox.Worker.Reconnect — lifecycle events and the recovery goroutine

`recordConnectionEvent` and `dispatchPreparedEvent`, `HandleReconnect` with the goroutine it starts, `reconnectWait`
and `StopReconnect` as calls over the state of one client.  A section under `c.mu` is one step; between two of them
other calls run.  `reconnectMu` is the dial lane, `connectionEventMu` orders the delivery of events, `reconnectWake` is
a channel with one slot.  Durations are in milliseconds; a timer fires at any time from its deadline on, a dial ends as
it likes.

For the record, a state keeps the generations that were delivered and skipped (latest first), whether a disconnect waits
for its `HandleReconnect`, the context of the last `HandleReconnect`, and the dials that started after a terminal event.
-/

namespace TeamInbox.Worker

open TeamInbox.Lib

/-- A `context.Context`. -/
abbrev GoContext := ℕ

/-- `c.ctx`. -/
def workerCtx : GoContext := 0

inductive LifecycleEvent
  | connected
  | disconnected
  | loggedOut
  | streamReplaced
  | temporaryBan
  | clientOutdated
  | connectFailure
  | catRefreshError
  deriving DecidableEq

def stableConnectionDuration : ℕ := 5 * 60 * 1000

def initialBackoff : ℕ := 2 * 1000

def maxTransientBackoff : ℕ := 30 * 1000

def transientPhaseDuration : ℕ := 5 * 60 * 1000

def persistentBackoff : ℕ := 2 * 60 * 1000

/-- The delay of `calculateBackoff` before the jitter. -/
def baseDuration (elapsed attempt : ℕ) : ℕ :=
  if elapsed < transientPhaseDuration then
    if attempt < 4 then initialBackoff * 2 ^ attempt else maxTransientBackoff
  else persistentBackoff

def Jittered (base delay : ℕ) : Prop := 9 * base ≤ 10 * delay ∧ 10 * delay ≤ 11 * base

instance (base delay : ℕ) : Decidable (Jittered base delay) := inferInstanceAs (Decidable (_ ∧ _))

structure ReconnectState where
  now : ℕ
  cancelled : List GoContext
  connected : Bool
  connectedAt : Option ℕ
  /-- `sessionCtx`, while it is not cancelled. -/
  sessionCtx : Option ℕ
  sessions : ℕ
  /-- `reconnecting`, with the goroutine that runs. -/
  reconnecting : Option ℕ
  reconnectStartTime : Option ℕ
  reconnectAttemptNum : ℕ
  reconnectPending : Bool
  reconnectBlocked : Bool
  reconnectGeneration : ℕ
  /-- Whether the slot is taken; the channel is made by the first request. -/
  reconnectWake : Option Bool
  reconnectRequestCtx : Option GoContext
  reconnectMu : Option ℕ
  connectionEventMu : Option ℕ
  delivered : List ℕ
  skipped : List ℕ
  unhandled : Bool
  lastRequest : Option GoContext
  lateDials : ℕ
  deriving DecidableEq

namespace ReconnectState

def new : ReconnectState where
  now := 0
  cancelled := []
  connected := false
  connectedAt := none
  sessionCtx := none
  sessions := 0
  reconnecting := none
  reconnectStartTime := none
  reconnectAttemptNum := 0
  reconnectPending := false
  reconnectBlocked := false
  reconnectGeneration := 0
  reconnectWake := none
  reconnectRequestCtx := none
  reconnectMu := none
  connectionEventMu := none
  delivered := []
  skipped := []
  unhandled := false
  lastRequest := none
  lateDials := 0

/-- `ctx.Err() == nil`. -/
def Alive (ctx : GoContext) (s : ReconnectState) : Prop := ctx ∉ s.cancelled

instance (ctx : GoContext) (s : ReconnectState) : Decidable (s.Alive ctx) := inferInstanceAs (Decidable (_ ∉ _))

def wakeReconnectLocked (s : ReconnectState) : ReconnectState :=
  { s with
    reconnectWake := s.reconnectWake.map fun _ => true }

/-- The part of `recordConnectionEvent` that all accepted events share. -/
def nextGeneration (s : ReconnectState) : ReconnectState :=
  { s with
    reconnectGeneration := s.reconnectGeneration + 1 }.wakeReconnectLocked

def recordConnected (s : ReconnectState) : ReconnectState :=
  { s with
    connected := true
    connectedAt := s.connectedAt.or (some s.now)
    sessionCtx := if s.connectedAt = none then some s.sessions else s.sessionCtx
    sessions := if s.connectedAt = none then s.sessions + 1 else s.sessions
    reconnectPending := false }

def recordDisconnected (s : ReconnectState) : ReconnectState :=
  let stable := s.connectedAt.any fun since => decide (since + stableConnectionDuration ≤ s.now)
  { s with
    reconnectStartTime := if stable then none else s.reconnectStartTime
    reconnectAttemptNum := if stable then 0 else s.reconnectAttemptNum
    connected := false
    connectedAt := none
    sessionCtx := none
    reconnectPending := !s.reconnectBlocked
    unhandled := true }

def recordTerminal (s : ReconnectState) : ReconnectState :=
  { s with
    connected := false
    connectedAt := none
    sessionCtx := none
    reconnectBlocked := true
    reconnectPending := false }

/-- The generation of the event, unless it is refused. -/
def recordConnectionEvent (e : LifecycleEvent) (s : ReconnectState) : Option (ℕ × ReconnectState) :=
  match e with
  | .connected =>
    if s.reconnectBlocked = true ∨ ¬ s.Alive workerCtx then none
    else some (s.reconnectGeneration + 1, s.recordConnected.nextGeneration)
  | .disconnected => some (s.reconnectGeneration + 1, s.recordDisconnected.nextGeneration)
  | _ => some (s.reconnectGeneration + 1, s.recordTerminal.nextGeneration)

/-- `HandleReconnect`, called with this context, drops the request. -/
def Drops (ctx : GoContext) (s : ReconnectState) : Prop :=
  ¬ s.Alive ctx ∨ s.reconnectBlocked = true ∨ s.connected = true ∨ ¬ s.Alive workerCtx

instance (ctx : GoContext) (s : ReconnectState) : Decidable (s.Drops ctx) :=
  inferInstanceAs (Decidable (_ ∨ _ ∨ _ ∨ _))

def called (ctx : GoContext) (s : ReconnectState) : ReconnectState :=
  { s with
    unhandled := false
    lastRequest := some ctx }

def requested (ctx : GoContext) (s : ReconnectState) : ReconnectState :=
  { s.called ctx with
    reconnectWake := s.reconnectWake.or (some false)
    reconnectPending := true
    reconnectRequestCtx := some ctx }

/-- The first section of `StopReconnect`. -/
def stopReconnect (s : ReconnectState) : ReconnectState :=
  { s with
    reconnectBlocked := true
    reconnectPending := false
    sessionCtx := none }.wakeReconnectLocked

def Exits (ctx : GoContext) (s : ReconnectState) : Prop :=
  s.reconnectBlocked = true ∨ s.reconnectPending = false ∨ ¬ s.Alive ctx ∨ ¬ s.Alive workerCtx

instance (ctx : GoContext) (s : ReconnectState) : Decidable (s.Exits ctx) :=
  inferInstanceAs (Decidable (_ ∨ _ ∨ _ ∨ _))

end ReconnectState

inductive ReconnectStage
  | idle
  /-- The event has passed the first look of `dispatchEvent`. -/
  | observed (e : LifecycleEvent)
  | recorded (generation : ℕ)
  /-- `connectionEventMu` is held. -/
  | checking (generation : ℕ)
  | delivering (generation : ℕ)
  | returning
  /-- `StopReconnect` is about to cancel the worker context. -/
  | stopping
  /-- `Connect` dials; `reconnectMu` is held. -/
  | connecting
  /-- `recoverKeepAlive`; `reconnectMu` is held. -/
  | resetting
  /-- The head of the loop of `runReconnect`. -/
  | top
  /-- `reconnectWait` is about to look at the flags; there is no deadline in the wait for the handshake. -/
  | looking (ctx : GoContext) (deadline : Option ℕ) (generation : ℕ)
  | asleep (ctx : GoContext) (deadline : Option ℕ) (generation : ℕ)
  /-- The delay is over, `reconnectMu` is next. -/
  | queued (ctx : GoContext)
  | revalidating (ctx : GoContext)
  /-- The attempt is decided and counted, the dial is next. -/
  | decided (ctx : GoContext) (generation : ℕ)
  | dialing (ctx : GoContext) (generation : ℕ)
  /-- The dial has returned, `reconnectMu` is still held. -/
  | dialed (ctx : GoContext) (generation : ℕ) (ok : Bool)
  /-- The attempt was not decided, `reconnectMu` is still held. -/
  | leaving
  deriving DecidableEq

inductive ReconnectAction
  /-- The socket dispatches an event; `live` says that it is connected and logged in. -/
  | dispatch (e : LifecycleEvent) (live : Bool)
  | handle (ctx : Option GoContext)
  | stop
  | connect
  | keepAlive
  | next
  | backoff (delay : ℕ)
  | cancelled
  | workerDone
  | elapsed
  | woken
  | dialResult (ok : Bool)
  deriving DecidableEq

inductive ReconnectEvent
  | tick (d : ℕ)
  | cancel (ctx : GoContext)
  deriving DecidableEq

/-- One step of the call `p`. -/
def reconnectAct (p : ℕ) (s : ReconnectState) (x : ReconnectStage) (a : ReconnectAction) :
    Option (ReconnectState × ReconnectStage) :=
  match x, a with
  | .idle, .dispatch e live =>
    if e = .connected ∧ (s.reconnectBlocked = true ∨ live = false) then some (s, .idle) else some (s, .observed e)
  | .observed e, .next =>
    match s.recordConnectionEvent e with
    | none => some (s, .idle)
    | some (generation, s') => some (s', .recorded generation)
  | .recorded generation, .next =>
    if s.connectionEventMu = none then
      some ({ s with
        connectionEventMu := some p }, .checking generation)
    else none
  | .checking generation, .next =>
    if generation = s.reconnectGeneration then some (s, .delivering generation)
    else
      some ({ s with
        skipped := generation :: s.skipped }, .returning)
  | .delivering generation, .next =>
    some ({ s with
      delivered := generation :: s.delivered }, .returning)
  | .returning, .next =>
    some ({ s with
      connectionEventMu := none }, .idle)
  | .idle, .handle ctx =>
    let ctx := ctx.getD workerCtx
    if s.Drops ctx then some (s.called ctx, .idle)
    else if s.reconnecting ≠ none then some ((s.requested ctx).wakeReconnectLocked, .idle)
    else
      -- the call goes on as the goroutine
      some ({ s.requested ctx with
        reconnecting := some p }, .top)
  | .idle, .stop => some (s.stopReconnect, .stopping)
  | .stopping, .next =>
    some ({ s with
      cancelled := workerCtx :: s.cancelled }, .idle)
  | .idle, .connect =>
    if s.reconnectMu = none then
      some ({ s with
        reconnectMu := some p }, .connecting)
    else none
  | .connecting, .dialResult _ =>
    some ({ s with
      reconnectMu := none }, .idle)
  | .idle, .keepAlive =>
    if s.reconnectMu = none then
      some ({ s with
        reconnectMu := some p }, .resetting)
    else none
  | .resetting, .next =>
    some ({ s with
      reconnectMu := none }, .idle)
  | .top, .backoff delay =>
    match s.reconnectRequestCtx with
    | none => none
    | some ctx =>
      if s.Exits ctx then
        some ({ s with
          reconnecting := none }, .idle)
      else
        let started := s.reconnectStartTime.getD s.now
        if Jittered (baseDuration (s.now - started) s.reconnectAttemptNum) delay then
          some ({ s with
            reconnectStartTime := some started }, .looking ctx (some (s.now + delay)) s.reconnectGeneration)
        else none
  | .looking ctx deadline generation, .next =>
    if s.reconnectPending = false ∨ s.reconnectBlocked = true then some (s, .top)
    else if deadline = none ∧ s.reconnectGeneration ≠ generation then some (s, .top)
    else some (s, .asleep ctx deadline generation)
  | .asleep ctx _ _, .cancelled => if s.Alive ctx then none else some (s, .top)
  | .asleep _ _ _, .workerDone => if s.Alive workerCtx then none else some (s, .top)
  | .asleep ctx (some deadline) _, .elapsed => if deadline ≤ s.now then some (s, .queued ctx) else none
  | .asleep ctx deadline generation, .woken =>
    if s.reconnectWake = some true then
      some ({ s with
        reconnectWake := some false }, .looking ctx deadline generation)
    else none
  | .queued ctx, .next =>
    if s.reconnectMu = none then
      some ({ s with
        reconnectMu := some p }, .revalidating ctx)
    else none
  | .revalidating ctx, .next =>
    if s.Exits ctx then some (s, .leaving)
    else
      some ({ s with
        reconnectAttemptNum :=
          if s.reconnectAttemptNum < 1000000 then s.reconnectAttemptNum + 1 else s.reconnectAttemptNum },
        .decided ctx s.reconnectGeneration)
  | .leaving, .next =>
    some ({ s with
      reconnectMu := none }, .top)
  | .decided ctx generation, .next =>
    some ({ s with
      lateDials := if s.reconnectBlocked then s.lateDials + 1 else s.lateDials }, .dialing ctx generation)
  | .dialing ctx generation, .dialResult ok => some (s, .dialed ctx generation ok)
  | .dialed ctx generation ok, .next =>
    some ({ s with
      reconnectMu := none }, if ok then .looking ctx none generation else .top)
  | _, _ => none

def reconnectEnv (e : ReconnectEvent) (s : ReconnectState) : Option ReconnectState :=
  match e with
  | .tick d =>
    some { s with
      now := s.now + d }
  | .cancel ctx =>
    some { s with
      cancelled := ctx :: s.cancelled }

def reconnectMachine : Machine ReconnectState ReconnectStage ReconnectAction ReconnectEvent where
  act := reconnectAct
  env := reconnectEnv

end TeamInbox.Worker
