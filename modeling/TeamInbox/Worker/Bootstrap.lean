import TeamInbox.Worker.Reconnect

/-!
# TeamInbox.Worker.Bootstrap — the repairs of a session

`beginBootstrap`, `cancelBootstrap`, `startBootstrap` and `requestContactRepair` are one section under `bootstrap.mu`
each.  `queueBootstrapLocked` keeps one request per kind and starts the goroutine of the lane, which takes the request,
waits outside of the lock for its timer, for a newer request or for the end of the session, runs the repair and settles
it under the lock.  The zero time is `none`; durations are in milliseconds.

For the record, a state keeps the goroutine of a lane, the session that was started, the due times of the contact
repairs that no run has served, and the time of the last run that failed.
-/

namespace TeamInbox.Worker

open TeamInbox.Lib

inductive BootstrapKind
  | contacts
  | groups
  deriving DecidableEq

structure BootstrapRequest where
  ctx : GoContext
  notBefore : ℕ
  /-- Bypasses the cooldown of a reconnect. -/
  force : Bool
  deriving DecidableEq

structure BootstrapJob where
  running : Bool
  pending : Option BootstrapRequest
  lastSuccess : Option ℕ
  retryNotBefore : Option ℕ
  /-- Whether the slot of the channel is taken. -/
  wake : Bool
  spawned : ℕ
  runner : Option ℕ
  deriving DecidableEq

structure Bootstrap where
  now : ℕ
  cancelled : List GoContext
  sessions : ℕ
  ctx : Option GoContext
  contactsRequested : Bool
  contactRepairDue : Option ℕ
  jobs : BootstrapKind → BootstrapJob
  started : Option GoContext
  requested : List ℕ
  lastFailure : Option ℕ

structure BootstrapConfig where
  repairCooldown : ℕ
  retryInterval : ℕ

def bootstrapRepairCooldown : ℕ := 5 * 60 * 1000

def bootstrapRetryInterval : ℕ := 60 * 1000

def bootstrapDuration (value fallback : ℕ) : ℕ := if 0 < value then value else fallback

def BootstrapConfig.cooldown (cfg : BootstrapConfig) : ℕ := bootstrapDuration cfg.repairCooldown bootstrapRepairCooldown

def BootstrapConfig.retry (cfg : BootstrapConfig) : ℕ := bootstrapDuration cfg.retryInterval bootstrapRetryInterval

inductive BootstrapResult
  | success
  | cancelled
  /-- `whatsmeow.ErrIQRateOverLimit`. -/
  | rateOverLimit
  | failed
  deriving DecidableEq

/-- `mergeBootstrapRequest`, for a latest request that is there. -/
def mergeBootstrapRequest (latest : BootstrapRequest) (previous : Option BootstrapRequest) : BootstrapRequest :=
  match previous with
  | none => latest
  | some previous =>
    if latest.ctx ≠ previous.ctx ∨ previous.force = false then latest
    else
      { latest with
        force := true
        notBefore := max latest.notBefore previous.notBefore }

namespace Bootstrap

def new : Bootstrap where
  now := 0
  cancelled := []
  sessions := 0
  ctx := none
  contactsRequested := false
  contactRepairDue := none
  jobs := fun _ => ⟨false, none, none, none, false, 0, none⟩
  started := none
  requested := []
  lastFailure := none

/-- `ctx.Err() == nil`. -/
def Alive (ctx : GoContext) (b : Bootstrap) : Prop := ctx ∉ b.cancelled

instance (ctx : GoContext) (b : Bootstrap) : Decidable (b.Alive ctx) := inferInstanceAs (Decidable (_ ∉ _))

def hasSession (b : Bootstrap) : Bool := b.ctx.any fun ctx => decide (b.Alive ctx)

def setJob (k : BootstrapKind) (j : BootstrapJob) (b : Bootstrap) : Bootstrap :=
  { b with
    jobs := Function.update b.jobs k j }

/-- Cancel the session and drop what is pending. -/
def dropSession (b : Bootstrap) : Bootstrap :=
  { b with
    cancelled := b.ctx.toList ++ b.cancelled
    ctx := none
    jobs := fun k =>
      { b.jobs k with
        pending := none } }

/-- `queueBootstrapLocked`. -/
def queue (k : BootstrapKind) (r : BootstrapRequest) (b : Bootstrap) : Bootstrap :=
  let job := b.jobs k
  let job :=
    { job with
      pending := some (mergeBootstrapRequest r job.pending) }
  b.setJob k (if job.running then
      { job with
        wake := true }
    else
      { job with
        running := true
        wake := false
        spawned := job.spawned + 1 })

/-- `beginBootstrap`; `live` says that there is a parent context and that it is not cancelled. -/
def begin (live : Bool) (b : Bootstrap) : Bootstrap :=
  if live = false ∨ b.hasSession = true then b
  else
    let b := if b.ctx = none then b else b.dropSession
    { b with
      sessions := b.sessions + 1
      ctx := some b.sessions
      contactsRequested := false }

/-- `cancelBootstrap`. -/
def cancel (b : Bootstrap) : Bootstrap := b.dropSession

/-- The contact request of `startBootstrap`. -/
def startRequest (ctx : GoContext) (b : Bootstrap) : BootstrapRequest :=
  match b.contactRepairDue with
  | none => ⟨ctx, b.now, false⟩
  | some due => ⟨ctx, due, true⟩

/-- The turn of `kind` in the loop of `startBootstrap`. -/
def startKind (ctx : GoContext) (k : BootstrapKind) (b : Bootstrap) : Bootstrap :=
  match k with
  | .contacts =>
    if (b.jobs k).lastSuccess ≠ none ∧ b.contactRepairDue = none then b
    else if b.contactsRequested then b
    else b.queue k (b.startRequest ctx)
  | .groups => b.queue k ⟨ctx, b.now, false⟩

/-- `startBootstrap`. -/
def start (ctx : GoContext) (b : Bootstrap) : Bootstrap :=
  if b.ctx ≠ some ctx ∨ ¬ b.Alive ctx then b
  else
    ({ b with
      started := some ctx }.startKind ctx .contacts).startKind ctx .groups

/-- The due time with a repair that is asked for in `delay`. -/
def dueAfter (delay : ℕ) (b : Bootstrap) : ℕ := b.contactRepairDue.elim (b.now + delay) (max (b.now + delay))

def recordRepair (delay : ℕ) (b : Bootstrap) : Bootstrap :=
  { b with
    contactRepairDue := some (b.dueAfter delay)
    requested := (b.now + delay) :: b.requested }

/-- `requestContactRepair`. -/
def requestContactRepair (delay : ℕ) (b : Bootstrap) : Bootstrap :=
  match b.ctx with
  | none => b.recordRepair delay
  | some ctx =>
    if b.Alive ctx then
      { b.recordRepair delay with
        contactsRequested := true }.queue .contacts ⟨ctx, b.dueAfter delay, true⟩
    else b.recordRepair delay

section Lane

variable (cfg : BootstrapConfig)

def due (k : BootstrapKind) (r : BootstrapRequest) (b : Bootstrap) : ℕ :=
  let job := b.jobs k
  let due := max r.notBefore (job.retryNotBefore.getD 0)
  if r.force then due else max due (job.lastSuccess.elim 0 (· + cfg.cooldown))

/-- The second section of the loop: the run has ended. -/
def settle (k : BootstrapKind) (r : BootstrapRequest) (started : Option ℕ) (result : BootstrapResult) (b : Bootstrap) :
    Bootstrap :=
  let job := b.jobs k
  let job :=
    if result = .rateOverLimit then
      { job with
        retryNotBefore := some (b.now + max cfg.retry cfg.cooldown) }
    else job
  if b.Alive r.ctx then
    if result = .success then
      { b.setJob k
          { job with
            lastSuccess := some b.now
            retryNotBefore := none } with
        contactRepairDue :=
          if k = .contacts ∧ r.force = true ∧ b.contactRepairDue.all fun due => decide (due ≤ r.notBefore) then none
          else b.contactRepairDue
        requested :=
          if k = .contacts then b.requested.filter fun d => started.all fun t => decide (t < d) else b.requested }
    else
      { b.setJob k
          { job with
            pending := some (job.pending.getD { r with notBefore := b.now + cfg.retry }) } with
        lastFailure := some b.now }
  else b.setJob k job

end Lane

end Bootstrap

inductive BootstrapStage
  | idle
  /-- The head of the loop of `runBootstrapJob`. -/
  | top (k : BootstrapKind)
  | waiting (k : BootstrapKind) (r : BootstrapRequest) (due : ℕ)
  /-- A newer request has been announced. -/
  | woken (k : BootstrapKind) (r : BootstrapRequest)
  | fired (k : BootstrapKind) (r : BootstrapRequest)
  | running (k : BootstrapKind) (r : BootstrapRequest) (started : ℕ)
  | settling (k : BootstrapKind) (r : BootstrapRequest) (started : Option ℕ) (result : BootstrapResult)
  deriving DecidableEq

inductive BootstrapAction
  | begin (live : Bool)
  | cancel
  | start (ctx : GoContext)
  | requestContactRepair (delay : ℕ)
  | lane (k : BootstrapKind)
  | next
  | wake
  | done
  | timer
  | result (result : BootstrapResult)
  deriving DecidableEq

inductive BootstrapEvent
  | tick (d : ℕ)
  | cancel (ctx : GoContext)
  deriving DecidableEq

section Step

variable (cfg : BootstrapConfig)

/-- One step of the call `p`. -/
def bootstrapAct (p : ℕ) (b : Bootstrap) (x : BootstrapStage) (a : BootstrapAction) :
    Option (Bootstrap × BootstrapStage) :=
  match x, a with
  | .idle, .begin live => some (b.begin live, .idle)
  | .idle, .cancel => some (b.cancel, .idle)
  | .idle, .start ctx => some (b.start ctx, .idle)
  | .idle, .requestContactRepair delay => some (b.requestContactRepair delay, .idle)
  | .idle, .lane k =>
    if (b.jobs k).spawned = 0 then none
    else
      some (b.setJob k
        { b.jobs k with
          spawned := (b.jobs k).spawned - 1
          runner := some p }, .top k)
  | .top k, .next =>
    match (b.jobs k).pending with
    | none =>
      some (b.setJob k
        { b.jobs k with
          running := false
          runner := none }, .idle)
    | some r =>
      some (b.setJob k
        { b.jobs k with
          pending := none
          wake := false }, .waiting k r (b.due cfg k r))
  | .waiting k r _, .wake =>
    if (b.jobs k).wake then
      some (b.setJob k
        { b.jobs k with
          wake := false }, .woken k r)
    else none
  | .woken k r, .next =>
    some (b.setJob k
      { b.jobs k with
        pending := (b.jobs k).pending.map fun latest => mergeBootstrapRequest latest (some r) }, .top k)
  | .waiting k r _, .done => if b.Alive r.ctx then none else some (b, .settling k r none .cancelled)
  | .waiting k r due, .timer => if due ≤ b.now then some (b, .fired k r) else none
  | .fired k r, .next =>
    if b.Alive r.ctx then some (b, .running k r b.now) else some (b, .settling k r none .cancelled)
  | .running k r started, .result result => some (b, .settling k r (some started) result)
  | .settling k r started result, .next => some (b.settle cfg k r started result, .top k)
  | _, _ => none

def bootstrapEnv (e : BootstrapEvent) (b : Bootstrap) : Option Bootstrap :=
  match e with
  | .tick d =>
    some { b with
      now := b.now + d }
  | .cancel ctx =>
    some { b with
      cancelled := ctx :: b.cancelled }

def bootstrapMachine : Machine Bootstrap BootstrapStage BootstrapAction BootstrapEvent where
  act := bootstrapAct cfg
  env := bootstrapEnv

end Step

end TeamInbox.Worker
