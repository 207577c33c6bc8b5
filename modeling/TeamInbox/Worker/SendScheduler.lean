import TeamInbox.Lib.Run
import TeamInbox.Worker.Ledger

/-!
# TeamInbox.Worker.SendScheduler — the send scheduler of a worker

`processMessages` with its goroutines: the fetcher, one preparation per media head, the handler of the
command being sent, and the main loop, which alone touches the queues.  A step is what one goroutine
does between two of its channel operations; an iteration of the main loop, its `select` case and the
round robin after it, is one step.  Clock readings are supplied by the action.  The log is a history
variable.
-/

namespace TeamInbox.Worker

open TeamInbox.Lib

def commandQueueLimit : ℕ := 8

def mediaPreparationLimit : ℕ := 2

/-- What the scheduler distinguishes in a command type. -/
inductive JobKind
  /-- `text` and `reaction` -/
  | plain
  /-- `isMediaCommand` -/
  | media
  /-- Types with a handler of their own. -/
  | control
  /-- Any other type; `handleCommand` hands it to `handleSendCommand`. -/
  | unlisted
  deriving DecidableEq

/-- The `prepared` field of a job. -/
inductive Media
  /-- `nil` -/
  | absent
  /-- A stored result will be replayed; no bytes, no media slot. -/
  | replay
  | failed
  | data
  deriving DecidableEq

def Media.slot : Media → Bool
  | .failed | .data => true
  | _ => false

inductive Stage
  /-- Behind another job of its queue. -/
  | queued
  | checking
  | awaiting
  | downloading
  /-- The result is in the `prepared` channel. -/
  | offered (m : Media)
  | ready (m : Media)
  /-- The goroutine ended at shutdown. -/
  | abandoned
  deriving DecidableEq

def Stage.slot : Stage → Bool
  | .downloading => true
  | .offered m | .ready m => m.slot
  | _ => false

def Stage.buffer : Stage → Bool
  | .downloading => true
  | .offered m | .ready m => decide (m = .data)
  | _ => false

structure Job where
  /-- Jobs are numbered as the main loop accepts them. -/
  id : ℕ
  commandID : CommandID
  key : String
  kind : JobKind
  stage : Stage
  retryAt : ℕ
  deriving DecidableEq

structure JobRef where
  key : String
  id : ℕ
  deriving DecidableEq

structure Incoming where
  commandID : CommandID
  recipient : String
  kind : JobKind
  deriving DecidableEq

inductive Fetcher
  | idle
  /-- It holds a slot and waits for a message. -/
  | fetching
  /-- It holds a slot and offers the message to the main loop. -/
  | offering (m : Incoming)
  /-- It returned; `held` says that its slot was not given back. -/
  | ended (held : Bool)
  deriving DecidableEq

def Fetcher.holds : Fetcher → ℕ
  | .idle => 0
  | .fetching => 1
  | .offering _ => 1
  | .ended held => if held then 1 else 0

/-- How `handleCommand` ends. -/
inductive HandlerEnd
  /-- A control command was acknowledged or returned by its own handler. -/
  | replied
  /-- `ackSend`, with whether `msg.Ack` went through. -/
  | acked (ok : Bool)
  | termed
  /-- `deferSend`: nothing is told to the broker. -/
  | deferred
  deriving DecidableEq

def HandlerEnd.told : HandlerEnd → Bool
  | .replied | .termed => true
  | .acked ok => ok
  | .deferred => false

/-- `job.settled` after the handler; it starts as true for types the scheduler does not list. -/
def HandlerEnd.settled (kind : JobKind) : HandlerEnd → Bool
  | .replied | .termed => true
  | .acked ok => ok
  | .deferred => decide (kind = .control ∨ kind = .unlisted)

inductive SchedEvent
  | accepted (r : JobRef)
  | handed (r : JobRef)
  | settled (id : ℕ)
  | removed (id : ℕ)
  /-- `Nak` at shutdown. -/
  | returned (id : ℕ)
  deriving DecidableEq

structure Scheduler where
  queues : String → List Job
  order : List String
  activeIDs : List CommandID
  sending : Option JobRef
  /-- The handler goroutines; the flag says that `s.prepared` is set up. -/
  running : List (JobRef × Bool)
  /-- The channel `finished`, with `job.settled`. -/
  finished : List (JobRef × Bool)
  /-- The channel `prepared`. -/
  prepared : List JobRef
  slots : ℕ
  mediaSlots : ℕ
  fetcher : Fetcher
  /-- `s.prepared`: the media handed to `handleSendCommand`. -/
  handoff : Option (JobRef × Media)
  cancelled : Bool
  ended : Bool
  accepted : ℕ
  log : List SchedEvent

def Scheduler.start : Scheduler where
  queues _ := []
  order := []
  activeIDs := []
  sending := none
  running := []
  finished := []
  prepared := []
  slots := 0
  mediaSlots := 0
  fetcher := .idle
  handoff := none
  cancelled := false
  ended := false
  accepted := 0
  log := []

inductive SchedAction
  | acquireSlot
  | fetchFailed
  | fetched (m : Incoming)
  | fetcherStops
  /-- The four cases of the `select`; `clock` gives the reading of `time.Now` at each key. -/
  | incoming (clock : String → ℕ)
  | preparedResult (clock : String → ℕ)
  | finishedJob (now : ℕ) (clock : String → ℕ)
  | tick (clock : String → ℕ)
  /-- The main loop sees the cancelled context. -/
  | stop
  | ledgerChecked (r : JobRef) (found : Bool)
  | mediaSlot (r : JobRef)
  | downloaded (r : JobRef) (ok : Bool)
  | preparationStops (r : JobRef)
  | handlerBegins (r : JobRef)
  /-- `took` says that the handler took the prepared media out of `s.prepared`, `posted` that the job
  goes to `finished`. -/
  | handlerEnds (r : JobRef) (took : Bool) (e : HandlerEnd) (posted : Bool)
  | cancel

namespace Scheduler

def find? (s : Scheduler) (r : JobRef) : Option Job := (s.queues r.key).find? fun j => j.id = r.id

def setQueue (s : Scheduler) (key : String) (jobs : List Job) : Scheduler :=
  { s with queues := Function.update s.queues key jobs }

def setJob (s : Scheduler) (r : JobRef) (f : Job → Job) : Scheduler :=
  s.setQueue r.key ((s.queues r.key).map fun j => if j.id = r.id then f j else j)

/-- A goroutine moves the preparation of its job on. -/
def setStage (s : Scheduler) (r : JobRef) (stage : Stage) : Scheduler :=
  s.setJob r fun j => { j with stage := stage }

/-- `startHead`. -/
def startHead (job : Job) : Job :=
  if job.kind = .media then { job with stage := .checking } else { job with stage := .ready .absent }

/-! ### The round robin -/

/-- A head that may be sent: it is ready and its retry time has come. -/
def eligible (clock : String → ℕ) (job : Job) : Bool :=
  match job.stage with
  | .ready _ => !decide (clock job.key < job.retryAt)
  | _ => false

/-- `for i := 0; i < len(order); i++ { … }`; `none` when the fuel is used up before the loop ends. -/
def scanLoop (clock : String → ℕ) :
    ℕ → ℕ → List String → (String → List Job) → Option (List String × (String → List Job) × Option Job)
  | 0, i, order, queues => if i < order.length then none else some (order, queues, none)
  | fuel + 1, i, order, queues =>
    if i < order.length then
      match order with
      | [] => none
      | key :: rest =>
        match queues key with
        | [] => scanLoop clock fuel i rest (Function.update queues key [])
        | job :: _ =>
          if eligible clock job then some (rest ++ [key], queues, some job)
          else scanLoop clock fuel (i + 1) (rest ++ [key]) queues
    else some (order, queues, none)

/-- The round robin after the `select`. -/
def scan (clock : String → ℕ) (s : Scheduler) : Option Scheduler :=
  if s.sending.isSome then some s
  else
    match scanLoop clock s.order.length 0 s.order s.queues with
    | none => none
    | some (order, queues, none) => some { s with order := order, queues := queues }
    | some (order, queues, some job) =>
      some { s with
        order := order, queues := queues, sending := some ⟨job.key, job.id⟩
        running := (⟨job.key, job.id⟩, false) :: s.running
        log := .handed ⟨job.key, job.id⟩ :: s.log }

/-! ### The `select` cases -/

/-- `case job := <-incoming`. -/
def accept (m : Incoming) (s : Scheduler) : Scheduler :=
  let key := if m.recipient = "" then "control" else m.recipient
  let job : Job := ⟨s.accepted, m.commandID, key, m.kind, .queued, 0⟩
  let s := { s with
    activeIDs := m.commandID :: s.activeIDs, accepted := s.accepted + 1
    log := .accepted ⟨key, s.accepted⟩ :: s.log }
  if s.queues key = [] then
    { s with order := s.order ++ [key] }.setQueue key [startHead job]
  else s.setQueue key (s.queues key ++ [job])

/-- `case result := <-prepared`. -/
def attach (job : Job) : Job :=
  match job.stage with
  | .offered m => { job with stage := .ready m }
  | _ => job

def startNext : List Job → List Job
  | [] => []
  | next :: rest => startHead next :: rest

/-- A settled job leaves its queue; a key without jobs leaves the order. -/
def settle (r : JobRef) (job : Job) (s : Scheduler) : Scheduler :=
  let queue := (s.queues r.key).tail
  let s := { s with
    sending := none
    mediaSlots := if job.stage.slot then s.mediaSlots - 1 else s.mediaSlots
    activeIDs := s.activeIDs.filter (· ≠ job.commandID)
    slots := s.slots - 1
    order := if queue = [] then s.order.erase r.key else s.order
    log := .removed r.id :: s.log }
  s.setQueue r.key (startNext queue)

/-- `job.retryAt = time.Now().Add(time.Second)`. -/
def retryLater (r : JobRef) (now : ℕ) (s : Scheduler) : Scheduler :=
  { s with sending := none }.setJob r fun j => { j with retryAt := now + 1000 }

/-- The deferred clean-up: every queued job but the one being sent is returned to the broker. -/
def returnQueued (s : Scheduler) : Scheduler :=
  { s with
    ended := true
    log := ((s.order.flatMap s.queues).filter fun j => s.sending ≠ some ⟨j.key, j.id⟩).map
      (fun j => .returned j.id) ++ s.log }

end Scheduler

open Scheduler in
def schedStep (s : Scheduler) : SchedAction → Option Scheduler
  | .acquireSlot =>
    if s.fetcher = .idle ∧ s.slots < commandQueueLimit then
      some { s with fetcher := .fetching, slots := s.slots + 1 }
    else none
  | .fetchFailed =>
    if s.fetcher = .fetching then some { s with fetcher := .idle, slots := s.slots - 1 } else none
  | .fetched m => if s.fetcher = .fetching then some { s with fetcher := .offering m } else none
  | .fetcherStops =>
    if s.cancelled then
      match s.fetcher with
      | .idle => some { s with fetcher := .ended false }
      | .offering _ => some { s with fetcher := .ended true }
      | _ => none
    else none
  | .incoming clock =>
    match s.ended, s.fetcher with
    | false, .offering m =>
      if m.commandID ≠ "" ∧ m.commandID ∈ s.activeIDs then
        -- still scheduled: the copy is dropped and its slot is free again
        some { s with fetcher := .idle, slots := s.slots - 1 }
      else scan clock (accept m { s with fetcher := .idle })
    | _, _ => none
  | .preparedResult clock =>
    match s.ended, s.prepared with
    | false, r :: rest => scan clock ({ s with prepared := rest }.setJob r attach)
    | _, _ => none
  | .finishedJob now clock =>
    match s.ended, s.finished with
    | false, (r, settled) :: rest =>
      match s.find? r with
      | none => none
      | some job =>
        if settled then scan clock (settle r job { s with finished := rest })
        else scan clock (retryLater r now { s with finished := rest })
    | _, _ => none
  | .tick clock => if s.ended then none else scan clock s
  | .stop => if s.cancelled ∧ s.ended = false then some s.returnQueued else none
  | .ledgerChecked r found =>
    match s.find? r with
    | some ⟨_, _, _, _, .checking, _⟩ =>
      if found then
        if s.prepared.length < commandQueueLimit then
          some { s.setStage r (.offered .replay) with prepared := s.prepared ++ [r] }
        else none
      else some (s.setStage r .awaiting)
    | _ => none
  | .mediaSlot r =>
    match s.find? r with
    | some ⟨_, _, _, _, .awaiting, _⟩ =>
      if s.mediaSlots < mediaPreparationLimit then
        some { s.setStage r .downloading with mediaSlots := s.mediaSlots + 1 }
      else none
    | _ => none
  | .downloaded r ok =>
    match s.find? r with
    | some ⟨_, _, _, _, .downloading, _⟩ =>
      if s.prepared.length < commandQueueLimit then
        some { s.setStage r (.offered (if ok then .data else .failed)) with
          prepared := s.prepared ++ [r] }
      else none
    | _ => none
  | .preparationStops r =>
    if s.cancelled then
      match s.find? r with
      | some ⟨_, _, _, _, .checking, _⟩ => some (s.setStage r .abandoned)
      | some ⟨_, _, _, _, .awaiting, _⟩ => some (s.setStage r .abandoned)
      | some ⟨_, _, _, _, .downloading, _⟩ =>
        some { s.setStage r .abandoned with mediaSlots := s.mediaSlots - 1 }
      | _ => none
    else none
  | .handlerBegins r =>
    if (r, false) ∈ s.running then
      match s.find? r with
      | some ⟨_, _, _, _, .ready m, _⟩ =>
        some { s with
          running := (r, true) :: s.running.erase (r, false)
          handoff := if m = .absent then s.handoff else some (r, m) }
      | _ => none
    else none
  | .handlerEnds r took e posted =>
    if (r, true) ∈ s.running ∧ (if posted then s.finished = [] else s.cancelled = true) then
      match s.find? r with
      | some job =>
        if job.kind = .control ↔ e = .replied then
          some { s with
            running := s.running.erase (r, true)
            finished := if posted then [(r, e.settled job.kind)] else s.finished
            handoff := if took ∧ s.handoff.map (·.1) = some r then none else s.handoff
            log := if e.told then .settled r.id :: s.log else s.log }
        else none
      | none => none
    else none
  | .cancel => some { s with cancelled := true }

end TeamInbox.Worker
