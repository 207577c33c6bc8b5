import TeamInbox.Lib.Table
import TeamInbox.Outbox.CommandOutbox

/-!
# TeamInbox.Outbox.DispatchMarker — which workspaces have due commands

Every company has one row in `outbox_dispatch_ready`; a trigger on its outbox marks the row in the writing
transaction.  A transaction that has marked the row holds its lock until it ends, so a mark has three
moments: the statement, the trigger (which may wait for the lock) and the commit.  Replicas claim a marked
company, dispatch it and settle the marker with what they read in between; a recovery pass marks companies
from their outbox and deletes the markers of companies that are not active.

Companies, transactions and the replicas' calls are numbered.  A statement that waits for a lock carries the
time at which it was issued.  Which companies a claim or a recovery pass visits is left open.
-/

namespace TeamInbox.Outbox

open Lib

/-- A row of `outbox_dispatch_ready`. -/
structure Marker where
  generation : ℕ
  dueAt : Option ℕ
  claimToken : Option ℕ
  claimedUntil : Option ℕ
  deriving DecidableEq

/-- `LEAST`, which ignores `NULL`. -/
def least : Option ℕ → Option ℕ → Option ℕ
  | some a, some b => some (min a b)
  | none, b => b
  | a, none => a

/-- A statement on `nats_outbox`. -/
inductive OutboxWrite
  | insert (id : OutboxId) (subject : String) (recipient : Option String)
  | claim (id : OutboxId)
  | renew (c : Claimed)
  | outcome (c : Claimed) (ok : Bool)
  | delete (id : OutboxId)
  deriving DecidableEq

namespace OutboxWrite

def id : OutboxWrite → OutboxId
  | .insert id _ _ | .claim id | .delete id => id
  | .renew c | .outcome c _ => c.id

/-- The row after the statement; `none` if it does not apply to the row before. -/
def change (time : ℕ) : OutboxWrite → Option OutboxRow → Option (Option OutboxRow)
  | .insert id subject recipient, none => some (some ⟨id, subject, recipient, .pending, 0, time, time, 0⟩)
  | .claim _, some r =>
    if r.status.waiting ∧ r.nextAttemptAt ≤ time then some (some (r.claimedAt time)) else none
  | .renew c, some r => if r.carries c then some (some (r.renewedAt time)) else none
  | .outcome c ok, some r => if r.carries c then some (some (r.outcome time c.attempts ok)) else none
  | .delete _, some _ => some none
  | _, _ => none

/-- Rows that are not waiting are inserted and deleted without a mark. -/
def marks : Option OutboxRow → Option OutboxRow → Bool
  | some old, none => old.status.waiting
  | none, some new => new.status.waiting
  | _, _ => true

end OutboxWrite

/-- What an open transaction has written to one row. -/
structure OpenWrite where
  tx : ℕ
  company : ℕ
  id : OutboxId
  row : Option OutboxRow
  time : ℕ
  deriving DecidableEq

/-- Where a turn of `dispatchPendingCommands` stands. -/
inductive WakeProcess
  | idle
  | dispatching (company token : ℕ)
  /-- `finishWorkspaceDispatch` has read the generation -/
  | counted (company token generation : ℕ)
  | summarized (company token generation : ℕ) (due : Option ℕ)
  deriving DecidableEq

structure DispatchState where
  now : ℕ
  active : ℕ → Bool
  rows : ℕ → Table OutboxId OutboxRow
  marker : ℕ → Option Marker
  writes : List OpenWrite
  /-- triggers that have not run, by transaction, company and time of the statement -/
  unmarked : List (ℕ × ℕ × ℕ)
  /-- the transaction that holds the lock of a marker, with its version -/
  held : ℕ → Option (ℕ × Option Marker)
  /-- the earliest attempts recovery passes have read -/
  found : List (ℕ × ℕ × ℕ)
  tokens : ℕ
  processes : ℕ → WakeProcess
  lastSettle : ℕ → Option ℕ
  lastRelease : ℕ → Option ℕ

inductive DispatchAction
  | tick (duration : ℕ)
  | setActive (company : ℕ) (active : Bool)
  | write (tx company : ℕ) (w : OutboxWrite) (time : ℕ)
  | mark (tx company time : ℕ)
  | commit (tx : ℕ)
  | rollback (tx : ℕ)
  | claim (p company : ℕ)
  | readGeneration (p : ℕ)
  | readSummary (p : ℕ)
  | settle (p time : ℕ)
  | release (p time : ℕ)
  | crash (p : ℕ)
  | recoverRead (tx company : ℕ)
  | recoverMark (tx company due : ℕ)
  | recoverDelete (tx company : ℕ)
  deriving DecidableEq

/-- `interval '2 minutes'` and `interval '5 seconds'`. -/
def claimPeriod : ℕ := 120000000
def releaseDelay : ℕ := 5000000

/-- `min(next_attempt_at)` of the waiting rows. -/
def earliestAttempt (rows : Table OutboxId OutboxRow) : Option ℕ :=
  ((rows.entries.filter fun e => e.2.status.waiting).map (·.2.nextAttemptAt)).min?

/-- `mark_outbox_dispatch_ready`. -/
def markReady (time : ℕ) : Option Marker → Marker
  | none => ⟨1, some time, none, none⟩
  | some m => { m with
    generation := m.generation + 1
    dueAt := least m.dueAt (some time) }

def recoverReady (due : ℕ) : Option Marker → Marker
  | none => ⟨0, some due, none, none⟩
  | some m => { m with
    generation := m.generation + 1
    dueAt := least m.dueAt (some due) }

namespace Marker

def claimable (m : Marker) (now : ℕ) : Bool :=
  m.dueAt.any (· ≤ now) && m.claimedUntil.all (· ≤ now)

def claimedBy (m : Marker) (token now : ℕ) : Marker :=
  { m with
    claimToken := some token
    claimedUntil := some (now + claimPeriod) }

/-- `settleWorkspaceDispatch`. -/
def settled (m : Marker) (generation time : ℕ) (due : Option ℕ) : Marker :=
  { m with
    dueAt := if m.generation = generation then due.map (max · time) else some time
    claimToken := none
    claimedUntil := none }

/-- `releaseWorkspaceDispatch`. -/
def released (m : Marker) (time : ℕ) : Marker :=
  { m with
    dueAt := some (time + releaseDelay)
    claimToken := none
    claimedUntil := none }

end Marker

namespace DispatchState

def visible (s : DispatchState) (tx company : ℕ) (id : OutboxId) : Option OutboxRow :=
  match s.writes.find? fun w => decide (w.tx = tx ∧ w.company = company ∧ w.id = id) with
  | some w => w.row
  | none => (s.rows company).find? id

/-- No other transaction holds the lock of the row. -/
def rowFree (s : DispatchState) (tx company : ℕ) (id : OutboxId) : Bool :=
  s.writes.all fun w => decide (w.company = company → w.id = id → w.tx = tx)

/-- No other transaction holds the lock of the marker. -/
def markerFree (s : DispatchState) (tx company : ℕ) : Bool :=
  (s.held company).all fun h => decide (h.1 = tx)

/-- The marker as the transaction that holds its lock sees it. -/
def version (s : DispatchState) (company : ℕ) : Option Marker :=
  match s.held company with
  | some h => h.2
  | none => s.marker company

def hold (s : DispatchState) (tx company : ℕ) (m : Option Marker) : DispatchState :=
  { s with held := Function.update s.held company (some (tx, m)) }

def setMarker (s : DispatchState) (company : ℕ) (m : Marker) : DispatchState :=
  { s with marker := Function.update s.marker company (some m) }

def setProcess (s : DispatchState) (p : ℕ) (x : WakeProcess) : DispatchState :=
  { s with processes := Function.update s.processes p x }

/-- The committed marker, if the claim still stands in it. -/
def claimed (s : DispatchState) (company token : ℕ) : Option Marker :=
  (s.marker company).filter fun m => decide (m.claimToken = some token)

/-- The writes of the transaction, in their order. -/
def writtenRows (s : DispatchState) (tx company : ℕ) : Table OutboxId OutboxRow :=
  (s.writes.filter fun w => decide (w.tx = tx ∧ w.company = company)).foldr
    (fun w rows => match w.row with
      | some r => rows.put w.id r
      | none => rows.erase w.id) (s.rows company)

def holds (s : DispatchState) (tx company : ℕ) : Bool := (s.held company).any fun h => decide (h.1 = tx)

def without (s : DispatchState) (tx : ℕ) : DispatchState :=
  { s with
    writes := s.writes.filter fun w => !decide (w.tx = tx)
    unmarked := s.unmarked.filter fun u => !decide (u.1 = tx)
    held := fun company => if s.holds tx company then none else s.held company
    found := s.found.filter fun f => !decide (f.1 = tx) }

end DispatchState

def dispatchStep (s : DispatchState) : DispatchAction → Option DispatchState
  | .tick duration => some { s with now := s.now + duration }
  | .setActive company active => some { s with active := Function.update s.active company active }
  | .write tx company w time =>
    if time ≤ s.now ∧ s.rowFree tx company w.id then
      (w.change time (s.visible tx company w.id)).map fun row => { s with
        writes := ⟨tx, company, w.id, row, time⟩ :: s.writes
        unmarked := if OutboxWrite.marks (s.visible tx company w.id) row then (tx, company, time) :: s.unmarked
          else s.unmarked }
    else none
  | .mark tx company time =>
    if (tx, company, time) ∈ s.unmarked ∧ s.markerFree tx company then
      some ({ s with unmarked := s.unmarked.erase (tx, company, time) }.hold tx company
        (some (markReady time (s.version company))))
    else none
  | .commit tx =>
    if s.unmarked.any fun u => decide (u.1 = tx) then none
    else some { s.without tx with
      rows := fun company => s.writtenRows tx company
      marker := fun company => if s.holds tx company then s.version company else s.marker company }
  | .rollback tx => some (s.without tx)
  | .claim p company =>
    match s.processes p, s.marker company, s.held company with
    | .idle, some m, none =>
      if s.active company ∧ m.claimable s.now then
        some (({ s with tokens := s.tokens + 1 }.setMarker company (m.claimedBy s.tokens s.now)).setProcess p
          (.dispatching company s.tokens))
      else none
    | _, _, _ => none
  | .readGeneration p =>
    match s.processes p with
    | .dispatching company token =>
      match s.claimed company token with
      | some m => some (s.setProcess p (.counted company token m.generation))
      | none => some (s.setProcess p .idle)
    | _ => none
  | .readSummary p =>
    match s.processes p with
    | .counted company token generation =>
      -- the driver reads a timestamp as a `Date`, in milliseconds
      let due := (earliestAttempt (s.rows company)).map fun t => t / 1000 * 1000
      some (s.setProcess p (.summarized company token generation due))
    | _ => none
  | .settle p time =>
    match s.processes p with
    | .summarized company token generation due =>
      if time ≤ s.now ∧ (s.held company).isNone then
        match s.claimed company token with
        | some m =>
          some (({ s with lastSettle := Function.update s.lastSettle company (some time) }.setMarker company
            (m.settled generation time due)).setProcess p .idle)
        | none => some (s.setProcess p .idle)
      else none
    | _ => none
  | .release p time =>
    match s.processes p with
    | .dispatching company token | .counted company token _ | .summarized company token _ _ =>
      if time ≤ s.now ∧ (s.held company).isNone then
        match s.claimed company token with
        | some m =>
          some (({ s with lastRelease := Function.update s.lastRelease company (some time) }.setMarker company
            (m.released time)).setProcess p .idle)
        | none => some (s.setProcess p .idle)
      else none
    | _ => none
  | .crash p => some (s.setProcess p .idle)
  | .recoverRead tx company =>
    if s.active company then
      match earliestAttempt (s.rows company) with
      | some due => some { s with found := (tx, company, due) :: s.found }
      | none => some s
    else none
  | .recoverMark tx company due =>
    if (tx, company, due) ∈ s.found ∧ s.markerFree tx company then
      some (s.hold tx company (some (recoverReady due (s.version company))))
    else none
  | .recoverDelete tx company =>
    if s.active company = false ∧ s.markerFree tx company then some (s.hold tx company none) else none

/-- Before the first command; all companies are active. -/
def DispatchState.empty : DispatchState :=
  ⟨0, fun _ => true, fun _ => .empty, fun _ => none, [], [], fun _ => none, [], 0, fun _ => .idle,
    fun _ => none, fun _ => none⟩

end TeamInbox.Outbox
