import TeamInbox.Lib.Calls
import TeamInbox.Api.ConnectionHandlers

/-!
# TeamInbox.Api.SyncStatus — the status of a history sync

`handleSyncStatusEvent` and the sync part of `handleDisconnectedEvent` on one connection.  A handler reads
`sync_status`, decides, updates the row and broadcasts; each of these is a step of its own.
-/

namespace TeamInbox.Api

open TeamInbox.Lib

structure SyncColumns where
  syncStatus : Option SyncStatus
  syncMessageCount : ℕ
  syncConversationCount : ℕ
  deriving DecidableEq

inductive IncomingSyncStatus
  | starting
  | progress
  | completed
  deriving DecidableEq

/-- The payload of a `sync_status`. -/
structure SyncPayload where
  status : IncomingSyncStatus
  messageCount : ℤ
  conversations : ℤ
  deriving DecidableEq

def shouldApplySyncStatusEvent (current : Option SyncStatus) (incoming : IncomingSyncStatus) : Bool :=
  decide (incoming = .starting) || decide (current = some .syncing)

/-- `getPersistedSyncCounters`. -/
def persistedSyncCounters (e : SyncPayload) : ℕ × ℕ :=
  if e.status = .starting then (0, 0) else (e.messageCount.toNat, e.conversations.toNat)

/-- The update of a `sync_status`. -/
def SyncColumns.apply (r : SyncColumns) (e : SyncPayload) : SyncColumns :=
  let counters := persistedSyncCounters e
  match e.status with
  | .starting => ⟨some .syncing, counters.1, counters.2⟩
  | .progress =>
    if r.syncStatus = some .syncing then
      ⟨r.syncStatus, max r.syncMessageCount counters.1, max r.syncConversationCount counters.2⟩
    else r
  | .completed =>
    if r.syncStatus = some .syncing then
      ⟨some .completed, max r.syncMessageCount counters.1, max r.syncConversationCount counters.2⟩
    else r

inductive SyncBroadcast
  | start (e : SyncPayload)
  | progress (e : SyncPayload)
  /-- `move` says which move from `syncing` to `completed` was the handler's own -/
  | complete (e : SyncPayload) (move : Option ℕ)
  | interrupted
  deriving DecidableEq

/-- The connection; for the record, the `starting` updates, who has moved the row from `syncing` to `completed`,
and what was broadcast. -/
structure SyncState where
  connection : Option SyncColumns
  startings : ℕ
  movers : List ℕ
  broadcasts : List SyncBroadcast

def SyncState.of (connection : Option SyncColumns) : SyncState :=
  ⟨connection, if connection.any (decide <| ·.syncStatus = some .syncing) then 1 else 0, [], []⟩

def SyncState.syncing (s : SyncState) : Bool := s.connection.any fun r => decide (r.syncStatus = some .syncing)

inductive SyncHandler
  | idle
  | received (e : SyncPayload)
  | updating (e : SyncPayload)
  | disconnected
  | interrupting (wasSyncing : Bool)
  | announcing (b : SyncBroadcast)
  deriving DecidableEq

inductive SyncAction
  | receive (e : SyncPayload)
  | disconnect
  | proceed
  | fail
  deriving DecidableEq

/-- What is broadcast after the update of `e`. -/
def SyncState.announcement (s : SyncState) (e : SyncPayload) : SyncBroadcast :=
  match e.status with
  | .starting => .start e
  | .progress => .progress e
  | .completed => .complete e (if s.syncing then some s.movers.length else none)

/-- The update of `e` by call `p`. -/
def SyncState.update (s : SyncState) (p : ℕ) (e : SyncPayload) : SyncState :=
  { s with
    connection := s.connection.map (·.apply e)
    startings := if e.status = .starting then s.startings + 1 else s.startings
    movers := if e.status = .completed ∧ s.syncing = true then s.movers ++ [p] else s.movers }

def syncAct (p : ℕ) (s : SyncState) : SyncHandler → SyncAction → Option (SyncState × SyncHandler)
  | .idle, .receive e => some (s, .received e)
  | .idle, .disconnect => some (s, .disconnected)
  | .received e, .proceed =>
    match s.connection with
    | none => some (s, .idle)
    | some r => some (s, if shouldApplySyncStatusEvent r.syncStatus e.status then .updating e else .idle)
  | .updating e, .proceed => some (s.update p e, .announcing (s.announcement e))
  | .disconnected, .proceed => some (s, .interrupting s.syncing)
  | .interrupting wasSyncing, .proceed =>
    if wasSyncing then
      some ({ s with connection := s.connection.map ({ · with syncStatus := some .interrupted }) },
        .announcing .interrupted)
    else some (s, .idle)
  | .announcing b, .proceed => some ({ s with broadcasts := b :: s.broadcasts }, .idle)
  | _, .fail => some (s, .idle)
  | _, _ => none

def syncSystem : Machine SyncState SyncHandler SyncAction Empty where
  act := syncAct
  env := fun e _ => nomatch e

end TeamInbox.Api
