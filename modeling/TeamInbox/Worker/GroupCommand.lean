import TeamInbox.Lib.Run
import TeamInbox.Worker.Ledger

/-!
# TeamInbox.Worker.GroupCommand — a group mutation and its report

`handleGroupCommand` runs a group mutation, records its result in the ledger and reports it; a
redelivery that finds the record reports it again and does not ask WhatsApp a second time.  The
deliveries of a connection come one after the other.  `GroupChoices` holds what the environment answers
during one delivery: the mutation, every statement, every read-back and every publication.
-/

namespace TeamInbox.Worker

open TeamInbox.Lib

/-! ### Data -/

inductive GroupCommandType
  | create
  | leave
  | inviteLink
  | joinRequestsFetch
  | joinRequestsUpdate
  | updateSettings
  | sync
  | addParticipants
  | removeParticipants
  | removeParticipant
  | promoteAdmin
  | demoteAdmin
  | other (name : String)
  deriving DecidableEq

def GroupCommandType.name : GroupCommandType → String
  | .create => "group_create"
  | .leave => "group_leave"
  | .inviteLink => "group_invite_link"
  | .joinRequestsFetch => "group_join_requests_fetch"
  | .joinRequestsUpdate => "group_join_requests_update"
  | .updateSettings => "group_update_settings"
  | .sync => "group_sync"
  | .addParticipants => "group_add_participants"
  | .removeParticipants => "group_remove_participants"
  | .removeParticipant => "group_remove_participant"
  | .promoteAdmin => "group_promote_admin"
  | .demoteAdmin => "group_demote_admin"
  | .other name => name

def participantActionFor : GroupCommandType → Option String
  | .addParticipants => some "add"
  | .removeParticipants | .removeParticipant => some "remove"
  | .promoteAdmin => some "promote"
  | .demoteAdmin => some "demote"
  | _ => none

/-- `GroupCommand`, less the fields that are only handed to WhatsApp. -/
structure GroupCommand where
  type : GroupCommandType
  reset : Bool
  decision : String
  deriving DecidableEq

structure GroupParticipantResult where
  jid : String
  code : ℕ
  applied : Bool
  deriving DecidableEq

/-- `storedGroupResult`, the result column of a group command. -/
structure StoredGroupResult where
  commandType : String
  snapshot : String
  inviteLink : String
  results : List GroupParticipantResult
  deriving DecidableEq

/-- The scrubbed result `{}`. -/
def StoredGroupResult.empty : StoredGroupResult := ⟨"", "", "", []⟩

/-- WhatsApp applied none of the requested participants. -/
def StoredGroupResult.rejectsAll (stored : StoredGroupResult) : Prop :=
  stored.results ≠ [] ∧ ∀ r ∈ stored.results, r.applied = false

inductive GroupOutcome
  | failed
  | appliedNotSynced
  deriving DecidableEq

/-- What the API is told: the state of the group, or a `command_result`. -/
inductive GroupReport
  | state
  | result (outcome : GroupOutcome) (error : String)
  deriving DecidableEq

inductive GroupEvent
  | applied (stored : StoredGroupResult)
  | reported (report : GroupReport)
  | acked
  deriving DecidableEq

structure GroupWorld where
  ledger : Ledger StoredGroupResult
  /-- What happened, the latest first. -/
  log : List (CommandID × GroupEvent)

def GroupWorld.start : GroupWorld := ⟨Table.empty, []⟩

/-- The errors of `executeGroupCommand`.  The last two carry the result `markReported` closes over. -/
inductive GroupError
  | plain (text : String)
  | rejected (detail : String) (stored : StoredGroupResult)
  | syncFailed (cause : String) (stored : StoredGroupResult)
  deriving DecidableEq

structure GroupMutation where
  snapshot : String
  inviteLink : String
  results : List GroupParticipantResult
  deriving DecidableEq

/-- The answers of the environment during one delivery. -/
structure GroupChoices where
  read : Fault
  mutation : Except String GroupMutation
  save : Fault
  /-- `GetGroupJoinRequests`, or reading an invite link. -/
  fetch : Except String Unit
  /-- `GetGroupSnapshot`. -/
  readBack : Except String Unit
  publishFetched : Fault
  publishSnapshot : Fault
  publishResult : Fault
  mark : Fault
  scrub : Fault
  markAgain : Fault
  scrubAgain : Fault

/-! ### Statements and publications -/

abbrev GroupM := StateM GroupWorld

namespace GroupM

def record (id : CommandID) (e : GroupEvent) : GroupM Unit :=
  modify fun w => { w with log := (id, e) :: w.log }

/-- A call that changes the world by `f` unless it fails. -/
def faulty (fault : Fault) (text : String) (f : GroupWorld → GroupWorld) : GroupM (Except String Unit) :=
  fun w => fault.answer text () w (f w)

def readState (fault : Fault) (id : CommandID) :
    GroupM (Except String (Option (StoredGroupResult × Bool))) :=
  fun w => fault.answer "get processed command state" (w.ledger.getProcessedCommandState id) w w

def save (fault : Fault) (id : CommandID) (stored : StoredGroupResult) : GroupM (Except String Unit) :=
  faulty fault "save processed command" fun w =>
    { w with ledger := w.ledger.saveProcessedCommand (fun _ => false) id stored.commandType stored }

def mark (fault : Fault) (id : CommandID) : GroupM (Except String Unit) :=
  faulty fault "mark command event published" fun w =>
    { w with ledger := w.ledger.markCommandEventPublished id }

def scrub (fault : Fault) (id : CommandID) : GroupM (Except String Unit) :=
  faulty fault "scrub processed command" fun w =>
    { w with ledger := w.ledger.scrubProcessedCommandResult StoredGroupResult.empty id }

def publish (fault : Fault) (id : CommandID) (report : GroupReport) : GroupM (Except String Unit) :=
  faulty fault "publish" fun w => { w with log := (id, .reported report) :: w.log }

end GroupM

/-! ### The handler -/

section Handler

variable (o : GroupChoices) (id : CommandID) (cmd : GroupCommand)

/-- `rejectionFor`: an error when no participant was applied. -/
def rejectionFor (action : String) (results : List GroupParticipantResult) : Option String :=
  if results = [] then none
  else if results.any (·.applied) then none
  else some ("WhatsApp did not " ++ action ++ ": " ++
    ", ".intercalate (results.map fun r => r.jid ++ " (code " ++ toString r.code ++ ")"))

/-- `markGroupCommandReported`; a failed scrub is only logged. -/
def markGroupCommandReported (mark scrub : Fault) (stored : StoredGroupResult) :
    GroupM (Except String Unit) := do
  if id = "" then pure (.ok ())
  else
    match ← GroupM.mark mark id with
    | .error e => pure (.error e)
    | .ok _ =>
      if stored.inviteLink ≠ "" then
        let _ ← GroupM.scrub scrub id
        pure (.ok ())
      else pure (.ok ())

/-- `publishGroupSnapshot`: read the group back and publish it. -/
def publishGroupSnapshot : GroupM (Except String Unit) :=
  match o.readBack with
  | .error e => pure (.error e)
  | .ok _ => GroupM.publish o.publishSnapshot id .state

/-- What a `report` function of `executeGroupCommand` returns: done, an error, or a rejection. -/
inductive ReportResult
  | done
  | error (text : String)
  | rejection (detail : String)
  deriving DecidableEq

def ReportResult.ofExcept : Except String Unit → ReportResult
  | .ok _ => .done
  | .error e => .error e

def ReportResult.ofRejection : Option String → ReportResult
  | none => .done
  | some detail => .rejection detail

def reportEvent (_ : StoredGroupResult) : GroupM ReportResult := do
  let r ← GroupM.publish o.publishFetched id .state
  pure (.ofExcept r)

def reportSnapshot (action : String) (stored : StoredGroupResult) : GroupM ReportResult := do
  match ← publishGroupSnapshot o id with
  | .error e => pure (.error e)
  | .ok _ => pure (.ofRejection (rejectionFor action stored.results))

/-- The report of decided join requests: the remaining requests, then the group. -/
def reportJoinRequests (stored : StoredGroupResult) : GroupM ReportResult :=
  match o.fetch with
  | .error e => pure (.error e)
  | .ok _ => do
    match ← GroupM.publish o.publishFetched id .state with
    | .error e => pure (.error e)
    | .ok _ => reportSnapshot o id (cmd.decision ++ " join requests for") stored

/-- `reportGroupCommand` under `asGroupSyncFailure`. -/
def reportGroupCommand (report : StoredGroupResult → GroupM ReportResult) (stored : StoredGroupResult) :
    GroupM (Except GroupError Unit) := do
  match ← report stored with
  | .rejection detail => pure (.error (.rejected detail stored))
  | .error e => pure (.error (.syncFailed e stored))
  | .done =>
    match ← markGroupCommandReported id o.mark o.scrub stored with
    | .error e => pure (.error (.syncFailed e stored))
    | .ok _ => pure (.ok ())

/-- `apply()` with its success in the history. -/
def applyMutation (keep : GroupMutation → StoredGroupResult) :
    GroupM (Except GroupError StoredGroupResult) :=
  match o.mutation with
  | .error e => pure (.error (.plain e))
  | .ok m => do
    let stored := { keep m with commandType := cmd.type.name }
    GroupM.record id (.applied stored)
    pure (.ok stored)

def applyGroupCommandOnce (keep : GroupMutation → StoredGroupResult)
    (report : StoredGroupResult → GroupM ReportResult) : GroupM (Except GroupError Unit) :=
  if id = "" then do
    -- no durable identity, no ledger
    match ← applyMutation o id cmd keep with
    | .error e => pure (.error e)
    | .ok stored => reportGroupCommand o id report stored
  else do
    match ← GroupM.readState o.read id with
    | .error e => pure (.error (.plain ("read command ledger: " ++ e)))
    | .ok (some (_, true)) => pure (.ok ())
    | .ok (some (stored, false)) =>
      if stored.commandType ≠ "" ∧ stored.commandType ≠ cmd.type.name then
        pure (.error (.plain ("ledger entry " ++ id ++ " holds a " ++ stored.commandType ++
          " result, not " ++ cmd.type.name)))
      else reportGroupCommand o id report stored
    | .ok none =>
      match ← applyMutation o id cmd keep with
      | .error e => pure (.error e)
      | .ok stored =>
        match ← GroupM.save o.save id stored with
        | .error e => pure (.error (.plain ("save group result: " ++ e)))
        | .ok _ => reportGroupCommand o id report stored

/-- The commands that run through `applyGroupCommandOnce`. -/
def GroupCommand.ledgered (cmd : GroupCommand) : Bool :=
  match cmd.type with
  | .create | .leave | .joinRequestsUpdate => true
  | .inviteLink => cmd.reset
  | t => (participantActionFor t).isSome

def ofPlain : Except String Unit → Except GroupError Unit
  | .ok _ => .ok ()
  | .error e => .error (.plain e)

def executeGroupCommand : GroupM (Except GroupError Unit) :=
  match cmd.type with
  | .create =>
    applyGroupCommandOnce o id cmd (fun m => { StoredGroupResult.empty with snapshot := m.snapshot })
      (reportEvent o id)
  | .leave => applyGroupCommandOnce o id cmd (fun _ => StoredGroupResult.empty) (reportEvent o id)
  | .inviteLink =>
    if cmd.reset then
      applyGroupCommandOnce o id cmd
        (fun m => { StoredGroupResult.empty with inviteLink := m.inviteLink }) (reportEvent o id)
    else
      match o.fetch with
      | .error e => pure (.error (.plain e))
      | .ok _ => do
        let r ← GroupM.publish o.publishFetched id .state
        pure (ofPlain r)
  | .joinRequestsFetch =>
    match o.fetch with
    | .error e => pure (.error (.plain e))
    | .ok _ => do
      let r ← GroupM.publish o.publishFetched id .state
      pure (ofPlain r)
  | .joinRequestsUpdate =>
    applyGroupCommandOnce o id cmd (fun m => { StoredGroupResult.empty with results := m.results })
      (reportJoinRequests o id cmd)
  | .updateSettings => do
    -- the snapshot is published whether or not every setting was applied
    let r ← publishGroupSnapshot o id
    match o.mutation with
    | .error e => pure (.error (.plain e))
    | .ok _ => pure (ofPlain r)
  | .sync => do
    let r ← publishGroupSnapshot o id
    pure (ofPlain r)
  | t =>
    match participantActionFor t with
    | none => pure (.error (.plain ("unsupported group command \"" ++ t.name ++ "\"")))
    | some action =>
      applyGroupCommandOnce o id cmd (fun m => { StoredGroupResult.empty with results := m.results })
        (reportSnapshot o id action)

/-- Attempts of a command, counted by the broker. -/
def commandMaxAttempts : ℕ := 3

/-- `retryCommand`: a failed publication of the failure is only logged. -/
def retryCommand (attempt : ℕ) (text : String) : GroupM Unit := do
  if commandMaxAttempts ≤ attempt then
    let _ ← GroupM.publish o.publishResult id (.result .failed text)
    GroupM.record id .acked

/-- `retryAppliedGroupCommand`. -/
def retryAppliedGroupCommand (attempt : ℕ) (cause : String) (stored : StoredGroupResult) :
    GroupM Unit := do
  if commandMaxAttempts ≤ attempt then
    match ← GroupM.publish o.publishResult id (.result .appliedNotSynced
        ("The change was applied on WhatsApp, but this workspace could not be refreshed (" ++ cause ++
          "). It will catch up on its own; no need to repeat the action.")) with
    | .error _ => pure ()
    | .ok _ =>
      let _ ← markGroupCommandReported id o.markAgain o.scrubAgain stored
      GroupM.record id .acked

/-- One delivery; a delivery that is not acknowledged is redelivered. -/
def handleGroupCommand (attempt : ℕ) : GroupM Unit := do
  match ← executeGroupCommand o id cmd with
  | .ok _ => GroupM.record id .acked
  | .error (.syncFailed cause stored) => retryAppliedGroupCommand o id attempt cause stored
  | .error (.rejected detail stored) =>
    match ← GroupM.publish o.publishResult id (.result .failed detail) with
    | .error _ => pure ()
    | .ok _ =>
      match ← markGroupCommandReported id o.mark o.scrub stored with
      | .error _ => pure ()
      | .ok _ => GroupM.record id .acked
  | .error (.plain text) => retryCommand o id attempt text

end Handler

/-- A delivery of the command `id` with the count the broker attaches to it. -/
structure GroupDelivery where
  id : CommandID
  attempt : ℕ
  choices : GroupChoices

/-- One delivery of a connection whose commands are `cmds`. -/
def groupStep (cmds : CommandID → GroupCommand) (w : GroupWorld) (d : GroupDelivery) :
    Option GroupWorld :=
  some (handleGroupCommand d.choices d.id (cmds d.id) d.attempt w).2

end TeamInbox.Worker
