import TeamInbox.Lib.Calls
import TeamInbox.Lib.Locks
import TeamInbox.Lib.Versions
import TeamInbox.Cases.Lifecycle

/-!
# TeamInbox.Cases.SendGuard — sends, case transitions and assignments of one thread

A conversation and its contact.  Every request is one transaction under READ COMMITTED: `requireSendAccess` and
`requireConversationSendAccess` with the message stamped with their case, the manual transitions and the assignments
of both families, the block of the contact, and `attachWorkflowContact`, which links the conversation to the contact
and files the rows of the conversation under it.  A transaction may roll back after any statement: that is also what
its errors do.

A request of the contact family locks the row of the contact, one of the conversation family that of the
conversation; a send by conversation that finds this linked goes on as one of the contact.
-/

namespace TeamInbox.Cases

open TeamInbox.Lib

/-- The rows a transaction may lock, which are also the keys a row is found by. -/
inductive ThreadKey
  | contact
  | conversation
  deriving DecidableEq

/-- A row of `contact_assignments` or `conversation_cases`: whether `contact_id` is the contact and `conversation_id`
the conversation. -/
structure Filed (α : Type) where
  ofContact : Bool
  ofConversation : Bool
  value : α
  deriving DecidableEq

namespace Filed

variable {α : Type}

def keyed (k : ThreadKey) (x : Filed α) : Bool :=
  match k with
  | .contact => x.ofContact
  | .conversation => x.ofConversation

/-- `SET contact_id`. -/
def adopt (x : Filed α) : Filed α := { x with ofContact := true }

/-- What `attachWorkflowContact` files under the contact. -/
def orphaned (x : Filed α) : Bool := x.ofConversation && !x.ofContact

/-- A new row of the family, with the conversation a contact is bridged to. -/
def under (k : ThreadKey) (bridged : Bool) (a : α) : Filed α :=
  match k with
  | .contact => ⟨true, bridged, a⟩
  | .conversation => ⟨false, true, a⟩

end Filed

structure Holder where
  assignedTo : ℕ
  /-- `unassigned_at IS NULL` -/
  current : Bool
  deriving DecidableEq

/-- A row of `conversations`. -/
structure ThreadRow where
  /-- `legacy_contact_id` is the contact -/
  linked : Bool
  archived : Bool
  /-- `kind = 'direct'` -/
  direct : Bool
  deriving DecidableEq

structure Guarded where
  /-- `is_blocked`, if there is such a contact -/
  contact : Versioned Bool
  conversation : Versioned ThreadRow
  assignments : Rows (Filed Holder)
  cases : Rows (Filed CaseStatus)
  locks : Locks ThreadKey
  /-- the sends committed under each key since its assignment was last changed: who sent, and whether this claims an
  unassigned thread -/
  sends : ThreadKey → List (ℕ × Bool)

def isCurrent (k : ThreadKey) (x : Filed Holder) : Bool := x.keyed k && x.value.current

def isActive (k : ThreadKey) (x : Filed CaseStatus) : Bool := x.keyed k && x.value.active

def inStatus (k : ThreadKey) (status : CaseStatus) (x : Filed CaseStatus) : Bool :=
  x.keyed k && decide (x.value = status)

namespace Guarded

def linked (s : Guarded) : Bool := s.conversation.committed.any ThreadRow.linked

def archived (s : Guarded) : Bool := s.conversation.committed.any ThreadRow.archived

def commit (p : ℕ) (s : Guarded) : Guarded :=
  { s with
    contact := s.contact.commit p
    conversation := s.conversation.commit p
    assignments := s.assignments.commit p
    cases := s.cases.commit p
    locks := s.locks.release p }

def rollback (p : ℕ) (s : Guarded) : Guarded :=
  { s with
    contact := s.contact.rollback p
    conversation := s.conversation.rollback p
    assignments := s.assignments.rollback p
    cases := s.cases.rollback p
    locks := s.locks.release p }

/-- `SELECT … FOR UPDATE`: `lockContact` and `lockConversation`. -/
def lock (p : ℕ) (k : ThreadKey) (s : Guarded) : Option Guarded :=
  let found := match k with
    | .contact => s.contact.committed.isSome
    | .conversation => s.conversation.committed.isSome
  if found then (s.locks.take p k).map fun locks => { s with locks } else none

/-- `getCurrentAssignment` and `getCurrentConversationAssignment`. -/
def assignee (p : ℕ) (k : ThreadKey) (s : Guarded) : Option ℕ :=
  (s.assignments.first p (isCurrent k)).bind fun i => (s.assignments[i]?).bind fun r =>
    (r.seenBy p).map fun x => x.value.assignedTo

def conversationIdForContact (p : ℕ) (s : Guarded) : Bool :=
  (s.conversation.seenBy p).any fun c => c.linked && !c.archived

/-- A statement has written `contact_assignments`: the two partial unique indexes admit it, or it waits or fails. -/
def setAssignments (assignments : Rows (Filed Holder)) (s : Guarded) : Option Guarded :=
  if assignments.Admits (isCurrent .contact) ∧ assignments.Admits (isCurrent .conversation) then
    some { s with assignments }
  else none

/-- Likewise for `conversation_cases`. -/
def setCases (cases : Rows (Filed CaseStatus)) (s : Guarded) : Option Guarded :=
  if cases.Admits (isActive .contact) ∧ cases.Admits (isActive .conversation) then some { s with cases } else none

def unassigned (x : Filed Holder) : Filed Holder := { x with value := { x.value with current := false } }

def withStatus (status : CaseStatus) (x : Filed CaseStatus) : Filed CaseStatus := { x with value := status }

/-- `unassignContact` and `unassignConversation`. -/
def unassign (p : ℕ) (k : ThreadKey) (s : Guarded) : Option Guarded :=
  (s.assignments.update p (fun _ => isCurrent k) unassigned).bind fun t => s.setAssignments t

/-- The `INSERT` of `assignContactToUser` and `assignConversationToUser`. -/
def insertAssignment (p : ℕ) (k : ThreadKey) (bridged : Bool) (user : ℕ) (s : Guarded) : Option Guarded :=
  s.setAssignments (s.assignments.insert p (.under k bridged ⟨user, true⟩))

/-- The statement of `resolveActiveCase` that writes. -/
def resolveCase (p i : ℕ) (s : Guarded) : Option Guarded :=
  if (s.cases[i]?).any fun r => (r.seenBy p).any fun x => x.value.active then
    (s.cases.update p (fun j x => decide (j = i) && x.value.active) (withStatus .resolved)).bind fun t => s.setCases t
  else none

/-- `setActiveCasePending` and `resumePendingCase`, which do nothing if the case is in the status already. -/
def flipCase (p : ℕ) (k : ThreadKey) (source target : CaseStatus) (s : Guarded) : Option Guarded :=
  if s.cases.any p (inStatus k source) then
    (s.cases.update p (fun _ => inStatus k source) (withStatus target)).bind fun t => s.setCases t
  else if s.cases.any p (inStatus k target) then some s
  else none

/-- `expectedMode` is the one the history asks for, and a reopen has a reason. -/
def mayOpen (p : ℕ) (k : ThreadKey) (reopen reason : Bool) (s : Guarded) : Bool :=
  let prior := s.cases.any p (Filed.keyed k)
  decide (prior = reopen) && (!prior || reason)

def insertCase (p : ℕ) (k : ThreadKey) (bridged : Bool) (s : Guarded) : Option Guarded :=
  s.setCases (s.cases.insert p (.under k bridged .opened))

/-- `attachWorkflowContact` up to the conversation: the contact of the endpoint, or a new one. -/
def link (p : ℕ) (s : Guarded) : Option Guarded :=
  (s.conversation.seenBy p).map fun row =>
    { s with
      contact := if s.contact.committed.isSome then s.contact else s.contact.write p false
      conversation := s.conversation.write p { row with linked := true } }

def adoptAssignments (p : ℕ) (s : Guarded) : Option Guarded :=
  (s.assignments.update p (fun _ => Filed.orphaned) Filed.adopt).bind fun t => s.setAssignments t

def adoptCases (p : ℕ) (s : Guarded) : Option Guarded :=
  (s.cases.update p (fun _ => Filed.orphaned) Filed.adopt).bind fun t => s.setCases t

end Guarded

inductive Transition
  | resolve
  | setPending
  | resume
  /-- `openCaseWithin` and `reopenAsNewCaseForConversation`: the `expectedMode`, and whether a reason is given -/
  | open (reopen reason : Bool)
  deriving DecidableEq

inductive GuardRequest
  | send (k : ThreadKey) (user : ℕ) (claimUnassigned : Bool)
  | transition (k : ThreadKey) (actor : ℕ) (kind : Transition)
  | assign (k : ThreadKey) (user : ℕ)
  | unassign (k : ThreadKey)
  | block (isBlocked : Bool)
  | attach
  deriving DecidableEq

def GuardRequest.key : GuardRequest → ThreadKey
  | .send k _ _ | .transition k _ _ | .assign k _ | .unassign k => k
  | .block _ => .contact
  | .attach => .conversation

inductive GuardStage
  | idle
  /-- a send by conversation has found its contact -/
  | relock (user : ℕ) (claimUnassigned : Bool)
  | locked (r : GuardRequest)
  /-- nobody is assigned: the send claims the thread -/
  | claiming (k : ThreadKey) (user : ℕ)
  /-- the assignment there was is closed -/
  | vacated (r : GuardRequest)
  /-- the conversation of the contact has been read -/
  | stamped (r : GuardRequest) (bridged : Bool)
  | cleared (r : GuardRequest)
  | chosen (r : GuardRequest) (i : ℕ)
  /-- `attachWorkflowContact` has linked the conversation -/
  | linkedUp
  /-- and filed its assignment under the contact -/
  | adopted
  /-- all is written; a message is stamped with the case -/
  | written (r : GuardRequest) (i : Option ℕ)
  deriving DecidableEq

inductive GuardAction
  | start (r : GuardRequest)
  | next
  | commit
  | rollback
  deriving DecidableEq

/-- The contact row of a send is locked and read in one statement. -/
def startContactSend (p user : ℕ) (claimUnassigned : Bool) (s : Guarded) : Option (Guarded × GuardStage) :=
  if s.contact.committed = some true then none
  else (s.lock p .contact).map fun s => (s, .locked (.send .contact user claimUnassigned))

def startConversationSend (p user : ℕ) (claimUnassigned : Bool) (s : Guarded) : Option (Guarded × GuardStage) :=
  if s.archived then none
  else if s.linked then (s.lock p .conversation).map fun s => (s, .relock user claimUnassigned)
  else (s.lock p .conversation).map fun s => (s, .locked (.send .conversation user claimUnassigned))

/-- A conversation that is linked, or not direct, is left as it is. -/
def startAttach (p : ℕ) (s : Guarded) : Option (Guarded × GuardStage) :=
  (s.lock p .conversation).map fun s =>
    if s.conversation.committed.any fun c => c.linked || !c.direct then (s, .written .attach none) else (s, .locked .attach)

/-- An `UPDATE` of the contact row locks it as well. -/
def startRequest (p : ℕ) (s : Guarded) : GuardRequest → Option (Guarded × GuardStage)
  | .send .contact user claim => startContactSend p user claim s
  | .send .conversation user claim => startConversationSend p user claim s
  | .attach => startAttach p s
  | r => (s.lock p r.key).map fun s => (s, .locked r)

def checkSend (p : ℕ) (k : ThreadKey) (user : ℕ) (claimUnassigned : Bool) (s : Guarded) : Option GuardStage :=
  match s.assignee p k with
  | some holder => if holder = user then some (.cleared (.send k user claimUnassigned)) else none
  | none => if claimUnassigned then some (.claiming k user) else some (.cleared (.send k user claimUnassigned))

/-- `assertActorOwnsContact` and `assertActorOwnsConversation`. -/
def Guarded.assertActorOwns (p : ℕ) (k : ThreadKey) (actor : ℕ) (kind : Transition) (s : Guarded) : Option GuardStage :=
  if (s.assignee p k).all fun holder => decide (holder = actor) then some (.cleared (.transition k actor kind)) else none

/-- The conversation a new row of the family is stamped with. -/
def bridge (p : ℕ) (k : ThreadKey) (s : Guarded) : Bool :=
  match k with
  | .contact => s.conversationIdForContact p
  | .conversation => true

def startTransition (p : ℕ) (k : ThreadKey) (actor : ℕ) (s : Guarded) : Transition → Option (Guarded × GuardStage)
  | .resolve => (s.cases.first p (isActive k)).map fun i => (s, .chosen (.transition k actor .resolve) i)
  | .setPending => (s.flipCase p k .opened .pending).map fun s => (s, .written (.transition k actor .setPending) none)
  | .resume => (s.flipCase p k .pending .opened).map fun s => (s, .written (.transition k actor .resume) none)
  | .open reopen reason =>
    if s.mayOpen p k reopen reason then some (s, .stamped (.transition k actor (.open reopen reason)) (bridge p k s))
    else none

def insertStamped (p : ℕ) (bridged : Bool) (s : Guarded) : GuardRequest → Option (Guarded × GuardStage)
  | .send k user claim =>
    (s.insertAssignment p k bridged user).map fun s => (s, .cleared (.send k user claim))
  | .assign k user => (s.insertAssignment p k bridged user).map fun s => (s, .written (.assign k user) none)
  | .transition k actor kind => (s.insertCase p k bridged).map fun s => (s, .written (.transition k actor kind) none)
  | _ => none

def nextStatement (p : ℕ) (s : Guarded) : GuardStage → Option (Guarded × GuardStage)
  | .relock user claim => startContactSend p user claim s
  | .locked (.send k user claim) => (checkSend p k user claim s).map fun x => (s, x)
  | .locked (.transition k actor kind) => (s.assertActorOwns p k actor kind).map fun x => (s, x)
  | .locked (.assign k user) => (s.unassign p k).map fun s => (s, .vacated (.assign k user))
  | .locked (.unassign k) => (s.unassign p k).map fun s => (s, .written (.unassign k) none)
  | .locked (.block isBlocked) =>
    some ({ s with contact := s.contact.write p isBlocked }, .written (.block isBlocked) none)
  | .locked .attach => (s.link p).map fun s => (s, .linkedUp)
  | .claiming k user => (s.unassign p k).map fun s => (s, .vacated (.send k user true))
  | .vacated r => some (s, .stamped r (bridge p r.key s))
  | .stamped r bridged => insertStamped p bridged s r
  | .cleared (.send k user claim) => (s.cases.first p (isActive k)).map fun i => (s, .chosen (.send k user claim) i)
  | .cleared (.transition k actor kind) => startTransition p k actor s kind
  | .chosen (.send k user claim) i => some (s, .written (.send k user claim) (some i))
  | .chosen (.transition k actor kind) i =>
    (s.resolveCase p i).map fun s => (s, .written (.transition k actor kind) none)
  | .linkedUp => (s.adoptAssignments p).map fun s => (s, .adopted)
  | .adopted => (s.adoptCases p).map fun s => (s, .written .attach none)
  | _ => none

def GuardRequest.record (r : GuardRequest) (s : Guarded) : Guarded :=
  match r with
  | .send k user claim =>
    { s with sends := Function.update s.sends k ((user, claim) :: s.sends k) }
  | .assign k _ | .unassign k =>
    { s with sends := fun k' => if k' = k ∨ s.linked = true then [] else s.sends k' }
  | _ => s

def guardAct (p : ℕ) (s : Guarded) : GuardStage → GuardAction → Option (Guarded × GuardStage)
  | .idle, .start r => startRequest p s r
  | .written r _, .commit => some (r.record (s.commit p), .idle)
  | .idle, .rollback => none
  | _, .rollback => some (s.rollback p, .idle)
  | x, .next => nextStatement p s x
  | _, _ => none

def guardSystem : Machine Guarded GuardStage GuardAction Empty where
  act := guardAct
  env e _ := e.elim

end TeamInbox.Cases
