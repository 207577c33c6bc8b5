import TeamInbox.Lib.Table
import TeamInbox.Lib.Calls

/-!
# TeamInbox.Contacts.Merge — merging contacts, and reversing a merge

`mergeContacts` and `unmergeContacts`, statement by statement.  A transaction's writes are applied when it commits;
until then the rows it has written or selected `FOR UPDATE` are locked, and a statement that needs a locked row is
not enabled.  Any other statement reads what has been committed.  What an unmerge reads of the event and of its
audit rows never changes, and is read with the source.  The locks of foreign keys are left out: the runs they
exclude are runs here.  `mergedBy`, `owned` and `reversed` are for the proofs.
-/

namespace TeamInbox.Contacts

open TeamInbox.Lib

structure Contact where
  isGroup : Bool
  mergedInto : Option ℕ
  archived : Bool
  /-- the event that set `mergedInto` -/
  mergedBy : Option ℕ
  deriving DecidableEq

structure ContactEndpoint where
  kind : String
  contact : Option ℕ
  deriving DecidableEq

structure MergeEvent where
  source : ℕ
  target : ℕ
  /-- what the source owned when the merge was committed -/
  owned : List ℕ
  deriving DecidableEq

/-- A row of `contact_endpoint_reassignment_events`. -/
structure Reassignment where
  mergeEvent : Option ℕ
  endpoint : ℕ
  previous : ℕ
  new : ℕ
  deriving DecidableEq

inductive LockedRow
  | contact (id : ℕ)
  | endpoint (id : ℕ)
  deriving DecidableEq

/-- The tables, and the locks with their holders. -/
structure ContactDb where
  contacts : Table ℕ Contact
  endpoints : Table ℕ ContactEndpoint
  events : List MergeEvent
  reassignments : List Reassignment
  locks : List (LockedRow × ℕ)
  /-- the events that have been reversed -/
  reversed : List ℕ

def MERGEABLE_ENDPOINT_KINDS : List String := ["person", "user", "phone", "email"]

/-- Where a call stands, and what it has read and written. -/
inductive MergeCall
  | idle
  | merging (source target : ℕ)
  | sourceLocked (source target : ℕ)
  | checked (source target : ℕ)
  | mergeable (source target : ℕ)
  /-- the endpoints to be moved, and those that have been -/
  | moving (source target : ℕ) (todo done : List ℕ)
  | unmerging (event : ℕ)
  /-- the audit rows to be looked at, and the endpoints restored, with their contacts -/
  | restoring (id : ℕ) (event : MergeEvent) (todo done : List (ℕ × ℕ))
  deriving DecidableEq

inductive MergeAction
  | mergeContacts (source target : ℕ)
  | unmergeContacts (event : ℕ)
  /-- the call's next statement; the last one comes with the commit -/
  | next
  | abort
  deriving DecidableEq

namespace ContactDb

def event (s : ContactDb) (id : ℕ) : Option MergeEvent := s.events[id]?

def free (s : ContactDb) (p : ℕ) (row : LockedRow) : Bool := s.locks.all fun l => decide (l.1 = row → l.2 = p)

def lock (p : ℕ) (row : LockedRow) (s : ContactDb) : ContactDb := { s with locks := (row, p) :: s.locks }

def release (p : ℕ) (s : ContactDb) : ContactDb := { s with locks := s.locks.filter fun l => decide (l.2 ≠ p) }

def endpointsOf (s : ContactDb) (contact : ℕ) : List ℕ :=
  (s.endpoints.entries.filter fun e => decide (e.2.contact = some contact)).map Prod.fst

def mergeableKinds (s : ContactDb) (source target : ℕ) : Bool :=
  s.endpoints.entries.all fun e =>
    decide (e.2.contact = some source ∨ e.2.contact = some target → e.2.kind ∈ MERGEABLE_ENDPOINT_KINDS)

/-- The checks of `mergeContacts` on the two rows. -/
def canMerge (s : ContactDb) (source target : ℕ) : Bool :=
  match s.contacts.find? source, s.contacts.find? target with
  | some x, some y => !x.isGroup && !y.isGroup && x.mergedInto.isNone && y.mergedInto.isNone
  | _, _ => false

/-- The audit rows of a merge: the endpoint, and the contact it came from. -/
def moved (s : ContactDb) (id : ℕ) : List (ℕ × ℕ) :=
  (s.reassignments.filter fun r => decide (r.mergeEvent = some id)).map fun r => (r.endpoint, r.previous)

end ContactDb

/-- Endpoints are given to contacts, one after another. -/
def moveEndpoints (moves : List (ℕ × ℕ)) (t : Table ℕ ContactEndpoint) : Table ℕ ContactEndpoint :=
  moves.foldl (fun t m => (t.updateWhere m.1 (fun _ => True) fun r => { r with contact := some m.2 }).1) t

namespace ContactDb

/-- The end of `mergeContacts`. -/
def commitMerge (source target : ℕ) (done : List ℕ) (s : ContactDb) : ContactDb :=
  { s with
    contacts := (s.contacts.updateWhere source (fun _ => True) fun r =>
      { r with
        mergedInto := some target
        archived := true
        mergedBy := some s.events.length }).1
    endpoints := moveEndpoints (done.map fun e => (e, target)) s.endpoints
    events := s.events ++ [⟨source, target, s.endpointsOf source⟩]
    reassignments := s.reassignments ++ done.map fun e => ⟨some s.events.length, e, source, target⟩ }

/-- The end of `unmergeContacts`. -/
def commitUnmerge (id : ℕ) (event : MergeEvent) (done : List (ℕ × ℕ)) (s : ContactDb) : ContactDb :=
  { s with
    contacts := (s.contacts.updateWhere event.source (fun _ => True) fun r =>
      { r with
        mergedInto := none
        archived := false
        mergedBy := none }).1
    endpoints := moveEndpoints done s.endpoints
    reassignments := s.reassignments ++ done.map fun m => ⟨none, m.1, event.target, m.2⟩
    reversed := id :: s.reversed }

/-- The reads and the check of `unmergeContacts`. -/
def checkUnmerge (id : ℕ) (s : ContactDb) : MergeCall :=
  match s.event id with
  | none => .idle
  | some event =>
    match s.contacts.find? event.source with
    | none => .idle
    | some source => if source.mergedInto = some event.target then .restoring id event (s.moved id) [] else .idle

end ContactDb

/-- The next statement of call `p`. -/
def mergeNext (p : ℕ) (s : ContactDb) : MergeCall → Option (ContactDb × MergeCall)
  | .idle => none
  | .merging source target =>
    if s.free p (.contact source) then some (s.lock p (.contact source), .sourceLocked source target) else none
  | .sourceLocked source target =>
    if s.free p (.contact target) then
      if s.canMerge source target then some (s.lock p (.contact target), .checked source target)
      else some (s.release p, .idle)
    else none
  | .checked source target =>
    if s.mergeableKinds source target then some (s, .mergeable source target) else some (s.release p, .idle)
  | .mergeable source target => some (s, .moving source target (s.endpointsOf source) [])
  | .moving source target (e :: todo) done =>
    if s.free p (.endpoint e) then some (s.lock p (.endpoint e), .moving source target todo (e :: done)) else none
  | .moving source target [] done => some ((s.commitMerge source target done).release p, .idle)
  | .unmerging id => some (s, s.checkUnmerge id)
  | .restoring id event ((e, previous) :: todo) done =>
    if s.free p (.endpoint e) then
      if (s.endpoints.find? e).bind ContactEndpoint.contact = some event.target then
        some (s.lock p (.endpoint e), .restoring id event todo ((e, previous) :: done))
      else some (s.lock p (.endpoint e), .restoring id event todo done)
    else none
  | .restoring id event [] done =>
    if s.free p (.contact event.source) then some ((s.commitUnmerge id event done).release p, .idle) else none

def mergeAct (p : ℕ) (s : ContactDb) : MergeCall → MergeAction → Option (ContactDb × MergeCall)
  | .idle, .mergeContacts source target => some (s, if source = target then .idle else .merging source target)
  | .idle, .unmergeContacts id => some (s, .unmerging id)
  | x, .next => mergeNext p s x
  | .idle, .abort => none
  | _, .abort => some (s.release p, .idle)
  | _, _ => none

def mergeSystem : Machine ContactDb MergeCall MergeAction Empty where
  act := fun p s x a => mergeAct p s x a
  env := fun e _ => nomatch e

structure Unmerged (s : ContactDb) : Prop where
  contacts : ∀ i r, s.contacts.find? i = some r → r.mergedInto = none ∧ r.mergedBy = none
  events : s.events = []
  reassignments : s.reassignments = []
  locks : s.locks = []
  reversed : s.reversed = []

def contactsBelow (n : ℕ) : Table ℕ Contact := (List.range n).foldl (fun t i => t.put i ⟨false, none, false, none⟩) .empty

theorem contactsBelow_find? {n i : ℕ} {r : Contact} (h : (contactsBelow n).find? i = some r) :
    r = ⟨false, none, false, none⟩ := by
  have hall : ∀ (l : List ℕ) (t : Table ℕ Contact), (∀ i r, t.find? i = some r → r = ⟨false, none, false, none⟩) →
      ∀ i r, (l.foldl (fun t i => t.put i ⟨false, none, false, none⟩) t).find? i = some r →
        r = ⟨false, none, false, none⟩ := by
    intro l
    induction l with
    | nil => exact fun t ht => ht
    | cons j l ih =>
      intro t ht
      refine ih _ fun i r hr => ?_
      rw [Table.find?_put] at hr
      split_ifs at hr
      · exact (Option.some.inj hr).symm
      · exact ht i r hr
  exact hall (List.range n) .empty (fun _ _ h => absurd h (Option.some_ne_none _).symm) i r h

def unmerged (n : ℕ) (endpoints : Table ℕ ContactEndpoint) : ContactDb := ⟨contactsBelow n, endpoints, [], [], [], []⟩

theorem unmerged_unmerged (n : ℕ) (endpoints : Table ℕ ContactEndpoint) : Unmerged (unmerged n endpoints) where
  contacts := fun i r hr => by
    rw [contactsBelow_find? hr]
    exact ⟨rfl, rfl⟩
  events := rfl
  reassignments := rfl
  locks := rfl
  reversed := rfl

end TeamInbox.Contacts
