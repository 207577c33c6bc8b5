import TeamInbox.Lib.Calls
import Mathlib.Tactic.SplitIfs

/-!
# TeamInbox.Messages.MediaResponse — the first media response wins

`handleDownloadResponseEvent`, for the responses to the downloads of one message.  A success is settled by a
compare-and-set on the row; a response that does not settle it looks whether any row refers to its upload, deletes
the object if none does, and leaves it to the cleanup queue if that fails.  A reference names one upload, and
`resolveMediaKey` says which object that is, if it is one of the tenant's.  A transaction or a query is one step,
and may fail.
-/

namespace TeamInbox.Messages

open TeamInbox.Lib

inductive MediaDownloadStatus
  | pending
  | downloading
  | completed
  | failed
  deriving DecidableEq

structure MediaColumns (Url : Type) where
  mediaUrl : Option Url
  mediaSize : Option ℕ
  status : Option MediaDownloadStatus
  error : Option String
  deriving DecidableEq

inductive MediaBroadcast
  | downloaded (mediaSize : Option ℕ)
  | downloadFailed (error : Option String)
  deriving DecidableEq

structure MediaDb (Url Key : Type) where
  /-- the connection is there and not archived -/
  active : Bool
  /-- the message, unless it has been purged -/
  row : Option (MediaColumns Url)
  /-- what the other messages refer to -/
  others : List Url
  /-- the objects whose deletion has been asked for, and those for which it has been confirmed -/
  sent : List Key
  deleted : List Key
  queued : List Url
  broadcasts : List MediaBroadcast
  /-- the call that has completed the row -/
  winner : Option ℕ
  /-- the uploads of the responses that have been given up -/
  losers : List Url
  deriving DecidableEq

structure DownloadResponse (Url : Type) where
  success : Bool
  mediaUrl : Option Url
  mediaSize : Option ℕ
  error : Option String
  deriving DecidableEq

inductive MediaCall (Url : Type)
  | idle
  | received (r : DownloadResponse Url)
  | reclaiming (url : Url)
  | deleting (url : Url)
  | queueing (url : Url)
  /-- the row has been completed, and the clients are to be told -/
  | completed (mediaSize : Option ℕ)
  | failed (error : Option String)
  deriving DecidableEq

inductive MediaAction (Url : Type)
  | respond (r : DownloadResponse Url)
  /-- the next transaction or query, and whether it succeeds -/
  | next (ok : Bool)
  deriving DecidableEq

section MediaResponse

variable {Url Key : Type} [DecidableEq Url] (resolveMediaKey : Url → Option Key)

def MediaColumns.settled (r : MediaColumns Url) : Bool := decide (r.status = some .completed) && r.mediaUrl.isSome

namespace MediaDb

def completes (s : MediaDb Url Key) : Bool := s.active && s.row.any fun r => !r.settled

def complete (p : ℕ) (url : Url) (mediaSize : Option ℕ) (s : MediaDb Url Key) : MediaDb Url Key :=
  { s with
    row := s.row.map fun r =>
      { r with
        mediaUrl := some url
        mediaSize := mediaSize.filter fun n => decide (n ≠ 0)
        status := some .completed }
    winner := some p }

def fails (s : MediaDb Url Key) : Bool := s.active && s.row.any fun r => decide (r.status ≠ some .completed)

def fail (error : Option String) (s : MediaDb Url Key) : MediaDb Url Key :=
  { s with
    row := s.row.map fun r =>
      { r with
        status := some .failed
        error := some ((error.filter fun e => decide (e ≠ "")).getD "Unknown error") } }

def referenced (s : MediaDb Url Key) (url : Url) : Bool :=
  s.row.any (fun r => decide (r.mediaUrl = some url)) || decide (url ∈ s.others)

def giveUp (url : Url) (s : MediaDb Url Key) : MediaDb Url Key := { s with losers := url :: s.losers }

def broadcast (b : MediaBroadcast) (s : MediaDb Url Key) : MediaDb Url Key := { s with broadcasts := b :: s.broadcasts }

def initial (active : Bool) (row : Option (MediaColumns Url)) (others : List Url) : MediaDb Url Key :=
  ⟨active, row, others, [], [], [], [], none, []⟩

end MediaDb

/-- The transaction of `handleDownloadResponseEvent`. -/
def settleResponse (p : ℕ) (s : MediaDb Url Key) (r : DownloadResponse Url) : MediaDb Url Key × MediaCall Url :=
  match r.success, r.mediaUrl with
  | true, some url =>
    if s.completes then (s.complete p url r.mediaSize, .completed r.mediaSize) else (s, .reclaiming url)
  | _, _ => if s.fails then (s.fail r.error, .failed r.error) else (s, .idle)

def mediaAct (p : ℕ) (s : MediaDb Url Key) :
    MediaCall Url → MediaAction Url → Option (MediaDb Url Key × MediaCall Url)
  | .idle, .respond r => some (s, .received r)
  | .received r, .next ok => some (if ok then settleResponse p s r else (s, .idle))
  | .reclaiming url, .next ok =>
    some (if ok then
      if s.referenced url then (s.giveUp url, .idle)
      else (s, if (resolveMediaKey url).isSome then .deleting url else .queueing url)
    else (s, .queueing url))
  | .deleting url, .next ok =>
    (resolveMediaKey url).map fun key =>
      let s := { s with sent := key :: s.sent }
      if ok then (({ s with deleted := key :: s.deleted } : MediaDb Url Key).giveUp url, .idle) else (s, .queueing url)
  | .queueing url, .next ok =>
    some ((if ok then { s with queued := url :: s.queued } else s : MediaDb Url Key).giveUp url, .idle)
  | .completed mediaSize, .next _ => some (s.broadcast (.downloaded mediaSize), .idle)
  | .failed error, .next _ => some (s.broadcast (.downloadFailed error), .idle)
  | _, _ => none

def mediaSystem : Machine (MediaDb Url Key) (MediaCall Url) (MediaAction Url) Empty where
  act := fun p s x a => mediaAct resolveMediaKey p s x a
  env := fun e _ => nomatch e

end MediaResponse

end TeamInbox.Messages
