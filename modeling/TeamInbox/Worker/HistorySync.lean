import Mathlib.Algebra.Group.Prod
import Mathlib.Algebra.GroupWithZero.Nat
import TeamInbox.Lib.Run
import Mathlib.Data.List.Induction
import Mathlib.Tactic.Cases

/-!
# TeamInbox.Worker.HistorySync — the lifecycle of a history sync

The tracked chunks of `handleHistorySync`, one after the other, and the idle timer of `finishHistorySyncChunk`.  Every
section under `historySyncMu` is one step; between two of them the timer may fire, and a callback that has fired waits for
the lock as long as it likes.  A timer is named by the activity it was armed with.

The log keeps, in order, what `publishSyncStatusLocked` hands to the publisher (if there is one) and what is added.
-/

namespace TeamInbox.Worker

open TeamInbox.Lib

inductive HistorySyncType
  | initialBootstrap
  | full
  | recent
  | pushName
  | initialStatusV3
  | nonBlockingData
  | onDemand
  deriving DecidableEq

def isTrackedHistorySyncType : HistorySyncType → Bool
  | .initialBootstrap | .full | .recent => true
  | _ => false

def isFinalHistorySyncChunk (syncType : HistorySyncType) (progress : ℕ) : Bool :=
  decide (syncType = .recent ∧ 100 ≤ progress)

inductive LifecycleStatus
  | starting
  | progress
  | completed
  deriving DecidableEq

inductive HistoryEntry
  | published (status : LifecycleStatus) (messages conversations : ℕ)
  | added (messages conversations : ℕ)
  deriving DecidableEq

structure HistoryState where
  /-- A chunk is between its begin and its finish. -/
  inChunk : Bool
  historySyncActive : Bool
  historySyncMessages : ℕ
  historySyncConversations : ℕ
  historySyncActivity : ℕ
  historySyncTimer : Option ℕ
  running : List ℕ
  /-- The timers whose callback waits for the lock. -/
  fired : List ℕ
  /-- `config.Ctx` is done. -/
  done : Bool
  log : List HistoryEntry
  deriving DecidableEq

namespace HistoryState

def new : HistoryState where
  inChunk := false
  historySyncActive := false
  historySyncMessages := 0
  historySyncConversations := 0
  historySyncActivity := 0
  historySyncTimer := none
  running := []
  fired := []
  done := false
  log := []

def publishSyncStatusLocked (status : LifecycleStatus) (s : HistoryState) : HistoryState :=
  { s with
    log := s.log ++ [.published status s.historySyncMessages s.historySyncConversations] }

/-- `Stop` and forget the timer; a callback that has fired still comes. -/
def stopTimer (s : HistoryState) : HistoryState :=
  match s.historySyncTimer with
  | none => s
  | some timer =>
    { s with
      historySyncTimer := none
      running := s.running.erase timer }

def beginHistorySyncChunk (s : HistoryState) : HistoryState :=
  let s := { s with
    historySyncActivity := s.historySyncActivity + 1 }.stopTimer
  if s.historySyncActive then s
  else
    { s with
      historySyncActive := true
      historySyncMessages := 0
      historySyncConversations := 0 }.publishSyncStatusLocked .starting

def addHistorySyncProgress (messages conversations : ℕ) (s : HistoryState) : HistoryState :=
  if s.historySyncActive then
    { s with
      historySyncMessages := s.historySyncMessages + messages
      historySyncConversations := s.historySyncConversations + conversations }
  else s

def publishHistorySyncProgress (s : HistoryState) : HistoryState :=
  if s.historySyncActive then s.publishSyncStatusLocked .progress else s

def completeHistorySyncLocked (s : HistoryState) : HistoryState :=
  let s := s.stopTimer.publishSyncStatusLocked .completed
  { s with
    historySyncActive := false
    historySyncActivity := s.historySyncActivity + 1 }

def finishHistorySyncChunk (final : Bool) (s : HistoryState) : HistoryState :=
  if s.historySyncActive = false then s
  else if final then s.completeHistorySyncLocked
  else
    { s with
      historySyncActivity := s.historySyncActivity + 1
      historySyncTimer := some (s.historySyncActivity + 1)
      running := (s.historySyncActivity + 1) :: s.running }

/-- The callback of the timer that was armed with this activity. -/
def idleTimeout (activity : ℕ) (s : HistoryState) : HistoryState :=
  if s.historySyncActive = false ∨ s.historySyncActivity ≠ activity then s
  else if s.done then s
  else s.completeHistorySyncLocked

end HistoryState

inductive HistoryAction
  | begin
  | add (messages conversations : ℕ)
  | progress
  | finish (final : Bool)
  /-- The runtime fires a timer that runs; its callback starts. -/
  | fire (timer : ℕ)
  | callback (timer : ℕ)
  | cancel
  deriving DecidableEq

def historyStep (s : HistoryState) : HistoryAction → Option HistoryState
  | .begin =>
    if s.inChunk then none
    else
      some { s.beginHistorySyncChunk with
        inChunk := true }
  | .add messages conversations =>
    if s.inChunk then
      some { s.addHistorySyncProgress messages conversations with
        log := s.log ++ [.added messages conversations] }
    else none
  | .progress => if s.inChunk then some s.publishHistorySyncProgress else none
  | .finish final =>
    if s.inChunk then
      some { s.finishHistorySyncChunk final with
        inChunk := false }
    else none
  | .fire timer =>
    if timer ∈ s.running then
      some { s with
        running := s.running.erase timer
        fired := timer :: s.fired }
    else none
  | .callback timer =>
    if timer ∈ s.fired then
      some ({ s with
        fired := s.fired.erase timer }.idleTimeout timer)
    else none
  | .cancel =>
    some { s with
      done := true }

/-- The results of a chunk: each is added, and every tenth one is followed by a progress. -/
def resultSteps : ℕ → List ℕ → List HistoryAction
  | _, [] => []
  | n, messages :: rest =>
    .add messages 1 :: (if (n + 1) % 10 = 0 then .progress :: resultSteps (n + 1) rest else resultSteps (n + 1) rest)

/-- What `handleHistorySync` does to the lifecycle, from the messages of each conversation of the chunk. -/
def handleHistorySync (syncType : HistorySyncType) (progress : ℕ) (results : List ℕ) : List HistoryAction :=
  if isTrackedHistorySyncType syncType then
    .begin :: (resultSteps 0 results ++
      (if results.length % 10 ≠ 0 ∨ results.length = 0 then [.progress] else []) ++
      [.finish (isFinalHistorySyncChunk syncType progress)])
  else []

/-! ### The blocks of a log -/

inductive HistoryItem
  | added (messages conversations : ℕ)
  | progress
  deriving DecidableEq

namespace HistoryItem

def messages : HistoryItem → ℕ
  | .added messages _ => messages
  | .progress => 0

def conversations : HistoryItem → ℕ
  | .added _ conversations => conversations
  | .progress => 0

end HistoryItem

/-- The entries of a block that has counted `m` and `c` so far. -/
def blockEntries (m c : ℕ) : List HistoryItem → List HistoryEntry
  | [] => []
  | .added messages conversations :: items =>
    .added messages conversations :: blockEntries (m + messages) (c + conversations) items
  | .progress :: items => .published .progress m c :: blockEntries m c items

def openBlock (items : List HistoryItem) : List HistoryEntry := .published .starting 0 0 :: blockEntries 0 0 items

/-- A block ends with the sums of its additions. -/
def closedBlock (items : List HistoryItem) : List HistoryEntry :=
  openBlock items ++
    [.published .completed (items.map HistoryItem.messages).sum (items.map HistoryItem.conversations).sum]

def publishedCounts : HistoryEntry → Option (ℕ × ℕ)
  | .published _ messages conversations => some (messages, conversations)
  | .added _ _ => none

/-- The counts that are published do not decrease. -/
def NonDecreasing (entries : List HistoryEntry) : Prop :=
  (entries.filterMap publishedCounts).Pairwise fun a b => a.1 ≤ b.1 ∧ a.2 ≤ b.2

/-- The log is a sequence of blocks, the last one perhaps not completed, and no count decreases in a block. -/
def InBlocks (log : List HistoryEntry) : Prop :=
  ∃ (closed : List (List HistoryItem)) (last : Option (List HistoryItem)),
    log = (closed.map closedBlock ++ last.toList.map openBlock).flatten ∧
      ∀ block ∈ closed.map closedBlock ++ last.toList.map openBlock, NonDecreasing block

/-- Between the begin and the finish of a chunk no completion is published. -/
def Uncompleted (s : HistoryState) (_ : HistoryAction) (s' : HistoryState) : Prop :=
  s.inChunk = true → s'.inChunk = true → s'.log = s.log ∨
    ∃ e, s'.log = s.log ++ [e] ∧ ∀ messages conversations, e ≠ .published .completed messages conversations

/-- The log, and what the counters know of its last block. -/
structure LogInv (s : HistoryState) (closed : List (List HistoryItem)) (last : Option (List HistoryItem)) : Prop where
  log : s.log = (closed.map closedBlock ++ last.toList.map openBlock).flatten
  active : s.historySyncActive = last.isSome
  messages : ∀ items, last = some items → s.historySyncMessages = (items.map HistoryItem.messages).sum
  conversations : ∀ items, last = some items → s.historySyncConversations = (items.map HistoryItem.conversations).sum

/-- In a chunk the sync is active, and no timer is of the current activity. -/
structure TimerInv (s : HistoryState) : Prop where
  active : s.inChunk = true → s.historySyncActive = true
  running : ∀ t ∈ s.running, t ≤ s.historySyncActivity ∧ (s.inChunk = true → t < s.historySyncActivity)
  fired : ∀ t ∈ s.fired, t ≤ s.historySyncActivity ∧ (s.inChunk = true → t < s.historySyncActivity)

structure HistoryInv (s : HistoryState) : Prop where
  log : ∃ closed last, LogInv s closed last
  timers : TimerInv s

section Blocks

variable {m c : ℕ} {items : List HistoryItem} {i : HistoryItem}

theorem blockEntries_concat : blockEntries m c (items ++ [i]) = blockEntries m c items ++
    blockEntries (m + (items.map HistoryItem.messages).sum) (c + (items.map HistoryItem.conversations).sum) [i] := by
  induction items generalizing m c with
  | nil => rfl
  | cons j items ih =>
    cases j with
    | added messages conversations =>
      rw [List.cons_append, blockEntries, ih, blockEntries, List.map_cons, List.map_cons, List.sum_cons, List.sum_cons,
        ← Nat.add_assoc, ← Nat.add_assoc]
      rfl
    | progress =>
      rw [List.cons_append, blockEntries, ih, blockEntries, List.map_cons, List.map_cons, List.sum_cons, List.sum_cons]
      show _ = _ :: (_ ++ blockEntries (m + (0 + _)) (c + (0 + _)) [i])
      rw [Nat.zero_add, Nat.zero_add]

theorem openBlock_added (messages conversations : ℕ) :
    openBlock (items ++ [.added messages conversations]) = openBlock items ++ [.added messages conversations] := by
  unfold openBlock
  rw [blockEntries_concat]
  rfl

theorem openBlock_progress : openBlock (items ++ [.progress]) = openBlock items ++
    [.published .progress (items.map HistoryItem.messages).sum (items.map HistoryItem.conversations).sum] := by
  unfold openBlock
  rw [blockEntries_concat, Nat.zero_add, Nat.zero_add]
  rfl

/-- The counts of the rest of a block, from the counts so far on. -/
def countsFrom (m c : ℕ) (items : List HistoryItem) : List (ℕ × ℕ) :=
  (blockEntries m c items ++ [HistoryEntry.published .completed (m + (items.map HistoryItem.messages).sum)
    (c + (items.map HistoryItem.conversations).sum)]).filterMap publishedCounts

theorem countsFrom_added (messages conversations : ℕ) : countsFrom m c (.added messages conversations :: items) =
    countsFrom (m + messages) (c + conversations) items := by
  unfold countsFrom
  rw [List.map_cons, List.map_cons, List.sum_cons, List.sum_cons, ← Nat.add_assoc, ← Nat.add_assoc]
  rfl

theorem countsFrom_progress : countsFrom m c (.progress :: items) = (m, c) :: countsFrom m c items := by
  unfold countsFrom
  rw [List.map_cons, List.map_cons, List.sum_cons, List.sum_cons]
  show List.filterMap _ (_ :: (_ ++ [HistoryEntry.published .completed (m + (0 + _)) (c + (0 + _))])) = _
  rw [Nat.zero_add, Nat.zero_add]
  rfl

theorem counts_grow (m c : ℕ) (items : List HistoryItem) : (∀ b ∈ countsFrom m c items, m ≤ b.1 ∧ c ≤ b.2) ∧
    (countsFrom m c items).Pairwise fun a b => a.1 ≤ b.1 ∧ a.2 ≤ b.2 := by
  induction items generalizing m c with
  | nil =>
    refine ⟨fun b hb => ?_, List.pairwise_singleton _ _⟩
    obtain rfl := List.mem_singleton.mp hb
    exact ⟨Nat.le_add_right _ _, Nat.le_add_right _ _⟩
  | cons i items ih =>
    cases i with
    | added messages conversations =>
      obtain ⟨hlower, hpairwise⟩ := ih (m + messages) (c + conversations)
      rw [countsFrom_added]
      refine ⟨fun b hb => ?_, hpairwise⟩
      obtain ⟨hm, hc⟩ := hlower b hb
      exact ⟨Nat.le_trans (Nat.le_add_right _ _) hm, Nat.le_trans (Nat.le_add_right _ _) hc⟩
    | progress =>
      obtain ⟨hlower, hpairwise⟩ := ih m c
      rw [countsFrom_progress]
      exact ⟨List.forall_mem_cons.mpr ⟨⟨Nat.le_refl _, Nat.le_refl _⟩, hlower⟩,
        List.pairwise_cons.mpr ⟨hlower, hpairwise⟩⟩

theorem nonDecreasing_closedBlock (items : List HistoryItem) : NonDecreasing (closedBlock items) := by
  obtain ⟨hlower, hpairwise⟩ := counts_grow 0 0 items
  have hcounts : (closedBlock items).filterMap publishedCounts = (0, 0) :: countsFrom 0 0 items := by
    unfold countsFrom
    rw [Nat.zero_add, Nat.zero_add]
    rfl
  unfold NonDecreasing
  rw [hcounts]
  exact List.pairwise_cons.mpr ⟨hlower, hpairwise⟩

theorem nonDecreasing_openBlock (items : List HistoryItem) : NonDecreasing (openBlock items) := by
  have hclosed := nonDecreasing_closedBlock items
  unfold closedBlock NonDecreasing at hclosed
  rw [List.filterMap_append] at hclosed
  exact (List.pairwise_append.mp hclosed).1

theorem LogInv.inBlocks {s : HistoryState} {closed : List (List HistoryItem)} {last : Option (List HistoryItem)}
    (h : LogInv s closed last) : InBlocks s.log := by
  refine ⟨closed, last, h.log, fun block hblock => ?_⟩
  rcases List.mem_append.mp hblock with hblock | hblock
  · obtain ⟨items, -, rfl⟩ := List.mem_map.mp hblock
    exact nonDecreasing_closedBlock items
  · obtain ⟨items, -, rfl⟩ := List.mem_map.mp hblock
    exact nonDecreasing_openBlock items

end Blocks

/-! ### The log -/

section Log

variable {s s' : HistoryState} {closed : List (List HistoryItem)} {last : Option (List HistoryItem)}
  {items : List HistoryItem}

structure Stopped (s s' : HistoryState) : Prop where
  log : s'.log = s.log
  active : s'.historySyncActive = s.historySyncActive
  messages : s'.historySyncMessages = s.historySyncMessages
  conversations : s'.historySyncConversations = s.historySyncConversations
  activity : s'.historySyncActivity = s.historySyncActivity
  inChunk : s'.inChunk = s.inChunk
  fired : s'.fired = s.fired
  running : ∀ t ∈ s'.running, t ∈ s.running

theorem stopTimer_stopped (s : HistoryState) : Stopped s s.stopTimer := by
  unfold HistoryState.stopTimer
  split
  · exact ⟨rfl, rfl, rfl, rfl, rfl, rfl, rfl, fun _ ht => ht⟩
  · exact ⟨rfl, rfl, rfl, rfl, rfl, rfl, rfl, fun _ ht => List.mem_of_mem_erase ht⟩

theorem log_open (closed : List (List HistoryItem)) (items : List HistoryItem) :
    (closed.map closedBlock ++ (some items).toList.map openBlock).flatten =
      (closed.map closedBlock).flatten ++ openBlock items := by
  rw [List.flatten_append]
  exact congrArg _ (List.append_nil _)

theorem log_closed (closed : List (List HistoryItem)) :
    (closed.map closedBlock ++ (none : Option (List HistoryItem)).toList.map openBlock).flatten =
      (closed.map closedBlock).flatten := congrArg List.flatten (List.append_nil _)

theorem LogInv.keep (h : LogInv s closed last) (hlog : s'.log = s.log)
    (hactive : s'.historySyncActive = s.historySyncActive) (hmessages : s'.historySyncMessages = s.historySyncMessages)
    (hconversations : s'.historySyncConversations = s.historySyncConversations) : LogInv s' closed last where
  log := hlog.trans h.log
  active := hactive.trans h.active
  messages items hitems := hmessages.trans (h.messages items hitems)
  conversations items hitems := hconversations.trans (h.conversations items hitems)

theorem LogInv.start (h : LogInv s closed none) (hlog : s'.log = s.log ++ [.published .starting 0 0])
    (hactive : s'.historySyncActive = true) (hmessages : s'.historySyncMessages = 0)
    (hconversations : s'.historySyncConversations = 0) : LogInv s' closed (some []) where
  log := by
    rw [hlog, h.log, log_closed, log_open]
    rfl
  active := hactive
  messages items hitems := by
    cases hitems
    exact hmessages
  conversations items hitems := by
    cases hitems
    exact hconversations

theorem LogInv.add {messages conversations : ℕ} (h : LogInv s closed (some items))
    (hlog : s'.log = s.log ++ [.added messages conversations])
    (hactive : s'.historySyncActive = true) (hmessages : s'.historySyncMessages = s.historySyncMessages + messages)
    (hconversations : s'.historySyncConversations = s.historySyncConversations + conversations) :
    LogInv s' closed (some (items ++ [.added messages conversations])) where
  log := by rw [hlog, h.log, log_open, log_open, openBlock_added, List.append_assoc]
  active := hactive
  messages items' hitems := by
    cases hitems
    rw [hmessages, h.messages items rfl, List.map_append, List.sum_append]
    rfl
  conversations items' hitems := by
    cases hitems
    rw [hconversations, h.conversations items rfl, List.map_append, List.sum_append]
    rfl

theorem LogInv.progress (h : LogInv s closed (some items)) (hlog : s'.log = s.log ++
      [.published .progress s.historySyncMessages s.historySyncConversations])
    (hactive : s'.historySyncActive = true) (hmessages : s'.historySyncMessages = s.historySyncMessages)
    (hconversations : s'.historySyncConversations = s.historySyncConversations) :
    LogInv s' closed (some (items ++ [.progress])) where
  log := by
    rw [hlog, h.log, log_open, log_open, openBlock_progress, h.messages items rfl, h.conversations items rfl,
      List.append_assoc]
  active := hactive
  messages items' hitems := by
    cases hitems
    rw [hmessages, h.messages items rfl, List.map_append, List.sum_append]
    rfl
  conversations items' hitems := by
    cases hitems
    rw [hconversations, h.conversations items rfl, List.map_append, List.sum_append]
    rfl

theorem LogInv.complete (h : LogInv s closed (some items)) :
    LogInv s.completeHistorySyncLocked (closed ++ [items]) none where
  log := by
    have hstop := stopTimer_stopped s
    show s.stopTimer.log ++ [.published .completed s.stopTimer.historySyncMessages s.stopTimer.historySyncConversations] = _
    rw [hstop.log, hstop.messages, hstop.conversations, h.log, log_open, log_closed, h.messages items rfl,
      h.conversations items rfl, List.map_append, List.flatten_append, List.append_assoc]
    exact congrArg _ (List.append_nil _).symm
  active := rfl
  messages _ hitems := nomatch hitems
  conversations _ hitems := nomatch hitems

theorem LogInv.some_of_active (h : LogInv s closed last) (hactive : s.historySyncActive = true) :
    ∃ items, last = some items := by
  rw [h.active] at hactive
  exact Option.isSome_iff_exists.mp hactive

end Log

/-! ### The steps -/

section Steps

variable {s : HistoryState}

theorem log_begin (h : ∃ closed last, LogInv s closed last) : ∃ closed last, LogInv s.beginHistorySyncChunk closed last := by
  obtain ⟨closed, last, h⟩ := h
  have hstop := stopTimer_stopped { s with historySyncActivity := s.historySyncActivity + 1 }
  unfold HistoryState.beginHistorySyncChunk
  dsimp only
  split
  · exact ⟨closed, last, h.keep hstop.log hstop.active hstop.messages hstop.conversations⟩
  · next hinactive =>
    have hnone : last = none := by
      cases last with
      | none => rfl
      | some items => exact absurd (hstop.active.trans h.active) hinactive
    subst hnone
    exact ⟨closed, some [], h.start (congrArg (· ++ _) hstop.log) rfl rfl rfl⟩

theorem log_complete (h : ∃ closed last, LogInv s closed last) (hactive : s.historySyncActive = true) :
    ∃ closed last, LogInv s.completeHistorySyncLocked closed last := by
  obtain ⟨closed, last, h⟩ := h
  obtain ⟨items, rfl⟩ := h.some_of_active hactive
  exact ⟨_, _, h.complete⟩

theorem begin_facts (s : HistoryState) :
    s.beginHistorySyncChunk.historySyncActivity = s.historySyncActivity + 1 ∧
      s.beginHistorySyncChunk.historySyncActive = true ∧ s.beginHistorySyncChunk.fired = s.fired ∧
      ∀ t ∈ s.beginHistorySyncChunk.running, t ∈ s.running := by
  have hstop := stopTimer_stopped { s with historySyncActivity := s.historySyncActivity + 1 }
  unfold HistoryState.beginHistorySyncChunk
  dsimp only
  split
  · next hactive => exact ⟨hstop.activity, hactive, hstop.fired, hstop.running⟩
  · exact ⟨hstop.activity, rfl, hstop.fired, hstop.running⟩

theorem complete_facts (s : HistoryState) :
    s.completeHistorySyncLocked.historySyncActivity = s.historySyncActivity + 1 ∧
      s.completeHistorySyncLocked.inChunk = s.inChunk ∧ s.completeHistorySyncLocked.fired = s.fired ∧
      ∀ t ∈ s.completeHistorySyncLocked.running, t ∈ s.running := by
  have hstop := stopTimer_stopped s
  exact ⟨congrArg (· + 1) hstop.activity, hstop.inChunk, hstop.fired, hstop.running⟩

theorem idle_of_callback {t : ℕ} (h : TimerInv s) (hfired : t ∈ s.fired) (hcurrent : s.historySyncActivity = t) :
    s.inChunk = false := by
  refine Bool.eq_false_iff.mpr fun hchunk => ?_
  have hlt := (h.fired t hfired).2 hchunk
  omega

theorem idleTimeout_cases (t : ℕ) (s : HistoryState) : s.idleTimeout t = s ∨
    (s.historySyncActive = true ∧ s.historySyncActivity = t ∧ s.idleTimeout t = s.completeHistorySyncLocked) := by
  unfold HistoryState.idleTimeout
  split
  · exact .inl rfl
  · next hdue =>
    split
    · exact .inl rfl
    · obtain ⟨hactive, hcurrent⟩ := not_or.mp hdue
      exact .inr ⟨Bool.not_eq_false _ ▸ hactive, not_not.mp hcurrent, rfl⟩

inductive HistoryMove (s : HistoryState) : HistoryAction → HistoryState → Prop
  | begin (h : s.inChunk = false) : HistoryMove s .begin { s.beginHistorySyncChunk with inChunk := true }
  | add (messages conversations : ℕ) (h : s.inChunk = true) : HistoryMove s (.add messages conversations)
      { s.addHistorySyncProgress messages conversations with log := s.log ++ [.added messages conversations] }
  | progress (h : s.inChunk = true) : HistoryMove s .progress s.publishHistorySyncProgress
  | finish (final : Bool) (h : s.inChunk = true) :
      HistoryMove s (.finish final) { s.finishHistorySyncChunk final with inChunk := false }
  | fire (t : ℕ) (h : t ∈ s.running) :
      HistoryMove s (.fire t) { s with running := s.running.erase t, fired := t :: s.fired }
  | late (t : ℕ) : HistoryMove s (.callback t) { s with fired := s.fired.erase t }
  | idle (t : ℕ) (h : t ∈ s.fired) (hactive : s.historySyncActive = true) (hcurrent : s.historySyncActivity = t) :
      HistoryMove s (.callback t) { s with fired := s.fired.erase t }.completeHistorySyncLocked
  | cancel : HistoryMove s .cancel { s with done := true }

theorem history_move {a : HistoryAction} {s' : HistoryState} (hs : historyStep s a = some s') : HistoryMove s a s' := by
  unfold historyStep at hs
  split at hs
  · by_cases hchunk : s.inChunk = true
    · rw [if_pos hchunk] at hs
      cases hs
    · rw [if_neg hchunk] at hs
      cases hs
      exact .begin (Bool.eq_false_iff.mpr hchunk)
  · by_cases hchunk : s.inChunk = true
    · rw [if_pos hchunk] at hs
      cases hs
      exact .add _ _ hchunk
    · rw [if_neg hchunk] at hs
      cases hs
  · by_cases hchunk : s.inChunk = true
    · rw [if_pos hchunk] at hs
      cases hs
      exact .progress hchunk
    · rw [if_neg hchunk] at hs
      cases hs
  · by_cases hchunk : s.inChunk = true
    · rw [if_pos hchunk] at hs
      cases hs
      exact .finish _ hchunk
    · rw [if_neg hchunk] at hs
      cases hs
  · next t =>
    by_cases hmem : t ∈ s.running
    · rw [if_pos hmem] at hs
      cases hs
      exact .fire t hmem
    · rw [if_neg hmem] at hs
      cases hs
  · next t =>
    by_cases hmem : t ∈ s.fired
    · rw [if_pos hmem] at hs
      obtain rfl := Option.some.inj hs
      rcases idleTimeout_cases t { s with fired := s.fired.erase t } with heq | ⟨hactive, hcurrent, heq⟩
      · rw [heq]
        exact .late t
      · rw [heq]
        exact .idle t hmem hactive hcurrent
    · rw [if_neg hmem] at hs
      cases hs
  · cases hs
    exact .cancel

theorem timers_complete {s' : HistoryState} (h : TimerInv s) (hchunk : s'.inChunk = false)
    (hactivity : s'.historySyncActivity = s.historySyncActivity + 1) (hrunning : ∀ t ∈ s'.running, t ∈ s.running)
    (hfired : ∀ t ∈ s'.fired, t ∈ s.fired) : TimerInv s' := by
  have hnone : ∀ {P : Prop}, s'.inChunk = true → P := by
    intro P htrue
    rw [hchunk] at htrue
    cases htrue
  refine ⟨hnone, fun t ht => ⟨?_, hnone⟩, fun t ht => ⟨?_, hnone⟩⟩
  · exact hactivity ▸ Nat.le_succ_of_le (h.running t (hrunning t ht)).1
  · exact hactivity ▸ Nat.le_succ_of_le (h.fired t (hfired t ht)).1

theorem timers_finish (h : TimerInv s) (final : Bool) : TimerInv { s.finishHistorySyncChunk final with inChunk := false } := by
  unfold HistoryState.finishHistorySyncChunk
  split
  · exact ⟨nofun, fun t ht => ⟨(h.running t ht).1, nofun⟩, fun t ht => ⟨(h.fired t ht).1, nofun⟩⟩
  · cases final with
    | true =>
      obtain ⟨hactivity, -, hfired, hrunning⟩ := complete_facts s
      exact timers_complete h rfl hactivity hrunning fun t ht => hfired ▸ ht
    | false =>
      refine ⟨nofun, fun t ht => ⟨?_, nofun⟩, fun t ht => ⟨Nat.le_succ_of_le (h.fired t ht).1, nofun⟩⟩
      rcases List.mem_cons.mp ht with rfl | ht
      · exact Nat.le_refl _
      · exact Nat.le_succ_of_le (h.running t ht).1

theorem timers_move {a : HistoryAction} {s' : HistoryState} (h : TimerInv s) (hmove : HistoryMove s a s') :
    TimerInv s' := by
  cases hmove with
  | begin hchunk =>
    obtain ⟨hactivity, hactive, hfired, hrunning⟩ := begin_facts s
    refine ⟨fun _ => hactive, fun t ht => ?_, fun t ht => ?_⟩
    · have hlt : t < s.beginHistorySyncChunk.historySyncActivity := by
        rw [hactivity]
        exact Nat.lt_succ_of_le (h.running t (hrunning t ht)).1
      exact ⟨Nat.le_of_lt hlt, fun _ => hlt⟩
    · have hlt : t < s.beginHistorySyncChunk.historySyncActivity := by
        rw [hactivity]
        exact Nat.lt_succ_of_le (h.fired t (hfired ▸ ht)).1
      exact ⟨Nat.le_of_lt hlt, fun _ => hlt⟩
  | add messages conversations hchunk =>
    unfold HistoryState.addHistorySyncProgress
    rw [if_pos (h.active hchunk)]
    exact ⟨h.active, h.running, h.fired⟩
  | progress hchunk =>
    unfold HistoryState.publishHistorySyncProgress
    rw [if_pos (h.active hchunk)]
    exact ⟨h.active, h.running, h.fired⟩
  | finish final hchunk => exact timers_finish h final
  | fire t hmem =>
    refine ⟨h.active, fun t' ht => h.running t' (List.mem_of_mem_erase ht), fun t' ht => ?_⟩
    rcases List.mem_cons.mp ht with rfl | ht
    · exact h.running _ hmem
    · exact h.fired t' ht
  | late t => exact ⟨h.active, h.running, fun t' ht => h.fired t' (List.mem_of_mem_erase ht)⟩
  | idle t hmem hactive hcurrent =>
    obtain ⟨hactivity, hchunk, hfired, hrunning⟩ := complete_facts { s with fired := s.fired.erase t }
    have hidle : s.inChunk = false := idle_of_callback h hmem hcurrent
    exact timers_complete h (hchunk.trans hidle) hactivity hrunning fun t' ht => List.mem_of_mem_erase (hfired ▸ ht)
  | cancel => exact ⟨h.active, h.running, h.fired⟩

theorem log_move {a : HistoryAction} {s' : HistoryState} (h : HistoryInv s) (hmove : HistoryMove s a s') :
    ∃ closed last, LogInv s' closed last := by
  obtain ⟨⟨closed, last, hlog⟩, htimers⟩ := h
  cases hmove with
  | begin hchunk =>
    obtain ⟨closed, last, hbegin⟩ := log_begin ⟨closed, last, hlog⟩
    exact ⟨closed, last, hbegin.keep rfl rfl rfl rfl⟩
  | add messages conversations hchunk =>
    have hactive := htimers.active hchunk
    obtain ⟨items, rfl⟩ := hlog.some_of_active hactive
    unfold HistoryState.addHistorySyncProgress
    rw [if_pos hactive]
    exact ⟨closed, _, hlog.add rfl hactive rfl rfl⟩
  | progress hchunk =>
    have hactive := htimers.active hchunk
    obtain ⟨items, rfl⟩ := hlog.some_of_active hactive
    unfold HistoryState.publishHistorySyncProgress
    rw [if_pos hactive]
    exact ⟨closed, _, hlog.progress rfl hactive rfl rfl⟩
  | finish final hchunk =>
    have hactive := htimers.active hchunk
    unfold HistoryState.finishHistorySyncChunk
    rw [if_neg (Bool.not_eq_false _ ▸ hactive)]
    cases final with
    | true =>
      obtain ⟨closed, last, hcomplete⟩ := log_complete ⟨closed, last, hlog⟩ hactive
      exact ⟨closed, last, hcomplete.keep rfl rfl rfl rfl⟩
    | false => exact ⟨closed, last, hlog.keep rfl rfl rfl rfl⟩
  | fire | late | cancel => exact ⟨closed, last, hlog.keep rfl rfl rfl rfl⟩
  | idle t hmem hactive hcurrent =>
    have herase : LogInv { s with fired := s.fired.erase t } closed last := hlog.keep rfl rfl rfl rfl
    exact log_complete ⟨closed, last, herase⟩ hactive

theorem historyInv_move {a : HistoryAction} {s' : HistoryState} (h : HistoryInv s) (hmove : HistoryMove s a s') :
    HistoryInv s' := ⟨log_move h hmove, timers_move h.timers hmove⟩

theorem historyInv_new : HistoryInv .new where
  log := ⟨[], none, rfl, rfl, nofun, nofun⟩
  timers := ⟨nofun, fun _ ht => absurd ht List.not_mem_nil, fun _ ht => absurd ht List.not_mem_nil⟩

theorem uncompleted_move {a : HistoryAction} {s' : HistoryState} (h : HistoryInv s) (hmove : HistoryMove s a s') :
    Uncompleted s a s' := by
  intro hchunk hstill
  cases hmove with
  | begin hidle => exact absurd (hidle.symm.trans hchunk) Bool.false_ne_true
  | add messages conversations => exact .inr ⟨_, rfl, nofun⟩
  | progress =>
    unfold HistoryState.publishHistorySyncProgress
    rw [if_pos (h.timers.active hchunk)]
    exact .inr ⟨_, rfl, nofun⟩
  | finish => cases hstill
  | fire | late | cancel => exact .inl rfl
  | idle t hmem hactive hcurrent =>
    exact absurd ((idle_of_callback h.timers hmem hcurrent).symm.trans hchunk) Bool.false_ne_true

/-- A section of `handleHistorySync`, and not of a timer or of the shutdown. -/
def ofChunk : HistoryAction → Bool
  | .fire _ | .callback _ | .cancel => false
  | _ => true

def inside : HistoryAction → Bool
  | .add _ _ | .progress => true
  | _ => false

def counted : HistoryAction → ℕ × ℕ
  | .add messages conversations => (messages, conversations)
  | _ => 0

def HistoryState.counts (s : HistoryState) : ℕ × ℕ := (s.historySyncMessages, s.historySyncConversations)

theorem resultSteps_inside (n : ℕ) (results : List ℕ) : ∀ a ∈ resultSteps n results, inside a = true := by
  induction results generalizing n with
  | nil => exact fun _ ha => absurd ha List.not_mem_nil
  | cons messages rest ih =>
    unfold resultSteps
    split
    · exact List.forall_mem_cons.mpr ⟨rfl, List.forall_mem_cons.mpr ⟨rfl, ih _⟩⟩
    · exact List.forall_mem_cons.mpr ⟨rfl, ih _⟩

theorem resultSteps_counted (n : ℕ) (results : List ℕ) :
    ((resultSteps n results).map counted).sum = (results.sum, results.length) := by
  induction results generalizing n with
  | nil => rfl
  | cons messages rest ih =>
    unfold resultSteps
    split <;> simp [ih, counted, Nat.add_comm 1]

theorem resultSteps_last {n : ℕ} {results : List ℕ} (hsome : results ≠ []) (htenth : (n + results.length) % 10 = 0) :
    (resultSteps n results).getLast? = some .progress := by
  induction results generalizing n with
  | nil => exact absurd rfl hsome
  | cons messages rest ih =>
    have htenth : (n + 1 + rest.length) % 10 = 0 := by rwa [Nat.add_assoc, Nat.add_comm 1]
    unfold resultSteps
    cases rest with
    | nil =>
      have hnow : (n + 1) % 10 = 0 := htenth
      simp [resultSteps, hnow]
    | cons m rest =>
      have hlast := ih (List.cons_ne_nil m rest) htenth
      split <;> simp [List.getLast?_cons, hlast]

/-- In a chunk only its own sections count and publish. -/
theorem chunk_run {s' : HistoryState} {as : List HistoryAction} (h : TimerInv s) (hchunk : s.inChunk = true)
    (has : ∀ a ∈ as.filter ofChunk, inside a = true) (hrun : runActions historyStep s as = some s') :
    TimerInv s' ∧ s'.inChunk = true ∧ s'.counts = s.counts + ((as.filter ofChunk).map counted).sum ∧
      ((as.filter ofChunk).getLast? = some .progress →
        s'.log.getLast? = some (.published .progress s'.historySyncMessages s'.historySyncConversations)) := by
  induction as using List.reverseRecOn generalizing s' with
  | nil =>
    cases hrun
    exact ⟨h, hchunk, rfl, nofun⟩
  | append_singleton as a ih =>
    obtain ⟨s₁, hrun, hlast⟩ := runActions_append.mp hrun
    obtain ⟨s₂, hstep, hend⟩ := runActions_cons.mp hlast
    cases hend
    rw [List.filter_append] at has ⊢
    obtain ⟨hold, ha⟩ := List.forall_mem_append.mp has
    obtain ⟨h₁, hchunk₁, hcounts, hprogress⟩ := ih hold hrun
    have hmove := history_move hstep
    have htimers := timers_move h₁ hmove
    rw [List.map_append, List.sum_append, ← add_assoc, ← hcounts]
    cases hmove with
    | begin hidle => exact absurd (hidle.symm.trans hchunk₁) Bool.false_ne_true
    | finish => exact absurd (ha _ List.mem_cons_self) Bool.false_ne_true
    | add messages conversations =>
      unfold HistoryState.addHistorySyncProgress at htimers ⊢
      rw [if_pos (h₁.active hchunk₁)] at htimers ⊢
      refine ⟨htimers, hchunk₁, rfl, fun hlast => ?_⟩
      rw [List.getLast?_append] at hlast
      cases hlast
    | progress =>
      unfold HistoryState.publishHistorySyncProgress at htimers ⊢
      rw [if_pos (h₁.active hchunk₁)] at htimers ⊢
      exact ⟨htimers, hchunk₁, (add_zero _).symm, fun _ => List.getLast?_concat⟩
    | fire | late | cancel =>
      refine ⟨htimers, hchunk₁, (add_zero _).symm, fun hlast => hprogress ?_⟩
      change (_ ++ []).getLast? = _ at hlast
      rwa [List.append_nil] at hlast
    | idle t hmem hactive hcurrent =>
      exact absurd ((idle_of_callback h₁ hmem hcurrent).symm.trans hchunk₁) Bool.false_ne_true

end Steps

/-- **The lifecycle of a history sync.**  In every state of every run what was published is a sequence of blocks, each a
start, progress and a completion (the last block perhaps without), whose counts are the sums of the additions since the
start and do not decrease; and no completion is published between the begin and the finish of a chunk. -/
theorem history_sync_lifecycle (as : List HistoryAction) :
    Always historyStep (fun s => InBlocks s.log) .new as ∧ Steps historyStep Uncompleted .new as := by
  constructor
  · refine (always_of_step (fun _ _ _ h hs => historyInv_move h (history_move hs)) historyInv_new as).mono fun s h => ?_
    obtain ⟨closed, last, hlog⟩ := h.log
    exact hlog.inBlocks
  · exact steps_of_meets (C := fun _ _ => True) (fun s a s' h _ hs => ⟨historyInv_move h (history_move hs),
      uncompleted_move h (history_move hs)⟩) historyInv_new (meets_of_forall fun _ _ => trivial)

/-- **What a chunk reports.**  However the timers and the shutdown come in between, a tracked chunk has counted all that it
has read when it ends, and the last that is published before its finish is a progress with these counts. -/
theorem chunk_progress (before as : List HistoryAction) (syncType : HistorySyncType) (progress : ℕ) (results : List ℕ)
    {s s₁ s₂ : HistoryState} (hbefore : runActions historyStep .new before = some s)
    (hbegin : historyStep s .begin = some s₁) (hrun : runActions historyStep s₁ as = some s₂)
    (hchunk : .begin :: (as.filter ofChunk ++ [.finish (isFinalHistorySyncChunk syncType progress)]) =
      handleHistorySync syncType progress results) :
    s₂.counts = s₁.counts + (results.sum, results.length) ∧
      s₂.log.getLast? = some (.published .progress s₂.historySyncMessages s₂.historySyncConversations) := by
  have hinv : HistoryInv s := always_iff_reached.mp (always_of_step
    (fun _ _ _ h hs => historyInv_move h (history_move hs)) historyInv_new before) _ [] s (List.append_nil _).symm hbefore
  have htimers := timers_move hinv.timers (history_move hbegin)
  have hinChunk : s₁.inChunk = true := by
    cases history_move hbegin
    rfl
  unfold handleHistorySync at hchunk
  split at hchunk
  · have hsections := List.append_cancel_right (List.cons.inj hchunk).2
    have hplan : (∀ a ∈ as.filter ofChunk, inside a = true) ∧
        ((as.filter ofChunk).map counted).sum = (results.sum, results.length) ∧
        (as.filter ofChunk).getLast? = some .progress := by
      rw [hsections]
      split
      · refine ⟨?_, ?_, List.getLast?_concat⟩
        · exact List.forall_mem_append.mpr ⟨resultSteps_inside 0 results, List.forall_mem_singleton.mpr rfl⟩
        · rw [List.map_append, List.sum_append, resultSteps_counted]
          rfl
      · next hreported =>
        obtain ⟨htenth, hsome⟩ := not_or.mp hreported
        rw [List.append_nil]
        refine ⟨resultSteps_inside 0 results, resultSteps_counted 0 results, resultSteps_last ?_ ?_⟩
        · exact fun h => hsome (congrArg List.length h)
        · rwa [Nat.zero_add, ← not_ne_iff]
    obtain ⟨-, -, hcounts, hprogress⟩ := chunk_run htimers hinChunk hplan.1 hrun
    exact ⟨hcounts.trans (congrArg _ hplan.2.1), hprogress hplan.2.2⟩
  · cases hchunk

/-- The timer of a first chunk fires in the second one. -/
theorem chunk_progress_late : ∃ s, runActions historyStep .new [.begin, .progress, .finish false, .fire 2, .begin,
    .add 3 1, .callback 2, .progress] = some s ∧ s.counts = (3, 1) ∧ s.log.getLast? = some (.published .progress 3 1) :=
  ⟨_, rfl, chunk_progress [.begin, .progress, .finish false, .fire 2] [.add 3 1, .callback 2, .progress] .recent 5 [3]
    rfl rfl rfl rfl⟩

end TeamInbox.Worker
