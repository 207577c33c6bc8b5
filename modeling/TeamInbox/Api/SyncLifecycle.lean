import TeamInbox.Api.SyncStatus
import Mathlib.Data.Finset.Card

/-!
# TeamInbox.Api.SyncLifecycle — a sync completes once for each start

The counters only grow between two starts, whatever happens.  That `completed` is left by a start only, and that a
completion is announced by the handler whose update it was, needs the row to be in the state that was read.
-/

namespace TeamInbox.Api

open TeamInbox.Lib

/-! ### What is claimed -/

/-- The step is the update of a `starting` event. -/
def Starts (s : Calls SyncState SyncHandler) (a : CallAction SyncAction Empty) : Prop :=
  ∃ p e, a = .act p .proceed ∧ s.calls p = .updating e ∧ e.status = .starting

/-- A completed sync stays completed, and counters do not decrease. -/
def SyncKept (s s' : Calls SyncState SyncHandler) : Prop :=
  ∀ r ∈ s.shared.connection, ∀ r' ∈ s'.shared.connection,
    (r.syncStatus = some .completed → r'.syncStatus = some .completed) ∧
      r.syncMessageCount ≤ r'.syncMessageCount ∧ r.syncConversationCount ≤ r'.syncConversationCount

def SyncBroadcast.isComplete : SyncBroadcast → Bool
  | .complete _ _ => true
  | _ => false

def SyncBroadcast.move : SyncBroadcast → Option ℕ
  | .complete _ move => move
  | _ => none

/-- Every announced completion is the handler's own, and there is at most one for each start. -/
def CompletionsOwn (s : SyncState) : Prop :=
  (∀ b ∈ s.broadcasts, b.isComplete = true → b.move.isSome = true) ∧
    s.broadcasts.countP SyncBroadcast.isComplete ≤ s.startings

def SyncLifecycle (connection : Option SyncColumns) (as : List (CallAction SyncAction Empty)) : Prop :=
  Steps syncSystem.step (fun s a s' => Starts s a ∨ SyncKept s s') (.start (.of connection) .idle) as ∧
    Always syncSystem.step (fun s => CompletionsOwn s.shared) (.start (.of connection) .idle) as

/-- A completion updates a row that is still syncing, and a disconnect does not interrupt a completed one. -/
def UpdatesAsRead (s : Calls SyncState SyncHandler) : CallAction SyncAction Empty → Prop
  | .act p .proceed => match s.calls p with
    | .updating e => e.status = .completed → s.shared.syncing = true
    | .interrupting true => ∀ r ∈ s.shared.connection, r.syncStatus ≠ some .completed
    | _ => True
  | _ => True

instance (s : Calls SyncState SyncHandler) (a : CallAction SyncAction Empty) : Decidable (UpdatesAsRead s a) := by
  unfold UpdatesAsRead
  repeat' split
  all_goals infer_instance

/-! ### Steps -/

inductive SyncMove (p : ℕ) (s : SyncState) : SyncHandler → SyncAction → SyncState → SyncHandler → Prop
  | receive {e : SyncPayload} : SyncMove p s .idle (.receive e) s (.received e)
  | disconnect : SyncMove p s .idle .disconnect s .disconnected
  | ignore {e : SyncPayload} : SyncMove p s (.received e) .proceed s .idle
  | decide {e : SyncPayload} : SyncMove p s (.received e) .proceed s (.updating e)
  | update {e : SyncPayload} :
    SyncMove p s (.updating e) .proceed (s.update p e) (.announcing (s.announcement e))
  | read : SyncMove p s .disconnected .proceed s (.interrupting s.syncing)
  | interrupt : SyncMove p s (.interrupting true) .proceed
      { s with connection := s.connection.map ({ · with syncStatus := some .interrupted }) } (.announcing .interrupted)
  | quiet : SyncMove p s (.interrupting false) .proceed s .idle
  | announce {b : SyncBroadcast} :
    SyncMove p s (.announcing b) .proceed { s with broadcasts := b :: s.broadcasts } .idle
  | fail {x : SyncHandler} : SyncMove p s x .fail s .idle

theorem syncAct_move {p : ℕ} {s w : SyncState} {x x' : SyncHandler} {a : SyncAction}
    (h : syncAct p s x a = some (w, x')) : SyncMove p s x a w x' := by
  cases a with
  | receive e =>
    cases x with
    | idle =>
      obtain ⟨rfl, rfl⟩ := Prod.mk.inj (Option.some.inj h)
      exact .receive
    | received | updating | disconnected | interrupting | announcing => exact nomatch h
  | disconnect =>
    cases x with
    | idle =>
      obtain ⟨rfl, rfl⟩ := Prod.mk.inj (Option.some.inj h)
      exact .disconnect
    | received | updating | disconnected | interrupting | announcing => exact nomatch h
  | proceed =>
    cases x with
    | idle => exact nomatch h
    | received e =>
      simp only [syncAct] at h
      split at h
      · obtain ⟨rfl, rfl⟩ := Prod.mk.inj (Option.some.inj h)
        exact .ignore
      · obtain ⟨rfl, rfl⟩ := Prod.mk.inj (Option.some.inj h)
        split_ifs
        · exact .decide
        · exact .ignore
    | updating e =>
      obtain ⟨rfl, rfl⟩ := Prod.mk.inj (Option.some.inj h)
      exact .update
    | disconnected =>
      obtain ⟨rfl, rfl⟩ := Prod.mk.inj (Option.some.inj h)
      exact .read
    | interrupting wasSyncing =>
      cases wasSyncing with
      | true =>
        obtain ⟨rfl, rfl⟩ := Prod.mk.inj (Option.some.inj h)
        exact .interrupt
      | false =>
        obtain ⟨rfl, rfl⟩ := Prod.mk.inj (Option.some.inj h)
        exact .quiet
    | announcing b =>
      obtain ⟨rfl, rfl⟩ := Prod.mk.inj (Option.some.inj h)
      exact .announce
  | fail =>
    have h : some (s, SyncHandler.idle) = some (w, x') := by
      cases x <;> exact h
    obtain ⟨rfl, rfl⟩ := Prod.mk.inj (Option.some.inj h)
    exact .fail

theorem SyncColumns.apply_kept (r : SyncColumns) {e : SyncPayload} (he : e.status ≠ .starting) :
    (r.syncStatus = some .completed → (r.apply e).syncStatus = some .completed) ∧
      r.syncMessageCount ≤ (r.apply e).syncMessageCount ∧
      r.syncConversationCount ≤ (r.apply e).syncConversationCount := by
  unfold SyncColumns.apply
  cases hstatus : e.status with
  | starting => exact absurd hstatus he
  | progress =>
    dsimp only
    split_ifs with hsync
    · exact ⟨fun h => h, Nat.le_max_left _ _, Nat.le_max_left _ _⟩
    · exact ⟨fun h => h, Nat.le_refl _, Nat.le_refl _⟩
  | completed =>
    dsimp only
    split_ifs with hsync
    · exact ⟨fun _ => rfl, Nat.le_max_left _ _, Nat.le_max_left _ _⟩
    · exact ⟨fun h => h, Nat.le_refl _, Nat.le_refl _⟩

theorem SyncKept.of_eq {s s' : Calls SyncState SyncHandler} (h : s'.shared.connection = s.shared.connection) :
    SyncKept s s' := by
  intro r hr r' hr'
  rw [h] at hr'
  obtain rfl := Option.some.inj (hr.symm.trans hr')
  exact ⟨fun h => h, Nat.le_refl _, Nat.le_refl _⟩

theorem syncKept_of_step {s s' : Calls SyncState SyncHandler} {a : CallAction SyncAction Empty}
    (hC : UpdatesAsRead s a) (h : syncSystem.step s a = some s') : Starts s a ∨ SyncKept s s' := by
  cases a with
  | env e => exact nomatch e
  | act p a =>
    obtain ⟨w, x, hact, rfl⟩ := Machine.step_act h
    have hmove := syncAct_move hact
    generalize hp : s.calls p = y at hmove
    cases hmove with
    | receive | disconnect | ignore | decide | read | quiet | announce | fail => exact .inr (.of_eq rfl)
    | update =>
      rename_i e
      by_cases he : e.status = .starting
      · exact .inl ⟨p, e, rfl, hp, he⟩
      · refine .inr fun r hr r' hr' => ?_
        have hr' : (s.shared.connection.map (·.apply e)) = some r' := hr'
        rw [show s.shared.connection = some r from hr] at hr'
        obtain rfl := Option.some.inj hr'
        exact r.apply_kept he
    | interrupt =>
      refine .inr fun r hr r' hr' => ?_
      have hr' : (s.shared.connection.map ({ · with syncStatus := some .interrupted })) = some r' := hr'
      rw [show s.shared.connection = some r from hr] at hr'
      obtain rfl := Option.some.inj hr'
      have hread : ∀ r ∈ s.shared.connection, r.syncStatus ≠ some .completed := by
        simp only [UpdatesAsRead, hp] at hC
        exact hC
      exact ⟨fun h => absurd h (hread r hr), Nat.le_refl _, Nat.le_refl _⟩

/-! ### Completions -/

def SyncState.announced (s : SyncState) : List ℕ := s.broadcasts.filterMap SyncBroadcast.move

structure CompletionInv (s : SyncState) : Prop where
  started : s.movers.length + (if s.syncing then 1 else 0) ≤ s.startings
  nodup : s.announced.Nodup
  bound : ∀ k ∈ s.announced, k < s.movers.length
  own : ∀ b ∈ s.broadcasts, b.isComplete = true → b.move.isSome = true

/-- A completion to be announced is of a move of the call, not announced before. -/
def AnnounceInv (s : SyncState) (p : ℕ) : SyncHandler → Prop
  | .announcing b => (b.isComplete = true → b.move.isSome = true) ∧
      ∀ k, b.move = some k → s.movers[k]? = some p ∧ k ∉ s.announced
  | _ => True

abbrev SyncInv : Calls SyncState SyncHandler → Prop := Holds CompletionInv AnnounceInv

theorem countP_le_moves {l : List SyncBroadcast} (h : ∀ b ∈ l, b.isComplete = true → b.move.isSome = true) :
    l.countP SyncBroadcast.isComplete ≤ (l.filterMap SyncBroadcast.move).length := by
  induction l with
  | nil => exact Nat.le_refl _
  | cons b l ih =>
    have ih := ih fun c hc => h c (List.mem_cons_of_mem b hc)
    by_cases hb : b.isComplete = true
    · obtain ⟨k, hk⟩ := Option.isSome_iff_exists.mp (h b List.mem_cons_self hb)
      rw [List.countP_cons_of_pos hb, List.filterMap_cons_some hk, List.length_cons]
      omega
    · rw [List.countP_cons_of_neg hb]
      refine le_trans ih ?_
      rw [List.filterMap_cons]
      split
      · exact Nat.le_refl _
      · exact Nat.le_succ _

theorem CompletionInv.completionsOwn {s : SyncState} (h : CompletionInv s) : CompletionsOwn s := by
  refine ⟨h.own, ?_⟩
  have hlen : s.announced.length ≤ s.movers.length := by
    have hsub : s.announced ⊆ List.range s.movers.length := fun k hk => List.mem_range.mpr (h.bound k hk)
    have hle := (List.subperm_of_subset h.nodup hsub).length_le
    rwa [List.length_range] at hle
  have hstart := h.started
  calc s.broadcasts.countP SyncBroadcast.isComplete ≤ s.announced.length := countP_le_moves h.own
    _ ≤ s.movers.length := hlen
    _ ≤ s.startings := by omega

theorem AnnounceInv.mono {s w : SyncState} {p : ℕ} {x : SyncHandler} (hb : w.broadcasts = s.broadcasts)
    (hm : ∀ k : ℕ, s.movers[k]? = some p → w.movers[k]? = some p) (h : AnnounceInv s p x) : AnnounceInv w p x := by
  cases x with
  | announcing b =>
    refine ⟨h.1, fun k hk => ?_⟩
    obtain ⟨hmove, hnew⟩ := h.2 k hk
    refine ⟨hm k hmove, ?_⟩
    rw [SyncState.announced, hb]
    exact hnew
  | idle | received | updating | disconnected | interrupting => trivial

section Update

variable {s : SyncState} {p : ℕ} {e : SyncPayload}

theorem syncing_update : (s.update p e).syncing =
    match e.status with
    | .starting => s.connection.isSome
    | .progress => s.syncing
    | .completed => false := by
  unfold SyncState.syncing SyncState.update SyncColumns.apply
  cases s.connection with
  | none => cases e.status <;> rfl
  | some r =>
    cases e.status with
    | starting => rfl
    | progress => by_cases hr : r.syncStatus = some .syncing <;> simp [hr]
    | completed => by_cases hr : r.syncStatus = some .syncing <;> simp [hr]

theorem movers_update (k : ℕ) {q : ℕ} (h : s.movers[k]? = some q) : (s.update p e).movers[k]? = some q := by
  show (if _ then s.movers ++ [p] else s.movers)[k]? = some q
  split_ifs
  · rw [List.getElem?_append_left (List.getElem?_eq_some_iff.mp h).1]
    exact h
  · exact h

theorem CompletionInv.update (h : CompletionInv s) : CompletionInv (s.update p e) := by
  have hlen : (s.update p e).movers.length =
      s.movers.length + if e.status = .completed ∧ s.syncing = true then 1 else 0 := by
    show (if _ then s.movers ++ [p] else s.movers).length = _
    split_ifs
    · rw [List.length_append, List.length_singleton]
    · rfl
  have hstartings : (s.update p e).startings = if e.status = .starting then s.startings + 1 else s.startings := rfl
  refine ⟨?_, h.nodup, fun k hk => ?_, h.own⟩
  · have hstart := h.started
    rw [hlen, hstartings, syncing_update]
    cases hstatus : e.status with
    | starting =>
      simp only [reduceCtorEq, false_and, if_false, if_true]
      split_ifs at hstart ⊢ <;> omega
    | progress =>
      simp only [reduceCtorEq, false_and, if_false]
      exact hstart
    | completed =>
      simp only [reduceCtorEq, true_and, if_false, Bool.false_eq_true]
      exact hstart
  · have hbound := h.bound k hk
    rw [hlen]
    omega

theorem CompletionInv.announce (h : CompletionInv s) (hread : e.status = .completed → s.syncing = true) :
    AnnounceInv (s.update p e) p (.announcing (s.announcement e)) := by
  unfold SyncState.announcement
  cases hstatus : e.status with
  | starting | progress => exact ⟨fun h => (nomatch h), fun k h => (nomatch h)⟩
  | completed =>
    have hsync : s.syncing = true := hread hstatus
    refine ⟨fun _ => by rw [if_pos hsync]; rfl, fun k hk => ?_⟩
    have hk : s.movers.length = k := by
      rw [SyncBroadcast.move, if_pos hsync] at hk
      exact Option.some.inj hk
    subst hk
    constructor
    · show (if _ then s.movers ++ [p] else s.movers)[_]? = some p
      rw [if_pos ⟨hstatus, hsync⟩]
      simp
    · exact fun hmem => Nat.lt_irrefl _ (h.bound _ hmem)

end Update

theorem syncInv_step (s : Calls SyncState SyncHandler) (a : CallAction SyncAction Empty)
    (s' : Calls SyncState SyncHandler) (hs : SyncInv s) (hC : UpdatesAsRead s a)
    (h : syncSystem.step s a = some s') : SyncInv s' := by
  refine Machine.holds_step (fun s p a w x hs hC hact => ?_) (fun _ e => nomatch e) s a s' hs hC h
  have hmove := syncAct_move hact
  generalize hp : s.calls p = y at hmove
  cases hmove with
  | receive | disconnect | ignore | decide | read | quiet | fail => exact ⟨hs.1, trivial, fun q _ => hs.2 q⟩
  | update =>
    have hread := by
      simp only [UpdatesAsRead, hp] at hC
      exact hC
    exact ⟨hs.1.update, hs.1.announce hread, fun q _ => AnnounceInv.mono (s := s.shared) rfl (fun k h => movers_update k h) (hs.2 q)⟩
  | interrupt =>
    refine ⟨⟨?_, hs.1.nodup, hs.1.bound, hs.1.own⟩, ⟨fun h => (nomatch h), fun k h => (nomatch h)⟩,
      fun q _ => AnnounceInv.mono (s := s.shared) rfl (fun _ h => h) (hs.2 q)⟩
    have hstart := hs.1.started
    have hnot : ({ s.shared with connection := s.shared.connection.map ({ · with syncStatus := some .interrupted }) } :
        SyncState).syncing = false := by
      unfold SyncState.syncing
      cases s.shared.connection <;> rfl
    rw [hnot]
    show s.shared.movers.length + 0 ≤ s.shared.startings
    omega
  | announce =>
    rename_i b
    have hown := hs.2 p
    rw [hp] at hown
    obtain ⟨hsome, hnew⟩ := hown
    have hmem : ∀ k, k ∈ ({ s.shared with broadcasts := b :: s.shared.broadcasts } : SyncState).announced ↔
        b.move = some k ∨ k ∈ s.shared.announced := by
      intro k
      simp only [SyncState.announced, List.mem_filterMap, List.mem_cons, exists_eq_or_imp]
    refine ⟨⟨hs.1.started, ?_, fun k hk => ?_, fun c hc => ?_⟩, trivial, fun q hq => ?_⟩
    · show (List.filterMap _ (b :: s.shared.broadcasts)).Nodup
      rw [List.filterMap_cons]
      split
      · exact hs.1.nodup
      · next k hk => exact List.nodup_cons.mpr ⟨(hnew k hk).2, hs.1.nodup⟩
    · rcases (hmem k).mp hk with hk | hk
      · exact (List.getElem?_eq_some_iff.mp (hnew k hk).1).1
      · exact hs.1.bound k hk
    · rcases List.mem_cons.mp hc with rfl | hc
      · exact hsome
      · exact hs.1.own c hc
    · have hother := hs.2 q
      generalize s.calls q = y at hother
      cases y with
      | idle | received | updating | disconnected | interrupting => trivial
      | announcing c =>
        refine ⟨hother.1, fun k hk => ?_⟩
        obtain ⟨hmover, hfresh⟩ := hother.2 k hk
        refine ⟨hmover, fun h => ?_⟩
        rcases (hmem k).mp h with hb | hold
        · exact hq (Option.some.inj (hmover.symm.trans (hnew k hb).1))
        · exact hfresh hold

theorem sync_completes_once (connection : Option SyncColumns) (as : List (CallAction SyncAction Empty))
    (h : Meets syncSystem.step UpdatesAsRead (.start (.of connection) .idle) as) : SyncLifecycle connection as := by
  have hstart : SyncInv (.start (.of connection) .idle) := by
    refine holds_start ⟨?_, List.nodup_nil, fun _ h => absurd h List.not_mem_nil,
      fun _ h => absurd h List.not_mem_nil⟩ fun _ => trivial
    show 0 + _ ≤ _
    rw [Nat.zero_add]
    exact Nat.le_refl _
  have hrun : Always syncSystem.step SyncInv (.start (.of connection) .idle) as :=
    always_of_meets syncInv_step hstart h
  refine ⟨?_, hrun.mono fun _ hI => hI.1.completionsOwn⟩
  exact steps_of_meets (I := fun _ => True) (R := fun s a s' => Starts s a ∨ SyncKept s s')
    (fun _ _ _ _ hC hstep => ⟨trivial, syncKept_of_step hC hstep⟩) trivial h

/-- A sync with a late progress, completed once. -/
theorem sync_completes_once_late : SyncLifecycle (some ⟨none, 0, 0⟩)
    [.act 0 (.receive ⟨.starting, 0, 0⟩), .act 0 .proceed, .act 0 .proceed, .act 0 .proceed,
      .act 1 (.receive ⟨.progress, 5, 2⟩), .act 1 .proceed, .act 0 (.receive ⟨.completed, 9, 3⟩), .act 0 .proceed,
      .act 0 .proceed, .act 1 .proceed, .act 0 .proceed, .act 1 .proceed, .act 2 .disconnect, .act 2 .proceed,
      .act 2 .proceed] :=
  sync_completes_once _ _ (meets_of_check (by decide +kernel))

/-- Two redeliveries of one completion are both announced. -/
theorem sync_completed_twice : ¬ ∀ connection as, SyncLifecycle connection as := by
  intro h
  obtain ⟨-, hown⟩ := h (some ⟨some .syncing, 0, 0⟩)
    [.act 0 (.receive ⟨.completed, 9, 3⟩), .act 1 (.receive ⟨.completed, 9, 3⟩), .act 0 .proceed, .act 1 .proceed,
      .act 0 .proceed, .act 1 .proceed, .act 0 .proceed, .act 1 .proceed]
  have hend := always_iff_reached.mp hown _ [] _ (List.append_nil _).symm rfl
  exact absurd hend.2 (by decide)

end TeamInbox.Api
