import TeamInbox.Orchestrator.Readiness

/-!
# TeamInbox.Orchestrator.ReadinessAutomaton — when a launch is ready, and who is told

A launch is ready exactly when all three signals have been accepted since the last `disconnected`; a refused signal
changes nothing, no signal takes a lifecycle status back, and a waiter whose launch is or was ready while its channel was
registered is woken by the next step of a signal in progress.  The invariant of the last part: a registered channel
belongs to the one waiter, and where its launch is ready a signal is about to close it.
-/

namespace TeamInbox.Orchestrator

open TeamInbox.Lib

abbrev ReadinessCalls := Calls ReadinessState ReadinessStage

def ReadinessStage.ofRunner : ReadinessStage → Bool
  | .rollout | .inspecting _ | .registering _ | .waiting .. => true
  | _ => false

/-- The stages in which `readinessMu` is held. -/
def ReadinessStage.inspects : ReadinessStage → Bool
  | .inspecting _ | .registering _ => true
  | _ => false

/-- A signal is about to close the channel of the launch. -/
def ReadinessStage.Closes (l : LaunchID) : ReadinessStage → Prop
  | .closing status _ => status.launchID = l
  | _ => False

/-- The launch is ready, or was made so while the channel was registered. -/
def WasReady (l : LaunchID) (channel : ℕ) (s : ReadinessState) : Prop :=
  s.launchReady l = true ∨ channel ∈ s.announced

structure ReadinessInv (s : ReadinessCalls) : Prop where
  reflects : ∀ c w, s.shared.manager.workers.find? c = some w → Reflects (s.shared.accepted c w.launchID) w
  increasing : ∀ c l, (s.shared.accepted c l).Pairwise fun later earlier => earlier.timestamp < later.timestamp
  opened : ∀ l channel, s.shared.readiness.find? l = some channel → channel < s.shared.channels ∧ channel ∉ s.shared.closed
  made : ∀ channel, channel ∈ s.shared.closed ∨ channel ∈ s.shared.announced → channel < s.shared.channels
  runner : ∀ p, (s.calls p).ofRunner = true → s.shared.rolloutMu = some p
  mutex : ∀ p, s.shared.readinessMu = some p ↔ (s.calls p).inspects = true
  registered : ∀ l channel, s.shared.readiness.find? l = some channel → ∃ p, s.calls p = .waiting l channel
  registering : ∀ p l, s.calls p = .registering l → s.shared.launchReady l = true → ∃ q, (s.calls q).Closes l
  waiting : ∀ p l channel, s.calls p = .waiting l channel → channel ∈ s.shared.closed ∨
    s.shared.readiness.find? l = some channel ∧ (WasReady l channel s.shared → ∃ q, (s.calls q).Closes l)

structure ReadinessHolds (nodeID : NodeID) (s : ReadinessCalls) : Prop where
  ready : ∀ c e, s.shared.manager.workers.find? c = some e →
    (e.isReady = true ↔ ReadySignals (s.shared.accepted c e.launchID))
  /-- The waiter is woken, or the next step of a signal wakes it. -/
  woken : ∀ p l channel, s.calls p = .waiting l channel → WasReady l channel s.shared → channel ∈ s.shared.closed ∨
    ∃ q s', (readinessMachine nodeID).step s (.act q (.next .ok)) = some s' ∧ channel ∈ s'.shared.closed
  wakes : ∀ p l channel, s.calls p = .waiting l channel → channel ∈ s.shared.closed →
    (readinessMachine nodeID).step s (.act p .wake) ≠ none

structure SignalStep (s : ReadinessCalls) (p : ℕ) (a : ReadinessAction) (s' : ReadinessCalls) : Prop where
  recorded : ∀ d, a = .record d → s'.shared = s.shared ∧ (d.timely = false → s'.calls p = s.calls p)
  accepted : ∀ d l, s.calls p = .locked d l → Accepts d l s.shared → s'.shared.accepted = fun c' l' =>
    if c' = d.status.connectionID ∧ l' = l then ⟨d.status.signal, d.status.timestamp⟩ :: s.shared.accepted c' l'
    else s.shared.accepted c' l'
  refused : ∀ d l, s.calls p = .locked d l → ¬ Accepts d l s.shared → s'.shared = s.shared ∧ s'.calls p = .unlocking
  others : (∀ d l, s.calls p ≠ .locked d l) → s'.shared.accepted = s.shared.accepted ∧ s'.shared.manager = s.shared.manager
  unlocked : s.calls p = .unlocking → s'.shared.db = s.shared.db ∧ s'.shared.readiness = s.shared.readiness ∧
    s'.shared.closed = s.shared.closed
  keepsRow : ∀ c r, s.shared.db.registry.find? c = some r → r.status.isRuntime = false ∨ r.desiredState ≠ .running →
    ∃ r', s'.shared.db.registry.find? c = some r' ∧ r'.status = r.status ∧ r'.desiredState = r.desiredState
  keepsEntry : ∀ c e, s.shared.manager.workers.find? c = some e → Manager.acceptsRuntimeConnectionState e = false →
    ∃ e', s'.shared.manager.workers.find? c = some e' ∧ e'.status = e.status ∧ e'.desiredState = e.desiredState

variable {nodeID : NodeID} {p : ℕ} {s : ReadinessCalls} {w w' : ReadinessState} {x x' : ReadinessStage}
  {a : ReadinessAction} {l : LaunchID} {d : RuntimeDelivery}

/-! ### The moves of a call -/

/-- What the call `p` can do. -/
inductive ReadinessMove (nodeID : NodeID) (p : ℕ) (w : ReadinessState) :
    ReadinessStage → ReadinessAction → ReadinessState → ReadinessStage → Prop
  | ignore (d : RuntimeDelivery) : ReadinessMove nodeID p w .idle (.record d) w .idle
  | observe (d : RuntimeDelivery) (l : LaunchID) (h : d.timely = true) :
      ReadinessMove nodeID p w .idle (.record d) w (.observed d l)
  | lock (d : RuntimeDelivery) (l : LaunchID) (f : Fault) (t : Locks (ConnectionID × LaunchID)) :
      ReadinessMove nodeID p w (.observed d l) (.next f) { w with runtimeStatusMu := t } (.locked d l)
  | refuse (d : RuntimeDelivery) (l : LaunchID) (f : Fault) (h : ¬ Accepts d l w) :
      ReadinessMove nodeID p w (.locked d l) (.next f) w .unlocking
  | accept (d : RuntimeDelivery) (l : LaunchID) (f : Fault) (r : Manager.RuntimeResult) (w' : ReadinessState)
      (h : Accepts d l w) (haccept : w.accept d l = some (r, w')) :
      ReadinessMove nodeID p w (.locked d l) (.next f) w'
        (if r.complete then .closing d.status r else .resetting d.status r)
  | close (status : WorkerRuntimeStatus) (r : Manager.RuntimeResult) (f : Fault) (h : w.readinessMu = none) :
      ReadinessMove nodeID p w (.closing status r) (.next f) (w.closeReadiness status.launchID) (.resetting status r)
  | reset (status : WorkerRuntimeStatus) (r : Manager.RuntimeResult) (f : Fault) :
      ReadinessMove nodeID p w (.resetting status r) (.next f) (w.resetBudget f status r.clearRestartBudget)
        (.persisting status r)
  | persist (status : WorkerRuntimeStatus) (r : Manager.RuntimeResult) (f : Fault) :
      ReadinessMove nodeID p w (.persisting status r) (.next f) (w.persistStatus nodeID f status r.durable) .unlocking
  | unlock (f : Fault) : ReadinessMove nodeID p w .unlocking (.next f)
      { w with runtimeStatusMu := w.runtimeStatusMu.release p } .idle
  | lockRollout (h : w.rolloutMu = none) : ReadinessMove nodeID p w .idle .lockRollout
      { w with rolloutMu := some p } .rollout
  | unlockRollout : ReadinessMove nodeID p w .rollout .unlockRollout { w with rolloutMu := none } .idle
  | wait (l : LaunchID) (h : w.readinessMu = none) : ReadinessMove nodeID p w .rollout (.wait l)
      { w with readinessMu := some p } (.inspecting l)
  | inspectReady (l : LaunchID) (f : Fault) (h : w.launchReady l = true) :
      ReadinessMove nodeID p w (.inspecting l) (.next f) { w with readinessMu := none } .rollout
  | inspectDown (l : LaunchID) (f : Fault) (h : ¬ w.launchReady l = true) :
      ReadinessMove nodeID p w (.inspecting l) (.next f) w (.registering l)
  | register (l : LaunchID) (f : Fault) :
      ReadinessMove nodeID p w (.registering l) (.next f) (w.register l).2 (.waiting l (w.register l).1)
  | wake (l : LaunchID) (channel : ℕ) (h : channel ∈ w.closed) :
      ReadinessMove nodeID p w (.waiting l channel) .wake w .rollout
  | expire (l : LaunchID) (channel : ℕ) (h : w.readinessMu = none) :
      ReadinessMove nodeID p w (.waiting l channel) .expire (w.expire l channel) .rollout

theorem readiness_move (h : readinessAct nodeID p w x a = some (w', x')) : ReadinessMove nodeID p w x a w' x' := by
  unfold readinessAct at h
  split at h
  · split_ifs at h with htimely
    · cases h
      exact .ignore _
    · split at h
      · cases h
        exact .ignore _
      · cases h
        exact .observe _ _ (eq_true_of_ne_false htimely)
  · obtain ⟨t, -, ht⟩ := Option.map_eq_some_iff.mp h
    cases ht
    exact .lock _ _ _ _
  · next d l f =>
    rcases accept_cases (d := d) (l := l) (s := w) with ⟨hnot, hnone⟩ | ⟨haccepts, e, r, w₁, -, -, -, -, hsome, -, -⟩
    · rw [hnone] at h
      cases h
      exact .refuse _ _ _ hnot
    · rw [hsome] at h
      cases h
      exact .accept _ _ _ _ _ haccepts hsome
  · split_ifs at h with hmu
    cases h
    exact .close _ _ _ hmu
  · cases h
    exact .reset _ _ _
  · cases h
    exact .persist _ _ _
  · cases h
    exact .unlock _
  · split_ifs at h with hmu
    cases h
    exact .lockRollout hmu
  · cases h
    exact .unlockRollout
  · split_ifs at h with hmu
    cases h
    exact .wait _ hmu
  · split_ifs at h with hready
    · cases h
      exact .inspectReady _ _ hready
    · cases h
      exact .inspectDown _ _ hready
  · cases h
    exact .register _ _
  · split_ifs at h with hmem
    cases h
    exact .wake _ _ hmem
  · split_ifs at h with hmu
    cases h
    exact .expire _ _ hmu
  · cases h

/-! ### Moves that leave the readiness alone -/

/-- Nothing changes but the database and `runtimeStatusMu`. -/
structure SameReadiness (w w' : ReadinessState) : Prop where
  manager : w'.manager = w.manager
  accepted : w'.accepted = w.accepted
  rolloutMu : w'.rolloutMu = w.rolloutMu
  readinessMu : w'.readinessMu = w.readinessMu
  readiness : w'.readiness = w.readiness
  closed : w'.closed = w.closed
  channels : w'.channels = w.channels
  announced : w'.announced = w.announced

theorem SameReadiness.refl : SameReadiness w w := ⟨rfl, rfl, rfl, rfl, rfl, rfl, rfl, rfl⟩

theorem sameReadiness_resetBudget {f : Fault} {status : WorkerRuntimeStatus} {clear : Bool} :
    SameReadiness w (w.resetBudget f status clear) := by
  unfold ReadinessState.resetBudget
  split_ifs
  · exact ⟨rfl, rfl, rfl, rfl, rfl, rfl, rfl, rfl⟩
  · exact .refl

theorem sameReadiness_persistStatus {f : Fault} {status : WorkerRuntimeStatus} {durable : Option WorkerStatus} :
    SameReadiness w (w.persistStatus nodeID f status durable) := by
  unfold ReadinessState.persistStatus
  cases durable with
  | none => exact .refl
  | some st => exact ⟨rfl, rfl, rfl, rfl, rfl, rfl, rfl, rfl⟩

theorem SameReadiness.launchReady (h : SameReadiness w w') : w'.launchReady l = w.launchReady l := by
  unfold ReadinessState.launchReady
  rw [h.manager]

theorem SameReadiness.wasReady {channel : ℕ} (h : SameReadiness w w') : WasReady l channel w' ↔ WasReady l channel w := by
  unfold WasReady
  rw [h.launchReady, h.announced]

/-- The stages of a signal, but for the one that closes the channel. -/
def ReadinessStage.plain : ReadinessStage → Bool
  | .idle | .observed .. | .locked .. | .resetting .. | .persisting .. | .unlocking => true
  | _ => false

theorem not_closes_of_plain (h : x.plain = true) : ¬ x.Closes l := by
  cases x <;> simp_all [ReadinessStage.plain, ReadinessStage.Closes]

theorem not_closes_of_runner (h : x.ofRunner = true) : ¬ x.Closes l := by
  cases x <;> simp_all [ReadinessStage.ofRunner, ReadinessStage.Closes]

theorem ofRunner_of_inspects (h : x.inspects = true) : x.ofRunner = true := by
  cases x <;> simp_all [ReadinessStage.inspects, ReadinessStage.ofRunner]

theorem not_runner_of_plain (h : x.plain = true) : ¬ x.ofRunner = true := by
  cases x <;> simp_all [ReadinessStage.plain, ReadinessStage.ofRunner]

theorem closer_set (h : ∃ q, (s.calls q).Closes l) (hp : ¬ (s.calls p).Closes l) :
    ∃ q, ((s.set p w x).calls q).Closes l := by
  obtain ⟨q, hq⟩ := h
  have hne : q ≠ p := by
    rintro rfl
    exact hp hq
  refine ⟨q, ?_⟩
  rw [Calls.calls_set_ne s w x hne]
  exact hq

theorem ReadinessInv.unique (h : ReadinessInv s) {q : ℕ} (hp : (s.calls p).ofRunner = true)
    (hq : (s.calls q).ofRunner = true) : q = p :=
  Option.some.inj ((h.runner q hq).symm.trans (h.runner p hp))

theorem calls_of_set {q : ℕ} {y : ReadinessStage} (h : (s.set p w x).calls q = y) (hx : x ≠ y) : s.calls q = y := by
  rcases eq_or_ne q p with rfl | hq
  · rw [Calls.calls_set_self] at h
    exact absurd h hx
  · rwa [Calls.calls_set_ne s w x hq] at h

theorem ReadinessInv.mutex_set (h : ReadinessInv s) (hp : ¬ (s.calls p).inspects = true) (hx : ¬ x.inspects = true)
    (q : ℕ) : s.shared.readinessMu = some q ↔ ((s.set p w x).calls q).inspects = true := by
  rw [h.mutex q]
  rcases eq_or_ne q p with rfl | hq
  · rw [Calls.calls_set_self]
    exact iff_of_false hp hx
  · rw [Calls.calls_set_ne s w x hq]

theorem inv_plain (h : ReadinessInv s) (hw : SameReadiness s.shared w') (hp : (s.calls p).plain = true)
    (hx : x'.plain = true) : ReadinessInv (s.set p w' x') := by
  have hset : ∀ q, ((s.set p w' x').calls q).ofRunner = true → (s.calls q).ofRunner = true ∧ q ≠ p := fun q hq => by
    rcases eq_or_ne q p with rfl | hne
    · rw [Calls.calls_set_self] at hq
      exact absurd hq (not_runner_of_plain hx)
    · rw [Calls.calls_set_ne s w' x' hne] at hq
      exact ⟨hq, hne⟩
  have hcloser : ∀ l, (∃ q, (s.calls q).Closes l) → ∃ q, ((s.set p w' x').calls q).Closes l := fun l hq =>
    closer_set hq (not_closes_of_plain hp)
  constructor
  · intro c e he
    rw [Calls.shared_set, hw.manager] at he
    rw [Calls.shared_set, hw.accepted]
    exact h.reflects c e he
  · intro c l
    rw [Calls.shared_set, hw.accepted]
    exact h.increasing c l
  · intro l channel hchannel
    rw [Calls.shared_set, hw.readiness] at hchannel
    rw [Calls.shared_set, hw.channels, hw.closed]
    exact h.opened l channel hchannel
  · intro channel hchannel
    rw [Calls.shared_set, hw.closed, hw.announced] at hchannel
    rw [Calls.shared_set, hw.channels]
    exact h.made channel hchannel
  · intro q hq
    rw [Calls.shared_set, hw.rolloutMu]
    exact h.runner q (hset q hq).1
  · intro q
    rw [Calls.shared_set, hw.readinessMu]
    exact h.mutex_set (fun hi => not_runner_of_plain hp (ofRunner_of_inspects hi))
      (fun hi => not_runner_of_plain hx (ofRunner_of_inspects hi)) q
  · intro l channel hchannel
    rw [Calls.shared_set, hw.readiness] at hchannel
    obtain ⟨q, hq⟩ := h.registered l channel hchannel
    refine ⟨q, ?_⟩
    rw [Calls.calls_set_ne]
    · exact hq
    · rintro rfl
      rw [hq] at hp
      cases hp
  · intro q l hq hready
    rw [Calls.shared_set, hw.launchReady] at hready
    have hq := calls_of_set hq fun heq => by rw [heq] at hx; cases hx
    exact hcloser l (h.registering q l hq hready)
  · intro q l channel hq
    have hq := calls_of_set hq fun heq => by rw [heq] at hx; cases hx
    rw [Calls.shared_set, hw.closed, hw.readiness, hw.wasReady]
    exact (h.waiting q l channel hq).imp_right fun hr => ⟨hr.1, fun hwas => hcloser l (hr.2 hwas)⟩

/-! ### The section under `m.mu` -/

theorem increasing_cons {signal : RuntimeSignal} {timestamp : ℕ} {h : List AcceptedSignal}
    (hordered : h.Pairwise fun later earlier => earlier.timestamp < later.timestamp) (hlast : lastTimestamp h < timestamp) :
    (⟨signal, timestamp⟩ :: h : List AcceptedSignal).Pairwise fun later earlier => earlier.timestamp < later.timestamp := by
  refine List.pairwise_cons.mpr ⟨fun b hb => ?_, hordered⟩
  cases h with
  | nil => cases hb
  | cons a h =>
    have hlast : a.timestamp < timestamp := hlast
    rcases List.mem_cons.mp hb with rfl | hb
    · exact hlast
    · exact Nat.lt_trans ((List.pairwise_cons.mp hordered).1 b hb) hlast

theorem inv_accept {r : Manager.RuntimeResult} (h : ReadinessInv s) (hp : s.calls p = .locked d l)
    (hw : s.shared.accept d l = some (r, w')) :
    ReadinessInv (s.set p w' (if r.complete then .closing d.status r else .resetting d.status r)) := by
  rcases accept_cases (d := d) (l := l) (s := s.shared) with ⟨-, hnone⟩ |
    ⟨-, e, r', w₁, he, hl, hlaunch, hlater, hsome, hcomplete, rfl⟩
  · rw [hnone] at hw
    cases hw
  rw [hsome] at hw
  obtain ⟨rfl, rfl⟩ := Prod.mk.inj (Option.some.inj hw)
  generalize hx : (if r'.complete then ReadinessStage.closing d.status r' else .resetting d.status r') = x'
  have hrunner : ¬ x'.ofRunner = true := by
    rw [← hx]
    split_ifs <;> exact nofun
  have hne : ∀ y : ReadinessStage, y.ofRunner = true → x' ≠ y := fun y hy heq => hrunner (heq ▸ hy)
  have hclosing : r'.complete = true → x'.Closes l := fun hc => by
    rw [← hx, if_pos hc]
    exact hlaunch
  have hcloser : ∀ w l, (∃ q, (s.calls q).Closes l) → ∃ q, ((s.set p w x').calls q).Closes l := fun w l hq =>
    closer_set hq (by rw [hp]; exact id)
  have hself : ∀ w, x'.Closes l → ∃ q, ((s.set p w x').calls q).Closes l := fun w hc =>
    ⟨p, by rwa [Calls.calls_set_self]⟩
  -- the launch of another entry was ready before
  have hready : ∀ l', ReadinessState.launchReady l' { s.shared with
      manager := s.shared.manager.insert d.status.connectionID (signaledEntry d.status e) } = true →
        s.shared.launchReady l' = true ∨ (l' = l ∧ r'.complete = true) := fun l' hready => by
    obtain ⟨c, e', he', hl', hr'⟩ := launchReady_iff.mp hready
    have he' : (s.shared.manager.insert d.status.connectionID (signaledEntry d.status e)).workers.find? c = some e' := he'
    rw [Manager.find?_insert] at he'
    split_ifs at he' with hc
    · obtain rfl := Option.some.inj he'
      refine .inr ⟨?_, hcomplete.trans hr'⟩
      rw [← hl', ← hl]
      unfold signaledEntry Manager.applyRuntimeSignal
      cases d.status.signal <;> rfl
    · exact .inl (launchReady_iff.mpr ⟨c, e', he', hl', hr'⟩)
  constructor
  · intro c e' he'
    have he' : (s.shared.manager.insert d.status.connectionID (signaledEntry d.status e)).workers.find? c = some e' := he'
    rw [Manager.find?_insert] at he'
    show Reflects (if c = d.status.connectionID ∧ e'.launchID = l then _ else _) e'
    split_ifs at he' with hc
    · obtain rfl := Option.some.inj he'
      have hlaunch' : (signaledEntry d.status e).launchID = e.launchID := by
        unfold signaledEntry Manager.applyRuntimeSignal
        cases d.status.signal <;> rfl
      rw [if_pos ⟨hc, hlaunch'.trans hl⟩, hlaunch', hc]
      exact reflects_apply (h.reflects _ e he)
    · rw [if_neg fun h => hc h.1]
      exact h.reflects c e' he'
  · intro c l'
    show List.Pairwise _ (if c = d.status.connectionID ∧ l' = l then _ else _)
    split_ifs with hc
    · obtain ⟨rfl, rfl⟩ := hc
      refine increasing_cons (h.increasing _ _) ?_
      rw [← hl, ← (h.reflects _ e he).2.2.2]
      exact hlater
    · exact h.increasing c l'
  · exact h.opened
  · intro channel hchannel
    refine hchannel.elim (fun hclosed => h.made channel (.inl hclosed)) fun hannounced => ?_
    have hannounced : channel ∈ (if r'.complete then (s.shared.readiness.find? l).toList ++ s.shared.announced
      else s.shared.announced) := hannounced
    split_ifs at hannounced
    · rcases List.mem_append.mp hannounced with hopen | hold
      · exact (h.opened l channel (Option.mem_toList.mp hopen)).1
      · exact h.made channel (.inr hold)
    · exact h.made channel (.inr hannounced)
  · intro q hq
    rcases eq_or_ne q p with rfl | hqp
    · rw [Calls.calls_set_self] at hq
      exact absurd hq hrunner
    · rw [Calls.calls_set_ne _ _ _ hqp] at hq
      exact h.runner q hq
  · exact h.mutex_set (by rw [hp]; exact nofun) fun hi => hrunner (ofRunner_of_inspects hi)
  · intro l' channel hchannel
    obtain ⟨q, hq⟩ := h.registered l' channel hchannel
    refine ⟨q, ?_⟩
    rw [Calls.calls_set_ne]
    · exact hq
    · rintro rfl
      rw [hp] at hq
      cases hq
  · intro q l' hq hr
    have hq := calls_of_set hq (hne _ rfl)
    rcases hready l' hr with hold | ⟨rfl, hc⟩
    · exact hcloser _ l' (h.registering q l' hq hold)
    · exact hself _ (hclosing hc)
  · intro q l' channel hq
    have hq := calls_of_set hq (hne _ rfl)
    refine (h.waiting q l' channel hq).imp_right fun hr => ⟨hr.1, fun hwas => ?_⟩
    rcases hwas with hnow | hannounced
    · rcases hready l' hnow with hold | ⟨rfl, hc⟩
      · exact hcloser _ l' (hr.2 (.inl hold))
      · exact hself _ (hclosing hc)
    · have hannounced : channel ∈ (if r'.complete then (s.shared.readiness.find? l).toList ++ s.shared.announced
        else s.shared.announced) := hannounced
      split_ifs at hannounced with hc
      · rcases List.mem_append.mp hannounced with hopen | hold
        · -- the channel of the launch is that of the only waiter
          obtain ⟨q', hq'⟩ := h.registered l channel (Option.mem_toList.mp hopen)
          obtain rfl := h.unique (p := q) (by rw [hq]; rfl) (by rw [hq']; rfl)
          rw [hq] at hq'
          obtain rfl := (ReadinessStage.waiting.inj hq').1
          exact hself _ (hclosing hc)
        · exact hcloser _ l' (hr.2 (.inr hold))
      · exact hcloser _ l' (hr.2 (.inr hannounced))

/-! ### The section that closes the channel -/

theorem inv_close {status : WorkerRuntimeStatus} {r : Manager.RuntimeResult} (h : ReadinessInv s)
    (hp : s.calls p = .closing status r) (hmu : s.shared.readinessMu = none) :
    ReadinessInv (s.set p (s.shared.closeReadiness status.launchID) (.resetting status r)) := by
  generalize hl : status.launchID = l
  have hcloser : ∀ w l', l' ≠ l → (∃ q, (s.calls q).Closes l') →
      ∃ q, ((s.set p w (.resetting status r)).calls q).Closes l' := fun w l' hne hq =>
    closer_set hq (by rw [hp]; exact fun heq => hne (heq.symm.trans hl))
  have hfree : ∀ q l', s.calls q ≠ .registering l' := fun q l' hq => by
    have hheld := (h.mutex q).mpr (by rw [hq]; rfl)
    rw [hmu] at hheld
    cases hheld
  have hrunner : ∀ w q, ((s.set p w (.resetting status r)).calls q).ofRunner = true → s.shared.rolloutMu = some q :=
    fun w q hq => by
      rcases eq_or_ne q p with rfl | hqp
      · rw [Calls.calls_set_self] at hq
        cases hq
      · rw [Calls.calls_set_ne _ _ _ hqp] at hq
        exact h.runner q hq
  have hmutex : ∀ w q, s.shared.readinessMu = some q ↔ ((s.set p w (.resetting status r)).calls q).inspects = true :=
    fun w => h.mutex_set (by rw [hp]; exact nofun) nofun
  have hwaiter : ∀ w l' channel, (∃ q, s.calls q = .waiting l' channel) →
      ∃ q, (s.set p w (.resetting status r)).calls q = .waiting l' channel := by
    rintro w l' channel ⟨q, hq⟩
    refine ⟨q, ?_⟩
    rw [Calls.calls_set_ne]
    · exact hq
    · rintro rfl
      rw [hp] at hq
      cases hq
  unfold ReadinessState.closeReadiness
  cases hopen : s.shared.readiness.find? l with
  | none =>
    refine ⟨h.reflects, h.increasing, h.opened, h.made, hrunner _, hmutex _, ?_, ?_, ?_⟩
    · exact fun l' channel hchannel => hwaiter _ l' channel (h.registered l' channel hchannel)
    · exact fun q l' hq _ => absurd (calls_of_set hq nofun) (hfree q l')
    · intro q l' channel hq
      refine (h.waiting q l' channel (calls_of_set hq nofun)).imp_right fun hr => ⟨hr.1, fun hwas => ?_⟩
      refine hcloser _ l' (fun heq => ?_) (hr.2 hwas)
      rw [heq, hopen] at hr
      cases hr.1
  | some channel =>
    obtain ⟨hlt, -⟩ := h.opened l channel hopen
    refine ⟨h.reflects, h.increasing, ?_, ?_, hrunner _, hmutex _, ?_, ?_, ?_⟩
    · intro l' channel' hchannel
      have hchannel : (s.shared.readiness.erase l).find? l' = some channel' := hchannel
      rw [Table.find?_erase] at hchannel
      split_ifs at hchannel with hne
      obtain ⟨hmade, hnot⟩ := h.opened l' channel' hchannel
      refine ⟨hmade, fun hmem => (List.mem_cons.mp hmem).elim (fun heq => hne ?_) hnot⟩
      obtain ⟨q, hq⟩ := h.registered l channel hopen
      obtain ⟨q', hq'⟩ := h.registered l' channel' hchannel
      obtain rfl := h.unique (p := q) (by rw [hq]; rfl) (by rw [hq']; rfl)
      rw [hq] at hq'
      exact (ReadinessStage.waiting.inj hq').1.symm
    · intro channel' hchannel
      rcases hchannel with hclosed | hannounced
      · rcases List.mem_cons.mp hclosed with rfl | hold
        · exact hlt
        · exact h.made channel' (.inl hold)
      · exact h.made channel' (.inr hannounced)
    · intro l' channel' hchannel
      have hchannel : (s.shared.readiness.erase l).find? l' = some channel' := hchannel
      rw [Table.find?_erase] at hchannel
      split_ifs at hchannel
      exact hwaiter _ l' channel' (h.registered l' channel' hchannel)
    · exact fun q l' hq _ => absurd (calls_of_set hq nofun) (hfree q l')
    · intro q l' channel' hq
      rcases h.waiting q l' channel' (calls_of_set hq nofun) with hclosed | ⟨hreg, hwas⟩
      · exact .inl (List.mem_cons_of_mem channel hclosed)
      · by_cases hne : l' = l
        · rw [hne, hopen] at hreg
          exact .inl (List.mem_cons.mpr (.inl (Option.some.inj hreg).symm))
        · refine .inr ⟨?_, fun hw => hcloser _ l' hne (hwas hw)⟩
          show (s.shared.readiness.erase l).find? l' = some channel'
          rw [Table.find?_erase_ne _ hne]
          exact hreg

/-! ### Moves of the runner -/

theorem inv_runner (h : ReadinessInv s) (hp : ∀ l, ¬ (s.calls p).Closes l)
    (honly : ∀ q, q ≠ p → ¬ (s.calls q).ofRunner = true) (hmanager : w'.manager = s.shared.manager)
    (haccepted : w'.accepted = s.shared.accepted)
    (hopened : ∀ l channel, w'.readiness.find? l = some channel →
      channel < w'.channels ∧ channel ∉ w'.closed ∧ x' = .waiting l channel)
    (hmade : ∀ channel, channel ∈ w'.closed ∨ channel ∈ w'.announced → channel < w'.channels)
    (hrollout : x'.ofRunner = true → w'.rolloutMu = some p)
    (hmutex : w'.readinessMu = if x'.inspects then some p else none)
    (hregistering : ∀ l, x' = .registering l → ¬ s.shared.launchReady l = true)
    (hwaiting : ∀ l channel, x' = .waiting l channel →
      w'.readiness.find? l = some channel ∧ (WasReady l channel w' → ∃ q, (s.calls q).Closes l)) :
    ReadinessInv (s.set p w' x') := by
  have hready : ∀ l, w'.launchReady l = s.shared.launchReady l := fun l => by
    unfold ReadinessState.launchReady
    rw [hmanager]
  have hstage : ∀ q y, y.ofRunner = true → (s.set p w' x').calls q = y → q = p ∧ x' = y := fun q y hy hq => by
    by_cases hqp : q = p
    · subst hqp
      rw [Calls.calls_set_self] at hq
      exact ⟨rfl, hq⟩
    · rw [Calls.calls_set_ne s w' x' hqp] at hq
      exact absurd (hq ▸ hy) (honly q hqp)
  constructor
  · intro c e he
    rw [Calls.shared_set, hmanager] at he
    rw [Calls.shared_set, haccepted]
    exact h.reflects c e he
  · intro c l
    rw [Calls.shared_set, haccepted]
    exact h.increasing c l
  · exact fun l channel hchannel => ⟨(hopened l channel hchannel).1, (hopened l channel hchannel).2.1⟩
  · exact hmade
  · intro q hq
    obtain ⟨rfl, hx⟩ := hstage q _ hq rfl
    exact hrollout (hx ▸ hq)
  · intro q
    rw [Calls.shared_set, hmutex]
    constructor
    · intro hq
      split_ifs at hq with hx
      obtain rfl := Option.some.inj hq
      rw [Calls.calls_set_self]
      exact hx
    · intro hq
      obtain ⟨rfl, hx⟩ := hstage q _ (ofRunner_of_inspects hq) rfl
      rw [if_pos (hx ▸ hq)]
  · intro l channel hchannel
    refine ⟨p, ?_⟩
    rw [Calls.calls_set_self]
    exact (hopened l channel hchannel).2.2
  · intro q l hq hr
    obtain ⟨-, hx⟩ := hstage q _ rfl hq
    rw [Calls.shared_set, hready] at hr
    exact absurd hr (hregistering l hx)
  · intro q l channel hq
    obtain ⟨-, hx⟩ := hstage q _ rfl hq
    obtain ⟨hreg, hwas⟩ := hwaiting l channel hx
    exact .inr ⟨hreg, fun hr => closer_set (hwas hr) (hp l)⟩

theorem ReadinessInv.no_channel (h : ReadinessInv s) (hp : (s.calls p).ofRunner = true)
    (hwaits : ∀ l channel, s.calls p = .waiting l channel → channel ∈ s.shared.closed) (l : LaunchID) :
    s.shared.readiness.find? l = none := by
  by_contra hsome
  obtain ⟨channel, hchannel⟩ := Option.ne_none_iff_exists'.mp hsome
  obtain ⟨q, hq⟩ := h.registered l channel hchannel
  obtain rfl := h.unique (p := q) (by rw [hq]; rfl) hp
  exact (h.opened l channel hchannel).2 (hwaits l channel hq)

theorem ReadinessInv.others (h : ReadinessInv s) (hp : (s.calls p).ofRunner = true) (q : ℕ) (hq : q ≠ p) :
    ¬ (s.calls q).ofRunner = true := fun hr => hq (h.unique hp hr)

theorem inv_lockRollout (h : ReadinessInv s) (hp : s.calls p = .idle) (hmu : s.shared.rolloutMu = none) :
    ReadinessInv (s.set p { s.shared with rolloutMu := some p } .rollout) := by
  have hnobody : ∀ q, ¬ (s.calls q).ofRunner = true := fun q hq => by
    have hheld := h.runner q hq
    rw [hmu] at hheld
    cases hheld
  have hclosed : ∀ l, s.shared.readiness.find? l = none := fun l => by
    by_contra hsome
    obtain ⟨channel, hchannel⟩ := Option.ne_none_iff_exists'.mp hsome
    obtain ⟨q, hq⟩ := h.registered l channel hchannel
    exact hnobody q (by rw [hq]; rfl)
  refine inv_runner h (by rw [hp]; exact fun _ => id) (fun q _ => hnobody q) rfl rfl (fun l channel hchannel => ?_) h.made
    (fun _ => rfl) ?_ nofun nofun
  · have hchannel : s.shared.readiness.find? l = some channel := hchannel
    rw [hclosed] at hchannel
    cases hchannel
  · show s.shared.readinessMu = none
    by_contra hsome
    obtain ⟨q, hq⟩ := Option.ne_none_iff_exists'.mp hsome
    exact hnobody q (ofRunner_of_inspects ((h.mutex q).mp hq))

theorem ReadinessInv.mutex_free (h : ReadinessInv s) (hp : (s.calls p).ofRunner = true)
    (hi : ¬ (s.calls p).inspects = true) : s.shared.readinessMu = none := by
  by_contra hsome
  obtain ⟨q, hq⟩ := Option.ne_none_iff_exists'.mp hsome
  have hinspects := (h.mutex q).mp hq
  obtain rfl := h.unique hp (ofRunner_of_inspects hinspects)
  exact hi hinspects

theorem inv_idle_runner (h : ReadinessInv s) (hp : (s.calls p).ofRunner = true)
    (hmanager : w'.manager = s.shared.manager) (haccepted : w'.accepted = s.shared.accepted)
    (hnone : ∀ l, w'.readiness.find? l = none) (hclosed : w'.closed = s.shared.closed)
    (hannounced : w'.announced = s.shared.announced) (hchannels : w'.channels = s.shared.channels)
    (hrollout : x'.ofRunner = true → w'.rolloutMu = some p) (hmutex : w'.readinessMu = if x'.inspects then some p else none)
    (hregistering : ∀ l, x' = .registering l → ¬ s.shared.launchReady l = true)
    (hwaiting : ∀ l channel, x' ≠ .waiting l channel) : ReadinessInv (s.set p w' x') := by
  refine inv_runner h (fun l => not_closes_of_runner hp) (h.others hp) hmanager haccepted (fun l channel hchannel => ?_)
    (fun channel hchannel => ?_) hrollout hmutex hregistering fun l channel hx => absurd hx (hwaiting l channel)
  · rw [hnone] at hchannel
    cases hchannel
  · rw [hclosed, hannounced] at hchannel
    rw [hchannels]
    exact h.made channel hchannel

theorem inv_register (h : ReadinessInv s) (hp : s.calls p = .registering l) :
    ReadinessInv (s.set p (s.shared.register l).2 (.waiting l (s.shared.register l).1)) := by
  have hrunner : (s.calls p).ofRunner = true := by rw [hp]; rfl
  have hnone := h.no_channel hrunner (by rw [hp]; exact nofun)
  have hregister : s.shared.register l = (s.shared.channels,
      { s.shared with
        readinessMu := none
        readiness := s.shared.readiness.put l s.shared.channels
        channels := s.shared.channels + 1 }) := by
    unfold ReadinessState.register
    rw [hnone]
  rw [hregister]
  have hfresh : s.shared.channels ∉ s.shared.closed ∧ s.shared.channels ∉ s.shared.announced :=
    ⟨fun hc => Nat.lt_irrefl _ (h.made _ (.inl hc)), fun ha => Nat.lt_irrefl _ (h.made _ (.inr ha))⟩
  refine inv_runner h (fun l' => not_closes_of_runner hrunner) (h.others hrunner) rfl rfl
    (fun l' channel hchannel => ?_) (fun channel hchannel => Nat.lt_succ_of_lt (h.made channel hchannel))
    (fun _ => h.runner p hrunner) rfl nofun fun l' channel hx => ?_
  · have hchannel : (s.shared.readiness.put l s.shared.channels).find? l' = some channel := hchannel
    rw [Table.find?_put] at hchannel
    split_ifs at hchannel with hl
    · obtain rfl := Option.some.inj hchannel
      exact ⟨Nat.lt_succ_self _, hfresh.1, by rw [hl]⟩
    · rw [hnone] at hchannel
      cases hchannel
  · obtain ⟨rfl, rfl⟩ := ReadinessStage.waiting.inj hx
    refine ⟨Table.find?_put_self _ _ _, fun hwas => ?_⟩
    exact hwas.elim (h.registering p l hp) fun ha => absurd ha hfresh.2

theorem inv_expire {channel : ℕ} (h : ReadinessInv s) (hp : s.calls p = .waiting l channel)
    (hmu : s.shared.readinessMu = none) : ReadinessInv (s.set p (s.shared.expire l channel) .rollout) := by
  have hrunner : (s.calls p).ofRunner = true := by rw [hp]; rfl
  have hmine : ∀ l' channel', s.shared.readiness.find? l' = some channel' → l' = l ∧ channel' = channel := by
    intro l' channel' hchannel
    obtain ⟨q, hq⟩ := h.registered l' channel' hchannel
    obtain rfl := h.unique (p := q) (by rw [hq]; rfl) hrunner
    rw [hp] at hq
    obtain ⟨rfl, rfl⟩ := ReadinessStage.waiting.inj hq
    exact ⟨rfl, rfl⟩
  have hrollout := h.runner p hrunner
  unfold ReadinessState.expire
  split_ifs with hopen
  · refine inv_idle_runner h hrunner rfl rfl (fun l' => ?_) rfl rfl rfl (fun _ => hrollout) hmu nofun nofun
    show (s.shared.readiness.erase l).find? l' = none
    rw [Table.find?_erase]
    split_ifs with hl
    · rfl
    · by_contra hsome
      obtain ⟨channel', hchannel⟩ := Option.ne_none_iff_exists'.mp hsome
      exact hl (hmine l' channel' hchannel).1
  · refine inv_idle_runner h hrunner rfl rfl (fun l' => ?_) rfl rfl rfl (fun _ => hrollout) hmu nofun nofun
    by_contra hsome
    obtain ⟨channel', hchannel⟩ := Option.ne_none_iff_exists'.mp hsome
    obtain ⟨rfl, rfl⟩ := hmine l' channel' hchannel
    exact hopen hchannel

/-- **Every step of a call keeps the invariant.** -/
theorem inv_act (h : ReadinessInv s) (hact : readinessAct nodeID p s.shared (s.calls p) a = some (w', x')) :
    ReadinessInv (s.set p w' x') := by
  have hmove := readiness_move hact
  generalize hx : s.calls p = x at hmove
  cases hmove with
  | ignore d => exact inv_plain h .refl (by rw [hx]; rfl) rfl
  | observe d l htimely => exact inv_plain h .refl (by rw [hx]; rfl) rfl
  | lock d l f t => exact inv_plain h ⟨rfl, rfl, rfl, rfl, rfl, rfl, rfl, rfl⟩ (by rw [hx]; rfl) rfl
  | refuse d l f hnot => exact inv_plain h .refl (by rw [hx]; rfl) rfl
  | accept d l f r _ _ haccept => exact inv_accept h hx haccept
  | close status r f hmu => exact inv_close h hx hmu
  | reset status r f => exact inv_plain h sameReadiness_resetBudget (by rw [hx]; rfl) rfl
  | persist status r f => exact inv_plain h sameReadiness_persistStatus (by rw [hx]; rfl) rfl
  | unlock f => exact inv_plain h ⟨rfl, rfl, rfl, rfl, rfl, rfl, rfl, rfl⟩ (by rw [hx]; rfl) rfl
  | lockRollout hmu => exact inv_lockRollout h hx hmu
  | unlockRollout =>
    have hrunner : (s.calls p).ofRunner = true := by rw [hx]; rfl
    exact inv_idle_runner h hrunner rfl rfl (h.no_channel hrunner (by rw [hx]; exact nofun)) rfl rfl rfl nofun
      (h.mutex_free hrunner (by rw [hx]; exact nofun)) nofun nofun
  | wait l hmu =>
    have hrunner : (s.calls p).ofRunner = true := by rw [hx]; rfl
    exact inv_idle_runner h hrunner rfl rfl (h.no_channel hrunner (by rw [hx]; exact nofun)) rfl rfl rfl
      (fun _ => h.runner p hrunner) rfl nofun nofun
  | inspectReady l f hready =>
    have hrunner : (s.calls p).ofRunner = true := by rw [hx]; rfl
    exact inv_idle_runner h hrunner rfl rfl (h.no_channel hrunner (by rw [hx]; exact nofun)) rfl rfl rfl
      (fun _ => h.runner p hrunner) rfl nofun nofun
  | inspectDown l f hdown =>
    have hrunner : (s.calls p).ofRunner = true := by rw [hx]; rfl
    refine inv_idle_runner h hrunner rfl rfl (h.no_channel hrunner (by rw [hx]; exact nofun)) rfl rfl rfl
      (fun _ => h.runner p hrunner) ((h.mutex p).mpr (by rw [hx]; rfl)) (fun l' heq => ?_) nofun
    obtain rfl := ReadinessStage.registering.inj heq
    exact hdown
  | register l f => exact inv_register h hx
  | wake l channel hmem =>
    have hrunner : (s.calls p).ofRunner = true := by rw [hx]; rfl
    refine inv_idle_runner h hrunner rfl rfl (h.no_channel hrunner fun l' channel' heq => ?_) rfl rfl rfl
      (fun _ => h.runner p hrunner) (h.mutex_free hrunner (by rw [hx]; exact nofun)) nofun nofun
    rw [hx] at heq
    obtain ⟨-, rfl⟩ := ReadinessStage.waiting.inj heq
    exact hmem
  | expire l channel hmu => exact inv_expire h hx hmu

/-! ### The other steps -/

theorem inv_event (h : ReadinessInv s)
    (hentries : ∀ c e, w'.manager.workers.find? c = some e → Reflects (w'.accepted c e.launchID) e)
    (hincreasing : ∀ c l, (w'.accepted c l).Pairwise fun later earlier => earlier.timestamp < later.timestamp)
    (hready : ∀ l, w'.launchReady l = true → s.shared.launchReady l = true ∨
      (s.shared.readiness.find? l = none ∧ ∀ p, s.calls p ≠ .registering l))
    (hrest : w'.rolloutMu = s.shared.rolloutMu ∧ w'.readinessMu = s.shared.readinessMu ∧
      w'.readiness = s.shared.readiness ∧ w'.closed = s.shared.closed ∧ w'.channels = s.shared.channels ∧
        w'.announced = s.shared.announced) : ReadinessInv { s with shared := w' } := by
  obtain ⟨hroll, hmu, hmap, hclosed, hchannels, hannounced⟩ := hrest
  refine ⟨hentries, hincreasing, ?_, ?_, ?_, ?_, ?_, ?_, ?_⟩
  · show ∀ l channel, w'.readiness.find? l = some channel → channel < w'.channels ∧ channel ∉ w'.closed
    rw [hmap, hchannels, hclosed]
    exact h.opened
  · show ∀ channel, channel ∈ w'.closed ∨ channel ∈ w'.announced → channel < w'.channels
    rw [hchannels, hclosed, hannounced]
    exact h.made
  · show ∀ p, (s.calls p).ofRunner = true → w'.rolloutMu = some p
    rw [hroll]
    exact h.runner
  · show ∀ p, w'.readinessMu = some p ↔ (s.calls p).inspects = true
    rw [hmu]
    exact h.mutex
  · show ∀ l channel, w'.readiness.find? l = some channel → ∃ p, s.calls p = .waiting l channel
    rw [hmap]
    exact h.registered
  · intro p l hp hr
    rcases hready l hr with hold | ⟨-, hnot⟩
    · exact h.registering p l hp hold
    · exact absurd hp (hnot p)
  · intro p l channel hp
    show channel ∈ w'.closed ∨ w'.readiness.find? l = some channel ∧ (WasReady l channel w' → _)
    rw [hclosed, hmap]
    refine (h.waiting p l channel hp).imp_right fun hr => ⟨hr.1, fun hwas => ?_⟩
    rcases hwas with hnow | ha
    · rcases hready l hnow with hold | ⟨hnone, -⟩
      · exact hr.2 (.inl hold)
      · rw [hnone] at hr
        cases hr.1
    · exact hr.2 (.inr (hannounced ▸ ha))

theorem launchReady_insert {c : ConnectionID} {e : WorkerProcess} (hm : w'.manager = w.manager.insert c e)
    (h : w'.launchReady l = true) : w.launchReady l = true ∨ (e.launchID = l ∧ e.isReady = true) := by
  obtain ⟨c', e', he, hl, hready⟩ := launchReady_iff.mp h
  rw [hm, Manager.find?_insert] at he
  split_ifs at he with hc
  · obtain rfl := Option.some.inj he
    exact .inr ⟨hl, hready⟩
  · exact .inl (launchReady_iff.mpr ⟨c', e', he, hl, hready⟩)

theorem inv_env {e : ReadinessEvent} (h : ReadinessInv s) (henv : readinessEnv e s.shared = some w') :
    ReadinessInv { s with shared := w' } := by
  cases e with
  | put c e =>
    unfold readinessEnv at henv
    dsimp only at henv
    split_ifs at henv with hback hfresh
    · obtain rfl := Option.some.inj henv
      refine inv_event h (fun c' e' he' => ?_) h.increasing (fun l hr => ?_) ⟨rfl, rfl, rfl, rfl, rfl, rfl⟩
      · have he' : (s.shared.manager.insert c e).workers.find? c' = some e' := he'
        rw [Manager.find?_insert] at he'
        split_ifs at he' with hc
        · obtain rfl := Option.some.inj he'
          rw [hc]
          exact hback.1
        · exact h.reflects c' e' he'
      · refine (launchReady_insert rfl hr).imp_right ?_
        rintro ⟨rfl, hready⟩
        obtain ⟨hmu, hnone⟩ := hback.2 hready
        refine ⟨hnone, fun p hp => ?_⟩
        have hheld := (h.mutex p).mpr (by rw [hp]; rfl)
        rw [hmu] at hheld
        cases hheld
    · obtain rfl := Option.some.inj henv
      refine inv_event h (fun c' e' he' => ?_) (fun c' l' => ?_) (fun l hr => ?_) ⟨rfl, rfl, rfl, rfl, rfl, rfl⟩
      · have he' : (s.shared.manager.insert c e).workers.find? c' = some e' := he'
        rw [Manager.find?_insert] at he'
        show Reflects (if c' = c ∧ e'.launchID = e.launchID then _ else _) e'
        split_ifs at he' with hc
        · obtain rfl := Option.some.inj he'
          rw [if_pos ⟨hc, rfl⟩]
          exact hfresh
        · rw [if_neg fun hboth => hc hboth.1]
          exact h.reflects c' e' he'
      · show List.Pairwise _ (if c' = c ∧ l' = e.launchID then _ else _)
        split_ifs
        · exact .nil
        · exact h.increasing c' l'
      · refine .inl ((launchReady_insert (w := s.shared) rfl hr).resolve_right ?_)
        rintro ⟨-, hready⟩
        have hprocess : e.processReady = false := hfresh.1
        unfold WorkerProcess.isReady at hready
        rw [hprocess] at hready
        cases hready
  | adjust c e =>
    unfold readinessEnv at henv
    dsimp only at henv
    split at henv
    · cases henv
    · next e₀ he₀ =>
      split_ifs at henv with hsame
      obtain rfl := Option.some.inj henv
      obtain ⟨hl, h₁, h₂, h₃, h₄⟩ := hsame
      refine inv_event h (fun c' e' he' => ?_) h.increasing (fun l hr => .inl ?_) ⟨rfl, rfl, rfl, rfl, rfl, rfl⟩
      · have he' : (s.shared.manager.insert c e).workers.find? c' = some e' := he'
        rw [Manager.find?_insert] at he'
        split_ifs at he' with hc
        · obtain rfl := Option.some.inj he'
          obtain ⟨g₁, g₂, g₃, g₄⟩ := h.reflects c e₀ he₀
          show Reflects (s.shared.accepted c' e.launchID) e
          rw [hc, hl]
          exact ⟨h₁.trans g₁, h₂.trans g₂, h₃.trans g₃, h₄.trans g₄⟩
        · exact h.reflects c' e' he'
      · rcases launchReady_insert (w := s.shared) rfl hr with hold | ⟨rfl, hready⟩
        · exact hold
        · refine launchReady_iff.mpr ⟨c, e₀, he₀, hl.symm, ?_⟩
          unfold WorkerProcess.isReady at hready ⊢
          rw [← h₁, ← h₂, ← h₃]
          exact hready
  | drop c =>
    obtain rfl := Option.some.inj henv
    have hfind : ∀ c' e', (s.shared.manager.workers.erase c).find? c' = some e' →
        s.shared.manager.workers.find? c' = some e' := fun c' e' he' => by
      rw [Table.find?_erase] at he'
      split_ifs at he'
      exact he'
    refine inv_event h (fun c' e' he' => h.reflects c' e' (hfind c' e' he')) h.increasing (fun l hr => .inl ?_)
      ⟨rfl, rfl, rfl, rfl, rfl, rfl⟩
    obtain ⟨c', e', he', hl, hready⟩ := launchReady_iff.mp hr
    exact launchReady_iff.mpr ⟨c', e', hfind c' e' he', hl, hready⟩
  | database db =>
    obtain rfl := Option.some.inj henv
    exact inv_event h h.reflects h.increasing (fun l hr => .inl hr) ⟨rfl, rfl, rfl, rfl, rfl, rfl⟩

theorem inv_boot (db : Db) : ReadinessInv (Calls.start (ReadinessState.boot db) .idle) := by
  refine ⟨fun c e he => ?_, fun _ _ => .nil, fun l channel hchannel => ?_, fun channel hchannel => ?_, nofun, fun p => ?_,
    fun l channel hchannel => ?_, nofun, nofun⟩
  · cases he
  · cases hchannel
  · exact hchannel.elim (fun h => by cases h) fun h => by cases h
  · exact iff_of_false nofun nofun
  · cases hchannel

theorem readiness_inv (nodeID : NodeID) (db : Db) (as : List (CallAction ReadinessAction ReadinessEvent)) :
    Always (readinessMachine nodeID).step ReadinessInv (Calls.start (ReadinessState.boot db) .idle) as :=
  always_of_step (fun s a s' h hs => by
    cases a with
    | act p a =>
      obtain ⟨w, x, hact, rfl⟩ := Machine.step_act hs
      exact inv_act h hact
    | env e =>
      obtain ⟨w, henv, rfl⟩ := Machine.step_env hs
      exact inv_env h henv) (inv_boot db) as

/-! ### What a reader sees -/

theorem ReadinessInv.holds (h : ReadinessInv s) : ReadinessHolds nodeID s := by
  refine ⟨fun c e he => isReady_iff (h.reflects c e he) (h.increasing c e.launchID), fun p l channel hp hwas => ?_,
    fun p l channel hp hclosed hnone => ?_⟩
  · rcases h.waiting p l channel hp with hclosed | ⟨hreg, hcloser⟩
    · exact .inl hclosed
    · right
      obtain ⟨q, hq⟩ := hcloser hwas
      have hmu : s.shared.readinessMu = none := h.mutex_free (by rw [hp]; rfl) (by rw [hp]; exact nofun)
      cases hx : s.calls q with
      | closing status r =>
        rw [hx] at hq
        obtain rfl : status.launchID = l := hq
        refine ⟨q, s.set q (s.shared.closeReadiness status.launchID) (.resetting status r), ?_, ?_⟩
        · show (readinessAct nodeID q s.shared (s.calls q) (.next .ok)).map _ = _
          rw [hx]
          show (if s.shared.readinessMu = none then some _ else none).map _ = _
          rw [if_pos hmu]
          rfl
        · show channel ∈ (s.shared.closeReadiness status.launchID).closed
          unfold ReadinessState.closeReadiness
          rw [hreg]
          exact List.mem_cons_self
      | idle | observed | locked | resetting | persisting | unlocking | rollout | inspecting | registering | waiting =>
        rw [hx] at hq
        exact hq.elim
  · have hact : (readinessAct nodeID p s.shared (s.calls p) .wake).map _ = none := hnone
    rw [hp] at hact
    have hact : (if channel ∈ s.shared.closed then some (s.shared, ReadinessStage.rollout) else none).map _ = none := hact
    rw [if_pos hclosed] at hact
    cases hact

/-! ### What a step does -/

def KeepsRows (db db' : Db) : Prop :=
  ∀ c r, db.registry.find? c = some r → r.status.isRuntime = false ∨ r.desiredState ≠ .running →
    ∃ r', db'.registry.find? c = some r' ∧ r'.status = r.status ∧ r'.desiredState = r.desiredState

theorem keepsRows_refl (db : Db) : KeepsRows db db := fun _ r hr _ => ⟨r, hr, rfl, rfl⟩

theorem keepsRows_updateLaunch {c : ConnectionID} {companyID : CompanyID} {launchID : LaunchID}
    {extra : WorkerRecord → Prop} [DecidablePred extra] {set : WorkerRecord → WorkerRecord} {f : Fault} {db : Db}
    (hset : ∀ r, extra r → r.status.isRuntime = false ∨ r.desiredState ≠ .running →
      (set r).status = r.status ∧ (set r).desiredState = r.desiredState) :
    KeepsRows db (f.perform (fun db => ((updateLaunch c companyID launchID extra set db).map .ok id :
      Except Err Bool × Db)) db).2 := by
  rcases Fault.perform_snd f (fun db => ((updateLaunch c companyID launchID extra set db).map .ok id :
    Except Err Bool × Db)) db with hsame | hafter
  · rw [hsame]
    exact keepsRows_refl db
  · rw [hafter]
    intro c' r hr hlife
    show ∃ r', (updateLaunch c companyID launchID extra set db).2.registry.find? c' = some r' ∧ _
    rw [find?_updateLaunch, hr]
    by_cases hc : c' = c
    · rw [if_pos hc, Option.map_some]
      by_cases hguard : ofLaunch companyID launchID r ∧ extra r
      · rw [if_pos hguard]
        exact ⟨_, rfl, hset r hguard.2 hlife⟩
      · rw [if_neg hguard]
        exact ⟨r, rfl, rfl, rfl⟩
    · rw [if_neg hc]
      exact ⟨r, rfl, rfl, rfl⟩

theorem keepsRows_resetBudget {f : Fault} {status : WorkerRuntimeStatus} {clear : Bool} :
    KeepsRows w.db (w.resetBudget f status clear).db := by
  unfold ReadinessState.resetBudget
  split_ifs
  · exact keepsRows_updateLaunch fun r _ _ => ⟨rfl, rfl⟩
  · exact keepsRows_refl _

theorem keepsRows_persistStatus {f : Fault} {status : WorkerRuntimeStatus} {durable : Option WorkerStatus} :
    KeepsRows w.db (w.persistStatus nodeID f status durable).db := by
  unfold ReadinessState.persistStatus
  cases durable with
  | none => exact keepsRows_refl _
  | some st =>
    refine keepsRows_updateLaunch fun r hguard hlife => ?_
    obtain ⟨-, hdesired, hruntime, -⟩ := hguard
    rcases hlife with hstatus | hnot
    · rw [hruntime] at hstatus
      cases hstatus
    · exact absurd hdesired hnot

theorem signaledEntry_status {status : WorkerRuntimeStatus} {e : WorkerProcess}
    (h : Manager.acceptsRuntimeConnectionState e = false) :
    (signaledEntry status e).status = e.status ∧ (signaledEntry status e).desiredState = e.desiredState := by
  unfold signaledEntry Manager.applyRuntimeSignal
  cases status.signal <;> simp [h]

theorem signalStep (hact : readinessAct nodeID p s.shared (s.calls p) a = some (w', x')) :
    SignalStep s p a (s.set p w' x') := by
  have hmove := readiness_move hact
  generalize hx : s.calls p = x at hmove
  -- what holds of the moves outside of the section
  have hoff : ∀ {w' : ReadinessState} {x' : ReadinessStage}, (∀ d l, x ≠ .locked d l) →
      w'.accepted = s.shared.accepted → w'.manager = s.shared.manager →
      (∀ d, a = .record d → w' = s.shared ∧ (d.timely = false → x' = x)) → KeepsRows s.shared.db w'.db →
      (x = .unlocking → w'.db = s.shared.db ∧ w'.readiness = s.shared.readiness ∧ w'.closed = s.shared.closed) →
      SignalStep s p a (s.set p w' x') := fun hnot haccepted hmanager hrecord hrows hunlock =>
    ⟨fun d hd => ⟨(hrecord d hd).1, fun htimely => by rw [Calls.calls_set_self, hx]; exact (hrecord d hd).2 htimely⟩,
      fun d l hlocked => absurd (hx.symm.trans hlocked) (hnot d l), fun d l hlocked =>
      absurd (hx.symm.trans hlocked) (hnot d l), fun _ => ⟨haccepted, hmanager⟩, fun hu => hunlock (hx.symm.trans hu),
      hrows, fun c e he _ => ⟨e, (by rw [Calls.shared_set, hmanager]; exact he), rfl, rfl⟩⟩
  cases hmove with
  | ignore d => exact hoff nofun rfl rfl (fun _ _ => ⟨rfl, fun _ => rfl⟩) (keepsRows_refl _) nofun
  | observe d l htimely =>
    refine hoff nofun rfl rfl (fun d' hd => ⟨rfl, fun hlate => ?_⟩) (keepsRows_refl _) nofun
    obtain rfl := ReadinessAction.record.inj hd
    rw [htimely] at hlate
    cases hlate
  | lock d l f t => exact hoff nofun rfl rfl nofun (keepsRows_refl _) nofun
  | refuse d l f hnot =>
    refine ⟨nofun, fun d' l' hlocked hacc => ?_, fun d' l' hlocked _ => ⟨rfl, Calls.calls_set_self _ _ _ _⟩,
      fun h => absurd hx (h d l), fun hu => (by rw [hx] at hu; cases hu), keepsRows_refl _, fun c e he _ => ⟨e, he, rfl, rfl⟩⟩
    obtain ⟨rfl, rfl⟩ := ReadinessStage.locked.inj (hx.symm.trans hlocked)
    exact absurd hacc hnot
  | accept d l f r _ hacc haccept =>
    rcases accept_cases (d := d) (l := l) (s := s.shared) with ⟨hnot, -⟩ |
      ⟨-, e, r', w₁, he, hl, -, -, hsome, -, rfl⟩
    · exact absurd hacc hnot
    rw [hsome] at haccept
    obtain ⟨rfl, rfl⟩ := Prod.mk.inj (Option.some.inj haccept)
    refine ⟨nofun, fun d' l' hlocked _ => ?_, fun d' l' hlocked hnot => ?_, fun h => absurd hx (h d l),
      fun hu => (by rw [hx] at hu; cases hu), keepsRows_refl _, fun c e' he' hlife => ?_⟩
    · obtain ⟨rfl, rfl⟩ := ReadinessStage.locked.inj (hx.symm.trans hlocked)
      rfl
    · obtain ⟨rfl, rfl⟩ := ReadinessStage.locked.inj (hx.symm.trans hlocked)
      exact absurd hacc hnot
    · show ∃ e'', (s.shared.manager.insert d.status.connectionID (signaledEntry d.status e)).workers.find? c = some e'' ∧ _
      rw [Manager.find?_insert]
      split_ifs with hc
      · rw [hc, he] at he'
        obtain rfl := Option.some.inj he'
        exact ⟨_, rfl, signaledEntry_status hlife⟩
      · exact ⟨e', he', rfl, rfl⟩
  | close status r f hmu =>
    have hsame : (s.shared.closeReadiness status.launchID).accepted = s.shared.accepted ∧
        (s.shared.closeReadiness status.launchID).manager = s.shared.manager ∧
          (s.shared.closeReadiness status.launchID).db = s.shared.db := by
      unfold ReadinessState.closeReadiness
      split <;> exact ⟨rfl, rfl, rfl⟩
    exact hoff nofun hsame.1 hsame.2.1 nofun (by rw [hsame.2.2]; exact keepsRows_refl _) nofun
  | reset status r f =>
    exact hoff nofun sameReadiness_resetBudget.accepted sameReadiness_resetBudget.manager nofun keepsRows_resetBudget nofun
  | persist status r f =>
    exact hoff nofun sameReadiness_persistStatus.accepted sameReadiness_persistStatus.manager nofun
      keepsRows_persistStatus nofun
  | unlock f => exact hoff nofun rfl rfl nofun (keepsRows_refl _) fun _ => ⟨rfl, rfl, rfl⟩
  | register l f =>
    have hsame : (s.shared.register l).2.accepted = s.shared.accepted ∧
        (s.shared.register l).2.manager = s.shared.manager ∧ (s.shared.register l).2.db = s.shared.db := by
      unfold ReadinessState.register
      split <;> exact ⟨rfl, rfl, rfl⟩
    exact hoff nofun hsame.1 hsame.2.1 nofun (by rw [hsame.2.2]; exact keepsRows_refl _) nofun
  | expire l channel hmu =>
    have hsame : (s.shared.expire l channel).accepted = s.shared.accepted ∧
        (s.shared.expire l channel).manager = s.shared.manager ∧ (s.shared.expire l channel).db = s.shared.db := by
      unfold ReadinessState.expire
      split_ifs <;> exact ⟨rfl, rfl, rfl⟩
    exact hoff nofun hsame.1 hsame.2.1 nofun (by rw [hsame.2.2]; exact keepsRows_refl _) nofun
  | lockRollout | unlockRollout | wait | inspectReady | inspectDown | wake =>
    exact hoff nofun rfl rfl nofun (keepsRows_refl _) nofun

/-- **The readiness of a launch.**  In every state of every run a launch is ready exactly when its accepted signals say
so, and no waiter of a launch that is ready, or was made so while the channel was registered, is left asleep; and every
step accepts exactly the signals of the launch that are later than the last, changes nothing where it refuses one, and
takes no lifecycle status back. -/
theorem readiness_automaton (nodeID : NodeID) (db : Db) (as : List (CallAction ReadinessAction ReadinessEvent)) :
    Always (readinessMachine nodeID).step (ReadinessHolds nodeID) (Calls.start (ReadinessState.boot db) .idle) as ∧
      Steps (readinessMachine nodeID).step (fun s a s' => ∀ p b, a = .act p b → SignalStep s p b s')
        (Calls.start (ReadinessState.boot db) .idle) as := by
  refine ⟨(readiness_inv nodeID db as).mono fun s h => h.holds, ?_⟩
  refine steps_of_meets (I := fun _ => True) (C := fun _ _ => True) (fun s a s' _ _ hs => ⟨trivial, ?_⟩) trivial
    (meets_of_forall fun _ _ => trivial)
  rintro p b rfl
  obtain ⟨w, x, hact, rfl⟩ := Machine.step_act hs
  exact signalStep hact

end TeamInbox.Orchestrator
