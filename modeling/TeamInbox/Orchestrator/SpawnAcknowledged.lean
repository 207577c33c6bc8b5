import TeamInbox.Orchestrator.Footprint
import TeamInbox.Orchestrator.SpawnFailure

/-!
# TeamInbox.Orchestrator.SpawnAcknowledged — what an acknowledged spawn command promises

The executions of `handleSpawnCommand` on the node that carries the command out, while others leave the two desired
states of the connection alone.  One that succeeds leaves both running, unless the reservation has taken a worker that
is to stop for one that is running already.
-/

namespace TeamInbox.Orchestrator

open TeamInbox.Lib
open Manager (LaunchSpec)

/-- The desired states of the connection and the owner of its row stay. -/
structure KeepsIntent (n : NodeID) (c : ConnectionID) (w w' : World) : Prop where
  entry : (w'.entry n c).map WorkerProcess.desiredState = (w.entry n c).map WorkerProcess.desiredState
  row : (w'.row c).map WorkerRecord.desiredState = (w.row c).map WorkerRecord.desiredState
  owner : (w'.row c).map WorkerRecord.nodeID = (w.row c).map WorkerRecord.nodeID

/-- The connection is to run, in memory and in its row. -/
structure RunningIntent (n : NodeID) (c : ConnectionID) (w : World) : Prop where
  entry : (w.entry n c).map WorkerProcess.desiredState = some .running
  row : (w.row c).map WorkerRecord.desiredState = some .running

/-- The row of the connection, if there is one, is of this node or of none. -/
def OwnedHere (n : NodeID) (c : ConnectionID) (w : World) : Prop :=
  ∀ o ∈ (w.row c).map WorkerRecord.nodeID, o = none ∨ o = some n

/-- A peer with a free slot is found for a connection without a row. -/
def PlacedOnPeer (x : LifecycleStep) : Prop :=
  match x.op with
  | .selectSpawnNode => x.choice.fault = .ok ∧ x.choice.flag = true
  | _ => False

/-- The reservation meets a live entry of the company while the connection is to stop, or has no row. -/
def TakesStopping (n : NodeID) (x : LifecycleStep) : Prop :=
  match x.op with
  | .mem (.reserve _ spec _) => (x.before.node n).manager.shuttingDown = false ∧
      (∃ e, x.before.entry n spec.connectionID = some e ∧ e.companyID = spec.companyID ∧ e.status ≠ .stopped ∧
        e.status ≠ .error) ∧ ¬ RunningIntent n spec.connectionID x.before
  | _ => False

/-- An acknowledged command leaves a connection that is to run if its reservation has not met one that is to stop, and
only then. -/
def Acknowledged (n : NodeID) (c : ConnectionID) (tr : List LifecycleStep) (r : Except Err Unit) (w' : World) : Prop :=
  r = .ok () → (RunningIntent n c w' ↔ ∀ x ∈ tr, ¬ TakesStopping n x)

variable {cfg : Config} {t : Who Ctx} {n : NodeID} {c : ConnectionID} {w w' : World} {a : LaunchSpec}

theorem KeepsIntent.refl : KeepsIntent n c w w := ⟨rfl, rfl, rfl⟩

theorem KeepsIntent.running (h : KeepsIntent n c w w') : RunningIntent n c w' ↔ RunningIntent n c w := by
  constructor
  · exact fun hw => ⟨h.entry ▸ hw.entry, h.row ▸ hw.row⟩
  · exact fun hw => ⟨h.entry.trans hw.entry, h.row.trans hw.row⟩

theorem KeepsIntent.owned (h : KeepsIntent n c w w') (hw : OwnedHere n c w) : OwnedHere n c w' := by
  intro o ho
  rw [h.owner] at ho
  exact hw o ho

theorem running_of_eq (hentry : w'.entry n c = w.entry n c) (hrow : w'.row c = w.row c) (hw : RunningIntent n c w) :
    RunningIntent n c w' := ⟨hentry ▸ hw.entry, hrow ▸ hw.row⟩

theorem not_takesStopping {x : LifecycleStep} (h : x.op.kind ≠ .reserve) : ¬ TakesStopping n x := by
  obtain ⟨op, f, s, s'⟩ := x
  intro hx
  unfold TakesStopping at hx
  split at hx
  · next heq =>
    have heq : op = _ := heq
    subst heq
    exact h rfl
  · exact hx

theorem quiet_of_allOps {α : Type} {p : Go α} (h : p.AllOps fun op => op.kind ≠ .reserve) (s : World) :
    Post (World.exec cfg t) (KeepsIntent n c) p s fun tr _ _ => ∀ x ∈ tr, ¬ TakesStopping n x :=
  (Post.of_allOps h s).mono fun _ _ _ htr x hx => not_takesStopping (htr x hx)

theorem Acknowledged.append {tr tr' : List LifecycleStep} {r : Except Err Unit} (hq : ∀ x ∈ tr, ¬ TakesStopping n x)
    (h : Acknowledged n c tr' r w') : Acknowledged n c (tr ++ tr') r w' := by
  intro hr
  rw [h hr, List.forall_mem_append]
  exact (and_iff_right hq).symm

theorem Acknowledged.cons {x : LifecycleStep} {tr : List LifecycleStep} {r : Except Err Unit}
    (hq : x.op.kind ≠ .reserve) (h : Acknowledged n c tr r w') : Acknowledged n c (x :: tr) r w' := by
  have hx : ∀ y ∈ [x], ¬ TakesStopping n y := fun y hy => by
    rw [List.mem_singleton.mp hy]
    exact not_takesStopping hq
  exact h.append hx

theorem bracket_post (lock unlock : Op) {body : Go Unit} (hlock : lock.kind ≠ .reserve)
    (hunlock : unlock.kind ≠ .reserve)
    (hkeep : ∀ f s b s', World.exec cfg t unlock f s = some (b, s') → KeepsIntent n c s s')
    (h : ∀ s, Post (World.exec cfg t) (KeepsIntent n c) body s (Acknowledged n c)) (s : World) :
    Post (World.exec cfg t) (KeepsIntent n c)
      ((perform lock).bind fun _ => body.attempt.bind fun r => (perform unlock).bind fun _ => Proc.ofExcept r) s
      (Acknowledged n c) := by
  refine Post.act fun s₁ f b s₂ _ _ => ?_
  show Post _ _ (body.attempt.bind _) _ _
  refine Post.mono (Q := Acknowledged n c) ?_ fun tr r s' hr => hr.cons hlock
  refine Post.bind (fun _ => .refl) (Post.attempt ((h s₂).mono fun tr r s₃ hr => ?_))
  refine Post.act fun s₄ g b' s₅ hR hx => ?_
  have hkept := hkeep g s₄ b' s₅ hx
  cases r with
  | error e => exact Post.fail fun s' _ he => by cases he
  | ok u =>
    refine Post.done fun s' hR' _ => ?_
    rw [hR'.running, hkept.running, hR.running, hr rfl, List.forall_mem_append]
    refine (and_iff_left fun x hx => ?_).symm
    rw [List.mem_singleton.mp hx]
    exact not_takesStopping hunlock

/-! ### A launch on its way to success -/

theorem update_running {c' : ConnectionID} {l : LaunchID} {up : EntryUpdate} {f : Choice} {b : Unit}
    (hup : ∀ e, (up.apply e).desiredState = e.desiredState) (h : RunningIntent t.ctx.nodeID c w)
    (hx : World.exec cfg t (.mem (.update c' l up)) f w = some (b, w')) : RunningIntent t.ctx.nodeID c w' := by
  obtain ⟨happly, hdb, -⟩ := exec_mem hx
  refine ⟨?_, by rw [row_of_db hdb]; exact h.row⟩
  rw [entry_of_manager (congrArg Prod.snd happly), ← h.entry]
  show ((Manager.updateEntry c' l up.apply _).workers.find? c).map _ = _
  rw [Manager.find?_updateEntry]
  split_ifs with hc
  · rw [Option.map_map]
    unfold World.entry
    congr 1
    funext e
    dsimp only [Function.comp]
    split_ifs
    · exact hup e
    · rfl
  · rfl

theorem process_running {p : ProcessOp} {f : Choice} {b : Op.Resp (.process p)} (h : RunningIntent n c w)
    (hx : World.exec cfg t (.process p) f w = some (b, w')) : RunningIntent n c w' := by
  obtain ⟨hdb, hnode, -⟩ := exec_process hx
  refine running_of_eq ?_ (row_of_db hdb) h
  unfold World.entry
  rw [hnode]

theorem go_running {g : Goroutine} {f : Choice} {b : Unit} (h : RunningIntent n c w)
    (hx : World.exec cfg t (.go g) f w = some (b, w')) : RunningIntent n c w' := by
  simp only [World.exec, Option.some.injEq, Prod.mk.injEq] at hx
  obtain ⟨-, rfl⟩ := hx
  exact ⟨h.entry, h.row⟩

theorem recordStarted_running {pid : ℕ} {worker : WorkerProcess} {f : Choice} {b : Option WorkerProcess}
    (h : RunningIntent t.ctx.nodeID a.connectionID w)
    (hx : World.exec cfg t (.mem (.recordStarted a pid)) f w = some (b, w')) (hb : b = some worker) :
    worker.desiredState = .running ∧ RunningIntent t.ctx.nodeID a.connectionID w' := by
  obtain ⟨happly, hdb, -⟩ := exec_mem hx
  obtain ⟨e, he, hrunning⟩ := Option.map_eq_some_iff.mp h.entry
  have he : (w.node t.ctx.nodeID).manager.workers.find? a.connectionID = some e := he
  have hsection : (b, (w'.node t.ctx.nodeID).manager) =
      Manager.recordStarted a pid (w.node t.ctx.nodeID).manager := happly
  unfold Manager.recordStarted at hsection
  rw [he] at hsection
  dsimp only at hsection
  by_cases hl : e.launchID = a.launchID
  · rw [if_pos hl] at hsection
    obtain ⟨hworker, hmanager⟩ := Prod.mk.inj hsection
    obtain rfl := Option.some.inj (hb.symm.trans hworker)
    refine ⟨hrunning, ?_, by rw [row_of_db hdb]; exact h.row⟩
    rw [entry_of_manager hmanager, Manager.find?_insert, if_pos rfl, Option.map_some]
    exact congrArg some hrunning
  · rw [if_neg hl, hb] at hsection
    cases (Prod.mk.inj hsection).1

theorem activate_running {worker : WorkerProcess} {f : Choice} {b : Except Err Bool} (h : RunningIntent n c w)
    (hworker : worker.desiredState = .running)
    (hx : World.exec cfg t (.sql (.activate worker)) f w = some (b, w')) : RunningIntent n c w' := by
  obtain ⟨hperform, hnode, -⟩ := exec_sql hx
  refine ⟨?_, ?_⟩
  · unfold World.entry
    rw [hnode]
    exact h.entry
  · rcases row_perform (q := .activate worker) (c := c) hperform with hsame | ⟨-, hafter⟩
    · rw [hsame]
      exact h.row
    · have hafter : w'.row c = (activateWorkerLaunch t.ctx.nodeID worker w.db).2.registry.find? c := hafter
      obtain ⟨r, hr, hrunning⟩ := Option.map_eq_some_iff.mp h.row
      have hr : w.db.registry.find? c = some r := hr
      rw [hafter]
      unfold activateWorkerLaunch
      rw [find?_updateLaunch, hr]
      split_ifs with hc
      · rw [Option.map_some, Option.map_some]
        split_ifs
        · exact congrArg some hworker
        · exact congrArg some hrunning
      · exact congrArg some hrunning

/-- Where it ends well, the connection is to run. -/
def EndsRunning (n : NodeID) (c : ConnectionID) (_ : List LifecycleStep) (r : Except Err Unit) (w' : World) : Prop :=
  r = .ok () → RunningIntent n c w'

theorem endsRunning_fail {p : Go Unit} {e : Err} (s : World) :
    Post (World.exec cfg t) (KeepsIntent n c) (p.bind fun _ => .fail e) s (EndsRunning n c) :=
  (Post.bind_fail fun _ => .refl).mono fun _ _ _ hr he => absurd he (hr ())

theorem startHealthCheck_running (h : RunningIntent t.ctx.nodeID c w) :
    Post (World.exec cfg t) (KeepsIntent t.ctx.nodeID c) (startHealthCheck a) w fun _ _ w' =>
      RunningIntent t.ctx.nodeID c w' := by
  unfold startHealthCheck
  split_ifs
  · exact Post.done fun s' hR => hR.running.mpr h
  · refine Post.act fun s₁ f b s₂ hR hx => Post.act fun s₃ g b' s₄ hR' hx' => Post.done fun s' hR'' => ?_
    have h₂ := update_running (fun e => rfl) (hR.running.mpr h) hx
    exact hR''.running.mpr (go_running (hR'.running.mpr h₂) hx')

theorem activateStarted_running {pid : ℕ} {worker : WorkerProcess} (h : RunningIntent t.ctx.nodeID c w)
    (hworker : worker.desiredState = .running) :
    Post (World.exec cfg t) (KeepsIntent t.ctx.nodeID c) (activateStarted a pid worker) w
      (EndsRunning t.ctx.nodeID c) := by
  refine Post.act fun s₁ f b s₂ hR hx => ?_
  have h₂ := activate_running (hR.running.mpr h) hworker hx
  rcases b with e | (_ | _)
  · exact Post.act fun _ _ _ s₄ _ _ => endsRunning_fail s₄
  · exact Post.act fun _ _ _ s₄ _ _ => endsRunning_fail s₄
  · show Post _ _ ((startHealthCheck a).bind _) _ _
    refine Post.bind (fun _ => .refl) ((startHealthCheck_running h₂).mono fun tr r s₃ h₃ => ?_)
    cases r with
    | error e => exact fun he => by cases he
    | ok u => exact Post.act fun s₄ g b' s₅ hR' hx' => Post.done fun s' hR'' _ =>
        hR''.running.mpr (go_running (hR'.running.mpr h₃) hx')

theorem startClaimed_running {uid gid : ℕ} (h : RunningIntent t.ctx.nodeID a.connectionID w) :
    Post (World.exec cfg t) (KeepsIntent t.ctx.nodeID a.connectionID) (startClaimed a uid gid) w
      (EndsRunning t.ctx.nodeID a.connectionID) := by
  refine Post.act fun s₁ f b s₂ hR hx => ?_
  have h₂ := process_running (hR.running.mpr h) hx
  cases b with
  | none => exact endsRunning_fail s₂
  | some pid =>
    refine Post.act fun s₃ g b' s₄ hR' hx' => ?_
    cases b' with
    | none => exact Post.act fun _ _ _ s₆ _ _ => endsRunning_fail s₆
    | some worker =>
      obtain ⟨hworker, h₄⟩ := recordStarted_running (hR'.running.mpr h₂) hx' rfl
      exact activateStarted_running h₄ hworker

theorem claim_running {origin : LaunchOrigin} {expected : Option LaunchID} {uid gid : ℕ} {f : Choice}
    (hentry : (w.entry n a.connectionID).map WorkerProcess.desiredState = some .running)
    (ha : a.worker.desiredState = .running)
    (hx : World.exec cfg t (.sql (.claim origin a.worker expected)) f w = some (.ok (uid, gid), w')) :
    RunningIntent n a.connectionID w' := by
  obtain ⟨hperform, hnode, -⟩ := exec_sql hx
  refine ⟨?_, ?_⟩
  · unfold World.entry
    rw [hnode]
    exact hentry
  · obtain ⟨hok, hdb⟩ := Fault.perform_ok (congrArg Prod.fst hperform).symm
    have hdb : w'.db = (claimChecked cfg t.ctx.nodeID a.worker expected w.db).2 := (congrArg Prod.snd hperform).trans hdb
    have hok : (claimChecked cfg t.ctx.nodeID a.worker expected w.db).1 = .ok (uid, gid) := hok
    unfold claimChecked at hok hdb
    rcases claimWorkerLaunch_cases cfg t.ctx.nodeID a.worker expected w.db with ⟨e, seq, hstmt⟩ | ⟨-, hstmt⟩
    · rw [hstmt] at hok
      cases hok
    · rw [hstmt] at hdb
      have hreg : w'.db.registry = w.db.registry.put a.connectionID
          (claimedRecord t.ctx.nodeID a.worker w.db.identitySeq w.db.now) := by
        rw [hdb]
        dsimp only
        split_ifs <;> rfl
      unfold World.row
      rw [hreg, Table.find?_put_self]
      exact congrArg some ha

theorem claimReserved_running {origin : LaunchOrigin} {previous : Option WorkerProcess}
    (hentry : (w.entry t.ctx.nodeID a.connectionID).map WorkerProcess.desiredState = some .running)
    (ha : a.worker.desiredState = .running) :
    Post (World.exec cfg t) (KeepsIntent t.ctx.nodeID a.connectionID) (claimReserved origin a previous) w
      (EndsRunning t.ctx.nodeID a.connectionID) := by
  refine Post.act fun s₁ f b s₂ hR hx => ?_
  rcases b with e | ⟨uid, gid⟩
  · exact endsRunning_fail s₂
  · have h₂ := claim_running (hR.entry.trans hentry) ha hx
    refine Post.act fun s₃ g b' s₄ hR' hx' => ?_
    have h₄ := update_running (fun e => rfl) (hR'.running.mpr h₂) hx'
    show Post _ _ (if _ then _ else _) _ _
    split_ifs
    · exact startClaimed_running h₄
    · exact Post.bind (fun _ => .refl) (Post.of_forall fun tr r s' => by
        cases r with
        | error e => exact fun he => by cases he
        | ok u => exact endsRunning_fail s')

/-! ### The command -/

theorem reserveSlot_running {m : Manager} (h : (Manager.reserveSlot cfg a m).1 = .alreadyRunning) :
    (Manager.reserveSlot cfg a m).2 = m ∧ m.shuttingDown = false ∧ ∃ e, m.workers.find? a.connectionID = some e ∧
      e.companyID = a.companyID ∧ e.status ≠ .stopped ∧ e.status ≠ .error := by
  unfold Manager.reserveSlot at h ⊢
  by_cases hdown : m.shuttingDown = true
  · rw [if_pos hdown] at h
    cases h
  rw [if_neg hdown] at h ⊢
  cases he : m.workers.find? a.connectionID with
  | none =>
    rw [he] at h
    dsimp only at h
    split_ifs at h
  | some e =>
    rw [he] at h
    dsimp only at h ⊢
    split_ifs at h with hcompany hlive
    rw [if_neg hcompany, if_pos hlive]
    exact ⟨rfl, Bool.eq_false_iff.mpr hdown, e, rfl, not_not.mp hcompany, hlive.1, hlive.2⟩

theorem spawnArtifact_acknowledged {origin : LaunchOrigin} {planned : Option LaunchID} (ha : a.unlinkOnStart = false)
    (s : World) : Post (World.exec cfg t) (KeepsIntent t.ctx.nodeID a.connectionID)
      (spawnWorkerArtifactWithLaunch origin a planned) s (Acknowledged t.ctx.nodeID a.connectionID) := by
  refine Post.act fun s₁ f b s₂ hR hx => ?_
  obtain ⟨happly, hdb, -⟩ := exec_mem hx
  obtain ⟨result, l, token⟩ := b
  have hresult : result = (Manager.reserveSlot cfg (a.drawn (planned.getD f.fresh) f.token)
      (s₁.node t.ctx.nodeID).manager).1 := congrArg (fun r => r.1.1) happly
  have hmanager : (s₂.node t.ctx.nodeID).manager = (Manager.reserveSlot cfg (a.drawn (planned.getD f.fresh) f.token)
      (s₁.node t.ctx.nodeID).manager).2 := congrArg Prod.snd happly
  cases result with
  | shuttingDown | otherCompany | workerLimit | missingCredentials => exact Post.fail fun _ _ he => by cases he
  | alreadyRunning =>
    obtain ⟨hsame, hup, e, he, hcompany, hlive⟩ := reserveSlot_running hresult.symm
    refine Post.done fun s' hR' _ => ?_
    have hentry : s₂.entry t.ctx.nodeID a.connectionID = s₁.entry t.ctx.nodeID a.connectionID := by
      unfold World.entry
      rw [hmanager, hsame]
    have hrunning : RunningIntent t.ctx.nodeID a.connectionID s₂ ↔ RunningIntent t.ctx.nodeID a.connectionID s₁ :=
      ⟨running_of_eq hentry.symm (row_of_db hdb).symm, running_of_eq hentry (row_of_db hdb)⟩
    rw [hR'.running, hrunning]
    constructor
    · intro h x hx htakes
      rw [List.mem_singleton.mp hx] at htakes
      exact htakes.2.2 h
    · intro h
      by_contra hstop
      exact h _ (List.mem_singleton.mpr rfl) ⟨hup, ⟨e, he, hcompany, hlive⟩, hstop⟩
  | reserved previous =>
    obtain ⟨hprevious, -, hentry, -, -⟩ := reserve_reserved hx rfl
    have hstarting : (s₂.entry t.ctx.nodeID a.connectionID).map WorkerProcess.desiredState = some .running := by
      rw [hentry, Option.map_some]
      show some (if a.unlinkOnStart then DesiredState.unlinking else .running) = _
      rw [ha]
      rfl
    have hworker : (a.drawn l token).worker.desiredState = .running := by
      show (if a.unlinkOnStart then DesiredState.unlinking else .running) = _
      rw [ha]
      rfl
    have hnot : ¬ TakesStopping t.ctx.nodeID ⟨.mem (.reserve origin a planned), f, s₁, s₂⟩ := by
      rintro ⟨-, ⟨e, he, -, hstopped, herror⟩, -⟩
      rcases Manager.reserveSlot_cases cfg (a.drawn (planned.getD f.fresh) f.token) (s₁.node t.ctx.nodeID).manager with
        ⟨hno, -⟩ | ⟨hno, -⟩ | ⟨-, -, -, hreplaced, -⟩
      · exact hno previous hresult.symm
      · exact hno previous hresult.symm
      · exact (hreplaced e he).2.elim hstopped herror
    have hquiet : Post (World.exec cfg t) (KeepsIntent t.ctx.nodeID a.connectionID)
        (claimReserved origin (a.drawn l token) previous) s₂ fun tr _ _ => ∀ x ∈ tr, ¬ TakesStopping t.ctx.nodeID x :=
      quiet_of_allOps ((claimReserved_under (a.drawn l token) origin previous).mono fun op hop hreserve => by
        rw [hreserve] at hop
        exact absurd hop.2 (by decide)) s₂
    have hends : Post (World.exec cfg t) (KeepsIntent t.ctx.nodeID a.connectionID)
        (claimReserved origin (a.drawn l token) previous) s₂ (EndsRunning t.ctx.nodeID a.connectionID) :=
      claimReserved_running (a := a.drawn l token) hstarting hworker
    refine (hquiet.and hends).mono fun tr r s' hboth hr => ?_
    refine iff_of_true (hboth.2 hr) fun x hx => ?_
    rcases List.mem_cons.mp hx with rfl | hx
    · exact hnot
    · exact hboth.1 x hx

theorem keepsIntent_setNode {m : NodeID} {x : Node} (h : x.manager = (w.node m).manager) :
    KeepsIntent n c w (w.setNode m x) := by
  have hentry : (w.setNode m x).entry n c = w.entry n c := by
    show (if n = m then x else w.node n).manager.workers.find? c = _
    split_ifs with hn
    · rw [h, hn]
      rfl
    · rfl
  exact ⟨congrArg _ hentry, rfl, rfl⟩

theorem spawn_acknowledged {companyID : CompanyID} {tenantSchema : TenantSchema} (s : World) :
    Post (World.exec cfg t) (KeepsIntent t.ctx.nodeID c)
      (withRolloutRead (withLifecycle c (spawnWorker .explicit companyID c tenantSchema false 0))) s
      (Acknowledged t.ctx.nodeID c) := by
  refine bracket_post .rlockRollout .runlockRollout nofun nofun (fun f s b s' hx => ?_) (fun s => ?_) s
  · cases hx
    exact keepsIntent_setNode rfl
  · refine bracket_post (.lockLifecycle c) (.unlockLifecycle c) nofun nofun (fun f s b s' hx => ?_) (fun s => ?_) s
    · cases hx
      exact keepsIntent_setNode rfl
    · refine Post.act fun s₁ f b s₂ _ _ => ?_
      refine Post.mono (Q := Acknowledged t.ctx.nodeID c) ?_ fun tr r s' h => h.cons nofun
      cases b with
      | error e => exact Post.fail fun _ _ he => by cases he
      | ok artifact => exact spawnArtifact_acknowledged (a := launchSpec companyID c tenantSchema false 0 artifact) rfl s₂

theorem resolveOwnership_post {companyID : CompanyID} (h : OwnedHere t.ctx.nodeID c w) :
    Post (World.exec cfg t) (KeepsIntent t.ctx.nodeID c) (resolveOwnership t.ctx.nodeID companyID c) w
      fun tr r _ => (∀ x ∈ tr, x.op.kind ≠ .reserve) ∧ ∀ o, r = .ok o → o.2 = false := by
  refine Post.act fun s₁ f b s₂ hR hx => ?_
  have hquiet : ∀ x ∈ [(⟨.sql (.getWorker c), f, s₁, s₂⟩ : LifecycleStep)], x.op.kind ≠ .reserve := fun x hx => by
    rw [List.mem_singleton.mp hx]
    exact nofun
  rcases b with e | (_ | r)
  · exact Post.fail fun _ _ => ⟨hquiet, fun o ho => by cases ho⟩
  · refine Post.done fun _ _ => ⟨hquiet, fun o ho => ?_⟩
    obtain rfl := Except.ok.inj ho
    rfl
  · show Post _ _ (if _ then _ else _) _ _
    split_ifs
    · exact Post.fail fun _ _ => ⟨hquiet, fun o ho => by cases ho⟩
    · refine Post.done fun _ _ => ⟨hquiet, fun o ho => ?_⟩
      obtain rfl := Except.ok.inj ho
      obtain ⟨hperform, -, -⟩ := exec_sql hx
      have hrow : s₁.row c = some r := Except.ok.inj (Fault.perform_ok (congrArg Prod.fst hperform).symm).1
      have howned := hR.owned h r.nodeID (by rw [hrow]; rfl)
      rcases howned with hnone | hsome
      · simp [hnone]
      · simp [hsome]

theorem placedElsewhere_post {record : Option WorkerRecord} (s : World) :
    Post (World.exec cfg t) (KeepsIntent n c) (placedElsewhere record) s fun tr r _ =>
      (∀ x ∈ tr, x.op.kind ≠ .reserve) ∧ (r = .ok true → ∃ x ∈ tr, PlacedOnPeer x) := by
  unfold placedElsewhere
  split_ifs
  · exact Post.done fun _ _ => ⟨(fun x hx => by cases hx), fun h => by cases h⟩
  · refine Post.act fun s₁ f b s₂ _ _ => ?_
    cases b with
    | false => exact Post.done fun _ _ => ⟨fun x hx => by rw [List.mem_singleton.mp hx]; exact nofun, fun h => by cases h⟩
    | true =>
      refine Post.act fun s₃ g b' s₄ _ hx => ?_
      have hquiet : ∀ {o : LifecycleStep}, o.op.kind ≠ .reserve → ∀ x ∈ [o, ⟨.selectSpawnNode, g, s₃, s₄⟩],
          x.op.kind ≠ .reserve := fun ho x hx => by
        rcases List.mem_cons.mp hx with rfl | hx
        · exact ho
        · rw [List.mem_singleton.mp hx]
          exact nofun
      cases b' with
      | error e => exact Post.fail fun _ _ => ⟨hquiet nofun, fun h => by cases h⟩
      | ok found =>
        refine Post.done fun _ _ => ⟨hquiet nofun, fun h => ⟨_, List.mem_cons_of_mem _ List.mem_cons_self, ?_⟩⟩
        obtain rfl := Except.ok.inj h
        simp only [World.exec, Option.some.injEq, Prod.mk.injEq] at hx
        have hanswer := hx.1
        split_ifs at hanswer with hfault
        exact ⟨hfault, Except.ok.inj hanswer⟩

theorem bracket_quiet (lock unlock : Op) {body : Go Unit} (hlock : lock.kind ≠ .reserve)
    (hunlock : unlock.kind ≠ .reserve) (h : body.AllOps fun op => op.kind ≠ .reserve) :
    ((perform lock).bind fun _ => body.attempt.bind fun r => (perform unlock).bind fun _ => Proc.ofExcept r).AllOps
      fun op => op.kind ≠ .reserve :=
  ⟨hlock, fun _ => Proc.AllOps.bind (p := body.attempt) h.attempt fun r => ⟨hunlock, fun _ => .ofExcept r⟩⟩

theorem stopStale_quiet {companyID : CompanyID} : (stopStale companyID c).AllOps fun op => op.kind ≠ .reserve := by
  have hstop : (stopLocked companyID c).AllOps fun op => op.kind ≠ .reserve := by
    refine Proc.AllOps.bind (p := reconcileDurableLifecycleWorker companyID c none) ?_ fun _ => ?_
    · exact (reconcileDurableLifecycleWorker_under companyID c none).mono fun op hop h => by
        rw [h] at hop
        exact absurd hop.2 (by decide)
    · exact (stopWorkerInternal_under companyID c .term false).mono fun op hop h => by
        rw [h] at hop
        exact absurd hop.2 (by decide)
  refine ⟨nofun, fun b => ?_⟩
  cases b with
  | none => trivial
  | some e =>
    show Proc.AllOps _ (if _ then _ else _)
    split_ifs
    · refine Proc.AllOps.bind (p := (stopWorker companyID c).attempt) (Proc.AllOps.attempt ?_) fun _ => trivial
      exact bracket_quiet .rlockRollout .runlockRollout nofun nofun
        (bracket_quiet (.lockLifecycle c) (.unlockLifecycle c) nofun nofun hstop)
    · trivial

theorem post_append {tr₀ : List LifecycleStep} {p : Go Unit} {s : World}
    (hq : ∀ x ∈ tr₀, x.op.kind ≠ .reserve)
    (h : Post (World.exec cfg t) (KeepsIntent n c) p s fun tr r w' => r = .ok () → (∀ x ∈ tr, ¬ PlacedOnPeer x) →
      (RunningIntent n c w' ↔ ∀ x ∈ tr, ¬ TakesStopping n x)) :
    Post (World.exec cfg t) (KeepsIntent n c) p s fun tr r w' => r = .ok () → (∀ x ∈ tr₀ ++ tr, ¬ PlacedOnPeer x) →
      (RunningIntent n c w' ↔ ∀ x ∈ tr₀ ++ tr, ¬ TakesStopping n x) := by
  refine h.mono fun tr r w' h hr hplaced => ?_
  rw [h hr fun x hx => hplaced x (List.mem_append_right _ hx), List.forall_mem_append]
  exact (and_iff_right fun x hx => not_takesStopping (hq x hx)).symm

/-- **An acknowledged spawn means that the connection is to run**, in its row and in memory, if the reservation of the
command has not met a live worker that is to stop; and only then. -/
theorem acknowledged_spawn (cfg : Config) (t : Who Ctx) (companyID : CompanyID) (c : ConnectionID)
    (tenantSchema : TenantSchema) (w w' : World) (tr : List LifecycleStep) (howned : OwnedHere t.ctx.nodeID c w)
    (h : Exec (World.exec cfg t) (KeepsIntent t.ctx.nodeID c) (handleSpawnCommand t.ctx.nodeID companyID c tenantSchema)
      w tr (.ok ()) w') (hplaced : ∀ x ∈ tr, ¬ PlacedOnPeer x) :
    RunningIntent t.ctx.nodeID c w' ↔ ∀ x ∈ tr, ¬ TakesStopping t.ctx.nodeID x := by
  suffices hpost : Post (World.exec cfg t) (KeepsIntent t.ctx.nodeID c)
      (handleSpawnCommand t.ctx.nodeID companyID c tenantSchema) w fun tr r w' => r = .ok () →
        (∀ x ∈ tr, ¬ PlacedOnPeer x) → (RunningIntent t.ctx.nodeID c w' ↔ ∀ x ∈ tr, ¬ TakesStopping t.ctx.nodeID x) from
    post_iff.mp hpost tr _ w' h rfl hplaced
  clear h hplaced
  refine Post.bind (fun _ => .refl) ((resolveOwnership_post howned).mono fun tr r s hresolved => ?_)
  obtain ⟨hquiet, hhere⟩ := hresolved
  cases r with
  | error e => exact fun he => by cases he
  | ok owner =>
    refine post_append hquiet ?_
    show Post _ _ (if owner.2 = true then _ else _) _ _
    rw [if_neg (by rw [hhere owner rfl]; decide)]
    refine Post.bind (fun _ => .refl) ((placedElsewhere_post s).mono fun tr r s hplacement => ?_)
    obtain ⟨hquiet, hpeer⟩ := hplacement
    cases r with
    | error e => exact fun he => by cases he
    | ok found =>
      cases found with
      | true =>
        obtain ⟨x, hx, hplaced⟩ := hpeer rfl
        exact Post.of_forall fun _ _ _ _ hnot => absurd hplaced (hnot x (List.mem_append_left _ hx))
      | false =>
        refine post_append hquiet ?_
        show Post _ _ ((stopStale companyID c).bind _) _ _
        refine Post.bind (fun _ => .refl) ((Post.of_allOps stopStale_quiet s).mono fun tr r s hquiet => ?_)
        cases r with
        | error e => exact fun he => by cases he
        | ok _ => exact post_append hquiet ((spawn_acknowledged s).mono fun tr r w' h hr _ => h hr)

def liveEntry (status : WorkerStatus) : WorkerProcess :=
  { slotEntry 1 10 status with
    pid := 7
    cmd := true }

/-- Launch 10 of connection 1 has the process 7. -/
def liveWorld (status : WorkerStatus) : World :=
  { slotWorld (Table.empty.put 1 (claimedRecord 1 (liveEntry status) minimumWorkerIdentity 0))
      (Table.empty.put 1 (liveEntry status)) with
    processes := Table.empty.put 7 ⟨1, 1, 1, 10, ⟨1, 1⟩, minimumWorkerIdentity, minimumWorkerIdentity, none, false, false,
      none⟩ }

/-- An undisturbed spawn command for connection 1. -/
def commandOnce (operations : ℕ) (w : World) : Option (List LifecycleStep × Except Err Unit × World) :=
  (handleSpawnCommand 1 1 1 1).run (World.exec oneSlotConfig spawnThread) (List.replicate operations { fresh := 30 }) w

/-- The worker of a connection that is to run is connected. -/
theorem acknowledged_spawn_connected : ∃ tr w', commandOnce 8 (liveWorld .connected) = some (tr, .ok (), w') ∧
    RunningIntent 1 1 w' := by
  have hrun : commandOnce 8 (liveWorld .connected) = some (_, .ok (), _) := rfl
  refine ⟨_, _, rfl, (acknowledged_spawn oneSlotConfig spawnThread 1 1 1 (liveWorld .connected) _ _ ?_
    (exec_of_run (fun _ => .refl) hrun) ?_).mpr ?_⟩
  · intro o ho
    obtain rfl := Option.some.inj ho
    exact .inr rfl
  · exact List.forall_mem_cons.mpr ⟨id, List.forall_mem_cons.mpr ⟨id, List.forall_mem_cons.mpr ⟨id,
      List.forall_mem_cons.mpr ⟨id, List.forall_mem_cons.mpr ⟨id, List.forall_mem_cons.mpr ⟨id,
        List.forall_mem_cons.mpr ⟨id, List.forall_mem_cons.mpr ⟨id, fun _ hx => by cases hx⟩⟩⟩⟩⟩⟩⟩⟩
  · exact List.forall_mem_cons.mpr ⟨id, List.forall_mem_cons.mpr ⟨id, List.forall_mem_cons.mpr ⟨id,
      List.forall_mem_cons.mpr ⟨id, List.forall_mem_cons.mpr ⟨id, List.forall_mem_cons.mpr ⟨fun h => h.2.2 ⟨rfl, rfl⟩,
        List.forall_mem_cons.mpr ⟨id, List.forall_mem_cons.mpr ⟨id, fun _ hx => by cases hx⟩⟩⟩⟩⟩⟩⟩⟩

/-- The stale worker does not exit: it stays `stopping`, and the spawn takes it for one that runs. -/
theorem spawn_takes_stopping_worker : ((liveWorld .connecting).row 1).map WorkerRecord.nodeID = some (some 1) ∧
    ∃ tr w', Exec (World.exec oneSlotConfig spawnThread) (KeepsIntent 1 1) (handleSpawnCommand 1 1 1 1)
      (liveWorld .connecting) tr (.ok ()) w' ∧ (w'.entry 1 1).map WorkerProcess.desiredState = some .stopped ∧
        (w'.row 1).map WorkerRecord.desiredState = some .stopped := by
  have hrun : commandOnce 22 (liveWorld .connecting) = some (_, .ok (), _) := rfl
  exact ⟨rfl, _, _, exec_of_run (fun _ => .refl) hrun, rfl, rfl⟩

end TeamInbox.Orchestrator
