import TeamInbox.Lib.Exec
import TeamInbox.Orchestrator.Lifecycle
import Mathlib.Tactic.Cases

/-!
# TeamInbox.Orchestrator.SpawnFailure — what a failed spawn leaves

The executions of `spawnWorkerArtifactWithLaunch` while no other lifecycle operation of its connection is in flight.
When it fails, the entry of the connection names the launch of the row, or there is neither, unless a replaceable entry
was dropped before the cap or the credentials refused the launch, a claim went through whose answer was an error, or the
removal of the row failed.
-/

namespace TeamInbox.Orchestrator

open TeamInbox.Lib
open Manager (LaunchSpec)

abbrev LifecycleStep := Performed Op Choice World

def WorkerProcess.key (e : WorkerProcess) : ConnectionID × CompanyID × LaunchID × ℕ × ℕ :=
  (e.connectionID, e.companyID, e.launchID, e.workerUID, e.workerGID)

def WorkerRecord.key (r : WorkerRecord) : CompanyID × LaunchID × ℕ × Option NodeID :=
  (r.companyID, r.launchID, r.workerUID, r.nodeID)

/-- What may happen while no other lifecycle operation of the connection is in flight: its entry and its row keep launch
and identity, and a launch that is drawn stays so. -/
structure Undisturbed (n : NodeID) (c : ConnectionID) (w w' : World) : Prop where
  entry : (w'.entry n c).map WorkerProcess.key = (w.entry n c).map WorkerProcess.key
  row : (w'.row c).map WorkerRecord.key = (w.row c).map WorkerRecord.key
  drawn : ∀ l, w.owners.find? l ≠ none → w'.owners.find? l ≠ none

/-- The entry names the launch of the row, or there is neither. -/
def Agree (n : NodeID) (c : ConnectionID) (w : World) : Prop :=
  (w.entry n c).map WorkerProcess.launchID = (w.row c).map WorkerRecord.launchID

section Spec

variable (cfg : Config) (n : NodeID)

def Claims (x : LifecycleStep) : Prop :=
  match x.op with
  | .sql (.claim ..) => True
  | _ => False

def Claimed (x : LifecycleStep) : Prop :=
  match x.op with
  | .sql (.claim _ p expected) => x.choice.fault = .ok ∧ ∃ id, (claimWorkerLaunch cfg n p expected x.before.db).1 = .ok id
  | _ => False

def LostClaim (x : LifecycleStep) : Prop :=
  match x.op with
  | .sql (.claim _ p expected) =>
    x.choice.fault = .ok ∧ (claimWorkerLaunch cfg n p expected x.before.db).1 = .error .workerLaunchConflict
  | _ => False

/-- The reservation deletes an entry and then refuses the launch. -/
def DropsEntry (spec : LaunchSpec) (m : Manager) : Prop :=
  m.shuttingDown = false ∧ ∃ e, m.workers.find? spec.connectionID = some e ∧ e.companyID = spec.companyID ∧
    (e.status = .stopped ∨ e.status = .error) ∧
      ((0 < cfg.maxWorkers ∧ cfg.maxWorkers < m.workerCount) ∨ cfg.restrictedCredentials = false)

/-- No entry is dropped by a refused reservation, no claim goes through under an error, and no removal fails. -/
def Clean (x : LifecycleStep) : Prop :=
  match x.op with
  | .mem (.reserve _ spec _) => ¬ DropsEntry cfg spec (x.before.node n).manager
  | .sql (.claim _ p expected) => ∀ id, (claimWorkerLaunch cfg n p expected x.before.db).1 = .ok id →
      x.choice.fault ≠ .failAfter ∧ (x.choice.fault = .ok → validWorkerIdentity id.1 id.2)
  | .sql (.launch _ _ _ .remove) => x.choice.fault ≠ .fail
  | _ => True

/-- The connection can be spawned again, and an error before the claim has changed nothing. -/
structure Spawnable (c : ConnectionID) (tr : List LifecycleStep) (w' : World) : Prop where
  agree : Agree n c w'
  unchanged : (∀ x ∈ tr, ¬ Claims x) → ∀ x ∈ tr, ∀ c', x.after.entry n c' = x.before.entry n c'

end Spec

variable {cfg : Config} {t : Who Ctx} {n : NodeID} {c : ConnectionID} {w w' : World} {a : LaunchSpec}

/-! ### What others do -/

theorem Undisturbed.refl : Undisturbed n c w w := ⟨rfl, rfl, fun _ h => h⟩

theorem entry_launch_of_key : (w.entry n c).map WorkerProcess.launchID =
    ((w.entry n c).map WorkerProcess.key).map fun k => k.2.2.1 := by
  rw [Option.map_map]
  rfl

theorem row_launch_of_key : (w.row c).map WorkerRecord.launchID = ((w.row c).map WorkerRecord.key).map fun k => k.2.1 := by
  rw [Option.map_map]
  rfl

theorem Undisturbed.agree (h : Undisturbed n c w w') : Agree n c w' ↔ Agree n c w := by
  unfold Agree
  rw [entry_launch_of_key, entry_launch_of_key, row_launch_of_key, row_launch_of_key, h.entry, h.row]

/-- The launch has its entry, under the identity `u`, and its row, under the identity `uid`. -/
structure Launched (n : NodeID) (a : LaunchSpec) (u uid : ℕ) (w : World) : Prop where
  entry : (w.entry n a.connectionID).map WorkerProcess.key = some (a.connectionID, a.companyID, a.launchID, u, u)
  row : (w.row a.connectionID).map WorkerRecord.key = some (a.companyID, a.launchID, uid, some n)

theorem Launched.mono {u uid : ℕ} (h : Launched n a u uid w) (hR : Undisturbed n a.connectionID w w') :
    Launched n a u uid w' := ⟨hR.entry.trans h.entry, hR.row.trans h.row⟩

theorem Launched.agree {u uid : ℕ} (h : Launched n a u uid w) : Agree n a.connectionID w := by
  unfold Agree
  rw [entry_launch_of_key, row_launch_of_key, h.entry, h.row]
  rfl

/-! ### One operation -/

theorem exec_sql {q : Sql} {f : Choice} {b : Op.Resp (.sql q)} (h : World.exec cfg t (.sql q) f w = some (b, w')) :
    (b, w'.db) = f.fault.perform (q.stmt cfg t.ctx.nodeID f.fresh) w.db ∧ w'.node = w.node ∧ w'.owners = w.owners := by
  simp only [World.exec, Option.some.injEq, Prod.mk.injEq] at h
  obtain ⟨rfl, rfl⟩ := h
  exact ⟨rfl, rfl, rfl⟩

theorem exec_mem {sec : Section} {f : Choice} {b : Op.Resp (.mem sec)}
    (h : World.exec cfg t (.mem sec) f w = some (b, w')) :
    (b, (w'.node t.ctx.nodeID).manager) =
        sec.apply cfg f.fresh f.token f.flag (w.node t.ctx.nodeID).manager ∧ w'.db = w.db ∧
      w.reserveOwners f.fresh sec = some w'.owners := by
  simp only [World.exec] at h
  split at h
  · cases h
  · next owners howners =>
    simp only [Option.some.injEq, Prod.mk.injEq] at h
    obtain ⟨rfl, rfl⟩ := h
    refine ⟨?_, rfl, howners⟩
    simp [World.setManager, World.setNode]

theorem exec_process {p : ProcessOp} {f : Choice} {b : Op.Resp (.process p)}
    (h : World.exec cfg t (.process p) f w = some (b, w')) : w'.db = w.db ∧ w'.node = w.node ∧ w'.owners = w.owners := by
  have h : w.execProcess t.ctx.nodeID f p = some (b, w') := h
  cases p <;> simp only [World.execProcess] at h
  case start p =>
    split at h
    · cases h
      exact ⟨rfl, rfl, rfl⟩
    · split at h
      · cases h
      · cases h
        exact ⟨rfl, rfl, rfl⟩
  case wait pid =>
    split at h
    · cases h
      exact ⟨rfl, rfl, rfl⟩
    · cases h
  case isExpected pid companyID c artifact uid gid =>
    split at h <;> (cases h; exact ⟨rfl, rfl, rfl⟩)
  all_goals (cases h; exact ⟨rfl, rfl, rfl⟩)

theorem undisturbed_of_eq (hdb : w'.db = w.db) (hnode : w'.node = w.node) (howners : w'.owners = w.owners) :
    Undisturbed n c w w' := by
  refine ⟨?_, ?_, fun l h => howners ▸ h⟩
  · unfold World.entry
    rw [hnode]
  · unfold World.row
    rw [hdb]

theorem entry_of_manager {m : Manager} (h : (w'.node n).manager = m) : w'.entry n c = m.workers.find? c :=
  congrArg (fun m : Manager => m.workers.find? c) h

theorem row_of_registry (h : w'.db.registry = w.db.registry) : w'.row c = w.row c :=
  congrArg (fun t : Table ConnectionID WorkerRecord => t.find? c) h

theorem row_of_db (h : w'.db = w.db) : w'.row c = w.row c := row_of_registry (congrArg Db.registry h)

/-! ### Sections and statements of a launch -/

theorem row_perform {q : Sql} {f : Choice} {b : Op.Resp (.sql q)}
    (h : (b, w'.db) = f.fault.perform (q.stmt cfg n f.fresh) w.db) :
    w'.row c = w.row c ∨ f.fault ≠ .fail ∧ w'.row c = (q.stmt cfg n f.fresh w.db).2.registry.find? c := by
  have hdb : w'.db = (f.fault.perform (q.stmt cfg n f.fresh) w.db).2 := congrArg Prod.snd h
  unfold World.row
  rw [hdb]
  cases f.fault with
  | ok => exact .inr ⟨nofun, rfl⟩
  | fail => exact .inl rfl
  | failAfter => exact .inr ⟨nofun, rfl⟩

def AllClean (cfg : Config) (n : NodeID) (tr : List LifecycleStep) : Prop := ∀ x ∈ tr, Clean cfg n x

theorem allClean_cons {x : LifecycleStep} {tr : List LifecycleStep} :
    AllClean cfg n (x :: tr) ↔ Clean cfg n x ∧ AllClean cfg n tr := List.forall_mem_cons

/-- A launch whose row is gone, if its removal did not fail. -/
structure Removed (cfg : Config) (n : NodeID) (a : LaunchSpec) (u uid : ℕ) (tr : List LifecycleStep) (w' : World) :
    Prop where
  entry : (w'.entry n a.connectionID).map WorkerProcess.key = some (a.connectionID, a.companyID, a.launchID, u, u)
  row : (AllClean cfg n tr ∧ w'.row a.connectionID = none) ∨
    (¬ AllClean cfg n tr ∧ (w'.row a.connectionID).map WorkerRecord.key = some (a.companyID, a.launchID, uid, some n))

theorem row_of_launched {u uid : ℕ} (h : Launched n a u uid w) :
    ∃ r, w.row a.connectionID = some r ∧ ofLaunch a.companyID a.launchID r ∧ r.workerUID = uid ∧ r.nodeID = some n := by
  obtain ⟨r, hr, hkey⟩ := Option.map_eq_some_iff.mp h.row
  simp only [WorkerRecord.key, Prod.mk.injEq] at hkey
  obtain ⟨hcompany, hlaunch, huid, hnode⟩ := hkey
  exact ⟨r, hr, ⟨hcompany, hlaunch⟩, huid, hnode⟩

theorem entry_of_launched {u uid : ℕ} (h : Launched n a u uid w) :
    ∃ e, w.entry n a.connectionID = some e ∧ e.key = (a.connectionID, a.companyID, a.launchID, u, u) :=
  Option.map_eq_some_iff.mp h.entry

theorem removeLaunch_post {u uid : ℕ} (h : Launched t.ctx.nodeID a u uid w) :
    Post (World.exec cfg t) (Undisturbed t.ctx.nodeID a.connectionID) (removeLaunch a) w
      fun tr r w' => r = .ok () ∧ Removed cfg t.ctx.nodeID a u uid tr w' := by
  refine Post.act fun s₁ f b s₂ hR hx => Post.done fun s' hR' => ⟨rfl, ?_⟩
  have h₁ := h.mono hR
  obtain ⟨hperform, hnode, -⟩ := exec_sql hx
  have hentry : s₂.entry t.ctx.nodeID a.connectionID = s₁.entry t.ctx.nodeID a.connectionID := by
    unfold World.entry
    rw [hnode]
  refine ⟨hR'.entry.trans (hentry ▸ h₁.entry), ?_⟩
  have hclean : AllClean cfg t.ctx.nodeID [⟨.sql (.launch a.connectionID a.companyID a.launchID .remove), f, s₁, s₂⟩] ↔
      f.fault ≠ .fail := by
    rw [allClean_cons]
    exact and_iff_left fun _ hx => by cases hx
  obtain ⟨r, hr, hof, -, -⟩ := row_of_launched h₁
  have hdb : s₂.db = (f.fault.perform ((Sql.launch a.connectionID a.companyID a.launchID .remove).stmt cfg t.ctx.nodeID
    f.fresh) s₁.db).2 := congrArg Prod.snd hperform
  have hdeleted : (deleteLaunch a.connectionID a.companyID a.launchID s₁.db).2.registry.find? a.connectionID = none := by
    have hr : s₁.db.registry.find? a.connectionID = some r := hr
    rw [find?_deleteLaunch, if_pos rfl, hr]
    simp [hof]
  have hgone : s₂.db = (deleteLaunch a.connectionID a.companyID a.launchID s₁.db).2 →
      s'.row a.connectionID = none := by
    intro hdb
    have hrow : s₂.row a.connectionID = none := by
      unfold World.row
      rw [hdb]
      exact hdeleted
    have hkey := hR'.row
    rw [hrow] at hkey
    exact Option.map_eq_none_iff.mp hkey
  rw [hclean]
  cases hf : f.fault with
  | ok =>
    rw [hf] at hdb
    exact .inl ⟨by decide, hgone hdb⟩
  | failAfter =>
    rw [hf] at hdb
    exact .inl ⟨by decide, hgone hdb⟩
  | fail =>
    rw [hf] at hdb
    refine .inr ⟨by decide, hR'.row.trans ?_⟩
    rw [row_of_db hdb]
    exact h₁.row

theorem update_entry {u v uid : ℕ} {f : Choice} {b : Unit} {up : EntryUpdate} (h : Launched t.ctx.nodeID a u uid w)
    (hx : World.exec cfg t (.mem (.update a.connectionID a.launchID up)) f w = some (b, w'))
    (hkey : ∀ e : WorkerProcess, e.key = (a.connectionID, a.companyID, a.launchID, u, u) →
      (up.apply e).key = (a.connectionID, a.companyID, a.launchID, v, v)) :
    Launched t.ctx.nodeID a v uid w' := by
  obtain ⟨happly, hdb, -⟩ := exec_mem hx
  obtain ⟨e, he, hekey⟩ := entry_of_launched h
  have he : (w.node t.ctx.nodeID).manager.workers.find? a.connectionID = some e := he
  have hlaunch : e.launchID = a.launchID := congrArg (fun k => k.2.2.1) hekey
  refine ⟨?_, by rw [row_of_db hdb]; exact h.row⟩
  rw [entry_of_manager (congrArg Prod.snd happly)]
  show ((Manager.updateEntry a.connectionID a.launchID up.apply _).workers.find? a.connectionID).map _ = _
  rw [Manager.find?_updateEntry, if_pos rfl, he, Option.map_some, if_pos hlaunch, Option.map_some, hkey e hekey]

theorem delete_entry {u : ℕ} {f : Choice} {b : Unit}
    (h : (w.entry t.ctx.nodeID a.connectionID).map WorkerProcess.key =
      some (a.connectionID, a.companyID, a.launchID, u, u))
    (hx : World.exec cfg t (.mem (.delete a.connectionID a.launchID)) f w = some (b, w')) :
    w'.entry t.ctx.nodeID a.connectionID = none ∧ w'.row a.connectionID = w.row a.connectionID := by
  obtain ⟨happly, hdb, -⟩ := exec_mem hx
  obtain ⟨e, he, hekey⟩ := Option.map_eq_some_iff.mp h
  have he : (w.node t.ctx.nodeID).manager.workers.find? a.connectionID = some e := he
  have hlaunch : e.launchID = a.launchID := congrArg (fun k => k.2.2.1) hekey
  refine ⟨?_, row_of_db hdb⟩
  rw [entry_of_manager (congrArg Prod.snd happly)]
  show (Manager.deleteEntry a.connectionID a.launchID _).workers.find? a.connectionID = _
  rw [Manager.find?_deleteEntry, if_pos rfl, he]
  simp [hlaunch]

theorem statement_row {u uid : ℕ} {f : Choice} {q : Sql} {b : Op.Resp (.sql q)} (h : Launched t.ctx.nodeID a u uid w)
    (hx : World.exec cfg t (.sql q) f w = some (b, w'))
    (hq : ((q.stmt cfg t.ctx.nodeID f.fresh w.db).2.registry.find? a.connectionID).map WorkerRecord.key =
      (w.row a.connectionID).map WorkerRecord.key) : Launched t.ctx.nodeID a u uid w' := by
  obtain ⟨hperform, hnode, -⟩ := exec_sql hx
  have hentry : w'.entry t.ctx.nodeID a.connectionID = w.entry t.ctx.nodeID a.connectionID := by
    unfold World.entry
    rw [hnode]
  refine ⟨hentry ▸ h.entry, ?_⟩
  rcases row_perform hperform with hsame | ⟨-, hafter⟩
  · rw [hsame]
    exact h.row
  · rw [hafter, hq]
    exact h.row

theorem agree_none (hentry : w.entry n c = none) : Agree n c w ↔ w.row c = none := by
  unfold Agree
  rw [hentry, Option.map_none]
  exact eq_comm.trans Option.map_eq_none_iff

theorem updateStatus_key {c : ConnectionID} {companyID : CompanyID} {launchID : LaunchID} {st : WorkerStatus} {db : Db} :
    ((updateStatusLaunch c companyID launchID st db).2.registry.find? c).map WorkerRecord.key =
      (db.registry.find? c).map WorkerRecord.key := by
  unfold updateStatusLaunch
  rw [find?_updateLaunch, if_pos rfl, Option.map_map]
  congr 1
  funext r
  dsimp only [Function.comp]
  split_ifs <;> rfl

/-- **What a launch that fails after its claim leaves.** -/
theorem abandonLaunch_post {u uid : ℕ} (h : Launched t.ctx.nodeID a u uid w) :
    Post (World.exec cfg t) (Undisturbed t.ctx.nodeID a.connectionID) (abandonLaunch a) w
      fun tr r w' => r = .ok () ∧ (AllClean cfg t.ctx.nodeID tr ↔ Agree t.ctx.nodeID a.connectionID w') := by
  unfold abandonLaunch
  split_ifs
  · refine Post.act fun s₁ f b s₂ hR hx => Post.act fun s₃ g b' s₄ hR' hx' => Post.done fun s' hR'' => ⟨rfl, ?_⟩
    have hfailed : Launched t.ctx.nodeID a u uid s₂ := update_entry (h.mono hR) hx fun e he => he
    have hstatus : Launched t.ctx.nodeID a u uid s₄ := statement_row (hfailed.mono hR') hx' updateStatus_key
    refine iff_of_true ?_ (hstatus.mono hR'').agree
    rw [allClean_cons, allClean_cons]
    exact ⟨trivial, trivial, fun _ hx => by cases hx⟩
  · refine Post.bind (fun _ => .refl) ((removeLaunch_post h).mono fun tr r w₁ hremoved => ?_)
    obtain ⟨rfl, hentry, hrow⟩ := hremoved
    refine Post.act fun s₁ f b s₂ hR hx => Post.done fun s' hR' => ⟨rfl, ?_⟩
    obtain ⟨hgone, hsame⟩ := delete_entry (hR.entry.trans hentry) hx
    rw [hR'.agree, agree_none hgone, hsame]
    have hclean : AllClean cfg t.ctx.nodeID (tr ++ [⟨.mem (.delete a.connectionID a.launchID), f, s₁, s₂⟩]) ↔
        AllClean cfg t.ctx.nodeID tr := by
      unfold AllClean
      rw [List.forall_mem_append]
      exact and_iff_left fun x hx => by rw [List.mem_singleton.mp hx]; trivial
    have hrow₁ : s₁.row a.connectionID = none ↔ w₁.row a.connectionID = none := by
      rw [← Option.map_eq_none_iff (f := WorkerRecord.key), hR.row, Option.map_eq_none_iff]
    rw [hclean, hrow₁]
    rcases hrow with ⟨hclean, hnone⟩ | ⟨hfault, hkept⟩
    · exact iff_of_true hclean hnone
    · refine iff_of_false hfault fun hnone => ?_
      rw [hnone] at hkept
      cases hkept

/-! ### The launch after its claim -/

/-- An execution that fails agrees if no step of it is at fault, and only then. -/
def FailsClean (cfg : Config) (n : NodeID) (c : ConnectionID) (tr : List LifecycleStep) (r : Except Err Unit)
    (w' : World) : Prop := ∀ e, r = .error e → (AllClean cfg n tr ↔ Agree n c w')

theorem FailsClean.cons {x : LifecycleStep} {tr : List LifecycleStep} {r : Except Err Unit} (hx : Clean cfg n x)
    (h : FailsClean cfg n c tr r w') : FailsClean cfg n c (x :: tr) r w' := by
  intro e he
  rw [allClean_cons, and_iff_right hx]
  exact h e he

theorem cleanup_post {p : Go Unit} {e : Err} (h : Post (World.exec cfg t) (Undisturbed t.ctx.nodeID c) p w
    fun tr r w' => r = .ok () ∧ (AllClean cfg t.ctx.nodeID tr ↔ Agree t.ctx.nodeID c w')) :
    Post (World.exec cfg t) (Undisturbed t.ctx.nodeID c) (p.bind fun _ => .fail e) w
      (FailsClean cfg t.ctx.nodeID c) := by
  refine Post.bind (fun _ => .refl) (h.mono fun tr r w₁ hr => ?_)
  obtain ⟨rfl, hagree⟩ := hr
  refine Post.fail fun s' hR e' _ => ?_
  rw [List.append_nil, hR.agree]
  exact hagree

theorem activate_updates {worker : WorkerProcess} {uid : ℕ} (h : Launched t.ctx.nodeID a uid uid w)
    (hkey : worker.key = (a.connectionID, a.companyID, a.launchID, uid, uid)) :
    (activateWorkerLaunch t.ctx.nodeID worker w.db).1 = true ∧
      ((activateWorkerLaunch t.ctx.nodeID worker w.db).2.registry.find? a.connectionID).map WorkerRecord.key =
        (w.row a.connectionID).map WorkerRecord.key := by
  obtain ⟨r, hr, hof, huid, hnode⟩ := row_of_launched h
  have hr : w.db.registry.find? a.connectionID = some r := hr
  simp only [WorkerProcess.key, Prod.mk.injEq] at hkey
  obtain ⟨hc, hcompany, hlaunch, hworker, hgroup⟩ := hkey
  constructor
  · unfold activateWorkerLaunch updateLaunch
    refine Table.updateWhere_snd_iff.mpr ⟨r, ?_, ?_, ?_, ?_, hnode⟩
    · rw [hc]
      exact hr
    · rw [hcompany, hlaunch]
      exact hof
    · rw [hworker]
      exact huid
    · rw [hgroup]
      exact huid
  · unfold activateWorkerLaunch
    rw [hc, find?_updateLaunch, if_pos rfl, Option.map_map]
    congr 1
    funext r
    dsimp only [Function.comp]
    split_ifs <;> rfl

theorem stopUnregistered_launched {u uid pid : ℕ} {f : Choice} {b : Unit} (h : Launched t.ctx.nodeID a u uid w)
    (hx : World.exec cfg t (.process (.stopUnregistered pid)) f w = some (b, w')) :
    Launched t.ctx.nodeID a u uid w' := by
  obtain ⟨hdb, hnode, howners⟩ := exec_process hx
  exact h.mono (undisturbed_of_eq hdb hnode howners)

theorem activateStarted_post {pid uid : ℕ} {worker : WorkerProcess} (h : Launched t.ctx.nodeID a uid uid w)
    (hkey : worker.key = (a.connectionID, a.companyID, a.launchID, uid, uid)) :
    Post (World.exec cfg t) (Undisturbed t.ctx.nodeID a.connectionID) (activateStarted a pid worker) w
      (FailsClean cfg t.ctx.nodeID a.connectionID) := by
  refine Post.act fun s₁ f b s₂ hR hx => ?_
  have h₁ := h.mono hR
  obtain ⟨htrue, hrow⟩ := activate_updates h₁ hkey
  have h₂ : Launched t.ctx.nodeID a uid uid s₂ := statement_row h₁ hx hrow
  have hanswer : b = .ok true ∨ ∃ e, b = .error e := by
    have hb := congrArg Prod.fst (exec_sql hx).1
    cases hf : f.fault with
    | ok =>
      rw [hf] at hb
      exact .inl (hb.trans (congrArg Except.ok htrue))
    | fail | failAfter =>
      rw [hf] at hb
      exact .inr ⟨_, hb⟩
  rcases hanswer with rfl | ⟨e, rfl⟩
  · -- from here on nothing fails
    have hend : Post (World.exec cfg t) (Undisturbed t.ctx.nodeID a.connectionID)
        ((startHealthCheck a).bind fun _ => go (.monitor ⟨a.connectionID, a.companyID, a.launchID,
          some a.readinessToken, a.unlinkOnStart, pid⟩)) s₂ fun _ r _ => ∀ e, r ≠ .error e := by
      unfold startHealthCheck
      split_ifs
      · exact Post.act fun _ _ _ _ _ _ => Post.done fun _ _ e he => by cases he
      · exact Post.act fun _ _ _ _ _ _ => Post.act fun _ _ _ _ _ _ => Post.act fun _ _ _ _ _ _ =>
          Post.done fun _ _ e he => by cases he
    exact hend.mono fun tr r w' hr e he => absurd he (hr e)
  · refine Post.mono (Q := FailsClean cfg t.ctx.nodeID a.connectionID) ?_ fun tr r w' hr => hr.cons trivial
    refine Post.act fun s₃ g b' s₄ hR' hx' => ?_
    have h₄ := stopUnregistered_launched (h₂.mono hR') hx'
    exact (cleanup_post (abandonLaunch_post h₄)).mono fun tr r w' hr => hr.cons trivial

theorem recordStarted_launched {u uid pid : ℕ} {f : Choice} {b : Option WorkerProcess}
    (h : Launched t.ctx.nodeID a u uid w) (hx : World.exec cfg t (.mem (.recordStarted a pid)) f w = some (b, w')) :
    ∃ worker : WorkerProcess, b = some worker ∧ worker.key = (a.connectionID, a.companyID, a.launchID, u, u) ∧
      Launched t.ctx.nodeID a u uid w' := by
  obtain ⟨happly, hdb, -⟩ := exec_mem hx
  obtain ⟨e, he, hekey⟩ := entry_of_launched h
  have he : (w.node t.ctx.nodeID).manager.workers.find? a.connectionID = some e := he
  have hlaunch : e.launchID = a.launchID := congrArg (fun k => k.2.2.1) hekey
  let started : WorkerProcess :=
    { e with
      pid := pid
      status := .connecting }
  have hstarted : Manager.recordStarted a pid (w.node t.ctx.nodeID).manager =
      (some started, (w.node t.ctx.nodeID).manager.insert a.connectionID started) := by
    unfold Manager.recordStarted
    rw [he]
    exact if_pos hlaunch
  obtain ⟨hb, hmanager⟩ := Prod.mk.inj (happly.trans hstarted)
  refine ⟨started, hb, hekey, ?_, by rw [row_of_db hdb]; exact h.row⟩
  rw [entry_of_manager hmanager, Manager.find?_insert, if_pos rfl, Option.map_some]
  exact congrArg some hekey

theorem startClaimed_post {uid : ℕ} (h : Launched t.ctx.nodeID a uid uid w) :
    Post (World.exec cfg t) (Undisturbed t.ctx.nodeID a.connectionID) (startClaimed a uid uid) w
      (FailsClean cfg t.ctx.nodeID a.connectionID) := by
  refine Post.act fun s₁ f b s₂ hR hx => ?_
  obtain ⟨hdb, hnode, howners⟩ := exec_process hx
  have h₂ : Launched t.ctx.nodeID a uid uid s₂ := (h.mono hR).mono (undisturbed_of_eq hdb hnode howners)
  cases b with
  | none => exact (cleanup_post (abandonLaunch_post h₂)).mono fun tr r w' hr => hr.cons trivial
  | some pid =>
    refine Post.mono (Q := FailsClean cfg t.ctx.nodeID a.connectionID) ?_ fun tr r w' hr => hr.cons trivial
    refine Post.act fun s₃ g b' s₄ hR' hx' => ?_
    obtain ⟨worker, rfl, hkey, h₄⟩ := recordStarted_launched (h₂.mono hR') hx'
    exact (activateStarted_post h₄ hkey).mono fun tr r w' hr => hr.cons trivial

/-! ### The claim -/

inductive ClaimEnd (cfg : Config) (n : NodeID) (a : LaunchSpec) (x : LifecycleStep) : Except Err (ℕ × ℕ) → Prop
  | refused {e : Err} (hclean : Clean cfg n x) (hclaimed : ¬ Claimed cfg n x)
      (hlost : e = .workerLaunchConflict → LostClaim cfg n x)
      (hrow : x.after.row a.connectionID = x.before.row a.connectionID) : ClaimEnd cfg n a x (.error e)
  /-- The claim went through, and its answer is an error. -/
  | denied {e : Err} (hfault : ¬ Clean cfg n x) (he : e ≠ .workerLaunchConflict)
      (hrow : (x.after.row a.connectionID).map WorkerRecord.launchID = some a.launchID) : ClaimEnd cfg n a x (.error e)
  | claimed {uid : ℕ} (hclean : Clean cfg n x) (hclaimed : Claimed cfg n x) (hvalid : validWorkerIdentity uid uid)
      (hrow : (x.after.row a.connectionID).map WorkerRecord.key = some (a.companyID, a.launchID, uid, some n)) :
      ClaimEnd cfg n a x (.ok (uid, uid))

theorem claim_refused {x : LifecycleStep} {e : Err} {f : Choice} {db : Db} (hf : f.fault = .fail)
    {origin : LaunchOrigin} {expected : Option LaunchID} (hx : x = ⟨.sql (.claim origin a.worker expected), f, w, w'⟩)
    (he : e ≠ .workerLaunchConflict) (hdb : w'.db = db) (hsame : db = w.db) : ClaimEnd cfg n a x (.error e) := by
  subst hx
  refine .refused (fun id _ => ?_) (fun hclaimed => ?_) (fun h => absurd h he) (row_of_db (hdb.trans hsame))
  · exact ⟨by rw [hf]; decide, fun h => by rw [hf] at h; cases h⟩
  · have h := hclaimed.1
    rw [hf] at h
    cases h

theorem claim_end {origin : LaunchOrigin} {expected : Option LaunchID} {f : Choice} {b : Except Err (ℕ × ℕ)}
    (hx : World.exec cfg t (.sql (.claim origin a.worker expected)) f w = some (b, w')) :
    ClaimEnd cfg t.ctx.nodeID a ⟨.sql (.claim origin a.worker expected), f, w, w'⟩ b := by
  have hperform : (b, w'.db) = f.fault.perform (claimChecked cfg t.ctx.nodeID a.worker expected) w.db := (exec_sql hx).1
  rcases claimWorkerLaunch_cases cfg t.ctx.nodeID a.worker expected w.db with ⟨e, seq, hstmt⟩ | ⟨-, hstmt⟩
  · -- the statement itself refuses
    have hchecked : claimChecked cfg t.ctx.nodeID a.worker expected w.db =
        (.error e, { w.db with identitySeq := w.db.identitySeq + seq }) := by
      unfold claimChecked
      rw [hstmt]
    have hclean : Clean cfg t.ctx.nodeID ⟨.sql (.claim origin a.worker expected), f, w, w'⟩ := by
      intro id hid
      rw [hstmt] at hid
      cases hid
    have hclaimed : ¬ Claimed cfg t.ctx.nodeID ⟨.sql (.claim origin a.worker expected), f, w, w'⟩ := by
      rintro ⟨-, id, hid⟩
      rw [hstmt] at hid
      cases hid
    cases hf : f.fault with
    | ok =>
      rw [hf, Fault.perform, hchecked] at hperform
      obtain ⟨rfl, hdb⟩ := Prod.mk.inj hperform
      refine .refused hclean hclaimed (fun he => ⟨hf, ?_⟩) (row_of_registry (by rw [hdb]))
      rw [hstmt, he]
    | fail =>
      rw [hf, Fault.perform] at hperform
      obtain ⟨rfl, hdb⟩ := Prod.mk.inj hperform
      exact .refused hclean hclaimed nofun (row_of_db hdb)
    | failAfter =>
      rw [hf, Fault.perform, hchecked] at hperform
      obtain ⟨rfl, hdb⟩ := Prod.mk.inj hperform
      exact .refused hclean hclaimed nofun (row_of_registry (by rw [hdb]))
  · -- the statement writes the row
    have hok : (claimWorkerLaunch cfg t.ctx.nodeID a.worker expected w.db).1 =
        .ok (w.db.identitySeq, w.db.identitySeq) := congrArg Prod.fst hstmt
    have hkey : w'.db.registry = w.db.registry.put a.connectionID
          (claimedRecord t.ctx.nodeID a.worker w.db.identitySeq w.db.now) →
        (w'.row a.connectionID).map WorkerRecord.key =
          some (a.companyID, a.launchID, w.db.identitySeq, some t.ctx.nodeID) := by
      intro hreg
      unfold World.row
      rw [hreg, Table.find?_put_self]
      rfl
    have hlaunch : w'.db.registry = w.db.registry.put a.connectionID
          (claimedRecord t.ctx.nodeID a.worker w.db.identitySeq w.db.now) →
        (w'.row a.connectionID).map WorkerRecord.launchID = some a.launchID := by
      intro hreg
      rw [row_launch_of_key, hkey hreg]
      rfl
    by_cases hvalid : validWorkerIdentity w.db.identitySeq w.db.identitySeq
    · have hchecked : claimChecked cfg t.ctx.nodeID a.worker expected w.db =
          claimWorkerLaunch cfg t.ctx.nodeID a.worker expected w.db := by
        unfold claimChecked
        rw [hstmt]
        exact if_pos hvalid
      rw [hstmt] at hchecked
      cases hf : f.fault with
      | ok =>
        rw [hf, Fault.perform, hchecked] at hperform
        obtain ⟨rfl, hdb⟩ := Prod.mk.inj hperform
        refine .claimed (fun id hid => ?_) ⟨hf, _, hok⟩ hvalid (hkey (congrArg Db.registry hdb))
        rw [hok] at hid
        obtain rfl := Except.ok.inj hid
        exact ⟨by rw [hf]; decide, fun _ => hvalid⟩
      | fail =>
        rw [hf, Fault.perform] at hperform
        obtain ⟨rfl, hdb⟩ := Prod.mk.inj hperform
        exact claim_refused hf rfl nofun hdb rfl
      | failAfter =>
        rw [hf, Fault.perform, hchecked] at hperform
        obtain ⟨rfl, hdb⟩ := Prod.mk.inj hperform
        exact .denied (fun hclean => (hclean _ hok).1 hf) nofun (hlaunch (congrArg Db.registry hdb))
    · obtain ⟨db, hchecked, hreg⟩ : ∃ db, claimChecked cfg t.ctx.nodeID a.worker expected w.db =
          (.error (.failed "unsafe durable worker identity"), db) ∧ db.registry = w.db.registry.put a.connectionID
            (claimedRecord t.ctx.nodeID a.worker w.db.identitySeq w.db.now) := by
        unfold claimChecked
        rw [hstmt]
        exact ⟨_, if_neg hvalid, rfl⟩
      cases hf : f.fault with
      | ok =>
        rw [hf, Fault.perform, hchecked] at hperform
        obtain ⟨rfl, hdb⟩ := Prod.mk.inj hperform
        refine .denied (fun hclean => hvalid ((hclean _ hok).2 hf)) nofun (hlaunch ?_)
        rw [hdb, hreg]
      | fail =>
        rw [hf, Fault.perform] at hperform
        obtain ⟨rfl, hdb⟩ := Prod.mk.inj hperform
        exact claim_refused hf rfl nofun hdb rfl
      | failAfter =>
        rw [hf, Fault.perform, hchecked] at hperform
        obtain ⟨rfl, hdb⟩ := Prod.mk.inj hperform
        refine .denied (fun hclean => (hclean _ hok).1 hf) nofun (hlaunch ?_)
        rw [hdb, hreg]

/-! ### A claim that fails -/

theorem Undisturbed.rowLaunch (h : Undisturbed n c w w') :
    (w'.row c).map WorkerRecord.launchID = (w.row c).map WorkerRecord.launchID := by
  rw [row_launch_of_key, row_launch_of_key, h.row]

theorem Undisturbed.entryLaunch (h : Undisturbed n c w w') :
    (w'.entry n c).map WorkerProcess.launchID = (w.entry n c).map WorkerProcess.launchID := by
  rw [entry_launch_of_key, entry_launch_of_key, h.entry]

theorem Undisturbed.entry_none (h : Undisturbed n c w w') (hnone : w.entry n c = none) : w'.entry n c = none := by
  have hkey := h.entry
  rw [hnone] at hkey
  exact Option.map_eq_none_iff.mp hkey

/-- The previous entry is back, and the row is as it was. -/
structure Restored (cfg : Config) (n : NodeID) (c : ConnectionID) (previous : Option WorkerProcess) (w : World)
    (tr : List LifecycleStep) (w' : World) : Prop where
  entry : (w'.entry n c).map WorkerProcess.launchID = previous.map WorkerProcess.launchID
  row : (w'.row c).map WorkerRecord.launchID = (w.row c).map WorkerRecord.launchID
  quiet : ∀ x ∈ tr, Clean cfg n x ∧ ¬ Claimed cfg n x

theorem restorePrevious_post {previous : Option WorkerProcess}
    (h : w.entry t.ctx.nodeID a.connectionID = none) :
    Post (World.exec cfg t) (Undisturbed t.ctx.nodeID a.connectionID) (restorePrevious a previous) w
      fun tr r w' => r = .ok () ∧ Restored cfg t.ctx.nodeID a.connectionID previous w tr w' := by
  cases previous with
  | none =>
    refine Post.done fun s' hR => ⟨rfl, ?_, hR.rowLaunch, fun x hx => by cases hx⟩
    rw [hR.entry_none h, Option.map_none]
  | some e =>
    refine Post.act fun s₁ f b s₂ hR hx => Post.done fun s' hR' => ⟨rfl, ?_, ?_, fun x hx => ?_⟩
    · obtain ⟨happly, -, -⟩ := exec_mem hx
      have hfree : (s₁.node t.ctx.nodeID).manager.workers.find? a.connectionID = none := hR.entry_none h
      rw [hR'.entryLaunch, entry_of_manager (congrArg Prod.snd happly)]
      show ((Manager.insertIfAbsent a.connectionID e _).2.workers.find? a.connectionID).map _ = _
      unfold Manager.insertIfAbsent
      rw [hfree]
      show ((Manager.insert a.connectionID e _).workers.find? a.connectionID).map _ = _
      rw [Manager.find?_insert, if_pos rfl]
    · obtain ⟨-, hdb, -⟩ := exec_mem hx
      rw [hR'.rowLaunch, row_of_db hdb, hR.rowLaunch]
    · obtain rfl := List.mem_singleton.mp hx
      exact ⟨trivial, id⟩

theorem abandonReservation_post {previous : Option WorkerProcess} {e : Err} {u : ℕ}
    (h : (w.entry t.ctx.nodeID a.connectionID).map WorkerProcess.key =
      some (a.connectionID, a.companyID, a.launchID, u, u)) (he : e ≠ .workerLaunchConflict) :
    Post (World.exec cfg t) (Undisturbed t.ctx.nodeID a.connectionID) (abandonReservation a previous e) w
      fun tr r w' => r = .ok () ∧ Restored cfg t.ctx.nodeID a.connectionID previous w tr w' := by
  refine Post.act fun s₁ f b s₂ hR hx => ?_
  obtain ⟨hgone, hsame⟩ := delete_entry (hR.entry.trans h) hx
  show Post _ _ (if e = .workerLaunchConflict then pure () else restorePrevious a previous) _ _
  rw [if_neg he]
  refine (restorePrevious_post hgone).mono fun tr r w' hrestored => ?_
  obtain ⟨rfl, hentry, hrow, hquiet⟩ := hrestored
  refine ⟨rfl, hentry, ?_, fun x hx => ?_⟩
  · rw [hrow, hsame, hR.rowLaunch]
  · rcases List.mem_cons.mp hx with rfl | hx
    · exact ⟨trivial, id⟩
    · exact hquiet x hx

/-- The condition under which a failed spawn agrees; `before` says that entry and row agreed before. -/
def Tidied (cfg : Config) (n : NodeID) (before : Prop) (tr : List LifecycleStep) : Prop :=
  (before ∨ ∃ x ∈ tr, Claimed cfg n x) ∧ AllClean cfg n tr

/-- A failed spawn that has lost no claim agrees under the condition, and only then. -/
def SpawnOutcome (cfg : Config) (n : NodeID) (c : ConnectionID) (before : Prop) (tr : List LifecycleStep)
    (r : Except Err Unit) (w' : World) : Prop :=
  ∀ e, r = .error e → (∀ x ∈ tr, ¬ LostClaim cfg n x) → (Tidied cfg n before tr ↔ Agree n c w')

theorem SpawnOutcome.cons {before : Prop} {x : LifecycleStep} {tr : List LifecycleStep} {r : Except Err Unit}
    (hx : Clean cfg n x) (hclaimed : ¬ Claimed cfg n x) (h : SpawnOutcome cfg n c before tr r w') :
    SpawnOutcome cfg n c before (x :: tr) r w' := by
  intro e he hlost
  rw [← h e he fun y hy => hlost y (List.mem_cons_of_mem x hy)]
  unfold Tidied
  rw [allClean_cons, and_iff_right hx]
  have hclaims : (∃ y ∈ x :: tr, Claimed cfg n y) ↔ ∃ y ∈ tr, Claimed cfg n y := by
    constructor
    · rintro ⟨y, hy, hclaims⟩
      rcases List.mem_cons.mp hy with rfl | hy
      · exact absurd hclaims hclaimed
      · exact ⟨y, hy, hclaims⟩
    · rintro ⟨y, hy, hclaims⟩
      exact ⟨y, List.mem_cons_of_mem x hy, hclaims⟩
  rw [hclaims]

theorem claimReserved_post {origin : LaunchOrigin} {previous : Option WorkerProcess}
    (h : (w.entry t.ctx.nodeID a.connectionID).map WorkerProcess.key =
      some (a.connectionID, a.companyID, a.launchID, 0, 0))
    (hnew : previous.map WorkerProcess.launchID ≠ some a.launchID) :
    Post (World.exec cfg t) (Undisturbed t.ctx.nodeID a.connectionID) (claimReserved origin a previous) w
      (SpawnOutcome cfg t.ctx.nodeID a.connectionID
        (previous.map WorkerProcess.launchID = (w.row a.connectionID).map WorkerRecord.launchID)) := by
  refine Post.act fun s₁ f b s₂ hR hx => ?_
  have hend := claim_end hx
  have hentry : (s₂.entry t.ctx.nodeID a.connectionID).map WorkerProcess.key =
      some (a.connectionID, a.companyID, a.launchID, 0, 0) := by
    have hnode := (exec_sql hx).2.1
    have hsame : s₂.entry t.ctx.nodeID a.connectionID = s₁.entry t.ctx.nodeID a.connectionID := by
      unfold World.entry
      rw [hnode]
    rw [hsame, hR.entry]
    exact h
  cases hend with
  | @refused e hclean hclaimed hlost hrow =>
    by_cases he : e = .workerLaunchConflict
    · exact post_iff.mpr fun tr r s' _ e' _ hkept => absurd (hlost he) (hkept _ List.mem_cons_self)
    refine Post.mono (Q := SpawnOutcome cfg t.ctx.nodeID a.connectionID _) ?_ fun tr r s' h => h.cons hclean hclaimed
    show Post _ _ ((abandonReservation a previous e).bind fun _ => .fail e) _ _
    refine Post.bind (fun _ => .refl) ((abandonReservation_post hentry he).mono fun tr r s₃ hrestored => ?_)
    obtain ⟨rfl, hback, hkept, hquiet⟩ := hrestored
    refine Post.fail fun s' hR' e' _ _ => ?_
    rw [List.append_nil, hR'.agree]
    unfold Agree Tidied
    rw [hback, hkept, hrow, hR.rowLaunch]
    constructor
    · rintro ⟨hbefore | ⟨x, hx, hclaims⟩, -⟩
      · exact hbefore
      · exact absurd hclaims (hquiet x hx).2
    · exact fun hbefore => ⟨.inl hbefore, fun x hx => (hquiet x hx).1⟩
  | @denied e hfault he hrow =>
    show Post _ _ ((abandonReservation a previous e).bind fun _ => .fail e) _ _
    refine Post.bind (fun _ => .refl) ((abandonReservation_post hentry he).mono fun tr r s₃ hrestored => ?_)
    obtain ⟨rfl, hback, hkept, -⟩ := hrestored
    refine Post.fail fun s' hR' e' _ _ => ?_
    refine iff_of_false (fun htidied => hfault (htidied.2 _ List.mem_cons_self)) ?_
    rw [hR'.agree]
    unfold Agree
    rw [hback, hkept, hrow]
    exact hnew
  | claimed hclean hclaimed hvalid hrow =>
    refine Post.act fun s₃ g b' s₄ hR' hx' => ?_
    have hlaunched : Launched t.ctx.nodeID a 0 _ s₂ := ⟨hentry, hrow⟩
    have hidentity := update_entry (hlaunched.mono hR') hx' fun e he => congrArg (fun k =>
      (k.1, k.2.1, k.2.2.1, _, _)) he
    show Post _ _ (if _ then _ else _) _ _
    rw [if_pos hvalid]
    refine (startClaimed_post hidentity).mono fun tr r s' h e' he' _ => ?_
    rw [← h e' he']
    unfold Tidied
    rw [allClean_cons, allClean_cons]
    constructor
    · exact fun h => h.2.2.2
    · exact fun h => ⟨.inr ⟨_, List.mem_cons_self, hclaimed⟩, hclean, trivial, h⟩

/-! ### The reservation -/

theorem cap_without {m : Manager} {e : WorkerProcess} {limit : ℕ} (he : m.workers.find? c = some e) :
    limit ≤ ({ m with workers := m.workers.erase c } : Manager).workerCount ↔ limit < m.workerCount := by
  have hsize : (m.workers.erase c).size + 1 = m.workers.size := Table.size_erase_of_some he
  show limit ≤ (m.workers.erase c).size ↔ limit < m.workers.size
  omega

theorem dropsEntry_iff {m : Manager} : DropsEntry cfg a m ↔
    m.workers.find? a.connectionID ≠ none ∧ (Manager.reserveSlot cfg a m).2.workers.find? a.connectionID = none := by
  unfold DropsEntry Manager.reserveSlot
  by_cases hdown : m.shuttingDown = true
  · rw [if_pos hdown]
    exact iff_of_false (fun h => by rw [hdown] at h; cases h.1) fun h => h.1 h.2
  rw [if_neg hdown]
  have hup : m.shuttingDown = false := Bool.eq_false_iff.mpr hdown
  cases he : m.workers.find? a.connectionID with
  | none =>
    refine iff_of_false ?_ fun h => h.1 rfl
    rintro ⟨-, e, he', -⟩
    cases he'
  | some e =>
    dsimp only
    by_cases hcompany : e.companyID ≠ a.companyID
    · rw [if_pos hcompany]
      refine iff_of_false ?_ fun h => by rw [he] at h; cases h.2
      rintro ⟨-, e', he', hsame, -⟩
      obtain rfl := Option.some.inj he'
      exact hcompany hsame
    rw [if_neg hcompany]
    by_cases hlive : e.status ≠ .stopped ∧ e.status ≠ .error
    · rw [if_pos hlive]
      refine iff_of_false ?_ fun h => by rw [he] at h; cases h.2
      rintro ⟨-, e', he', -, hstatus, -⟩
      obtain rfl := Option.some.inj he'
      exact hstatus.elim hlive.1 hlive.2
    rw [if_neg hlive]
    have hlimit : (0 < cfg.maxWorkers ∧ cfg.maxWorkers ≤
          ({ m with workers := m.workers.erase a.connectionID } : Manager).workerCount) ↔
        0 < cfg.maxWorkers ∧ cfg.maxWorkers < m.workerCount := and_congr_right fun _ => cap_without he
    have hstatus : e.status = .stopped ∨ e.status = .error := by
      by_contra hne
      exact hlive (not_or.mp hne)
    by_cases hcap : 0 < cfg.maxWorkers ∧ cfg.maxWorkers < m.workerCount
    · rw [if_pos (hlimit.mpr hcap)]
      refine iff_of_true ⟨hup, e, rfl, not_not.mp hcompany, hstatus, .inl hcap⟩ ⟨nofun, ?_⟩
      exact Table.find?_erase_self _ _
    rw [if_neg fun h => hcap (hlimit.mp h)]
    by_cases hcred : cfg.restrictedCredentials = false
    · rw [if_pos hcred]
      refine iff_of_true ⟨hup, e, rfl, not_not.mp hcompany, hstatus, .inr hcred⟩ ⟨nofun, ?_⟩
      exact Table.find?_erase_self _ _
    rw [if_neg hcred]
    refine iff_of_false (fun h => ?_) fun h => ?_
    · obtain ⟨-, -, -, -, -, hrefused⟩ := h
      exact hrefused.elim hcap hcred
    · have hnone := h.2
      rw [Manager.find?_insert, if_pos rfl] at hnone
      cases hnone

theorem reserveSlot_entries {m : Manager} (h : ∀ previous, (Manager.reserveSlot cfg a m).1 ≠ .reserved previous) :
    ¬ DropsEntry cfg a m ↔ ∀ c, (Manager.reserveSlot cfg a m).2.workers.find? c = m.workers.find? c := by
  rw [dropsEntry_iff]
  constructor
  · intro hkept c
    rcases Manager.reserveSlot_cases cfg a m with ⟨-, hm⟩ | ⟨-, hm⟩ | ⟨hreserved, -⟩
    · rw [hm]
    · rw [hm] at hkept ⊢
      show (m.workers.erase a.connectionID).find? c = _
      rw [Table.find?_erase]
      split_ifs with hc
      · subst hc
        by_contra hne
        exact hkept ⟨fun hnone => hne hnone.symm, Table.find?_erase_self _ _⟩
      · rfl
    · exact absurd hreserved (h _)
  · rintro hsame ⟨hsome, hnone⟩
    exact hsome ((hsame _).symm.trans hnone)

theorem reserve_refused {origin : LaunchOrigin} {planned : Option LaunchID} {f : Choice} {s s₁ s₂ : World}
    {b : Manager.Reservation × LaunchID × ℕ} (hR : Undisturbed t.ctx.nodeID a.connectionID s s₁)
    (hx : World.exec cfg t (.mem (.reserve origin a planned)) f s₁ = some (b, s₂))
    (hb : ∀ previous, b.1 ≠ .reserved previous) {before : Prop}
    (hbefore : before ↔ Agree t.ctx.nodeID a.connectionID s) {s' : World}
    (hR' : Undisturbed t.ctx.nodeID a.connectionID s₂ s') :
    Tidied cfg t.ctx.nodeID before [⟨.mem (.reserve origin a planned), f, s₁, s₂⟩] ↔
      Spawnable t.ctx.nodeID a.connectionID [⟨.mem (.reserve origin a planned), f, s₁, s₂⟩] s' := by
  obtain ⟨happly, hdb, -⟩ := exec_mem hx
  have hresult : b.1 = (Manager.reserveSlot cfg (a.drawn (planned.getD f.fresh) f.token)
      (s₁.node t.ctx.nodeID).manager).1 := congrArg (fun r => r.1.1) happly
  have hmanager : (s₂.node t.ctx.nodeID).manager = (Manager.reserveSlot cfg (a.drawn (planned.getD f.fresh) f.token)
      (s₁.node t.ctx.nodeID).manager).2 := congrArg Prod.snd happly
  have hentries := reserveSlot_entries fun previous h => hb previous (hresult.trans h)
  have hclean : Clean cfg t.ctx.nodeID ⟨.mem (.reserve origin a planned), f, s₁, s₂⟩ ↔
      ∀ c, s₂.entry t.ctx.nodeID c = s₁.entry t.ctx.nodeID c := by
    refine hentries.trans (forall_congr' fun c => ?_)
    rw [entry_of_manager hmanager]
    rfl
  have hclaimed : ¬ ∃ x ∈ [(⟨.mem (.reserve origin a planned), f, s₁, s₂⟩ : LifecycleStep)],
      Claimed cfg t.ctx.nodeID x := by
    rintro ⟨x, hx, hclaims⟩
    rw [List.mem_singleton.mp hx] at hclaims
    exact hclaims
  unfold Tidied
  rw [or_iff_left hclaimed, allClean_cons, hclean, hbefore]
  constructor
  · rintro ⟨hagree, hsame, -⟩
    refine ⟨hR'.agree.mpr ?_, fun _ x hx c => ?_⟩
    · unfold Agree
      rw [hsame, row_of_db hdb]
      exact hR.agree.mpr hagree
    · rw [List.mem_singleton.mp hx]
      exact hsame c
  · intro h
    have hsame := h.unchanged (fun x hx hclaims => by rw [List.mem_singleton.mp hx] at hclaims; exact hclaims) _
      (List.mem_singleton.mpr rfl)
    refine ⟨hR.agree.mp ?_, hsame, fun _ hx => by cases hx⟩
    have hagree := hR'.agree.mp h.agree
    unfold Agree at hagree ⊢
    rw [← hsame, ← row_of_db hdb]
    exact hagree

theorem reserve_reserved {origin : LaunchOrigin} {planned : Option LaunchID} {f : Choice}
    {b : Manager.Reservation × LaunchID × ℕ} {previous : Option WorkerProcess}
    (hx : World.exec cfg t (.mem (.reserve origin a planned)) f w = some (b, w'))
    (hb : b.1 = .reserved previous) :
    previous = w.entry t.ctx.nodeID a.connectionID ∧ Clean cfg t.ctx.nodeID ⟨.mem (.reserve origin a planned), f, w, w'⟩ ∧
      w'.entry t.ctx.nodeID a.connectionID = some (a.drawn b.2.1 b.2.2).worker ∧
      w'.row a.connectionID = w.row a.connectionID ∧
      (planned = some b.2.1 ∨ w.owners.find? b.2.1 = none) := by
  obtain ⟨happly, hdb, howners⟩ := exec_mem hx
  have hresult : b.1 = (Manager.reserveSlot cfg (a.drawn (planned.getD f.fresh) f.token)
      (w.node t.ctx.nodeID).manager).1 := congrArg (fun r => r.1.1) happly
  have hlaunch : b.2 = (planned.getD f.fresh, f.token) := congrArg (fun r => r.1.2) happly
  have hmanager : (w'.node t.ctx.nodeID).manager = (Manager.reserveSlot cfg (a.drawn (planned.getD f.fresh) f.token)
      (w.node t.ctx.nodeID).manager).2 := congrArg Prod.snd happly
  rw [hb] at hresult
  rcases Manager.reserveSlot_cases cfg (a.drawn (planned.getD f.fresh) f.token) (w.node t.ctx.nodeID).manager with
    ⟨hno, -⟩ | ⟨hno, -⟩ | ⟨hreserved, hfind, -⟩
  · exact absurd hresult.symm (hno previous)
  · exact absurd hresult.symm (hno previous)
  have hentry : w'.entry t.ctx.nodeID a.connectionID = some (a.drawn b.2.1 b.2.2).worker := by
    rw [entry_of_manager hmanager, hlaunch]
    exact (hfind a.connectionID).trans (if_pos rfl)
  refine ⟨Manager.Reservation.reserved.inj (hresult.trans hreserved), fun hdrops => ?_, hentry, row_of_db hdb, ?_⟩
  · have hgone := (dropsEntry_iff (a := a.drawn (planned.getD f.fresh) f.token).mp hdrops).2
    rw [hfind, if_pos rfl] at hgone
    cases hgone
  · rw [hlaunch]
    cases planned with
    | some l => exact .inl rfl
    | none =>
      refine .inr ?_
      by_contra hdrawn
      have hnone : w.reserveOwners f.fresh (.reserve origin a none) = none := if_neg hdrawn
      rw [hnone] at howners
      cases howners

theorem claimReserved_claims {origin : LaunchOrigin} {previous : Option WorkerProcess} :
    Post (World.exec cfg t) (Undisturbed t.ctx.nodeID c) (claimReserved origin a previous) w
      fun tr _ _ => ∃ x ∈ tr, Claims x :=
  Post.act fun _ _ _ _ _ _ => post_iff.mpr fun _ _ _ _ => ⟨_, List.mem_cons_self, trivial⟩

def oneSlotConfig : Config where
  autoRestartEnabled := true
  autoRestartMaxRetries := 5
  maxWorkers := 1
  fleetMaxConnections := 0
  nodeLeaseDuration := 60
  nodeTakeoverMargin := 60

def slotEntry (c : ConnectionID) (launchID : LaunchID) (status : WorkerStatus) : WorkerProcess where
  connectionID := c
  launchID := launchID
  desiredState := .running
  companyID := 1
  tenantSchema := 1
  status := status
  artifact := ⟨1, 1⟩

/-- Every node has these entries; the launches 10 and 20 have been drawn. -/
def slotWorld (registry : Table ConnectionID WorkerRecord) (workers : Table ConnectionID WorkerProcess) : World where
  db := ⟨registry, minimumWorkerIdentity, Table.empty, Table.empty, 0⟩
  node := fun _ => ⟨.serving, ⟨workers, false⟩, Table.empty, [], none⟩
  processes := Table.empty
  owners := (Table.empty.put 10 1).put 20 1
  planned := []
  pending := []
  log := []

def spawnThread : Who Ctx := ⟨0, 1, .command (.spawn 1 1 1)⟩

def spawnOnce (fs : List Choice) (w : World) : Option (List LifecycleStep × Except Err Unit × World) :=
  (spawnWorkerArtifactWithLaunch .explicit (launchSpec 1 1 1 false 0 ⟨1, 1⟩) none).run
    (World.exec oneSlotConfig spawnThread) fs w

/-- Connection 1 has failed under launch 10, which its row holds; connection 2 runs. -/
def fullWorld : World :=
  slotWorld ((Table.empty.put 1 (claimedRecord 1 (slotEntry 1 10 .error) minimumWorkerIdentity 0)).put 2
      (claimedRecord 1 (slotEntry 2 20 .connected) (minimumWorkerIdentity + 1) 0))
    ((Table.empty.put 1 (slotEntry 1 10 .error)).put 2 (slotEntry 2 20 .connected))

end TeamInbox.Orchestrator
