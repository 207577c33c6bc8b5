import TeamInbox.Orchestrator.Readiness
import TeamInbox.Orchestrator.SpawnFailure

/-!
# TeamInbox.Orchestrator.RestartBudget — the budget a ready launch has earned

A signal that completes the readiness of its launch clears the restart count of the entry and then that of the row.  The
subscription hands the signals over one by one; the statement may fail every time.  The entry decides whether the row is
to be cleared, so one failure leaves the count of the row for good: the executions in which it does not are those in
which no earlier reset of the launch failed.
-/

namespace TeamInbox.Orchestrator

open TeamInbox.Lib

section Spec

variable (n : NodeID) (companyID : CompanyID) (c : ConnectionID) (l : LaunchID)

def entryBudget (w : World) : Option ℕ :=
  (w.entry n c).bind fun e => if e.companyID = companyID ∧ e.launchID = l then some e.restartCount else none

/-- The count of the launch's row, and whether the launch is to run. -/
def rowBudget (w : World) : Option (ℕ × DesiredState) :=
  (w.row c).bind fun r => if ofLaunch companyID l r then some (r.restartCount, r.desiredState) else none

/-- Others leave the two counts of the launch alone, and its desired state. -/
structure KeepsBudget (w w' : World) : Prop where
  entry : entryBudget n companyID c l w' = entryBudget n companyID c l w
  row : rowBudget companyID c l w' = rowBudget companyID c l w

/-- The signal is accepted, and it completes the readiness of the launch. -/
def CompletesReadiness (x : LifecycleStep) : Prop :=
  match x.op with
  | .mem (.runtime status) => status.connectionID = c ∧ status.launchID = l ∧
      ∃ r, (Manager.runtimeSection status (x.before.node n).manager).1 = some r ∧ r.complete = true
  | _ => False

/-- A reset of the launch's budget that fails without effect. -/
def FailedReset (x : LifecycleStep) : Prop :=
  match x.op with
  | .sql (.launch c' companyID' l' .resetRestart) =>
    c' = c ∧ companyID' = companyID ∧ l' = l ∧ x.choice.fault = .fail
  | _ => False

/-- The launch started with the count `k` in memory and in its row; `m` and `b` are the counts after the operations
`tr`. -/
def BudgetAfter (k : ℕ) (d : DesiredState) (tr : List LifecycleStep) (m b : ℕ) : Prop :=
  (m = k ∧ b = k ∧ ∀ x ∈ tr, ¬ FailedReset companyID c l x) ∨
    (m = 0 ∧ (b = 0 ↔ k = 0 ∨ (d = .running ∧ ∀ x ∈ tr, ¬ FailedReset companyID c l x)))

end Spec

variable {cfg : Config} {t : Who Ctx} {n : NodeID} {companyID : CompanyID} {c : ConnectionID} {l : LaunchID}
  {w w' : World} {status : WorkerRuntimeStatus} {k m b : ℕ} {d : DesiredState} {tr : List LifecycleStep}

theorem KeepsBudget.refl : KeepsBudget n companyID c l w w := ⟨rfl, rfl⟩

/-! ### One operation -/

theorem entry_of_budget (h : entryBudget n companyID c l w = some m) : ∃ e, w.entry n c = some e ∧
    e.companyID = companyID ∧ e.launchID = l ∧ e.restartCount = m := by
  obtain ⟨e, hentry, hm⟩ := Option.bind_eq_some_iff.mp h
  split_ifs at hm with hof
  exact ⟨e, hentry, hof.1, hof.2, Option.some.inj hm⟩

theorem budget_of_entry {e : WorkerProcess} (he : w.entry n c = some e) (hcompany : e.companyID = companyID)
    (hl : e.launchID = l) : entryBudget n companyID c l w = some e.restartCount := by
  unfold entryBudget
  rw [he]
  exact if_pos ⟨hcompany, hl⟩

theorem row_of_budget (h : rowBudget companyID c l w = some (b, d)) : ∃ r, w.row c = some r ∧ ofLaunch companyID l r ∧
    r.restartCount = b ∧ r.desiredState = d := by
  obtain ⟨r, hrow, hbd⟩ := Option.bind_eq_some_iff.mp h
  split_ifs at hbd with hof
  obtain ⟨hb, hd⟩ := Prod.mk.inj (Option.some.inj hbd)
  exact ⟨r, hrow, hof, hb, hd⟩

theorem budget_of_row {r : WorkerRecord} (hr : w.row c = some r) (hof : ofLaunch companyID l r) :
    rowBudget companyID c l w = some (r.restartCount, r.desiredState) := by
  unfold rowBudget
  rw [hr]
  exact if_pos hof

/-- A signal of another launch leaves the count of the entry; one of the launch clears it with the readiness. -/
theorem runtime_budget {f : Choice} {answer : Option Manager.RuntimeResult}
    (h : entryBudget t.ctx.nodeID companyID c l w = some m)
    (hx : World.exec cfg t (.mem (.runtime status)) f w = some (answer, w')) :
    rowBudget companyID c l w' = rowBudget companyID c l w ∧
      ((entryBudget t.ctx.nodeID companyID c l w' = some m ∧ (answer = none ∨ status.connectionID ≠ c) ∧
          ¬ CompletesReadiness t.ctx.nodeID c l ⟨.mem (.runtime status), f, w, w'⟩) ∨
        ∃ r, answer = some r ∧ status.connectionID = c ∧ status.companyID = companyID ∧ status.launchID = l ∧
          entryBudget t.ctx.nodeID companyID c l w' = some (if r.complete then 0 else m) ∧
            r.clearRestartBudget = (r.complete && decide (m ≠ 0)) ∧
              (CompletesReadiness t.ctx.nodeID c l ⟨.mem (.runtime status), f, w, w'⟩ ↔ r.complete = true)) := by
  obtain ⟨happly, hdb, -⟩ := exec_mem hx
  have happly : (answer, (w'.node t.ctx.nodeID).manager) =
      Manager.runtimeSection status (w.node t.ctx.nodeID).manager := happly
  refine ⟨by unfold rowBudget; rw [row_of_db hdb], ?_⟩
  obtain ⟨e, he, hcompany, hl, hm⟩ := entry_of_budget h
  have he : (w.node t.ctx.nodeID).manager.workers.find? c = some e := he
  have hfirst : ∀ r, CompletesReadiness t.ctx.nodeID c l ⟨.mem (.runtime status), f, w, w'⟩ → answer = some r →
      r.complete = true := by
    rintro r ⟨-, -, r', hr', hcomplete⟩ hr
    have hr' : (Manager.runtimeSection status (w.node t.ctx.nodeID).manager).1 = some r' := hr'
    rw [← happly] at hr'
    obtain rfl := Option.some.inj (hr'.symm.trans hr)
    exact hcomplete
  rcases runtimeSection_cases status (w.node t.ctx.nodeID).manager with ⟨-, hnone⟩ |
    ⟨e', r, he', ⟨hsame, hlaunch, -⟩, hsome, hcomplete, hclear⟩
  · obtain ⟨rfl, hmanager⟩ := Prod.mk.inj (happly.trans hnone)
    refine .inl ⟨?_, .inl rfl, ?_⟩
    · rw [← h]
      unfold entryBudget World.entry
      rw [hmanager]
    · rintro ⟨-, -, r, hr, -⟩
      have hr : (Manager.runtimeSection status (w.node t.ctx.nodeID).manager).1 = some r := hr
      rw [hnone] at hr
      cases hr
  · obtain ⟨hanswer, hmanager⟩ := Prod.mk.inj (happly.trans hsome)
    by_cases hc : status.connectionID = c
    · rw [hc, he] at he'
      obtain rfl := Option.some.inj he'
      obtain ⟨hkcompany, hklaunch, hkcount⟩ := @signaledEntry_keeps status e
      refine .inr ⟨r, hanswer, hc, hsame.symm.trans hcompany, hlaunch.symm.trans hl, ?_, hm ▸ hclear, ?_⟩
      · rw [budget_of_entry (e := signaledEntry status e) ?_ (hkcompany.trans hcompany) (hklaunch.trans hl), hkcount,
          hcomplete, hm]
        rw [entry_of_manager hmanager, Manager.find?_insert, if_pos hc.symm]
      · exact ⟨fun hcompletes => hfirst r hcompletes hanswer, fun htrue =>
          ⟨hc, hlaunch.symm.trans hl, r, (congrArg Prod.fst happly).symm.trans hanswer, htrue⟩⟩
    · refine .inl ⟨?_, .inr hc, fun hcompletes => hc hcompletes.1⟩
      rw [← h]
      have hentry : w'.entry t.ctx.nodeID c = w.entry t.ctx.nodeID c := by
        rw [entry_of_manager hmanager, Manager.find?_insert, if_neg fun heq => hc heq.symm]
        rfl
      unfold entryBudget
      rw [hentry]

theorem sql_entryBudget {q : Sql} {f : Choice} {answer : Op.Resp (.sql q)}
    (hx : World.exec cfg t (.sql q) f w = some (answer, w')) :
    entryBudget n companyID c l w' = entryBudget n companyID c l w := by
  obtain ⟨-, hnode, -⟩ := exec_sql hx
  unfold entryBudget World.entry
  rw [hnode]

theorem reset_budget {f : Choice} {answer : Except Err Bool} (h : rowBudget companyID c l w = some (b, d))
    (hx : World.exec cfg t (.sql (.launch c companyID l .resetRestart)) f w = some (answer, w')) :
    rowBudget companyID c l w' = some (if f.fault ≠ .fail ∧ d = .running then 0 else b, d) := by
  obtain ⟨hperform, -, -⟩ := exec_sql hx
  obtain ⟨r, hrow, hof, rfl, rfl⟩ := row_of_budget h
  have hdone : (resetRestartCountLaunch c companyID l w.db).2.registry.find? c =
      some (if r.desiredState = .running then { r with restartCount := 0 } else r) := by
    unfold resetRestartCountLaunch
    have hrow : w.db.registry.find? c = some r := hrow
    rw [find?_updateLaunch, if_pos rfl, hrow, Option.map_some]
    congr 1
    by_cases hd : r.desiredState = .running
    · rw [if_pos hd]
      by_cases hzero : r.restartCount = 0
      · rw [if_neg fun h => h.2.2 hzero, ← hzero]
      · rw [if_pos ⟨hof, hd, hzero⟩]
    · rw [if_neg hd, if_neg fun h => hd h.2.1]
  have hdb : w'.db = (f.fault.perform ((Sql.launch c companyID l .resetRestart).stmt cfg t.ctx.nodeID f.fresh)
    w.db).2 := congrArg Prod.snd hperform
  have hafter : w'.db = (resetRestartCountLaunch c companyID l w.db).2 →
      rowBudget companyID c l w' = some (if r.desiredState = .running then 0 else r.restartCount, r.desiredState) := by
    intro hdb
    have hrow' : w'.row c = some (if r.desiredState = .running then { r with restartCount := 0 } else r) := by
      unfold World.row
      rw [hdb]
      exact hdone
    by_cases hd : r.desiredState = .running
    · rw [if_pos hd] at hrow' ⊢
      exact budget_of_row hrow' hof
    · rw [if_neg hd] at hrow' ⊢
      exact budget_of_row hrow' hof
  cases hf : f.fault with
  | ok =>
    rw [hf] at hdb
    rw [hafter hdb]
    simp
  | failAfter =>
    rw [hf] at hdb
    rw [hafter hdb]
    simp
  | fail =>
    rw [hf] at hdb
    rw [budget_of_row ((row_of_db hdb).trans hrow) hof]
    simp

theorem launch_rowBudget {c' : ConnectionID} {companyID' : CompanyID} {l' : LaunchID} {stmt : LaunchStmt} {f : Choice}
    {answer : Except Err Bool} (hstmt : (∃ st, stmt = .runtimeStatus st) ∨ (stmt = .resetRestart ∧ c' ≠ c))
    (hx : World.exec cfg t (.sql (.launch c' companyID' l' stmt)) f w = some (answer, w')) :
    rowBudget companyID c l w' = rowBudget companyID c l w := by
  obtain ⟨hperform, -, -⟩ := exec_sql hx
  rcases row_perform (c := c) (q := .launch c' companyID' l' stmt) hperform with hrow | ⟨-, hrow⟩
  · unfold rowBudget
    rw [hrow]
  · rcases hstmt with ⟨st, rfl⟩ | ⟨rfl, hc⟩
    · have hrow : w'.row c = (updateRuntimeStatusLaunch t.ctx.nodeID c' companyID' l' st w.db).2.registry.find? c := hrow
      unfold updateRuntimeStatusLaunch at hrow
      rw [find?_updateLaunch] at hrow
      by_cases hc : c = c'
      · rw [if_pos hc] at hrow
        unfold rowBudget
        rw [hrow]
        unfold World.row
        cases w.db.registry.find? c with
        | none => rfl
        | some r =>
          rw [Option.map_some]
          by_cases hupdated : ofLaunch companyID' l' r ∧ r.nodeID = some t.ctx.nodeID ∧ r.desiredState = .running ∧
              r.status.isRuntime = true ∧ r.status ≠ st
          · rw [if_pos hupdated]
            rfl
          · rw [if_neg hupdated]
      · rw [if_neg hc] at hrow
        unfold rowBudget
        rw [hrow]
        rfl
    · have hrow : w'.row c = (resetRestartCountLaunch c' companyID' l' w.db).2.registry.find? c := hrow
      unfold resetRestartCountLaunch at hrow
      rw [find?_updateLaunch, if_neg fun heq => hc heq.symm] at hrow
      unfold rowBudget
      rw [hrow]
      rfl

/-! ### One signal -/

/-- The counts of the launch, in memory and in its row. -/
structure Budgets (n : NodeID) (companyID : CompanyID) (c : ConnectionID) (l : LaunchID) (d : DesiredState) (m b : ℕ)
    (w : World) : Prop where
  entry : entryBudget n companyID c l w = some m
  row : rowBudget companyID c l w = some (b, d)

theorem Budgets.mono (h : Budgets n companyID c l d m b w) (hR : KeepsBudget n companyID c l w w') :
    Budgets n companyID c l d m b w' := ⟨hR.entry.trans h.entry, hR.row.trans h.row⟩

/-- None of the operations completes the readiness, none is a reset that failed. -/
def Quiet (n : NodeID) (companyID : CompanyID) (c : ConnectionID) (l : LaunchID) (tr : List LifecycleStep) : Prop :=
  ∀ x ∈ tr, ¬ CompletesReadiness n c l x ∧ ¬ FailedReset companyID c l x

theorem quiet_nil : Quiet n companyID c l [] := fun _ hx => by cases hx

theorem quiet_singleton {x : LifecycleStep} :
    Quiet n companyID c l [x] ↔ ¬ CompletesReadiness n c l x ∧ ¬ FailedReset companyID c l x := List.forall_mem_singleton

theorem Quiet.append {tr' : List LifecycleStep} (h : Quiet n companyID c l tr) (h' : Quiet n companyID c l tr') :
    Quiet n companyID c l (tr ++ tr') := fun x hx => (List.mem_append.mp hx).elim (h x) (h' x)

theorem BudgetAfter.append {tr' : List LifecycleStep} (h : BudgetAfter companyID c l k d tr m b)
    (h' : ∀ x ∈ tr', ¬ FailedReset companyID c l x) : BudgetAfter companyID c l k d (tr ++ tr') m b := by
  have hfailed : (∀ x ∈ tr ++ tr', ¬ FailedReset companyID c l x) ↔ ∀ x ∈ tr, ¬ FailedReset companyID c l x := by
    rw [List.forall_mem_append]
    exact and_iff_left h'
  unfold BudgetAfter
  rw [hfailed]
  exact h

theorem BudgetAfter.cleared (h : BudgetAfter companyID c l k d tr 0 b) :
    b = 0 ↔ k = 0 ∨ (d = .running ∧ ∀ x ∈ tr, ¬ FailedReset companyID c l x) := by
  rcases h with ⟨hk, hb, -⟩ | ⟨-, hb⟩
  · exact iff_of_true (hb.trans hk.symm) (.inl hk.symm)
  · exact hb

theorem persist_post {durable : Option WorkerStatus} (h : Budgets t.ctx.nodeID companyID c l d m b w) :
    Post (World.exec cfg t) (KeepsBudget t.ctx.nodeID companyID c l) (persistRuntimeStatus status durable) w
      fun tr r w' => r = .ok () ∧ Budgets t.ctx.nodeID companyID c l d m b w' ∧ Quiet t.ctx.nodeID companyID c l tr := by
  cases durable with
  | none => exact Post.done fun w' hR => ⟨rfl, h.mono hR, quiet_nil⟩
  | some st =>
    refine Post.act fun s₁ f answer s₂ hR hx => Post.done fun w' hR' => ⟨rfl, ?_, quiet_singleton.mpr ⟨id, id⟩⟩
    have h₁ := h.mono hR
    exact Budgets.mono ⟨(sql_entryBudget hx).trans h₁.entry, (launch_rowBudget (.inl ⟨st, rfl⟩) hx).trans h₁.row⟩ hR'

theorem clear_post_other {clear : Bool} (hc : status.connectionID ≠ c) (h : Budgets t.ctx.nodeID companyID c l d m b w) :
    Post (World.exec cfg t) (KeepsBudget t.ctx.nodeID companyID c l) (clearDurableBudget status clear) w
      fun tr r w' => r = .ok () ∧ Budgets t.ctx.nodeID companyID c l d m b w' ∧ Quiet t.ctx.nodeID companyID c l tr := by
  cases clear with
  | false => exact Post.done fun w' hR => ⟨rfl, h.mono hR, quiet_nil⟩
  | true =>
    refine Post.act fun s₁ f answer s₂ hR hx => Post.done fun w' hR' => ⟨rfl, ?_, quiet_singleton.mpr ⟨id, fun hf => ?_⟩⟩
    · have h₁ := h.mono hR
      exact Budgets.mono ⟨(sql_entryBudget hx).trans h₁.entry,
        (launch_rowBudget (.inr ⟨rfl, hc⟩) hx).trans h₁.row⟩ hR'
    · exact hc hf.1

theorem reset_post (hk : k ≠ 0) (hnone : ∀ x ∈ tr, ¬ FailedReset companyID c l x)
    (hstatus : status.connectionID = c ∧ status.companyID = companyID ∧ status.launchID = l)
    (h : Budgets t.ctx.nodeID companyID c l d 0 k w) :
    Post (World.exec cfg t) (KeepsBudget t.ctx.nodeID companyID c l) (clearDurableBudget status true) w
      fun tr' r w' => r = .ok () ∧ ∃ b, Budgets t.ctx.nodeID companyID c l d 0 b w' ∧
        BudgetAfter companyID c l k d (tr ++ tr') 0 b ∧ ∀ x ∈ tr', ¬ CompletesReadiness t.ctx.nodeID c l x := by
  obtain ⟨rfl, rfl, rfl⟩ := hstatus
  refine Post.act fun s₁ f answer s₂ hR hx => Post.done fun w' hR' => ⟨rfl, _, Budgets.mono
    ⟨(sql_entryBudget hx).trans (h.mono hR).entry, reset_budget (h.mono hR).row hx⟩ hR', .inr ⟨rfl, ?_⟩,
    List.forall_mem_singleton.mpr id⟩
  have hfailed : (∀ x ∈ tr ++ [⟨.sql (.launch status.connectionID status.companyID status.launchID .resetRestart), f, s₁,
      s₂⟩], ¬ FailedReset status.companyID status.connectionID status.launchID x) ↔ f.fault ≠ .fail := by
    rw [List.forall_mem_append, List.forall_mem_singleton]
    exact ⟨fun hno hf => hno.2 ⟨rfl, rfl, rfl, hf⟩, fun hf => ⟨hnone, fun hfailed => hf hfailed.2.2.2⟩⟩
  rw [hfailed]
  by_cases hdone : f.fault ≠ .fail ∧ d = .running
  · rw [if_pos hdone]
    exact iff_of_true rfl (.inr hdone.symm)
  · rw [if_neg hdone]
    exact iff_of_false hk fun h => h.elim hk fun h => hdone h.symm

theorem clear_post {complete : Bool} (hafter : BudgetAfter companyID c l k d tr m b)
    (hstatus : status.connectionID = c ∧ status.companyID = companyID ∧ status.launchID = l)
    (h : Budgets t.ctx.nodeID companyID c l d (if complete then 0 else m) b w) :
    Post (World.exec cfg t) (KeepsBudget t.ctx.nodeID companyID c l)
      (clearDurableBudget status (complete && decide (m ≠ 0))) w fun tr' r w' => r = .ok () ∧ ∃ b,
        Budgets t.ctx.nodeID companyID c l d (if complete then 0 else m) b w' ∧
          BudgetAfter companyID c l k d (tr ++ tr') (if complete then 0 else m) b ∧
            ∀ x ∈ tr', ¬ CompletesReadiness t.ctx.nodeID c l x := by
  have hkept : (if complete then 0 else m) = m → Post (World.exec cfg t) (KeepsBudget t.ctx.nodeID companyID c l)
      (clearDurableBudget status false) w fun tr' r w' => r = .ok () ∧ ∃ b,
        Budgets t.ctx.nodeID companyID c l d (if complete then 0 else m) b w' ∧
          BudgetAfter companyID c l k d (tr ++ tr') (if complete then 0 else m) b ∧
            ∀ x ∈ tr', ¬ CompletesReadiness t.ctx.nodeID c l x := by
    intro hm
    refine Post.done fun w' hR => ⟨rfl, b, h.mono hR, ?_, fun x hx => by cases hx⟩
    rw [hm, List.append_nil]
    exact hafter
  cases complete with
  | false => exact hkept rfl
  | true =>
    by_cases hm : m = 0
    · rw [decide_eq_false (not_not.mpr hm)]
      exact hkept hm.symm
    · rw [decide_eq_true hm]
      rcases hafter with ⟨rfl, rfl, hnone⟩ | ⟨hm', -⟩
      · exact reset_post hm hnone hstatus h
      · exact absurd hm' hm

/-- **One signal.** -/
theorem record_post (h : Budgets t.ctx.nodeID companyID c l d m b w) (hafter : BudgetAfter companyID c l k d tr m b) :
    Post (World.exec cfg t) (KeepsBudget t.ctx.nodeID companyID c l) (recordWorkerRuntimeStatus status) w
      fun tr' r w' => r = .ok () ∧ ∃ m b, Budgets t.ctx.nodeID companyID c l d m b w' ∧
        BudgetAfter companyID c l k d (tr ++ tr') m b ∧
          ((∃ x ∈ tr', CompletesReadiness t.ctx.nodeID c l x) → m = 0) := by
  refine Post.act fun s₁ f answer s₂ hR hx => ?_
  have h₁ := h.mono hR
  have hnotReset : ¬ FailedReset companyID c l ⟨.mem (.runtime status), f, s₁, s₂⟩ := id
  have hafter₁ : BudgetAfter companyID c l k d (tr ++ [⟨.mem (.runtime status), f, s₁, s₂⟩]) m b :=
    hafter.append (List.forall_mem_singleton.mpr hnotReset)
  obtain ⟨hrow, hentry⟩ := runtime_budget h₁.entry hx
  rcases hentry with ⟨hentry, hother, hincomplete⟩ | ⟨r, rfl, hc, hcompany, hl, hentry, hclear, hcompletes⟩
  · -- the launch is not concerned
    have h₂ : Budgets t.ctx.nodeID companyID c l d m b s₂ := ⟨hentry, hrow.trans h₁.row⟩
    have hrest : ∀ {tr' : List LifecycleStep} {w' : World}, Budgets t.ctx.nodeID companyID c l d m b w' →
        Quiet t.ctx.nodeID companyID c l tr' → ∃ m b, Budgets t.ctx.nodeID companyID c l d m b w' ∧
          BudgetAfter companyID c l k d (tr ++ ⟨.mem (.runtime status), f, s₁, s₂⟩ :: tr') m b ∧
            ((∃ x ∈ (⟨.mem (.runtime status), f, s₁, s₂⟩ :: tr' : List LifecycleStep),
              CompletesReadiness t.ctx.nodeID c l x) → m = 0) := by
      intro tr' w' hw' hquiet
      have hall := (quiet_singleton.mpr ⟨hincomplete, hnotReset⟩ : Quiet t.ctx.nodeID companyID c l _).append hquiet
      refine ⟨m, b, hw', hafter.append fun x hx => (hall x hx).2, ?_⟩
      rintro ⟨x, hx, hcompletes⟩
      exact absurd hcompletes (hall x hx).1
    cases answer with
    | none => exact Post.done fun w' hR' => ⟨rfl, hrest (h₂.mono hR') quiet_nil⟩
    | some r =>
      have hc : status.connectionID ≠ c := hother.resolve_left nofun
      show Post _ _ ((clearDurableBudget status r.clearRestartBudget).bind _) _ _
      refine Post.bind (fun _ => .refl) ((clear_post_other hc h₂).mono ?_)
      rintro tr₁ _ s₃ ⟨rfl, h₃, hquiet⟩
      refine (persist_post h₃).mono ?_
      rintro tr₂ _ w' ⟨rfl, h₄, hquiet'⟩
      exact ⟨rfl, hrest h₄ (hquiet.append hquiet')⟩
  · have h₂ : Budgets t.ctx.nodeID companyID c l d (if r.complete then 0 else m) b s₂ := ⟨hentry, hrow.trans h₁.row⟩
    show Post _ _ ((clearDurableBudget status r.clearRestartBudget).bind _) _ _
    rw [hclear]
    refine Post.bind (fun _ => .refl) ((clear_post hafter₁ ⟨hc, hcompany, hl⟩ h₂).mono ?_)
    rintro tr₁ _ s₃ ⟨rfl, b', h₃, hafter', hnoneCompletes⟩
    refine (persist_post h₃).mono ?_
    rintro tr₂ _ w' ⟨rfl, h₄, hquiet⟩
    refine ⟨rfl, _, b', h₄, ?_, ?_⟩
    · have hsplit : tr ++ ⟨.mem (.runtime status), f, s₁, s₂⟩ :: (tr₁ ++ tr₂) =
          tr ++ [⟨.mem (.runtime status), f, s₁, s₂⟩] ++ tr₁ ++ tr₂ := by simp
      rw [hsplit]
      exact hafter'.append fun x hx => (hquiet x hx).2
    · rintro ⟨x, hx, hcompletes'⟩
      rcases List.mem_cons.mp hx with rfl | hx
      · exact if_pos (hcompletes.mp hcompletes')
      · rcases List.mem_append.mp hx with hx | hx
        · exact absurd hcompletes' (hnoneCompletes x hx)
        · exact absurd hcompletes' (hquiet x hx).1

theorem records_post (earlier : List WorkerRuntimeStatus) (h : Budgets t.ctx.nodeID companyID c l d m b w)
    (hafter : BudgetAfter companyID c l k d tr m b) :
    Post (World.exec cfg t) (KeepsBudget t.ctx.nodeID companyID c l) (Proc.forEach earlier recordWorkerRuntimeStatus) w
      fun tr' _ w' => ∃ m b, Budgets t.ctx.nodeID companyID c l d m b w' ∧
        BudgetAfter companyID c l k d (tr ++ tr') m b := by
  induction earlier generalizing w tr m b with
  | nil =>
    refine Post.done fun w' hR => ⟨m, b, h.mono hR, ?_⟩
    rw [List.append_nil]
    exact hafter
  | cons status earlier ih =>
    refine Post.bind (fun _ => .refl) ((record_post h hafter).mono ?_)
    rintro tr₁ _ w₁ ⟨rfl, m₁, b₁, h₁, hafter₁, -⟩
    refine (ih h₁ hafter₁).mono fun tr₂ r w' h₂ => ?_
    rw [← List.append_assoc]
    exact h₂

/-- A launch starts with one count, in memory and in its row; signals of all kinds are handled, `earlier` and then one
that completes its readiness while the database works.  The row holds no count afterwards exactly when it held none from
the start, or the launch is to run and no reset among the earlier signals failed. -/
theorem restart_budget_reset (cfg : Config) (t : Who Ctx) (companyID : CompanyID) (c : ConnectionID) (l : LaunchID)
    (k : ℕ) (d : DesiredState) (earlier : List WorkerRuntimeStatus) (status : WorkerRuntimeStatus) (w w₁ w' : World)
    (tr₀ tr : List LifecycleStep) (r₀ r : Except Err Unit)
    (hentry : entryBudget t.ctx.nodeID companyID c l w = some k) (hrow : rowBudget companyID c l w = some (k, d))
    (hearlier : Exec (World.exec cfg t) (KeepsBudget t.ctx.nodeID companyID c l)
      (Proc.forEach earlier recordWorkerRuntimeStatus) w tr₀ r₀ w₁)
    (hlast : Exec (World.exec cfg t) (KeepsBudget t.ctx.nodeID companyID c l) (recordWorkerRuntimeStatus status) w₁ tr r w')
    (hcompletes : ∃ x ∈ tr, CompletesReadiness t.ctx.nodeID c l x) (hworks : ∀ x ∈ tr, x.choice.fault = .ok) :
    rowBudget companyID c l w' = some (0, d) ↔
      k = 0 ∨ (d = .running ∧ ∀ x ∈ tr₀, ¬ FailedReset companyID c l x) := by
  have hstart : BudgetAfter companyID c l k d [] k k := .inl ⟨rfl, rfl, fun _ hx => by cases hx⟩
  obtain ⟨m₁, b₁, h₁, hafter₁⟩ := post_iff.mp (records_post earlier ⟨hentry, hrow⟩ hstart) _ _ _ hearlier
  obtain ⟨-, m, b, h, hafter, hm⟩ := post_iff.mp (record_post h₁ hafter₁) _ _ _ hlast
  obtain rfl := hm hcompletes
  have hnoneNow : ∀ x ∈ tr, ¬ FailedReset companyID c l x := by
    intro x hx hfailed
    have hok := hworks x hx
    unfold FailedReset at hfailed
    split at hfailed
    · rw [hok] at hfailed
      exact nomatch hfailed.2.2.2
    · exact hfailed
  have hfailed : (∀ x ∈ [] ++ tr₀ ++ tr, ¬ FailedReset companyID c l x) ↔ ∀ x ∈ tr₀, ¬ FailedReset companyID c l x := by
    rw [List.nil_append, List.forall_mem_append]
    exact and_iff_left hnoneNow
  rw [h.row, ← hfailed, ← hafter.cleared]
  exact ⟨fun h => (Prod.mk.inj (Option.some.inj h)).1, fun h => h ▸ rfl⟩

def restartedEntry : WorkerProcess :=
  { slotEntry 1 10 .starting with
    readinessToken := some 7
    restartCount := 3 }

def restartedWorld : World :=
  slotWorld (Table.empty.put 1 (claimedRecord 1 restartedEntry minimumWorkerIdentity 0)) (Table.empty.put 1 restartedEntry)

def readySignal (signal : RuntimeSignal) (timestamp : ℕ) : WorkerRuntimeStatus where
  companyID := 1
  connectionID := 1
  launchID := 10
  token := 7
  artifactVersion := 1
  timestamp := timestamp
  signal := signal

def signalsOnce (signals : List WorkerRuntimeStatus) (fs : List Choice) (w : World) :
    Option (List LifecycleStep × Except Err Unit × World) :=
  (Proc.forEach signals recordWorkerRuntimeStatus).run (World.exec oneSlotConfig spawnThread) fs w

def signalOnce (status : WorkerRuntimeStatus) (fs : List Choice) (w : World) :
    Option (List LifecycleStep × Except Err Unit × World) :=
  (recordWorkerRuntimeStatus status).run (World.exec oneSlotConfig spawnThread) fs w

def signaledWorld (signals : List WorkerRuntimeStatus) (fs : List Choice) : World :=
  ((signalsOnce signals fs restartedWorld).map fun r => r.2.2).getD restartedWorld

/-- The third signal completes the readiness. -/
theorem restart_budget_reset_authenticated : ∃ tr₀ w₁ tr w',
    signalsOnce [readySignal .processReady 1, readySignal .connected 2] [{}, {}, {}] restartedWorld =
      some (tr₀, .ok (), w₁) ∧
    signalOnce (readySignal .authenticated 3) [{}, {}] w₁ = some (tr, .ok (), w') ∧
      rowBudget 1 1 10 w' = some (0, .running) := by
  have hrun₀ : signalsOnce [readySignal .processReady 1, readySignal .connected 2] [{}, {}, {}] restartedWorld =
      some (_, .ok (), signaledWorld [readySignal .processReady 1, readySignal .connected 2] [{}, {}, {}]) := rfl
  have hrun : signalOnce (readySignal .authenticated 3) [{}, {}]
    (signaledWorld [readySignal .processReady 1, readySignal .connected 2] [{}, {}, {}]) = some (_, .ok (), _) := rfl
  refine ⟨_, _, _, _, hrun₀, hrun, (restart_budget_reset oneSlotConfig spawnThread 1 1 10 3 .running
    [readySignal .processReady 1, readySignal .connected 2] (readySignal .authenticated 3) restartedWorld _ _ _ _ _ _
    rfl rfl (exec_of_run (fun _ => .refl) hrun₀) (exec_of_run (fun _ => .refl) hrun) ?_ ?_).mpr (.inr ⟨rfl, ?_⟩)⟩
  · exact ⟨_, List.mem_cons_self, rfl, rfl, _, rfl, rfl⟩
  · exact List.forall_mem_cons.mpr ⟨rfl, List.forall_mem_cons.mpr ⟨rfl, fun _ hx => by cases hx⟩⟩
  · exact List.forall_mem_cons.mpr ⟨id, List.forall_mem_cons.mpr ⟨id, List.forall_mem_cons.mpr ⟨id,
      fun _ hx => by cases hx⟩⟩⟩

/-- The reset of the third signal fails.  The fourth one completes the readiness again and finds nothing to clear in
memory: the row keeps the three restarts. -/
theorem failed_reset_keeps_budget : entryBudget 1 1 1 10 restartedWorld = some 3 ∧
    rowBudget 1 1 10 restartedWorld = some (3, .running) ∧ ∃ tr₀ w₁ tr w',
      Exec (World.exec oneSlotConfig spawnThread) (KeepsBudget 1 1 1 10) (Proc.forEach [readySignal .processReady 1,
        readySignal .connected 2, readySignal .authenticated 3] recordWorkerRuntimeStatus) restartedWorld tr₀ (.ok ()) w₁ ∧
      Exec (World.exec oneSlotConfig spawnThread) (KeepsBudget 1 1 1 10)
        (recordWorkerRuntimeStatus (readySignal .authenticated 4)) w₁ tr (.ok ()) w' ∧
      (∃ x ∈ tr, CompletesReadiness 1 1 10 x) ∧ (∀ x ∈ tr, x.choice.fault = .ok) ∧
        rowBudget 1 1 10 w' = some (3, .running) := by
  have hrun₀ : signalsOnce [readySignal .processReady 1, readySignal .connected 2, readySignal .authenticated 3]
      [{}, {}, {}, {}, { fault := .fail }] restartedWorld = some (_, .ok (), signaledWorld [readySignal .processReady 1,
        readySignal .connected 2, readySignal .authenticated 3] [{}, {}, {}, {}, { fault := .fail }]) := rfl
  have hrun : signalOnce (readySignal .authenticated 4) [{}] (signaledWorld [readySignal .processReady 1,
    readySignal .connected 2, readySignal .authenticated 3] [{}, {}, {}, {}, { fault := .fail }]) =
      some (_, .ok (), _) := rfl
  refine ⟨rfl, rfl, _, _, _, _, exec_of_run (fun _ => .refl) hrun₀, exec_of_run (fun _ => .refl) hrun, ?_, ?_, rfl⟩
  · exact ⟨_, List.mem_cons_self, rfl, rfl, _, rfl, rfl⟩
  · exact List.forall_mem_cons.mpr ⟨rfl, fun _ hx => by cases hx⟩

end TeamInbox.Orchestrator
