import TeamInbox.Lib.Run
import TeamInbox.Orchestrator.Registry

/-!
# TeamInbox.Orchestrator.NodeLease — the lease of a node and its local deadline

`RegisterNodeLease`, the renewal loop `runNodeLease` and the takeover by a peer, as a transition
system on one time axis (the two clocks advance at the same rate, so both deadlines are read on it).
A registration or renewal is three steps: the node sends it, the database executes it at some
instant (or fails, or loses the answer), and the node receives the answer.  Time passes in between.

The database writes `now() + NodeLeaseDuration` at the instant it executes the statement, the node
sets its own deadline to `time.Now() + NodeLeaseDuration` when the answer arrives.  So the local
deadline is later than the durable one by exactly the time the answer took
(`local_lease_within_durable_iff`).
-/

namespace TeamInbox.Orchestrator

open TeamInbox.Lib

/-- The authority a running node believes to have: its `leaseDeadline`, and the `lease_expires_at`
that the registration or renewal behind it wrote. -/
structure LocalLease where
  deadline : ℕ
  grantedUntil : ℕ
  deriving DecidableEq

/-- The answer of the database to a lease statement, and the instant it was executed. -/
abbrev LeaseAnswer := Except Err Bool × ℕ

/-- Where the node is.  A renewal is `none` (waiting for `renewTimer`), sent, or answered. -/
inductive LeasePhase
  | down
  | registering (answer : Option LeaseAnswer)
  | holding (lease : LocalLease) (renewal : Option (Option LeaseAnswer))
  | fenced

structure LeaseState where
  db : Db
  phase : LeasePhase

inductive LeaseAction
  | tick (elapsed : ℕ)
  | start
  | register (fault : Fault)
  | registerAnswer
  | sendRenewal
  | renew (fault : Fault)
  | renewalAnswer
  | deadlineExpires
  | stop (fault : Fault)
  | crash
  | takeOver (peer : NodeID) (connectionID : ConnectionID)
  deriving DecidableEq

/-- One step of the node `nodeID`, of the database or of a peer. -/
def leaseStep (cfg : Config) (nodeID : NodeID) (s : LeaseState) : LeaseAction → Option LeaseState
  | .tick elapsed => some { s with db := { s.db with now := s.db.now + elapsed } }
  | .start =>
    match s.phase with
    | .down => some { s with phase := .registering none }
    | _ => none
  | .register fault =>
    match s.phase with
    | .registering none =>
      let r := fault.exec (registerNodeLease nodeID cfg.nodeLeaseDuration) s.db
      some ⟨r.2, .registering (some (r.1, s.db.now))⟩
    | _ => none
  | .registerAnswer =>
    match s.phase with
    -- `Start` goes on to `runNodeLease`, whose first statement sets the deadline
    | .registering (some (.ok true, executedAt)) => some { s with
        phase := .holding ⟨s.db.now + cfg.nodeLeaseDuration, executedAt + cfg.nodeLeaseDuration⟩
          none }
    | .registering (some _) => some { s with phase := .down }
    | _ => none
  | .sendRenewal =>
    match s.phase with
    | .holding lease none => some { s with phase := .holding lease (some none) }
    | _ => none
  | .renew fault =>
    match s.phase with
    | .holding lease (some none) =>
      let r := fault.exec (renewNodeLease nodeID cfg.nodeLeaseDuration) s.db
      some ⟨r.2, .holding lease (some (some (r.1, s.db.now)))⟩
    | _ => none
  | .renewalAnswer =>
    match s.phase with
    | .holding lease (some (some (answer, executedAt))) =>
      -- a result racing the deadline cannot restore authority
      if lease.deadline ≤ s.db.now then some { s with phase := .fenced }
      else
        match answer with
        | .error _ => some { s with phase := .holding lease none }
        | .ok false => some { s with phase := .fenced }
        | .ok true => some { s with
            phase := .holding ⟨s.db.now + cfg.nodeLeaseDuration, executedAt + cfg.nodeLeaseDuration⟩
              none }
    | _ => none
  | .deadlineExpires =>
    match s.phase with
    | .holding lease _ =>
      if lease.deadline ≤ s.db.now then some { s with phase := .fenced } else none
    | _ => none
  | .stop fault =>
    match s.phase with
    | .holding _ _ => some ⟨(fault.exec (releaseNodeLease nodeID) s.db).2, .down⟩
    | _ => none
  | .crash => some { s with phase := .down }
  | .takeOver peer connectionID =>
    some { s with
      db := (takeOverFailedNodeWorker peer connectionID nodeID cfg.nodeTakeoverMargin s.db).2 }

/-- The local deadline is not later than the durable expiry of the last successful registration or
renewal, and whenever a peer's takeover would go through, the node has reached its own deadline. -/
def LeaseSafe (cfg : Config) (nodeID : NodeID) (s : LeaseState) : Prop :=
  match s.phase with
  | .holding lease _ =>
    lease.deadline ≤ lease.grantedUntil ∧
      ∀ peer connectionID,
        (takeOverFailedNodeWorker peer connectionID nodeID cfg.nodeTakeoverMargin s.db).1 = true →
          lease.deadline ≤ s.db.now
  | _ => True

/-- The answer that grants a lease arrives at the instant the database executed the statement. -/
def AnsweredAtOnce (s : LeaseState) : LeaseAction → Prop
  | .registerAnswer =>
    match s.phase with
    | .registering (some (.ok true, executedAt)) => s.db.now = executedAt
    | _ => True
  | .renewalAnswer =>
    match s.phase with
    | .holding lease (some (some (.ok true, executedAt))) =>
      s.db.now < lease.deadline → s.db.now = executedAt
    | _ => True
  | _ => True

/-! ### What the database holds for the node -/

/-- The row of the node expires no earlier than `t` and no later than a statement executed now would
write. -/
def LeasedUntil (cfg : Config) (nodeID : NodeID) (t : ℕ) (db : Db) : Prop :=
  ∃ n, db.nodes.find? nodeID = some n ∧ t ≤ n.leaseExpiresAt ∧
    n.leaseExpiresAt ≤ db.now + cfg.nodeLeaseDuration

/-- An answer that grants the lease was executed in the past, and the row covers it. -/
def AnswerLeased (cfg : Config) (nodeID : NodeID) (db : Db) : Option LeaseAnswer → Prop
  | some (.ok true, executedAt) =>
    executedAt ≤ db.now ∧ LeasedUntil cfg nodeID (executedAt + cfg.nodeLeaseDuration) db
  | _ => True

/-- The durable row covers what the node believes and what is on its way to it. -/
def LeaseInv (cfg : Config) (nodeID : NodeID) (s : LeaseState) : Prop :=
  match s.phase with
  | .registering answer => AnswerLeased cfg nodeID s.db answer
  | .holding lease renewal =>
    LeasedUntil cfg nodeID lease.grantedUntil s.db ∧
      AnswerLeased cfg nodeID s.db (renewal.bind id)
  | _ => True

section Durable

variable {cfg : Config} {nodeID : NodeID} {t : ℕ} {db : Db}

theorem LeasedUntil.tick (h : LeasedUntil cfg nodeID t db) (elapsed : ℕ) :
    LeasedUntil cfg nodeID t { db with now := db.now + elapsed } := by
  obtain ⟨n, hn, ht, hle⟩ := h
  exact ⟨n, hn, ht, by show _ ≤ db.now + elapsed + _; omega⟩

theorem AnswerLeased.tick {answer : Option LeaseAnswer} (h : AnswerLeased cfg nodeID db answer)
    (elapsed : ℕ) : AnswerLeased cfg nodeID { db with now := db.now + elapsed } answer := by
  unfold AnswerLeased at h ⊢
  split at h
  · exact ⟨by show _ ≤ db.now + elapsed; omega, h.2.tick elapsed⟩
  · trivial

theorem registerNodeLease_true (h : (registerNodeLease nodeID cfg.nodeLeaseDuration db).1 = true) :
    LeasedUntil cfg nodeID (db.now + cfg.nodeLeaseDuration)
      (registerNodeLease nodeID cfg.nodeLeaseDuration db).2 := by
  have hput : LeasedUntil cfg nodeID (db.now + cfg.nodeLeaseDuration)
      { db with nodes := db.nodes.put nodeID ⟨db.now + cfg.nodeLeaseDuration⟩ } :=
    ⟨⟨db.now + cfg.nodeLeaseDuration⟩, Table.find?_put_self _ _ _, Nat.le_refl _, Nat.le_refl _⟩
  unfold registerNodeLease at h ⊢
  cases hn : db.nodes.find? nodeID with
  | none => exact hput
  | some n =>
    simp only [hn] at h ⊢
    by_cases hexp : n.leaseExpiresAt ≤ db.now
    · rw [if_pos hexp]
      exact hput
    · rw [if_neg hexp] at h
      cases h

theorem renewNodeLease_keeps (h : LeasedUntil cfg nodeID t db) :
    LeasedUntil cfg nodeID t (renewNodeLease nodeID cfg.nodeLeaseDuration db).2 := by
  obtain ⟨n, hn, ht, hle⟩ := h
  unfold renewNodeLease
  by_cases hlive : db.now < n.leaseExpiresAt
  · rw [Table.updateWhere_of_pos hn hlive]
    refine ⟨⟨db.now + cfg.nodeLeaseDuration⟩, Table.find?_put_self _ _ _, ?_, Nat.le_refl _⟩
    exact Nat.le_trans ht hle
  · rw [Table.updateWhere_of_not _ fun r hr hp => ?_]
    · exact ⟨n, hn, ht, hle⟩
    · rw [hn] at hr
      obtain rfl := Option.some.inj hr
      exact hlive hp

theorem renewNodeLease_true (h : (renewNodeLease nodeID cfg.nodeLeaseDuration db).1 = true) :
    LeasedUntil cfg nodeID (db.now + cfg.nodeLeaseDuration)
      (renewNodeLease nodeID cfg.nodeLeaseDuration db).2 := by
  obtain ⟨n, hn, hlive⟩ := Table.updateWhere_snd_iff.mp h
  unfold renewNodeLease
  rw [Table.updateWhere_of_pos hn hlive]
  exact ⟨⟨db.now + cfg.nodeLeaseDuration⟩, Table.find?_put_self _ _ _, Nat.le_refl _, Nat.le_refl _⟩

theorem exec_renewNodeLease_keeps (fault : Fault) (h : LeasedUntil cfg nodeID t db) :
    LeasedUntil cfg nodeID t (fault.exec (renewNodeLease nodeID cfg.nodeLeaseDuration) db).2 := by
  rcases fault.exec_snd (renewNodeLease nodeID cfg.nodeLeaseDuration) db with he | he
  · rw [he]
    exact h
  · rw [he]
    exact renewNodeLease_keeps h

theorem exec_answerLeased {stmt : Db → Bool × Db} (fault : Fault) (hnow : (stmt db).2.now = db.now)
    (htrue : (stmt db).1 = true →
      LeasedUntil cfg nodeID (db.now + cfg.nodeLeaseDuration) (stmt db).2) :
    AnswerLeased cfg nodeID (fault.exec stmt db).2 (some ((fault.exec stmt db).1, db.now)) := by
  cases hr : (fault.exec stmt db).1 with
  | error e => trivial
  | ok b =>
    cases b with
    | false => trivial
    | true =>
      obtain ⟨hb, hdb⟩ := Fault.exec_fst hr
      rw [hdb]
      exact ⟨by rw [hnow], htrue hb⟩

end Durable

/-! ### Runs -/

section Runs

variable {cfg : Config} {nodeID : NodeID} {s s' : LeaseState} {a : LeaseAction}

theorem registerNodeLease_now (d : ℕ) (db : Db) :
    (registerNodeLease nodeID d db).2.now = db.now := by
  unfold registerNodeLease
  split
  · rfl
  · split <;> rfl

theorem leaseStep_inv (hI : LeaseInv cfg nodeID s) (h : leaseStep cfg nodeID s a = some s') :
    LeaseInv cfg nodeID s' := by
  obtain ⟨db, phase⟩ := s
  cases a with
  | tick elapsed =>
    obtain rfl := Option.some.inj h
    cases phase with
    | down => trivial
    | registering answer => exact AnswerLeased.tick hI elapsed
    | holding lease renewal => exact ⟨hI.1.tick elapsed, hI.2.tick elapsed⟩
    | fenced => trivial
  | start =>
    cases phase <;> simp only [leaseStep, reduceCtorEq, Option.some.injEq] at h
    subst h
    trivial
  | register fault =>
    cases phase with
    | registering answer =>
      cases answer with
      | none =>
        obtain rfl := Option.some.inj h
        exact exec_answerLeased fault (registerNodeLease_now _ _) registerNodeLease_true
      | some answer => simp [leaseStep] at h
    | _ => simp [leaseStep] at h
  | registerAnswer =>
    cases phase with
    | registering answer =>
      rcases answer with _ | ⟨_ | _ | _, executedAt⟩ <;>
        simp only [leaseStep, reduceCtorEq, Option.some.injEq] at h <;> subst h
      · trivial
      · trivial
      · exact ⟨hI.2, trivial⟩
    | _ => simp [leaseStep] at h
  | sendRenewal =>
    cases phase with
    | holding lease renewal =>
      cases renewal <;> simp only [leaseStep, reduceCtorEq, Option.some.injEq] at h
      subst h
      exact ⟨hI.1, trivial⟩
    | _ => simp [leaseStep] at h
  | renew fault =>
    cases phase with
    | holding lease renewal =>
      rcases renewal with _ | _ | answer <;>
        simp only [leaseStep, reduceCtorEq, Option.some.injEq] at h
      subst h
      exact ⟨exec_renewNodeLease_keeps fault hI.1, exec_answerLeased fault rfl renewNodeLease_true⟩
    | _ => simp [leaseStep] at h
  | renewalAnswer =>
    cases phase with
    | holding lease renewal =>
      rcases renewal with _ | _ | ⟨answer, executedAt⟩ <;>
        simp only [leaseStep, reduceCtorEq] at h
      by_cases hdead : lease.deadline ≤ db.now
      · rw [if_pos hdead] at h
        obtain rfl := Option.some.inj h
        trivial
      · rw [if_neg hdead] at h
        rcases answer with e | _ | _ <;> obtain rfl := Option.some.inj h
        · exact ⟨hI.1, trivial⟩
        · trivial
        · exact ⟨hI.2.2, trivial⟩
    | _ => simp [leaseStep] at h
  | deadlineExpires =>
    cases phase with
    | holding lease renewal =>
      simp only [leaseStep] at h
      split at h
      · obtain rfl := Option.some.inj h
        trivial
      · cases h
    | _ => simp [leaseStep] at h
  | stop fault =>
    cases phase <;> simp only [leaseStep, reduceCtorEq, Option.some.injEq] at h
    subst h
    trivial
  | crash =>
    obtain rfl := Option.some.inj h
    trivial
  | takeOver peer connectionID =>
    obtain rfl := Option.some.inj h
    exact hI

theorem leaseSafe_of_within (hI : LeaseInv cfg nodeID s)
    (h : ∀ lease renewal, s.phase = .holding lease renewal → lease.deadline ≤ lease.grantedUntil) :
    LeaseSafe cfg nodeID s := by
  obtain ⟨db, phase⟩ := s
  cases phase with
  | holding lease renewal =>
    refine ⟨h lease renewal rfl, fun peer connectionID htaken => ?_⟩
    obtain ⟨r, -, -, -, n, hn, hexp⟩ := Table.updateWhere_snd_iff.mp htaken
    obtain ⟨⟨n', hn', hgranted, -⟩, -⟩ := hI
    have hsame : n' = n := Option.some.inj (hn'.symm.trans hn)
    have hwithin := h lease renewal rfl
    subst hsame
    show lease.deadline ≤ db.now
    have hexp' : n'.leaseExpiresAt + cfg.nodeTakeoverMargin ≤ db.now := hexp
    omega
  | _ => trivial

theorem leaseStep_holding {lease : LocalLease} {renewal : Option (Option LeaseAnswer)}
    (h : leaseStep cfg nodeID s a = some s') (hs' : s'.phase = .holding lease renewal) :
    (∃ r, s.phase = .holding lease r) ∨
      ∃ executedAt, lease =
          ⟨s.db.now + cfg.nodeLeaseDuration, executedAt + cfg.nodeLeaseDuration⟩ ∧
        (AnsweredAtOnce s a → s.db.now = executedAt) ∧
        (s.db.now = executedAt → AnsweredAtOnce s a) := by
  obtain ⟨db, phase⟩ := s
  cases a with
  | registerAnswer =>
    cases phase with
    | registering answer =>
      rcases answer with _ | ⟨_ | _ | _, executedAt⟩ <;>
        simp only [leaseStep, reduceCtorEq, Option.some.injEq] at h <;> subst h
      · cases hs'
      · cases hs'
      · simp only [LeasePhase.holding.injEq] at hs'
        exact Or.inr ⟨executedAt, hs'.1.symm, id, id⟩
    | _ => simp [leaseStep] at h
  | renewalAnswer =>
    cases phase with
    | holding lease₀ renewal₀ =>
      rcases renewal₀ with _ | _ | ⟨answer, executedAt⟩ <;>
        simp only [leaseStep, reduceCtorEq] at h
      by_cases hdead : lease₀.deadline ≤ db.now
      · rw [if_pos hdead] at h
        obtain rfl := Option.some.inj h
        cases hs'
      · rw [if_neg hdead] at h
        rcases answer with e | _ | _ <;> obtain rfl := Option.some.inj h
        · simp only [LeasePhase.holding.injEq] at hs'
          exact Or.inl ⟨_, by rw [hs'.1]⟩
        · cases hs'
        · simp only [LeasePhase.holding.injEq] at hs'
          exact Or.inr ⟨executedAt, hs'.1.symm, fun hC => hC (Nat.lt_of_not_le hdead),
            fun hnow _ => hnow⟩
    | _ => simp [leaseStep] at h
  | tick elapsed =>
    obtain rfl := Option.some.inj h
    exact Or.inl ⟨renewal, hs'⟩
  | start =>
    cases phase <;> simp only [leaseStep, reduceCtorEq, Option.some.injEq] at h
    subst h
    cases hs'
  | register fault =>
    cases phase with
    | registering answer =>
      cases answer <;> simp only [leaseStep, reduceCtorEq, Option.some.injEq] at h
      subst h
      cases hs'
    | _ => simp [leaseStep] at h
  | sendRenewal =>
    cases phase with
    | holding lease₀ renewal₀ =>
      cases renewal₀ <;> simp only [leaseStep, reduceCtorEq, Option.some.injEq] at h
      subst h
      simp only [LeasePhase.holding.injEq] at hs'
      exact Or.inl ⟨_, by rw [hs'.1]⟩
    | _ => simp [leaseStep] at h
  | renew fault =>
    cases phase with
    | holding lease₀ renewal₀ =>
      rcases renewal₀ with _ | _ | answer <;>
        simp only [leaseStep, reduceCtorEq, Option.some.injEq] at h
      subst h
      simp only [LeasePhase.holding.injEq] at hs'
      exact Or.inl ⟨_, by rw [hs'.1]⟩
    | _ => simp [leaseStep] at h
  | deadlineExpires =>
    cases phase with
    | holding lease₀ renewal₀ =>
      simp only [leaseStep] at h
      split at h
      · obtain rfl := Option.some.inj h
        cases hs'
      · cases h
    | _ => simp [leaseStep] at h
  | stop fault =>
    cases phase <;> simp only [leaseStep, reduceCtorEq, Option.some.injEq] at h
    subst h
    cases hs'
  | crash =>
    obtain rfl := Option.some.inj h
    cases hs'
  | takeOver peer connectionID =>
    obtain rfl := Option.some.inj h
    exact Or.inl ⟨renewal, hs'⟩

/-- The local deadline is not later than the durable expiry behind it. -/
def WithinDurable (s : LeaseState) : Prop :=
  ∀ lease renewal, s.phase = .holding lease renewal → lease.deadline ≤ lease.grantedUntil

theorem leaseStep_within (hw : WithinDurable s) (hC : AnsweredAtOnce s a)
    (h : leaseStep cfg nodeID s a = some s') : WithinDurable s' := by
  intro lease renewal hs'
  rcases leaseStep_holding h hs' with ⟨r, hr⟩ | ⟨executedAt, rfl, hnow, -⟩
  · exact hw lease r hr
  · have heq := hnow hC
    show s.db.now + _ ≤ executedAt + _
    omega

theorem answeredAtOnce_of_safe (hI : LeaseInv cfg nodeID s)
    (h : leaseStep cfg nodeID s a = some s') (hsafe : LeaseSafe cfg nodeID s') :
    AnsweredAtOnce s a := by
  obtain ⟨db, phase⟩ := s
  cases a with
  | registerAnswer =>
    cases phase with
    | registering answer =>
      rcases answer with _ | ⟨_ | _ | _, executedAt⟩ <;>
        simp only [leaseStep, reduceCtorEq, Option.some.injEq] at h <;> subst h
      · trivial
      · trivial
      · have hle : db.now + cfg.nodeLeaseDuration ≤ executedAt + cfg.nodeLeaseDuration := hsafe.1
        have hpast : executedAt ≤ db.now := hI.1
        show db.now = executedAt
        omega
    | _ => trivial
  | renewalAnswer =>
    cases phase with
    | holding lease renewal =>
      rcases renewal with _ | _ | ⟨_ | _ | _, executedAt⟩ <;> try trivial
      intro hlive
      have hlive' : db.now < lease.deadline := hlive
      simp only [leaseStep, if_neg (Nat.not_le.mpr hlive'), Option.some.injEq] at h
      subst h
      have hle : db.now + cfg.nodeLeaseDuration ≤ executedAt + cfg.nodeLeaseDuration := hsafe.1
      have hpast : executedAt ≤ db.now := hI.2.1
      show db.now = executedAt
      omega
    | _ => trivial
  | _ => trivial

/-- **Local and durable lease.**  In every run of a node, from any database and through any delays,
failures, restarts and takeovers, the local deadline stays inside the durable lease of its last
successful registration or renewal, and the node is past its deadline before a takeover can go
through, if and only if every answer that grants a lease arrives at the instant the database executed
the statement. -/
theorem local_lease_within_durable_iff (cfg : Config) (nodeID : NodeID) (db : Db)
    (as : List LeaseAction) :
    Always (leaseStep cfg nodeID) (LeaseSafe cfg nodeID) ⟨db, .down⟩ as ↔
      Meets (leaseStep cfg nodeID) AnsweredAtOnce ⟨db, .down⟩ as := by
  constructor
  · intro h
    exact meets_of_always (I := LeaseInv cfg nodeID)
      (fun s a s' hI hs _ => leaseStep_inv hI hs)
      (fun s a s' hI hs hsafe => answeredAtOnce_of_safe hI hs hsafe) trivial h
  · intro h
    have hboth : Always (leaseStep cfg nodeID)
        (fun s => LeaseInv cfg nodeID s ∧ WithinDurable s) ⟨db, .down⟩ as :=
      always_of_meets
        (fun s a s' hI hC hs => ⟨leaseStep_inv hI.1 hs, leaseStep_within hI.2 hC hs⟩)
        ⟨trivial, fun lease renewal hs => by cases hs⟩ h
    exact hboth.mono fun s hs => leaseSafe_of_within hs.1 hs.2

end Runs

/-! ### A slow renewal -/

/-- The defaults of `New`: a lease of 60 seconds and a takeover margin of 60 seconds. -/
def defaultLeaseConfig : Config where
  autoRestartEnabled := true
  autoRestartMaxRetries := 5
  maxWorkers := 0
  fleetMaxConnections := 0
  nodeLeaseDuration := 60
  nodeTakeoverMargin := 60

/-- The node registers at 0 and renews at 15, when `renewTimer` first fires; the database executes the
renewal at once and the answer arrives 30 seconds later. -/
def slowRenewal : List LeaseAction :=
  [.start, .register .ok, .registerAnswer, .tick 15, .sendRenewal, .renew .ok, .tick 30,
    .renewalAnswer]

/-- After the slow renewal the durable lease ends at 75 and the local deadline is 105. -/
theorem slow_renewal_outlives_durable_lease :
    ¬ Always (leaseStep defaultLeaseConfig 1) (LeaseSafe defaultLeaseConfig 1)
      ⟨⟨Table.empty, minimumWorkerIdentity, Table.empty, Table.empty, 0⟩, .down⟩ slowRenewal := by
  intro h
  obtain ⟨s, hrun, hphase⟩ : ∃ s, runActions (leaseStep defaultLeaseConfig 1)
      ⟨⟨Table.empty, minimumWorkerIdentity, Table.empty, Table.empty, 0⟩, .down⟩ slowRenewal = some s ∧
      s.phase = .holding ⟨105, 75⟩ none := ⟨_, rfl, rfl⟩
  have hsafe := always_iff_reached.mp h slowRenewal [] s rfl hrun
  rw [LeaseSafe, hphase] at hsafe
  exact absurd hsafe.1 (by decide)

end TeamInbox.Orchestrator
