import TeamInbox.Auth.Service

/-!
# TeamInbox.Auth.Revocation — a new password revokes the sessions of the old one

The password is checked before the transaction that creates the session, and the transaction looks at the
verification only.  The sessions of a replaced password are gone exactly in the runs in which no such transaction
finds another password than the one that was checked.
-/

namespace TeamInbox.Auth

open TeamInbox.Lib

variable {Hash Address : Type}

/-! ### What is claimed -/

/-- No session of a password that has been replaced, but the one that replaced it; none while the address is not
verified. -/
structure Revoked (s : AuthDb Hash Address) : Prop where
  replaced : ∀ x ∈ s.sessions, ∀ c ∈ s.changes, c.1 ≤ x.version ∨ c.2 = some x.id
  unverified : ∀ u ∈ s.user, u.emailVerifiedAt = none → s.sessions = []

/-- A session is created while the password that has been checked is still the user's. -/
def PasswordCurrent (t : Calls (AuthDb Hash Address) (AuthCall Hash Address)) :
    CallAction (AuthAction Address) Elapse → Prop
  | .act p .next => match t.calls p, t.shared.user with
    | .loggingIn version, some u => u.emailVerifiedAt.isSome = true → u.version = version
    | _, _ => True
  | _ => True

instance (t : Calls (AuthDb Hash Address) (AuthCall Hash Address)) (a : CallAction (AuthAction Address) Elapse) :
    Decidable (PasswordCurrent t a) := by
  unfold PasswordCurrent
  split
  · split <;> infer_instance
  · infer_instance

/-! ### Invariants -/

/-- The version of the password is that of the last change. -/
structure VersionInv (s : AuthDb Hash Address) : Prop where
  changesLe : ∀ u ∈ s.user, ∀ c ∈ s.changes, c.1 ≤ u.version
  latest : ∀ u ∈ s.user, u.version = 0 ∨ ∃ c ∈ s.changes, c.1 = u.version
  makers : ∀ c ∈ s.changes, ∀ i ∈ c.2, i < s.fresh
  sessionsOld : ∀ x ∈ s.sessions, x.id < s.fresh
  nobody : s.user = none → s.changes = [] ∧ s.sessions = []

theorem versionInv_empty : VersionInv (AuthDb.empty : AuthDb Hash Address) where
  changesLe := fun _ h => (nomatch h)
  latest := fun _ h => (nomatch h)
  makers := fun _ h => absurd h List.not_mem_nil
  sessionsOld := fun _ h => absurd h List.not_mem_nil
  nobody := fun _ => ⟨rfl, rfl⟩

def LoginOk (s : AuthDb Hash Address) : AuthCall Hash Address → Prop
  | .loggingIn version => ∃ u ∈ s.user, version ≤ u.version
  | .changing _ session => session < s.fresh
  | _ => True

structure VersionKept (s w : AuthDb Hash Address) : Prop where
  fresh : s.fresh ≤ w.fresh
  version : ∀ u ∈ s.user, ∃ u' ∈ w.user, u.version ≤ u'.version

theorem VersionKept.loginOk {s w : AuthDb Hash Address} (h : VersionKept s w) {x : AuthCall Hash Address}
    (hx : LoginOk s x) : LoginOk w x := by
  cases x with
  | loggingIn version =>
    obtain ⟨u, hu, hle⟩ := hx
    obtain ⟨u', hu', hle'⟩ := h.version u hu
    exact ⟨u', hu', Nat.le_trans hle hle'⟩
  | changing hash session => exact Nat.lt_of_lt_of_le hx h.fresh
  | _ => trivial

/-- A step that creates no session and sets no password, and takes the verification away only with the sessions. -/
structure SessionFrame (s w : AuthDb Hash Address) : Prop where
  sessions : ∀ x' ∈ w.sessions, ∃ x ∈ s.sessions, x'.id = x.id ∧ x'.version = x.version
  changes : w.changes = s.changes
  fresh : s.fresh ≤ w.fresh
  user : ∀ u' ∈ w.user, ∃ u ∈ s.user, u'.version = u.version ∧
    (u'.emailVerifiedAt = none → u.emailVerifiedAt = none ∨ w.sessions = [])
  kept : ∀ u ∈ s.user, ∃ u' ∈ w.user, u'.version = u.version

theorem SessionFrame.versionKept {s w : AuthDb Hash Address} (h : SessionFrame s w) : VersionKept s w where
  fresh := h.fresh
  version := fun u hu => by
    obtain ⟨u', hu', heq⟩ := h.kept u hu
    exact ⟨u', hu', Nat.le_of_eq heq.symm⟩

theorem SessionFrame.same {s w : AuthDb Hash Address} (hsessions : ∀ x ∈ w.sessions, x ∈ s.sessions)
    (hchanges : w.changes = s.changes) (hfresh : s.fresh ≤ w.fresh) (huser : w.user = s.user) : SessionFrame s w where
  sessions := fun x hx => ⟨x, hsessions x hx, rfl, rfl⟩
  changes := hchanges
  fresh := hfresh
  user := fun u hu => ⟨u, by rw [← huser]; exact hu, rfl, .inl⟩
  kept := fun u hu => ⟨u, by rw [huser]; exact hu, rfl⟩

theorem SessionFrame.rfl {s : AuthDb Hash Address} : SessionFrame s s :=
  .same (fun _ h => h) (Eq.refl _) (Nat.le_refl _) (Eq.refl _)

theorem VersionInv.frame {s w : AuthDb Hash Address} (hI : VersionInv s) (h : SessionFrame s w) : VersionInv w where
  changesLe := fun u' hu' c hc => by
    obtain ⟨u, hu, hversion, -⟩ := h.user u' hu'
    rw [h.changes] at hc
    rw [hversion]
    exact hI.changesLe u hu c hc
  latest := fun u' hu' => by
    obtain ⟨u, hu, hversion, -⟩ := h.user u' hu'
    rw [h.changes, hversion]
    exact hI.latest u hu
  makers := fun c hc i hi => by
    rw [h.changes] at hc
    exact Nat.lt_of_lt_of_le (hI.makers c hc i hi) h.fresh
  sessionsOld := fun x' hx' => by
    obtain ⟨x, hx, hid, -⟩ := h.sessions x' hx'
    rw [hid]
    exact Nat.lt_of_lt_of_le (hI.sessionsOld x hx) h.fresh
  nobody := fun hnone => by
    have hs : s.user = none := by
      by_contra hsome
      obtain ⟨u, hu⟩ := Option.ne_none_iff_exists'.mp hsome
      obtain ⟨u', hu', -⟩ := h.kept u hu
      rw [hnone] at hu'
      exact nomatch hu'
    obtain ⟨hchanges, hsessions⟩ := hI.nobody hs
    refine ⟨h.changes.trans hchanges, List.eq_nil_iff_forall_not_mem.mpr fun x' hx' => ?_⟩
    obtain ⟨x, hx, -⟩ := h.sessions x' hx'
    rw [hsessions] at hx
    exact absurd hx List.not_mem_nil

theorem Revoked.frame {s w : AuthDb Hash Address} (hR : Revoked s) (h : SessionFrame s w) : Revoked w where
  replaced := fun x' hx' c hc => by
    obtain ⟨x, hx, hid, hversion⟩ := h.sessions x' hx'
    rw [h.changes] at hc
    rw [hid, hversion]
    exact hR.replaced x hx c hc
  unverified := fun u' hu' hnone => by
    obtain ⟨u, hu, -, hverified⟩ := h.user u' hu'
    rcases hverified hnone with hu0 | hempty
    · refine List.eq_nil_iff_forall_not_mem.mpr fun x' hx' => ?_
      obtain ⟨x, hx, -⟩ := h.sessions x' hx'
      rw [hR.unverified u hu hu0] at hx
      exact absurd hx List.not_mem_nil
    · exact hempty

/-! ### The operations -/

section Operations

variable {s w : AuthDb Hash Address} {u : User Hash Address}

theorem mem_user_of (hu : s.user = some u) {u' : User Hash Address} (h : u' ∈ s.user) : u' = u :=
  Option.some.inj ((Option.mem_def.mp h).symm.trans hu)

/-- What setting a password leaves, with the sessions revoked but for one. -/
structure PasswordSet (s : AuthDb Hash Address) (u : User Hash Address) (maker : Option ℕ) (w : AuthDb Hash Address) :
    Prop where
  user : ∃ u', w.user = some u' ∧ u'.version = u.version + 1 ∧ u'.emailVerifiedAt = u.emailVerifiedAt
  changes : w.changes = (u.version + 1, maker) :: s.changes
  sessions : ∀ x ∈ w.sessions, x ∈ s.sessions ∧ maker = some x.id
  fresh : w.fresh = s.fresh

theorem PasswordSet.versionKept {maker : Option ℕ} (h : PasswordSet s u maker w) (hu : s.user = some u) :
    VersionKept s w where
  fresh := Nat.le_of_eq h.fresh.symm
  version := fun v hv => by
    obtain ⟨u', hu', hversion, -⟩ := h.user
    refine ⟨u', hu', ?_⟩
    rw [mem_user_of hu hv, hversion]
    exact Nat.le_succ _

theorem VersionInv.passwordSet (hI : VersionInv s) (hu : s.user = some u) {maker : Option ℕ}
    (hmaker : ∀ i ∈ maker, i < s.fresh) (h : PasswordSet s u maker w) : VersionInv w where
  changesLe := fun u₁ hu₁ c hc => by
    obtain ⟨u', hu', hversion, -⟩ := h.user
    rw [mem_user_of hu' hu₁, hversion]
    rw [h.changes] at hc
    rcases List.mem_cons.mp hc with rfl | hc
    · exact Nat.le_refl _
    · exact Nat.le_succ_of_le (hI.changesLe u hu c hc)
  latest := fun u₁ hu₁ => by
    obtain ⟨u', hu', hversion, -⟩ := h.user
    rw [mem_user_of hu' hu₁, hversion, h.changes]
    exact .inr ⟨_, List.mem_cons_self, rfl⟩
  makers := fun c hc i hi => by
    rw [h.changes] at hc
    rw [h.fresh]
    rcases List.mem_cons.mp hc with rfl | hc
    · exact hmaker i hi
    · exact hI.makers c hc i hi
  sessionsOld := fun x hx => by
    rw [h.fresh]
    exact hI.sessionsOld x (h.sessions x hx).1
  nobody := fun hnone => by
    obtain ⟨u', hu', -⟩ := h.user
    rw [hu'] at hnone
    exact absurd hnone (Option.some_ne_none u')

theorem Revoked.passwordSet (hR : Revoked s) (hu : s.user = some u) {maker : Option ℕ} (h : PasswordSet s u maker w) :
    Revoked w where
  replaced := fun x hx c hc => by
    obtain ⟨hx, hmaker⟩ := h.sessions x hx
    rw [h.changes] at hc
    rcases List.mem_cons.mp hc with rfl | hc
    · exact .inr hmaker
    · exact hR.replaced x hx c hc
  unverified := fun u₁ hu₁ hnone => by
    obtain ⟨u', hu', -, hverified⟩ := h.user
    rw [mem_user_of hu' hu₁, hverified] at hnone
    refine List.eq_nil_iff_forall_not_mem.mpr fun x hx => ?_
    have hx : x ∈ s.sessions := (h.sessions x hx).1
    rw [hR.unverified u hu hnone] at hx
    exact absurd hx List.not_mem_nil

theorem changeWrite_passwordSet (hu : s.user = some u) (hash : Hash) (session : ℕ) :
    PasswordSet s u (some session) (s.changeWrite hash session) := by
  unfold AuthDb.changeWrite
  rw [hu]
  refine ⟨⟨_, rfl, rfl, rfl⟩, rfl, fun x hx => ?_, rfl⟩
  obtain ⟨hx, hkeep⟩ := List.mem_filter.mp hx
  exact ⟨hx, (of_decide_eq_true hkeep).symm⟩

theorem resetPassword_cases (hu : s.user = some u) (token : ℕ) (hash : Hash) :
    s.resetPassword token hash = s ∨ PasswordSet s u none (s.resetPassword token hash) := by
  unfold AuthDb.resetPassword
  rw [hu]
  by_cases hstored : s.stored token .passwordReset = true
  · right
    simp only [hstored, if_true]
    refine ⟨⟨_, rfl, rfl, rfl⟩, rfl, fun x hx => ?_, rfl⟩
    obtain ⟨-, hkeep⟩ := List.mem_filter.mp hx
    exact absurd (of_decide_eq_true hkeep) (Option.some_ne_none x.id)
  · left
    simp only [hstored]
    rfl

theorem verifyEmail_frame (s : AuthDb Hash Address) (token : ℕ) : SessionFrame s (s.verifyEmail token) := by
  unfold AuthDb.verifyEmail
  split
  · exact .rfl
  · next u hu =>
    split_ifs
    · refine ⟨fun x hx => ⟨x, hx, rfl, rfl⟩, rfl, Nat.le_refl _, fun u' hu' => ?_, fun v hv => ?_⟩
      · obtain rfl := Option.some.inj hu'
        exact ⟨u, hu, rfl, fun hnone => absurd hnone (Option.some_ne_none _)⟩
      · rw [mem_user_of hu hv]
        exact ⟨_, rfl, rfl⟩
    · exact .rfl

theorem deleteSessions_session (s : AuthDb Hash Address) (keep : Option ℕ) : SessionFrame s (s.deleteSessions keep) :=
  .same (fun _ hx => (List.mem_filter.mp hx).1) rfl (Nat.le_refl _) rfl

theorem updateWrite_frame (s : AuthDb Hash Address) (email : Option Address) :
    SessionFrame s (s.updateWrite email).1 := by
  cases email with
  | none =>
    rw [AuthDb.updateWrite_none]
    exact .rfl
  | some e =>
    cases hu : s.user with
    | none =>
      rw [AuthDb.updateWrite_missing hu]
      exact .rfl
    | some u =>
      rw [AuthDb.updateWrite_some hu]
      have hgone : ∀ l : List UserSession, l.filter (fun x => decide (some x.id = none)) = [] := fun l =>
        List.filter_eq_nil_iff.mpr fun x _ h => Option.some_ne_none x.id (of_decide_eq_true h)
      refine ⟨fun x hx => ⟨x, (List.mem_filter.mp hx).1, rfl, rfl⟩, rfl, Nat.le_succ _, fun u' hu' => ?_, fun v hv => ?_⟩
      · obtain rfl := Option.some.inj hu'
        exact ⟨u, hu, rfl, fun _ => .inr (hgone _)⟩
      · rw [mem_user_of hu hv]
        exact ⟨_, rfl, rfl⟩

theorem refreshSession_session (E : AuthEnv Hash) (s : AuthDb Hash Address) (session hash : ℕ) :
    SessionFrame s (s.refreshSession E session hash) := by
  unfold AuthDb.refreshSession
  split
  · split_ifs
    · exact .same (fun _ hx => (List.mem_filter.mp hx).1) rfl (Nat.le_refl _) rfl
    · refine ⟨fun x' hx' => ?_, rfl, Nat.le_succ _, fun u hu => ⟨u, hu, rfl, .inl⟩, fun u hu => ⟨u, hu, rfl⟩⟩
      obtain ⟨x, hx, rfl⟩ := List.mem_map.mp hx'
      refine ⟨x, hx, ?_⟩
      split_ifs
      · exact ⟨rfl, rfl⟩
      · exact ⟨rfl, rfl⟩
    · exact .rfl
  · exact .rfl

theorem loginCreate_verified (E : AuthEnv Hash) (hu : s.user = some u) (hverified : u.emailVerifiedAt.isSome = true)
    (version : ℕ) : s.loginCreate E version = { s with
      sessions := ⟨s.fresh, s.fresh + 1, [], s.now + E.refreshTtlMs, version⟩ :: s.sessions
      fresh := s.fresh + 2 } := by
  obtain ⟨time, htime⟩ := Option.isSome_iff_exists.mp hverified
  have hsome : ¬ u.emailVerifiedAt.isNone = true := by
    rw [htime]
    exact Bool.false_ne_true
  unfold AuthDb.loginCreate
  rw [hu]
  simp only [hsome]
  rfl

theorem loginCreate_cases (E : AuthEnv Hash) (s : AuthDb Hash Address) (version : ℕ) :
    SessionFrame s (s.loginCreate E version) ∨ ∃ u, s.user = some u ∧ u.emailVerifiedAt.isSome = true := by
  cases hu : s.user with
  | none =>
    left
    unfold AuthDb.loginCreate
    rw [hu]
    exact .rfl
  | some u =>
    by_cases hverified : u.emailVerifiedAt.isSome = true
    · exact .inr ⟨u, rfl, hverified⟩
    · left
      have hnone : u.emailVerifiedAt.isNone = true := by
        rw [Option.isNone_iff_eq_none]
        exact Option.not_isSome_iff_eq_none.mp hverified
      unfold AuthDb.loginCreate
      rw [hu]
      simp only [hnone, if_true]
      exact deleteSessions_session s none

end Operations

/-! ### Runs -/

section Runs

variable {E : AuthEnv Hash} {s w : AuthDb Hash Address} {x y : AuthCall Hash Address}

/-- The steps of a call, by what becomes of the sessions and the password. -/
inductive LoginMove (E : AuthEnv Hash) (s : AuthDb Hash Address) (x : AuthCall Hash Address) :
    AuthDb Hash Address → AuthCall Hash Address → Prop
  | frame {w : AuthDb Hash Address} {y : AuthCall Hash Address} (h : SessionFrame s w) (hy : LoginOk w y) :
    LoginMove E s x w y
  | password {w : AuthDb Hash Address} {u : User Hash Address} {maker : Option ℕ} (hu : s.user = some u)
      (hmaker : ∀ i ∈ maker, i < s.fresh) (h : PasswordSet s u maker w) : LoginMove E s x w .idle
  | create {u : User Hash Address} {version : ℕ} (hx : x = .loggingIn version) (hu : s.user = some u)
      (hverified : u.emailVerifiedAt.isSome = true) :
    LoginMove E s x { s with
      sessions := ⟨s.fresh, s.fresh + 1, [], s.now + E.refreshTtlMs, version⟩ :: s.sessions
      fresh := s.fresh + 2 } .idle
  | register {email : Address} {hash : Hash} (hu : s.user = none) :
    LoginMove E s x
      (({ s with user := some ⟨email, hash, none, 0⟩ } : AuthDb Hash Address).issueAuthToken .emailVerification email)
      (.mailing s.fresh email .emailVerification)

theorem LoginMove.readOnly {y' : AuthCall Hash Address} (hy : LoginOk s y) (h : some (s, y) = some (w, y')) :
    LoginMove E s x w y' := by
  obtain ⟨rfl, rfl⟩ := Prod.mk.inj (Option.some.inj h)
  exact .frame .rfl hy

theorem authNext_move (hx : LoginOk s x) (h : authNext E s x = some (w, y)) : LoginMove E s x w y := by
  cases x with
  | idle | mailing => exact nomatch h
  | registering email hash =>
    have h : s.register email hash = (w, y) := Option.some.inj h
    cases hu : s.user with
    | some u =>
      rw [AuthDb.register_taken hu] at h
      obtain ⟨rfl, rfl⟩ := Prod.mk.inj h
      exact .frame .rfl trivial
    | none =>
      rw [AuthDb.register_new hu] at h
      obtain ⟨rfl, rfl⟩ := Prod.mk.inj h
      exact .register hu
  | resending email | forgetting email =>
    obtain ⟨rfl, rfl⟩ := Prod.mk.inj (Option.some.inj h)
    exact .frame (.same (fun _ hx => hx) rfl (Nat.le_refl _) rfl) trivial
  | resendCleared email | forgetCleared email =>
    obtain ⟨rfl, rfl⟩ := Prod.mk.inj (Option.some.inj h)
    exact .frame (.same (fun _ hx => hx) rfl (Nat.le_succ _) rfl) trivial
  | updating email =>
    have h : s.updateWrite email = (w, y) := Option.some.inj h
    have hw : w = (s.updateWrite email).1 := congrArg Prod.fst h.symm
    have hy : LoginOk w y := by
      cases email with
      | none =>
        rw [AuthDb.updateWrite_none] at h
        rw [← (Prod.mk.inj h).2]
        trivial
      | some e =>
        cases hu : s.user with
        | none =>
          rw [AuthDb.updateWrite_missing hu] at h
          rw [← (Prod.mk.inj h).2]
          trivial
        | some u =>
          rw [AuthDb.updateWrite_some hu] at h
          rw [← (Prod.mk.inj h).2]
          trivial
    exact .frame (hw ▸ updateWrite_frame s email) hy
  | discarding token =>
    obtain ⟨rfl, rfl⟩ := Prod.mk.inj (Option.some.inj h)
    exact .frame (.same (fun _ hx => hx) rfl (Nat.le_refl _) rfl) trivial
  | loginUnverified =>
    obtain ⟨rfl, rfl⟩ := Prod.mk.inj (Option.some.inj h)
    exact .frame (deleteSessions_session s none) trivial
  | loggingIn version =>
    obtain ⟨rfl, rfl⟩ := Prod.mk.inj (Option.some.inj h)
    rcases loginCreate_cases E s version with hframe | ⟨u, hu, hverified⟩
    · exact .frame hframe trivial
    · rw [loginCreate_verified E hu hverified]
      exact .create rfl hu hverified
  | changing hash session =>
    have h : (s.changeWrite hash session, AuthCall.idle) = (w, y) := Option.some.inj h
    obtain ⟨hw, rfl⟩ := Prod.mk.inj h
    cases hu : s.user with
    | none =>
      have hsame : s.changeWrite hash session = s := by
        unfold AuthDb.changeWrite
        rw [hu]
      rw [← hw, hsame]
      exact .frame .rfl trivial
    | some u =>
      refine .password hu (fun i hi => ?_) (hw ▸ changeWrite_passwordSet hu hash session)
      obtain rfl := Option.some.inj hi
      exact hx

theorem LoginMove.versionInv (hI : VersionInv s) (h : LoginMove E s x w y) :
    VersionInv w ∧ LoginOk w y ∧ VersionKept s w := by
  cases h with
  | frame hframe hy => exact ⟨hI.frame hframe, hy, hframe.versionKept⟩
  | password hu hmaker hset => exact ⟨hI.passwordSet hu hmaker hset, trivial, hset.versionKept hu⟩
  | create hx hu hverified =>
    refine ⟨⟨hI.changesLe, hI.latest, fun c hc i hi => ?_, fun z hz => ?_, fun hnone => ?_⟩, trivial, ?_, fun u hu =>
      ⟨u, hu, Nat.le_refl _⟩⟩
    · exact Nat.lt_of_lt_of_le (hI.makers c hc i hi) (Nat.le_add_right _ _)
    · rcases List.mem_cons.mp hz with rfl | hz
      · exact Nat.lt_add_of_pos_right Nat.two_pos
      · exact Nat.lt_of_lt_of_le (hI.sessionsOld z hz) (Nat.le_add_right _ _)
    · exact absurd (hu.symm.trans hnone) (Option.some_ne_none _)
    · exact Nat.le_add_right _ _
  | register hu =>
    obtain ⟨hchanges, hsessions⟩ := hI.nobody hu
    refine ⟨⟨fun v hv c hc => ?_, fun v hv => ?_, fun c hc => ?_, fun z hz => ?_, fun hnone => ?_⟩, trivial,
      Nat.le_succ _, fun v hv => ?_⟩
    · have hc : c ∈ s.changes := hc
      rw [hchanges] at hc
      exact absurd hc List.not_mem_nil
    · obtain rfl := Option.some.inj hv
      exact .inl rfl
    · have hc : c ∈ s.changes := hc
      rw [hchanges] at hc
      exact absurd hc List.not_mem_nil
    · have hz : z ∈ s.sessions := hz
      rw [hsessions] at hz
      exact absurd hz List.not_mem_nil
    · exact nomatch hnone
    · rw [hu] at hv
      exact nomatch hv

theorem LoginMove.revoked (hI : VersionInv s) (hR : Revoked s) (h : LoginMove E s x w y)
    (hC : ∀ version, x = .loggingIn version → ∀ u ∈ s.user, u.emailVerifiedAt.isSome = true → u.version = version) :
    Revoked w := by
  cases h with
  | frame hframe hy => exact hR.frame hframe
  | password hu hmaker hset => exact hR.passwordSet hu hset
  | create hx hu hverified =>
    rename_i u version
    have hversion : u.version = version := hC version hx u hu hverified
    refine ⟨fun z hz c hc => ?_, fun v hv hnone => ?_⟩
    · rcases List.mem_cons.mp hz with rfl | hz
      · exact .inl (hversion ▸ hI.changesLe u hu c hc)
      · exact hR.replaced z hz c hc
    · rw [mem_user_of hu hv] at hnone
      rw [hnone] at hverified
      exact nomatch hverified
  | register hu =>
    obtain ⟨-, hsessions⟩ := hI.nobody hu
    refine ⟨fun z hz => ?_, fun _ _ _ => hsessions⟩
    have hz : z ∈ s.sessions := hz
    rw [hsessions] at hz
    exact absurd hz List.not_mem_nil

variable [DecidableEq Address]

theorem authRequest_move {a : AuthAction Address} (h : authRequest E s a = some (w, y)) : LoginMove E s x w y := by
  cases authRequest_cases E h with
  | reads hy =>
    refine .frame .rfl ?_
    cases hy with
    | loggingIn hu => exact ⟨_, hu, Nat.le_refl _⟩
    | changing hsession => exact hsession
    | done | registering | unverified | resending | forgetting | updating => trivial
  | verifies => exact .frame (verifyEmail_frame s _) trivial
  | resets =>
    rename_i token hash hmailed
    cases hu : s.user with
    | none =>
      have hsame : s.resetPassword token hash = s := by
        unfold AuthDb.resetPassword
        rw [hu]
      rw [hsame]
      exact .frame .rfl trivial
    | some u =>
      rcases resetPassword_cases hu token hash with hsame | hset
      · rw [hsame]
        exact .frame .rfl trivial
      · have hmaker : ∀ i ∈ (none : Option ℕ), i < s.fresh := fun _ hi => (nomatch hi)
        exact .password hu hmaker hset
  | refreshes => exact .frame (refreshSession_session E s _ _) trivial
  | revokes => exact .frame (.same (fun _ hx => (List.mem_filter.mp hx).1) rfl (Nat.le_refl _) rfl) trivial

theorem authAct_move (hx : LoginOk s x) {a : AuthAction Address} (h : authAct E s x a = some (w, y)) :
    LoginMove E s x w y := by
  unfold authAct at h
  split at h
  · obtain ⟨rfl, rfl⟩ := Prod.mk.inj (Option.some.inj h)
    refine .frame (.same (fun _ hx => hx) rfl (Nat.le_refl _) rfl) ?_
    split_ifs <;> trivial
  · exact authRequest_move h
  · exact authNext_move hx h
  · exact .readOnly (y := .idle) trivial h
  · exact nomatch h

def VersionsHold : Calls (AuthDb Hash Address) (AuthCall Hash Address) → Prop :=
  Holds VersionInv fun s _ x => LoginOk s x

theorem versionsHold_step (t : Calls (AuthDb Hash Address) (AuthCall Hash Address))
    (a : CallAction (AuthAction Address) Elapse) (t' : Calls (AuthDb Hash Address) (AuthCall Hash Address))
    (hI : VersionsHold t) (h : (authSystem E).step t a = some t') : VersionsHold t' := by
  refine Machine.holds_step (M := authSystem E) (C := fun _ _ => True) (fun t p a w x hI _ hact => ?_)
    (fun t e w hI _ henv => ?_) t a t' hI trivial h
  · obtain ⟨hw, hx, hkept⟩ := (authAct_move (hI.2 p) hact).versionInv hI.1
    exact ⟨hw, hx, fun q _ => hkept.loginOk (hI.2 q)⟩
  · obtain rfl := Option.some.inj henv
    have hframe : SessionFrame t.shared { t.shared with now := t.shared.now + e.ms } :=
      .same (fun _ hx => hx) rfl (Nat.le_refl _) rfl
    exact ⟨hI.1.frame hframe, fun q => hframe.versionKept.loginOk (hI.2 q)⟩

theorem revoked_step (t : Calls (AuthDb Hash Address) (AuthCall Hash Address))
    (a : CallAction (AuthAction Address) Elapse) (t' : Calls (AuthDb Hash Address) (AuthCall Hash Address))
    (hI : VersionsHold t) (hR : Revoked t.shared) (hC : PasswordCurrent t a)
    (h : (authSystem E).step t a = some t') : Revoked t'.shared := by
  cases a with
  | env e =>
    obtain ⟨w, henv, rfl⟩ := Machine.step_env h
    obtain rfl := Option.some.inj henv
    exact hR.frame (.same (fun _ hx => hx) rfl (Nat.le_refl _) rfl)
  | act p a =>
    obtain ⟨w, x, hact, rfl⟩ := Machine.step_act h
    have hact : authAct E t.shared (t.calls p) a = some (w, x) := hact
    have hmove : LoginMove E t.shared (t.calls p) w x := authAct_move (hI.2 p) hact
    -- of a call that is logging in, only the next statement creates a session
    by_cases hlogin : a ≠ .next ∧ ∃ version, t.calls p = .loggingIn version
    · obtain ⟨ha, version, hx⟩ := hlogin
      rw [hx] at hact
      cases a with
      | next => exact absurd rfl ha
      | fail =>
        have hw : w = t.shared := (Prod.mk.inj (Option.some.inj hact)).1.symm
        rw [Calls.shared_set, hw]
        exact hR
      | _ => exact nomatch hact
    · refine hmove.revoked hI.1 hR fun version hx u hu hverified => ?_
      have ha : a = .next := by
        by_contra ha
        exact hlogin ⟨ha, version, hx⟩
      subst ha
      have hC : match t.calls p, t.shared.user with
        | .loggingIn version, some u => u.emailVerifiedAt.isSome = true → u.version = version
        | _, _ => True := hC
      rw [hx, hu] at hC
      exact hC hverified

theorem passwordCurrent_of_revoked (t : Calls (AuthDb Hash Address) (AuthCall Hash Address))
    (a : CallAction (AuthAction Address) Elapse) (t' : Calls (AuthDb Hash Address) (AuthCall Hash Address))
    (hI : VersionsHold t) (h : (authSystem E).step t a = some t') (hR : Revoked t'.shared) : PasswordCurrent t a := by
  unfold PasswordCurrent
  split
  · next p =>
    split
    · next version u hx hu =>
      intro hverified
      obtain ⟨w, y, hact, rfl⟩ := Machine.step_act h
      have hact : authAct E t.shared (t.calls p) .next = some (w, y) := hact
      rw [hx] at hact
      have hw : t.shared.loginCreate E version = w := (Prod.mk.inj (Option.some.inj hact)).1
      obtain ⟨v, hv, hle⟩ : LoginOk t.shared (.loggingIn version) := hx ▸ hI.2 p
      rw [mem_user_of hu hv] at hle
      by_contra hne
      rcases hI.1.latest u hu with hzero | ⟨c, hc, hlast⟩
      · omega
      · rw [loginCreate_verified E hu hverified] at hw
        subst hw
        -- the session is of an older password than the last change, and nobody's
        rcases hR.replaced _ List.mem_cons_self c hc with hle' | hmaker
        · have hle' : c.1 ≤ version := hle'
          omega
        · exact absurd (hI.1.makers c hc _ hmaker) (Nat.lt_irrefl _)
    · trivial
  · trivial

/-- **A new password revokes the old one's sessions**, and an email change all, exactly as long as no session is
created for a password that has been replaced since it was checked. -/
theorem old_password_revoked (E : AuthEnv Hash) (as : List (CallAction (AuthAction Address) Elapse)) :
    Meets (authSystem E).step PasswordCurrent (.start .empty .idle) as ↔
      Always (authSystem E).step (fun t => Revoked t.shared) (.start .empty .idle) as := by
  have hversions : VersionsHold (.start (.empty : AuthDb Hash Address) .idle) :=
    holds_start versionInv_empty fun _ => trivial
  have hstart : Revoked (AuthDb.empty : AuthDb Hash Address) :=
    ⟨fun _ h => absurd h List.not_mem_nil, fun _ h => (nomatch h)⟩
  constructor
  · intro h
    have hrun : Always (authSystem E).step (fun t => VersionsHold t ∧ Revoked t.shared) (.start .empty .idle) as :=
      always_of_meets (fun t a t' hI hC hstep =>
        ⟨versionsHold_step t a t' hI.1 hstep, revoked_step t a t' hI.1 hI.2 hC hstep⟩) ⟨hversions, hstart⟩ h
    exact hrun.mono fun _ hI => hI.2
  · intro h
    exact meets_of_always (I := VersionsHold) (fun t a t' hI hstep _ => versionsHold_step t a t' hI hstep)
      (fun t a t' hI hstep hR => passwordCurrent_of_revoked t a t' hI hstep hR) hversions h

end Runs

/-- A sign-in whose password is reset between the check and the transaction. -/
theorem old_password_signs_in : ¬ ∀ as, Always (authSystem plainEnv).step
    (fun t : Calls (AuthDb (ℕ × String) String) _ => Revoked t.shared) (.start .empty .idle) as := by
  intro h
  have hend := always_iff_reached.mp (h [.act 0 (.register "a" "p" 0), .act 0 .next, .act 0 (.mail true),
    .act 0 (.verifyEmail 0), .act 1 (.forgotPassword "a"), .act 1 .next, .act 1 .next, .act 1 (.mail true),
    .act 2 (.login "a" "p"), .act 1 (.resetPassword 1 "q" 1), .act 2 .next]) _ [] _ (List.append_nil _).symm rfl
  have hold : 1 ≤ 0 ∨ (none : Option ℕ) = some 2 := hend.replaced _ List.mem_cons_self (1, none) List.mem_cons_self
  exact absurd hold (by decide)

end TeamInbox.Auth
