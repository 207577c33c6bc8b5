import TeamInbox.Api.SessionEvents
import TeamInbox.Api.StoredStatus

/-!
# TeamInbox.Api.EndedSessions — the events of ended sessions

An event is looked up by its session and applied to the connection.  What is looked up after the session has ended
is dropped, except that a drop, a logout and the status of a worker are stored whatever session they come from.  None
of these touches the identity of the account or opens a session again.
-/

namespace TeamInbox.Api

open TeamInbox.Lib

def ConnectionEvent.pairs (e : ConnectionEvent) : Bool := decide (e.type = .connected ∨ e.type = .paired)

def SessionEvent.pairs : SessionEvent → Bool
  | .connection e => e.pairs
  | _ => false

def SessionEvent.logsOut : SessionEvent → Bool
  | .connection e => decide (e.type = .loggedOut)
  | _ => false

/-- The event is let through whatever has become of its session. -/
def SessionEvent.terminal : SessionEvent → Bool
  | .connection e => decide (e.type = .disconnected ∨ e.type = .loggedOut)
  | .connectionStatus _ => true
  | .qr _ => false

namespace EventCall

def event : EventCall → Option SessionEvent
  | .idle => none
  | .received e _ | .updating e _ _ _ => some e
  | .identifying e _ _ | .resuming e _ _ | .looking e _ _ | .linking e _ _ | .admitting e _ _ | .claiming e _ _
  | .stopping e _ _ _ _ | .expiring e _ _ | .dropping e _ _ => some (.connection e)

def session : EventCall → Option SessionID
  | .idle => none
  | .received _ sid | .updating _ sid _ _ | .identifying _ sid _ | .resuming _ sid _ | .looking _ sid _
  | .linking _ sid _ | .admitting _ sid _ | .claiming _ sid _ | .stopping _ sid _ _ _ | .expiring _ sid _
  | .dropping _ sid _ => some sid

end EventCall

/-- The columns that say whose account a connection is. -/
def Connection.identity (c : Connection) : Option String × Option String × Option ℕ := (c.phoneNumber, c.jid, c.archivedAt)

/-- Sessions have identifiers of their own, and the ended ones are those with an end. -/
structure SessionRows (db : TenantDb) : Prop where
  keyed : (db.sessions.map Session.id).Nodup
  ended : ∀ r ∈ db.sessions, r.status = .ended ↔ r.endedAt.isSome = true

/-- A session that has ended is opened only by a claim of its own; events that are not terminal are dropped then; and
events that claim no identity leave it alone, and the stamp if they are not logouts. -/
structure EndedInert (t : Calls EventState EventCall) (a : CallAction EventAction AccountAction)
    (t' : Calls EventState EventCall) : Prop where
  ended : ∀ sid r r', t.shared.db.session? sid = some r → r.endedAt.isSome = true →
    t'.shared.db.session? sid = some r' → r'.endedAt.isSome = true ∨
      ∃ p now e cid, a = .act p (.next now) ∧ t.calls p = .claiming e sid cid
  dropped : ∀ p now e sid r, a = .act p (.next now) → t.calls p = .received e sid → e.terminal = false →
    t.shared.db.session? sid = some r → r.endedAt.isSome = true → t' = t.set p t.shared .idle
  identity : ∀ p b e, a = .act p b → (t.calls p).event = some e → e.pairs = false → ∀ cid,
    (t'.shared.db.connection? cid).map Connection.identity = (t.shared.db.connection? cid).map Connection.identity
  stamp : ∀ p b e, a = .act p b → (t.calls p).event = some e → e.pairs = false → e.logsOut = false → ∀ cid,
    (t'.shared.db.connection? cid).map Connection.loggedOutAt = (t.shared.db.connection? cid).map Connection.loggedOutAt

section EndedSessions

variable {trimLower : String → String} {db db' : TenantDb} {cid : ConnectionID} {sid : SessionID} {phone : String}
  {s w : EventState} {x y : EventCall}

/-! ### Rows of sessions -/

theorem SessionRows.unique (h : SessionRows db) {r r' : Session} (hr : r ∈ db.sessions) (hr' : r' ∈ db.sessions)
    (hid : r.id = r'.id) : r = r' :=
  List.inj_on_of_nodup_map h.keyed hr hr' hid

theorem SessionRows.map {f : Session → Session} (h : SessionRows db) (hid : ∀ r, (f r).id = r.id)
    (hended : ∀ r, (r.status = .ended ↔ r.endedAt.isSome = true) → ((f r).status = .ended ↔ (f r).endedAt.isSome = true)) :
    SessionRows { db with sessions := db.sessions.map f } where
  keyed := by
    have hsame : (db.sessions.map f).map Session.id = db.sessions.map Session.id := by
      rw [List.map_map]
      exact List.map_congr_left fun r _ => hid r
    exact hsame ▸ h.keyed
  ended := by
    intro r hr
    obtain ⟨r₀, hr₀, rfl⟩ := List.mem_map.mp hr
    exact hended r₀ (h.ended r₀ hr₀)

/-- The ended sessions stay so, but for those in `P`. -/
def KeepsEnded (P : SessionID → Prop) (db db' : TenantDb) : Prop :=
  ∀ sid r r', db.session? sid = some r → r.endedAt.isSome = true → db'.session? sid = some r' →
    r'.endedAt.isSome = true ∨ P sid

theorem KeepsEnded.refl {P : SessionID → Prop} : KeepsEnded P db db := fun _ r r' hr hended hr' => by
  obtain rfl := Option.some.inj (hr.symm.trans hr')
  exact .inl hended

theorem KeepsEnded.map {P : SessionID → Prop} {f : Session → Session} (h : KeepsEnded P db db') (hid : ∀ r, (f r).id = r.id)
    (hf : ∀ r, r.endedAt.isSome = true → (f r).endedAt.isSome = true ∨ P r.id) :
    KeepsEnded P db { db' with sessions := db'.sessions.map f } := by
  intro sid r r₂ hr hended hr₂
  rw [session?_map hid] at hr₂
  obtain ⟨r₁, hr₁, rfl⟩ := Option.map_eq_some_iff.mp hr₂
  have hid₁ : r₁.id = sid := session?_id hr₁
  rcases h sid r r₁ hr hended hr₁ with hkept | hP
  · exact hid₁ ▸ hf r₁ hkept
  · exact .inr hP

theorem KeepsEnded.filter {P : SessionID → Prop} {p : Session → Bool} (h : KeepsEnded P db db') (hrows : SessionRows db') :
    KeepsEnded P db { db' with sessions := db'.sessions.filter p } := by
  intro sid r r₂ hr hended hr₂
  have hmem : r₂ ∈ db'.sessions := List.mem_of_mem_filter (List.mem_of_find?_eq_some hr₂)
  have hid₂ : r₂.id = sid := session?_id hr₂
  have hfound : (db'.session? sid).isSome = true := List.find?_isSome.mpr ⟨r₂, hmem, decide_eq_true hid₂⟩
  obtain ⟨r₁, hr₁⟩ := Option.isSome_iff_exists.mp hfound
  have hid₁ : r₁.id = sid := session?_id hr₁
  obtain rfl := hrows.unique (List.mem_of_find?_eq_some hr₁) hmem (hid₁.trans hid₂.symm)
  exact h sid r r₁ hr hended hr₁

theorem SessionRows.filter {p : Session → Bool} (h : SessionRows db) :
    SessionRows { db with sessions := db.sessions.filter p } where
  keyed := h.keyed.sublist (List.filter_sublist.map _)
  ended := fun r hr => h.ended r (List.mem_of_mem_filter hr)

theorem rows_map {P : SessionID → Prop} {f : Session → Session} (h : SessionRows db' ∧ KeepsEnded P db db')
    (hid : ∀ r, (f r).id = r.id)
    (hrow : ∀ r, (r.status = .ended ↔ r.endedAt.isSome = true) → ((f r).status = .ended ↔ (f r).endedAt.isSome = true))
    (hended : ∀ r, r.endedAt.isSome = true → (f r).endedAt.isSome = true ∨ P r.id) :
    SessionRows { db' with sessions := db'.sessions.map f } ∧
      KeepsEnded P db { db' with sessions := db'.sessions.map f } :=
  ⟨h.1.map hid hrow, h.2.map hid hended⟩

theorem sessionRows_of_sessions (h : SessionRows db) (hsame : db'.sessions = db.sessions) : SessionRows db' :=
  ⟨hsame ▸ h.keyed, hsame ▸ h.ended⟩

section Updates

variable {P : SessionID → Prop} {now : ℕ}

theorem rows_updateSessionStatus {status : SessionStatus} {reason : Option String}
    (h : SessionRows db' ∧ KeepsEnded P db db') :
    SessionRows (db'.updateSessionStatus now sid status reason) ∧
      KeepsEnded P db (db'.updateSessionStatus now sid status reason) := by
  refine rows_map h (fun r => ?_) (fun r hr => ?_) fun r hr => .inl ?_
  · dsimp only
    split_ifs <;> rfl
  · by_cases hguard : r.id = sid ∧ (decide (status = .ended) || r.endedAt.isNone) = true
    · rw [if_pos hguard]
      cases status with
      | ended => exact ⟨fun _ => rfl, fun _ => rfl⟩
      | connected => exact ⟨nofun, nofun⟩
      | pending | connecting | disconnected =>
        have hopen : r.endedAt = none := Option.isNone_iff_eq_none.mp hguard.2
        refine ⟨nofun, fun hended => ?_⟩
        simp [hopen] at hended
    · rw [if_neg hguard]
      exact hr
  · by_cases hguard : r.id = sid ∧ (decide (status = .ended) || r.endedAt.isNone) = true
    · rw [if_pos hguard]
      have hstatus : status = .ended := by
        rcases Bool.or_eq_true_iff.mp hguard.2 with hstatus | hnone
        · exact of_decide_eq_true hstatus
        · rw [Option.isNone_iff_eq_none.mp hnone] at hr
          exact nomatch hr
      subst hstatus
      rfl
    · rw [if_neg hguard]
      exact hr

theorem rows_run {u : RowUpdate} (h : SessionRows db) :
    SessionRows (u.run now sid cid db) ∧ KeepsEnded P db (u.run now sid cid db) := by
  cases u with
  | session status => exact rows_updateSessionStatus ⟨h, KeepsEnded.refl⟩
  | sessionConnecting =>
    refine rows_map ⟨h, KeepsEnded.refl⟩ (fun r => ?_) (fun r hr => ?_) fun r hr => .inl ?_
    · split_ifs <;> rfl
    · split_ifs with hguard
      · have hopen : r.endedAt = none := by
          simpa using (Bool.and_eq_true_iff.mp hguard.2).1
        refine ⟨nofun, fun hended => ?_⟩
        simp [hopen] at hended
      · exact hr
    · split_ifs <;> exact hr
  | worker status =>
    cases status with
    | _ => exact ⟨sessionRows_of_sessions h rfl, KeepsEnded.refl⟩
  | disconnect | interruptSync | recordLogout | qr => exact ⟨sessionRows_of_sessions h rfl, KeepsEnded.refl⟩

theorem rows_stop {reason : String} {policy : TenantDb.StopPolicy} (h : SessionRows db) :
    SessionRows (db.stopPairedSession now sid cid reason policy) ∧
      KeepsEnded P db (db.stopPairedSession now sid cid reason policy) := by
  have hkills : SessionRows { db with kills := ⟨sid, reason, policy.unlink⟩ :: db.kills } := sessionRows_of_sessions h rfl
  have hkept : KeepsEnded P db { db with kills := ⟨sid, reason, policy.unlink⟩ :: db.kills } := KeepsEnded.refl
  obtain ⟨hrows, hended⟩ := rows_updateSessionStatus ⟨hkills, hkept⟩
  exact ⟨sessionRows_of_sessions hrows rfl, hended⟩

theorem rows_claimed {jid p : String} {target : ConnectionID} (h : SessionRows db)
    (hclaimed : Claimed now sid p jid db target db') : SessionRows db' ∧ KeepsEnded (· = sid) db db' := by
  have hconnect : ∀ {d : TenantDb} (target : ConnectionID), SessionRows d ∧ KeepsEnded (· = sid) db d →
      SessionRows (d.setSession sid (fun _ => true) (TenantDb.Session.connect now target)) ∧
        KeepsEnded (· = sid) db (d.setSession sid (fun _ => true) (TenantDb.Session.connect now target)) :=
    fun target hd => by
      refine rows_map hd (fun r => ?_) (fun r hr => ?_) fun r hr => ?_
      · split_ifs <;> rfl
      · split_ifs
        · exact ⟨nofun, nofun⟩
        · exact hr
      · split_ifs with hown
        · exact .inr hown.1
        · exact .inl hr
  cases hclaimed with
  | fresh hr =>
    obtain ⟨hrows, hkept⟩ := hconnect _ ⟨h, KeepsEnded.refl⟩
    exact ⟨sessionRows_of_sessions hrows rfl, hkept⟩
  | merged hr hmem hne =>
    rename_i r existing
    have hretired : SessionRows (db.retire now existing.id sid) ∧ KeepsEnded (· = sid) db (db.retire now existing.id sid) := by
      refine rows_map ⟨h, KeepsEnded.refl⟩ (fun r => ?_) (fun r hr => ?_) fun r hr => .inl ?_
      · split_ifs <;> rfl
      · split_ifs
        · exact ⟨fun _ => rfl, fun _ => rfl⟩
        · exact hr
      · split_ifs
        · rfl
        · exact hr
    obtain ⟨hrows, hkept⟩ := hconnect existing.id hretired
    exact ⟨sessionRows_of_sessions hrows.filter rfl, hkept.filter hrows⟩

end Updates

/-! ### Columns of connections -/

theorem column_setConnection {α : Type} {g : Connection → α} {f : Connection → Connection} {id : ConnectionID}
    (hid : ∀ c, (f c).id = c.id) (hg : ∀ c, g (f c) = g c) :
    ((db.setConnection id f).connection? cid).map g = (db.connection? cid).map g := by
  rw [connection?_setConnection hid, Option.map_map]
  refine congrArg (fun h => Option.map h _) (funext fun c => ?_)
  show g (if c.id = id then f c else c) = g c
  split_ifs
  · exact hg c
  · rfl

theorem identity_disconnected (now : ℕ) (c : Connection) :
    (TenantDb.connectionUpdate now .disconnected none "" c).identity = c.identity := rfl

theorem identity_run {now : ℕ} {u : RowUpdate} {id : ConnectionID} :
    ((u.run now sid id db).connection? cid).map Connection.identity = (db.connection? cid).map Connection.identity := by
  cases u with
  | session | sessionConnecting => rfl
  | disconnect => exact column_setConnection (fun _ => rfl) (identity_disconnected now)
  | interruptSync | recordLogout | qr => exact column_setConnection (fun _ => rfl) fun _ => rfl
  | worker status =>
    cases status with
    | connecting =>
      refine column_setConnection (fun c => ?_) fun c => ?_
      · split_ifs <;> rfl
      · split_ifs <;> rfl
    | connected | error | failed => exact column_setConnection (fun _ => rfl) fun _ => rfl

theorem stamp_run {now : ℕ} {u : RowUpdate} {id : ConnectionID} (hu : u ≠ .recordLogout) :
    ((u.run now sid id db).connection? cid).map Connection.loggedOutAt = (db.connection? cid).map Connection.loggedOutAt := by
  cases u with
  | session | sessionConnecting => rfl
  | recordLogout => exact absurd rfl hu
  | disconnect => exact column_setConnection (fun _ => rfl) fun _ => rfl
  | interruptSync | qr => exact column_setConnection (fun _ => rfl) fun _ => rfl
  | worker status =>
    cases status with
    | connecting =>
      refine column_setConnection (fun c => ?_) fun c => ?_
      · split_ifs <;> rfl
      · split_ifs <;> rfl
    | connected | error | failed => exact column_setConnection (fun _ => rfl) fun _ => rfl

/-! ### Calls -/

def EventOk : EventCall → Prop
  | .identifying e _ _ | .resuming e _ _ | .looking e _ _ | .linking e _ _ | .admitting e _ _ | .claiming e _ _ =>
    e.pairs = true
  | .stopping e _ _ _ policy => e.pairs = true ∨ policy.archive = false
  | .updating e _ _ todo => .recordLogout ∈ todo → e.logsOut = true
  | _ => True

theorem eventOk_dispatch (r : Session) (e : SessionEvent) : EventOk (dispatchEvent r sid e) := by
  cases e with
  | connectionStatus status =>
    cases status with
    | _ => exact fun hmem => absurd hmem (by decide)
  | qr qrCode =>
    show EventOk (if _ then _ else _)
    split_ifs
    · trivial
    · exact fun hmem => by simp at hmem
  | connection e =>
    unfold dispatchEvent
    dsimp only
    split
    next htype =>
      have hpairs : e.pairs = true := decide_eq_true (.inl htype)
      split_ifs
      · trivial
      · exact hpairs
      · exact hpairs
    next htype =>
      have hpairs : e.pairs = true := decide_eq_true (.inr htype)
      split_ifs
      · trivial
      · exact hpairs
      · exact hpairs
    · split_ifs <;> trivial
    · trivial
    · trivial

theorem eventOk_drop (e : ConnectionEvent) (wasSyncing : Bool) :
    EventOk (.updating (.connection e) sid cid (disconnectUpdates e wasSyncing)) := by
  intro hmem
  refine decide_eq_true ?_
  by_contra hout
  unfold disconnectUpdates at hmem
  rw [if_neg hout] at hmem
  cases wasSyncing with
  | true | false => simp at hmem

theorem EventMove.eventOk {a : EventAction} (hx : EventOk x) (h : EventMove trimLower s x a w y) : EventOk y := by
  cases h with
  | receive | unknown | gone | link | claim | stop | updated | fail | keep => trivial
  | dispatch => exact eventOk_dispatch _ _
  | recognise | pair | resume | found => exact hx
  | reject | refuse =>
    unfold rejectIdentity
    split_ifs
    · exact .inl hx
    · trivial
  | answer =>
    unfold admitted
    split
    · exact .inl hx
    · exact .inl hx
    · exact hx
  | expire => exact .inr rfl
  | drop wasSyncing => exact eventOk_drop _ wasSyncing
  | update => exact fun hmem => hx (List.mem_cons_of_mem _ hmem)

theorem EventMove.rows {a : EventAction} (hrows : SessionRows s.db) (h : EventMove trimLower s x a w y) :
    SessionRows w.db ∧ KeepsEnded (fun sid => ∃ now e cid, a = .next now ∧ x = .claiming e sid cid) s.db w.db := by
  cases h with
  | receive | unknown | dispatch | recognise | pair | found | gone | reject | answer | refuse | expire | keep | drop
  | updated | fail => exact ⟨hrows, KeepsEnded.refl⟩
  | resume => exact rows_updateSessionStatus ⟨hrows, KeepsEnded.refl⟩
  | stop => exact rows_stop hrows
  | update => exact rows_run hrows
  | link hdb =>
    obtain ⟨o, rfl, -⟩ := linkSession_ok _ hdb
    split_ifs
    · rw [db_connected]
      exact ⟨sessionRows_of_sessions hrows rfl, KeepsEnded.refl⟩
    · exact ⟨sessionRows_of_sessions hrows rfl, KeepsEnded.refl⟩
  | claim htarget hclaimed =>
    rename_i e sid cid target now db
    obtain ⟨hrows', hkept⟩ := rows_claimed hrows hclaimed
    rw [db_connected]
    refine ⟨hrows', fun sid₁ r r' hr hended hr' => (hkept sid₁ r r' hr hended hr').imp_right fun hown => ?_⟩
    exact ⟨now, e, cid, rfl, by rw [hown]⟩

theorem not_pairs {e : SessionEvent} (he : x.event = some e) (hpairs : e.pairs = false) {e' : ConnectionEvent}
    (he' : x.event = some (.connection e')) (hp : e'.pairs = true) : False := by
  obtain rfl := Option.some.inj (he.symm.trans he')
  have htrue : SessionEvent.pairs (.connection e') = true := hp
  rw [htrue] at hpairs
  exact absurd hpairs (by decide)

theorem EventMove.identity {a : EventAction} {e : SessionEvent} (hx : EventOk x) (h : EventMove trimLower s x a w y)
    (he : x.event = some e) (hpairs : e.pairs = false) :
    (w.db.connection? cid).map Connection.identity = (s.db.connection? cid).map Connection.identity := by
  cases h with
  | receive | unknown | dispatch | recognise | pair | resume | found | gone | reject | answer | refuse | expire | keep
  | drop | updated | fail => rfl
  | link | claim => exact (not_pairs he hpairs rfl hx).elim
  | stop =>
    rename_i e' sid cid now reason policy
    have hopen : policy.archive = false := hx.resolve_left fun hp => not_pairs he hpairs rfl hp
    refine column_setConnection (fun _ => rfl) fun c => ?_
    unfold Connection.identity
    rw [hopen]
    rfl
  | update => exact identity_run

theorem EventMove.stamp {a : EventAction} {e : SessionEvent} (hx : EventOk x) (h : EventMove trimLower s x a w y)
    (he : x.event = some e) (hpairs : e.pairs = false) (hout : e.logsOut = false) :
    (w.db.connection? cid).map Connection.loggedOutAt = (s.db.connection? cid).map Connection.loggedOutAt := by
  cases h with
  | receive | unknown | dispatch | recognise | pair | resume | found | gone | reject | answer | refuse | expire | keep
  | drop | updated | fail => rfl
  | link | claim => exact (not_pairs he hpairs rfl hx).elim
  | stop => exact column_setConnection (fun _ => rfl) fun _ => rfl
  | update =>
    refine stamp_run fun hu => ?_
    obtain rfl := Option.some.inj he
    rw [hx (hu ▸ List.mem_cons_self)] at hout
    exact nomatch hout

/-! ### Runs -/

theorem dispatchEvent_ended {r : Session} {e : SessionEvent} (hended : r.status = .ended) (he : e.terminal = false) :
    dispatchEvent r sid e = .idle := by
  cases e with
  | connectionStatus => exact nomatch he
  | qr => exact if_pos hended
  | connection e =>
    unfold dispatchEvent
    dsimp only
    split
    · exact if_pos hended
    · exact if_pos hended
    next htype => exact absurd he (by simp [SessionEvent.terminal, htype])
    next htype => exact absurd he (by simp [SessionEvent.terminal, htype])
    · rfl

theorem SessionRows.relink (h : SessionRows s.db) (hlinked : s.relink trimLower cid sid = some w) :
    SessionRows w.db ∧ KeepsEnded (fun _ => False) s.db w.db := by
  unfold EventState.relink at hlinked
  split_ifs at hlinked with hnew
  split at hlinked
  · exact nomatch hlinked
  · next connection hconnection =>
    split_ifs at hlinked
    obtain rfl := Option.some.inj hlinked
    refine ⟨⟨?_, fun r hr => ?_⟩, fun sid₁ r r' hr hended hr' => ?_⟩
    · show ((s.db.sessions ++ _).map Session.id).Nodup
      rw [List.map_append]
      refine List.nodup_append.mpr ⟨h.keyed, List.nodup_singleton _, ?_⟩
      rintro id hid id' hid' rfl
      obtain rfl := List.mem_singleton.mp hid'
      obtain ⟨r, hr, hrid⟩ := List.mem_map.mp hid
      exact hnew (List.find?_isSome.mpr ⟨r, hr, decide_eq_true hrid⟩)
    · rcases List.mem_append.mp hr with hr | hr
      · exact h.ended r hr
      · obtain rfl := List.mem_singleton.mp hr
        exact ⟨nofun, nofun⟩
    · have happend : (s.db.session? sid₁).or _ = some r' := List.find?_append.symm.trans hr'
      rw [hr] at happend
      obtain rfl := Option.some.inj happend
      exact .inl hended

theorem SessionRows.archive {now : ℕ} (h : SessionRows s.db) (harchived : s.archive now cid = some w) :
    SessionRows w.db ∧ KeepsEnded (fun _ => False) s.db w.db := by
  unfold EventState.archive at harchived
  split at harchived
  · next connection session hconnection hsession =>
    split_ifs at harchived
    obtain rfl := Option.some.inj harchived
    let db := { s.db with kills := ⟨session.id, "connection archived and unlinked", true⟩ :: s.db.kills }
    let db := db.setConnection cid fun c =>
      { c with
        status := .disconnected
        qrCode := none
        archivedAt := some now }
    have hrows : SessionRows db := sessionRows_of_sessions h rfl
    have hkept : KeepsEnded (fun _ => False) s.db db := KeepsEnded.refl
    exact rows_updateSessionStatus ⟨hrows, hkept⟩
  · exact nomatch harchived

def EndedHolds : Calls EventState EventCall → Prop := Holds (fun s => SessionRows s.db) fun _ _ x => EventOk x

theorem ended_step (t : Calls EventState EventCall) (a : CallAction EventAction AccountAction)
    (t' : Calls EventState EventCall) (hI : EndedHolds t) (h : (eventSystem trimLower).step t a = some t') :
    EndedHolds t' ∧ EndedInert t a t' := by
  obtain ⟨hrows, hcalls⟩ := hI
  cases a with
  | act p a =>
    obtain ⟨w, y, hact, rfl⟩ := Machine.step_act h
    have hmove : EventMove trimLower t.shared (t.calls p) a w y := eventAct_move _ hact
    obtain ⟨hrows', hkept⟩ := hmove.rows hrows
    refine ⟨Holds.set hrows' (hmove.eventOk (hcalls p)) fun q _ => hcalls q, ?_, ?_, ?_, ?_⟩
    · intro sid r r' hr hended hr'
      exact (hkept sid r r' hr hended hr').imp_right fun ⟨now, e, cid, ha, hx⟩ => ⟨p, now, e, cid, ha ▸ rfl, hx⟩
    · intro q now e sid r ha hx hlate hr hended
      obtain ⟨rfl, rfl⟩ := CallAction.act.inj ha
      rw [hx] at hmove
      have hstatus : r.status = .ended := (hrows.ended r (List.mem_of_find?_eq_some hr)).mpr hended
      cases hmove with
      | unknown => rfl
      | dispatch hfound =>
        obtain rfl := Option.some.inj (hr.symm.trans hfound)
        rw [dispatchEvent_ended hstatus hlate]
    · intro q b e ha he hpairs cid
      obtain ⟨rfl, rfl⟩ := CallAction.act.inj ha
      exact hmove.identity (hcalls p) he hpairs
    · intro q b e ha he hpairs hout cid
      obtain ⟨rfl, rfl⟩ := CallAction.act.inj ha
      exact hmove.stamp (hcalls p) he hpairs hout
  | env e =>
    obtain ⟨w, henv, rfl⟩ := Machine.step_env h
    have hw : SessionRows w.db ∧ KeepsEnded (fun _ => False) t.shared.db w.db := by
      cases e with
      | relink cid sid => exact hrows.relink henv
      | archive now cid => exact hrows.archive henv
    refine ⟨⟨hw.1, hcalls⟩, fun sid r r' hr hended hr' => .inl ?_, fun _ _ _ _ _ h => (nomatch h),
      fun _ _ _ h => (nomatch h), fun _ _ _ h => (nomatch h)⟩
    exact (hw.2 sid r r' hr hended hr').resolve_right id

/-- **Ended sessions are inert**, but for what their drops, logouts and worker statuses say about the connection. -/
theorem ended_sessions_inert (trimLower : String → String) (db : TenantDb) (hdb : SessionRows db)
    (as : List (CallAction EventAction AccountAction)) :
    Steps (eventSystem trimLower).step EndedInert (.start ⟨db, fun _ => none⟩ .idle) as :=
  steps_of_meets (C := fun _ _ => True) (fun t a t' hI _ hstep => ended_step t a t' hI hstep)
    (holds_start hdb fun _ => trivial) (meets_of_forall fun _ _ => trivial)

end EndedSessions

def replacedSession : TenantDb :=
  ⟨[⟨"c", .connected, some "65", none, some 1, none, none, none, none⟩],
    [⟨"old", "c", .ended, none, some 0, some 1, some "replaced by a newly paired session"⟩,
      ⟨"new", "c", .connected, none, some 1, none, none⟩], []⟩

/-- A late `connected` and a late logout of the old session. -/
theorem ended_sessions_inert_late :
    Steps (eventSystem id).step EndedInert (.start ⟨replacedSession, fun _ => none⟩ .idle)
      ([.act 0 (.receive (.connection ⟨.connected, "", "65", ""⟩) "old"), .act 0 (.next 2),
        .act 1 (.receive (.connection ⟨.loggedOut, "401", "", ""⟩) "old")] ++ List.replicate 6 (.act 1 (.next 2))) :=
  ended_sessions_inert id replacedSession ⟨by decide, by decide⟩ _

/-- The columns of a connection that say how it stands. -/
def Connection.stored (c : Connection) : ConnectionStatus × (Option String × Option String × Option ℕ) × Option ℕ :=
  (c.status, c.identity, c.loggedOutAt)

/-- The logout of an ended session disconnects the account that has been set up anew. -/
theorem ended_session_stores : ¬ ∀ as, Steps (eventSystem id).step (fun t a t' => ∀ p b, a = .act p b →
    ∀ sid ∈ (t.calls p).session, ∀ r ∈ t.shared.db.session? sid, r.endedAt.isSome = true →
      t'.shared.db.connections.map Connection.stored = t.shared.db.connections.map Connection.stored)
    (.start ⟨replacedSession, fun _ => none⟩ .idle) as := by
  intro h
  have hrun : (runActions (eventSystem id).step (.start ⟨replacedSession, fun _ => none⟩ .idle)
      (.act 0 (.receive (.connection ⟨.loggedOut, "401", "", ""⟩) "old") :: List.replicate 3 (.act 0 (.next 2)))).map
      (fun t => ((t.calls 0).session, t.shared.db.session? "old", t.shared.db.connections.map (·.status),
        ((eventSystem id).step t (.act 0 (.next 2))).map fun t' => t'.shared.db.connections.map (·.status))) =
      some (some "old", some ⟨"old", "c", .ended, none, some 0, some 1, some "replaced by a newly paired session"⟩,
        [.connected], some [.disconnected]) := by decide +kernel
  obtain ⟨t, ht, hend⟩ := Option.map_eq_some_iff.mp hrun
  obtain ⟨hsession, hend⟩ := Prod.mk.inj hend
  obtain ⟨hold, hend⟩ := Prod.mk.inj hend
  obtain ⟨hbefore, hlast⟩ := Prod.mk.inj hend
  obtain ⟨t', ht', hafter⟩ := Option.map_eq_some_iff.mp hlast
  have hsame := (h (_ ++ [.act 0 (.next 2)])).last ht ht' 0 _ rfl "old" hsession _ hold rfl
  have hstatus : t'.shared.db.connections.map (·.status) = t.shared.db.connections.map (·.status) := by
    have hfst := congrArg (List.map Prod.fst) hsame
    rw [List.map_map, List.map_map] at hfst
    exact hfst
  rw [hbefore, hafter] at hstatus
  exact absurd hstatus (by decide)

end TeamInbox.Api
