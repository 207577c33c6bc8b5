import TeamInbox.Api.ConnectionHandlers

/-!
# TeamInbox.Api.StoredStatus — a handled status is the stored status

Whatever the statements of a handler run into, a handler that ends without an error leaves the stored
status of the session's connection as its event says.  Nothing is assumed of the database.
-/

namespace TeamInbox.Api

open TeamInbox.Lib
open TeamInbox.Worker (Fault)

/-- The stored status of the session's connection, if there is one. -/
def Stores (sid : SessionID) (status : ConnectionStatus) (db : TenantDb) : Prop :=
  ∀ st, db.storedStatus sid = some st → st = status

def Settles (sid : SessionID) (type : StatusType) (verdict : Verdict) (db : TenantDb) : Prop :=
  match type, verdict with
  | .connected, .stored | .paired, .stored => Stores sid .connected db
  | .connected, .refused | .paired, .refused => Stores sid .disconnected db
  | .connected, .late | .paired, .late => ∃ r, db.session? sid = some r ∧ r.status = .ended
  | .disconnected, _ | .loggedOut, _ => Stores sid .disconnected db
  | .error, _ => True

/-! ### Rows -/

section Rows

variable {db : TenantDb} {sid : SessionID} {cid : ConnectionID} {st : ConnectionStatus}

def Points (sid : SessionID) (cid : ConnectionID) (db : TenantDb) : Prop :=
  ∃ r, db.session? sid = some r ∧ r.connectionID = cid

def Has (cid : ConnectionID) (st : ConnectionStatus) (db : TenantDb) : Prop :=
  ∀ c, db.connection? cid = some c → c.status = st

theorem stores_of_points (hp : Points sid cid db) (hh : Has cid st db) : Stores sid st db := by
  obtain ⟨r, hr, rfl⟩ := hp
  intro st' h
  simp only [TenantDb.storedStatus, hr, Option.bind_some, Option.map_eq_some_iff] at h
  obtain ⟨c, hc, rfl⟩ := h
  exact hh c hc

theorem connection?_setConnection {f : Connection → Connection} (hf : ∀ c, (f c).id = c.id)
    (id : ConnectionID) : (db.setConnection cid f).connection? id =
      (db.connection? id).map fun c => if c.id = cid then f c else c := by
  unfold TenantDb.setConnection TenantDb.connection?
  rw [List.find?_map]
  congr 2
  funext c
  by_cases hc : c.id = cid
  · simp [hc, hf]
  · simp [hc]

theorem connection?_id {c : Connection} (h : db.connection? cid = some c) : c.id = cid := by
  simpa using List.find?_some h

theorem session?_id {r : Session} (h : db.session? sid = some r) : r.id = sid := by
  simpa using List.find?_some h

theorem session?_map {f : Session → Session} (hf : ∀ r, (f r).id = r.id) (id : SessionID) :
    ({ db with sessions := db.sessions.map f } : TenantDb).session? id = (db.session? id).map f := by
  unfold TenantDb.session?
  rw [List.find?_map]
  congr 2
  funext r
  exact congrArg (fun i => decide (i = id)) (hf r)

theorem session?_setSession {p : Session → Bool} {f : Session → Session} (hf : ∀ r, (f r).id = r.id)
    (id : SessionID) : (db.setSession sid p f).session? id =
      (db.session? id).map fun r => if r.id = sid ∧ p r then f r else r := by
  refine session?_map (fun r => ?_) id
  split_ifs
  · exact hf r
  · rfl

theorem Points.setConnection {f : Connection → Connection} {id : ConnectionID} (h : Points sid cid db) :
    Points sid cid (db.setConnection id f) := h

theorem Points.updateSessionStatus {now : ℕ} {id : SessionID} {status : SessionStatus}
    {reason : Option String} (h : Points sid cid db) :
    Points sid cid (db.updateSessionStatus now id status reason) := by
  obtain ⟨r, hr, hc⟩ := h
  refine ⟨_, (session?_setSession (fun r => by dsimp only; split_ifs <;> rfl) sid).trans
    (congrArg _ hr), ?_⟩
  dsimp only
  split_ifs <;> exact hc

theorem has_setConnection {f : Connection → Connection} (hid : ∀ c, (f c).id = c.id)
    (hf : ∀ c, (f c).status = st) : Has cid st (db.setConnection cid f) := by
  intro c hc
  rw [connection?_setConnection hid, Option.map_eq_some_iff] at hc
  obtain ⟨c₀, hc₀, rfl⟩ := hc
  have hcid : c₀.id = cid := connection?_id hc₀
  rw [if_pos hcid]
  exact hf c₀

theorem Has.setConnection {f : Connection → Connection} (hid : ∀ c, (f c).id = c.id)
    (hf : ∀ c, (f c).status = c.status) (h : Has cid st db) : Has cid st (db.setConnection cid f) := by
  intro c hc
  rw [connection?_setConnection hid, Option.map_eq_some_iff] at hc
  obtain ⟨c₀, hc₀, rfl⟩ := hc
  split_ifs
  · exact (hf c₀).trans (h c₀ hc₀)
  · exact h c₀ hc₀

theorem connectionUpdate_id (now : ℕ) (status : ConnectionStatus) (phone : Option String) (jid : String)
    (c : Connection) : (TenantDb.connectionUpdate now status phone jid c).id = c.id := by
  unfold TenantDb.connectionUpdate
  cases phone <;> dsimp only <;> split_ifs <;> rfl

theorem connectionUpdate_status (now : ℕ) (status : ConnectionStatus) (phone : Option String)
    (jid : String) (c : Connection) :
    (TenantDb.connectionUpdate now status phone jid c).status = status := by
  unfold TenantDb.connectionUpdate
  cases phone <;> dsimp only <;> split_ifs <;> rfl

theorem stores_stopPairedSession {now : ℕ} {reason : String} {policy : TenantDb.StopPolicy}
    (h : Points sid cid db) :
    Stores sid .disconnected (db.stopPairedSession now sid cid reason policy) :=
  stores_of_points (Points.setConnection (Points.updateSessionStatus h))
    (has_setConnection (fun _ => rfl) fun _ => rfl)

theorem points_connect {now : ℕ} {target : ConnectionID} {r : Session}
    (hr : r ∈ (db.setSession sid (fun _ => true) (TenantDb.Session.connect now target)).sessions)
    (hid : r.id = sid) : r.connectionID = target := by
  obtain ⟨r₀, -, rfl⟩ := List.mem_map.mp hr
  by_cases h₀ : r₀.id = sid
  · simp [h₀, TenantDb.Session.connect]
  · simp [h₀] at hid

theorem stores_of_all (cid : ConnectionID) (hp : ∀ r ∈ db.sessions, r.id = sid → r.connectionID = cid) (hh : Has cid st db) :
    Stores sid st db := by
  intro st' h
  obtain ⟨r, hr, hc⟩ := Option.bind_eq_some_iff.mp h
  have hid : r.id = sid := session?_id hr
  exact stores_of_points ⟨r, hr, hp r (List.mem_of_find?_eq_some hr) hid⟩ hh st' h

theorem stores_claim {now : ℕ} {phone jid : String} {current : ConnectionID} {db' : TenantDb}
    (h : TenantDb.claimConnectedSession.claim now sid phone jid db current = .ok db') :
    Stores sid .connected db' := by
  unfold TenantDb.claimConnectedSession.claim at h
  split at h
  · next existing hfind =>
    split_ifs at h with harch
    obtain rfl := Except.ok.inj h
    refine stores_of_all existing.id (fun r hr hid => ?_)
      (has_setConnection (fun _ => rfl) fun _ => rfl)
    exact points_connect (List.mem_of_mem_filter hr) hid
  · obtain rfl := Except.ok.inj h
    refine stores_of_all current (fun r hr hid => ?_)
      (has_setConnection (fun _ => rfl) fun _ => rfl)
    exact points_connect hr hid

theorem stores_claimConnectedSession {now : ℕ} {phone jid : String} {db' : TenantDb}
    (h : db.claimConnectedSession now sid phone jid = .ok db') : Stores sid .connected db' := by
  unfold TenantDb.claimConnectedSession at h
  split at h
  · cases h
  · split at h
    · split_ifs at h with hexp
      exact stores_claim h
    · exact stores_claim h

end Rows

/-! ### Handlers -/

/-- The error ends in the `catch` that stops the session. -/
def ApiError.stops : ApiError → Bool
  | .duplicateWhatsAppPhone _ _ | .whatsAppIdentityMismatch _ _ => true
  | _ => false

section Handlers

variable {α β : Type} {sid : SessionID} {cid : ConnectionID} {db : TenantDb}

/-- From `db`, under any faults, the handler leaves `Q`; an error that stops the session finds it where
it was. -/
def Handles (sid : SessionID) (cid : ConnectionID) (m : ApiM α) (db : TenantDb)
    (Q : α → TenantDb → Prop) : Prop :=
  ∀ faults, Ensures m.run ⟨db, faults⟩ fun r s => match r with
    | .ok a => Q a s.db
    | .error e => e.stops = true → Points sid cid s.db

theorem Handles.pure {a : α} {Q : α → TenantDb → Prop} (h : Q a db) :
    Handles sid cid (pure a) db Q := fun _ => h

theorem Handles.bind {m : ApiM α} {g : α → ApiM β} {M : α → TenantDb → Prop} {Q : β → TenantDb → Prop}
    (hm : Handles sid cid m db M) (hg : ∀ a db', M a db' → Handles sid cid (g a) db' Q) :
    Handles sid cid (m >>= g) db Q := by
  intro faults
  refine Ensures.bindThrows (Ensures.mono (hm faults) fun r s h => ?_)
  cases r with
  | ok a => exact hg a s.db h s.faults
  | error e => exact h

theorem Handles.mono {m : ApiM α} {M Q : α → TenantDb → Prop} (hm : Handles sid cid m db M)
    (h : ∀ a db', M a db' → Q a db') : Handles sid cid m db Q := by
  intro faults
  refine Ensures.mono (hm faults) fun r s hr => ?_
  cases r with
  | ok a => exact h a s.db hr
  | error e => exact hr

theorem handles_execute {what : String} {f : TenantDb → Except ApiError (α × TenantDb)}
    {Q : α → TenantDb → Prop} (hok : ∀ a db', f db = .ok (a, db') → Q a db')
    (herr : ∀ e, f db = .error e → e.stops = true → Points sid cid db) :
    Handles sid cid (ApiM.execute what f) db Q := by
  intro faults
  unfold Ensures ApiM.execute
  simp only [ExceptT.run_mk]
  cases hf : f db with
  | error e =>
    cases faults.headD .none with
    | failed => exact nofun
    | none => exact herr e hf
    | lost => exact herr e hf
  | ok x =>
    cases faults.headD .none with
    | failed => exact nofun
    | none => exact hok x.1 x.2 hf
    | lost => exact nofun

theorem handles_select {what : String} {f : TenantDb → α} {Q : α → TenantDb → Prop} (h : Q (f db) db) :
    Handles sid cid (ApiM.select what f) db Q := by
  refine handles_execute (fun a db' hf => ?_) nofun
  obtain ⟨rfl, rfl⟩ := Prod.mk.inj (Except.ok.inj hf)
  exact h

theorem handles_update {what : String} {f : TenantDb → TenantDb} {Q : Unit → TenantDb → Prop}
    (h : Q () (f db)) : Handles sid cid (ApiM.update what f) db Q := by
  refine handles_execute (fun a db' hf => ?_) nofun
  obtain ⟨-, rfl⟩ := Prod.mk.inj (Except.ok.inj hf)
  exact h

theorem handles_transaction {what : String} {f : TenantDb → Except ApiError TenantDb}
    {Q : Unit → TenantDb → Prop} (hp : Points sid cid db) (h : ∀ db', f db = .ok db' → Q () db') :
    Handles sid cid (ApiM.transaction what f) db Q := by
  refine handles_execute (fun a db' hf => ?_) fun _ _ _ => hp
  cases hx : f db with
  | error e =>
    rw [hx] at hf
    cases hf
  | ok db₁ =>
    rw [hx] at hf
    obtain ⟨-, rfl⟩ := Prod.mk.inj (Except.ok.inj hf)
    exact h db₁ hx

theorem handles_broadcast {Q : Unit → TenantDb → Prop} (h : Q () db) :
    Handles sid cid ApiM.broadcastToCompany db Q := handles_select h

variable {trimLower : String → String} {now : ℕ}

theorem handles_stopPairedSession {reason : String} {policy : TenantDb.StopPolicy}
    (hp : Points sid cid db) : Handles sid cid (stopPairedSession now sid cid reason policy) db
      fun _ db' => Stores sid .disconnected db' := by
  refine Handles.bind (M := fun _ db' => Stores sid .disconnected db')
    (handles_update (stores_stopPairedSession hp)) fun _ db' h => ?_
  exact Handles.bind (handles_broadcast h) fun _ db' h => handles_broadcast h

theorem handles_updateConnectionStatus {status : ConnectionStatus} {phone jid : String}
    (hp : Points sid cid db) :
    Handles sid cid (updateConnectionStatus trimLower now status cid phone jid) db
      fun _ db' => Points sid cid db' ∧ Has cid status db' := by
  refine Handles.bind (handles_select (Q := fun row db' => row = db.connection? cid ∧ db' = db) ⟨rfl, rfl⟩) ?_
  rintro row db' ⟨hrow, rfl⟩
  have hwrite : ∀ p, Has cid status
      (db'.setConnection cid (TenantDb.connectionUpdate now status p jid)) := fun p =>
    has_setConnection (connectionUpdate_id now status p jid) (connectionUpdate_status now status p jid)
  cases row with
  | none => exact Handles.pure ⟨hp, fun c hc => nomatch hrow.trans hc⟩
  | some c =>
    dsimp only
    split_ifs with hphone hconn
    · refine handles_transaction hp fun db₁ h => ?_
      unfold TenantDb.claimPhone at h
      split at h
      · cases h
      · obtain rfl := Except.ok.inj h
        exact ⟨hp, hconn.1 ▸ hwrite _⟩
    · exact handles_update ⟨hp, hwrite _⟩
    · exact handles_update ⟨hp, hwrite _⟩
    · exact handles_update ⟨hp, hwrite _⟩

theorem handles_connected (h : Stores sid .connected db) :
    Handles sid cid (ApiM.broadcastToCompany >>= fun _ => Pure.pure Verdict.stored) db
      fun v db' => Settles sid .connected v db' :=
  Handles.bind (M := fun _ db' => Stores sid .connected db') (handles_broadcast h) fun _ _ h => Handles.pure h

theorem handles_refused {reason : String} {policy : TenantDb.StopPolicy} (hp : Points sid cid db) :
    Handles sid cid (stopPairedSession now sid cid reason policy >>= fun _ => Pure.pure Verdict.refused) db
      fun v db' => Settles sid .connected v db' :=
  Handles.bind (handles_stopPairedSession hp) fun _ _ h => Handles.pure h

theorem handles_connectSession {event : ConnectionEvent} {admission : Option Admission}
    (hp : Points sid cid db) :
    Handles sid cid (connectSession trimLower now event sid cid admission) db
      fun v db' => Settles sid .connected v db' := by
  unfold connectSession
  dsimp only
  split_ifs with hphone
  · refine Handles.bind (M := fun _ db' => db' = db) (handles_select rfl) ?_
    rintro prior _ rfl
    split_ifs with hest
    · refine Handles.bind (handles_update (Q := fun _ db' => Points sid cid db')
        (Points.updateSessionStatus hp)) fun _ db₁ hp₁ => ?_
      refine Handles.bind (handles_updateConnectionStatus hp₁) fun _ db₂ h₂ => ?_
      exact handles_connected (stores_of_points h₂.1 h₂.2)
    · split
      · exact handles_refused hp
      · exact handles_refused hp
      · refine Handles.bind (handles_transaction (Q := fun _ db' => Stores sid .connected db') hp
          fun db' h => stores_claimConnectedSession h) fun _ db₁ h₁ => ?_
        exact handles_connected h₁
  · refine Handles.bind (handles_updateConnectionStatus hp) fun _ db₂ h₂ => ?_
    exact handles_connected (stores_of_points h₂.1 h₂.2)

theorem handles_handleConnectedEvent {event : ConnectionEvent} {admission : Option Admission}
    (hp : Points sid cid db) :
    Handles sid cid (handleConnectedEvent trimLower now event sid cid admission) db
      fun v db' => Settles sid .connected v db' := by
  intro faults
  refine Ensures.catchThrows (Ensures.mono (handles_connectSession hp faults) fun r s h => ?_)
  cases r with
  | ok v => exact h
  | error e =>
    -- the claim was rolled back, so the session is where it was
    cases e with
    | duplicateWhatsAppPhone existing phone =>
      exact handles_refused (h rfl) s.faults
    | whatsAppIdentityMismatch expected actual =>
      exact handles_refused (h rfl) s.faults
    | failed what => exact nofun
    | connectionNotFound id => exact nofun
    | permanent text => exact nofun

/-- The session points to the connection and the connection is disconnected. -/
def Down (sid : SessionID) (cid : ConnectionID) (_ : Unit) (db : TenantDb) : Prop :=
  Points sid cid db ∧ Has cid .disconnected db

theorem handles_annotate {what : String} {f : Connection → Connection} (hid : ∀ c, (f c).id = c.id)
    (hf : ∀ c, (f c).status = c.status) (h : Down sid cid () db) :
    Handles sid cid (ApiM.update what (·.setConnection cid f)) db (Down sid cid) :=
  handles_update ⟨h.1, h.2.setConnection hid hf⟩

theorem handles_disconnectSession {event : ConnectionEvent} (hp : Points sid cid db) :
    Handles sid cid (disconnectSession trimLower now event sid cid) db (Down sid cid) := by
  unfold disconnectSession
  refine Handles.bind (M := fun _ db' => db' = db) (handles_select rfl) ?_
  rintro sync _ rfl
  refine Handles.bind (handles_update (Q := fun _ db' => Points sid cid db')
    (Points.updateSessionStatus hp)) fun _ db₁ hp₁ => ?_
  refine Handles.bind (M := Down sid cid) (handles_updateConnectionStatus hp₁) fun _ db₂ h₂ => ?_
  have hlogout : ∀ db, Down sid cid () db → Handles sid cid (ApiM.update "record logout"
      (·.setConnection cid ({ · with loggedOutAt := some now, qrCode := none })) >>= fun _ =>
        ApiM.broadcastToCompany >>= fun _ => ApiM.broadcastToCompany) db (Down sid cid) := by
    intro db h
    refine Handles.bind (handles_annotate (fun _ => rfl) (fun _ => rfl) h) fun _ db' h' => ?_
    exact Handles.bind (M := Down sid cid) (handles_broadcast h') fun _ _ h => handles_broadcast h
  have hdrop : ∀ db, Down sid cid () db → Handles sid cid
      (ApiM.broadcastToCompany >>= fun _ => Pure.pure ()) db (Down sid cid) := fun db h =>
    Handles.bind (M := Down sid cid) (handles_broadcast h) fun _ _ h => Handles.pure h
  dsimp only
  split_ifs with hsync hout hout
  · refine Handles.bind (handles_annotate (fun _ => rfl) (fun _ => rfl) h₂) fun _ db₃ h₃ => ?_
    exact Handles.bind (M := Down sid cid) (handles_broadcast h₃) fun _ db₄ h₄ => hlogout db₄ h₄
  · refine Handles.bind (handles_annotate (fun _ => rfl) (fun _ => rfl) h₂) fun _ db₃ h₃ => ?_
    exact Handles.bind (M := Down sid cid) (handles_broadcast h₃) fun _ db₄ h₄ => hdrop db₄ h₄
  · exact hlogout db₂ h₂
  · exact hdrop db₂ h₂

theorem handles_handleDisconnectedEvent {event : ConnectionEvent} (hp : Points sid cid db) :
    Handles sid cid (handleDisconnectedEvent trimLower now event sid cid) db
      fun _ db' => Stores sid .disconnected db' := by
  have hdown : Handles sid cid (disconnectSession trimLower now event sid cid) db
      fun _ db' => Stores sid .disconnected db' :=
    (handles_disconnectSession hp).mono fun _ _ h => stores_of_points h.1 h.2
  unfold handleDisconnectedEvent
  split_ifs with hqr
  · refine Handles.bind (M := fun _ db' => db' = db) (handles_select rfl) ?_
    rintro unscanned _ rfl
    split_ifs
    · exact handles_stopPairedSession hp
    · exact hdown
  · exact hdown

end Handlers

/-- **A handled status is stored.**  Every delivery that ends without an error leaves what its event
says, whatever failed before. -/
theorem settles_of_processed {trimLower : String → String} {now : ℕ} {event : ConnectionEvent}
    {sid : SessionID} {admission : Option Admission} {db : TenantDb} {faults : List Fault} {v : Verdict}
    {s : ApiState}
    (h : (processConnectionEvent trimLower now event sid admission).run ⟨db, faults⟩ = (.ok v, s)) :
    Settles sid event.type v s.db := by
  -- the connection the session points to when it is resolved
  let cid := ((db.session? sid).map (·.connectionID)).getD ""
  have hprocess : Handles sid cid (processConnectionEvent trimLower now event sid admission) db
      fun v db' => Settles sid event.type v db' := by
    unfold processConnectionEvent
    refine Handles.bind (M := fun r db' => r = db.session? sid ∧ db' = db) (handles_select ⟨rfl, rfl⟩) ?_
    rintro r db' ⟨hr, rfl⟩
    cases r with
    | none => exact fun _ => nofun
    | some session =>
      have hp : Points sid session.connectionID db' := ⟨session, hr.symm, rfl⟩
      have hcid : cid = session.connectionID := by
        show ((db'.session? sid).map (·.connectionID)).getD "" = session.connectionID
        rw [← hr]
        rfl
      rw [hcid]
      have hconnected : ∀ type, (∀ v db, Settles sid type v db ↔ Settles sid .connected v db) →
          Handles sid session.connectionID (if session.status = .ended then Pure.pure Verdict.late
            else handleConnectedEvent trimLower now event sid session.connectionID admission) db'
            fun v db => Settles sid type v db := by
        intro type htype
        split_ifs with hend
        · exact Handles.pure ((htype .late db').mpr ⟨session, hr.symm, hend⟩)
        · exact (handles_handleConnectedEvent hp).mono fun v db h => (htype v db).mpr h
      cases event.type with
      | connected =>
        exact hconnected .connected fun _ _ => Iff.rfl
      | paired =>
        exact hconnected .paired fun v _ => by cases v <;> rfl
      | disconnected =>
        exact Handles.bind (handles_handleDisconnectedEvent hp) fun _ _ h => Handles.pure h
      | loggedOut =>
        exact Handles.bind (handles_handleDisconnectedEvent hp) fun _ _ h => Handles.pure h
      | error =>
        exact Handles.bind (M := fun _ _ => True) (handles_broadcast trivial) fun _ _ _ =>
          Handles.pure trivial
  have hrun := hprocess faults
  unfold Ensures at hrun
  rw [h] at hrun
  exact hrun

theorem processed_error {trimLower : String → String} {now : ℕ} {event : ConnectionEvent}
    {sid : SessionID} {admission : Option Admission} {s : ApiState} (herr : event.type = .error) :
    ((processConnectionEvent trimLower now event sid admission).run s).2.db = s.db := by
  have hkeep : ∀ {α : Type} (what : String) (f : TenantDb → α) (s : ApiState),
      Ensures (ApiM.select what f).run s fun _ s' => s'.db = s.db := by
    intro α what f s
    unfold Ensures ApiM.select ApiM.execute
    simp only [ExceptT.run_mk]
    cases s.faults.headD .none <;> rfl
  have hrun : Ensures (processConnectionEvent trimLower now event sid admission).run s
      fun _ s' => s'.db = s.db := by
    unfold processConnectionEvent
    refine Ensures.bindThrows (Ensures.mono (hkeep _ _ s) fun r s₁ h₁ => ?_)
    cases r with
    | error e => exact h₁
    | ok session =>
      cases session with
      | none => exact h₁
      | some session =>
        simp only [herr]
        refine Ensures.bindThrows (Ensures.mono (hkeep _ _ s₁) fun r s₂ h₂ => ?_)
        cases r with
        | error e => exact h₂.trans h₁
        | ok u => exact h₂.trans h₁
  exact hrun

end TeamInbox.Api
