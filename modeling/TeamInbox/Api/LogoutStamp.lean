import TeamInbox.Api.SessionEvents
import TeamInbox.Api.StoredStatus

/-!
# TeamInbox.Api.LogoutStamp — a stamp ends with the logout it records

Only `updateConnectionStatus` clears `logged_out_at`; a claim and a `connection_status` make a connection connected
and leave the stamp.  Where they find none, a connected connection has none, and the session that has last connected
is recognised when it comes back.
-/

namespace TeamInbox.Api

open TeamInbox.Lib

section LogoutStamp

variable {trimLower : String → String} {db db' : TenantDb} {cid cid' : ConnectionID} {sid sid' : SessionID}
  {phone : String} {s w : EventState} {x y : EventCall}

/-! ### What is claimed -/

variable (trimLower) in
/-- A connected connection has no stamp, and the session that has last connected does not depend on the admission
service. -/
structure StampEnds (t : Calls EventState EventCall) : Prop where
  stamp : ∀ c ∈ t.shared.db.connections, c.status = .connected → c.loggedOutAt = none
  recognised : ∀ cid sid phone, t.shared.last cid = some (sid, phone) → ∀ p, normalizeWhatsAppPhone trimLower p = phone →
    isEstablishedReconnect trimLower (t.shared.db.prior sid) cid p = true
  admitted : ∀ p e sid cid, t.calls p = .admitting e sid cid →
    t.shared.last cid ≠ some (sid, normalizeWhatsAppPhone trimLower e.phoneNumber)

def OneAfterAnother (t : Calls EventState EventCall) : CallAction EventAction AccountAction → Prop
  | .act p _ => ∀ q, q ≠ p → t.calls q = .idle
  | .env _ => ∀ q, t.calls q = .idle

variable (trimLower) in
/-- What becomes connected other than through `updateConnectionStatus` has no stamp. -/
def NoStampLeft (t : Calls EventState EventCall) : CallAction EventAction AccountAction → Prop
  | .act p (.next _) => match t.calls p with
    | .claiming e sid _ =>
      ∀ target ∈ t.shared.db.claimTarget sid (normalizeWhatsAppPhone trimLower e.phoneNumber),
        ∀ c ∈ t.shared.db.connections, c.id = target → c.loggedOutAt = none
    | .updating _ _ cid (.worker .connected :: _) => ∀ c ∈ t.shared.db.connections, c.id = cid → c.loggedOutAt = none
    | _ => True
  | _ => True

instance (t : Calls EventState EventCall) (a : CallAction EventAction AccountAction) :
    Decidable (NoStampLeft trimLower t a) := by
  unfold NoStampLeft
  split
  · split <;> infer_instance
  · infer_instance

/-- What is used of `trim` and `toLowerCase`. -/
structure TrimsLower (trimLower : String → String) : Prop where
  idempotent : ∀ s, trimLower (trimLower s) = trimLower s
  digits : ∀ s, s.toList.filter Char.isDigit = [] → (trimLower s).toList.filter Char.isDigit = []

theorem TrimsLower.normalize (h : TrimsLower trimLower) (p : String) :
    normalizeWhatsAppPhone trimLower (normalizeWhatsAppPhone trimLower p) = normalizeWhatsAppPhone trimLower p := by
  unfold normalizeWhatsAppPhone
  dsimp only
  by_cases hp : String.ofList (p.toList.filter Char.isDigit) ≠ ""
  · rw [if_pos hp, String.toList_ofList, List.filter_filter]
    simp only [Bool.and_self]
    rw [if_pos hp]
  · have hempty : p.toList.filter Char.isDigit = [] := by
      simpa using hp
    rw [if_neg hp, h.digits p hempty, if_neg (by simp), h.idempotent]

/-! ### Rows -/

/-- A connection that has the identity and no stamp. -/
def Linked (trimLower : String → String) (phone : String) (c : Connection) : Prop :=
  c.archivedAt = none ∧ c.loggedOutAt = none ∧ ∃ e, c.phoneNumber = some e ∧ normalizeWhatsAppPhone trimLower e = phone

/-- A session that has connected and not been ended. -/
def Resumable (cid : ConnectionID) (r : Session) : Prop :=
  r.connectionID = cid ∧ r.connectedAt.isSome = true ∧ r.endedAt = none

variable (trimLower) in
def Established (db : TenantDb) (cid : ConnectionID) (sid : SessionID) (phone : String) : Prop :=
  (∃ r, db.session? sid = some r ∧ Resumable cid r) ∧ ∃ c, db.connection? cid = some c ∧ Linked trimLower phone c

theorem isEstablishedReconnect_iff {p : String} : isEstablishedReconnect trimLower (db.prior sid) cid p = true ↔
    Established trimLower db cid sid (normalizeWhatsAppPhone trimLower p) := by
  unfold TenantDb.prior isEstablishedReconnect Established Resumable Linked
  constructor
  · intro h
    cases hr : db.session? sid with
    | none =>
      rw [hr] at h
      cases h
    | some r =>
      rw [hr] at h
      cases hc : db.connection? r.connectionID with
      | none =>
        simp only [Option.bind_some, hc] at h
        cases h
      | some c =>
        simp only [Option.bind_some, hc, Option.map_some, Bool.and_eq_true, Option.isNone_iff_eq_none, decide_eq_true_eq] at h
        obtain ⟨⟨⟨⟨⟨hended, hconnected⟩, harchived⟩, hstamp⟩, rfl⟩, hphone⟩ := h
        refine ⟨⟨r, rfl, rfl, hconnected, hended⟩, c, hc, harchived, hstamp, ?_⟩
        cases he : c.phoneNumber with
        | none =>
          rw [he] at hphone
          cases hphone
        | some e =>
          rw [he] at hphone
          exact ⟨e, rfl, of_decide_eq_true hphone⟩
  · rintro ⟨⟨r, hr, rfl, hconnected, hended⟩, c, hc, harchived, hstamp, e, he, hphone⟩
    simp [hr, hc, harchived, hstamp, he, hphone, hconnected, hended]

theorem mem_setConnection {f : Connection → Connection} {c : Connection} (h : c ∈ (db.setConnection cid f).connections) :
    c ∈ db.connections ∧ c.id ≠ cid ∨ ∃ c₀ ∈ db.connections, c₀.id = cid ∧ c = f c₀ := by
  obtain ⟨c₀, hc₀, rfl⟩ := List.mem_map.mp h
  by_cases hid : c₀.id = cid
  · rw [if_pos hid]
    exact .inr ⟨c₀, hc₀, hid, rfl⟩
  · rw [if_neg hid]
    exact .inl ⟨hc₀, hid⟩

theorem Established.setConnection {f : Connection → Connection} (h : Established trimLower db cid sid phone)
    (hid : ∀ c, (f c).id = c.id) (hf : cid' = cid → ∀ c, Linked trimLower phone c → Linked trimLower phone (f c)) :
    Established trimLower (db.setConnection cid' f) cid sid phone := by
  obtain ⟨hsession, c, hc, hlinked⟩ := h
  refine ⟨hsession, if c.id = cid' then f c else c, ?_, ?_⟩
  · rw [connection?_setConnection hid, hc]
    rfl
  · split_ifs with hsame
    · exact hf (hsame.symm.trans (connection?_id hc)) c hlinked
    · exact hlinked

theorem Established.setSession {P : Session → Bool} {f : Session → Session} (h : Established trimLower db cid sid phone)
    (hid : ∀ r, (f r).id = r.id) (hf : sid' = sid → ∀ r, Resumable cid r → P r = true → Resumable cid (f r)) :
    Established trimLower (db.setSession sid' P f) cid sid phone := by
  obtain ⟨⟨r, hr, hresumable⟩, hconnection⟩ := h
  refine ⟨⟨if r.id = sid' ∧ P r = true then f r else r, ?_, ?_⟩, hconnection⟩
  · rw [session?_setSession hid, hr]
    rfl
  · split_ifs with hsame
    · exact hf (hsame.1.symm.trans (session?_id hr)) r hresumable hsame.2
    · exact hresumable

theorem Established.updateSessionStatus {now : ℕ} {status : SessionStatus} {reason : Option String}
    (h : Established trimLower db cid sid phone) (hended : status = .ended → sid' ≠ sid) :
    Established trimLower (db.updateSessionStatus now sid' status reason) cid sid phone := by
  refine h.setSession (fun r => ?_) fun hsame r hr _ => ?_
  · dsimp only
    split_ifs <;> rfl
  · have hstatus : status ≠ .ended := fun hstatus => hended hstatus hsame
    obtain ⟨hconnection, hconnected, hnone⟩ := hr
    dsimp only
    rw [if_neg hstatus]
    split_ifs
    · exact ⟨hconnection, rfl, rfl⟩
    · exact ⟨hconnection, hconnected, hnone⟩

def Unstamped (db : TenantDb) : Prop := ∀ c ∈ db.connections, c.status = .connected → c.loggedOutAt = none

theorem Unstamped.setConnection {f : Connection → Connection} (h : Unstamped db)
    (hf : ∀ c ∈ db.connections, c.id = cid → (c.status = .connected → c.loggedOutAt = none) →
      (f c).status = .connected → (f c).loggedOutAt = none) : Unstamped (db.setConnection cid f) := by
  intro c hc
  rcases mem_setConnection hc with ⟨hmem, -⟩ | ⟨c₀, hc₀, hid, rfl⟩
  · exact h c hmem
  · exact hf c₀ hc₀ hid (h c₀ hc₀)

def NotConnected (cid : ConnectionID) (db : TenantDb) : Prop := ∀ c ∈ db.connections, c.id = cid → c.status ≠ .connected

/-! ### The claim -/

theorem find?_filter_of {α : Type} {p q : α → Bool} {l : List α} {a : α} (h : l.find? q = some a) (ha : p a = true) :
    (l.filter p).find? q = some a := by
  induction l with
  | nil => exact nomatch h
  | cons b l ih =>
    rw [List.find?_cons] at h
    cases hb : q b with
    | true =>
      rw [hb] at h
      obtain rfl := Option.some.inj h
      rw [List.filter_cons_of_pos ha, List.find?_cons_of_pos hb]
    | false =>
      rw [hb] at h
      by_cases hp : p b = true
      · rw [List.filter_cons_of_pos hp, List.find?_cons_of_neg (by rw [hb]; exact Bool.false_ne_true)]
        exact ih h
      · rw [List.filter_cons_of_neg hp]
        exact ih h

theorem established_of_all (hsession : ∀ r ∈ db.sessions, r.id = sid → Resumable cid r)
    (hsome : ∃ r ∈ db.sessions, r.id = sid)
    (hconnection : ∀ c ∈ db.connections, c.id = cid → Linked trimLower phone c)
    (hthere : ∃ c ∈ db.connections, c.id = cid) : Established trimLower db cid sid phone := by
  have hfindr : (db.session? sid).isSome = true := by
    obtain ⟨r, hr, hid⟩ := hsome
    exact List.find?_isSome.mpr ⟨r, hr, decide_eq_true hid⟩
  have hfindc : (db.connection? cid).isSome = true := by
    obtain ⟨c, hc, hid⟩ := hthere
    exact List.find?_isSome.mpr ⟨c, hc, decide_eq_true hid⟩
  obtain ⟨r, hr⟩ := Option.isSome_iff_exists.mp hfindr
  obtain ⟨c, hc⟩ := Option.isSome_iff_exists.mp hfindc
  exact ⟨⟨r, hr, hsession r (List.mem_of_find?_eq_some hr) (session?_id hr)⟩,
    c, hc, hconnection c (List.mem_of_find?_eq_some hc) (connection?_id hc)⟩

theorem resumable_connect {now : ℕ} {target : ConnectionID} {r : Session}
    (hr : r ∈ (db.setSession sid (fun _ => true) (TenantDb.Session.connect now target)).sessions) (hid : r.id = sid) :
    Resumable target r := by
  obtain ⟨r₀, -, rfl⟩ := List.mem_map.mp hr
  by_cases h₀ : r₀.id = sid
  · rw [if_pos ⟨h₀, rfl⟩]
    exact ⟨rfl, rfl, rfl⟩
  · rw [if_neg fun h => h₀ h.1] at hid
    exact absurd hid h₀

theorem mem_connect {now : ℕ} {target : ConnectionID} {r : Session} (hr : r ∈ db.sessions) (hid : r.id = sid) :
    TenantDb.Session.connect now target r ∈
      (db.setSession sid (fun _ => true) (TenantDb.Session.connect now target)).sessions :=
  List.mem_map.mpr ⟨r, hr, if_pos ⟨hid, rfl⟩⟩

theorem Claimed.there {now : ℕ} {jid p : String} {target : ConnectionID} (h : Claimed now sid p jid db target db')
    (hthere : ∃ c ∈ db'.connections, c.id = target) : ∃ c ∈ db.connections, c.id = target := by
  cases h with
  | merged hr hmem hne => exact ⟨_, hmem, rfl⟩
  | fresh hr =>
    obtain ⟨c, hc, hid⟩ := hthere
    rcases mem_setConnection hc with ⟨hmem, -⟩ | ⟨c₀, hc₀, hid₀, -⟩
    · exact ⟨c, hmem, hid⟩
    · exact ⟨c₀, hc₀, hid₀⟩

theorem established_claimed {now : ℕ} {jid p : String} {target : ConnectionID} (htrims : TrimsLower trimLower)
    (h : Claimed now sid (normalizeWhatsAppPhone trimLower p) jid db target db')
    (hstamp : ∀ c ∈ db.connections, c.id = target → c.loggedOutAt = none)
    (hthere : ∃ c ∈ db.connections, c.id = target) :
    Established trimLower db' target sid (normalizeWhatsAppPhone trimLower p) := by
  have hlinked : ∀ d : TenantDb, (∀ c ∈ d.connections, c ∈ db.connections) →
      ∀ c ∈ (d.setConnection target (TenantDb.claimConnectedSession.linked now
        (normalizeWhatsAppPhone trimLower p) jid)).connections, c.id = target →
          Linked trimLower (normalizeWhatsAppPhone trimLower p) c := fun d hd c hc hid => by
    rcases mem_setConnection hc with ⟨-, hne⟩ | ⟨c₀, hc₀, hid₀, rfl⟩
    · exact absurd hid hne
    · exact ⟨rfl, hstamp c₀ (hd c₀ hc₀) hid₀, _, rfl, htrims.normalize p⟩
  obtain ⟨c, hc, hid⟩ := hthere
  cases h with
  | fresh hr =>
    rename_i r
    have hr₀ : r.id = sid := session?_id hr
    exact established_of_all (fun r hr hid => resumable_connect hr hid)
      ⟨_, mem_connect (List.mem_of_find?_eq_some hr) hr₀, hr₀⟩ (hlinked _ fun _ h => h)
      ⟨_, List.mem_map.mpr ⟨c, hc, if_pos hid⟩, hid⟩
  | merged hr hmem hne =>
    rename_i r existing
    have hr₀ : r.id = sid := session?_id hr
    have hretired : r ∈ (db.retire now existing.id sid).sessions :=
      List.mem_map.mpr ⟨r, List.mem_of_find?_eq_some hr, if_neg fun h => h.2.1 hr₀⟩
    refine established_of_all (fun r hr hid => resumable_connect (List.mem_of_mem_filter hr) hid)
      ⟨_, List.mem_filter.mpr ⟨mem_connect hretired hr₀, decide_eq_true hne⟩, hr₀⟩
      (hlinked _ fun _ h => List.mem_of_mem_filter h) ?_
    · refine ⟨_, List.mem_map.mpr ⟨c, List.mem_filter.mpr ⟨hc, ?_⟩, if_pos hid⟩, hid⟩
      rw [hid]
      exact decide_eq_true hne

theorem Established.claimed {now : ℕ} {jid p : String} {target : ConnectionID}
    (h : Established trimLower db cid sid' phone) (hclaimed : Claimed now sid p jid db target db')
    (hcurrent : ∀ r, db.session? sid = some r → r.connectionID ≠ cid) (htarget : target ≠ cid) :
    Established trimLower db' cid sid' phone := by
  have hother : sid ≠ sid' := by
    rintro rfl
    obtain ⟨⟨r, hr, hresumable⟩, -⟩ := h
    exact hcurrent r hr hresumable.1
  cases hclaimed with
  | fresh hr =>
    rename_i r
    have hconnected : Established trimLower (db.setSession sid (fun _ => true) (TenantDb.Session.connect now r.connectionID))
        cid sid' phone := h.setSession (fun _ => rfl) fun hsame => absurd hsame hother
    refine hconnected.setConnection ?_ fun hsame => absurd hsame htarget
    exact fun _ => rfl
  | merged hr hmem hne =>
    rename_i r existing
    have hcurrent : r.connectionID ≠ cid := hcurrent r hr
    refine Established.setConnection ?_ (fun _ => rfl) fun hsame => absurd hsame htarget
    have hretired : Established trimLower (db.retire now existing.id sid) cid sid' phone := by
      obtain ⟨⟨r', hr', hresumable⟩, hconnection⟩ := h
      refine ⟨⟨r', ?_, hresumable⟩, hconnection⟩
      have hids : ∀ r : Session, (if r.connectionID = existing.id ∧ r.id ≠ sid ∧ r.endedAt = none then
          { r with
            status := .ended
            endedAt := some now
            endReason := some "replaced by a newly paired session" }
          else r).id = r.id := fun r => by split_ifs <;> rfl
      refine (session?_map hids sid').trans ?_
      rw [hr', Option.map_some, if_neg fun hretires => htarget (hretires.1.symm.trans hresumable.1)]
    obtain ⟨⟨r', hr', hresumable⟩, c, hc, hlinked⟩ := hretired.setSession (f := TenantDb.Session.connect now existing.id)
      (P := fun _ => true) (fun _ => rfl) fun hsame => absurd hsame hother
    refine ⟨⟨r', find?_filter_of hr' ?_, hresumable⟩, c, find?_filter_of hc ?_, hlinked⟩
    · rw [hresumable.1]
      exact decide_eq_true hcurrent.symm
    · rw [connection?_id hc]
      exact decide_eq_true hcurrent.symm

theorem Unstamped.claimed {now : ℕ} {jid p : String} {target : ConnectionID} (h : Unstamped db)
    (hclaimed : Claimed now sid p jid db target db')
    (hstamp : ∀ c ∈ db.connections, c.id = target → c.loggedOutAt = none) : Unstamped db' := by
  cases hclaimed with
  | fresh hr => exact h.setConnection fun c hc hid _ _ => hstamp c hc hid
  | merged hr hmem hne =>
    refine Unstamped.setConnection (fun c hc => h c (List.mem_of_mem_filter hc)) fun c hc hid _ _ => ?_
    exact hstamp c (List.mem_of_mem_filter hc) hid

/-! ### Updates -/

/-- A logout is recorded where the connection is not connected; `down` says that it is not. -/
def SafeUpdates (down : Prop) : List RowUpdate → Prop
  | [] => True
  | .session status :: todo => status ≠ .ended ∧ SafeUpdates down todo
  | .disconnect :: todo => SafeUpdates True todo
  | .recordLogout :: todo => down ∧ SafeUpdates down todo
  | .worker _ :: todo => SafeUpdates False todo
  | .qr _ :: todo => SafeUpdates False todo
  | .sessionConnecting :: todo => SafeUpdates down todo
  | .interruptSync :: todo => SafeUpdates down todo

theorem SafeUpdates.mono {down down' : Prop} (hdown : down → down') {todo : List RowUpdate} (h : SafeUpdates down todo) :
    SafeUpdates down' todo := by
  induction todo generalizing down down' with
  | nil => trivial
  | cons u todo ih =>
    cases u with
    | session status => exact ⟨h.1, ih hdown h.2⟩
    | recordLogout => exact ⟨hdown h.1, ih hdown h.2⟩
    | disconnect | worker | qr => exact h
    | sessionConnecting | interruptSync => exact ih hdown h

theorem notConnected_run {now : ℕ} {u : RowUpdate} {todo : List RowUpdate}
    (h : SafeUpdates (NotConnected cid db) (u :: todo)) : SafeUpdates (NotConnected cid (u.run now sid cid db)) todo := by
  have hkeep : ∀ f : Connection → Connection, (∀ c, (f c).status = c.status) → NotConnected cid db →
      NotConnected cid (db.setConnection cid f) := fun f hf hdown c hc hid => by
    rcases mem_setConnection hc with ⟨hmem, -⟩ | ⟨c₀, hc₀, hid₀, rfl⟩
    · exact hdown c hmem hid
    · rw [hf]
      exact hdown c₀ hc₀ hid₀
  cases u with
  | session status => exact h.2
  | sessionConnecting => exact h
  | disconnect =>
    refine SafeUpdates.mono (fun _ c hc hid => ?_) h
    rcases mem_setConnection hc with ⟨-, hne⟩ | ⟨c₀, -, -, rfl⟩
    · exact absurd hid hne
    · rw [connectionUpdate_status]
      exact nofun
  | interruptSync =>
    refine SafeUpdates.mono (hkeep _ ?_) h
    exact fun _ => rfl
  | recordLogout =>
    refine SafeUpdates.mono (hkeep _ ?_) h.2
    exact fun _ => rfl
  | worker | qr => exact SafeUpdates.mono False.elim h

theorem Unstamped.run {now : ℕ} {u : RowUpdate} {todo : List RowUpdate} (h : Unstamped db)
    (hsafe : SafeUpdates (NotConnected cid db) (u :: todo))
    (hworker : u = .worker .connected → ∀ c ∈ db.connections, c.id = cid → c.loggedOutAt = none) :
    Unstamped (u.run now sid cid db) := by
  cases u with
  | session | sessionConnecting => exact h
  | disconnect =>
    refine h.setConnection fun c _ _ _ hstatus => ?_
    rw [connectionUpdate_status] at hstatus
    exact nomatch hstatus
  | interruptSync => exact h.setConnection fun _ _ _ hc => hc
  | recordLogout => exact h.setConnection fun c hc hid _ hstatus => absurd hstatus (hsafe.1 c hc hid)
  | qr => exact h.setConnection fun _ _ _ _ hstatus => nomatch hstatus
  | worker status =>
    cases status with
    | connected => exact h.setConnection fun c hc hid _ _ => hworker rfl c hc hid
    | connecting =>
      refine h.setConnection fun c _ _ hc hstatus => ?_
      split_ifs at hstatus ⊢
      · exact hc hstatus
    | error | failed => exact h.setConnection fun _ _ _ _ hstatus => nomatch hstatus

theorem connectionUpdate_archived (now : ℕ) (status : ConnectionStatus) (o : Option String) (jid : String) (c : Connection) :
    (TenantDb.connectionUpdate now status o jid c).archivedAt = c.archivedAt := by
  unfold TenantDb.connectionUpdate
  cases o <;> dsimp only <;> split_ifs <;> rfl

theorem connectionUpdate_stamp (now : ℕ) (status : ConnectionStatus) (o : Option String) (jid : String) (c : Connection) :
    (TenantDb.connectionUpdate now status o jid c).loggedOutAt = if status = .connected then none else c.loggedOutAt := by
  unfold TenantDb.connectionUpdate
  cases o <;> dsimp only <;> split_ifs <;> rfl

theorem connectionUpdate_phone (now : ℕ) (status : ConnectionStatus) (o : Option String) (jid : String) (c : Connection) :
    (TenantDb.connectionUpdate now status o jid c).phoneNumber = o.or c.phoneNumber := by
  unfold TenantDb.connectionUpdate
  cases o <;> dsimp only <;> split_ifs <;> rfl

theorem linked_connectionUpdate {now : ℕ} {status : ConnectionStatus} {o : Option String} {jid : String} {c : Connection}
    (h : Linked trimLower phone c) (ho : ∀ q ∈ o, normalizeWhatsAppPhone trimLower q = phone) :
    Linked trimLower phone (TenantDb.connectionUpdate now status o jid c) := by
  obtain ⟨harchived, hstamp, e, he, hphone⟩ := h
  refine ⟨?_, ?_, ?_⟩
  · rw [connectionUpdate_archived, harchived]
  · rw [connectionUpdate_stamp, hstamp, ite_self]
  · rw [connectionUpdate_phone]
    cases o with
    | none => exact ⟨e, he, hphone⟩
    | some q => exact ⟨q, rfl, ho q rfl⟩

theorem Established.run {now : ℕ} {u : RowUpdate} {down : Prop} {todo : List RowUpdate}
    (h : Established trimLower db cid sid phone) (hsafe : SafeUpdates down (u :: todo))
    (hlogout : ¬ (u = .recordLogout ∧ cid = cid')) : Established trimLower (u.run now sid' cid' db) cid sid phone := by
  cases u with
  | session status => exact h.updateSessionStatus fun hended => absurd hended hsafe.1
  | sessionConnecting => exact h.setSession (fun _ => rfl) fun _ _ hr _ => hr
  | disconnect => exact h.setConnection (connectionUpdate_id _ _ _ _) fun _ _ hc => linked_connectionUpdate hc nofun
  | interruptSync | qr => exact h.setConnection (fun _ => rfl) fun _ _ hc => hc
  | recordLogout => exact h.setConnection (fun _ => rfl) fun hsame => absurd ⟨rfl, hsame.symm⟩ hlogout
  | worker status =>
    cases status with
    | connecting =>
      refine h.setConnection (fun c => ?_) fun _ c hc => ?_
      · split_ifs <;> rfl
      · split_ifs <;> exact hc
    | connected | error | failed => exact h.setConnection (fun _ => rfl) fun _ _ hc => hc

theorem safe_disconnectUpdates (down : Prop) (e : ConnectionEvent) (wasSyncing : Bool) :
    SafeUpdates down (disconnectUpdates e wasSyncing) := by
  refine ⟨nofun, ?_⟩
  cases wasSyncing with
  | true | false =>
    by_cases hout : e.type = .loggedOut
    · simp [hout, SafeUpdates]
    · simp [hout, SafeUpdates]

theorem safe_workerUpdates (down : Prop) (status : WorkerStatus) : SafeUpdates down (workerUpdates status) := by
  cases status with
  | connecting => trivial
  | connected | error | failed => exact ⟨nofun, trivial⟩

/-! ### The invariant -/

variable (trimLower) in
structure StampInv (s : EventState) : Prop where
  stamp : Unstamped s.db
  last : ∀ cid sid phone, s.last cid = some (sid, phone) → Established trimLower s.db cid sid phone

variable (trimLower) in
def StampOk (s : EventState) : EventCall → Prop
  | .resuming e sid cid => Established trimLower s.db cid sid (normalizeWhatsAppPhone trimLower e.phoneNumber)
  | .looking e sid cid =>
    e.phoneNumber ≠ "" → Established trimLower s.db cid sid (normalizeWhatsAppPhone trimLower e.phoneNumber)
  | .linking e sid cid =>
    e.phoneNumber ≠ "" → Established trimLower s.db cid sid (normalizeWhatsAppPhone trimLower e.phoneNumber)
  | .admitting e sid cid => s.last cid ≠ some (sid, normalizeWhatsAppPhone trimLower e.phoneNumber)
  | .updating _ _ cid todo => SafeUpdates (NotConnected cid s.db) todo
  | _ => True

theorem last_forget {P : ConnectionID → SessionID → Bool} (h : (s.forget P).last cid = some (sid, phone)) :
    s.last cid = some (sid, phone) ∧ P cid sid = false := by
  obtain ⟨hlast, hP⟩ := Option.filter_eq_some_iff.mp h
  exact ⟨hlast, by simpa using hP⟩

theorem last_connected {cid₁ : ConnectionID} {sid₁ : SessionID} {phone₁ : String}
    (h : (s.connected cid sid phone).last cid₁ = some (sid₁, phone₁)) :
    (cid₁ = cid ∧ (s.db.connection? cid).isSome = true ∧ sid₁ = sid ∧ phone₁ = phone) ∨
      s.last cid₁ = some (sid₁, phone₁) ∧ (cid₁ ≠ cid ∨ s.db.connection? cid = none) := by
  unfold EventState.connected at h
  split_ifs at h with hthere
  · by_cases hcid : cid₁ = cid
    · subst hcid
      dsimp only at h
      rw [Function.update_self] at h
      obtain ⟨rfl, rfl⟩ := Prod.mk.inj (Option.some.inj h)
      exact .inl ⟨rfl, hthere, rfl, rfl⟩
    · dsimp only at h
      rw [Function.update_of_ne hcid] at h
      exact .inr ⟨h, .inl hcid⟩
  · exact .inr ⟨h, .inr (by simpa using hthere)⟩

theorem unstamped_connected {now : ℕ} {o : Option String} {jid : String} (h : Unstamped db) :
    Unstamped (db.setConnection cid (TenantDb.connectionUpdate now .connected o jid)) :=
  h.setConnection fun c _ _ _ _ => (connectionUpdate_stamp now .connected o jid c).trans (if_pos rfl)

theorem StampInv.link {now : ℕ} {e : ConnectionEvent} (htrims : TrimsLower trimLower) (hI : StampInv trimLower s)
    (hx : StampOk trimLower s (.linking e sid cid)) (hdb : linkSession trimLower now e cid s.db = .ok db) :
    StampInv trimLower (if e.phoneNumber ≠ "" then
      ({ s with db := db } : EventState).connected cid sid (normalizeWhatsAppPhone trimLower e.phoneNumber)
    else { s with db := db }) := by
  obtain ⟨o, rfl, ho⟩ := linkSession_ok _ hdb
  have hstamp : Unstamped (s.db.setConnection cid (TenantDb.connectionUpdate now .connected o e.jid)) :=
    unstamped_connected hI.stamp
  split_ifs with hphone
  · refine ⟨?_, fun cid₁ sid₁ phone₁ hlast => ?_⟩ <;> rw [db_connected]
    · exact hstamp
    rcases last_connected hlast with ⟨rfl, -, rfl, rfl⟩ | ⟨hlast, hne | hnone⟩
    · refine (hx hphone).setConnection (connectionUpdate_id _ _ _ _) fun _ c hc => linked_connectionUpdate hc fun q hq => ?_
      rw [(ho q hq).1, htrims.normalize]
    · exact (hI.last _ _ _ hlast).setConnection (connectionUpdate_id _ _ _ _) fun hsame => absurd hsame.symm hne
    · have hlinked : Established trimLower (s.db.setConnection cid (TenantDb.connectionUpdate now .connected o e.jid)) cid sid
          (normalizeWhatsAppPhone trimLower e.phoneNumber) := by
        refine (hx hphone).setConnection (connectionUpdate_id _ _ _ _) fun _ c hc => linked_connectionUpdate hc fun q hq => ?_
        rw [(ho q hq).1, htrims.normalize]
      obtain ⟨-, c, hc, -⟩ := hlinked
      exact absurd (hnone.symm.trans hc) (Option.some_ne_none c).symm
  · refine ⟨hstamp, fun cid₁ sid₁ phone₁ hlast => ?_⟩
    exact (hI.last _ _ _ hlast).setConnection (connectionUpdate_id _ _ _ _) fun _ c hc =>
      linked_connectionUpdate hc fun q hq => absurd (ho q hq).2 hphone

theorem StampInv.claim {now : ℕ} {jid p : String} {target : ConnectionID} (htrims : TrimsLower trimLower)
    (hI : StampInv trimLower s) (hclaimed : Claimed now sid (normalizeWhatsAppPhone trimLower p) jid s.db target db)
    (hstamp : ∀ c ∈ s.db.connections, c.id = target → c.loggedOutAt = none) :
    StampInv trimLower ((({ s with db := db } : EventState).forget fun c _ =>
      (s.db.session? sid).any fun r => decide (c = r.connectionID)).connected target sid
        (normalizeWhatsAppPhone trimLower p)) := by
  have hkept : ∀ cid₁ sid₁ phone₁, (({ s with db := db } : EventState).forget fun c _ =>
      (s.db.session? sid).any fun r => decide (c = r.connectionID)).last cid₁ = some (sid₁, phone₁) → cid₁ ≠ target →
        Established trimLower db cid₁ sid₁ phone₁ := fun cid₁ sid₁ phone₁ hlast hne => by
    obtain ⟨hlast, hcurrent⟩ := last_forget hlast
    refine (hI.last _ _ _ hlast).claimed hclaimed (fun r hr hsame => ?_) hne.symm
    rw [hr] at hcurrent
    exact of_decide_eq_false hcurrent hsame.symm
  refine ⟨?_, fun cid₁ sid₁ phone₁ hlast => ?_⟩ <;> rw [db_connected]
  · exact hI.stamp.claimed hclaimed hstamp
  · rcases last_connected hlast with ⟨rfl, hthere, rfl, rfl⟩ | ⟨hbefore, hne | hnone⟩
    · obtain ⟨c, hc⟩ := Option.isSome_iff_exists.mp hthere
      exact established_claimed htrims hclaimed hstamp
        (hclaimed.there ⟨c, List.mem_of_find?_eq_some hc, connection?_id hc⟩)
    · exact hkept _ _ _ hbefore hne
    · refine hkept _ _ _ hbefore fun hsame => ?_
      subst hsame
      -- a session has last connected on the target, so that the target is there
      obtain ⟨-, c, hc, -⟩ := hI.last _ _ _ (last_forget hbefore).1
      obtain ⟨-, c', hc', -⟩ := established_claimed htrims hclaimed hstamp
        ⟨c, List.mem_of_find?_eq_some hc, connection?_id hc⟩
      exact absurd (hnone.symm.trans hc') (Option.some_ne_none c').symm

theorem StampInv.stop {now : ℕ} {reason : String} {policy : TenantDb.StopPolicy} (hI : StampInv trimLower s) :
    StampInv trimLower (s.stop now sid cid reason policy) := by
  refine ⟨?_, fun cid₁ sid₁ phone₁ hlast => ?_⟩
  · have hstamp : Unstamped s.db := hI.stamp
    exact hstamp.setConnection fun _ _ _ _ hstatus => nomatch hstatus
  · obtain ⟨hlast, hkept⟩ := last_forget hlast
    simp only [Bool.or_eq_false_iff, Bool.and_eq_false_iff, decide_eq_false_iff_not] at hkept
    obtain ⟨harchive, hend⟩ := hkept
    have hsession : Established trimLower (TenantDb.updateSessionStatus now sid
        (if policy.endSession then .ended else .disconnected) (some reason)
          { s.db with kills := ⟨sid, reason, policy.unlink⟩ :: s.db.kills }) cid₁ sid₁ phone₁ := by
      refine Established.updateSessionStatus (hI.last _ _ _ hlast) fun hended hsame => ?_
      split_ifs at hended with hends
      exact (hend.resolve_left (by rw [hends]; exact nofun)) hsame.symm
    refine hsession.setConnection (fun _ => rfl) fun hsame c hc => ?_
    have hopen : policy.archive = false := harchive.resolve_right fun hne => hne hsame.symm
    refine ⟨?_, hc.2⟩
    rw [hopen]
    exact hc.1

theorem StampInv.update {now : ℕ} {u : RowUpdate} {todo : List RowUpdate} (hI : StampInv trimLower s)
    (hsafe : SafeUpdates (NotConnected cid s.db) (u :: todo))
    (hworker : u = .worker .connected → ∀ c ∈ s.db.connections, c.id = cid → c.loggedOutAt = none) :
    StampInv trimLower (s.update now sid cid u) := by
  refine ⟨hI.stamp.run hsafe hworker, fun cid₁ sid₁ phone₁ hlast => ?_⟩
  obtain ⟨hlast, hlogout⟩ := last_forget hlast
  exact (hI.last _ _ _ hlast).run hsafe (of_decide_eq_false hlogout)

/-! ### Runs -/

theorem stampOk_dispatch (r : Session) (e : SessionEvent) :
    StampOk trimLower s (dispatchEvent r sid e) := by
  cases e with
  | connectionStatus status => exact safe_workerUpdates _ status
  | qr qrCode =>
    show StampOk trimLower s (if _ then _ else _)
    split_ifs
    · trivial
    · exact ⟨nofun, trivial⟩
  | connection e =>
    unfold dispatchEvent
    dsimp only
    split
    · split_ifs with hended hphone
      · trivial
      · trivial
      · exact fun h => absurd h hphone
    · split_ifs with hended hphone
      · trivial
      · trivial
      · exact fun h => absurd h hphone
    · split_ifs <;> trivial
    · trivial
    · trivial

theorem stamp_move {a : EventAction} (htrims : TrimsLower trimLower) (hI : StampInv trimLower s)
    (hx : StampOk trimLower s x) (h : EventMove trimLower s x a w y)
    (hclaim : ∀ e sid cid now, x = .claiming e sid cid → a = .next now →
      ∀ target ∈ s.db.claimTarget sid (normalizeWhatsAppPhone trimLower e.phoneNumber),
        ∀ c ∈ s.db.connections, c.id = target → c.loggedOutAt = none)
    (hworker : ∀ e sid cid todo now, x = .updating e sid cid (.worker .connected :: todo) → a = .next now →
      ∀ c ∈ s.db.connections, c.id = cid → c.loggedOutAt = none) : StampInv trimLower w ∧ StampOk trimLower w y := by
  cases h with
  | receive | unknown | expire | keep | updated | fail | gone => exact ⟨hI, trivial⟩
  | dispatch => exact ⟨hI, stampOk_dispatch _ _⟩
  | recognise hknown => exact ⟨hI, isEstablishedReconnect_iff.mp hknown⟩
  | pair hunknown =>
    refine ⟨hI, fun hlast => ?_⟩
    have hknown := isEstablishedReconnect_iff.mpr (hI.last _ _ _ hlast)
    rw [hunknown] at hknown
    exact nomatch hknown
  | resume =>
    rename_i e sid cid now
    have hkeep : ∀ cid₁ sid₁ phone₁, Established trimLower s.db cid₁ sid₁ phone₁ →
        Established trimLower (s.db.updateSessionStatus now sid .connected none) cid₁ sid₁ phone₁ :=
      fun _ _ _ h => h.updateSessionStatus nofun
    exact ⟨⟨hI.stamp, fun _ _ _ hlast => hkeep _ _ _ (hI.last _ _ _ hlast)⟩, fun _ => hkeep _ _ _ hx⟩
  | found => exact ⟨hI, hx⟩
  | link hdb =>
    exact ⟨hI.link htrims hx hdb, trivial⟩
  | reject | refuse =>
    refine ⟨hI, ?_⟩
    unfold rejectIdentity
    split_ifs <;> trivial
  | answer =>
    refine ⟨hI, ?_⟩
    unfold admitted
    split <;> trivial
  | claim htarget hclaimed =>
    exact ⟨hI.claim htrims hclaimed (hclaim _ _ _ _ rfl rfl _ htarget), trivial⟩
  | stop => exact ⟨hI.stop, trivial⟩
  | drop wasSyncing => exact ⟨hI, safe_disconnectUpdates _ _ wasSyncing⟩
  | update =>
    rename_i e sid cid now u todo
    refine ⟨hI.update hx fun hconnected => ?_, notConnected_run hx⟩
    subst hconnected
    exact hworker _ _ _ _ _ rfl rfl

theorem StampInv.relink (hI : StampInv trimLower s) (h : s.relink trimLower cid sid = some w) : StampInv trimLower w := by
  unfold EventState.relink at h
  split_ifs at h
  split at h
  · exact nomatch h
  · next connection hconnection =>
    split_ifs at h
    obtain rfl := Option.some.inj h
    have hstamp : Unstamped s.db := hI.stamp
    refine ⟨hstamp.setConnection fun _ _ _ _ hstatus => (nomatch hstatus), fun cid₁ sid₁ phone₁ hlast => ?_⟩
    have hpending : Established trimLower (s.db.setConnection cid fun c =>
        { c with
          status := .pending
          archivedAt := none
          qrCode := none }) cid₁ sid₁ phone₁ :=
      (hI.last _ _ _ hlast).setConnection (fun _ => rfl) fun _ c hc => ⟨rfl, hc.2⟩
    obtain ⟨⟨r, hr, hresumable⟩, hlinked⟩ := hpending
    refine ⟨⟨r, ?_, hresumable⟩, hlinked⟩
    show List.find? _ (s.db.sessions ++ _) = some r
    rw [List.find?_append]
    exact congrArg (Option.or · _) hr

theorem StampInv.archive {now : ℕ} (hI : StampInv trimLower s) (h : s.archive now cid = some w) : StampInv trimLower w := by
  unfold EventState.archive at h
  split at h
  · next connection session hconnection hsession =>
    split_ifs at h
    obtain rfl := Option.some.inj h
    have hstamp : Unstamped s.db := hI.stamp
    refine ⟨hstamp.setConnection fun _ _ _ _ hstatus => (nomatch hstatus), fun cid₁ sid₁ phone₁ hlast => ?_⟩
    obtain ⟨hlast, hkept⟩ := last_forget hlast
    simp only [Bool.or_eq_false_iff, decide_eq_false_iff_not] at hkept
    let db := { s.db with kills := ⟨session.id, "connection archived and unlinked", true⟩ :: s.db.kills }
    have hbefore : Established trimLower db cid₁ sid₁ phone₁ := hI.last _ _ _ hlast
    have harchived : Established trimLower (db.setConnection cid fun c =>
        { c with
          status := .disconnected
          qrCode := none
          archivedAt := some now }) cid₁ sid₁ phone₁ :=
      hbefore.setConnection (fun _ => rfl) fun hsame => absurd hsame.symm hkept.1
    exact harchived.updateSessionStatus fun _ hsame => hkept.2 hsame.symm
  · exact nomatch h

variable (trimLower) in
def StampHolds : Calls EventState EventCall → Prop := Holds (StampInv trimLower) fun s _ x => StampOk trimLower s x

theorem stampHolds_step (htrims : TrimsLower trimLower) (t : Calls EventState EventCall)
    (a : CallAction EventAction AccountAction) (t' : Calls EventState EventCall) (hI : StampHolds trimLower t)
    (hC : OneAfterAnother t a ∧ NoStampLeft trimLower t a) (h : (eventSystem trimLower).step t a = some t') :
    StampHolds trimLower t' := by
  have hidle : ∀ (w : EventState) (q : ℕ), t.calls q = .idle → StampOk trimLower w (t.calls q) := fun w q hq => by
    rw [hq]
    trivial
  cases a with
  | act p a =>
    obtain ⟨w, y, hact, rfl⟩ := Machine.step_act h
    have hmove : EventMove trimLower t.shared (t.calls p) a w y := eventAct_move _ hact
    obtain ⟨hone, hleft⟩ := hC
    obtain ⟨hw, hy⟩ := stamp_move htrims hI.1 (hI.2 p) hmove
      (fun e sid cid now hx ha => by
        subst ha
        simp only [NoStampLeft, hx] at hleft
        exact hleft)
      (fun e sid cid todo now hx ha => by
        subst ha
        simp only [NoStampLeft, hx] at hleft
        exact hleft)
    exact Holds.set hw hy fun q hq => hidle w q (hone q hq)
  | env e =>
    obtain ⟨w, henv, rfl⟩ := Machine.step_env h
    refine ⟨?_, fun q => hidle w q (hC.1 q)⟩
    cases e with
    | relink cid sid => exact hI.1.relink henv
    | archive now cid => exact hI.1.archive henv

theorem StampHolds.stampEnds {t : Calls EventState EventCall} (h : StampHolds trimLower t) : StampEnds trimLower t where
  stamp := h.1.stamp
  recognised := fun cid sid phone hlast p hp =>
    isEstablishedReconnect_iff.mpr (hp ▸ h.1.last cid sid phone hlast)
  admitted := fun p e sid cid hp => by
    have hx := h.2 p
    rw [hp] at hx
    exact hx

/-- **A stamp ends with the logout it records**, as long as no connection that has one is claimed or reported
connected. -/
theorem logout_stamp_ends (htrims : TrimsLower trimLower) (db : TenantDb)
    (hdb : ∀ c ∈ db.connections, c.status = .connected → c.loggedOutAt = none)
    (as : List (CallAction EventAction AccountAction))
    (h : Meets (eventSystem trimLower).step (fun t a => OneAfterAnother t a ∧ NoStampLeft trimLower t a)
      (.start ⟨db, fun _ => none⟩ .idle) as) :
    Always (eventSystem trimLower).step (StampEnds trimLower) (.start ⟨db, fun _ => none⟩ .idle) as := by
  have hstart : StampHolds trimLower (.start ⟨db, fun _ => none⟩ .idle) :=
    holds_start ⟨hdb, fun _ _ _ hlast => absurd hlast.symm (Option.some_ne_none _)⟩ fun _ => trivial
  exact (always_of_meets (stampHolds_step htrims) hstart h).mono fun _ => StampHolds.stampEnds

end LogoutStamp

/-! ### A logout and what follows -/

/-- A connection that has been set up, and its session. -/
def newAccount : TenantDb :=
  ⟨[⟨"c", .pending, none, none, none, none, none, none, none⟩], [⟨"s", "c", .pending, none, none, none, none⟩], []⟩

def connectedEvent (phone : String) : SessionEvent := .connection ⟨.connected, "", phone, ""⟩

def loggedOutEvent : SessionEvent := .connection ⟨.loggedOut, "401", "", ""⟩

/-- Call `p` handles the event in `n` statements. -/
def handle (p : ℕ) (sid : SessionID) (e : SessionEvent) (n : ℕ) : List (CallAction EventAction AccountAction) :=
  .act p (.receive e sid) :: List.replicate n (.act p (.next p))

/-- Call `p` handles the first `connected` of a session. -/
def pairSession (p : ℕ) (sid : SessionID) (phone : String) : List (CallAction EventAction AccountAction) :=
  handle p sid (connectedEvent phone) 2 ++ [.act p (.admission (some .allowed)), .act p (.next p)]

theorem trimsLower_id : TrimsLower id := ⟨fun _ => rfl, fun _ h => h⟩

theorem meets_oneAfterAnother (n : ℕ) {db : TenantDb} {as : List (CallAction EventAction AccountAction)}
    (hbelow : as.all (·.below n) = true)
    (h : Meets (eventSystem id).step (OthersBelow n (· = .idle)) (.start ⟨db, fun _ => none⟩ .idle) as) :
    Meets (eventSystem id).step OneAfterAnother (.start ⟨db, fun _ => none⟩ .idle) as := by
  refine meets_of_below (P := (· = .idle)) n rfl (fun s a h => ?_) (fun _ _ => rfl) hbelow h
  cases a with
  | act p a => exact fun q hq => h q fun hp => hq (Option.some.inj hp).symm
  | env e => exact fun q => h q nofun

/-- A pairing, a drop and a return. -/
theorem logout_stamp_ends_resumed : Always (eventSystem id).step (StampEnds id) (.start ⟨newAccount, fun _ => none⟩ .idle)
    (pairSession 0 "s" "65" ++ handle 1 "s" (.connection ⟨.disconnected, "", "", ""⟩) 5 ++
      handle 2 "s" (connectedEvent "65") 5) :=
  logout_stamp_ends trimsLower_id newAccount (by decide) _
    (Meets.and (meets_oneAfterAnother 3 rfl (meets_of_check (by decide +kernel))) (meets_of_check (by decide +kernel)))

/-- A logged out account is paired again: it is connected, and still stamped. -/
theorem stamp_outlives_logout : ¬ ∀ as, Meets (eventSystem id).step OneAfterAnother
    (.start ⟨newAccount, fun _ => none⟩ .idle) as →
      Always (eventSystem id).step (StampEnds id) (.start ⟨newAccount, fun _ => none⟩ .idle) as := by
  intro h
  have hrun : (runActions (eventSystem id).step (.start ⟨newAccount, fun _ => none⟩ .idle)
      (pairSession 0 "s" "65" ++ handle 1 "s" loggedOutEvent 6 ++ pairSession 2 "s" "65")).map
      (fun t => t.shared.db.connections.map fun c => (c.status, c.loggedOutAt)) = some [(.connected, some 1)] := by
    decide +kernel
  obtain ⟨t, ht, hend⟩ := Option.map_eq_some_iff.mp hrun
  have hstamp : StampEnds id t := always_iff_reached.mp
    (h _ (meets_oneAfterAnother 3 rfl (meets_of_check (by decide +kernel)))) _ [] t (List.append_nil _).symm ht
  obtain ⟨c, hc, heq⟩ := List.mem_map.mp (hend ▸ List.mem_cons_self)
  obtain ⟨hstatus, hlogged⟩ := Prod.mk.inj heq
  have hnone : c.loggedOutAt = none := hstamp.stamp c hc hstatus
  rw [hlogged] at hnone
  exact nomatch hnone

end TeamInbox.Api
