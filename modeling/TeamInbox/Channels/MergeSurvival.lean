import TeamInbox.Channels.Mirror
import TeamInbox.Channels.SecondThread

/-!
# TeamInbox.Channels.MergeSurvival — merged customers, and the mirror

An endpoint that a merge has moved is held at the target of the merge until the merge is reversed or the target is merged
on.  Messages of channels never move it; a mirror write of the contact that the address once belonged to takes it back,
and the cases of that contact with it.
-/

namespace TeamInbox.Channels

open TeamInbox.Lib TeamInbox.Lib.Indexed
open TeamInbox.Cases (Uuid Case CaseKind Assignment ProjectionSync)
open TeamInbox.Messages (givenId)

variable {db db' : SpineDb}

/-! ### Messages leave endpoints with their customers -/

def EndpointsKept (db db' : SpineDb) : Prop := ∀ id contact, db.contactOf id = some contact → db'.contactOf id = some contact

theorem EndpointsKept.of_same (h : db'.endpoints = db.endpoints) : EndpointsKept db db' := by
  intro id contact hcontact
  unfold SpineDb.contactOf
  rw [h]
  exact hcontact

theorem EndpointsKept.trans {db₁ : SpineDb} (h : EndpointsKept db db₁) (h' : EndpointsKept db₁ db') :
    EndpointsKept db db' := fun id contact hcontact => h' id contact (h id contact hcontact)

theorem find_changed_endpoint {p : SpineEndpoint → Bool} {g : SpineEndpoint → SpineEndpoint} (h : ∀ f, (g f).id = f.id)
    (rows : List SpineEndpoint) (id : Uuid) :
    (rows.map (changed p g)).find? (·.id = id) = (rows.find? (·.id = id)).map (changed p g) :=
  find?_changed (q := fun f => decide (f.id = id)) (fun f _ => decide_eq_decide.mpr (by rw [h f])) rows

theorem EndpointsKept.of_set {p : SpineEndpoint → Bool} {g : SpineEndpoint → SpineEndpoint}
    (hid : ∀ f, (g f).id = f.id)
    (h : ∀ f ∈ db.endpoints.rows, p f = true → f.contactID.isSome → (g f).contactID = f.contactID)
    (hdb : db'.endpoints.rows = db.endpoints.rows.map (changed p g)) : EndpointsKept db db' := by
  intro id contact hcontact
  obtain ⟨f, hf, hcontact⟩ := Option.bind_eq_some_iff.mp hcontact
  unfold SpineDb.contactOf
  rw [hdb, find_changed_endpoint hid, hf]
  show (changed p g f).contactID = some contact
  by_cases hp : p f = true
  · rw [changed_pos hp, h f (List.mem_of_find?_eq_some hf) hp (by rw [hcontact]; rfl), hcontact]
  · rw [changed_neg hp, hcontact]

theorem id_of_find {rows : List SpineEndpoint} {id : Uuid} {f : SpineEndpoint} (h : rows.find? (·.id = id) = some f) :
    f.id = id := of_decide_eq_true (List.find?_some (p := fun f : SpineEndpoint => decide (f.id = id)) h)

theorem EndpointsKept.of_insert {endpoints : Indexed endpointIndexes} {f : SpineEndpoint}
    (hinsert : db.endpoints.insert f = some endpoints) (hdb : db'.endpoints = endpoints) : EndpointsKept db db' := by
  intro id contact hcontact
  obtain ⟨g, hg, hcontact⟩ := Option.bind_eq_some_iff.mp hcontact
  have hfree := insert_isSome.mp (by rw [hinsert]; rfl : (db.endpoints.insert f).isSome) (fun f => some f.id)
    (List.mem_singleton_self _) f.id rfl g (List.mem_of_find?_eq_some hg)
  unfold SpineDb.contactOf
  rw [hdb, rows_insert hinsert, List.find?_cons_of_neg, hg]
  · exact hcontact
  · exact fun h => hfree (congrArg some ((id_of_find hg).trans (of_decide_eq_true h).symm))

theorem ensureSender_kept {o : Occasion} {e : MessageUpsert} {r : Option Uuid × SpineDb}
    (h : ensureSender o e db = some r) : EndpointsKept db r.2 := by
  unfold ensureSender at h
  split at h
  · obtain rfl := Option.some.inj h
    exact .of_same rfl
  · next sender _ =>
    obtain ⟨r, hr, rfl⟩ := Option.map_eq_some_iff.mp h
    unfold ensureEndpoint at hr
    split at hr
    · obtain rfl := Option.some.inj hr
      exact .of_set (p := fun f => f.id = _) (g := SpineEndpoint.refer sender) (fun _ => rfl) (fun _ _ _ _ => rfl) rfl
    · obtain ⟨endpoints, hinsert, rfl⟩ := Option.map_eq_some_iff.mp hr
      exact .of_insert hinsert rfl

theorem claimEndpoint_kept {o : Occasion} {f : SpineEndpoint} (hf : f ∈ db.endpoints.rows) :
    EndpointsKept db (claimEndpoint o f db).2 := by
  unfold claimEndpoint
  split
  · exact .of_same rfl
  · next hnone =>
    refine .of_set (p := fun g => g.id = f.id)
      (g := fun g => { g with contactID := some (o.uuids.draw (db.contacts.map (·.id))) }) (fun _ => rfl)
      (fun g hg hid hsome => ?_) rfl
    -- the endpoint claimed is the only one of its id, and it has no customer
    obtain rfl : g = f := (db.endpoints.unique _ (List.mem_singleton_self _)).eq hg hf rfl
      (congrArg some (of_decide_eq_true hid).symm)
    rw [hnone] at hsome
    exact nomatch hsome

theorem linkThread_endpoints {conversationID contact : Uuid} (h : linkThread conversationID contact db = some db') :
    db'.endpoints = db.endpoints := by
  unfold linkThread at h
  split at h
  · obtain rfl := Option.some.inj h
    rfl
  · obtain ⟨conversations, -, rfl⟩ := Option.map_eq_some_iff.mp h
    rfl

theorem backfill_endpoints {conversationID contact : Uuid} (h : backfillContact conversationID contact db = some db') :
    db'.endpoints = db.endpoints := by
  obtain ⟨states, -, h⟩ := Option.bind_eq_some_iff.mp h
  obtain ⟨assignments, -, h⟩ := Option.bind_eq_some_iff.mp h
  obtain ⟨cases, -, rfl⟩ := Option.map_eq_some_iff.mp h
  rfl

theorem mem_candidates {conversationID : Uuid} {candidate : Option Uuid} {f : SpineEndpoint}
    (h : f ∈ workflowCandidates conversationID candidate db) : f ∈ db.endpoints.rows := by
  unfold workflowCandidates at h
  split at h
  · exact List.mem_of_find?_eq_some (Option.mem_toList.mp h)
  · obtain ⟨q, -, hq⟩ := List.mem_filterMap.mp h
    exact List.mem_of_find?_eq_some hq

theorem attach_kept {o : Occasion} {conversationID : Uuid} {candidate : Option Uuid} {r : Option Uuid × SpineDb}
    (h : attachWorkflowContact o conversationID candidate db = some r) : EndpointsKept db r.2 := by
  obtain ⟨v, -, h⟩ := Option.bind_eq_some_iff.mp h
  split at h
  · obtain rfl := Option.some.inj h
    exact .of_same rfl
  · split_ifs at h
    · obtain rfl := Option.some.inj h
      exact .of_same rfl
    · split at h
      · next f hcandidates =>
        obtain ⟨db₂, h₂, rfl⟩ := Option.map_eq_some_iff.mp h
        obtain ⟨db₁, h₁, h₂⟩ := Option.bind_eq_some_iff.mp h₂
        have hf : f ∈ db.endpoints.rows := by
          have hmem := List.mem_singleton_self f
          rw [← hcandidates] at hmem
          exact mem_candidates (List.mem_filter.mp hmem).1
        exact (claimEndpoint_kept hf).trans (.of_same ((backfill_endpoints h₂).trans (linkThread_endpoints h₁)))
      · obtain rfl := Option.some.inj h
        exact .of_same rfl

theorem sync_endpoints {conversationID : Uuid} {contactID : Option Uuid} {sync : ProjectionSync}
    (h : syncConversationProjection conversationID contactID sync db = some db') : db'.endpoints = db.endpoints := by
  obtain ⟨states, -, rfl⟩ := Option.map_eq_some_iff.mp h
  rfl

theorem continueCase_endpoints {conversationID messageID : Uuid} {contactID : Option Uuid}
    (h : continueCase conversationID contactID messageID db = some db') : db'.endpoints = db.endpoints := by
  unfold continueCase at h
  split at h
  · obtain rfl := Option.some.inj h
    rfl
  · split_ifs at h
    · obtain ⟨db₁, hsync, rfl⟩ := Option.map_eq_some_iff.mp h
      exact (sync_endpoints hsync :)
    · obtain ⟨db₁, hsync, rfl⟩ := Option.map_eq_some_iff.mp h
      show db₁.endpoints = db.endpoints
      exact sync_endpoints hsync

theorem startCase_endpoints {o : Occasion} {conversationID messageID : Uuid} {contactID : Option Uuid} {reopened : Bool}
    {row : Case} (h : startCase o conversationID contactID messageID reopened row db = some db') :
    db'.endpoints = db.endpoints := by
  obtain ⟨db₁, hsync, rfl⟩ := Option.map_eq_some_iff.mp h
  refine (sync_endpoints hsync).trans ?_
  split <;> rfl

theorem record_endpoints {o : Occasion} {e : MessageUpsert} {conversationID messageID : Uuid} {contactID : Option Uuid}
    (h : recordInbound o e conversationID contactID messageID db = some db') : db'.endpoints = db.endpoints := by
  obtain ⟨db₁, hopen, hcount⟩ := Option.bind_eq_some_iff.mp h
  obtain ⟨⟨cases, inserted⟩, -, hopen⟩ := Option.bind_eq_some_iff.mp hopen
  have hopened : db₁.endpoints = db.endpoints := by
    dsimp only at hopen
    split at hopen
    · exact (startCase_endpoints hopen :)
    · exact continueCase_endpoints hopen
  dsimp only [countUnread] at hcount
  split at hcount
  · obtain rfl := Option.some.inj hcount
    exact hopened
  · obtain ⟨states, -, rfl⟩ := Option.map_eq_some_iff.mp hcount
    exact hopened

theorem nameSender_endpoints (e : MessageUpsert) (conversationID : Uuid) (senderEndpointID : Option Uuid) (db : SpineDb) :
    (nameSender e conversationID senderEndpointID db).endpoints = db.endpoints := by
  unfold nameSender
  split
  · unfold ensureParticipant
    split <;> rfl
  · rfl

theorem store_endpoints {o : Occasion} {e : MessageUpsert} {conversationID : Uuid} {senderEndpointID contactID : Option Uuid}
    (h : storeMessage o e conversationID senderEndpointID contactID db = some db') : db'.endpoints = db.endpoints := by
  unfold storeMessage at h
  split at h
  · next stored _ =>
    split at h
    · obtain rfl := Option.some.inj h
      rfl
    · obtain rfl := Option.some.inj h
      exact nameSender_endpoints e conversationID senderEndpointID (rewriteMessage e conversationID stored db)
  · obtain ⟨db₁, hrecord, rfl⟩ := Option.map_eq_some_iff.mp h
    have hnamed := nameSender_endpoints e conversationID senderEndpointID
      (insertMessage o e conversationID contactID db).2
    split at hrecord
    · exact (record_endpoints hrecord).trans hnamed
    · obtain rfl := Option.some.inj hrecord
      exact hnamed

/-- **A message moves no endpoint from its customer.** -/
theorem applyMessageUpsert_kept {o : Occasion} {e : MessageUpsert} (h : applyMessageUpsert o e db = some db') :
    EndpointsKept db db' := by
  obtain ⟨⟨conversationID, db₁⟩, hconversation, h⟩ := Option.bind_eq_some_iff.mp h
  obtain ⟨⟨senderEndpointID, db₂⟩, hsender, h⟩ := Option.bind_eq_some_iff.mp h
  obtain ⟨⟨contactID, db₃⟩, hattach, hstore⟩ := Option.bind_eq_some_iff.mp h
  obtain ⟨id, db₀, hensure, hensured⟩ := ensureConversation_spec o e db
  rw [hconversation] at hensure
  obtain ⟨rfl, rfl⟩ := Prod.mk.inj (Option.some.inj hensure)
  exact (EndpointsKept.of_same hensured.endpoints).trans
    ((ensureSender_kept hsender).trans ((attach_kept hattach).trans (.of_same (store_endpoints hstore))))

/-! ### What the mirror writes -/

/-- What a mirror write does to customers and cases: it may write one endpoint, and move the cases of one contact. -/
structure Mirrored (written : Option (Uuid × Option Uuid)) (threaded : Option Uuid) (db db' : SpineDb) : Prop where
  endpoint : ∀ w ∈ written, db'.contactOf w.1 = w.2
  others : ∀ id, (∀ w ∈ written, id ≠ w.1) → db'.contactOf id = db.contactOf id
  cases : db'.cases.rows = match threaded with
    | none => db.cases.rows
    | some contact => db.cases.rows.map (changed (contactCase contact) (threadCase contact))

section Mirrored

variable {written written' : Option (Uuid × Option Uuid)} {threaded : Option Uuid} {db₁ : SpineDb}

theorem Mirrored.of_same (h : Mirrored written threaded db db₁) (hendpoints : db'.endpoints = db₁.endpoints)
    (hcases : db'.cases = db₁.cases) : Mirrored written threaded db db' := by
  have hsame : ∀ id, db'.contactOf id = db₁.contactOf id := fun id => by
    unfold SpineDb.contactOf
    rw [hendpoints]
  exact ⟨fun w hw => (hsame _).trans (h.endpoint w hw), fun id hid => (hsame id).trans (h.others id hid), by
    rw [hcases]
    exact h.cases⟩

theorem Mirrored.same (hendpoints : db'.endpoints = db.endpoints) (hcases : db'.cases = db.cases) :
    Mirrored none none db db' := by
  have hrefl : Mirrored none none db db := ⟨fun _ hw => (nomatch hw), fun _ _ => rfl, rfl⟩
  exact hrefl.of_same hendpoints hcases

theorem Mirrored.trans (h : Mirrored written none db db₁) (h' : Mirrored written' threaded db₁ db')
    (hwritten : written = none ∨ written = written') : Mirrored written' threaded db db' := by
  refine ⟨h'.endpoint, fun id hid => (h'.others id hid).trans (h.others id fun w hw => ?_), ?_⟩
  · rcases hwritten with rfl | rfl
    · exact nomatch hw
    · exact hid w hw
  · have hcases : db₁.cases.rows = db.cases.rows := h.cases
    rw [← hcases]
    exact h'.cases

theorem Mirrored.thread {contactID : Uuid} (h : Mirrored written none db db₁)
    (h' : threadWorkflow contactID contactID db₁ = some db') : Mirrored written (some contactID) db db' := by
  obtain ⟨states, -, h'⟩ := Option.bind_eq_some_iff.mp h'
  obtain ⟨assignments, -, h'⟩ := Option.bind_eq_some_iff.mp h'
  obtain ⟨cases, hupdate, rfl⟩ := Option.map_eq_some_iff.mp h'
  have hcases : db₁.cases.rows = db.cases.rows := h.cases
  exact ⟨h.endpoint, h.others, by rw [← hcases]; exact rows_update hupdate⟩

end Mirrored

theorem upsertEndpoint_spec {digest : String → Uuid} {t : LegacyThread} (h : upsertEndpoint digest t db = some db') :
    Mirrored (some (t.endpointID digest, t.owner)) none db db' ∧ db'.contacts = db.contacts := by
  unfold upsertEndpoint at h
  split at h
  · next hexists =>
    obtain rfl := Option.some.inj h
    have hfind : ∀ id, (db.endpoints.rows.map (changed (fun f => f.id = t.endpointID digest) t.rewrite)).find? (·.id = id) =
        (db.endpoints.rows.find? (·.id = id)).map (changed (fun f => f.id = t.endpointID digest) t.rewrite) :=
      fun id => find_changed_endpoint (g := t.rewrite) (fun _ => rfl) db.endpoints.rows id
    refine ⟨⟨fun w hw => ?_, fun id hid => ?_, rfl⟩, rfl⟩
    · obtain rfl := Option.some.inj hw
      obtain ⟨f, hf⟩ := Option.isSome_iff_exists.mp (List.find?_isSome.mpr (List.any_eq_true.mp hexists))
      show ((db.endpoints.rows.map (changed _ t.rewrite)).find? _).bind _ = t.owner
      rw [hfind, hf]
      show (changed _ t.rewrite f).contactID = t.owner
      rw [changed_pos (p := fun f : SpineEndpoint => f.id = t.endpointID digest) (decide_eq_true (id_of_find hf))]
      rfl
    · have hid : id ≠ t.endpointID digest := hid _ rfl
      show ((db.endpoints.rows.map (changed _ t.rewrite)).find? _).bind _ = db.contactOf id
      rw [hfind]
      unfold SpineDb.contactOf
      cases hf : db.endpoints.rows.find? (·.id = id) with
      | none => rfl
      | some f =>
        show (changed _ t.rewrite f).contactID = f.contactID
        rw [changed_neg (p := fun f : SpineEndpoint => f.id = t.endpointID digest) fun hp =>
          hid ((id_of_find hf).symm.trans (of_decide_eq_true hp))]
  · split at h
    · cases h
    · obtain ⟨endpoints, hinsert, rfl⟩ := Option.map_eq_some_iff.mp h
      refine ⟨⟨fun w hw => ?_, fun id hid => ?_, rfl⟩, rfl⟩
      · obtain rfl := Option.some.inj hw
        show (endpoints.rows.find? _).bind _ = t.owner
        rw [rows_insert hinsert, List.find?_cons_of_pos (p := fun f : SpineEndpoint => f.id = t.endpointID digest)
          (a := t.endpoint digest) (decide_eq_true rfl)]
        rfl
      · have hid : id ≠ t.endpointID digest := hid _ rfl
        show (endpoints.rows.find? _).bind _ = db.contactOf id
        rw [rows_insert hinsert, List.find?_cons_of_neg (p := fun f : SpineEndpoint => f.id = id)
          (a := t.endpoint digest) fun hp => hid (of_decide_eq_true hp).symm]
        rfl

theorem upsertConversation_same {t : LegacyThread} (h : upsertConversation t db = some db') :
    db'.endpoints = db.endpoints ∧ db'.cases = db.cases ∧ db'.contacts = db.contacts := by
  unfold upsertConversation at h
  split at h
  · obtain rfl := Option.some.inj h
    exact ⟨rfl, rfl, rfl⟩
  · split at h
    · cases h
    · obtain ⟨conversations, -, rfl⟩ := Option.map_eq_some_iff.mp h
      exact ⟨rfl, rfl, rfl⟩

/-- The endpoint that a bridge of the contact writes, and the customer it writes there. -/
def Workspace.claimOf (digest : String → Uuid) (contactID : Uuid) (db : Workspace) : Option (Uuid × Option Uuid) :=
  (db.legacyThread contactID).toOption.map fun t => (t.endpointID digest, t.owner)

theorem claimOf_congr {digest : String → Uuid} {contactID : Uuid} {db db' : Workspace}
    (hcontact : (db'.contact contactID).map (fun r => (r.1.id, r.2)) = (db.contact contactID).map fun r => (r.1.id, r.2))
    (hconnections : db'.connections = db.connections) : db'.claimOf digest contactID = db.claimOf digest contactID := by
  unfold Workspace.claimOf Workspace.legacyThread
  rw [hconnections]
  cases h : db.contact contactID with
  | none =>
    rw [h] at hcontact
    rw [Option.map_eq_none_iff.mp hcontact]
  | some r =>
    rw [h] at hcontact
    obtain ⟨r', hr', hsame⟩ := Option.map_eq_some_iff.mp hcontact
    obtain ⟨row, profile⟩ := r
    obtain ⟨row', profile'⟩ := r'
    obtain ⟨hid, rfl⟩ := Prod.mk.inj hsame
    rw [hr']
    dsimp only
    cases givenId profile'.whatsappConnectionID with
    | none => rfl
    | some connection =>
      cases givenId profile'.jid with
      | none => rfl
      | some jid =>
        by_cases hmem : connection ∈ db.connections
        · simp only [if_pos hmem]
          show some (_, if profile'.isGroup then none else some row'.id) = some (_, if profile'.isGroup then none else some row.id)
          rw [show row'.id = row.id from hid]
          rfl
        · simp only [if_neg hmem]

structure MirrorFrame (digest : String → Uuid) (db db' : Workspace) : Prop where
  claims : ∀ contactID, db'.claimOf digest contactID = db.claimOf digest contactID
  mergeEvents : db'.mergeEvents = db.mergeEvents
  reassignments : db'.reassignments = db.reassignments

section MirrorFrame

variable {digest : String → Uuid} {w w₁ w' : Workspace}

theorem MirrorFrame.refl (digest : String → Uuid) (w : Workspace) : MirrorFrame digest w w := ⟨fun _ => rfl, rfl, rfl⟩

theorem MirrorFrame.trans (h : MirrorFrame digest w w₁) (h' : MirrorFrame digest w₁ w') : MirrorFrame digest w w' :=
  ⟨fun c => (h'.claims c).trans (h.claims c), h'.mergeEvents.trans h.mergeEvents,
    h'.reassignments.trans h.reassignments⟩

theorem MirrorFrame.of_spine {spine : SpineDb} (h : spine.contacts = w.spine.contacts) :
    MirrorFrame digest w { w with spine := spine } := by
  refine ⟨fun contactID => claimOf_congr ?_ rfl, rfl, rfl⟩
  unfold Workspace.contact
  rw [h]
  rfl

theorem nameContact_frame (t : LegacyThread) : MirrorFrame digest w { w with spine := nameContact t w.spine } := by
  refine ⟨fun contactID => claimOf_congr ?_ rfl, rfl, rfl⟩
  have hid : ∀ c : SpineContact,
      (if c.id = t.row.id then { c with displayName := t.shownName.or t.profile.phoneNumber } else c).id = c.id := by
    intro c
    split <;> rfl
  unfold Workspace.contact nameContact
  rw [List.find?_map, Option.map_map, Option.map_map, Option.map_map]
  have hfind : ((fun c : SpineContact => decide (c.id = contactID)) ∘ fun c =>
      if c.id = t.row.id then { c with displayName := t.shownName.or t.profile.phoneNumber } else c) =
      fun c => decide (c.id = contactID) := funext fun c => decide_eq_decide.mpr (by rw [hid c])
  rw [hfind]
  refine congrArg (fun g => Option.map g _) (funext fun c => ?_)
  show ((if c.id = t.row.id then _ else c : SpineContact).id, _) = (c.id, _)
  rw [hid c]
  rfl

structure SameOwners (digest : String → Uuid) (w w' : Workspace) : Prop where
  frame : MirrorFrame digest w w'
  endpoints : w'.spine.endpoints = w.spine.endpoints
  cases : w'.spine.cases = w.spine.cases

theorem SameOwners.trans (h : SameOwners digest w w₁) (h' : SameOwners digest w₁ w') : SameOwners digest w w' :=
  ⟨h.frame.trans h'.frame, h'.endpoints.trans h.endpoints, h'.cases.trans h.cases⟩

theorem SameOwners.mirrored (h : SameOwners digest w w') : Mirrored none none w.spine w'.spine :=
  .same h.endpoints h.cases

theorem upsertParticipant_same (id : Uuid) (row : SpineParticipant) (w : Workspace) :
    SameOwners digest w (upsertParticipant id row w) := by
  unfold upsertParticipant
  split
  · exact ⟨.refl digest w, rfl, rfl⟩
  · exact ⟨⟨fun _ => claimOf_congr rfl rfl, rfl, rfl⟩, rfl, rfl⟩

theorem upsertParticipants_same (t : LegacyThread) (bridge : LinkedDeviceBridge) (w : Workspace) :
    SameOwners digest w (upsertParticipants t bridge w) :=
  (upsertParticipant_same _ _ w).trans (upsertParticipant_same _ _ _)

theorem buildBridge_spec {t : LegacyThread} (h : buildBridge digest t w = some w') :
    MirrorFrame digest w w' ∧ Mirrored (some (t.endpointID digest, t.owner)) none w.spine w'.spine := by
  obtain ⟨spine, hspine, rfl⟩ := Option.map_eq_some_iff.mp h
  obtain ⟨spine₁, hendpoint, hconversation⟩ := Option.bind_eq_some_iff.mp hspine
  obtain ⟨hwritten, hcontacts₁⟩ := upsertEndpoint_spec hendpoint
  obtain ⟨hendpoints, hcases, hcontacts⟩ := upsertConversation_same hconversation
  have hnamed : MirrorFrame digest w { w with spine := spine } := by
    refine (nameContact_frame (w := w) t).trans ?_
    exact MirrorFrame.of_spine (w := { w with spine := nameContact t w.spine }) (hcontacts.trans hcontacts₁)
  have hcontact : Mirrored none none w.spine (nameContact t w.spine) := .same rfl rfl
  have hwritten := (hcontact.trans hwritten (.inl rfl)).of_same hendpoints hcases
  have hparticipants : SameOwners digest _ _ := upsertParticipants_same t (t.bridge digest) { w with spine := spine }
  exact ⟨hnamed.trans hparticipants.frame, hwritten.of_same hparticipants.endpoints hparticipants.cases⟩

theorem legacyThread_id {contactID : Uuid} {t : LegacyThread} (h : w.legacyThread contactID = .ok t) :
    t.row.id = contactID := by
  unfold Workspace.legacyThread at h
  split at h
  · cases h
  · next row profile hcontact =>
    split at h
    · cases h
    · split at h
      · cases h
      · split at h
        · obtain rfl := Except.ok.inj h
          obtain ⟨c, hc, hrow⟩ := Option.map_eq_some_iff.mp hcontact
          obtain ⟨rfl, -⟩ := Prod.mk.inj hrow
          exact of_decide_eq_true (List.find?_some (p := fun c : SpineContact => decide (c.id = contactID)) hc)
        · cases h

def BridgeResult.Says (contactID : Uuid) (written : Option (Uuid × Option Uuid)) (r : BridgeResult) : Prop :=
  match r with
  | .ok bridge => written.isSome ∧ bridge.conversationID = contactID
  | .error _ => written = none

theorem ensureBridge_spec {contactID : Uuid} {r : BridgeResult × Workspace}
    (h : ensureLinkedDeviceBridge digest contactID w = some r) :
    MirrorFrame digest w r.2 ∧ Mirrored (w.claimOf digest contactID) none w.spine r.2.spine ∧
      BridgeResult.Says contactID (w.claimOf digest contactID) r.1 := by
  unfold ensureLinkedDeviceBridge at h
  unfold Workspace.claimOf
  split at h
  · next e he =>
    obtain rfl := Option.some.inj h
    rw [he]
    exact ⟨.refl digest w, .same rfl rfl, rfl⟩
  · next t ht =>
    obtain ⟨w', hbuild, rfl⟩ := Option.map_eq_some_iff.mp h
    obtain ⟨hframe, hwritten⟩ := buildBridge_spec hbuild
    rw [ht]
    exact ⟨hframe, hwritten, rfl, legacyThread_id ht⟩

/-! The message -/

theorem mirrorMessage_same {bridge : LinkedDeviceBridge} {m : LegacyMessage} (h : mirrorMessage bridge m db = some db') :
    db'.endpoints = db.endpoints ∧ db'.cases = db.cases ∧ db'.contacts = db.contacts := by
  dsimp only [mirrorMessage] at h
  split at h
  · obtain rfl := Option.some.inj h
    exact ⟨rfl, rfl, rfl⟩
  · split at h
    · cases h
    · obtain rfl := Option.some.inj h
      exact ⟨rfl, rfl, rfl⟩

theorem mirrorBridged_same {m : LegacyMessage} {r r' : BridgeResult × Workspace} (h : mirrorBridged m r = some r') :
    SameOwners digest r.2 r'.2 := by
  unfold mirrorBridged at h
  split at h
  · obtain rfl := Option.some.inj h
    exact ⟨.refl digest r.2, rfl, rfl⟩
  · obtain ⟨spine, hspine, rfl⟩ := Option.map_eq_some_iff.mp h
    obtain ⟨hendpoints, hcases, hcontacts⟩ := mirrorMessage_same hspine
    exact ⟨.of_spine hcontacts, hendpoints, hcases⟩

/-- The bridge of the contact has to be built first. -/
def Workspace.needsBridge (digest : String → Uuid) (contactID : Uuid) (db : Workspace) : Bool :=
  ((db.describedBridge digest contactID).filter (db.isBridged ·)).isNone

/-- The claim of a message's contact, where the bridge has to be built for it. -/
def Workspace.messageClaim (digest : String → Uuid) (messageID : Uuid) (db : Workspace) : Option (Uuid × Option Uuid) :=
  (db.messageOf messageID).bind fun m => if db.needsBridge digest m.2 then db.claimOf digest m.2 else none

theorem shadowMessage_spec {messageID : Uuid} {r : BridgeResult × Workspace}
    (h : shadowLinkedDeviceMessage digest messageID w = some r) :
    MirrorFrame digest w r.2 ∧ Mirrored (w.messageClaim digest messageID) none w.spine r.2.spine := by
  unfold shadowLinkedDeviceMessage at h
  unfold Workspace.messageClaim
  split at h
  · next hnone =>
    obtain rfl := Option.some.inj h
    rw [hnone]
    exact ⟨.refl digest w, .same rfl rfl⟩
  · next m contactID hm =>
    obtain ⟨r₁, hresolve, hmirror⟩ := Option.bind_eq_some_iff.mp h
    have hsame : SameOwners digest _ _ := mirrorBridged_same hmirror
    rw [hm]
    show _ ∧ Mirrored (if w.needsBridge digest contactID then w.claimOf digest contactID else none) none _ _
    unfold resolveLinkedDeviceBridge at hresolve
    unfold Workspace.needsBridge
    split at hresolve
    · next bridge hbridge =>
      obtain rfl := Option.some.inj hresolve
      rw [hbridge]
      exact ⟨hsame.frame, hsame.mirrored⟩
    · next hnone =>
      obtain ⟨hframe, hwritten, -⟩ := ensureBridge_spec hresolve
      rw [hnone]
      exact ⟨hframe.trans hsame.frame, hwritten.of_same hsame.endpoints hsame.cases⟩

/-! The workflow -/

theorem threadWorkflow_contacts {contactID conversationID : Uuid}
    (h : threadWorkflow contactID conversationID db = some db') : db'.contacts = db.contacts := by
  obtain ⟨states, -, h⟩ := Option.bind_eq_some_iff.mp h
  obtain ⟨assignments, -, h⟩ := Option.bind_eq_some_iff.mp h
  obtain ⟨cases, -, rfl⟩ := Option.map_eq_some_iff.mp h
  rfl

/-- The contact whose cases are moved, if it has a bridge. -/
def threadedBy (contactID : Uuid) (claim : Option (Uuid × Option Uuid)) : Option Uuid := claim.map fun _ => contactID

theorem shadowWorkflow_spec {contactID : Uuid} {r : BridgeResult × Workspace}
    (h : shadowLinkedDeviceWorkflow digest contactID w = some r) :
    MirrorFrame digest w r.2 ∧ Mirrored (w.claimOf digest contactID)
      (threadedBy contactID (w.claimOf digest contactID)) w.spine r.2.spine := by
  obtain ⟨r₁, hensure, hthread⟩ := Option.bind_eq_some_iff.mp h
  obtain ⟨hframe, hwritten, hsays⟩ := ensureBridge_spec hensure
  unfold threadBridged at hthread
  unfold BridgeResult.Says at hsays
  split at hthread
  · next e he =>
    obtain rfl := Option.some.inj hthread
    rw [he] at hsays
    have hnone : w.claimOf digest contactID = none := hsays
    rw [hnone] at hwritten ⊢
    exact ⟨hframe, hwritten⟩
  · next bridge hbridge =>
    obtain ⟨spine, hspine, rfl⟩ := Option.map_eq_some_iff.mp hthread
    rw [hbridge] at hsays
    obtain ⟨hsome, hconversation⟩ : (w.claimOf digest contactID).isSome ∧ bridge.conversationID = contactID := hsays
    rw [hconversation] at hspine
    obtain ⟨claim, hclaim⟩ := Option.isSome_iff_exists.mp hsome
    rw [hclaim] at hwritten ⊢
    exact ⟨hframe.trans (.of_spine (threadWorkflow_contacts hspine)), hwritten.thread hspine⟩

theorem endShadow_same (contactID : Uuid) (messageID : Option Uuid) (r : Option String × Workspace) :
    SameOwners digest r.2 (endShadow contactID messageID r).2 := by
  unfold endShadow
  split
  · exact ⟨.refl digest r.2, rfl, rfl⟩
  · exact ⟨⟨fun _ => claimOf_congr rfl rfl, rfl, rfl⟩, rfl, rfl⟩

def Workspace.isMessageOf (contactID : Uuid) (messageID : Option Uuid) (db : Workspace) : Bool :=
  ((messageID.bind db.messageOf).map Prod.snd).all fun id => decide (id = contactID)

theorem shadowWrites_spec {contactID : Uuid} {messageID : Option Uuid} {r : Option String × Workspace}
    (h : shadowWrites digest contactID messageID w = some r) (hof : w.isMessageOf contactID messageID = true) :
    MirrorFrame digest w r.2 ∧ Mirrored (w.claimOf digest contactID)
      (threadedBy contactID (w.claimOf digest contactID)) w.spine r.2.spine := by
  obtain ⟨r₁, hmessage, h⟩ := Option.bind_eq_some_iff.mp h
  obtain ⟨r₂, hworkflow, rfl⟩ := Option.map_eq_some_iff.mp h
  obtain ⟨hframe, hthreaded⟩ := shadowWorkflow_spec hworkflow
  unfold shadowMessage at hmessage
  split at hmessage
  · obtain rfl := Option.some.inj hmessage
    exact ⟨hframe, hthreaded⟩
  · next id =>
    obtain ⟨r₃, hshadow, rfl⟩ := Option.map_eq_some_iff.mp hmessage
    obtain ⟨hframe₃, hwritten⟩ := shadowMessage_spec hshadow
    rw [hframe₃.claims contactID] at hthreaded
    refine ⟨hframe₃.trans hframe, hwritten.trans hthreaded ?_⟩
    unfold Workspace.messageClaim
    cases hm : w.messageOf id with
    | none => exact .inl rfl
    | some m =>
      have hcontact : m.2 = contactID := by
        have hof : ((w.messageOf id).map Prod.snd).all (fun id => decide (id = contactID)) = true := hof
        rw [hm] at hof
        exact of_decide_eq_true hof
      show (if w.needsBridge digest m.2 then w.claimOf digest m.2 else none) = none ∨
        (if w.needsBridge digest m.2 then w.claimOf digest m.2 else none) = w.claimOf digest contactID
      rw [hcontact]
      split
      · exact .inr rfl
      · exact .inl rfl

theorem mutation_spec {contactID : Uuid} {messageID : Option Uuid} {released : Bool} {r : Bool × Workspace}
    (h : shadowLinkedDeviceLegacyMutation digest released contactID messageID w = some r)
    (hof : w.isMessageOf contactID messageID = true) :
    MirrorFrame digest w r.2 ∧ Mirrored (if released then w.claimOf digest contactID else none)
      (if released then threadedBy contactID (w.claimOf digest contactID) else none) w.spine r.2.spine := by
  unfold shadowLinkedDeviceLegacyMutation at h
  cases released with
  | false =>
    obtain rfl := Option.some.inj h
    have hsame : SameOwners digest _ _ := endShadow_same contactID messageID (some "shadow_write_failed", w)
    exact ⟨hsame.frame, hsame.mirrored⟩
  | true =>
    obtain ⟨r₁, hwrites, rfl⟩ := Option.map_eq_some_iff.mp h
    obtain ⟨hframe, hmirrored⟩ := shadowWrites_spec hwrites hof
    have hsame : SameOwners digest _ _ := endShadow_same contactID messageID r₁
    exact ⟨hframe.trans hsame.frame, hmirrored.of_same hsame.endpoints hsame.cases⟩

end MirrorFrame

/-! ### Runs -/

/-- An endpoint that a merge has moved from its source to its target. -/
structure Hold where
  endpointID : Uuid
  sourceID : Uuid
  targetID : Uuid
  deriving DecidableEq

/-- A workspace, and what the merges in effect hold. -/
structure Watched where
  db : Workspace
  held : List Hold

def Watched.start (db : Workspace) : Watched where
  db :=
    { db with
      mergeEvents := []
      reassignments := [] }
  held := []

/-- What the linked device and the services write beside. -/
inductive LegacyWrite
  | contact (row : SpineContact) (profile : ContactProfile)
  | connection (id : Uuid)
  | message (m : LegacyMessage)
  | workflow (states : Indexed stateIndexes) (assignments : Indexed assignmentIndexes) (cases : Indexed caseIndexes)

def legacyWrite (db : Workspace) : LegacyWrite → Workspace
  | .contact row profile =>
    { db with
      spine := { db.spine with contacts := row :: db.spine.contacts.filter fun c => decide (c.id ≠ row.id) }
      profiles := db.profiles.put row.id
        { profile with mergedIntoContactID := (db.profile row.id).mergedIntoContactID } }
  | .connection id => { db with connections := id :: db.connections }
  | .message m => { db with legacyMessages := m :: db.legacyMessages }
  | .workflow states assignments cases =>
    { db with
      spine := { db.spine with
        states := states
        assignments := assignments
        cases := cases } }

inductive InboxAction
  | merge (uuids : UuidSource) (sourceID targetID : Uuid)
  | unmerge (mergeEventID : Uuid)
  | upsert (o : Occasion) (e : MessageUpsert)
  | bridge (contactID : Uuid)
  | message (messageID : Uuid)
  | workflow (contactID : Uuid)
  | mutation (released : Bool) (contactID : Uuid) (messageID : Option Uuid)
  | legacy (w : LegacyWrite)

def InboxAction.isMirror : InboxAction → Bool
  | .bridge _ | .message _ | .workflow _ | .mutation _ _ _ => true
  | _ => false

/-- The target has been merged on, or the source is merged here. -/
def Watched.merge (s : Watched) (sourceID targetID : Uuid) (db : Workspace) : Watched where
  db := db
  held := (s.held.filter fun h => decide (h.targetID ≠ sourceID)) ++
    (s.db.endpointsOf sourceID).map fun f => ⟨f, sourceID, targetID⟩

def Watched.unmerge (s : Watched) (event : MergeEvent) (db : Workspace) : Watched where
  db := db
  held := s.held.filter fun h => decide (h.sourceID ≠ event.sourceContactID)

def inboxStep (digest : String → Uuid) (s : Watched) : InboxAction → Option Watched
  | .merge uuids sourceID targetID => (mergeContacts uuids sourceID targetID s.db).map (s.merge sourceID targetID)
  | .unmerge id => (s.db.mergeEvent id).bind fun event => (unmergeContacts id s.db).map (s.unmerge event)
  | .upsert o e =>
    (applyMessageUpsert o e s.db.spine).map fun spine => { s with db := { s.db with spine := spine } }
  | .bridge contactID => (ensureLinkedDeviceBridge digest contactID s.db).map fun r => { s with db := r.2 }
  | .message messageID => (shadowLinkedDeviceMessage digest messageID s.db).map fun r => { s with db := r.2 }
  | .workflow contactID => (shadowLinkedDeviceWorkflow digest contactID s.db).map fun r => { s with db := r.2 }
  | .mutation released contactID messageID =>
    if s.db.isMessageOf contactID messageID then
      (shadowLinkedDeviceLegacyMutation digest released contactID messageID s.db).map fun r => { s with db := r.2 }
    else none
  | .legacy w => some { s with db := legacyWrite s.db w }

/-- What a merge in effect has moved is at its target. -/
def Watched.Stays (s : Watched) : Prop := ∀ h ∈ s.held, s.db.spine.contactOf h.endpointID = some h.targetID

/-- A case that belongs to a conversation stays there. -/
def CasesStay (db db' : SpineDb) : Prop :=
  ∀ id conversation, db.conversationOf id = some conversation → db'.conversationOf id = some conversation

/-- Merges survive, and mirror writes leave cases where they are. -/
def MergesSurvive (s : Watched) (a : InboxAction) (s' : Watched) : Prop :=
  s'.Stays ∧ (a.isMirror = true → CasesStay s.db.spine s'.db.spine)

/-! ### When the mirror may write -/

def Workspace.written (digest : String → Uuid) (db : Workspace) : InboxAction → Option (Uuid × Option Uuid)
  | .bridge contactID => db.claimOf digest contactID
  | .workflow contactID => db.claimOf digest contactID
  | .message id => db.messageClaim digest id
  | .mutation released contactID _ => if released then db.claimOf digest contactID else none
  | _ => none

/-- The contact whose cases a mirror write moves. -/
def Workspace.threaded (digest : String → Uuid) (db : Workspace) : InboxAction → Option Uuid
  | .workflow contactID => threadedBy contactID (db.claimOf digest contactID)
  | .mutation released contactID _ => if released then threadedBy contactID (db.claimOf digest contactID) else none
  | _ => none

/-- The write gives no endpoint away from where a merge in effect holds it. -/
def AddressClear (written : Option (Uuid × Option Uuid)) (s : Watched) : Prop :=
  ∀ w ∈ written, ∀ h ∈ s.held, h.endpointID = w.1 → w.2 = some h.targetID

/-- No case of the contact belongs to another conversation. -/
def CasesClear (threaded : Option Uuid) (db : SpineDb) : Prop :=
  ∀ contact ∈ threaded, ∀ c ∈ db.cases.rows, c.contactID = some contact →
    ∀ conversation ∈ c.conversationID, conversation = contact

/-- What a reversal restores is held there by no merge of another source. -/
def ReversalClear (s : Watched) (mergeEventID : Uuid) : Prop :=
  ∀ event ∈ s.db.mergeEvent mergeEventID, ∀ record ∈ s.db.moved event.id, ∀ h ∈ s.held,
    h.endpointID = record.contactEndpointID → h.targetID = event.targetContactID → h.sourceID = event.sourceContactID

def LeavesOwners (digest : String → Uuid) (s : Watched) (a : InboxAction) : Prop :=
  match a with
  | .unmerge id => ReversalClear s id
  | a => AddressClear (s.db.written digest a) s ∧ CasesClear (s.db.threaded digest a) s.db.spine

/-! ### Mirror writes -/

section Steps

variable {digest : String → Uuid} {s s' : Watched} {a : InboxAction}

theorem mirrored_step (hmirror : a.isMirror = true) (h : inboxStep digest s a = some s') : s'.held = s.held ∧
    MirrorFrame digest s.db s'.db ∧
      Mirrored (s.db.written digest a) (s.db.threaded digest a) s.db.spine s'.db.spine := by
  cases a with
  | merge | unmerge | upsert | legacy => exact nomatch hmirror
  | bridge contactID =>
    obtain ⟨r, hr, rfl⟩ := Option.map_eq_some_iff.mp h
    obtain ⟨hframe, hwritten, -⟩ := ensureBridge_spec hr
    exact ⟨rfl, hframe, hwritten⟩
  | message id =>
    obtain ⟨r, hr, rfl⟩ := Option.map_eq_some_iff.mp h
    exact ⟨rfl, shadowMessage_spec hr⟩
  | workflow contactID =>
    obtain ⟨r, hr, rfl⟩ := Option.map_eq_some_iff.mp h
    exact ⟨rfl, shadowWorkflow_spec hr⟩
  | mutation released contactID messageID =>
    simp only [inboxStep] at h
    split at h
    · next hof =>
      obtain ⟨r, hr, rfl⟩ := Option.map_eq_some_iff.mp h
      exact ⟨rfl, mutation_spec hr hof⟩
    · exact nomatch h

/-- **A mirror write leaves the holds as they are exactly where the endpoint it writes is clear.** -/
theorem stays_mirrored {written : Option (Uuid × Option Uuid)} {threaded : Option Uuid} (hs : s.Stays)
    (hheld : s'.held = s.held) (h : Mirrored written threaded s.db.spine s'.db.spine) :
    s'.Stays ↔ AddressClear written s := by
  constructor
  · intro hstays w hw hold hmem heq
    rw [← h.endpoint w hw, ← heq]
    exact hstays hold (hheld ▸ hmem)
  · intro hclear hold hmem
    rw [hheld] at hmem
    by_cases hw : ∃ w ∈ written, hold.endpointID = w.1
    · obtain ⟨w, hw, heq⟩ := hw
      rw [heq, h.endpoint w hw]
      exact hclear w hw hold hmem heq
    · rw [h.others hold.endpointID fun w hmem heq => hw ⟨w, hmem, heq⟩]
      exact hs hold hmem

theorem find_case {c : Case} (hc : c ∈ db.cases.rows) : db.cases.rows.find? (·.id = c.id) = some c := by
  obtain ⟨d, hd⟩ := Option.isSome_iff_exists.mp
    (List.find?_isSome.mpr ⟨c, hc, decide_eq_true rfl⟩ : (db.cases.rows.find? (·.id = c.id)).isSome)
  have hid := of_decide_eq_true (List.find?_some (p := fun d : Case => decide (d.id = c.id)) hd)
  rw [hd, case_unique (List.mem_of_find?_eq_some hd) hc hid]

/-- **It leaves cases in their conversations exactly where those it moves are in none, or there already.** -/
theorem casesStay_mirrored {written : Option (Uuid × Option Uuid)} {threaded : Option Uuid}
    (h : Mirrored written threaded db db') : CasesStay db db' ↔ CasesClear threaded db := by
  cases threaded with
  | none =>
    have hrows : db'.cases.rows = db.cases.rows := h.cases
    refine ⟨fun _ contact hcontact => (nomatch hcontact), fun _ id conversation hid => ?_⟩
    unfold SpineDb.conversationOf
    rw [hrows]
    exact hid
  | some contact =>
    have hrows : db'.cases.rows = db.cases.rows.map (changed (contactCase contact) (threadCase contact)) := h.cases
    have hfind : ∀ id, db'.cases.rows.find? (·.id = id) =
        (db.cases.rows.find? (·.id = id)).map (changed (contactCase contact) (threadCase contact)) := fun id => by
      rw [hrows]
      exact find?_changed (q := fun c : Case => decide (c.id = id)) (f := threadCase contact) (fun _ _ => rfl) _
    constructor
    · intro hstay contact' hcontact c hc hof conversation hconversation
      obtain rfl := Option.some.inj hcontact
      have hbefore : db.conversationOf c.id = some conversation := by
        unfold SpineDb.conversationOf
        rw [find_case hc]
        exact hconversation
      have hafter := hstay c.id conversation hbefore
      unfold SpineDb.conversationOf at hafter
      rw [hfind, find_case hc] at hafter
      have hafter : (changed (contactCase contact) (threadCase contact) c).conversationID = some conversation := hafter
      rw [changed_pos (p := contactCase contact) (decide_eq_true hof)] at hafter
      exact (Option.some.inj hafter).symm
    · intro hclear id conversation hbefore
      obtain ⟨c, hc, hconversation⟩ := Option.bind_eq_some_iff.mp hbefore
      unfold SpineDb.conversationOf
      rw [hfind, hc]
      show (changed (contactCase contact) (threadCase contact) c).conversationID = some conversation
      by_cases hof : contactCase contact c = true
      · rw [changed_pos hof, hclear contact rfl c (List.mem_of_find?_eq_some hc) (of_decide_eq_true hof) conversation
          hconversation]
        rfl
      · rw [changed_neg hof]
        exact hconversation

/-! ### Merges and reversals -/

theorem give_of_mem {endpoints : List Uuid} {contactID id : Uuid} (hid : id ∈ endpoints)
    (hsome : (db.contactOf id).isSome) : (giveEndpoints endpoints contactID db).contactOf id = some contactID := by
  obtain ⟨contact, hcontact⟩ := Option.isSome_iff_exists.mp hsome
  obtain ⟨f, hf, -⟩ := Option.bind_eq_some_iff.mp hcontact
  show ((db.endpoints.rows.map (changed (fun f => endpoints.contains f.id) (SpineEndpoint.give contactID))).find? _).bind _ = _
  rw [find_changed_endpoint (p := fun f => endpoints.contains f.id) (g := SpineEndpoint.give contactID) (fun _ => rfl), hf]
  show (changed (fun f => endpoints.contains f.id) (SpineEndpoint.give contactID) f).contactID = some contactID
  rw [changed_pos (p := fun f : SpineEndpoint => endpoints.contains f.id) (by rw [id_of_find hf]; exact List.contains_iff_mem.mpr hid)]
  rfl

theorem give_of_not_mem {endpoints : List Uuid} {contactID id : Uuid} (hid : id ∉ endpoints) :
    (giveEndpoints endpoints contactID db).contactOf id = db.contactOf id := by
  show ((db.endpoints.rows.map (changed (fun f => endpoints.contains f.id) (SpineEndpoint.give contactID))).find? _).bind _ = _
  rw [find_changed_endpoint (p := fun f => endpoints.contains f.id) (g := SpineEndpoint.give contactID) (fun _ => rfl)]
  unfold SpineDb.contactOf
  cases hf : db.endpoints.rows.find? (·.id = id) with
  | none => rfl
  | some f =>
    show (changed (fun f => endpoints.contains f.id) (SpineEndpoint.give contactID) f).contactID = f.contactID
    rw [changed_neg (p := fun f : SpineEndpoint => endpoints.contains f.id) fun h =>
      hid (by rw [← id_of_find hf]; exact List.contains_iff_mem.mp h)]

theorem mem_endpointsOf {w : Workspace} {contactID id : Uuid} :
    id ∈ w.endpointsOf contactID ↔ w.spine.contactOf id = some contactID := by
  unfold Workspace.endpointsOf SpineDb.contactOf
  constructor
  · intro h
    obtain ⟨f, hf, rfl⟩ := List.mem_map.mp h
    obtain ⟨hmem, hof⟩ := List.mem_filter.mp hf
    rw [find_endpoint hmem]
    exact of_decide_eq_true hof
  · intro h
    obtain ⟨f, hf, hcontact⟩ := Option.bind_eq_some_iff.mp h
    exact List.mem_map.mpr ⟨f, List.mem_filter.mpr ⟨List.mem_of_find?_eq_some hf, decide_eq_true hcontact⟩, id_of_find hf⟩

/-- The audit rows of a merge say what the merge says. -/
def Audited (w : Workspace) : Prop :=
  ∀ record ∈ w.reassignments, ∀ id ∈ record.mergeEventID, ∃ event, w.mergeEvent id = some event ∧
    record.previousContactID = event.sourceContactID ∧ event.sourceContactID ≠ event.targetContactID

theorem merge_cases {uuids : UuidSource} {sourceID targetID : Uuid} {w w' : Workspace}
    (h : mergeContacts uuids sourceID targetID w = some w') :
    sourceID ≠ targetID ∧ w' = (w.merged uuids sourceID targetID).setMerged sourceID (some targetID) := by
  unfold mergeContacts at h
  split_ifs at h with hne
  exact ⟨hne, (Option.some.inj h).symm⟩

theorem merge_stays {uuids : UuidSource} {sourceID targetID : Uuid} {w : Workspace} (hs : s.Stays)
    (h : mergeContacts uuids sourceID targetID s.db = some w) : (s.merge sourceID targetID w).Stays := by
  obtain ⟨-, rfl⟩ := merge_cases h
  intro hold hmem
  show (giveEndpoints (s.db.endpointsOf sourceID) targetID s.db.spine).contactOf hold.endpointID = some hold.targetID
  rcases List.mem_append.mp hmem with hmem | hmem
  · obtain ⟨hmem, hne⟩ := List.mem_filter.mp hmem
    rw [give_of_not_mem fun hsource => of_decide_eq_true hne
      (Option.some.inj ((hs hold hmem).symm.trans (mem_endpointsOf.mp hsource)))]
    exact hs hold hmem
  · obtain ⟨f, hf, rfl⟩ := List.mem_map.mp hmem
    exact give_of_mem hf (by rw [mem_endpointsOf.mp hf]; rfl)

theorem merge_audited {uuids : UuidSource} {sourceID targetID : Uuid} {w w' : Workspace} (hw : Audited w)
    (h : mergeContacts uuids sourceID targetID w = some w') : Audited w' := by
  obtain ⟨hne, rfl⟩ := merge_cases h
  have hnew : ∀ id, id = uuids.draw (w.mergeEvents.map (·.id)) →
      ((⟨id, sourceID, targetID⟩ : MergeEvent) :: w.mergeEvents).find? (·.id = id) = some ⟨id, sourceID, targetID⟩ :=
    fun id _ => List.find?_cons_of_pos (decide_eq_true rfl)
  intro record hrecord id hid
  rcases List.mem_append.mp hrecord with hrecord | hrecord
  · obtain ⟨event, hevent, hprevious, hdiffer⟩ := hw record hrecord id hid
    refine ⟨event, ?_, hprevious, hdiffer⟩
    -- the new event has an id of its own
    have hold : id ∈ w.mergeEvents.map (·.id) := by
      refine List.mem_map.mpr ⟨event, List.mem_of_find?_eq_some hevent, ?_⟩
      exact of_decide_eq_true (List.find?_some (p := fun e : MergeEvent => decide (e.id = id)) hevent)
    refine (List.find?_cons_of_neg fun hp => ?_).trans hevent
    have hdraw : uuids.draw (w.mergeEvents.map (·.id)) = id := of_decide_eq_true hp
    exact uuids.fresh _ (hdraw ▸ hold)
  · obtain ⟨f, -, rfl⟩ := List.mem_map.mp hrecord
    obtain rfl := Option.some.inj hid
    exact ⟨_, hnew _ rfl, rfl, hne⟩

theorem restoreAll_others {target id : Uuid} {records : List Reassignment} {w : Workspace}
    (h : w.spine.contactOf id ≠ some target) : (w.restoreAll target records).spine.contactOf id = w.spine.contactOf id := by
  induction records generalizing w with
  | nil => rfl
  | cons record records ih =>
    unfold Workspace.restoreAll
    split
    · next htarget =>
      have hkept : (w.restore target record).spine.contactOf id = w.spine.contactOf id :=
        give_of_not_mem fun hmem => h (List.mem_singleton.mp hmem ▸ htarget)
      exact (ih (by rw [hkept]; exact h)).trans hkept
    · exact ih h

theorem restoreAll_target {target id : Uuid} {records : List Reassignment} {w : Workspace}
    (hprevious : ∀ record ∈ records, record.previousContactID ≠ target) :
    (w.restoreAll target records).spine.contactOf id = some target ↔
      w.spine.contactOf id = some target ∧ ∀ record ∈ records, record.contactEndpointID ≠ id := by
  induction records generalizing w with
  | nil => exact ⟨fun h => ⟨h, fun _ hmem => (nomatch hmem)⟩, fun h => h.1⟩
  | cons record records ih =>
    have ih := @ih
    unfold Workspace.restoreAll
    rw [ih fun r hr => hprevious r (List.mem_cons_of_mem record hr), List.forall_mem_cons]
    split
    · next htarget =>
      by_cases hid : record.contactEndpointID = id
      · have hgiven : (w.restore target record).spine.contactOf id = some record.previousContactID :=
          give_of_mem (List.mem_singleton.mpr hid.symm) (by rw [← hid, htarget]; rfl)
        rw [hgiven]
        exact ⟨fun h => absurd (Option.some.inj h.1) (hprevious record List.mem_cons_self), fun h => absurd hid h.2.1⟩
      · have hkept : (w.restore target record).spine.contactOf id = w.spine.contactOf id :=
          give_of_not_mem fun hmem => hid (List.mem_singleton.mp hmem).symm
        rw [hkept]
        exact ⟨fun h => ⟨h.1, hid, h.2⟩, fun h => ⟨h.1, h.2.2⟩⟩
    · next hother =>
      refine ⟨fun h => ⟨h.1, fun hid => hother (hid ▸ h.1), h.2⟩, fun h => ⟨h.1, h.2.2⟩⟩

theorem restoreAll_audited {target : Uuid} {records : List Reassignment} {w : Workspace} (hw : Audited w) :
    Audited (w.restoreAll target records) := by
  induction records generalizing w with
  | nil => exact hw
  | cons record records ih =>
    unfold Workspace.restoreAll
    split
    · refine ih fun r hr id hid => ?_
      rcases List.mem_append.mp hr with hr | hr
      · exact hw r hr id hid
      · obtain rfl := List.mem_singleton.mp hr
        exact nomatch hid
    · exact ih hw

theorem unmerge_cases {id : Uuid} (h : inboxStep digest s (.unmerge id) = some s') : ∃ event,
    s.db.mergeEvent id = some event ∧ event.id = id ∧
      s' = s.unmerge event ((s.db.restoreAll event.targetContactID (s.db.moved event.id)).setMerged
        event.sourceContactID none) := by
  obtain ⟨event, hevent, h⟩ := Option.bind_eq_some_iff.mp h
  obtain ⟨w, hw, rfl⟩ := Option.map_eq_some_iff.mp h
  unfold unmergeContacts at hw
  rw [hevent] at hw
  have hw : (if s.db.isReversible event then some ((s.db.restoreAll event.targetContactID
    (s.db.moved event.id)).setMerged event.sourceContactID none) else none) = some w := hw
  split_ifs at hw
  obtain rfl := Option.some.inj hw
  exact ⟨event, hevent, of_decide_eq_true (List.find?_some (p := fun e : MergeEvent => decide (e.id = id)) hevent), rfl⟩

/-- **A reversal leaves the other holds as they are exactly where it restores none of them.** -/
theorem stays_unmerged {id : Uuid} (hs : s.Stays) (haudited : Audited s.db)
    (h : inboxStep digest s (.unmerge id) = some s') : s'.Stays ↔ ReversalClear s id := by
  obtain ⟨event, hevent, hid, rfl⟩ := unmerge_cases h
  have hprevious : ∀ record ∈ s.db.moved event.id, record.previousContactID ≠ event.targetContactID := by
    intro record hrecord
    obtain ⟨hrecord, hof⟩ := List.mem_filter.mp hrecord
    obtain ⟨event', hevent', hprevious, hne⟩ := haudited record hrecord event.id (of_decide_eq_true hof)
    rw [hid, hevent] at hevent'
    obtain rfl := Option.some.inj hevent'
    rw [hprevious]
    exact hne
  constructor
  · intro hstays event' hevent' record hrecord hold hmem hendpoint htarget
    rw [Option.mem_def, hevent] at hevent'
    obtain rfl := Option.some.inj hevent'
    by_contra hsource
    have hstill := hstays hold (List.mem_filter.mpr ⟨hmem, decide_eq_true hsource⟩)
    rw [htarget] at hstill
    exact ((restoreAll_target hprevious).mp hstill).2 record hrecord hendpoint.symm
  · intro hclear hold hmem
    obtain ⟨hmem, hsource⟩ := List.mem_filter.mp hmem
    have hsource : hold.sourceID ≠ event.sourceContactID := of_decide_eq_true hsource
    show (s.db.restoreAll event.targetContactID (s.db.moved event.id)).spine.contactOf hold.endpointID = some hold.targetID
    by_cases htarget : hold.targetID = event.targetContactID
    · rw [htarget]
      refine (restoreAll_target hprevious).mpr ⟨htarget ▸ hs hold hmem, fun record hrecord hendpoint => hsource ?_⟩
      exact hclear event hevent record hrecord hold hmem hendpoint.symm htarget
    · rw [restoreAll_others fun h => htarget (Option.some.inj ((hs hold hmem).symm.trans h))]
      exact hs hold hmem

theorem stays_legacy (w : LegacyWrite) (hs : s.Stays) : ({ s with db := legacyWrite s.db w } : Watched).Stays := by
  cases w <;> exact hs

/-! ### Runs that keep the merges -/

theorem survive_iff (hs : s.Stays ∧ Audited s.db) (h : inboxStep digest s a = some s') :
    Audited s'.db ∧ (MergesSurvive s a s' ↔ LeavesOwners digest s a) := by
  obtain ⟨hstays, haudited⟩ := hs
  by_cases hmirror : a.isMirror = true
  · obtain ⟨hheld, hframe, hmirrored⟩ := mirrored_step hmirror h
    refine ⟨fun record hrecord id hid => ?_, ?_⟩
    · rw [hframe.reassignments] at hrecord
      unfold Workspace.mergeEvent
      rw [hframe.mergeEvents]
      exact haudited record hrecord id hid
    · have hiff : MergesSurvive s a s' ↔ AddressClear (s.db.written digest a) s ∧
          CasesClear (s.db.threaded digest a) s.db.spine := by
        rw [← stays_mirrored hstays hheld hmirrored, ← casesStay_mirrored hmirrored]
        exact ⟨fun hsurvive => ⟨hsurvive.1, hsurvive.2 hmirror⟩, fun h => ⟨h.1, fun _ => h.2⟩⟩
      cases a with
      | merge | unmerge | upsert | legacy => exact nomatch hmirror
      | bridge | message | workflow | mutation => exact hiff
  · have hsurvive : MergesSurvive s a s' ↔ s'.Stays := ⟨fun h => h.1, fun h => ⟨h, fun hm => absurd hm hmirror⟩⟩
    have hclear : AddressClear none s ∧ CasesClear none s.db.spine :=
      ⟨fun _ hw => (nomatch hw), fun _ hc => (nomatch hc)⟩
    rw [hsurvive]
    cases a with
    | bridge | message | workflow | mutation => exact absurd rfl hmirror
    | merge uuids sourceID targetID =>
      obtain ⟨w, hw, rfl⟩ := Option.map_eq_some_iff.mp h
      exact ⟨merge_audited haudited hw, fun _ => hclear, fun _ => merge_stays hstays hw⟩
    | unmerge id =>
      obtain ⟨event, -, -, rfl⟩ := unmerge_cases h
      exact ⟨restoreAll_audited haudited, stays_unmerged hstays haudited h⟩
    | upsert o e =>
      obtain ⟨spine, hspine, rfl⟩ := Option.map_eq_some_iff.mp h
      exact ⟨haudited, fun _ => hclear, fun _ hold hmem => applyMessageUpsert_kept hspine _ _ (hstays hold hmem)⟩
    | legacy w =>
      obtain rfl := Option.some.inj h
      refine ⟨?_, fun _ => hclear, fun _ => stays_legacy w hstays⟩
      cases w <;> exact haudited

/-- **Merges survive and cases stay where they are in exactly the runs** in which no mirror write gives away an address
that a merge in effect holds, or moves a case of another conversation, and no reversal restores what another source's
merge holds. -/
theorem merges_survive_mirroring (digest : String → Uuid) (db : Workspace) (as : List InboxAction) :
    Steps (inboxStep digest) MergesSurvive (Watched.start db) as ↔
      Meets (inboxStep digest) (LeavesOwners digest) (Watched.start db) as := by
  have hstart : (Watched.start db).Stays ∧ Audited (Watched.start db).db :=
    ⟨fun _ hmem => (nomatch hmem), fun _ hrecord => (nomatch hrecord)⟩
  constructor
  · refine fun hsteps => meets_of_steps (I := fun s => s.Stays ∧ Audited s.db) (fun s a s' hs h hsurvive => ?_) hstart hsteps
    obtain ⟨haudited, hiff⟩ := survive_iff hs h
    exact ⟨⟨hsurvive.1, haudited⟩, hiff.mp hsurvive⟩
  · refine fun hmeets => steps_of_meets (I := fun s => s.Stays ∧ Audited s.db) (fun s a s' hs hclear h => ?_) hstart hmeets
    obtain ⟨haudited, hiff⟩ := survive_iff hs h
    exact ⟨⟨(hiff.mpr hclear).1, haudited⟩, hiff.mpr hclear⟩

end Steps

/-! ### A merged customer who goes on writing -/

def oldNumber : ContactProfile := ⟨some "phone", some "491@s.whatsapp.net", some "491", none, false, none, false⟩

def newNumber : ContactProfile := ⟨some "phone", some "492@s.whatsapp.net", some "492", none, false, none, false⟩

def customersMerged : List InboxAction :=
  [.legacy (.connection "phone"), .legacy (.contact ⟨"old", some "Jo", none, none⟩ oldNumber),
    .legacy (.contact ⟨"new", some "Jo", none, none⟩ newNumber), .mutation true "old" none, .mutation true "new" none,
    .merge longerUuid "old" "new"]

theorem merged_address_taken_back :
    ¬ Steps (inboxStep id) MergesSurvive (Watched.start .empty) (customersMerged ++ [.mutation true "old" none]) := by
  intro hsteps
  have hbefore : (runActions (inboxStep id) (Watched.start .empty) customersMerged).map (fun s => s.held) =
      some [⟨contactEndpointID id "phone" "491@s.whatsapp.net", "old", "new"⟩] := by decide +kernel
  have hafter : ((runActions (inboxStep id) (Watched.start .empty) customersMerged).bind fun s =>
      inboxStep id s (.mutation true "old" none)).map (fun s =>
        (s.held, s.db.spine.contactOf (contactEndpointID id "phone" "491@s.whatsapp.net"))) =
      some ([⟨contactEndpointID id "phone" "491@s.whatsapp.net", "old", "new"⟩], some "old") := by decide +kernel
  obtain ⟨s, hrun, -⟩ := Option.map_eq_some_iff.mp hbefore
  rw [hrun] at hafter
  obtain ⟨s', hlast, hstate⟩ := Option.map_eq_some_iff.mp hafter
  obtain ⟨hheld, hcontact⟩ := Prod.mk.inj hstate
  have hstays := (hsteps.last hrun hlast).1 _ (by rw [hheld]; exact List.mem_singleton_self _)
  rw [hcontact] at hstays
  exact absurd hstays (by decide)

end TeamInbox.Channels
