import Mathlib.Data.Finset.Max
import TeamInbox.Channels.SecondThread
import Mathlib.Algebra.BigOperators.Group.List.Basic

/-!
# TeamInbox.Channels.Mutations — edits and deletions of a message

A message may come again, be edited and be deleted; `provider_occurred_at` is the one clock of all three, and a
mutation that is older than it is dropped.  The rows are those of `Threads`, with the columns a reader sees.
-/

namespace TeamInbox.Channels

open TeamInbox.Lib
open TeamInbox.Lib.Indexed (changed changed_pos changed_neg)
open TeamInbox.Cases (Uuid Case CaseKind CaseStatus Assignment StateRow ProjectionSync)

/-! ### The columns -/

structure MessageKey where
  channelAccountID : Uuid
  externalIdentityScope : String
  externalMessageID : String
  deriving DecidableEq

def SpineMessage.key (m : SpineMessage) : MessageKey := ⟨m.channelAccountID, m.externalIdentityScope, m.externalMessageID⟩

def MessageUpsert.key (e : MessageUpsert) : MessageKey := ⟨e.channelAccountID, e.externalIdentityScope, e.externalMessageID⟩

/-- Further columns of a row of `messages`. -/
structure TextColumns where
  content : String
  sanitizedHtmlContent : Option String
  deletedBySender : Bool
  deletedAt : Option ℕ
  deriving DecidableEq

/-- The database with the further columns of the messages, by their ids, and the number of times that a transaction
has run the opening of a case. -/
structure TextDb where
  db : SpineDb
  columns : Uuid → TextColumns
  caseOpenings : ℕ

inductive MessageChange
  | upsert (event : MessageUpsert) (sanitizedHtmlContent : Option String)
  | edit (key : MessageKey) (occurredAt : ℕ) (textContent sanitizedHtmlContent : Option String)
  | delete (key : MessageKey) (occurredAt : ℕ)
  deriving DecidableEq

namespace MessageChange

def key : MessageChange → MessageKey
  | upsert event _ => event.key
  | edit key _ _ _ => key
  | delete key _ => key

def occurredAt : MessageChange → ℕ
  | upsert event _ => event.occurredAt
  | edit _ occurredAt _ _ => occurredAt
  | delete _ occurredAt => occurredAt

def isUpsert : MessageChange → Bool
  | upsert _ _ => true
  | _ => false

def isDelete : MessageChange → Bool
  | delete _ _ => true
  | _ => false

/-- The text and the HTML of an event that has them. -/
def body : MessageChange → Option (Option String × Option String)
  | upsert event html => some (event.textContent, html)
  | edit _ _ text html => some (text, html)
  | delete _ _ => none

end MessageChange

/-- `textContent ?? sanitizedHtmlContent ?? ""` -/
def contentOf (text html : Option String) : String := (text.or html).getD ""

def TextColumns.rewrite (text html : Option String) (c : TextColumns) : TextColumns :=
  { c with
    content := contentOf text html
    sanitizedHtmlContent := html }

def TextColumns.mark (occurredAt : ℕ) (c : TextColumns) : TextColumns :=
  { c with
    deletedBySender := true
    deletedAt := some occurredAt }

/-! ### The transactions -/

def findMessage (key : MessageKey) (db : SpineDb) : Option SpineMessage :=
  db.messages.find? fun m => decide (m.key = key)

def SpineMessage.newerThan (occurredAt : ℕ) (m : SpineMessage) : Bool :=
  m.providerOccurredAt.any fun stored => decide (occurredAt < stored)

def storeText (o : Occasion) (e : MessageUpsert) (html : Option String) (conversationID : Uuid)
    (senderEndpointID contactID : Option Uuid) (s : TextDb) : Option TextDb :=
  match findMessage e.key s.db with
  | some stored =>
    if stored.newerThan e.occurredAt then some s
    else
      some { s with
        db := touchConversation e conversationID
          (nameSender e conversationID senderEndpointID (rewriteMessage e conversationID stored s.db))
        columns := Function.update s.columns stored.id ((s.columns stored.id).rewrite e.textContent html) }
  | none =>
    let (messageID, db) := insertMessage o e conversationID contactID s.db
    let db := nameSender e conversationID senderEndpointID db
    let columns := Function.update s.columns messageID ⟨contentOf e.textContent html, html, false, none⟩
    if e.inbound then
      (recordInbound o e conversationID contactID messageID db).map fun db =>
        ⟨touchConversation e conversationID db, columns, s.caseOpenings + 1⟩
    else some ⟨touchConversation e conversationID db, columns, s.caseOpenings⟩

def applyTextUpsert (o : Occasion) (e : MessageUpsert) (html : Option String) (s : TextDb) : Option TextDb :=
  (ensureConversation o e s.db).bind fun (conversationID, db) =>
  (ensureSender o e db).bind fun (senderEndpointID, db) =>
  (attachWorkflowContact o conversationID (if e.inbound then senderEndpointID else none) db).bind fun (contactID, db) =>
  storeText o e html conversationID senderEndpointID contactID { s with db := db }

def setMessage (id : Uuid) (f : SpineMessage → SpineMessage) (db : SpineDb) : SpineDb :=
  { db with messages := db.messages.map fun m => if m.id = id then f m else m }

/-- `message.edit` and `message.delete`; without the message they fail. -/
def applyMessageMutation (key : MessageKey) (occurredAt : ℕ) (body : Option (Option String × Option String)) (s : TextDb) :
    Option TextDb :=
  (findMessage key s.db).map fun message =>
    if message.newerThan occurredAt then s
    else
      match body with
      | none =>
        { s with
          db := setMessage message.id (fun m => { m with providerOccurredAt := some occurredAt }) s.db
          columns := Function.update s.columns message.id ((s.columns message.id).mark occurredAt) }
      | some (text, html) =>
        { s with
          db := setMessage message.id (fun m =>
            { m with
              textContent := text
              providerOccurredAt := some occurredAt }) s.db
          columns := Function.update s.columns message.id ((s.columns message.id).rewrite text html) }

def applyChange (o : Occasion) (change : MessageChange) (s : TextDb) : Option TextDb :=
  match change with
  | .upsert event html => applyTextUpsert o event html s
  | .edit key occurredAt text html => applyMessageMutation key occurredAt (some (text, html)) s
  | .delete key occurredAt => applyMessageMutation key occurredAt none s

/-- A transaction that fails leaves the tables as they are. -/
def attempt (s : TextDb) (a : Occasion × MessageChange) : TextDb := (applyChange a.1 a.2 s).getD s

def runAttempts (s : TextDb) (attempts : List (Occasion × MessageChange)) : TextDb := attempts.foldl attempt s

/-- The event has been applied by one of the attempts. -/
def Succeeds (s : TextDb) (attempts : List (Occasion × MessageChange)) (change : MessageChange) : Prop :=
  ∃ before o after, attempts = before ++ (o, change) :: after ∧ (applyChange o change (runAttempts s before)).isSome

/-! ### What the statements leave alone -/

def SpineDb.unreadTotal (db : SpineDb) : ℕ := (db.states.rows.map (·.unreadCount)).sum

def SpineMessage.uncased (m : SpineMessage) : SpineMessage := { m with caseID := none }

/-- The messages are the same but for their cases, and nothing is counted. -/
structure Quiet (db db' : SpineDb) : Prop where
  messages : db'.messages.map SpineMessage.uncased = db.messages.map SpineMessage.uncased
  unread : db'.unreadTotal = db.unreadTotal

theorem Quiet.refl (db : SpineDb) : Quiet db db := ⟨rfl, rfl⟩

theorem Quiet.trans {db₁ db₂ db₃ : SpineDb} (h : Quiet db₁ db₂) (h' : Quiet db₂ db₃) : Quiet db₁ db₃ :=
  ⟨h'.messages.trans h.messages, h'.unread.trans h.unread⟩

variable {db db' : SpineDb} {o : Occasion} {e : MessageUpsert} {conversationID : Uuid} {contactID : Option Uuid}

theorem ensureConversation_quiet {id : Uuid} (h : ensureConversation o e db = some (id, db')) : Quiet db db' := by
  unfold ensureConversation at h
  split at h
  · obtain ⟨-, rfl⟩ := Prod.mk.inj (Option.some.inj h)
    exact ⟨rfl, rfl⟩
  · obtain ⟨conversations, -, heq⟩ := Option.map_eq_some_iff.mp h
    obtain ⟨-, rfl⟩ := Prod.mk.inj heq
    exact ⟨rfl, rfl⟩

theorem ensureSender_quiet {id : Option Uuid} (h : ensureSender o e db = some (id, db')) : Quiet db db' := by
  unfold ensureSender at h
  split at h
  · obtain ⟨-, rfl⟩ := Prod.mk.inj (Option.some.inj h)
    exact Quiet.refl db
  · obtain ⟨r, hr, heq⟩ := Option.map_eq_some_iff.mp h
    obtain ⟨-, rfl⟩ := Prod.mk.inj heq
    unfold ensureEndpoint at hr
    split at hr
    · obtain rfl := Option.some.inj hr
      exact ⟨rfl, rfl⟩
    · obtain ⟨endpoints, -, rfl⟩ := Option.map_eq_some_iff.mp hr
      exact ⟨rfl, rfl⟩

theorem sum_changed {p : ThreadState → Bool} {f : ThreadState → ThreadState} (hf : ∀ r, (f r).unreadCount = r.unreadCount)
    (rows : List ThreadState) : ((rows.map (changed p f)).map (·.unreadCount)).sum = (rows.map (·.unreadCount)).sum := by
  rw [List.map_map]
  refine congrArg List.sum (List.map_congr_left fun r _ => ?_)
  show (changed p f r).unreadCount = r.unreadCount
  by_cases hp : p r = true
  · rw [changed_pos hp, hf]
  · rw [changed_neg hp]

theorem backfill_quiet {contact : Uuid} (h : backfillContact conversationID contact db = some db') : Quiet db db' := by
  unfold backfillContact at h
  obtain ⟨states, hstates, h⟩ := Option.bind_eq_some_iff.mp h
  obtain ⟨assignments, -, h⟩ := Option.bind_eq_some_iff.mp h
  obtain ⟨cases, -, rfl⟩ := Option.map_eq_some_iff.mp h
  refine ⟨rfl, ?_⟩
  unfold SpineDb.unreadTotal
  rw [Indexed.rows_update hstates]
  exact sum_changed (f := claimState contact) (fun _ => rfl) _

theorem linkThread_quiet {contact : Uuid} (h : linkThread conversationID contact db = some db') : Quiet db db' := by
  unfold linkThread at h
  split_ifs at h
  · obtain rfl := Option.some.inj h
    exact Quiet.refl db
  · obtain ⟨conversations, -, rfl⟩ := Option.map_eq_some_iff.mp h
    exact ⟨rfl, rfl⟩

theorem claimEndpoint_quiet (o : Occasion) (endpoint : SpineEndpoint) (db : SpineDb) :
    Quiet db (claimEndpoint o endpoint db).2 := by
  unfold claimEndpoint
  split <;> exact ⟨rfl, rfl⟩

theorem attachWorkflowContact_quiet {candidate contact : Option Uuid}
    (h : attachWorkflowContact o conversationID candidate db = some (contact, db')) : Quiet db db' := by
  unfold attachWorkflowContact at h
  obtain ⟨conversation, -, h⟩ := Option.bind_eq_some_iff.mp h
  split at h
  · obtain ⟨-, rfl⟩ := Prod.mk.inj (Option.some.inj h)
    exact Quiet.refl db
  · split_ifs at h
    · obtain ⟨-, rfl⟩ := Prod.mk.inj (Option.some.inj h)
      exact Quiet.refl db
    · split at h
      · obtain ⟨db₂, hlink, heq⟩ := Option.map_eq_some_iff.mp h
        obtain ⟨-, rfl⟩ := Prod.mk.inj heq
        obtain ⟨db₁, hthread, hback⟩ := Option.bind_eq_some_iff.mp hlink
        exact (claimEndpoint_quiet o _ db).trans ((linkThread_quiet hthread).trans (backfill_quiet hback))
      · obtain ⟨-, rfl⟩ := Prod.mk.inj (Option.some.inj h)
        exact Quiet.refl db

theorem nameSender_quiet (e : MessageUpsert) (conversationID : Uuid) (senderEndpointID : Option Uuid) (db : SpineDb) :
    Quiet db (nameSender e conversationID senderEndpointID db) := by
  unfold nameSender
  split
  · unfold ensureParticipant
    split_ifs <;> exact ⟨rfl, rfl⟩
  · exact Quiet.refl db

theorem touchConversation_quiet (e : MessageUpsert) (conversationID : Uuid) (db : SpineDb) :
    Quiet db (touchConversation e conversationID db) := ⟨rfl, rfl⟩

theorem stampMessage_quiet (messageID caseID : Uuid) (db : SpineDb) : Quiet db (stampMessage messageID caseID db) := by
  refine ⟨?_, rfl⟩
  show (db.messages.map _).map _ = _
  rw [List.map_map]
  refine List.map_congr_left fun m _ => ?_
  dsimp only [Function.comp]
  split_ifs <;> rfl

theorem sync_quiet {sync : ProjectionSync} (h : syncConversationProjection conversationID contactID sync db = some db') :
    Quiet db db' := by
  unfold syncConversationProjection at h
  obtain ⟨states, hstates, rfl⟩ := Option.map_eq_some_iff.mp h
  refine ⟨rfl, ?_⟩
  unfold SpineDb.unreadTotal
  split_ifs at hstates
  · rw [Indexed.rows_update hstates]
    exact sum_changed (f := ThreadState.project contactID sync) (fun _ => rfl) _
  · rw [Indexed.rows_insert hstates, List.map_cons, List.sum_cons, Nat.zero_add]

theorem continueCase_quiet {messageID : Uuid} (h : continueCase conversationID contactID messageID db = some db') :
    Quiet db db' := by
  unfold continueCase at h
  cases hfind : db.cases.rows.find? fun c => decide (c.conversationID = some conversationID) && c.status.active with
  | none =>
    rw [hfind] at h
    obtain rfl := Option.some.inj h
    exact Quiet.refl db
  | some active =>
    rw [hfind] at h
    dsimp only at h
    split_ifs at h
    · obtain ⟨db₁, hsync, rfl⟩ := Option.map_eq_some_iff.mp h
      have hstamped := (sync_quiet hsync).trans (stampMessage_quiet messageID active.id db₁)
      exact ⟨hstamped.messages, hstamped.unread⟩
    · obtain ⟨db₁, hsync, rfl⟩ := Option.map_eq_some_iff.mp h
      exact (sync_quiet hsync).trans (stampMessage_quiet _ _ db₁)

theorem startCase_quiet {messageID : Uuid} {reopened : Bool} {row : Case}
    (h : startCase o conversationID contactID messageID reopened row db = some db') : Quiet db db' := by
  unfold startCase at h
  obtain ⟨db₁, hsync, rfl⟩ := Option.map_eq_some_iff.mp h
  have hclosed : Quiet db (if reopened then unassignConversation o.now conversationID db else db) := by
    split_ifs <;> exact ⟨rfl, rfl⟩
  exact hclosed.trans ((sync_quiet hsync).trans (stampMessage_quiet _ _ db₁))

theorem open_quiet {isGroup : Bool} {messageID : Uuid}
    (h : openOrReopenCaseForInboundConversation o conversationID contactID isGroup messageID db = some db') :
    Quiet db db' := by
  unfold openOrReopenCaseForInboundConversation at h
  obtain ⟨⟨cases, inserted⟩, -, h⟩ := Option.bind_eq_some_iff.mp h
  dsimp only at h
  split_ifs at h
  · have hstarted := startCase_quiet h
    exact ⟨hstarted.messages, hstarted.unread⟩
  · exact continueCase_quiet h

/-! ### What a reader sees -/

/-- The row of a message, as far as it is read here. -/
structure MessageView where
  id : Uuid
  textContent : Option String
  providerOccurredAt : Option ℕ
  columns : TextColumns
  deriving DecidableEq

def viewOf (columns : Uuid → TextColumns) (m : SpineMessage) : MessageView :=
  ⟨m.id, m.textContent, m.providerOccurredAt, columns m.id⟩

def views (key : MessageKey) (s : TextDb) : List MessageView :=
  (s.db.messages.filter fun m => decide (m.key = key)).map (viewOf s.columns)

section Views

variable {key : MessageKey} {s : TextDb} {columns : Uuid → TextColumns} {count : ℕ}

theorem views_quiet (h : Quiet s.db db') : views key ⟨db', s.columns, count⟩ = views key s := by
  have hview : ∀ db : SpineDb, (db.messages.filter fun m => decide (m.key = key)).map (viewOf s.columns) =
      ((db.messages.map SpineMessage.uncased).filter fun m => decide (m.key = key)).map (viewOf s.columns) := by
    intro db
    rw [List.filter_map, List.map_map]
    rfl
  show (db'.messages.filter _).map (viewOf s.columns) = _
  rw [hview, h.messages, ← hview]
  rfl

theorem findMessage_none (h : views key s = []) : findMessage key s.db = none := by
  refine List.find?_eq_none.mpr fun m hm hkey => ?_
  exact List.filter_eq_nil_iff.mp (List.map_eq_nil_iff.mp h) m hm hkey

theorem findMessage_some {v : MessageView} (h : views key s = [v]) :
    ∃ m, findMessage key s.db = some m ∧ viewOf s.columns m = v := by
  cases hfind : findMessage key s.db with
  | none =>
    have hnil : (s.db.messages.filter fun m => decide (m.key = key)) = [] :=
      List.filter_eq_nil_iff.mpr fun m hm => List.find?_eq_none.mp hfind m hm
    unfold views at h
    rw [hnil] at h
    exact absurd h (List.cons_ne_nil _ _).symm
  | some m =>
    refine ⟨m, rfl, ?_⟩
    have hkey : decide (m.key = key) = true := List.find?_some (p := fun m : SpineMessage => decide (m.key = key)) (l := s.db.messages) hfind
    have hmem : viewOf s.columns m ∈ views key s :=
      List.mem_map_of_mem (List.mem_filter.mpr ⟨List.mem_of_find?_eq_some hfind, hkey⟩)
    rw [h] at hmem
    exact List.mem_singleton.mp hmem

theorem newerThan_view {m : SpineMessage} {v : MessageView} {t occurredAt : ℕ} (hv : viewOf s.columns m = v)
    (ht : v.providerOccurredAt = some t) : m.newerThan occurredAt = true ↔ occurredAt < t := by
  have hm : m.providerOccurredAt = some t := by
    rw [← ht, ← hv]
    rfl
  rw [SpineMessage.newerThan, hm, Option.any_some, decide_eq_true_eq]

theorem views_written (count : ℕ) (db : SpineDb) {v : MessageView} {f : SpineMessage → SpineMessage} {c : TextColumns}
    (h : views key s = [v]) (hmessages : db.messages = s.db.messages.map fun m => if m.id = v.id then f m else m)
    (hid : ∀ m, (f m).id = m.id) (hkey : ∀ m, (f m).key = m.key) :
    ∃ m, viewOf s.columns m = v ∧ views key ⟨db, Function.update s.columns v.id c, count⟩ =
      [⟨v.id, (f m).textContent, (f m).providerOccurredAt, c⟩] := by
  have hlen := congrArg List.length h
  unfold views at hlen
  rw [List.length_map, List.length_singleton] at hlen
  obtain ⟨m, hm⟩ := List.length_eq_one_iff.mp hlen
  have hv : viewOf s.columns m = v := by
    unfold views at h
    rw [hm] at h
    exact (List.cons.inj h).1
  have hmid : m.id = v.id := by
    rw [← hv]
    rfl
  refine ⟨m, hv, ?_⟩
  have hfilter : db.messages.filter (fun m => decide (m.key = key)) =
      (s.db.messages.filter fun m => decide (m.key = key)).map fun m => if m.id = v.id then f m else m := by
    rw [hmessages, List.filter_map]
    refine congrArg (List.map _) (List.filter_congr fun m _ => decide_eq_decide.mpr ?_)
    dsimp only [Function.comp]
    split_ifs
    · rw [hkey]
    · rfl
  show (db.messages.filter _).map _ = _
  rw [hfilter, hm]
  simp only [List.map_cons, List.map_nil, viewOf, hmid, if_true, hid, Function.update_self]

end Views

/-! ### The unread message -/

theorem sum_count (e : MessageUpsert) (preview : Option String) (p : ThreadState → Bool) (rows : List ThreadState) :
    ((rows.map (changed p (ThreadState.count e preview))).map (·.unreadCount)).sum =
      (rows.map (·.unreadCount)).sum + rows.countP p := by
  induction rows with
  | nil => rfl
  | cons r rows ih =>
    simp only [List.map_cons, List.sum_cons, ih, List.countP_cons]
    by_cases hp : p r = true
    · rw [changed_pos hp, if_pos hp]
      simp only [ThreadState.count]
      omega
    · rw [changed_neg hp, if_neg hp]
      omega

theorem countP_state (db : SpineDb) (h : db.states.rows.any (ThreadState.isOf conversationID) = true) :
    db.states.rows.countP (ThreadState.isOf conversationID) = 1 := by
  have hunique := db.states.unique (fun r => r.conversationID) (List.mem_cons_of_mem _ List.mem_cons_self)
  obtain ⟨r, hr, hof⟩ := List.any_eq_true.mp h
  have hle : db.states.rows.countP (ThreadState.isOf conversationID) ≤ 1 := by
    rw [List.countP_eq_length_filter]
    by_contra hmany
    have hpair : (db.states.rows.filter (ThreadState.isOf conversationID)).Pairwise (Apart fun r => r.conversationID) :=
      List.Pairwise.filter _ hunique
    cases hrows : db.states.rows.filter (ThreadState.isOf conversationID) with
    | nil =>
      rw [hrows] at hmany
      exact hmany (Nat.zero_le _)
    | cons a rest =>
      cases rest with
      | nil =>
        rw [hrows] at hmany
        exact hmany le_rfl
      | cons b rest =>
        have hof' : ∀ x ∈ a :: b :: rest, x.conversationID = some conversationID := fun x hx => by
          rw [← hrows] at hx
          exact of_decide_eq_true (List.mem_filter.mp hx).2
        rw [hrows] at hpair
        exact ((List.pairwise_cons.mp hpair).1 b List.mem_cons_self).not_both (hof' a List.mem_cons_self)
          (hof' b (List.mem_cons_of_mem a List.mem_cons_self))
  have hpos : 0 < db.states.rows.countP (ThreadState.isOf conversationID) := List.countP_pos_iff.mpr ⟨r, hr, hof⟩
  omega

theorem countUnread_spec (h : countUnread o e conversationID contactID db = some db') :
    db'.messages = db.messages ∧ db'.unreadTotal = db.unreadTotal + 1 := by
  unfold countUnread at h
  dsimp only at h
  split_ifs at h with hany
  · obtain rfl := Option.some.inj h
    refine ⟨rfl, ?_⟩
    unfold SpineDb.unreadTotal
    rw [Indexed.rows_set, sum_count, countP_state db hany]
  · obtain ⟨states, hstates, rfl⟩ := Option.map_eq_some_iff.mp h
    refine ⟨rfl, ?_⟩
    unfold SpineDb.unreadTotal
    rw [Indexed.rows_insert hstates, List.map_cons, List.sum_cons, Nat.add_comm]

theorem recordInbound_spec {messageID : Uuid} (h : recordInbound o e conversationID contactID messageID db = some db') :
    db'.messages.map SpineMessage.uncased = db.messages.map SpineMessage.uncased ∧ db'.unreadTotal = db.unreadTotal + 1 := by
  unfold recordInbound at h
  obtain ⟨db₁, hopen, hcount⟩ := Option.bind_eq_some_iff.mp h
  obtain ⟨hmessages, hunread⟩ := countUnread_spec hcount
  have hquiet := open_quiet hopen
  rw [hmessages, hunread]
  exact ⟨hquiet.messages, congrArg (· + 1) hquiet.unread⟩

/-! ### One transaction -/

def MessageView.after (change : MessageChange) (v : MessageView) : MessageView :=
  if v.providerOccurredAt.any fun stored => decide (change.occurredAt < stored) then v
  else
    match change.body with
    | none =>
      { v with
        providerOccurredAt := some change.occurredAt
        columns := v.columns.mark change.occurredAt }
    | some (text, html) =>
      { v with
        textContent := text
        providerOccurredAt := some change.occurredAt
        columns := v.columns.rewrite text html }

def firstView (id : Uuid) (e : MessageUpsert) (html : Option String) : MessageView :=
  ⟨id, e.textContent, some e.occurredAt, ⟨contentOf e.textContent html, html, false, none⟩⟩

theorem after_old (change : MessageChange) {v : MessageView} {t : ℕ} (ht : v.providerOccurredAt = some t)
    (h : change.occurredAt < t) : v.after change = v := by
  unfold MessageView.after
  rw [ht, Option.any_some, if_pos (decide_eq_true h)]

theorem after_text (change : MessageChange) {v : MessageView} {t : ℕ} {text html : Option String}
    (ht : v.providerOccurredAt = some t) (h : t ≤ change.occurredAt) (hbody : change.body = some (text, html)) :
    v.after change = ⟨v.id, text, some change.occurredAt, v.columns.rewrite text html⟩ := by
  unfold MessageView.after
  rw [ht, Option.any_some, if_neg fun hold => absurd (of_decide_eq_true hold) (Nat.not_lt.mpr h), hbody]

theorem after_delete (change : MessageChange) {v : MessageView} {t : ℕ} (ht : v.providerOccurredAt = some t)
    (h : t ≤ change.occurredAt) (hbody : change.body = none) :
    v.after change = ⟨v.id, v.textContent, some change.occurredAt, v.columns.mark change.occurredAt⟩ := by
  unfold MessageView.after
  rw [ht, Option.any_some, if_neg fun hold => absurd (of_decide_eq_true hold) (Nat.not_lt.mpr h), hbody]

section Transaction

variable {s s' : TextDb} {change : MessageChange} {html : Option String} {senderEndpointID : Option Uuid}

theorem applyTextUpsert_store (h : applyTextUpsert o e html s = some s') :
    ∃ conversationID senderEndpointID contactID db, Quiet s.db db ∧
      storeText o e html conversationID senderEndpointID contactID { s with db := db } = some s' := by
  unfold applyTextUpsert at h
  obtain ⟨⟨conversationID, db₁⟩, hensure, h⟩ := Option.bind_eq_some_iff.mp h
  obtain ⟨⟨senderEndpointID, db₂⟩, hsender, h⟩ := Option.bind_eq_some_iff.mp h
  obtain ⟨⟨contactID, db₃⟩, hattach, h⟩ := Option.bind_eq_some_iff.mp h
  exact ⟨conversationID, senderEndpointID, contactID, db₃, (ensureConversation_quiet hensure).trans
    ((ensureSender_quiet hsender).trans (attachWorkflowContact_quiet hattach)), h⟩

theorem views_inserted (hnew : views e.key s = []) {db : SpineDb} {columns : TextColumns} {count : ℕ}
    (hmessages : db.messages.map SpineMessage.uncased =
      (insertMessage o e conversationID contactID s.db).2.messages.map SpineMessage.uncased) :
    views e.key ⟨db, Function.update s.columns (insertMessage o e conversationID contactID s.db).1 columns, count⟩ =
      [⟨(insertMessage o e conversationID contactID s.db).1, e.textContent, some e.occurredAt, columns⟩] := by
  have hquiet : Quiet (insertMessage o e conversationID contactID s.db).2
      { (insertMessage o e conversationID contactID s.db).2 with messages := db.messages } := ⟨hmessages, rfl⟩
  have hsame := @views_quiet _ e.key ⟨(insertMessage o e conversationID contactID s.db).2,
    Function.update s.columns (insertMessage o e conversationID contactID s.db).1 columns, count⟩ count hquiet
  refine Eq.trans hsame ?_
  have hnone : (s.db.messages.filter fun m => decide (m.key = e.key)) = [] := List.map_eq_nil_iff.mp hnew
  unfold views insertMessage
  dsimp only
  rw [List.filter_cons_of_pos (by simp [SpineMessage.key, MessageUpsert.key]), hnone]
  simp only [List.map_cons, List.map_nil, viewOf, Function.update_self]

theorem storeText_new (hnew : views e.key s = [])
    (h : storeText o e html conversationID senderEndpointID contactID s = some s') :
    (∃ id, views e.key s' = [firstView id e html]) ∧
      (e.inbound = true → s'.caseOpenings = s.caseOpenings + 1 ∧ s'.db.unreadTotal = s.db.unreadTotal + 1) := by
  unfold storeText at h
  rw [findMessage_none hnew] at h
  dsimp only at h
  have hnamed := nameSender_quiet e conversationID senderEndpointID (insertMessage o e conversationID contactID s.db).2
  split_ifs at h with hinbound
  · obtain ⟨db, hrecord, rfl⟩ := Option.map_eq_some_iff.mp h
    obtain ⟨hmessages, hunread⟩ := recordInbound_spec hrecord
    refine ⟨⟨_, views_inserted hnew (hmessages.trans hnamed.messages)⟩, fun _ => ⟨rfl, ?_⟩⟩
    exact hunread.trans (congrArg (· + 1) hnamed.unread)
  · obtain rfl := Option.some.inj h
    exact ⟨⟨_, views_inserted hnew hnamed.messages⟩, fun hin => absurd hin hinbound⟩

theorem storeText_known {v : MessageView} {t : ℕ} (hv : views e.key s = [v]) (ht : v.providerOccurredAt = some t)
    (h : storeText o e html conversationID senderEndpointID contactID s = some s') :
    views e.key s' = [v.after (.upsert e html)] ∧ s'.caseOpenings = s.caseOpenings ∧ s'.db.unreadTotal = s.db.unreadTotal := by
  obtain ⟨m, hfind, hm⟩ := findMessage_some hv
  have hid : m.id = v.id := by
    rw [← hm]
    rfl
  unfold storeText at h
  rw [hfind] at h
  dsimp only at h
  split_ifs at h with hnewer
  · obtain rfl := Option.some.inj h
    rw [after_old (.upsert e html) ht ((newerThan_view hm ht).mp hnewer)]
    exact ⟨hv, rfl, rfl⟩
  · obtain rfl := Option.some.inj h
    have hle : t ≤ e.occurredAt := Nat.le_of_not_lt fun hlt => hnewer ((newerThan_view hm ht).mpr hlt)
    rw [after_text (.upsert e html) ht hle rfl]
    have hquiet := nameSender_quiet e conversationID senderEndpointID (rewriteMessage e conversationID m s.db)
    refine ⟨?_, rfl, hquiet.unread⟩
    refine Eq.trans (views_quiet (s := ⟨rewriteMessage e conversationID m s.db,
      Function.update s.columns m.id ((s.columns m.id).rewrite e.textContent html), s.caseOpenings⟩)
      (hquiet.trans (touchConversation_quiet e conversationID _))) ?_
    have hcolumns : s.columns m.id = v.columns := by
      rw [← hm]
      rfl
    rw [hcolumns, hid]
    obtain ⟨_, _, hwritten⟩ := views_written s.caseOpenings (rewriteMessage e conversationID m s.db)
      (c := v.columns.rewrite e.textContent html)
      (f := fun m =>
        { m with
          conversationID := conversationID
          textContent := e.textContent
          providerOccurredAt := some e.occurredAt }) hv (by rw [← hid]; rfl) (fun _ => rfl) (fun _ => rfl)
    exact hwritten

theorem applyMessageMutation_known {key : MessageKey} {occurredAt : ℕ} {body : Option (Option String × Option String)}
    {v : MessageView} {t : ℕ} (hbody : change.body = body) (htime : change.occurredAt = occurredAt)
    (hv : views key s = [v]) (ht : v.providerOccurredAt = some t)
    (h : applyMessageMutation key occurredAt body s = some s') :
    views key s' = [v.after change] ∧ s'.caseOpenings = s.caseOpenings ∧ s'.db.unreadTotal = s.db.unreadTotal := by
  obtain ⟨m, hfind, hm⟩ := findMessage_some hv
  have hid : m.id = v.id := by
    rw [← hm]
    rfl
  have hcolumns : s.columns m.id = v.columns := by
    rw [← hm]
    rfl
  unfold applyMessageMutation at h
  rw [hfind, Option.map_some] at h
  subst htime
  by_cases hnewer : m.newerThan change.occurredAt = true
  · rw [if_pos hnewer] at h
    obtain rfl := Option.some.inj h
    rw [after_old change ht ((newerThan_view hm ht).mp hnewer)]
    exact ⟨hv, rfl, rfl⟩
  · rw [if_neg hnewer, hcolumns, hid] at h
    have hle : t ≤ change.occurredAt := Nat.le_of_not_lt fun hlt => hnewer ((newerThan_view hm ht).mpr hlt)
    cases body with
    | none =>
      obtain rfl := Option.some.inj h
      rw [after_delete change ht hle hbody]
      refine ⟨?_, rfl, rfl⟩
      obtain ⟨m', hm', hwritten⟩ := views_written s.caseOpenings
        (setMessage v.id (fun m => { m with providerOccurredAt := some change.occurredAt }) s.db)
        (c := v.columns.mark change.occurredAt)
        (f := fun m => { m with providerOccurredAt := some change.occurredAt }) hv rfl (fun _ => rfl)
        (fun _ => rfl)
      refine hwritten.trans ?_
      rw [← hm']
      rfl
    | some body =>
      obtain ⟨text, html⟩ := body
      obtain rfl := Option.some.inj h
      rw [after_text change ht hle hbody]
      refine ⟨?_, rfl, rfl⟩
      obtain ⟨_, _, hwritten⟩ := views_written s.caseOpenings
        (setMessage v.id (fun m =>
          { m with
            textContent := text
            providerOccurredAt := some change.occurredAt }) s.db)
        (c := v.columns.rewrite text html)
        (f := fun m =>
          { m with
            textContent := text
            providerOccurredAt := some change.occurredAt }) hv rfl (fun _ => rfl) (fun _ => rfl)
      exact hwritten

theorem applyChange_known {v : MessageView} {t : ℕ} (hv : views change.key s = [v]) (ht : v.providerOccurredAt = some t)
    (h : applyChange o change s = some s') :
    views change.key s' = [v.after change] ∧ s'.caseOpenings = s.caseOpenings ∧ s'.db.unreadTotal = s.db.unreadTotal := by
  cases change with
  | upsert e html =>
    obtain ⟨conversationID, senderEndpointID, contactID, db, hquiet, hstore⟩ := applyTextUpsert_store h
    have hv' : views e.key { s with db := db } = [v] := (views_quiet hquiet).trans hv
    obtain ⟨hviews, hcases, hunread⟩ := storeText_known hv' ht hstore
    exact ⟨hviews, hcases, hunread.trans hquiet.unread⟩
  | edit key occurredAt text html => exact applyMessageMutation_known rfl rfl hv ht h
  | delete key occurredAt => exact applyMessageMutation_known rfl rfl hv ht h

theorem applyMessageMutation_missing (key : MessageKey) (occurredAt : ℕ) (body : Option (Option String × Option String))
    (hnew : views key s = []) : applyMessageMutation key occurredAt body s = none := by
  unfold applyMessageMutation
  rw [findMessage_none hnew, Option.map_none]

theorem applyChange_new (hnew : views change.key s = []) (h : applyChange o change s = some s') :
    ∃ e html id, change = .upsert e html ∧ views change.key s' = [firstView id e html] ∧
      (e.inbound = true → s'.caseOpenings = s.caseOpenings + 1 ∧ s'.db.unreadTotal = s.db.unreadTotal + 1) := by
  cases change with
  | upsert e html =>
    obtain ⟨conversationID, senderEndpointID, contactID, db, hquiet, hstore⟩ := applyTextUpsert_store h
    have hnew' : views e.key { s with db := db } = [] := (views_quiet hquiet).trans hnew
    obtain ⟨⟨id, hviews⟩, hcounts⟩ := storeText_new hnew' hstore
    refine ⟨e, html, id, rfl, hviews, fun hin => ⟨(hcounts hin).1, ?_⟩⟩
    exact (hcounts hin).2.trans (congrArg (· + 1) hquiet.unread)
  | edit key occurredAt text html =>
    have hnone := applyMessageMutation_missing key occurredAt (some (text, html)) hnew
    exact absurd (hnone.symm.trans h) nofun
  | delete key occurredAt =>
    have hnone := applyMessageMutation_missing key occurredAt none hnew
    exact absurd (hnone.symm.trans h) nofun

end Transaction

/-! ### Every order -/

theorem runAttempts_append (s : TextDb) (attempts : List (Occasion × MessageChange)) (a : Occasion × MessageChange) :
    runAttempts s (attempts ++ [a]) = attempt (runAttempts s attempts) a := by
  unfold runAttempts
  rw [List.foldl_append, List.foldl_cons, List.foldl_nil]

theorem succeeds_append (s : TextDb) (attempts : List (Occasion × MessageChange)) (a : Occasion × MessageChange)
    (change : MessageChange) : Succeeds s (attempts ++ [a]) change ↔ Succeeds s attempts change ∨
      (change = a.2 ∧ (applyChange a.1 a.2 (runAttempts s attempts)).isSome) := by
  constructor
  · rintro ⟨before, o, after, hsplit, hsome⟩
    rcases List.eq_nil_or_concat after with rfl | ⟨rest, b, rfl⟩
    · obtain ⟨rfl, hlast⟩ := List.append_inj' hsplit rfl
      obtain rfl := List.singleton_inj.mp hlast
      exact .inr ⟨rfl, hsome⟩
    · rw [List.concat_eq_append, ← List.cons_append, ← List.append_assoc] at hsplit
      exact .inl ⟨before, o, rest, (List.append_inj' hsplit rfl).1, hsome⟩
  · rintro (⟨before, o, after, rfl, hsome⟩ | ⟨rfl, hsome⟩)
    · exact ⟨before, o, after ++ [a], by simp, hsome⟩
    · exact ⟨attempts, a.1, [], rfl, hsome⟩

/-- The text of the row, or none if it is marked deleted. -/
def MessageView.shown (v : MessageView) : Option (String × Option String × Option String) :=
  if v.columns.deletedBySender then none
  else some (v.columns.content, v.textContent, v.columns.sanitizedHtmlContent)

def MessageChange.shows (change : MessageChange) : Option (String × Option String × Option String) :=
  change.body.map fun (text, html) => (contentOf text html, text, html)

/-- The row after the events in `applied`: the latest of them has set the clock, and the text unless it is a deletion. -/
structure Reflects (applied : MessageChange → Prop) (v : MessageView) (latest : MessageChange) : Prop where
  latest_applied : applied latest
  latest_of : ∀ change, applied change → change.occurredAt ≤ latest.occurredAt
  clock : v.providerOccurredAt = some latest.occurredAt
  text : ∀ text html, latest.body = some (text, html) →
    v.textContent = text ∧ v.columns.content = contentOf text html ∧ v.columns.sanitizedHtmlContent = html
  deleted : v.columns.deletedBySender = true ↔ ∃ change, applied change ∧ change.isDelete = true

theorem body_none_iff (change : MessageChange) : change.body = none ↔ change.isDelete = true := by
  cases change <;> simp [MessageChange.body, MessageChange.isDelete]

/-- Deletions are later than the events with a text. -/
def DeletesLast (applied : MessageChange → Prop) : Prop :=
  ∀ d, applied d → d.isDelete = true → ∀ c, applied c → c.isDelete = false → c.occurredAt < d.occurredAt

theorem Reflects.step {applied : MessageChange → Prop} {v : MessageView} {latest : MessageChange}
    (change : MessageChange) (h : Reflects applied v latest) (hlast : DeletesLast fun c => applied c ∨ c = change) :
    ∃ latest', Reflects (fun c => applied c ∨ c = change) (v.after change) latest' := by
  by_cases hold : change.occurredAt < latest.occurredAt
  · refine ⟨latest, .inl h.latest_applied, ?_, ?_, ?_, ?_⟩
    · rintro c (hc | rfl)
      · exact h.latest_of c hc
      · exact hold.le
    · rw [after_old change h.clock hold]
      exact h.clock
    · rw [after_old change h.clock hold]
      exact h.text
    · rw [after_old change h.clock hold, h.deleted]
      constructor
      · rintro ⟨c, hc, hdelete⟩
        exact ⟨c, .inl hc, hdelete⟩
      · rintro ⟨c, hc | rfl, hdelete⟩
        · exact ⟨c, hc, hdelete⟩
        · -- a deletion that is dropped came before a later one
          cases hl : latest.isDelete with
          | true => exact ⟨latest, h.latest_applied, hl⟩
          | false => exact absurd (hlast _ (.inr rfl) hdelete latest (.inl h.latest_applied) hl) (Nat.lt_asymm hold)
  · have hle : latest.occurredAt ≤ change.occurredAt := Nat.le_of_not_lt hold
    have hof : ∀ c, (applied c ∨ c = change) → c.occurredAt ≤ change.occurredAt := by
      rintro c (hc | rfl)
      · exact (h.latest_of c hc).trans hle
      · exact le_rfl
    refine ⟨change, ?_⟩
    cases hbody : change.body with
    | none =>
      rw [after_delete change h.clock hle hbody]
      refine ⟨.inr rfl, hof, rfl, fun text html hsome => ?_, iff_of_true rfl ⟨change, .inr rfl, (body_none_iff change).mp hbody⟩⟩
      exact absurd (hbody.symm.trans hsome) nofun
    | some body =>
      obtain ⟨text, html⟩ := body
      have hkept : change.isDelete = false := by
        cases hd : change.isDelete with
        | false => rfl
        | true => exact nomatch ((body_none_iff change).mpr hd).symm.trans hbody
      rw [after_text change h.clock hle hbody]
      refine ⟨.inr rfl, hof, rfl, fun text' html' hsome => ?_, ?_⟩
      · obtain ⟨rfl, rfl⟩ := Prod.mk.inj (Option.some.inj (hbody.symm.trans hsome))
        exact ⟨rfl, rfl, rfl⟩
      · refine Iff.trans h.deleted ?_
        constructor
        · rintro ⟨c, hc, hdelete⟩
          exact ⟨c, .inl hc, hdelete⟩
        · rintro ⟨c, hc | rfl, hdelete⟩
          · exact ⟨c, hc, hdelete⟩
          · exact absurd hdelete (by rw [hkept]; exact Bool.false_ne_true)

theorem reflects_first (applied : MessageChange → Prop) (hnone : ∀ c, ¬ applied c) (id : Uuid) (e : MessageUpsert)
    (html : Option String) : Reflects (fun c => applied c ∨ c = .upsert e html) (firstView id e html) (.upsert e html) where
  latest_applied := .inr rfl
  latest_of := by
    rintro c (hc | rfl)
    · exact absurd hc (hnone c)
    · exact le_rfl
  clock := rfl
  text := by
    intro text html' hbody
    obtain ⟨rfl, rfl⟩ := Prod.mk.inj (Option.some.inj hbody)
    exact ⟨rfl, rfl, rfl⟩
  deleted := by
    refine iff_of_false Bool.false_ne_true ?_
    rintro ⟨c, hc | rfl, hdelete⟩
    · exact hnone c hc
    · exact absurd hdelete Bool.false_ne_true

/-- After a run: nothing has been applied, or the row is there and has been counted once. -/
def Settled (key : MessageKey) (s₀ s : TextDb) (inbound : Prop) (applied : MessageChange → Prop) : Prop :=
  (views key s = [] ∧ (∀ c, ¬ applied c) ∧ s.caseOpenings = s₀.caseOpenings ∧ s.db.unreadTotal = s₀.db.unreadTotal) ∨
    ∃ v latest, views key s = [v] ∧ Reflects applied v latest ∧
      (inbound → s.caseOpenings = s₀.caseOpenings + 1 ∧ s.db.unreadTotal = s₀.db.unreadTotal + 1)

theorem settled_run {key : MessageKey} {events : Finset MessageChange} (hkey : ∀ c ∈ events, c.key = key)
    (hlast : DeletesLast (· ∈ events)) {s₀ : TextDb} (hnew : views key s₀ = [])
    (attempts : List (Occasion × MessageChange)) (hof : ∀ a ∈ attempts, a.2 ∈ events) :
    (∀ c, Succeeds s₀ attempts c → c ∈ events) ∧
      Settled key s₀ (runAttempts s₀ attempts) (∀ e html, .upsert e html ∈ events → e.inbound = true)
        (Succeeds s₀ attempts) := by
  induction attempts using List.reverseRecOn with
  | nil =>
    have hnone : ∀ c, ¬ Succeeds s₀ [] c := by
      rintro c ⟨before, o, after, hsplit, -⟩
      exact absurd hsplit (by simp)
    exact ⟨fun c hc => absurd hc (hnone c), .inl ⟨hnew, hnone, rfl, rfl⟩⟩
  | append_singleton attempts a ih =>
    obtain ⟨hin, hsettled⟩ := ih fun b hb => hof b (List.mem_append_left _ hb)
    have ha : a.2 ∈ events := hof a (List.mem_append_right _ List.mem_cons_self)
    rw [runAttempts_append]
    refine ⟨fun c hc => ?_, ?_⟩
    · rcases (succeeds_append s₀ attempts a c).mp hc with hc | ⟨rfl, -⟩
      · exact hin c hc
      · exact ha
    cases happly : applyChange a.1 a.2 (runAttempts s₀ attempts) with
    | none =>
      have hsame : Succeeds s₀ (attempts ++ [a]) = Succeeds s₀ attempts := by
        funext c
        refine propext ((succeeds_append s₀ attempts a c).trans ?_)
        rw [happly]
        exact or_iff_left fun h => absurd h.2 Bool.false_ne_true
      rw [hsame, attempt, happly, Option.getD_none]
      exact hsettled
    | some s' =>
      have hmore : Succeeds s₀ (attempts ++ [a]) = fun c => Succeeds s₀ attempts c ∨ c = a.2 := by
        funext c
        refine propext ((succeeds_append s₀ attempts a c).trans (or_congr_right ?_))
        rw [happly]
        exact and_iff_left rfl
      have hkeya := hkey a.2 ha
      rw [hmore, attempt, happly, Option.getD_some]
      refine .inr ?_
      rcases hsettled with ⟨hviews, hnone, hcases, hunread⟩ | ⟨v, latest, hviews, hreflects, hcounts⟩
      · rw [← hkeya] at hviews
        obtain ⟨e, html, id, hchange, hfirst, hcount⟩ := applyChange_new hviews happly
        rw [hkeya] at hfirst
        refine ⟨firstView id e html, .upsert e html, hfirst, ?_, fun hinbound => ?_⟩
        · rw [hchange]
          exact reflects_first _ hnone id e html
        · obtain ⟨hopened, hone⟩ := hcount (hinbound e html (hchange ▸ ha))
          exact ⟨hopened.trans (congrArg (· + 1) hcases), hone.trans (congrArg (· + 1) hunread)⟩
      · rw [← hkeya] at hviews
        obtain ⟨hafter, hcases, hunread⟩ := applyChange_known hviews hreflects.clock happly
        rw [hkeya] at hafter
        have hmem : ∀ c, (Succeeds s₀ attempts c ∨ c = a.2) → c ∈ events := by
          rintro c (hc | rfl)
          · exact hin c hc
          · exact ha
        obtain ⟨latest', hreflects'⟩ := hreflects.step a.2 fun d hd hdelete c hc hkept =>
          hlast d (hmem d hd) hdelete c (hmem c hc) hkept
        exact ⟨_, latest', hafter, hreflects', fun hinbound =>
          ⟨hcases.trans (hcounts hinbound).1, hunread.trans (hcounts hinbound).2⟩⟩

/-- **Mutations commute.**  Events on one message that is new, with different times and deletions after everything else,
come to one row, whatever the order and the repetitions of the attempts, once each has been applied.  It is shown as
deleted if there is a deletion and with the text of the latest event if not; an inbound message opens one case and is
counted as unread once. -/
theorem mutations_commute (key : MessageKey) (events : Finset MessageChange) (hkey : ∀ c ∈ events, c.key = key)
    (htimes : ∀ c ∈ events, ∀ d ∈ events, c.occurredAt = d.occurredAt → c = d)
    (hupsert : ∃ c ∈ events, c.isUpsert = true)
    (hlast : ∀ d ∈ events, d.isDelete = true → ∀ c ∈ events, c.isDelete = false → c.occurredAt < d.occurredAt) :
    ∃ shown : Option (String × Option String × Option String),
      (shown = none ↔ ∃ c ∈ events, c.isDelete = true) ∧
      ((∀ c ∈ events, c.isDelete = false) → ∀ latest ∈ events, (∀ c ∈ events, c.occurredAt ≤ latest.occurredAt) →
        shown = latest.shows) ∧
      ∀ (s : TextDb) (attempts : List (Occasion × MessageChange)), findMessage key s.db = none →
        (∀ a ∈ attempts, a.2 ∈ events) → (∀ c ∈ events, Succeeds s attempts c) →
        ∃ v, views key (runAttempts s attempts) = [v] ∧ v.shown = shown ∧
          ((∀ e html, .upsert e html ∈ events → e.inbound = true) →
            (runAttempts s attempts).caseOpenings = s.caseOpenings + 1 ∧
            (runAttempts s attempts).db.unreadTotal = s.db.unreadTotal + 1) := by
  obtain ⟨first, hfirst, hisUpsert⟩ := hupsert
  obtain ⟨newest, hnewest, hmax⟩ := events.exists_max_image MessageChange.occurredAt ⟨first, hfirst⟩
  have hshows : (∀ c ∈ events, c.isDelete = false) → ∃ text html, newest.body = some (text, html) := by
    intro hkept
    cases hbody : newest.body with
    | none => exact absurd ((body_none_iff newest).mp hbody) (by rw [hkept newest hnewest]; exact Bool.false_ne_true)
    | some body => exact ⟨body.1, body.2, rfl⟩
  by_cases hdelete : ∃ c ∈ events, c.isDelete = true
  · refine ⟨none, iff_of_true rfl hdelete, fun hkept => ?_, fun s attempts hnone hof hall => ?_⟩
    · obtain ⟨c, hc, hd⟩ := hdelete
      exact absurd hd (by rw [hkept c hc]; exact Bool.false_ne_true)
    · have hnew : views key s = [] := List.map_eq_nil_iff.mpr
        (List.filter_eq_nil_iff.mpr fun m hm => List.find?_eq_none.mp hnone m hm)
      obtain ⟨hin, hsettled⟩ := settled_run hkey hlast hnew attempts hof
      obtain ⟨-, hno, -⟩ | ⟨v, latest, hviews, hreflects, hcounts⟩ := hsettled
      · exact absurd (hall first hfirst) (hno first)
      · refine ⟨v, hviews, ?_, hcounts⟩
        obtain ⟨c, hc, hd⟩ := hdelete
        exact if_pos (hreflects.deleted.mpr ⟨c, hall c hc, hd⟩)
  · have hkept : ∀ c ∈ events, c.isDelete = false := fun c hc => by
      cases hd : c.isDelete with
      | false => rfl
      | true => exact absurd ⟨c, hc, hd⟩ hdelete
    obtain ⟨text, html, hbody⟩ := hshows hkept
    refine ⟨newest.shows, iff_of_false ?_ hdelete, fun _ latest hlatest hle => ?_, fun s attempts hnone hof hall => ?_⟩
    · rw [MessageChange.shows, hbody]
      exact nofun
    · rw [htimes newest hnewest latest hlatest (le_antisymm (hle newest hnewest) (hmax latest hlatest))]
    · have hnew : views key s = [] := List.map_eq_nil_iff.mpr
        (List.filter_eq_nil_iff.mpr fun m hm => List.find?_eq_none.mp hnone m hm)
      obtain ⟨hin, hsettled⟩ := settled_run hkey hlast hnew attempts hof
      obtain ⟨-, hno, -⟩ | ⟨v, latest, hviews, hreflects, hcounts⟩ := hsettled
      · exact absurd (hall first hfirst) (hno first)
      · refine ⟨v, hviews, ?_, hcounts⟩
        have hlatest : latest = newest := htimes latest (hin _ hreflects.latest_applied) newest hnewest
          (le_antisymm (hmax latest (hin _ hreflects.latest_applied)) (hreflects.latest_of newest (hall newest hnewest)))
        have hnot : ¬ v.columns.deletedBySender = true := fun hdeleted => by
          obtain ⟨c, hc, hd⟩ := hreflects.deleted.mp hdeleted
          exact hdelete ⟨c, hin c hc, hd⟩
        obtain ⟨htext, hcontent, hhtml⟩ := hreflects.text text html (hlatest ▸ hbody)
        rw [MessageView.shown, if_neg hnot, MessageChange.shows, hbody, htext, hcontent, hhtml]
        rfl

def emptyTexts : TextDb := ⟨.empty, fun _ => ⟨"", none, false, none⟩, 0⟩

def visitorEvents : Finset MessageChange :=
  {.upsert (visitorMessage "a" "1") none, .edit (visitorMessage "a" "1").key 1 (some "Hello!") none,
    .delete (visitorMessage "a" "1").key 2}

/-- An edit comes before the message and again after the deletion. -/
def visitorAttempts : List (Occasion × MessageChange) :=
  [
    (someOccasion, .edit (visitorMessage "a" "1").key 1 (some "Hello!") none),
    (someOccasion, .upsert (visitorMessage "a" "1") none),
    (someOccasion, .delete (visitorMessage "a" "1").key 2),
    (someOccasion, .edit (visitorMessage "a" "1").key 1 (some "Hello!") none)
  ]

theorem mutations_commute_visitor : ∃ v, views (visitorMessage "a" "1").key (runAttempts emptyTexts visitorAttempts) = [v] ∧
    v.shown = none ∧ (runAttempts emptyTexts visitorAttempts).caseOpenings = 1 := by
  obtain ⟨shown, hdeleted, -, hrun⟩ := mutations_commute (visitorMessage "a" "1").key visitorEvents (by decide) (by decide)
    (by decide) (by decide)
  have hnone : shown = none := hdeleted.mpr (by decide)
  obtain ⟨v, hviews, hshown, hcounts⟩ := hrun emptyTexts visitorAttempts rfl (by decide) (fun c hc => by
    simp only [visitorEvents, Finset.mem_insert, Finset.mem_singleton] at hc
    rcases hc with rfl | rfl | rfl
    · exact ⟨visitorAttempts.take 1, someOccasion, visitorAttempts.drop 2, rfl, by decide +kernel⟩
    · exact ⟨visitorAttempts.take 3, someOccasion, [], rfl, by decide +kernel⟩
    · exact ⟨visitorAttempts.take 2, someOccasion, visitorAttempts.drop 3, rfl, by decide +kernel⟩)
  refine ⟨v, hviews, hshown.trans hnone, (hcounts fun e html he => ?_).1⟩
  simp only [visitorEvents, Finset.mem_insert, Finset.mem_singleton, MessageChange.upsert.injEq, reduceCtorEq, or_false] at he
  rw [he.1]
  rfl

end TeamInbox.Channels
