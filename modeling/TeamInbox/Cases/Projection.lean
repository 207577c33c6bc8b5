import TeamInbox.Cases.Lifecycle
import Mathlib.Data.List.Find
import Mathlib.Data.List.Nodup

/-!
# TeamInbox.Cases.Projection — one active case and a faithful projection

A contact and its conversation share their cases and one row of `conversation_states`.  `CaseMove` says
once what a transition can do to them; from it follows that the projection stays faithful in every run
whose transitions carry both keys of the pair.  The manual transitions of the conversation family write
a null contact, so on a conversation that has a contact they lose it.
-/

namespace TeamInbox.Cases

open TeamInbox.Lib

/-- A contact and its conversation; either may be missing. -/
structure Pair where
  contact : Option Uuid
  conversation : Option Uuid
  deriving DecidableEq

namespace Pair

variable (p : Pair)

/-- The row belongs to the contact or to the conversation. -/
def Owns (contactID conversationID : Option Uuid) : Prop :=
  (contactID = p.contact ∧ p.contact.isSome) ∨ (conversationID = p.conversation ∧ p.conversation.isSome)

def Keys (contactID conversationID : Option Uuid) : Prop :=
  contactID = p.contact ∧ conversationID = p.conversation

end Pair

/-! ### What is claimed -/

/-- At most one active case, and at most one projection, which is found by both keys and follows it. -/
structure Faithful (p : Pair) (db : CaseDb) : Prop where
  oneActive : ∀ x ∈ db.cases, ∀ y ∈ db.cases, p.Owns x.contactID x.conversationID →
    p.Owns y.contactID y.conversationID → x.status.active → y.status.active → x = y
  oneRow : ∀ r ∈ db.states, p.Owns r.contactID r.conversationID → db.states.length = 1
  found : ∀ r ∈ db.states, p.Owns r.contactID r.conversationID → p.Keys r.contactID r.conversationID
  active : ∀ x ∈ db.cases, p.Owns x.contactID x.conversationID → x.status.active →
    ∃ r ∈ db.states, p.Owns r.contactID r.conversationID ∧ r.activeCaseID = some x.id ∧ r.status = x.status
  settled : (∀ x ∈ db.cases, p.Owns x.contactID x.conversationID → x.status = .resolved) →
    ∀ r ∈ db.states, p.Owns r.contactID r.conversationID → r.activeCaseID = none ∧ r.status = .resolved

/-- The conversation of the contact is that of the pair. -/
def Linked (p : Pair) (db : CaseDb) : Prop :=
  ∀ c, p.contact = some c → db.conversationIDForContact c = p.conversation

/-- Before the first case; there may be a projection already. -/
structure Unopened (p : Pair) (db : CaseDb) : Prop where
  link : Linked p db
  noCase : db.cases = []
  single : db.states.length ≤ 1
  keys : ∀ r ∈ db.states, p.Keys r.contactID r.conversationID

/-- The projection an import leaves before the first case is resolved. -/
structure Fresh (p : Pair) (db : CaseDb) : Prop extends Unopened p db where
  seeded : ∀ r ∈ db.states, r.activeCaseID = none ∧ r.status = .resolved

/-- The transition is on the pair, through either family. -/
def OnPair (p : Pair) : CaseAction → Prop
  | .inboundMessage c _ _ _ | .resolve c _ _ | .setPending c _ | .resume c _ | .openCase c _ _
  | .ensureActive c _ _ _ _ => p.contact = some c
  | .inboundConversation v c _ _ _ => p.conversation = some v ∧ (c = none ∨ c = p.contact)
  | .resolveConversation v _ _ | .setPendingConversation v _ | .resumeConversation v _
  | .reopenConversation v _ _ => p.conversation = some v
  | .elsewhere _ _ => True

/-- The transition is on the pair and carries both of its keys.  The manual transitions of the
conversation family carry no contact. -/
def CarriesKeys (p : Pair) : CaseAction → Prop
  | .inboundMessage c _ _ _ | .resolve c _ _ | .setPending c _ | .resume c _ | .openCase c _ _
  | .ensureActive c _ _ _ _ => p.contact = some c
  | .inboundConversation v c _ _ _ => p.conversation = some v ∧ c = p.contact
  | .resolveConversation v _ _ | .setPendingConversation v _ | .resumeConversation v _
  | .reopenConversation v _ _ => p.conversation = some v ∧ p.contact = none
  | .elsewhere _ _ => True

def CaseError.rejected : CaseError → Bool
  | .constraint _ => true
  | _ => false

def Unrejected (trim : String → String) (C : CaseAction → Prop) (db : CaseDb) : Prop :=
  ∀ a, C a → ∀ e, (perform trim a db).1 = .error e → e.rejected = false

/-! ### Transactions -/

section Lands

variable {α β : Type} {db : CaseDb}

/-- From `db` the transaction commits with `Q`, or it fails under `E` on something else than a
constraint. -/
def Lands (m : CaseM α) (db : CaseDb) (E : Prop) (Q : α → CaseDb → Prop) : Prop :=
  Ensures m.run db fun r db' => match r with
    | .ok a => Q a db'
    | .error e => e.rejected = false ∧ E

theorem Lands.pure {a : α} {E : Prop} {Q : α → CaseDb → Prop} (h : Q a db) : Lands (pure a) db E Q := h

theorem Lands.bind {m : CaseM α} {g : α → CaseM β} {E F : Prop} {M : α → CaseDb → Prop}
    {Q : β → CaseDb → Prop} (hm : Lands m db F M) (hF : F → E)
    (hg : ∀ a db', M a db' → Lands (g a) db' E Q) : Lands (m >>= g) db E Q := by
  refine Ensures.bindThrows (Ensures.mono hm fun r db' h => ?_)
  cases r with
  | ok a => exact hg a db' h
  | error e => exact ⟨h.1, hF h.2⟩

theorem Lands.keep {m : CaseM α} {g : α → CaseM β} {E F : Prop} {P : α → Prop} {Q : β → CaseDb → Prop}
    (hm : Lands m db F fun a db' => db' = db ∧ P a) (hF : F → E) (hg : ∀ a, P a → Lands (g a) db E Q) :
    Lands (m >>= g) db E Q := by
  refine hm.bind hF fun a db' h => ?_
  rw [h.1]
  exact hg a h.2

theorem Lands.mono {m : CaseM α} {E F : Prop} {M Q : α → CaseDb → Prop} (hm : Lands m db F M) (hF : F → E)
    (h : ∀ a db', M a db' → Q a db') : Lands m db E Q := by
  refine Ensures.mono hm fun r db' hr => ?_
  cases r with
  | ok a => exact h a db' hr
  | error e => exact ⟨hr.1, hF hr.2⟩

theorem lands_get {g : CaseDb → CaseM α} {E : Prop} {Q : α → CaseDb → Prop} (h : Lands (g db) db E Q) :
    Lands (get >>= g) db E Q := h

theorem lands_modify {f : CaseDb → CaseDb} {E : Prop} {Q : PUnit → CaseDb → Prop} (h : Q ⟨⟩ (f db)) :
    Lands (modify f : CaseM PUnit) db E Q := h

theorem lands_throw {e : CaseError} {E : Prop} {Q : α → CaseDb → Prop} (h : e.rejected = false) (hE : E) :
    Lands (throw e : CaseM α) db E Q := ⟨h, hE⟩

theorem lands_updateCases {q : Case → Bool} {f : Case → Case} {E : Prop} {Q : Option Case → CaseDb → Prop}
    (h : Q ((db.cases.find? q).map f) { db with cases := db.cases.map fun c => if q c then f c else c }) :
    Lands (updateCases q f) db E Q := h

theorem lands_check {c : Prop} [Decidable c] {e : CaseError} {k : β → CaseM α} {g : CaseM α} {E : Prop}
    {Q : α → CaseDb → Prop} (he : e.rejected = false) (hE : c → E) (hg : ¬ c → Lands g db E Q) :
    Lands (if c then throw e >>= k else g) db E Q := by
  split_ifs with hc
  · exact Lands.bind (M := fun _ _ => False) (lands_throw he (hE hc)) id fun _ _ => False.elim
  · exact hg hc

theorem lands_branch {c : Prop} [Decidable c] {m m' : CaseM β} {k : β → CaseM α} {E F : Prop}
    {M : β → CaseDb → Prop} {Q : α → CaseDb → Prop} (hm : c → Lands m db F M) (hm' : ¬ c → Lands m' db F M)
    (hF : F → E) (hk : ∀ b db', M b db' → Lands (k b) db' E Q) :
    Lands (if c then m >>= k else m' >>= k) db E Q := by
  split_ifs with hc
  · exact (hm hc).bind hF hk
  · exact (hm' hc).bind hF hk

end Lands

/-! ### The invariant -/

/-- The pair has one projection row, which says `active` and `status`. -/
def Projects (p : Pair) (active : Option Uuid) (status : CaseStatus) (db : CaseDb) : Prop :=
  ∃ r, db.states = [r] ∧ p.Keys r.contactID r.conversationID ∧ r.activeCaseID = active ∧
    r.status = status

/-- The rows of the pair; `seed` is its projection before the first case. -/
structure CaseInv (p : Pair) (seed : List StateRow) (db : CaseDb) : Prop where
  link : Linked p db
  caseKeys : ∀ x ∈ db.cases, p.Keys x.contactID x.conversationID
  ids : (db.cases.map (·.id)).Nodup
  one : ∀ x ∈ db.cases, ∀ y ∈ db.cases, x.status.active → y.status.active → x = y
  stateKeys : ∀ r ∈ db.states, p.Keys r.contactID r.conversationID
  single : db.states.length ≤ 1
  fresh : db.cases = [] → db.states = seed
  follows : ∀ x ∈ db.cases, x.status.active → Projects p (some x.id) x.status db
  settled : db.cases ≠ [] → (∀ x ∈ db.cases, x.status.active = false) → Projects p none .resolved db

/-- What a transition can do to the cases of the pair and to their projection; `given` are the defaults
of a new row. -/
inductive CaseMove (p : Pair) (given : Option Supply) (db db' : CaseDb) : Prop
  | idle (hcases : db'.cases = db.cases) (hstates : db'.states = db.states)
  /-- The active case is set to `status`, which may be the one it has. -/
  | flipped (x : Case) (status : CaseStatus) (hx : x ∈ db.cases) (hactive : x.status.active)
      (hstatus : status.active)
      (hcases : db'.cases = db.cases.map fun y => if y.id = x.id then { y with status := status } else y)
      (hstates : Projects p (some x.id) status db')
  | closed (x : Case) (f : Case → Case) (hx : x ∈ db.cases) (hactive : x.status.active)
      (hf : ∀ y, (f y).id = y.id ∧ (f y).contactID = y.contactID ∧
        (f y).conversationID = y.conversationID ∧ (f y).createdAt = y.createdAt ∧
        (f y).reopenedFromCaseID = y.reopenedFromCaseID ∧ (f y).status = .resolved)
      (hcases : db'.cases = db.cases.map fun y => if y.id = x.id then f y else y)
      (hstates : Projects p none .resolved db')
  /-- A case is created while none is active.  It points to the most recent one, unless the projection
  was not resolved. -/
  | created (row : Case) (hgiven : ∃ s ∈ given, row.id = s.caseID ∧ row.createdAt = s.createdAt)
      (hnone : ∀ y ∈ db.cases, y.status.active = false)
      (hkeys : p.Keys row.contactID row.conversationID) (hstatus : row.status = .opened)
      (hprior : row.reopenedFromCaseID = (mostRecent db.cases).map (·.id) ∨
        (row.reopenedFromCaseID = none ∧ ∀ r ∈ db.states, r.status ≠ .resolved))
      (hcases : db'.cases = row :: db.cases) (hstates : Projects p (some row.id) .opened db')

section Moves

variable {p : Pair} {seed : List StateRow} {db db' : CaseDb}

theorem eq_of_case_id (hI : CaseInv p seed db) {x y : Case} (hx : x ∈ db.cases) (hy : y ∈ db.cases)
    (hid : x.id = y.id) : x = y := List.inj_on_of_nodup_map hI.ids hx hy hid

theorem Projects.keys {active : Option Uuid} {status : CaseStatus} (h : Projects p active status db) :
    (∀ r ∈ db.states, p.Keys r.contactID r.conversationID) ∧ db.states.length ≤ 1 := by
  obtain ⟨r, hr, hkeys, -⟩ := h
  rw [hr]
  refine ⟨fun r' hr' => ?_, le_rfl⟩
  rw [List.mem_singleton.mp hr']
  exact hkeys

theorem CaseInv.touch {x : Case} {f : Case → Case} {status : CaseStatus} (hI : CaseInv p seed db)
    (hlink : Linked p db')
    (hx : x ∈ db.cases) (hactive : x.status.active)
    (hf : ∀ y, (f y).id = y.id ∧ (f y).contactID = y.contactID ∧ (f y).conversationID = y.conversationID ∧
      (f y).status = status)
    (hcases : db'.cases = db.cases.map fun y => if y.id = x.id then f y else y)
    (hproj : if status.active then Projects p (some x.id) status db' else Projects p none .resolved db') :
    CaseInv p seed db' := by
  -- what is active afterwards comes from `x`
  have hfrom : ∀ z ∈ db'.cases, z.status.active → z = f x := by
    intro z hz hact
    rw [hcases] at hz
    obtain ⟨y, hy, rfl⟩ := List.mem_map.mp hz
    by_cases hid : y.id = x.id
    · rw [if_pos hid, eq_of_case_id hI hy hx hid]
    · rw [if_neg hid] at hact
      exact absurd (congrArg Case.id (hI.one y hy x hx hact hactive)) hid
  have hmem : f x ∈ db'.cases := by
    rw [hcases]
    exact List.mem_map.mpr ⟨x, hx, if_pos rfl⟩
  have hkeys : (∀ r ∈ db'.states, p.Keys r.contactID r.conversationID) ∧ db'.states.length ≤ 1 := by
    split_ifs at hproj
    · exact hproj.keys
    · exact hproj.keys
  refine ⟨hlink, ?_, ?_, ?_, hkeys.1, hkeys.2, ?_, ?_, ?_⟩
  · intro z hz
    rw [hcases] at hz
    obtain ⟨y, hy, rfl⟩ := List.mem_map.mp hz
    have hy' := hI.caseKeys y hy
    split_ifs
    · rw [(hf y).2.1, (hf y).2.2.1]
      exact hy'
    · exact hy'
  · rw [hcases, List.map_map]
    have hids : ((fun y : Case => y.id) ∘ fun y => if y.id = x.id then f y else y) = fun y => y.id := by
      funext y
      simp only [Function.comp_apply]
      split_ifs
      · exact (hf y).1
      · rfl
    rw [hids]
    exact hI.ids
  · intro y hy z hz hya hza
    rw [hfrom y hy hya, hfrom z hz hza]
  · intro hnil
    rw [hnil] at hmem
    cases hmem
  · intro z hz hact
    have hz' := hfrom z hz hact
    rw [hz', (hf x).2.2.2] at hact ⊢
    rw [if_pos hact] at hproj
    rw [(hf x).1]
    exact hproj
  · intro _ hres
    have hinactive := hres (f x) hmem
    rw [(hf x).2.2.2] at hinactive
    rw [if_neg (by simp [hinactive])] at hproj
    exact hproj

theorem CaseInv.add {row : Case} (hI : CaseInv p seed db)
    (hlink : Linked p db')
    (hnone : ∀ y ∈ db.cases, y.status.active = false) (hkeys : p.Keys row.contactID row.conversationID)
    (hstatus : row.status = .opened) (hnew : ∀ y ∈ db.cases, y.id ≠ row.id)
    (hcases : db'.cases = row :: db.cases) (hstates : Projects p (some row.id) .opened db') :
    CaseInv p seed db' := by
  have honly : ∀ z ∈ db'.cases, z.status.active → z = row := by
    intro z hz hact
    rw [hcases] at hz
    rcases List.mem_cons.mp hz with rfl | hold
    · rfl
    · rw [hnone z hold] at hact
      cases hact
  refine ⟨hlink, ?_, ?_, ?_, hstates.keys.1, hstates.keys.2, ?_, ?_, ?_⟩
  · intro z hz
    rw [hcases] at hz
    rcases List.mem_cons.mp hz with rfl | hold
    · exact hkeys
    · exact hI.caseKeys z hold
  · rw [hcases, List.map_cons, List.nodup_cons]
    refine ⟨fun hmem => ?_, hI.ids⟩
    obtain ⟨y, hy, hid⟩ := List.mem_map.mp hmem
    exact hnew y hy hid
  · intro y hy z hz hya hza
    rw [honly y hy hya, honly z hz hza]
  · intro hnil
    rw [hcases] at hnil
    cases hnil
  · intro z hz hact
    rw [honly z hz hact, hstatus]
    exact hstates
  · intro _ hres
    have hrow := hres row (hcases ▸ List.mem_cons_self)
    rw [hstatus] at hrow
    cases hrow

theorem CaseInv.move (hI : CaseInv p seed db) (hsame : db'.conversations = db.conversations)
    {given : Option Supply} (hm : CaseMove p given db db')
    (hnew : ∀ s ∈ given, ∀ y ∈ db.cases, y.id ≠ s.caseID) : CaseInv p seed db' := by
  have hlink : Linked p db' := by
    intro c hc
    rw [← hI.link c hc, CaseDb.conversationIDForContact, CaseDb.conversationIDForContact, hsame]
  cases hm with
  | idle hcases hstates =>
    refine ⟨hlink, hcases ▸ hI.caseKeys, hcases ▸ hI.ids, hcases ▸ hI.one, hstates ▸ hI.stateKeys,
      hstates ▸ hI.single, fun h => hstates.trans (hI.fresh (hcases ▸ h)), ?_, ?_⟩
    · intro x hx hactive
      unfold Projects
      rw [hstates]
      exact hI.follows x (hcases ▸ hx) hactive
    · intro hne hres
      unfold Projects
      rw [hstates]
      exact hI.settled (hcases ▸ hne) (hcases ▸ hres)
  | flipped x status hx hactive hstatus hcases hstates =>
    refine hI.touch hlink hx hactive (f := fun y => { y with status := status })
      (fun y => ⟨rfl, rfl, rfl, rfl⟩) hcases ?_
    rw [if_pos hstatus]
    exact hstates
  | closed x f hx hactive hf hcases hstates =>
    exact hI.touch hlink hx hactive
      (fun y => ⟨(hf y).1, (hf y).2.1, (hf y).2.2.1, (hf y).2.2.2.2.2⟩) hcases hstates
  | created row hgiven hnone hkeys hstatus hprior hcases hstates =>
    obtain ⟨s, hs, hid, -⟩ := hgiven
    exact hI.add hlink hnone hkeys hstatus (hid ▸ hnew s hs) hcases hstates

end Moves

/-! ### The families on the pair -/

def Family.Present (fam : Family) (db : CaseDb) : Prop := fam.lock.run db = (.ok (), db)

/-- On rows with the keys of the pair the family reads all of them and writes both keys. -/
structure Suits (p : Pair) (fam : Family) : Prop where
  keyed : ∀ x : Case, p.Keys x.contactID x.conversationID → x.keyed fam.id = true
  owns : ∀ x : Case, p.Keys x.contactID x.conversationID → fam.owns x = true
  projected : ∀ r : StateRow, p.Keys r.contactID r.conversationID → fam.projected r = true
  keys : ∀ db, Linked p db → fam.keys db = (p.contact, p.conversation)
  arbiter : match fam.arbiter with
    | .contact => p.contact.isSome = true
    | .conversation => p.conversation.isSome = true
  assigned : ∀ db, fam.assignment db = db.assignments.find? fam.assigned
  lock : ∀ db, Lands fam.lock db (¬ fam.Present db) fun _ db' => db' = db ∧ fam.Present db
  sync : ∀ sync db, Linked p db → (∀ r ∈ db.states, p.Keys r.contactID r.conversationID) →
    db.states.length ≤ 1 → Lands (fam.sync sync) db False fun _ db' => ∃ r, db' = { db with states := [r] } ∧
      p.Keys r.contactID r.conversationID ∧ r.activeCaseID = sync.activeCaseID ∧ r.status = sync.status

section Families

variable {p : Pair}

theorem upsert_single {q : StateRow → Bool} {rows : List StateRow} (f : StateRow → StateRow)
    (row : StateRow) (hall : ∀ r ∈ rows, q r = true) (hlen : rows.length ≤ 1) :
    upsert q f row rows = [row] ∨ ∃ r ∈ rows, upsert q f row rows = [f r] := by
  cases rows with
  | nil => exact Or.inl rfl
  | cons r rest =>
    have hrest : rest = [] := List.length_eq_zero_iff.mp (by simpa using hlen)
    subst hrest
    have hr := hall r List.mem_cons_self
    exact Or.inr ⟨r, List.mem_cons_self, by simp [upsert, hr]⟩

theorem lands_lock {fam : Family} {ids : CaseDb → List Uuid} {id : Uuid} {what : String} {db : CaseDb}
    (hlock : fam.lock = do if id ∈ ids (← get) then pure () else throw (.notFound what)) :
    Lands fam.lock db (¬ fam.Present db) fun _ db' => db' = db ∧ fam.Present db := by
  have hrun : fam.lock.run db =
      (if id ∈ ids db then pure () else throw (.notFound what) : CaseM Unit).run db := by
    rw [hlock]
    rfl
  unfold Lands Ensures Family.Present
  by_cases h : id ∈ ids db
  · rw [if_pos h] at hrun
    rw [show fam.lock.run db = (.ok (), db) from hrun]
    exact ⟨rfl, rfl⟩
  · rw [if_neg h] at hrun
    rw [show fam.lock.run db = (.error (.notFound what), db) from hrun]
    exact ⟨rfl, fun hcontra => by cases congrArg Prod.fst hcontra⟩

theorem suits_contact {c : Uuid} (hc : p.contact = some c) : Suits p (contactFamily c) where
  keyed x hx := by
    have hk : x.contactID = some c := hx.1.trans hc
    simp [Case.keyed, contactFamily, hk]
  owns x hx := decide_eq_true (hx.1.trans hc)
  projected r hr := decide_eq_true (hr.1.trans hc)
  keys db hlink := by
    show (some c, db.conversationIDForContact c) = (p.contact, p.conversation)
    rw [hlink c hc, hc]
  arbiter := by
    show p.contact.isSome = true
    rw [hc]
    rfl
  assigned _ := rfl
  lock db := lands_lock rfl
  sync sync db hlink hkeys hlen := by
    refine lands_modify ?_
    have hall : ∀ r ∈ db.states, decide (r.contactID = some c) = true := fun r hr =>
      decide_eq_true ((hkeys r hr).1.trans hc)
    rcases upsert_single (fun r => { sync.update r with conversationID := db.conversationIDForContact c })
      (sync.insert (some c) (db.conversationIDForContact c)) hall hlen with h | ⟨r, hr, h⟩
    · exact ⟨_, congrArg (fun s => { db with states := s }) h, ⟨hc.symm, hlink c hc⟩, rfl, rfl⟩
    · exact ⟨{ sync.update r with conversationID := db.conversationIDForContact c },
        congrArg (fun s => { db with states := s }) h, ⟨(hkeys r hr).1, hlink c hc⟩, rfl, rfl⟩

theorem suits_conversation {v : Uuid} (hv : p.conversation = some v) :
    Suits p (conversationFamily v p.contact) where
  keyed x hx := by
    have hk : x.conversationID = some v := hx.2.trans hv
    simp [Case.keyed, conversationFamily, hk]
  owns x hx := decide_eq_true (hx.2.trans hv)
  projected r hr := decide_eq_true (hr.2.trans hv)
  keys db hlink := by
    show (p.contact, some v) = (p.contact, p.conversation)
    rw [hv]
  arbiter := by
    show p.conversation.isSome = true
    rw [hv]
    rfl
  assigned _ := rfl
  lock db := lands_lock rfl
  sync sync db hlink hkeys hlen := by
    refine lands_modify ?_
    have hall : ∀ r ∈ db.states, decide (r.conversationID = some v) = true := fun r hr =>
      decide_eq_true ((hkeys r hr).2.trans hv)
    rcases upsert_single (fun r => { sync.update r with contactID := p.contact })
      (sync.insert p.contact (some v)) hall hlen with h | ⟨r, hr, h⟩
    · exact ⟨_, congrArg (fun s => { db with states := s }) h, ⟨rfl, hv.symm⟩, rfl, rfl⟩
    · exact ⟨{ sync.update r with contactID := p.contact },
        congrArg (fun s => { db with states := s }) h, ⟨rfl, (hkeys r hr).2⟩, rfl, rfl⟩

end Families

/-! ### The bodies of the transitions -/

section Bodies

variable {p : Pair} {seed : List StateRow} {fam : Family} {db : CaseDb}

/-- The contact or conversation is free or assigned to the actor. -/
def Family.Free (fam : Family) (actor : Uuid) (db : CaseDb) : Prop :=
  ∀ a ∈ fam.assignment db, a.assignedTo = actor

def CaseDb.active (db : CaseDb) : Option Case := db.cases.find? (·.status.active)

theorem lands_assertActorOwns {actor : Uuid} :
    Lands (assertActorOwns fam actor) db (¬ fam.Free actor db) fun _ db' => db' = db ∧ fam.Free actor db := by
  refine lands_get ?_
  cases h : fam.assignment db with
  | none =>
    refine Lands.pure ⟨rfl, fun a ha => ?_⟩
    rw [h] at ha
    cases ha
  | some a =>
    by_cases hactor : a.assignedTo = actor
    · show Lands (if a.assignedTo = actor then pure () else throw _) db _ _
      rw [if_pos hactor]
      refine Lands.pure ⟨rfl, fun b hb => ?_⟩
      rw [h] at hb
      cases hb
      exact hactor
    · show Lands (if a.assignedTo = actor then pure () else throw _) db _ _
      rw [if_neg hactor]
      exact lands_throw rfl fun hfree => hactor (hfree a h)

theorem lands_getCurrentSlaPolicy {supply : Supply} :
    Lands (getCurrentSlaPolicy supply) db (¬ supply.policy.isSome = true) fun policy db' =>
      db' = db ∧ supply.policy = some policy := by
  unfold getCurrentSlaPolicy
  cases hpolicy : supply.policy with
  | none => exact lands_throw rfl Bool.false_ne_true
  | some policy => exact Lands.pure ⟨rfl, rfl⟩

theorem find_congr_active {q : Case → Bool} (hq : ∀ x ∈ db.cases, q x = true) :
    (db.cases.find? fun x => q x && x.status.active) = db.active :=
  List.find?_congr fun x hx => by rw [hq x hx, Bool.true_and]

theorem getActiveCase_eq (hI : CaseInv p seed db) (hs : Suits p fam) : db.getActiveCase fam.id = db.active :=
  find_congr_active fun x hx => hs.keyed x (hI.caseKeys x hx)

theorem getMostRecentCase_eq (hI : CaseInv p seed db) (hs : Suits p fam) :
    db.getMostRecentCase fam.id = mostRecent db.cases := by
  unfold CaseDb.getMostRecentCase
  rw [List.filter_eq_self.mpr fun x hx => hs.keyed x (hI.caseKeys x hx)]

theorem active_mem {x : Case} (h : db.active = some x) : x ∈ db.cases ∧ x.status.active = true := by
  have hx := List.find?_some (p := fun x : Case => x.status.active) h
  exact ⟨List.mem_of_find?_eq_some h, hx⟩

theorem active_none (h : db.active = none) : ∀ y ∈ db.cases, y.status.active = false := by
  intro y hy
  have hy' := List.find?_eq_none.mp h y hy
  simpa using hy'

theorem single_case (hI : CaseInv p seed db) {x : Case} {q : Case → Bool} {f : Case → Case}
    (hx : x ∈ db.cases) (hq : ∀ y ∈ db.cases, q y = true ↔ y = x) :
    db.cases.find? q = some x ∧ (db.cases.map fun y => if q y then f y else y) =
      db.cases.map fun y => if y.id = x.id then f y else y := by
  constructor
  · cases h : db.cases.find? q with
    | none =>
      have hqx := (hq x hx).mpr rfl
      exact absurd hqx (List.find?_eq_none.mp h x hx)
    | some y => rw [(hq y (List.mem_of_find?_eq_some h)).mp (List.find?_some h)]
  · refine List.map_congr_left fun y hy => ?_
    by_cases hid : y.id = x.id
    · rw [if_pos hid, if_pos ((hq y hy).mpr (eq_of_case_id hI hy hx hid))]
    · rw [if_neg hid, if_neg fun hqy => hid (congrArg Case.id ((hq y hy).mp hqy))]

theorem lands_updateCase (hI : CaseInv p seed db) {x : Case} {q : Case → Bool} {f : Case → Case}
    (hx : x ∈ db.cases) (hq : ∀ y ∈ db.cases, q y = true ↔ y = x) :
    Lands (updateCases q f) db False fun updated db' => updated = some (f x) ∧
      db' = { db with cases := db.cases.map fun y => if y.id = x.id then f y else y } := by
  obtain ⟨hfind, hmap⟩ := single_case (f := f) hI hx hq
  refine lands_updateCases ⟨?_, ?_⟩
  · rw [hfind]
    rfl
  · rw [hmap]

theorem lands_insertCase (hI : CaseInv p seed db) (hs : Suits p fam) {row : Case}
    (hkeys : p.Keys row.contactID row.conversationID) :
    Lands (insertCase fam.arbiter row) db False fun inserted db' => match inserted with
      | some row' => row' = row ∧ db.active = none ∧ db' = { db with cases := row' :: db.cases }
      | none => db' = db ∧ ∃ x, db.active = some x := by
  have hany : ∀ (key : Case → Option Uuid) {k : Option Uuid}, (∀ x ∈ db.cases, key x = k) →
      (db.cases.any fun c => c.status.active && decide (key c = k)) = db.active.isSome := by
    intro key k hkey
    rw [← List.isSome_find?, CaseDb.active]
    refine congrArg Option.isSome (List.find?_congr fun x hx => ?_)
    rw [decide_eq_true (hkey x hx), Bool.and_true]
  refine lands_get ?_
  rw [hany Case.contactID fun x hx => (hI.caseKeys x hx).1.trans hkeys.1.symm,
    hany Case.conversationID fun x hx => (hI.caseKeys x hx).2.trans hkeys.2.symm]
  have harb := hs.arbiter
  cases hactive : db.active with
  | none =>
    simp only [Option.isSome_none, Bool.and_false]
    cases fam.arbiter with
    | contact => exact ⟨rfl, trivial, rfl⟩
    | conversation => exact ⟨rfl, trivial, rfl⟩
  | some x =>
    simp only [Option.isSome_some, Bool.and_true]
    cases hfam : fam.arbiter with
    | contact =>
      rw [hfam] at harb
      rw [hkeys.1, show p.contact.isSome = true from harb]
      exact ⟨rfl, x, rfl⟩
    | conversation =>
      rw [hfam] at harb
      rw [hkeys.2, show p.conversation.isSome = true from harb]
      exact Lands.pure ⟨rfl, x, rfl⟩

/-- What a committed transition leaves: contacts and conversations as they were, and a move. -/
structure Moved (p : Pair) (given : Option Supply) (db db' : CaseDb) : Prop where
  contacts : db'.contacts = db.contacts
  conversations : db'.conversations = db.conversations
  move : CaseMove p given db db'

theorem lands_resolveCase (trim : String → String) (hI : CaseInv p seed db) (hs : Suits p fam)
    {supply : Supply} {input : ResolveCaseInput} :
    Lands (resolveCase trim fam supply input) db True fun _ db' =>
      Moved p none db db' ∧ db'.assignments = db.assignments := by
  refine lands_check rfl (fun _ => trivial) fun _ => ?_
  refine Lands.keep (hs.lock db) (fun _ => trivial) fun _ _ => ?_
  refine Lands.keep lands_assertActorOwns (fun _ => trivial) fun _ _ => ?_
  refine lands_get ?_
  rw [getActiveCase_eq hI hs]
  cases hactive : db.active with
  | none => exact lands_throw rfl trivial
  | some x =>
    obtain ⟨hx, hact⟩ := active_mem hactive
    have hq : ∀ y ∈ db.cases, (decide (y.id = x.id) && y.status.active) = true ↔ y = x := by
      intro y hy
      rw [Bool.and_eq_true, decide_eq_true_eq]
      exact ⟨fun h => eq_of_case_id hI hy hx h.1, fun h => h.symm ▸ ⟨rfl, hact⟩⟩
    refine lands_get (lands_check rfl (fun _ => trivial) fun _ => ?_)
    refine Lands.bind (lands_updateCase hI hx hq) False.elim ?_
    rintro _ _ ⟨rfl, rfl⟩
    refine Lands.bind (hs.sync _ _ hI.link hI.stateKeys hI.single) (fun _ => trivial) ?_
    rintro _ _ ⟨r, rfl, hkeys, hactive', hstatus⟩
    refine Lands.pure ⟨⟨rfl, rfl, ?_⟩, rfl⟩
    refine CaseMove.closed x _ hx hact ?_ rfl ⟨r, rfl, hkeys, hactive', hstatus⟩
    exact fun y => ⟨rfl, rfl, rfl, rfl, rfl, rfl⟩

theorem lands_flipCase (hI : CaseInv p seed db) (hs : Suits p fam) {actor : Uuid}
    {source target : CaseStatus} {changed missing : String} (hsource : source.active = true)
    (htarget : target.active = true) :
    Lands (flipCase fam actor source target changed missing) db True fun _ db' =>
      Moved p none db db' ∧ db'.assignments = db.assignments := by
  refine Lands.keep (hs.lock db) (fun _ => trivial) fun _ _ => ?_
  refine Lands.keep lands_assertActorOwns (fun _ => trivial) fun _ _ => ?_
  by_cases hflip : ∃ x ∈ db.cases, x.status = source
  · obtain ⟨x, hx, hstatus⟩ := hflip
    have hact : x.status.active = true := hstatus ▸ hsource
    have hq : ∀ y ∈ db.cases, (fam.owns y && decide (y.status = source)) = true ↔ y = x := by
      intro y hy
      rw [Bool.and_eq_true, decide_eq_true_eq]
      constructor
      · intro h
        exact hI.one y hy x hx (h.2 ▸ hsource) hact
      · intro h
        exact h.symm ▸ ⟨hs.owns x (hI.caseKeys x hx), hstatus⟩
    refine Lands.bind (lands_updateCase hI hx hq) False.elim ?_
    rintro _ _ ⟨rfl, rfl⟩
    refine Lands.bind (hs.sync _ _ hI.link hI.stateKeys hI.single) (fun _ => trivial) ?_
    rintro _ _ ⟨r, rfl, hkeys, hactive', hstatus'⟩
    refine Lands.pure ⟨⟨rfl, rfl, ?_⟩, rfl⟩
    exact CaseMove.flipped x target hx hact htarget rfl ⟨r, rfl, hkeys, hactive', hstatus'⟩
  · -- no row is updated
    have hq : ∀ y ∈ db.cases, (fam.owns y && decide (y.status = source)) = false := by
      intro y hy
      rw [decide_eq_false fun h => hflip ⟨y, hy, h⟩, Bool.and_false]
    refine Lands.bind (F := False) (M := fun updated db' => updated = none ∧ db = db')
      (lands_updateCases ⟨?_, ?_⟩) False.elim ?_
    · rw [List.find?_eq_none.mpr fun y hy => by rw [hq y hy]; exact Bool.false_ne_true]
      rfl
    · have hsame : (db.cases.map fun y => if fam.owns y && decide (y.status = source) then
          { y with status := target } else y) = db.cases := by
        rw [List.map_congr_left fun y hy => if_neg (by rw [hq y hy]; exact Bool.false_ne_true)]
        exact List.map_id' db.cases
      rw [hsame]
    rintro _ _ ⟨rfl, rfl⟩
    refine lands_get ?_
    cases db.getActiveCase fam.id with
    | none => exact lands_throw rfl trivial
    | some current =>
      by_cases hcurrent : current.status = target
      · show Lands (if current.status = target then pure current.id else throw _) db _ _
        rw [if_pos hcurrent]
        exact Lands.pure ⟨⟨rfl, rfl, CaseMove.idle rfl rfl⟩, rfl⟩
      · show Lands (if current.status = target then pure current.id else throw _) db _ _
        rw [if_neg hcurrent]
        exact lands_throw rfl trivial

theorem mostRecent_eq_none {cases : List Case} : mostRecent cases = none ↔ cases = [] := by
  cases cases with
  | nil => exact ⟨fun _ => rfl, fun _ => rfl⟩
  | cons c rest =>
    refine ⟨fun h => ?_, fun h => by cases h⟩
    simp only [mostRecent] at h
    split at h
    · cases h
    · split_ifs at h

structure Opens (trim : String → String) (fam : Family) (supply : Supply) (input : ManualOpenCaseInput)
    (db : CaseDb) : Prop where
  present : fam.Present db
  free : fam.Free input.openedBy db
  mode : input.expectedMode = .openFirst ↔ db.cases = []
  reason : db.cases ≠ [] → trim (input.reason.getD "") ≠ ""
  policy : supply.policy.isSome = true
  inactive : db.active = none

theorem lands_openCase (trim : String → String) (hI : CaseInv p seed db) (hs : Suits p fam) {supply : Supply}
    {input : ManualOpenCaseInput} :
    Lands (openCase trim fam supply input) db (¬ Opens trim fam supply input db) fun _ db' =>
      (Moved p (some supply) db db' ∧ db'.assignments = db.assignments) ∧ Opens trim fam supply input db := by
  refine Lands.keep (hs.lock db) (fun hno ho => hno ho.present) fun _ hpresent => ?_
  refine Lands.keep lands_assertActorOwns (fun hno ho => hno ho.free) fun _ hfree => ?_
  refine lands_get ?_
  rw [getMostRecentCase_eq hI hs]
  have hsome : (mostRecent db.cases).isSome = true ↔ db.cases ≠ [] := by
    rw [Option.isSome_iff_ne_none, ne_eq, mostRecent_eq_none]
  have hnone : (mostRecent db.cases).isNone = true ↔ db.cases = [] := by
    rw [Option.isNone_iff_eq_none, mostRecent_eq_none]
  refine lands_check rfl (fun hc ho => hsome.mp hc.2 (ho.mode.mp hc.1)) fun hfirst => ?_
  refine lands_check rfl (fun hc ho => ?_) fun hreopen => ?_
  · have hmode := ho.mode.mpr (hnone.mp hc.2)
    rw [hc.1] at hmode
    cases hmode
  refine lands_check rfl (fun hc ho => ho.reason (hsome.mp hc.1) hc.2) fun hreason => ?_
  have hmode : input.expectedMode = .openFirst ↔ db.cases = [] := by
    constructor
    · intro hm
      by_contra hne
      exact hfirst ⟨hm, hsome.mpr hne⟩
    · intro hnil
      cases hm : input.expectedMode with
      | openFirst => rfl
      | reopen => exact absurd ⟨hm, hnone.mpr hnil⟩ hreopen
  refine Lands.keep lands_getCurrentSlaPolicy (fun hno ho => hno ho.policy) fun policy hpolicy => ?_
  have hkeys := hs.keys db hI.link
  refine Lands.bind (lands_insertCase hI hs ⟨congrArg Prod.fst hkeys, congrArg Prod.snd hkeys⟩)
    False.elim ?_
  intro inserted db' hins
  cases inserted with
  | none =>
    obtain ⟨rfl, x, hx⟩ := hins
    refine lands_throw rfl fun ho => ?_
    rw [ho.inactive] at hx
    cases hx
  | some row =>
    obtain ⟨rfl, hinactive, rfl⟩ := hins
    refine Lands.bind (hs.sync _ _ hI.link hI.stateKeys hI.single) False.elim ?_
    rintro _ _ ⟨r, rfl, hrow, hactive, hstatus⟩
    refine Lands.pure ⟨⟨⟨rfl, rfl, ?_⟩, rfl⟩, hpresent, hfree, hmode, ?_, ?_, hinactive⟩
    · exact CaseMove.created _ ⟨supply, rfl, rfl, rfl⟩ (active_none hinactive)
        ⟨congrArg Prod.fst hkeys, congrArg Prod.snd hkeys⟩ rfl (Or.inl rfl) rfl
        ⟨r, rfl, hrow, hactive, hstatus⟩
    · exact fun hne htrim => hreason ⟨hsome.mpr hne, htrim⟩
    · rw [hpolicy]
      rfl

theorem lands_ensureActiveCaseWithin (trim : String → String) {c : Uuid} (hI : CaseInv p seed db)
    (hc : p.contact = some c) {supply : Supply} {isGroup : Bool} {openedBy : Uuid} {reason : String} :
    Lands (ensureActiveCaseWithin trim c supply isGroup openedBy reason) db True fun _ db' =>
      Moved p (some supply) db db' ∧ db'.assignments = db.assignments := by
  have hs := suits_contact hc
  refine Lands.keep (hs.lock db) (fun _ => trivial) fun _ _ => ?_
  refine lands_get ?_
  cases db.cases.find? fun x => decide (x.contactID = some c) && x.status.active with
  | some active => exact Lands.pure ⟨⟨rfl, rfl, CaseMove.idle rfl rfl⟩, rfl⟩
  | none => exact lands_get ((lands_openCase trim hI hs).mono (fun _ => trivial) fun _ _ h => h.1)

/-- The projection of the pair says `'resolved'`. -/
def CaseDb.saysResolved (db : CaseDb) : Bool := db.states.any fun r => decide (r.status = .resolved)

theorem isReopen_eq (hI : CaseInv p seed db) (hs : Suits p fam) :
    ((db.states.find? fam.projected).any fun r => decide (r.status = .resolved)) = db.saysResolved := by
  have hlen := hI.single
  unfold CaseDb.saysResolved
  cases hstates : db.states with
  | nil => rfl
  | cons r rest =>
    have hr : fam.projected r = true := hs.projected r (hI.stateKeys r (hstates ▸ List.mem_cons_self))
    rw [hstates] at hlen
    have hrest : rest = [] := List.length_eq_zero_iff.mp (by simpa using hlen)
    rw [List.find?_cons_of_pos hr, hrest]
    simp

def Created (db db' : CaseDb) : Prop := db'.cases.length = db.cases.length + 1

instance (db db' : CaseDb) : Decidable (Created db db') :=
  inferInstanceAs (Decidable (db'.cases.length = db.cases.length + 1))

theorem ite_created {db' : CaseDb} {q : Prop} [Decidable q] {old new : List Assignment}
    (h : Created db db') : (if Created db db' ∧ q then new else old) = if q then new else old := by
  simp only [h, true_and]

/-- The assignments with those of the family closed. -/
def Family.release (fam : Family) (now : ℕ) (assignments : List Assignment) : List Assignment :=
  assignments.map fun a => if fam.assigned a then { a with unassignedAt := some now } else a

theorem lands_unassign (hs : Suits p fam) {now : ℕ} :
    Lands (unassign fam now) db False fun _ db' =>
      db' = { db with assignments := fam.release now db.assignments } := by
  refine lands_get ?_
  cases h : fam.assignment db with
  | none =>
    refine Lands.pure ?_
    rw [hs.assigned] at h
    have hsame : fam.release now db.assignments = db.assignments := by
      unfold Family.release
      rw [List.map_congr_left fun a ha => if_neg (List.find?_eq_none.mp h a ha)]
      exact List.map_id' db.assignments
    rw [hsame]
  | some a => exact Lands.bind (M := fun _ db' => db' = _) (lands_modify rfl) False.elim fun _ _ h => Lands.pure h

theorem lands_stampMessage {messageID caseID : Uuid} :
    Lands (stampMessage messageID caseID) db False fun _ db' => ∃ messages,
      db' = { db with messages := messages } := lands_modify ⟨_, rfl⟩

theorem map_same_status {cases : List Case} {x : Case}
    (hids : ∀ y ∈ cases, y.id = x.id → y = x) :
    (cases.map fun y => if y.id = x.id then { y with status := x.status } else y) = cases := by
  have hsame : ∀ y ∈ cases, (if y.id = x.id then { y with status := x.status } else y) = y := by
    intro y hy
    split_ifs with hid
    · rw [hids y hy hid]
    · rfl
  rw [List.map_congr_left hsame]
  exact List.map_id' cases

theorem lands_openOrReopen (hI : CaseInv p seed db) (hs : Suits p fam)
    {active prior : CaseDb → Option Case} (hactive : active db = db.active)
    (hprior : prior db = mostRecent db.cases) {supply : Supply} {isGroup : Bool} {messageID : Uuid} :
    Lands (openOrReopen fam active prior supply isGroup messageID) db True fun _ db' =>
      Moved p (some supply) db db' ∧ db'.assignments =
        if Created db db' ∧ db.saysResolved = true then fam.release supply.now db.assignments
        else db.assignments := by
  refine Lands.keep (hs.lock db) (fun _ => trivial) fun _ _ => ?_
  refine lands_get (Lands.keep lands_getCurrentSlaPolicy (fun _ => trivial) fun policy _ => ?_)
  rw [isReopen_eq hI hs, hprior]
  have hkeys := hs.keys db hI.link
  refine Lands.bind (lands_insertCase hI hs ⟨congrArg Prod.fst hkeys, congrArg Prod.snd hkeys⟩)
    False.elim ?_
  intro inserted db' hins
  cases inserted with
  | some row =>
    obtain ⟨hrow, hinactive, rfl⟩ := hins
    refine lands_branch (F := False) (M := fun _ db' => db' = { db with
        cases := row :: db.cases
        assignments := if db.saysResolved = true then fam.release supply.now db.assignments
          else db.assignments }) (fun hres => ?_) (fun hres => ?_) False.elim ?_
    · rw [if_pos hres]
      exact lands_unassign hs
    · rw [if_neg hres]
      exact Lands.pure rfl
    rintro _ _ rfl
    refine Lands.bind (hs.sync _ _ hI.link hI.stateKeys hI.single) False.elim ?_
    rintro _ _ ⟨r, rfl, hkeys', hproj, hstatus⟩
    refine Lands.bind lands_stampMessage False.elim ?_
    rintro _ _ ⟨messages, rfl⟩
    subst hrow
    refine Lands.pure ⟨⟨rfl, rfl, ?_⟩, ?_⟩
    · refine CaseMove.created _ ⟨supply, rfl, rfl, rfl⟩ (active_none hinactive)
        ⟨congrArg Prod.fst hkeys, congrArg Prod.snd hkeys⟩ rfl ?_ rfl ⟨r, rfl, hkeys', hproj, hstatus⟩
      by_cases hres : db.saysResolved = true
      · left
        rw [if_pos hres]
        rfl
      · right
        rw [if_neg hres]
        refine ⟨rfl, fun r hr hsays => hres ?_⟩
        exact List.any_eq_true.mpr ⟨r, hr, decide_eq_true hsays⟩
    · symm
      apply ite_created
      exact List.length_cons
  | none =>
    obtain ⟨rfl, x, hx⟩ := hins
    obtain ⟨hmem, hact⟩ := active_mem hx
    refine lands_get ?_
    rw [hactive, hx]
    refine lands_branch (F := False) (M := fun updated db'' =>
        (updated = some { x with status := .opened } ∧ db'' = { db' with cases := db'.cases.map fun y =>
          if y.id = x.id then { y with status := .opened } else y }) ∨ (updated = none ∧ db'' = db'))
      (fun hpending => ?_) (fun _ => Lands.pure (Or.inr ⟨rfl, rfl⟩)) False.elim ?_
    · refine (lands_updateCase hI hmem fun y hy => ?_).mono id fun _ _ h => Or.inl h
      rw [Bool.and_eq_true, decide_eq_true_eq, decide_eq_true_eq]
      exact ⟨fun h => eq_of_case_id hI hy hmem h.1, fun h => h.symm ▸ ⟨rfl, hpending⟩⟩
    rintro _ _ (⟨rfl, rfl⟩ | ⟨rfl, rfl⟩)
    · refine Lands.bind (hs.sync _ _ hI.link hI.stateKeys hI.single) False.elim ?_
      rintro _ _ ⟨r, rfl, hkeys', hproj, hstatus⟩
      refine Lands.bind lands_stampMessage False.elim ?_
      rintro _ _ ⟨messages, rfl⟩
      refine Lands.pure ⟨⟨rfl, rfl, ?_⟩, ?_⟩
      · exact CaseMove.flipped x .opened hmem hact rfl rfl ⟨r, rfl, hkeys', hproj, hstatus⟩
      · exact (if_neg fun h => by simp [Created] at h).symm
    · -- the projection is written again, with the status the case has
      refine Lands.bind (hs.sync _ _ hI.link hI.stateKeys hI.single) False.elim ?_
      rintro _ _ ⟨r, rfl, hkeys', hproj, hstatus⟩
      refine Lands.bind lands_stampMessage False.elim ?_
      rintro _ _ ⟨messages, rfl⟩
      refine Lands.pure ⟨⟨rfl, rfl, ?_⟩, ?_⟩
      · exact CaseMove.flipped x x.status hmem hact hact
          (map_same_status fun y hy hid => eq_of_case_id hI hy hmem hid).symm
          ⟨r, rfl, hkeys', hproj, hstatus⟩
      · exact (if_neg fun h => by simp [Created] at h).symm

end Bodies

/-! ### Runs -/

section Runs

variable {p : Pair} {seed : List StateRow} {db : CaseDb} (trim : String → String) {a : CaseAction}

theorem transact_of_lands {α : Type} {m : CaseM α} {E : Prop} {Q : α → CaseDb → Prop}
    (h : Lands m db E Q) : (∃ x, (transact m db).1 = .ok () ∧ Q x (transact m db).2) ∨
      (∃ e, (transact m db).1 = .error e ∧ e.rejected = false ∧ E ∧ (transact m db).2 = db) := by
  unfold Lands Ensures at h
  unfold transact
  rcases hr : m.run db with ⟨r, db'⟩
  rw [hr] at h
  cases r with
  | ok x => exact Or.inl ⟨x, rfl, h⟩
  | error e => exact Or.inr ⟨e, rfl, h.1, h.2, rfl⟩

structure Performed (p : Pair) (given : Option Supply) (db : CaseDb) (r : Except CaseError Unit × CaseDb) :
    Prop where
  moved : Moved p given db r.2
  unrejected : ∀ e, r.1 = .error e → e.rejected = false

theorem performed_of_lands {α : Type} {m : CaseM α} {E : Prop} {given : Option Supply} {A : CaseDb → Prop}
    (h : Lands m db E fun _ db' => Moved p given db db' ∧ A db') : Performed p given db (transact m db) := by
  rcases transact_of_lands h with ⟨x, hok, hmoved, -⟩ | ⟨e, herr, hrej, -, hsame⟩
  · refine ⟨hmoved, fun e he => ?_⟩
    rw [hok] at he
    cases he
  · refine ⟨?_, fun e' he => ?_⟩
    · rw [hsame]
      exact ⟨rfl, rfl, CaseMove.idle rfl rfl⟩
    · rw [herr] at he
      cases he
      exact hrej

theorem performed (hI : CaseInv p seed db) (hkeys : CarriesKeys p a) :
    Performed p a.supply? db (perform trim a db) := by
  cases a with
  | inboundMessage c supply isGroup m =>
    have hs := suits_contact hkeys
    exact performed_of_lands (lands_openOrReopen hI hs (getActiveCase_eq hI hs) (getMostRecentCase_eq hI hs))
  | resolve c supply input => exact performed_of_lands (lands_resolveCase trim hI (suits_contact hkeys))
  | setPending c actor => exact performed_of_lands (lands_flipCase hI (suits_contact hkeys) rfl rfl)
  | resume c actor => exact performed_of_lands (lands_flipCase hI (suits_contact hkeys) rfl rfl)
  | openCase c supply input =>
    exact performed_of_lands ((lands_openCase trim hI (suits_contact hkeys)).mono id fun _ _ h => h.1)
  | ensureActive c supply isGroup openedBy reason =>
    exact performed_of_lands (lands_ensureActiveCaseWithin trim hI hkeys)
  | inboundConversation v c supply isGroup m =>
    obtain ⟨hv, rfl⟩ := hkeys
    have howned : ∀ x ∈ db.cases, decide (x.conversationID = some v) = true := fun x hx =>
      decide_eq_true ((hI.caseKeys x hx).2.trans hv)
    refine performed_of_lands (lands_openOrReopen hI (suits_conversation hv) (find_congr_active howned) ?_)
    rw [List.filter_eq_self.mpr howned]
  | resolveConversation v supply input =>
    have hs := suits_conversation hkeys.1
    rw [hkeys.2] at hs
    exact performed_of_lands (lands_resolveCase trim hI hs)
  | setPendingConversation v actor =>
    have hs := suits_conversation hkeys.1
    rw [hkeys.2] at hs
    exact performed_of_lands (lands_flipCase hI hs rfl rfl)
  | resumeConversation v actor =>
    have hs := suits_conversation hkeys.1
    rw [hkeys.2] at hs
    exact performed_of_lands (lands_flipCase hI hs rfl rfl)
  | reopenConversation v supply input =>
    have hs := suits_conversation hkeys.1
    rw [hkeys.2] at hs
    exact performed_of_lands ((lands_openCase trim hI hs).mono id fun _ _ h => h.1)
  | elsewhere messages assignments =>
    exact ⟨⟨rfl, rfl, CaseMove.idle rfl rfl⟩, fun e he => by cases he⟩

theorem CaseInv.step {db' : CaseDb} (hI : CaseInv p seed db) (hkeys : CarriesKeys p a)
    (hstep : caseStep trim db a = some db') : CaseInv p seed db' := by
  unfold caseStep at hstep
  split_ifs at hstep with hnew
  cases hstep
  have hperf := performed trim hI hkeys
  exact hI.move hperf.moved.conversations hperf.moved.move hnew

theorem Unopened.inv (h : Unopened p db) : CaseInv p db.states db where
  link := h.link
  caseKeys x hx := by
    rw [h.noCase] at hx
    cases hx
  ids := by
    rw [h.noCase]
    exact List.nodup_nil
  one x hx := by
    rw [h.noCase] at hx
    cases hx
  stateKeys := h.keys
  single := h.single
  fresh _ := rfl
  follows x hx := by
    rw [h.noCase] at hx
    cases hx
  settled hne := absurd h.noCase hne

theorem CaseInv.faithful (hI : CaseInv p seed db)
    (hseed : ∀ r ∈ seed, r.activeCaseID = none ∧ r.status = .resolved) : Faithful p db where
  oneActive x hx y hy _ _ hxa hya := hI.one x hx y hy hxa hya
  oneRow r hr _ := le_antisymm hI.single (List.length_pos_of_mem hr)
  found r hr _ := hI.stateKeys r hr
  active x hx howns hact := by
    obtain ⟨r, hr, hkeys, hactive, hstatus⟩ := hI.follows x hx hact
    refine ⟨r, hr ▸ List.mem_singleton_self r, ?_, hactive, hstatus⟩
    rw [hkeys.1, hkeys.2]
    rw [(hI.caseKeys x hx).1, (hI.caseKeys x hx).2] at howns
    exact howns
  settled hres r hr howns := by
    have hall : ∀ x ∈ db.cases, x.status.active = false := by
      intro x hx
      have hx' : p.Owns x.contactID x.conversationID := by
        rw [(hI.caseKeys x hx).1, (hI.caseKeys x hx).2]
        rw [(hI.stateKeys r hr).1, (hI.stateKeys r hr).2] at howns
        exact howns
      rw [hres x hx hx']
      rfl
    by_cases hnil : db.cases = []
    · exact hseed r (hI.fresh hnil ▸ hr)
    · obtain ⟨r', hr', -, hactive, hstatus⟩ := hI.settled hnil hall
      rw [hr', List.mem_singleton] at hr
      rw [hr]
      exact ⟨hactive, hstatus⟩

/-- **One active case and a faithful projection.**  In every run whose transitions carry the keys of the
pair. -/
theorem projection_faithful (trim : String → String) (p : Pair) (db : CaseDb) (as : List CaseAction)
    (hstart : Fresh p db) (hkeys : Meets (caseStep trim) (fun _ a => CarriesKeys p a) db as) :
    Always (caseStep trim) (fun db => Faithful p db ∧ Unrejected trim (CarriesKeys p) db) db as := by
  have hinv : Always (caseStep trim) (CaseInv p db.states) db as :=
    always_of_meets (fun _ _ _ hI hC hstep => hI.step trim hC hstep) hstart.inv hkeys
  refine hinv.mono fun db' hI => ⟨?_, ?_⟩
  · exact hI.faithful hstart.seeded
  · exact fun a ha e he => (performed trim hI ha).unrejected e he

end Runs

/-! ### A run -/

def examplePair : Pair := ⟨some "c", some "v"⟩

def exampleDb : CaseDb := ⟨["c"], [⟨"v", some "c", none⟩], [], [], [], []⟩

def exampleSupply (caseID : Uuid) (t : ℕ) : Supply := ⟨t, t, caseID, some ⟨"p", 60, 480, 120, 960⟩⟩

/-- Two inbound messages, one through each family, then pending, resolved and reopened by hand. -/
def exampleCycle : List CaseAction :=
  [.inboundMessage "c" (exampleSupply "k1" 1) false "m1",
    .inboundConversation "v" (some "c") (exampleSupply "k2" 2) false "m2",
    .setPending "c" "u", .resolve "c" (exampleSupply "-" 3) ⟨.noReplyNeeded, none, "u"⟩,
    .openCase "c" (exampleSupply "k3" 4) ⟨false, "u", some "again", .reopen⟩]

theorem example_fresh : Fresh examplePair exampleDb where
  link c hc := by
    cases hc
    rfl
  noCase := rfl
  single := by decide
  keys r hr := by cases hr
  seeded r hr := by cases hr

theorem projection_faithful_cycle :
    Always (caseStep id) (fun db => Faithful examplePair db ∧ Unrejected id (CarriesKeys examplePair) db)
      exampleDb exampleCycle := by
  refine projection_faithful id examplePair exampleDb exampleCycle example_fresh ?_
  intro db₁ _
  refine ⟨rfl, fun db₂ _ => ⟨⟨rfl, rfl⟩, fun db₃ _ => ⟨rfl, fun db₄ _ => ⟨rfl, fun db₅ _ => ⟨rfl, trivial⟩⟩⟩⟩⟩

/-- A manual open through the conversation on a pair with a contact: the projection is not found by the
contact, and the next inbound message of the contact fails on the index of the conversation. -/
theorem conversation_open_loses_contact :
    Fresh examplePair exampleDb ∧
      OnPair examplePair (.reopenConversation "v" (exampleSupply "k1" 1) ⟨false, "u", none, .openFirst⟩) ∧
      ¬ Always (caseStep id) (fun db => Faithful examplePair db ∧ Unrejected id (OnPair examplePair) db)
        exampleDb [.reopenConversation "v" (exampleSupply "k1" 1) ⟨false, "u", none, .openFirst⟩] ∧
      (perform id (.inboundMessage "c" (exampleSupply "k2" 2) false "m1") (perform id (.reopenConversation
        "v" (exampleSupply "k1" 1) ⟨false, "u", none, .openFirst⟩) exampleDb).2).1 =
          .error (.constraint "conversation_cases (conversation_id)") := by
  refine ⟨example_fresh, rfl, fun h => ?_, rfl⟩
  have hend := always_iff_reached.mp h _ [] _ (List.append_nil _).symm rfl
  have hfound := hend.1.found _ List.mem_cons_self (Or.inr ⟨rfl, rfl⟩)
  cases hfound.1

end TeamInbox.Cases
