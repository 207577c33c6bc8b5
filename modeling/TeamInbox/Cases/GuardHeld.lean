import TeamInbox.Cases.GuardSteps

/-!
# TeamInbox.Cases.GuardHeld — what the send guard has checked holds at the commit

A send commits while its contact is not blocked, nobody else is assigned and its case is active; a manual transition
while nobody else is assigned; and after a send that claims the thread nobody else sends before the assignment
changes.  That is so for every interleaving as long as no transition or assignment of the conversation family starts on
a conversation that is linked, and no assignment of another user is filed under the contact after a request has looked
for one.
-/

namespace TeamInbox.Cases

open TeamInbox.Lib

variable {α : Type} {p q : ℕ} {s s' : Guarded} {k : ThreadKey} {r : GuardRequest} {user : ℕ}

def HeldBy (s : Guarded) (k : ThreadKey) (user : ℕ) : Prop :=
  ∀ r ∈ s.assignments, ∀ x, r.committed = some x → x.value.current = true → InThread s k x → x.value.assignedTo = user

/-- The sends into the thread since its assignment was last changed. -/
def Guarded.threadSends (s : Guarded) (k : ThreadKey) : List (ℕ × Bool) :=
  if s.linked then s.sends .contact ++ s.sends .conversation else s.sends k

/-- What holds when a send commits; `counted` are the earlier sends that must be the user's own. -/
structure SendSafe (counted : ℕ × Bool → Bool) (k : ThreadKey) (user i : ℕ) (s s' : Guarded) : Prop where
  unblocked : k = .contact ∨ s'.linked = true → s'.contact.committed = some false
  held : HeldBy s' k user
  active : ∃ r x, s'.cases[i]? = some r ∧ r.committed = some x ∧ x.value.active = true
  alone : ∀ e ∈ s.threadSends k, counted e = true → e.1 = user

def RequestSafe (counted : ℕ × Bool → Bool) (s s' : Guarded) : GuardStage → Prop
  | .written (.send k user _) i => ∃ j, i = some j ∧ SendSafe counted k user j s s'
  | .written (.transition k actor _) _ => HeldBy s' k actor
  | _ => True

def CommitSafe (counted : ℕ × Bool → Bool) (t : Calls Guarded GuardStage) (a : CallAction GuardAction Empty)
    (t' : Calls Guarded GuardStage) : Prop :=
  ∀ p, a = .act p .commit → RequestSafe counted t.shared t'.shared (t.calls p)

/-- Who comes to hold the contact when `p` commits the row. -/
def movedTo (p : ℕ) (row : Versioned (Filed Holder)) : Option ℕ :=
  match row.committed, row.pending with
  | some y, some (q, x) =>
    if q = p ∧ y.orphaned = true ∧ isCurrent .contact x = true then some x.value.assignedTo else none
  | _, _ => none

/-- No transition or assignment of the conversation family starts on a linked conversation, and no assignment of
another comes to the contact under a request that has looked for one. -/
def Orderly (t : Calls Guarded GuardStage) : CallAction GuardAction Empty → Prop
  | .act _ (.start r) => r.byConversation = true → t.shared.linked = false
  | .act p .commit => ∀ l ∈ t.shared.locks.held, l.1 = .contact → ∀ user ∈ (t.calls l.2).unprotected,
      ∀ row ∈ t.shared.assignments, ∀ holder ∈ movedTo p row, holder = user
  | _ => True

structure Settled (s : Guarded) : Prop where
  contact : s.contact.pending = none
  conversation : s.conversation.pending = none
  assignments : ∀ r ∈ s.assignments, r.pending = none
  cases : ∀ r ∈ s.cases, r.pending = none
  unlocked : s.locks.held = []
  holders : ∀ k, s.assignments.Admits (isCurrent k)
  filed : ∀ r ∈ s.assignments, ∀ x, r.committed = some x →
    (x.ofContact = true → x.ofConversation = true → s.linked = true) ∧ (s.linked = true → x.orphaned = false)
  filedCases : ∀ r ∈ s.cases, ∀ x, r.committed = some x →
    (x.ofContact = true → x.ofConversation = true → s.linked = true) ∧ (s.linked = true → x.orphaned = false)
  sends : ∀ k, s.sends k = []

/-! ### The end of a transaction -/

theorem linkedFor_commit (hs : GuardInv s) (h : s.linkedFor q = true) : (s.commit p).linkedFor q = true := by
  show ((s.conversation.commit p).seenBy q).any _ = true
  rcases Versioned.pending_cases p s.conversation with ⟨x, hx⟩ | hne
  · rw [Versioned.commit_of_pending hx]
    exact (hs.conversation p x hx).2
  · rw [Versioned.commit_of_ne hne]
    exact h

theorem linkedFor_rollback (hq : q ≠ p) : (s.rollback p).linkedFor q = s.linkedFor q :=
  congrArg (Option.any _) (Versioned.seenBy_rollback hq)

theorem cellBy_commit {β : Type} {v : Versioned β} {mayWrite : Prop} (h : ∀ x, v.pending = some (p, x) → mayWrite) :
    CellBy mayWrite p v (v.commit p) := by
  rcases Versioned.pending_cases p v with ⟨x, hx⟩ | hne
  · refine .inr ⟨h x hx, fun q y hy => ?_⟩
    rw [Versioned.commit_of_pending hx] at hy
    cases hy
  · exact .inl (Versioned.commit_of_ne hne)

theorem cellBy_rollback {β : Type} {v : Versioned β} {mayWrite : Prop} (h : ∀ x, v.pending = some (p, x) → mayWrite) :
    CellBy mayWrite p v (v.rollback p) := by
  rcases Versioned.pending_cases p v with ⟨x, hx⟩ | hne
  · refine .inr ⟨h x hx, fun q y hy => ?_⟩
    rw [Versioned.rollback_of_pending hx] at hy
    cases hy
  · exact .inl (Versioned.rollback_of_ne hne)

theorem unwritten_commit {t : Rows (Filed α)} : Unwritten p (t.commit p) := by
  intro i row x hrow hx
  rw [Rows.commit_row] at hrow
  obtain ⟨row', -, rfl⟩ := Option.map_eq_some_iff.mp hrow
  exact Versioned.commit_ended hx

theorem unwritten_rollback {t : Rows (Filed α)} : Unwritten p (t.rollback p) := by
  intro i row x hrow hx
  rw [Rows.rollback_row] at hrow
  obtain ⟨row', -, rfl⟩ := Option.map_eq_some_iff.mp hrow
  exact Versioned.rollback_ended hx

theorem allClean_commit : AllClean (s.commit p) p :=
  ⟨⟨fun _ => Versioned.commit_ended, fun _ => Versioned.commit_ended⟩, unwritten_commit, unwritten_commit⟩

theorem allClean_rollback : AllClean (s.rollback p) p :=
  ⟨⟨fun _ => Versioned.rollback_ended, fun _ => Versioned.rollback_ended⟩, unwritten_rollback, unwritten_rollback⟩

theorem guards_commit (hs : GuardInv s) : Guards True p s (s.commit p) where
  locks _ _ hq hown := (Locks.owns_release hq).mpr hown
  contact := cellBy_commit fun x hx => hs.contact p x hx
  conversation := cellBy_commit fun x hx => (hs.conversation p x hx).1
  linked hl := linked_commit.trans (hs.linkedFor hl)
  assignments := rowsBy_commit hs.assignments
  cases := rowsBy_commit hs.cases

theorem guards_rollback (hs : GuardInv s) : Guards False p s (s.rollback p) where
  locks _ _ hq hown := (Locks.owns_release hq).mpr hown
  contact := cellBy_rollback fun x hx => hs.contact p x hx
  conversation := cellBy_rollback fun x hx => (hs.conversation p x hx).1
  linked hl := linked_rollback.trans hl
  assignments := rowsBy_rollback hs.assignments
  cases := rowsBy_rollback hs.cases

theorem rollback_ok (hs : GuardInv s) : StatementOk p s (s.rollback p) .idle := by
  refine ⟨⟨fun q x hx => ?_, fun q x hx => ?_, rowsOk_rollback hs.assignments fun _ hq hl => ?_,
    rowsOk_rollback hs.cases fun _ hq hl => ?_, fun k => (hs.holders k).rollback p, fun k e he hclaim => ?_⟩,
    allClean_rollback, guards_rollback hs⟩
  · obtain ⟨hq, heq⟩ := Versioned.pending_rollback hx
    have hx : (s.contact.rollback p).pending = some (q, x) := hx
    show _ ∨ (s.contact.rollback p).committed = none
    rw [heq] at hx ⊢
    exact (hs.contact q x hx).imp_left (Locks.owns_release hq).mpr
  · obtain ⟨hq, heq⟩ := Versioned.pending_rollback hx
    have hx : (s.conversation.rollback p).pending = some (q, x) := hx
    rw [heq] at hx
    exact (hs.conversation q x hx).imp_left (Locks.owns_release hq).mpr
  · exact (linkedFor_rollback hq).trans hl
  · exact (linkedFor_rollback hq).trans hl
  · obtain ⟨i, row, x, hrow, hx, hcurrent, huser, hin⟩ := hs.sends k e he hclaim
    obtain ⟨row', hrow', hx'⟩ := committed_keep (rowsBy_rollback (p := p) hs.assignments) hrow hx
    exact ⟨i, row', x, hrow', hx', hcurrent, huser, hin.imp_right fun h => ⟨linked_rollback.trans h.1, h.2⟩⟩

/-! ### What a transaction commits -/

theorem committed_commit {t : Rows (Filed α)} {i : ℕ} {row : Versioned (Filed α)} {x : Filed α}
    (hrow : (t.commit p)[i]? = some row) (hx : row.committed = some x) : Sees p t i x := by
  rw [Rows.commit_row] at hrow
  obtain ⟨row', hrow', rfl⟩ := Option.map_eq_some_iff.mp hrow
  exact ⟨row', hrow', Versioned.committed_commit.symm.trans hx⟩

theorem Sees.commit {t : Rows (Filed α)} {i : ℕ} {x : Filed α} (h : Sees p t i x) :
    ∃ row, (t.commit p)[i]? = some row ∧ row.committed = some x := by
  obtain ⟨row, hrow, hx⟩ := h
  exact ⟨row.commit p, by rw [Rows.commit_row, hrow]; rfl, Versioned.committed_commit.trans hx⟩

theorem GuardInv.filed {t : Rows (Filed α)} {i : ℕ} {x : Filed α} (hok : RowsOk s t) (hl : s.linked = true)
    (hx : Sees p t i x) : x.orphaned = false := by
  obtain ⟨row, hrow, hx⟩ := hx
  exact (hok i row hrow).filed hl x ((seen_cases hx).symm.imp_right fun hp => ⟨p, hp⟩)

theorem ofContact_of_filed {x : Filed α} (h : x.orphaned = false) (hk : x.ofContact = true ∨ x.ofConversation = true) :
    x.ofContact = true := by
  rcases hk with hc | hv
  · exact hc
  · simpa [Filed.orphaned, hv] using h

theorem RequestHeld.key_of_linked (h : RequestHeld s p r) (hl : s.linked = true) : r.key = .contact := by
  cases hk : r.key with
  | contact => rfl
  | conversation =>
    rw [h.unlinked hk] at hl
    cases hl

theorem RequestHeld.keyed (h : RequestHeld s p r) {t : Rows (Filed α)} {i : ℕ} {x : Filed α} (hok : RowsOk s t)
    (hx : Sees p t i x) (hin : InThread s r.key x) : x.keyed r.key = true := by
  rcases hin with hk | ⟨hl, hk⟩
  · exact hk
  · rw [h.key_of_linked hl]
    exact ofContact_of_filed (GuardInv.filed hok hl hx) hk

theorem RequestHeld.inThread_commit (h : RequestHeld s p r) {x : Filed α} :
    InThread (s.commit p) k x ↔ InThread s k x := by
  unfold InThread
  rw [linked_commit, h.linkedFor]

theorem Cleared.heldBy (h : Cleared s p r.key user) (hheld : RequestHeld s p r) (hs : GuardInv s) :
    HeldBy (s.commit p) r.key user := by
  intro row hrow x hx hcurrent hin
  obtain ⟨i, hi⟩ := List.mem_iff_getElem?.mp hrow
  have hsees : Sees p s.assignments i x := committed_commit hi hx
  have hkeyed := hheld.keyed hs.assignments hsees (hheld.inThread_commit.mp hin)
  exact h i x hsees (Bool.and_eq_true_iff.mpr ⟨hkeyed, hcurrent⟩)

theorem sent_cases (hs : GuardInv s) {e : ℕ × Bool} (he : e ∈ s.sends k) (hclaim : e.2 = true) :
    ∃ (i : ℕ) (row : Versioned (Filed Holder)) (x : Filed Holder), s.assignments[i]? = some row ∧
      row.committed = some x ∧ x.value.current = true ∧ x.value.assignedTo = e.1 ∧ InThread s k x ∧
        (Sees p s.assignments i x ∨ ∃ z, row.pending = some (p, z)) := by
  obtain ⟨i, row, x, hrow, hx, hcurrent, huser, hin⟩ := hs.sends k e he hclaim
  refine ⟨i, row, x, hrow, hx, hcurrent, huser, hin, ?_⟩
  rcases Versioned.pending_cases p row with hz | hne
  · exact .inr hz
  · exact .inl ⟨row, hrow, (Versioned.seenBy_of_ne hne).trans hx⟩

theorem send_safe {claim : Bool} {i : Option ℕ} (hs : GuardInv s)
    (hx : StageOk s p (.written (.send k user claim) i)) :
    ∃ j, i = some j ∧ SendSafe Prod.snd k user j s (s.commit p) := by
  obtain ⟨hheld, ⟨hcleared, -⟩, j, hj, x, hx, hactive⟩ := hx
  refine ⟨j, hj, fun hk => ?_, Cleared.heldBy (r := .send k user claim) hcleared hheld hs, ?_, fun e he hclaim => ?_⟩
  · have hk : k = .contact := by
      rcases hk with hk | hl
      · exact hk
      · rw [linked_commit, hheld.linkedFor] at hl
        exact hheld.key_of_linked hl
    subst hk
    show (s.contact.commit p).committed = _
    rw [Versioned.commit_of_ne hheld.clean.contact, hheld.unblocked user claim rfl]
  · obtain ⟨row, hrow, hcommitted⟩ := hx.commit
    exact ⟨row, x, hrow, hcommitted, (Bool.and_eq_true_iff.mp hactive).2⟩
  · -- the earlier send holds an assignment of this thread
    obtain ⟨k', he', hk'⟩ : ∃ k', e ∈ s.sends k' ∧ (s.linked = true ∨ k' = k) := by
      unfold Guarded.threadSends at he
      split_ifs at he with hl
      · rcases List.mem_append.mp he with hc | hv
        · exact ⟨.contact, hc, .inl hl⟩
        · exact ⟨.conversation, hv, .inl hl⟩
      · exact ⟨k, he, .inr rfl⟩
    obtain ⟨n, row, x, hrow, hx, hcurrent, huser, hin, hwho⟩ := sent_cases (p := p) hs he' hclaim
    rw [← huser]
    rcases hwho with hsees | ⟨z, hz⟩
    · have hin : InThread s k x := by
        rcases hk' with hl | rfl
        · refine .inr ⟨hl, ?_⟩
          rcases hin with hk | ⟨-, hk⟩
          · cases k' with
            | contact => exact .inl hk
            | conversation => exact .inr hk
          · exact hk
        · exact hin
      have hkeyed := hheld.keyed hs.assignments hsees hin
      exact hcleared n x hsees (Bool.and_eq_true_iff.mpr ⟨hkeyed, hcurrent⟩)
    · exact (hheld.wrote n row z x hrow hz hx).2.2

/-! ### The commit -/

theorem sent_commit (hs : GuardInv s) {e : ℕ × Bool} (he : e ∈ s.sends k) (hclaim : e.2 = true) :
    Sent (s.commit p) k e.1 ∨ ∃ (i : ℕ) (row : Versioned (Filed Holder)) (x z : Filed Holder),
      s.assignments[i]? = some row ∧ row.committed = some x ∧ row.pending = some (p, z) ∧ x.value.current = true ∧
        x.value.assignedTo = e.1 ∧ InThread s k x := by
  obtain ⟨i, row, x, hrow, hx, hcurrent, huser, hin, hsees | ⟨z, hz⟩⟩ := sent_cases (p := p) hs he hclaim
  · obtain ⟨row', hrow', hx'⟩ := hsees.commit
    exact .inl ⟨i, row', x, hrow', hx', hcurrent, huser,
      hin.imp_right fun h => ⟨linked_commit.trans (hs.linkedFor h.1), h.2⟩⟩
  · exact .inr ⟨i, row, x, z, hrow, hx, hz, hcurrent, huser, hin⟩

theorem linked_of_keys (hs : GuardInv s) {i : ℕ} {row : Versioned (Filed Holder)} {x : Filed Holder} {k' : ThreadKey}
    (hrow : s.assignments[i]? = some row) (hx : row.committed = some x) (hk : x.keyed k = true)
    (hk' : x.keyed k' = true) (hne : k ≠ k') : s.linked = true := by
  have hboth := (hs.assignments i row hrow).both x hx
  cases k <;> cases k'
  · exact absurd rfl hne
  · exact hboth hk hk'
  · exact hboth hk' hk
  · exact absurd rfl hne

theorem inThread_of_keyed {x : Filed α} {k' : ThreadKey} (hk : x.keyed k = true) (hl : k' = k ∨ s.linked = true) :
    InThread s k' x := by
  rcases hl with rfl | hl
  · exact .inl hk
  · refine .inr ⟨hl, ?_⟩
    cases k with
    | contact => exact .inl hk
    | conversation => exact .inr hk

theorem sent_claimed {k' : ThreadKey} (h : Claimed s p k user) (hl : k' = k ∨ (s.commit p).linked = true) :
    Sent (s.commit p) k' user := by
  obtain ⟨i, x, hx, hcurrent, huser⟩ := h
  obtain ⟨row, hrow, hcommitted⟩ := hx.commit
  exact ⟨i, row, x, hrow, hcommitted, (Bool.and_eq_true_iff.mp hcurrent).2, huser,
    inThread_of_keyed (keyed_of_isCurrent hcurrent) hl⟩

/-- **Who has sent and claimed holds the thread** until the assignment changes. -/
theorem sends_commit {i : Option ℕ} (hs : GuardInv s) (hx : StageOk s p (.written r i)) :
    ∀ k, ∀ e ∈ (r.record (s.commit p)).sends k, e.2 = true → Sent (s.commit p) k e.1 := by
  intro k' e he hclaim
  cases r with
  | send k user claim =>
    obtain ⟨hheld, ⟨-, hclaimed⟩, -⟩ := hx
    have hold : e ∈ s.sends k' → Sent (s.commit p) k' e.1 := by
      intro he
      rcases sent_commit (p := p) hs he hclaim with hsent | ⟨i, row, x, z, hrow, hx, hz, -, huser, hin⟩
      · exact hsent
      · -- the send has closed this assignment itself, and has another
        obtain ⟨hc, hk, hu⟩ := hheld.wrote i row z x hrow hz hx
        rw [← huser, hu]
        refine sent_claimed (hclaimed hc) ?_
        by_cases hne : k' = k
        · exact .inl hne
        · refine .inr (linked_commit.trans (hs.linkedFor ?_))
          rcases hin with hk' | ⟨hl, -⟩
          · exact linked_of_keys hs hrow hx hk' hk hne
          · exact hl
    have he : e ∈ Function.update s.sends k ((user, claim) :: s.sends k) k' := he
    by_cases hk : k' = k
    · subst hk
      rw [Function.update_self] at he
      rcases List.mem_cons.mp he with rfl | he
      · exact sent_claimed (hclaimed hclaim) (.inl rfl)
      · exact hold he
    · rw [Function.update_of_ne hk] at he
      exact hold he
  | transition k actor kind =>
    rcases sent_commit (p := p) hs he hclaim with hsent | ⟨i, row, x, z, hrow, hx', hz, -⟩
    · exact hsent
    · exact (hx.1.wrote i row z x hrow hz hx').elim
  | block b =>
    rcases sent_commit (p := p) hs he hclaim with hsent | ⟨i, row, x, z, hrow, hx', hz, -⟩
    · exact hsent
    · exact (hx.2.2 i row z x hrow hz hx').elim
  | attach =>
    rcases sent_commit (p := p) hs he hclaim with hsent | ⟨i, row, x, z, hrow, hx', hz, hcurrent, huser, hin⟩
    · exact hsent
    · obtain rfl := hx.2.1 i row z x hrow hz hx'
      refine ⟨i, row.commit p, x.adopt, by rw [Guarded.commit, Rows.commit_row, hrow]; rfl, ?_, hcurrent, huser, ?_⟩
      · rw [Versioned.commit_of_pending hz]
      · rcases hin with hk | ⟨hl, -⟩
        · refine .inl ?_
          cases k' with
          | contact => rfl
          | conversation => exact hk
        · exact .inr ⟨linked_commit.trans (hs.linkedFor hl), .inl rfl⟩
  | assign k user | unassign k =>
    have he : e ∈ if k' = k ∨ (s.commit p).linked = true then [] else s.sends k' := he
    split_ifs at he with hreset
    · cases he
    · obtain ⟨hne, hl⟩ := not_or.mp hreset
      rcases sent_commit (p := p) hs he hclaim with hsent | ⟨i, row, x, z, hrow, hx', hz, -, -, hin⟩
      · exact hsent
      · have hk : x.keyed k = true := hx.1.wrote i row z x hrow hz hx'
        refine absurd (linked_commit.trans (hs.linkedFor ?_)) hl
        rcases hin with hk' | ⟨hl, -⟩
        · exact linked_of_keys hs hrow hx' hk' hk hne
        · exact hl

theorem WrittenOk.newlyFiled {i : Option ℕ} (h : StageOk s p (.written r i)) (hl : s.linkedFor p = true) :
    s.linked = true ∨ s.locks.Owns p .conversation ∧ AllFiled p s.assignments ∧ AllFiled p s.cases := by
  cases r with
  | attach => exact .inr ⟨h.1, h.2.2 hl⟩
  | block b => exact .inl ((congrArg (Option.any _) (Versioned.seenBy_of_ne h.2.1)).symm.trans hl)
  | send | transition | assign | unassign => exact .inl (h.1.linkedFor.symm.trans hl)

structure CommitOk (p : ℕ) (s s' : Guarded) : Prop where
  inv : GuardInv s'
  clean : AllClean s' p
  guards : Guards True p s s'

theorem commit_ok {i : Option ℕ} (hs : GuardInv s) (hx : StageOk s p (.written r i)) :
    CommitOk p s (r.record (s.commit p)) := by
  have hsends := sends_commit hs hx
  have hnew := fun hl => WrittenOk.newlyFiled hx hl
  have hg := guards_commit (p := p) hs
  have hassignments := rowsOk_commit hs.assignments hs.linkedFor (fun q _ hl => linkedFor_commit (q := q) hs hl) fun hl =>
    (hnew hl).imp_right fun h => ⟨h.1, h.2.1⟩
  have hcases := rowsOk_commit hs.cases hs.linkedFor (fun q _ hl => linkedFor_commit (q := q) hs hl) fun hl =>
    (hnew hl).imp_right fun h => ⟨h.1, h.2.2⟩
  have hcontact : ∀ q x, (s.contact.commit p).pending = some (q, x) →
      (s.commit p).locks.Owns q .contact ∨ (s.contact.commit p).committed = none := by
    intro q x hx
    obtain ⟨hq, heq⟩ := Versioned.pending_commit hx
    rw [heq] at hx ⊢
    exact (hs.contact q x hx).imp_left (Locks.owns_release hq).mpr
  have hconversation : ∀ q x, (s.conversation.commit p).pending = some (q, x) →
      (s.commit p).locks.Owns q .conversation ∧ x.linked = true := by
    intro q x hx
    obtain ⟨hq, heq⟩ := Versioned.pending_commit hx
    rw [heq] at hx
    exact (hs.conversation q x hx).imp_left (Locks.owns_release hq).mpr
  have hclean := allClean_commit (p := p) (s := s)
  have hholders : ∀ k, (s.assignments.commit p).Admits (isCurrent k) := fun k => (hs.holders k).commit p
  cases r <;> exact
    ⟨⟨hcontact, hconversation, hassignments.congr (fun _ _ h => h) rfl, hcases.congr (fun _ _ h => h) rfl, hholders, hsends⟩,
      ⟨⟨hclean.contact, hclean.conversation⟩, hclean.assignments, hclean.cases⟩,
      ⟨hg.locks, hg.contact, hg.conversation, hg.linked, hg.assignments, hg.cases⟩⟩

/-! ### Runs -/

theorem contact_of_unprotected (hu : r.unprotected = some user) : r.key = .contact := by
  cases r with
  | send k _ claim =>
    cases k <;> cases claim <;> first | rfl | cases hu
  | transition k _ _ =>
    cases k <;> first | rfl | cases hu
  | assign | unassign | block | attach => cases hu

theorem RequestHeld.owns_contact (h : RequestHeld s q r) (hu : r.unprotected = some user) :
    s.locks.Owns q .contact :=
  contact_of_unprotected hu ▸ h.owns

theorem owns_of_unprotected {x : GuardStage} (h : StageOk s q x) (hu : x.unprotected = some user) :
    s.locks.Owns q .contact := by
  cases x with
  | claiming k _ =>
    cases k with
    | contact => exact h.1.owns
    | conversation => cases hu
  | vacated r | stamped r _ | cleared r | chosen r _ => exact h.1.owns_contact hu
  | written r _ =>
    cases r with
    | send | transition => exact h.1.owns_contact hu
    | assign | unassign | block | attach => cases hu
  | idle | relock | locked | linkedUp | adopted => cases hu

theorem undisturbed_of_orderly {t : Calls Guarded GuardStage} (ht : Orderly t (.act p .commit))
    (hq : StageOk t.shared q (t.calls q)) (hu : (t.calls q).unprotected = some user) : Undisturbed p t.shared user := by
  intro i row x y hrow hp hy horphan hcurrent
  refine ht (.contact, q) (owns_of_unprotected hq hu) rfl user hu row (List.mem_of_getElem? hrow) _ ?_
  simp [movedTo, hp, hy, horphan, hcurrent]

theorem guardAct_cases {x y : GuardStage} {a : GuardAction} (hs : GuardInv s) (hx : StageOk s p x)
    (hstart : ∀ r, a = .start r → r.byConversation = true → s.linked = false)
    (h : guardAct p s x a = some (s', y)) :
    StatementOk p s s' y ∧ a ≠ .commit ∨
      a = .commit ∧ ∃ r i, x = .written r i ∧ y = .idle ∧ s' = r.record (s.commit p) := by
  cases a with
  | start r =>
    cases x with
    | idle =>
      refine .inl ⟨startRequest_ok hs hx (hstart r rfl) h, fun heq => ?_⟩
      cases heq
    | _ => cases h
  | next =>
    refine .inl ⟨nextStatement_ok hs hx ?_, by decide⟩
    cases x <;> exact h
  | commit =>
    cases x with
    | written r i =>
      obtain ⟨rfl, rfl⟩ := Prod.mk.inj (Option.some.inj h)
      exact .inr ⟨rfl, r, i, rfl, rfl, rfl⟩
    | _ => cases h
  | rollback =>
    refine .inl ⟨?_, by decide⟩
    cases x with
    | idle => cases h
    | _ =>
      obtain ⟨rfl, rfl⟩ := Prod.mk.inj (Option.some.inj h)
      exact rollback_ok hs

theorem requestSafe_commit {i : Option ℕ} (hs : GuardInv s) (hx : StageOk s p (.written r i)) :
    RequestSafe Prod.snd s (r.record (s.commit p)) (.written r i) := by
  cases r with
  | send k user claim =>
    obtain ⟨j, hj, hsafe⟩ := send_safe hs hx
    exact ⟨j, hj, hsafe.unblocked, hsafe.held, hsafe.active, hsafe.alone⟩
  | transition k actor kind => exact Cleared.heldBy (r := .transition k actor kind) hx.2 hx.1 hs
  | assign | unassign | block | attach => trivial

theorem guards_step (t : Calls Guarded GuardStage) (a : CallAction GuardAction Empty) (t' : Calls Guarded GuardStage)
    (ht : Holds GuardInv StageOk t) (hC : Orderly t a) (h : guardSystem.step t a = some t') :
    Holds GuardInv StageOk t' ∧ CommitSafe Prod.snd t a t' := by
  cases a with
  | env e => cases e
  | act p a =>
    obtain ⟨w, y, hact, rfl⟩ := Machine.step_act h
    have hstart : ∀ r, a = .start r → r.byConversation = true → t.shared.linked = false := by
      rintro r rfl hr
      exact hC hr
    rcases guardAct_cases ht.1 (ht.2 p) hstart hact with ⟨hok, hne⟩ | ⟨rfl, r, i, hcall, rfl, rfl⟩
    · refine ⟨Holds.set hok.inv hok.stage fun q hq => (ht.2 q).keep ht.1 hq hok.guards fun hfalse => hfalse.elim, ?_⟩
      intro q hq
      exact absurd (CallAction.act.inj hq).2 hne
    · have hx := ht.2 p
      rw [hcall] at hx
      have hok := commit_ok ht.1 hx
      refine ⟨Holds.set hok.inv hok.clean fun q hq => (ht.2 q).keep ht.1 hq hok.guards fun _ user hu =>
        undisturbed_of_orderly hC (ht.2 q) hu, ?_⟩
      intro q hq
      obtain rfl := (CallAction.act.inj hq).1
      rw [hcall]
      exact requestSafe_commit ht.1 hx

theorem Settled.inv (h : Settled s) : GuardInv s where
  contact q x hx := by simp [h.contact] at hx
  conversation q x hx := by simp [h.conversation] at hx
  assignments i r hr := by
    have hmem := List.mem_of_getElem? hr
    exact .clean (h.assignments r hmem) (fun x hx => (h.filed r hmem x hx).1) fun hl x hx => (h.filed r hmem x hx).2 hl
  cases i r hr := by
    have hmem := List.mem_of_getElem? hr
    exact .clean (h.cases r hmem) (fun x hx => (h.filedCases r hmem x hx).1) fun hl x hx =>
      (h.filedCases r hmem x hx).2 hl
  holders := h.holders
  sends k e he := by simp [h.sends k] at he

theorem Settled.clean (h : Settled s) : AllClean s p where
  contact x hx := by simp [h.contact] at hx
  conversation x hx := by simp [h.conversation] at hx
  assignments i r x hr hx := by simp [h.assignments r (List.mem_of_getElem? hr)] at hx
  cases i r x hr hx := by simp [h.cases r (List.mem_of_getElem? hr)] at hx

instance (t : Calls Guarded GuardStage) : (a : CallAction GuardAction Empty) → Decidable (Orderly t a)
  | .act _ (.start r) => inferInstanceAs (Decidable (r.byConversation = true → t.shared.linked = false))
  | .act p .commit => inferInstanceAs (Decidable (∀ l ∈ t.shared.locks.held, l.1 = .contact →
      ∀ user ∈ (t.calls l.2).unprotected, ∀ row ∈ t.shared.assignments, ∀ holder ∈ movedTo p row, holder = user))
  | .act _ .next | .act _ .rollback => .isTrue trivial
  | .env e => e.elim

/-! ### A thread -/

/-- A conversation with an open case that is not linked to its contact yet. -/
def exampleThread : Guarded where
  contact := ⟨some false, none⟩
  conversation := ⟨some ⟨false, false, true⟩, none⟩
  assignments := []
  cases := [⟨some ⟨false, true, .opened⟩, none⟩]
  locks := .unlocked
  sends := fun _ => []

def threadStart : Calls Guarded GuardStage := Calls.start exampleThread .idle

def statements (p n : ℕ) : List (CallAction GuardAction Empty) := List.replicate n (.act p .next)

/-- `attachWorkflowContact`. -/
def linking (p : ℕ) : List (CallAction GuardAction Empty) :=
  .act p (.start .attach) :: statements p 3 ++ [.act p .commit]

/-- A scheduled message is dispatched, which claims nothing. -/
def dispatching (p user : ℕ) : List (CallAction GuardAction Empty) :=
  .act p (.start (.send .contact user false)) :: statements p 3

theorem settled_exampleThread : Settled exampleThread :=
  ⟨rfl, rfl, by decide, by decide, rfl, fun _ => List.Pairwise.nil, by decide, by decide, fun _ => rfl⟩

/-- Two scheduled messages of different users, which claim nothing. -/
def twoDispatches : List (CallAction GuardAction Empty) := linking 0 ++ dispatching 1 1 ++ [.act 1 .commit] ++ dispatching 2 2

/-- A send, and a resolve of the conversation family after the send has read the case. -/
def resolveUnderSend : List (CallAction GuardAction Empty) :=
  linking 0 ++ .act 1 (.start (.send .contact 1 true)) :: statements 1 5 ++
    .act 2 (.start (.transition .conversation 2 .resolve)) :: statements 2 3 ++ [.act 2 .commit] ++ statements 1 1

end TeamInbox.Cases
