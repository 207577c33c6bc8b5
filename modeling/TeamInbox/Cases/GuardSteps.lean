import TeamInbox.Cases.GuardInvariant

/-!
# TeamInbox.Cases.GuardSteps — every statement of a transaction keeps the assertions

One lemma for each statement: it keeps `GuardInv`, establishes the assertion of the next stage and leaves the others
theirs.
-/

namespace TeamInbox.Cases

open TeamInbox.Lib

variable {α : Type} {c : Prop} {p q : ℕ} {s s' : Guarded} {k : ThreadKey} {r : GuardRequest} {user i : ℕ}

structure StatementOk (p : ℕ) (s s' : Guarded) (x : GuardStage) : Prop where
  inv : GuardInv s'
  stage : StageOk s' p x
  guards : Guards False p s s'

theorem guards_refl : Guards c p s s :=
  ⟨fun _ _ _ h => h, .inl rfl, .inl rfl, id, rowsBy_refl, rowsBy_refl⟩

theorem linked_congr (h : s'.conversation = s.conversation) : s'.linked = s.linked := by
  unfold Guarded.linked
  rw [h]

theorem linkedFor_congr (h : s'.conversation = s.conversation) : s'.linkedFor q = s.linkedFor q := by
  unfold Guarded.linkedFor
  rw [h]

theorem RowsOk.congr {t : Rows (Filed α)} (h : RowsOk s t) (hlocks : ∀ q k, s.locks.Owns q k → s'.locks.Owns q k)
    (hconversation : s'.conversation = s.conversation) : RowsOk s' t := by
  have hlinked : s'.linked = s.linked := linked_congr hconversation
  intro i r hr
  exact (h i r hr).mono (fun q _ k _ => hlocks q k) hlinked.trans (fun q _ _ hl => (linkedFor_congr hconversation).trans hl)
    fun hl => .inl (hlinked.symm.trans hl)

theorem GuardInv.linkedFor (hs : GuardInv s) (h : s.linked = true) : s.linkedFor p = true := by
  rcases Versioned.pending_cases p s.conversation with ⟨x, hx⟩ | hne
  · show (s.conversation.seenBy p).any _ = true
    rw [Versioned.seenBy_of_pending hx]
    exact (hs.conversation p x hx).2
  · show (s.conversation.seenBy p).any _ = true
    rw [Versioned.seenBy_of_ne hne]
    exact h

/-! ### Locks -/

theorem lock_some (h : s.lock p k = some s') : ∃ locks, s.locks.take p k = some locks ∧ s' = { s with locks } ∧
    (k = .contact → s.contact.committed ≠ none) := by
  dsimp only [Guarded.lock] at h
  split_ifs at h with hfound
  obtain ⟨locks, hlocks, rfl⟩ := Option.map_eq_some_iff.mp h
  refine ⟨locks, hlocks, rfl, ?_⟩
  rintro rfl hnone
  simp [hnone] at hfound

structure LockTaken (p : ℕ) (k : ThreadKey) (s s' : Guarded) : Prop where
  inv : GuardInv s'
  guards : Guards False p s s'
  owns : s'.locks.Owns p k
  contact : s'.contact = s.contact
  conversation : s'.conversation = s.conversation
  clean : AllClean s p → AllClean s' p

theorem GuardInv.lock (hs : GuardInv s) (h : s.lock p k = some s') : LockTaken p k s s' := by
  obtain ⟨locks, htake, rfl, -⟩ := lock_some h
  have hkeep : ∀ q k', s.locks.Owns q k' → locks.Owns q k' := fun q k' hown => (Locks.owns_take htake).mpr (.inl hown)
  refine ⟨⟨fun q x hx => (hs.contact q x hx).imp_left (hkeep q _), fun q x hx => ?_, hs.assignments.congr hkeep rfl,
    hs.cases.congr hkeep rfl, hs.holders, hs.sends⟩,
    ⟨fun q k' _ => hkeep q k', .inl rfl, .inl rfl, id, rowsBy_refl, rowsBy_refl⟩,
    (Locks.owns_take htake).mpr (.inr ⟨rfl, rfl⟩), rfl, rfl, fun hc => ⟨⟨hc.contact, hc.conversation⟩, hc.assignments, hc.cases⟩⟩
  exact (hs.conversation q x hx).imp_left (hkeep q _)

theorem Wrote.of_unwritten (h : Unwritten p s.assignments) : Wrote s p r :=
  fun i row z _ hrow hz _ => absurd hz (h i row z hrow)

theorem LockTaken.held (h : LockTaken p r.key s s') (hc : AllClean s p)
    (hunlinked : r.key = .conversation → s.linked = false)
    (hunblocked : ∀ user claim, r = .send .contact user claim → s.contact = ⟨some false, none⟩) : RequestHeld s' p r where
  owns := h.owns
  clean := (h.clean hc).toClean
  unlinked hk := (linked_congr h.conversation).trans (hunlinked hk)
  unblocked user claim hr := h.contact.trans (hunblocked user claim hr)
  wrote := .of_unwritten (h.clean hc).assignments

theorem LockTaken.locked (h : LockTaken p r.key s s') (hc : AllClean s p)
    (hunlinked : r.key = .conversation → s.linked = false)
    (hunblocked : ∀ user claim, r = .send .contact user claim → s.contact = ⟨some false, none⟩) :
    StatementOk p s s' (.locked r) :=
  ⟨h.inv, ⟨h.held hc hunlinked hunblocked, (h.clean hc).assignments, (h.clean hc).cases⟩, h.guards⟩

theorem contact_unblocked (hs : GuardInv s) (hc : AllClean s p) (h : s.lock p .contact = some s')
    (hblocked : s.contact.committed ≠ some true) : s.contact = ⟨some false, none⟩ := by
  obtain ⟨locks, htake, -, hfound⟩ := lock_some h
  have hfound := hfound rfl
  have hpending : s.contact.pending = none := by
    cases hp : s.contact.pending with
    | none => rfl
    | some w =>
      have hown := (hs.contact w.1 w.2 hp).resolve_right hfound
      have hsame : w.1 = p := by
        unfold Locks.take at htake
        split_ifs at htake with hfree
        exact Locks.free_iff.mp hfree w.1 hown
      subst hsame
      exact absurd hp (hc.contact w.2)
  cases hcm : s.contact.committed with
  | none => exact absurd hcm hfound
  | some b =>
    cases b with
    | true => exact absurd hcm hblocked
    | false =>
      calc s.contact = ⟨s.contact.committed, s.contact.pending⟩ := rfl
        _ = ⟨some false, none⟩ := by rw [hcm, hpending]

theorem startContactSend_ok {claim : Bool} {x : GuardStage} (hs : GuardInv s) (hc : AllClean s p)
    (h : startContactSend p user claim s = some (s', x)) : StatementOk p s s' x := by
  unfold startContactSend at h
  split_ifs at h with hblocked
  obtain ⟨s₁, hlock, heq⟩ := Option.map_eq_some_iff.mp h
  obtain ⟨rfl, rfl⟩ := Prod.mk.inj heq
  have htaken : LockTaken p (GuardRequest.send .contact user claim).key s s₁ := hs.lock hlock
  refine htaken.locked hc (fun hk => ?_) fun _ _ _ => contact_unblocked hs hc hlock hblocked
  cases hk

theorem startConversationSend_ok {claim : Bool} {x : GuardStage} (hs : GuardInv s) (hc : AllClean s p)
    (h : startConversationSend p user claim s = some (s', x)) : StatementOk p s s' x := by
  unfold startConversationSend at h
  split_ifs at h with harchived hlinked
  · obtain ⟨s₁, hlock, heq⟩ := Option.map_eq_some_iff.mp h
    obtain ⟨rfl, rfl⟩ := Prod.mk.inj heq
    have htaken := hs.lock hlock
    exact ⟨htaken.inv, htaken.clean hc, htaken.guards⟩
  · obtain ⟨s₁, hlock, heq⟩ := Option.map_eq_some_iff.mp h
    obtain ⟨rfl, rfl⟩ := Prod.mk.inj heq
    have htaken : LockTaken p (GuardRequest.send .conversation user claim).key s s₁ := hs.lock hlock
    refine htaken.locked hc (fun _ => by simpa using hlinked) fun user claim hr => ?_
    cases hr

theorem startAttach_ok {x : GuardStage} (hs : GuardInv s) (hc : AllClean s p)
    (h : startAttach p s = some (s', x)) : StatementOk p s s' x := by
  obtain ⟨s₁, hlock, heq⟩ := Option.map_eq_some_iff.mp h
  have htaken : LockTaken p GuardRequest.attach.key s s₁ := hs.lock hlock
  have hclean := htaken.clean hc
  have hsame : s₁.linked = s.linked := linked_congr htaken.conversation
  split_ifs at heq with hdone
  · obtain ⟨rfl, rfl⟩ := Prod.mk.inj heq
    have hfor : s₁.linkedFor p = s₁.linked := congrArg (Option.any _) (Versioned.seenBy_of_ne hclean.conversation)
    have hall : ∀ {β : Type} (t : Rows (Filed β)), RowsOk s₁ t → s₁.linkedFor p = true → AllFiled p t := by
      rintro β t hok hl i y ⟨row, hrow, hy⟩
      refine (hok i row hrow).filed (hfor.symm.trans hl) y ?_
      rcases Versioned.pending_cases p row with ⟨z, hz⟩ | hne
      · rw [Versioned.seenBy_of_pending hz] at hy
        obtain rfl := Option.some.inj hy
        exact .inr ⟨p, hz⟩
      · rw [Versioned.seenBy_of_ne hne] at hy
        exact .inl hy
    exact ⟨htaken.inv, ⟨htaken.owns, .of_unwritten hclean.assignments, fun hl =>
      ⟨hall _ htaken.inv.assignments hl, hall _ htaken.inv.cases hl⟩⟩, htaken.guards⟩
  · obtain ⟨rfl, rfl⟩ := Prod.mk.inj heq
    refine htaken.locked hc (fun _ => hsame.symm.trans ?_) fun user claim hr => ?_
    · show s₁.conversation.committed.any _ = false
      cases hcm : s₁.conversation.committed with
      | none => rfl
      | some row =>
        rw [hcm] at hdone
        simp at hdone
        simpa using hdone.1
    · cases hr

theorem block_ok {b : Bool} (hs : GuardInv s) (hx : StageOk s p (.locked (.block b))) :
    StatementOk p s { s with contact := s.contact.write p b } (.written (.block b) none) := by
  obtain ⟨hheld, -, -⟩ := hx
  have hpending : ∀ q x, (s.contact.write p b).pending = some (q, x) → q = p := fun q x hx =>
    (congrArg Prod.fst (Option.some.inj hx)).symm
  refine ⟨⟨fun q x hx => ?_, hs.conversation, hs.assignments.congr (fun _ _ h => h) rfl,
    hs.cases.congr (fun _ _ h => h) rfl, hs.holders, hs.sends⟩,
    ⟨hheld.owns, hheld.clean.conversation, hheld.wrote⟩,
    ⟨fun _ _ _ h => h, .inr ⟨.inl hheld.owns, hpending⟩, .inl rfl, id, rowsBy_refl, rowsBy_refl⟩⟩
  rw [hpending q x hx]
  exact .inl hheld.owns

/-! ### Statements on the assignments -/

theorem setAssignments_some {t : Rows (Filed Holder)} (h : s.setAssignments t = some s') :
    (∀ k, t.Admits (isCurrent k)) ∧ s' = { s with assignments := t } := by
  unfold Guarded.setAssignments at h
  split_ifs at h with hadmits
  obtain rfl := Option.some.inj h
  refine ⟨fun k => ?_, rfl⟩
  cases k with
  | contact => exact hadmits.1
  | conversation => exact hadmits.2

theorem committed_keep {t t' : Rows (Filed α)} (hby : RowsBy False p s t t') {row : Versioned (Filed α)} {x : Filed α}
    (hrow : t[i]? = some row) (hx : row.committed = some x) :
    ∃ row', t'[i]? = some row' ∧ row'.committed = some x := by
  rcases hby i with heq | ⟨row', hrow', -, ⟨hnone, -⟩ | ⟨r₁, hr₁, -, -, hsame | ⟨hfalse, -⟩⟩⟩
  · exact ⟨row, heq.trans hrow, hx⟩
  · rw [hrow] at hnone
    cases hnone
  · rw [hrow] at hr₁
    obtain rfl := Option.some.inj hr₁
    exact ⟨row', hrow', hsame.trans hx⟩
  · exact hfalse.elim

theorem GuardInv.setAssignments (hs : GuardInv s) {t : Rows (Filed Holder)} (h : s.setAssignments t = some s')
    (hok : RowsOk s t) (hby : RowsBy False p s s.assignments t) : GuardInv s' := by
  obtain ⟨hadmits, rfl⟩ := setAssignments_some h
  refine ⟨hs.contact, hs.conversation, hok.congr (fun _ _ h => h) rfl, hs.cases.congr (fun _ _ h => h) rfl, hadmits, ?_⟩
  intro k e he hclaim
  obtain ⟨i, row, x, hrow, hx, hcurrent, huser, hin⟩ := hs.sends k e he hclaim
  obtain ⟨row', hrow', hx'⟩ := committed_keep hby hrow hx
  exact ⟨i, row', x, hrow', hx', hcurrent, huser, hin⟩

theorem guards_assignments {t : Rows (Filed Holder)} (hby : RowsBy c p s s.assignments t) :
    Guards c p s { s with assignments := t } :=
  ⟨fun _ _ _ h => h, .inl rfl, .inl rfl, id, hby, rowsBy_refl⟩

theorem RequestHeld.setAssignments {t : Rows (Filed Holder)} (h : RequestHeld s p r)
    (hwrote : Wrote { s with assignments := t } p r) : RequestHeld { s with assignments := t } p r :=
  ⟨h.owns, ⟨h.clean.contact, h.clean.conversation⟩, h.unlinked, h.unblocked, hwrote⟩

theorem seen_cases {row : Versioned α} {x : α} (h : row.seenBy p = some x) :
    row.pending = some (p, x) ∨ row.committed = some x := by
  rcases Versioned.pending_cases p row with ⟨y, hy⟩ | hne
  · rw [Versioned.seenBy_of_pending hy] at h
    exact .inl (hy.trans (by rw [Option.some.inj h]))
  · rw [Versioned.seenBy_of_ne hne] at h
    exact .inr h

theorem RequestHeld.mayWrite (h : RequestHeld s p r) {t : Rows (Filed α)} (hok : RowsOk s t)
    {m : ℕ → Filed α → Bool}
    (hm : ∀ i x, Sees p t i x → m i x = true → x.keyed r.key = true) : MayWrite p s t m := by
  intro i row x hrow hx hmatch _
  rcases seen_cases hx with hp | hcommitted
  · exact (hok i row hrow).owned p x hp
  · rw [hcommitted]
    have hkeyed := hm i x ⟨row, hrow, hx⟩ hmatch
    exact (h.family hok ⟨row, hrow, hx⟩ hkeyed).symm ▸ h.owns

/-- An update of the assignments: over what is committed it writes what the request may, and over its own writes no
less. -/
theorem Wrote.update {m : ℕ → Filed Holder → Bool} {f : Filed Holder → Filed Holder} {t : Rows (Filed Holder)}
    (h : Wrote s p r) (hup : s.assignments.update p m f = some t)
    (hover : ∀ y x, r.Writes y x → r.Writes y (f x))
    (hfresh : ∀ i x, Sees p s.assignments i x → m i x = true → r.Writes x (f x)) :
    Wrote { s with assignments := t } p r := by
  intro i row z y hrow hz hy
  rcases Rows.update_row hup i with heq | ⟨row', x, hrow', hx, hmatch, -, heq⟩
  · exact h i row z y (heq.symm.trans hrow) hz hy
  · have hrow : t[i]? = some row := hrow
    rw [heq] at hrow
    obtain rfl := Option.some.inj hrow
    obtain rfl := (Prod.mk.inj (Option.some.inj hz)).2
    have hy : row'.committed = some y := hy
    rcases seen_cases hx with hp | hcommitted
    · exact hover y x (h i row' x y hrow' hp hy)
    · rw [hcommitted] at hy
      obtain rfl := Option.some.inj hy
      exact hfresh i x ⟨row', hrow', hx⟩ hmatch

structure Unassigned (p : ℕ) (r : GuardRequest) (s s' : Guarded) : Prop where
  inv : GuardInv s'
  held : RequestHeld s' p r
  guards : Guards False p s s'

theorem unassign_ok (hs : GuardInv s) (hheld : RequestHeld s p r) (h : s.unassign p r.key = some s')
    (hover : ∀ y x, r.Writes y x → r.Writes y (Guarded.unassigned x))
    (hfresh : ∀ i x, Sees p s.assignments i x → isCurrent r.key x = true → r.Writes x (Guarded.unassigned x)) :
    Unassigned p r s s' := by
  obtain ⟨t, hup, hset⟩ := Option.bind_eq_some_iff.mp h
  have hmay : MayWrite p s s.assignments fun _ => isCurrent r.key :=
    hheld.mayWrite hs.assignments fun _ _ _ hm => keyed_of_isCurrent hm
  have hby : RowsBy False p s s.assignments t := rowsBy_update hup hmay
  have hok : RowsOk s t := rowsOk_update hs.assignments hup hmay hs.linkedFor (fun _ => rfl) fun _ _ _ _ _ _ _ => .inl rfl
  have hinv := hs.setAssignments hset hok hby
  obtain ⟨-, rfl⟩ := setAssignments_some hset
  exact ⟨hinv, hheld.setAssignments (hheld.wrote.update hup hover hfresh), guards_assignments hby⟩

theorem insertAssignment_ok {bridged : Bool} (hs : GuardInv s) (hheld : RequestHeld s p r)
    (hbridged : bridged = true → r.key = .contact → s.linked = true)
    (h : s.insertAssignment p r.key bridged user = some s') :
    Unassigned p r s s' ∧ Cleared s' p r.key user ∧ Claimed s' p r.key user := by
  have h : s.setAssignments (s.assignments.insert p (.under r.key bridged ⟨user, true⟩)) = some s' := h
  have hkeyed : (Filed.under r.key bridged (⟨user, true⟩ : Holder)).keyed r.key = true := by
    cases r.key <;> rfl
  have hok : RowsOk s (s.assignments.insert p (.under r.key bridged ⟨user, true⟩)) := by
    refine rowsOk_insert hs.assignments ?_ ?_ ?_
    · have howns := hheld.owns
      cases hkey : r.key <;> rw [hkey] at howns <;> exact howns
    · intro hc hv
      cases hkey : r.key with
      | contact =>
        rw [hkey] at hv
        exact hs.linkedFor (hbridged hv hkey)
      | conversation =>
        rw [hkey] at hc
        cases hc
    · intro hl
      cases hkey : r.key with
      | contact => exact Filed.orphaned_of_contact rfl
      | conversation =>
        rw [hheld.unlinked hkey] at hl
        cases hl
  have hby : RowsBy False p s s.assignments (s.assignments.insert p (.under r.key bridged ⟨user, true⟩)) := rowsBy_insert
  have hinv := hs.setAssignments h hok hby
  obtain ⟨hadmits, rfl⟩ := setAssignments_some h
  have hnew : Sees p (s.assignments.insert p (.under r.key bridged ⟨user, true⟩)) s.assignments.length
      (.under r.key bridged ⟨user, true⟩) :=
    ⟨_, Rows.insert_new, Versioned.seenBy_of_pending rfl⟩
  have hcurrent : isCurrent r.key (Filed.under r.key bridged (⟨user, true⟩ : Holder)) = true := by
    cases r.key <;> rfl
  have huser : (Filed.under r.key bridged (⟨user, true⟩ : Holder)).value.assignedTo = user := by
    cases r.key <;> rfl
  refine ⟨⟨hinv, hheld.setAssignments fun i row z y hrow hz hy => ?_, guards_assignments hby⟩, fun i x hx hxc => ?_,
    s.assignments.length, _, hnew, hcurrent, huser⟩
  · rcases Rows.insert_row (p := p) (t := s.assignments) (x := .under r.key bridged ⟨user, true⟩) i with heq | ⟨-, heq⟩
    · exact hheld.wrote i row z y (heq ▸ hrow) hz hy
    · have hrow : (s.assignments.insert p (.under r.key bridged ⟨user, true⟩))[i]? = some row := hrow
      rw [heq] at hrow
      obtain rfl := Option.some.inj hrow
      cases hy
  · -- the index admits no other assignment
    obtain ⟨row, hrow, hseen⟩ := hx
    obtain ⟨row', hrow', hseen'⟩ := hnew
    obtain rfl := (hadmits r.key).seen_unique hrow hrow' hseen hseen' hxc hcurrent
    rw [show row = row' from Option.some.inj (hrow.symm.trans hrow'), hseen'] at hseen
    rw [← Option.some.inj hseen, huser]

/-! ### Statements on the cases -/

theorem setCases_some {t : Rows (Filed CaseStatus)} (h : s.setCases t = some s') : s' = { s with cases := t } := by
  unfold Guarded.setCases at h
  split_ifs at h
  exact (Option.some.inj h).symm

theorem GuardInv.setCases (hs : GuardInv s) {t : Rows (Filed CaseStatus)} (h : s.setCases t = some s')
    (hok : RowsOk s t) : GuardInv s' := by
  obtain rfl := setCases_some h
  exact ⟨hs.contact, hs.conversation, hs.assignments.congr (fun _ _ h => h) rfl, hok.congr (fun _ _ h => h) rfl,
    hs.holders, hs.sends⟩

theorem guards_cases {t : Rows (Filed CaseStatus)} (hby : RowsBy c p s s.cases t) : Guards c p s { s with cases := t } :=
  ⟨fun _ _ _ h => h, .inl rfl, .inl rfl, id, rowsBy_refl, hby⟩

theorem RequestHeld.setCases {t : Rows (Filed CaseStatus)} (h : RequestHeld s p r) :
    RequestHeld { s with cases := t } p r :=
  ⟨h.owns, ⟨h.clean.contact, h.clean.conversation⟩, h.unlinked, h.unblocked, h.wrote⟩

theorem updateCases_ok {m : ℕ → Filed CaseStatus → Bool} {status : CaseStatus} {t : Rows (Filed CaseStatus)}
    {actor : ℕ} {kind : Transition} (hs : GuardInv s) (hheld : RequestHeld s p (.transition k actor kind))
    (hcleared : Cleared s p k actor) (hm : ∀ i x, Sees p s.cases i x → m i x = true → x.keyed k = true)
    (hup : s.cases.update p m (Guarded.withStatus status) = some t) (hset : s.setCases t = some s') :
    StatementOk p s s' (.written (.transition k actor kind) none) := by
  have hmay : MayWrite p s s.cases m := hheld.mayWrite hs.cases hm
  have hok : RowsOk s t := rowsOk_update hs.cases hup hmay hs.linkedFor (fun _ => rfl) fun _ _ _ _ _ _ _ => .inl rfl
  have hinv := hs.setCases hset hok
  obtain rfl := setCases_some hset
  exact ⟨hinv, ⟨hheld.setCases, hcleared⟩, guards_cases (rowsBy_update hup hmay)⟩

theorem resolveCase_ok {actor : ℕ} {kind : Transition} (hs : GuardInv s)
    (hx : StageOk s p (.chosen (.transition k actor kind) i)) (h : s.resolveCase p i = some s') :
    StatementOk p s s' (.written (.transition k actor kind) none) := by
  obtain ⟨hheld, hcleared, y, ⟨row, hrow, hy⟩, hactive⟩ := hx
  unfold Guarded.resolveCase at h
  split_ifs at h
  obtain ⟨t, hup, hset⟩ := Option.bind_eq_some_iff.mp h
  refine updateCases_ok hs hheld hcleared (fun j x hx hm => ?_) hup hset
  obtain ⟨row', hrow', hx⟩ := hx
  simp only [Bool.and_eq_true, decide_eq_true_eq] at hm
  obtain ⟨rfl, -⟩ := hm
  rw [show row' = row from Option.some.inj (hrow'.symm.trans hrow), hy] at hx
  exact Option.some.inj hx ▸ keyed_of_isActive hactive

theorem flipCase_ok {actor : ℕ} {kind : Transition} {source target : CaseStatus} (hs : GuardInv s)
    (hx : StageOk s p (.cleared (.transition k actor kind))) (h : s.flipCase p k source target = some s') :
    StatementOk p s s' (.written (.transition k actor kind) none) := by
  obtain ⟨hheld, hcleared⟩ := hx
  unfold Guarded.flipCase at h
  split_ifs at h
  · obtain ⟨t, hup, hset⟩ := Option.bind_eq_some_iff.mp h
    exact updateCases_ok hs hheld hcleared (fun _ _ _ hm => (Bool.and_eq_true_iff.mp hm).1) hup hset
  · obtain rfl := Option.some.inj h
    exact ⟨hs, ⟨hheld, hcleared⟩, guards_refl⟩

theorem insertCase_ok {actor : ℕ} {kind : Transition} {bridged : Bool} (hs : GuardInv s)
    (hx : StageOk s p (.stamped (.transition k actor kind) bridged)) (h : s.insertCase p k bridged = some s') :
    StatementOk p s s' (.written (.transition k actor kind) none) := by
  obtain ⟨hheld, hbridged, hcleared⟩ := hx
  have h : s.setCases (s.cases.insert p (.under k bridged .opened)) = some s' := h
  have hok : RowsOk s (s.cases.insert p (.under k bridged .opened)) := by
    refine rowsOk_insert hs.cases ?_ ?_ ?_
    · have howns : s.locks.Owns p k := hheld.owns
      cases k <;> exact howns
    · intro hc hv
      cases k with
      | contact => exact hs.linkedFor (hbridged hv rfl)
      | conversation => cases hc
    · intro hl
      cases k with
      | contact => exact Filed.orphaned_of_contact rfl
      | conversation =>
        rw [hheld.unlinked rfl] at hl
        cases hl
  have hinv := hs.setCases h hok
  obtain rfl := setCases_some h
  exact ⟨hinv, ⟨hheld.setCases, hcleared⟩, guards_cases rowsBy_insert⟩

/-! ### The link -/

theorem link_ok (hs : GuardInv s) (hx : StageOk s p (.locked .attach)) (h : s.link p = some s') :
    StatementOk p s s' .linkedUp := by
  obtain ⟨hheld, hassignments, hcases⟩ := hx
  obtain ⟨row, hrow, rfl⟩ := Option.map_eq_some_iff.mp h
  have howns : s.locks.Owns p .conversation := hheld.owns
  have hlinked : s.linked = false := hheld.unlinked rfl
  have hpending : ∀ q x, (s.conversation.write p { row with linked := true }).pending = some (q, x) →
      q = p ∧ x.linked = true := by
    intro q x hx
    obtain ⟨rfl, rfl⟩ := Prod.mk.inj (Option.some.inj hx)
    exact ⟨rfl, rfl⟩
  -- nobody else has written the conversation, so the others see what they saw
  have hothers : ∀ q x, s.conversation.pending = some (q, x) → q = p := fun q x hx =>
    (hs.conversation q x hx).1.unique howns
  have hrows : ∀ {β : Type} {t : Rows (Filed β)}, RowsOk s t → RowsOk
      { s with
        contact := if s.contact.committed.isSome then s.contact else s.contact.write p false
        conversation := s.conversation.write p { row with linked := true } } t := by
    intro β t hok i v hv
    refine (hok i v hv).mono (fun _ _ _ _ h => h) id (fun q x _ hl => ?_) .inl
    by_cases hq : q = p
    · subst hq
      show ((s.conversation.write q _).seenBy q).any _ = true
      rw [Versioned.seenBy_of_pending rfl]
      rfl
    · have hold : s.linkedFor q = s.linked :=
        congrArg (Option.any _) (Versioned.seenBy_of_ne fun x hx => hq (hothers q x hx))
      rw [hold, hlinked] at hl
      cases hl
  refine ⟨⟨fun q x hx => ?_, fun q x hx => ?_, hrows hs.assignments, hrows hs.cases, hs.holders, hs.sends⟩,
    ⟨⟨howns, ?_, hheld.wrote⟩, hassignments, hcases⟩,
    ⟨fun _ _ _ h => h, ?_, .inr ⟨howns, fun q x hx => (hpending q x hx).1⟩, id, rowsBy_refl, rowsBy_refl⟩⟩
  · have hx : (if s.contact.committed.isSome then s.contact else s.contact.write p false).pending = some (q, x) := hx
    show _ ∨ (if s.contact.committed.isSome then s.contact else s.contact.write p false).committed = none
    split_ifs at hx ⊢ with hsome
    · exact hs.contact q x hx
    · exact .inr (show s.contact.committed = none by simpa using hsome)
  · obtain ⟨rfl, hl⟩ := hpending q x hx
    exact ⟨howns, hl⟩
  · show ((s.conversation.write p _).seenBy p).any _ = true
    rw [Versioned.seenBy_of_pending rfl]
    rfl
  · show CellBy _ p s.contact (if s.contact.committed.isSome then s.contact else s.contact.write p false)
    split_ifs with hsome
    · exact .inl rfl
    · exact .inr ⟨.inr (by simpa using hsome), fun q x hx => (congrArg Prod.fst (Option.some.inj hx)).symm⟩

theorem mayAdopt {t : Rows (Filed α)} (howns : s.locks.Owns p .conversation) (hun : Unwritten p t) :
    MayWrite p s t fun _ => Filed.orphaned := by
  intro i row x hrow hx hm _
  rw [(seen_cases hx).resolve_left (hun i row x hrow)]
  have hc : x.ofContact = false := by
    simp only [Filed.orphaned, Bool.and_eq_true, Bool.not_eq_true'] at hm
    exact hm.2
  show s.locks.Owns p x.family
  rw [Filed.family_of_orphan hc]
  exact howns

theorem rowsOk_adopt {t t' : Rows (Filed α)} (hs : GuardInv s) (hok : RowsOk s t) (hlinking : Linking s p)
    (hun : Unwritten p t) (hup : t.update p (fun _ => Filed.orphaned) Filed.adopt = some t') : RowsOk s t' :=
  rowsOk_update hok hup (mayAdopt hlinking.owns hun) hs.linkedFor (fun _ => rfl) fun i row x hrow hx hm _ =>
    .inr ⟨(seen_cases hx).resolve_left (hun i row x hrow), hm, rfl, hlinking.linked⟩

theorem allFiled_adopt {t t' : Rows (Filed α)} (hup : t.update p (fun _ => Filed.orphaned) Filed.adopt = some t') :
    AllFiled p t' := by
  rintro i x ⟨row, hrow, hx⟩
  rcases Rows.update_row hup i with heq | ⟨row', y, -, -, -, -, heq⟩
  · by_contra horphan
    have hm : x.orphaned = true := by simpa using horphan
    have hmatched := Rows.update_match hup (heq ▸ hrow) hx hm
    rw [hrow] at hmatched
    have hpending : row.pending = some (p, x.adopt) := by
      rw [Option.some.inj hmatched]
      rfl
    rw [Versioned.seenBy_of_pending hpending] at hx
    rw [← Option.some.inj hx] at hm
    simp [Filed.orphaned, Filed.adopt] at hm
  · rw [heq] at hrow
    obtain rfl := Option.some.inj hrow
    rw [Versioned.seenBy_of_pending rfl] at hx
    obtain rfl := Option.some.inj hx
    exact Filed.orphaned_of_contact rfl

theorem adoptAssignments_ok (hs : GuardInv s) (hx : StageOk s p .linkedUp) (h : s.adoptAssignments p = some s') :
    StatementOk p s s' .adopted := by
  obtain ⟨hlinking, hun, hcases⟩ := hx
  obtain ⟨t, hup, hset⟩ := Option.bind_eq_some_iff.mp h
  have hby : RowsBy False p s s.assignments t := rowsBy_update hup (mayAdopt hlinking.owns hun)
  have hinv := hs.setAssignments hset (rowsOk_adopt hs hs.assignments hlinking hun hup) hby
  obtain ⟨-, rfl⟩ := setAssignments_some hset
  refine ⟨hinv, ⟨⟨hlinking.owns, hlinking.linked, ?_⟩, allFiled_adopt hup, hcases⟩, guards_assignments hby⟩
  intro i row z y hrow hz hy
  rcases Rows.update_row hup i with heq | ⟨row', x, hrow', hx, -, -, heq⟩
  · exact absurd hz (hun i row z (heq.symm.trans hrow))
  · have hrow : t[i]? = some row := hrow
    rw [heq] at hrow
    obtain rfl := Option.some.inj hrow
    obtain rfl := (Prod.mk.inj (Option.some.inj hz)).2
    have hy : row'.committed = some y := hy
    rw [(seen_cases hx).resolve_left (hun i row' x hrow')] at hy
    rw [Option.some.inj hy]
    rfl

theorem adoptCases_ok (hs : GuardInv s) (hx : StageOk s p .adopted) (h : s.adoptCases p = some s') :
    StatementOk p s s' (.written .attach none) := by
  obtain ⟨hlinking, hfiled, hun⟩ := hx
  obtain ⟨t, hup, hset⟩ := Option.bind_eq_some_iff.mp h
  have hinv := hs.setCases hset (rowsOk_adopt hs hs.cases hlinking hun hup)
  obtain rfl := setCases_some hset
  exact ⟨hinv, ⟨hlinking.owns, hlinking.wrote, fun _ => ⟨hfiled, allFiled_adopt hup⟩⟩,
    guards_cases (rowsBy_update hup (mayAdopt hlinking.owns hun))⟩

/-! ### The checks -/

theorem assignee_none (h : s.assignee p k = none) : Cleared s p k user := by
  rintro i x ⟨row, hrow, hx⟩ hcurrent
  cases hfirst : s.assignments.first p (isCurrent k) with
  | none =>
    rw [Rows.first_none hfirst hrow hx] at hcurrent
    cases hcurrent
  | some j =>
    obtain ⟨row', y, hrow', hy, -⟩ := Rows.first_some hfirst
    unfold Guarded.assignee at h
    rw [hfirst, Option.bind_some, hrow', Option.bind_some, hy] at h
    cases h

theorem assignee_some (hs : GuardInv s) (h : s.assignee p k = some user) : Cleared s p k user ∧ Claimed s p k user := by
  obtain ⟨i, hfirst, hrest⟩ := Option.bind_eq_some_iff.mp h
  obtain ⟨row, x, hrow, hx, hcurrent⟩ := Rows.first_some hfirst
  rw [hrow, Option.bind_some, hx] at hrest
  have huser : x.value.assignedTo = user := Option.some.inj hrest
  refine ⟨?_, i, x, ⟨row, hrow, hx⟩, hcurrent, huser⟩
  rintro j y ⟨row', hrow', hy⟩ hcurrent'
  obtain rfl := (hs.holders k).seen_unique hrow hrow' hx hy hcurrent hcurrent'
  rw [show row' = row from Option.some.inj (hrow'.symm.trans hrow), hx] at hy
  rw [← Option.some.inj hy, huser]

theorem checkSend_ok {claim : Bool} {x : GuardStage} (hs : GuardInv s) (hx : StageOk s p (.locked (.send k user claim)))
    (h : checkSend p k user claim s = some x) : StatementOk p s s x := by
  obtain ⟨hheld, hun, -⟩ := hx
  unfold checkSend at h
  cases hassignee : s.assignee p k with
  | some holder =>
    rw [hassignee] at h
    obtain ⟨rfl, heq⟩ : holder = user ∧ some (GuardStage.cleared (.send k user claim)) = some x := by
      simpa using h
    obtain rfl := Option.some.inj heq
    obtain ⟨hcleared, hclaimed⟩ := assignee_some hs hassignee
    exact ⟨hs, ⟨hheld, hcleared, fun _ => hclaimed⟩, guards_refl⟩
  | none =>
    rw [hassignee] at h
    cases claim with
    | true =>
      obtain rfl := Option.some.inj h
      exact ⟨hs, ⟨hheld, hun, assignee_none hassignee⟩, guards_refl⟩
    | false =>
      obtain rfl := Option.some.inj h
      refine ⟨hs, ⟨hheld, assignee_none hassignee, fun hclaim => ?_⟩, guards_refl⟩
      cases hclaim

theorem assertActorOwns_ok {actor : ℕ} {kind : Transition} {x : GuardStage} (hs : GuardInv s)
    (hx : StageOk s p (.locked (.transition k actor kind))) (h : s.assertActorOwns p k actor kind = some x) :
    StatementOk p s s x := by
  obtain ⟨hheld, -, -⟩ := hx
  unfold Guarded.assertActorOwns at h
  split_ifs at h with hall
  obtain rfl := Option.some.inj h
  cases hassignee : s.assignee p k with
  | some holder =>
    rw [hassignee] at hall
    obtain rfl : holder = actor := by simpa using hall
    exact ⟨hs, ⟨hheld, (assignee_some hs hassignee).1⟩, guards_refl⟩
  | none => exact ⟨hs, ⟨hheld, assignee_none hassignee⟩, guards_refl⟩

theorem bridge_linked (hheld : RequestHeld s p r) (hbridge : bridge p r.key s = true) (hk : r.key = .contact) :
    s.linked = true := by
  rw [hk] at hbridge
  obtain ⟨row, hrow, hlinked⟩ := (Option.any_eq_true _ _).mp hbridge
  rw [← hheld.linkedFor]
  exact (Option.any_eq_true _ _).mpr ⟨row, hrow, (Bool.and_eq_true_iff.mp hlinked).1⟩

theorem caseAt_first (h : s.cases.first p (isActive k) = some i) : CaseAt s p k i := by
  obtain ⟨row, x, hrow, hx, hactive⟩ := Rows.first_some h
  exact ⟨x, ⟨row, hrow, hx⟩, hactive⟩

theorem startTransition_ok {actor : ℕ} {kind : Transition} {x : GuardStage} (hs : GuardInv s)
    (hx : StageOk s p (.cleared (.transition k actor kind)))
    (h : startTransition p k actor s kind = some (s', x)) : StatementOk p s s' x := by
  cases kind with
  | resolve =>
    obtain ⟨i, hfirst, heq⟩ := Option.map_eq_some_iff.mp h
    obtain ⟨rfl, rfl⟩ := Prod.mk.inj heq
    exact ⟨hs, ⟨hx.1, hx.2, caseAt_first hfirst⟩, guards_refl⟩
  | setPending =>
    obtain ⟨s₁, hflip, heq⟩ := Option.map_eq_some_iff.mp h
    obtain ⟨rfl, rfl⟩ := Prod.mk.inj heq
    exact flipCase_ok hs hx hflip
  | resume =>
    obtain ⟨s₁, hflip, heq⟩ := Option.map_eq_some_iff.mp h
    obtain ⟨rfl, rfl⟩ := Prod.mk.inj heq
    exact flipCase_ok hs hx hflip
  | «open» reopen reason =>
    simp only [startTransition] at h
    split_ifs at h
    obtain ⟨rfl, rfl⟩ := Prod.mk.inj (Option.some.inj h)
    exact ⟨hs, ⟨hx.1, fun hb hk => bridge_linked hx.1 hb hk, hx.2⟩, guards_refl⟩

theorem Unassigned.vacated (h : Unassigned p r s s') (hchecking : Checking s' p r) : StatementOk p s s' (.vacated r) :=
  ⟨h.inv, ⟨h.held, hchecking⟩, h.guards⟩

theorem claim_ok (hs : GuardInv s) (hx : StageOk s p (.claiming k user)) (h : s.unassign p k = some s') :
    StatementOk p s s' (.vacated (.send k user true)) := by
  obtain ⟨hheld, -, hcleared⟩ := hx
  refine (unassign_ok (r := .send k user true) hs hheld h (fun _ _ hw => hw) fun i x hx hcurrent => ?_).vacated trivial
  exact ⟨rfl, keyed_of_isCurrent hcurrent, hcleared i x hx hcurrent⟩

theorem insertStamped_ok {bridged : Bool} {x : GuardStage} (hs : GuardInv s) (hx : StageOk s p (.stamped r bridged))
    (h : insertStamped p bridged s r = some (s', x)) : StatementOk p s s' x := by
  obtain ⟨hheld, hbridged, hchecking⟩ := hx
  cases r with
  | send k user claim =>
    obtain ⟨s₁, hinsert, heq⟩ := Option.map_eq_some_iff.mp h
    obtain ⟨rfl, rfl⟩ := Prod.mk.inj heq
    obtain ⟨hun, hcleared, hclaimed⟩ := insertAssignment_ok (r := .send k user claim) hs hheld hbridged hinsert
    exact ⟨hun.inv, ⟨hun.held, hcleared, fun _ => hclaimed⟩, hun.guards⟩
  | assign k user =>
    obtain ⟨s₁, hinsert, heq⟩ := Option.map_eq_some_iff.mp h
    obtain ⟨rfl, rfl⟩ := Prod.mk.inj heq
    obtain ⟨hun, -, -⟩ := insertAssignment_ok (r := .assign k user) hs hheld hbridged hinsert
    exact ⟨hun.inv, ⟨hun.held, trivial⟩, hun.guards⟩
  | transition k actor kind =>
    obtain ⟨s₁, hinsert, heq⟩ := Option.map_eq_some_iff.mp h
    obtain ⟨rfl, rfl⟩ := Prod.mk.inj heq
    exact insertCase_ok hs ⟨hheld, hbridged, hchecking⟩ hinsert
  | unassign | block | attach => cases h

theorem nextStatement_ok {x y : GuardStage} (hs : GuardInv s) (hx : StageOk s p x)
    (h : nextStatement p s x = some (s', y)) : StatementOk p s s' y := by
  cases x with
  | idle => cases h
  | relock user claim => exact startContactSend_ok hs hx h
  | locked r =>
    cases r with
    | send k user claim =>
      obtain ⟨z, hcheck, heq⟩ := Option.map_eq_some_iff.mp h
      obtain ⟨rfl, rfl⟩ := Prod.mk.inj heq
      exact checkSend_ok hs hx hcheck
    | transition k actor kind =>
      obtain ⟨z, hcheck, heq⟩ := Option.map_eq_some_iff.mp h
      obtain ⟨rfl, rfl⟩ := Prod.mk.inj heq
      exact assertActorOwns_ok hs hx hcheck
    | assign k user =>
      obtain ⟨s₁, hun, heq⟩ := Option.map_eq_some_iff.mp h
      obtain ⟨rfl, rfl⟩ := Prod.mk.inj heq
      exact (unassign_ok (r := .assign k user) hs hx.1 hun (fun _ _ hw => hw) fun _ _ _ hc =>
        keyed_of_isCurrent hc).vacated trivial
    | unassign k =>
      obtain ⟨s₁, hun, heq⟩ := Option.map_eq_some_iff.mp h
      obtain ⟨rfl, rfl⟩ := Prod.mk.inj heq
      have hok := unassign_ok (r := .unassign k) hs hx.1 hun (fun _ _ hw => hw) fun _ _ _ hc => keyed_of_isCurrent hc
      exact ⟨hok.inv, ⟨hok.held, trivial⟩, hok.guards⟩
    | block b =>
      obtain ⟨rfl, rfl⟩ := Prod.mk.inj (Option.some.inj h)
      exact block_ok hs hx
    | attach =>
      obtain ⟨s₁, hlink, heq⟩ := Option.map_eq_some_iff.mp h
      obtain ⟨rfl, rfl⟩ := Prod.mk.inj heq
      exact link_ok hs hx hlink
  | claiming k user =>
    obtain ⟨s₁, hun, heq⟩ := Option.map_eq_some_iff.mp h
    obtain ⟨rfl, rfl⟩ := Prod.mk.inj heq
    exact claim_ok hs hx hun
  | vacated r =>
    obtain ⟨rfl, rfl⟩ := Prod.mk.inj (Option.some.inj h)
    exact ⟨hs, ⟨hx.1, fun hb hk => bridge_linked hx.1 hb hk, hx.2⟩, guards_refl⟩
  | stamped r bridged => exact insertStamped_ok hs hx h
  | cleared r =>
    cases r with
    | send k user claim =>
      obtain ⟨i, hfirst, heq⟩ := Option.map_eq_some_iff.mp h
      obtain ⟨rfl, rfl⟩ := Prod.mk.inj heq
      exact ⟨hs, ⟨hx.1, hx.2, caseAt_first hfirst⟩, guards_refl⟩
    | transition k actor kind => exact startTransition_ok hs hx h
    | assign | unassign | block | attach => cases h
  | chosen r i =>
    cases r with
    | send k user claim =>
      obtain ⟨rfl, rfl⟩ := Prod.mk.inj (Option.some.inj h)
      exact ⟨hs, ⟨hx.1, hx.2.1, i, rfl, hx.2.2⟩, guards_refl⟩
    | transition k actor kind =>
      obtain ⟨s₁, hresolve, heq⟩ := Option.map_eq_some_iff.mp h
      obtain ⟨rfl, rfl⟩ := Prod.mk.inj heq
      exact resolveCase_ok hs hx hresolve
    | assign | unassign | block | attach => cases h
  | linkedUp =>
    obtain ⟨s₁, hadopt, heq⟩ := Option.map_eq_some_iff.mp h
    obtain ⟨rfl, rfl⟩ := Prod.mk.inj heq
    exact adoptAssignments_ok hs hx hadopt
  | adopted =>
    obtain ⟨s₁, hadopt, heq⟩ := Option.map_eq_some_iff.mp h
    obtain ⟨rfl, rfl⟩ := Prod.mk.inj heq
    exact adoptCases_ok hs hx hadopt
  | written r i => cases h

/-- A request of the conversation family, but for a send or the link, finds the conversation unlinked. -/
def GuardRequest.byConversation : GuardRequest → Bool
  | .transition .conversation _ _ | .assign .conversation _ | .unassign .conversation => true
  | _ => false

theorem startRequest_ok {y : GuardStage} (hs : GuardInv s) (hc : AllClean s p)
    (hunlinked : r.byConversation = true → s.linked = false) (h : startRequest p s r = some (s', y)) :
    StatementOk p s s' y := by
  have hlocked : ∀ r : GuardRequest, (r.key = .conversation → s.linked = false) →
      (∀ k user claim, r ≠ .send k user claim) → (s.lock p r.key).map (fun s => (s, GuardStage.locked r)) = some (s', y) →
        StatementOk p s s' y := by
    intro r hun hne hlock
    obtain ⟨s₁, htake, heq⟩ := Option.map_eq_some_iff.mp hlock
    obtain ⟨rfl, rfl⟩ := Prod.mk.inj heq
    exact (hs.lock htake).locked hc hun fun user claim hr => absurd hr (hne _ _ _)
  cases r with
  | send k user claim =>
    cases k with
    | contact => exact startContactSend_ok hs hc h
    | conversation => exact startConversationSend_ok hs hc h
  | transition k actor kind =>
    refine hlocked _ (fun hk => ?_) (fun _ _ _ hr => by cases hr) h
    obtain rfl : k = .conversation := hk
    exact hunlinked rfl
  | assign k user =>
    refine hlocked _ (fun hk => ?_) (fun _ _ _ hr => by cases hr) h
    obtain rfl : k = .conversation := hk
    exact hunlinked rfl
  | unassign k =>
    refine hlocked _ (fun hk => ?_) (fun _ _ _ hr => by cases hr) h
    obtain rfl : k = .conversation := hk
    exact hunlinked rfl
  | block b =>
    refine hlocked _ (fun hk => ?_) (fun _ _ _ hr => by cases hr) h
    cases hk
  | attach => exact startAttach_ok hs hc h

end TeamInbox.Cases
