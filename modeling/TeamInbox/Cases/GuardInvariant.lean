import TeamInbox.Cases.GuardRows

/-!
# TeamInbox.Cases.GuardInvariant — the assertions of the send guard

`GuardInv` speaks of the tables, `StageOk` of a transaction at each of its statements.  What a transaction has checked
stays so until it commits: `Guards p s s'` is what a step of `p` leaves to the others, and `StageOk.keep` says that this
is enough — but for an assignment that `attachWorkflowContact` files under the contact meanwhile.
-/

namespace TeamInbox.Cases

open TeamInbox.Lib

variable {α : Type}

def InThread (s : Guarded) (k : ThreadKey) (x : Filed α) : Prop :=
  x.keyed k = true ∨ s.linked = true ∧ (x.ofContact = true ∨ x.ofConversation = true)

/-- Somebody who has sent and claimed holds the thread. -/
def Sent (s : Guarded) (k : ThreadKey) (user : ℕ) : Prop :=
  ∃ (i : ℕ) (r : Versioned (Filed Holder)) (x : Filed Holder), s.assignments[i]? = some r ∧ r.committed = some x ∧
    x.value.current = true ∧ x.value.assignedTo = user ∧ InThread s k x

structure GuardInv (s : Guarded) : Prop where
  contact : ∀ q x, s.contact.pending = some (q, x) → s.locks.Owns q .contact ∨ s.contact.committed = none
  conversation : ∀ q x, s.conversation.pending = some (q, x) → s.locks.Owns q .conversation ∧ x.linked = true
  assignments : RowsOk s s.assignments
  cases : RowsOk s s.cases
  holders : ∀ k, s.assignments.Admits (isCurrent k)
  sends : ∀ k, ∀ e ∈ s.sends k, e.2 = true → Sent s k e.1

/-! ### Assertions of a transaction -/

/-- `p` has written neither the contact nor the conversation. -/
structure Clean (s : Guarded) (p : ℕ) : Prop where
  contact : ∀ x, s.contact.pending ≠ some (p, x)
  conversation : ∀ x, s.conversation.pending ≠ some (p, x)

def Unwritten (p : ℕ) (t : Rows (Filed α)) : Prop :=
  ∀ (i : ℕ) (r : Versioned (Filed α)) (x : Filed α), t[i]? = some r → r.pending ≠ some (p, x)

def GuardRequest.Writes : GuardRequest → Filed Holder → Filed Holder → Prop
  | .send k user claim, y, _ => claim = true ∧ y.keyed k = true ∧ y.value.assignedTo = user
  | .assign k _, y, _ | .unassign k, y, _ => y.keyed k = true
  | .attach, y, z => z = y.adopt
  | .transition _ _ _, _, _ | .block _, _, _ => False

def Wrote (s : Guarded) (p : ℕ) (r : GuardRequest) : Prop :=
  ∀ (i : ℕ) (row : Versioned (Filed Holder)) (z y : Filed Holder), s.assignments[i]? = some row →
    row.pending = some (p, z) → row.committed = some y → r.Writes y z

structure RequestHeld (s : Guarded) (p : ℕ) (r : GuardRequest) : Prop where
  owns : s.locks.Owns p r.key
  clean : Clean s p
  unlinked : r.key = .conversation → s.linked = false
  unblocked : ∀ user claim, r = .send .contact user claim → s.contact = ⟨some false, none⟩
  wrote : Wrote s p r

def Cleared (s : Guarded) (p : ℕ) (k : ThreadKey) (user : ℕ) : Prop :=
  ∀ i x, Sees p s.assignments i x → isCurrent k x = true → x.value.assignedTo = user

def Claimed (s : Guarded) (p : ℕ) (k : ThreadKey) (user : ℕ) : Prop :=
  ∃ i x, Sees p s.assignments i x ∧ isCurrent k x = true ∧ x.value.assignedTo = user

def Checked (s : Guarded) (p : ℕ) : GuardRequest → Prop
  | .send k user claim => Cleared s p k user ∧ (claim = true → Claimed s p k user)
  | .transition k actor _ => Cleared s p k actor
  | _ => True

def CaseAt (s : Guarded) (p : ℕ) (k : ThreadKey) (i : ℕ) : Prop := ∃ x, Sees p s.cases i x ∧ isActive k x = true

structure Linking (s : Guarded) (p : ℕ) : Prop where
  owns : s.locks.Owns p .conversation
  linked : s.linkedFor p = true
  wrote : Wrote s p .attach

/-- Every row of the conversation that the transaction sees bears the contact. -/
def AllFiled (p : ℕ) (t : Rows (Filed α)) : Prop := ∀ i x, Sees p t i x → x.orphaned = false

structure AllClean (s : Guarded) (p : ℕ) : Prop extends Clean s p where
  assignments : Unwritten p s.assignments
  cases : Unwritten p s.cases

def Checking (s : Guarded) (p : ℕ) : GuardRequest → Prop
  | .transition k actor _ => Cleared s p k actor
  | _ => True

def WrittenOk (s : Guarded) (p : ℕ) (i : Option ℕ) : GuardRequest → Prop
  | .send k user claim => RequestHeld s p (.send k user claim) ∧ Checked s p (.send k user claim) ∧
      ∃ j, i = some j ∧ CaseAt s p k j
  | .block b => s.locks.Owns p .contact ∧ (∀ x, s.conversation.pending ≠ some (p, x)) ∧ Wrote s p (.block b)
  | .attach => s.locks.Owns p .conversation ∧ Wrote s p .attach ∧
      (s.linkedFor p = true → AllFiled p s.assignments ∧ AllFiled p s.cases)
  | r => RequestHeld s p r ∧ Checked s p r

def StageOk (s : Guarded) (p : ℕ) : GuardStage → Prop
  | .idle | .relock _ _ => AllClean s p
  | .locked r => RequestHeld s p r ∧ Unwritten p s.assignments ∧ Unwritten p s.cases
  | .claiming k user => RequestHeld s p (.send k user true) ∧ Unwritten p s.assignments ∧ Cleared s p k user
  | .vacated r => RequestHeld s p r ∧ Checking s p r
  | .stamped r bridged => RequestHeld s p r ∧ (bridged = true → r.key = .contact → s.linked = true) ∧ Checking s p r
  | .cleared r => RequestHeld s p r ∧ Checked s p r
  | .chosen r i => RequestHeld s p r ∧ Checked s p r ∧ CaseAt s p r.key i
  | .linkedUp => Linking s p ∧ Unwritten p s.assignments ∧ Unwritten p s.cases
  | .adopted => Linking s p ∧ AllFiled p s.assignments ∧ Unwritten p s.cases
  | .written r i => WrittenOk s p i r

/-! ### What a step leaves to the others -/

def CellBy {β : Type} (mayWrite : Prop) (p : ℕ) (v v' : Versioned β) : Prop :=
  v' = v ∨ mayWrite ∧ ∀ q x, v'.pending = some (q, x) → q = p

structure Guards (c : Prop) (p : ℕ) (s s' : Guarded) : Prop where
  locks : ∀ q k, q ≠ p → s.locks.Owns q k → s'.locks.Owns q k
  contact : CellBy (s.locks.Owns p .contact ∨ s.contact.committed = none) p s.contact s'.contact
  conversation : CellBy (s.locks.Owns p .conversation) p s.conversation s'.conversation
  linked : s.linked = true → s'.linked = true
  assignments : RowsBy c p s s.assignments s'.assignments
  cases : RowsBy c p s s.cases s'.cases

variable {c : Prop} {p q : ℕ} {s s' : Guarded} {k : ThreadKey} {r : GuardRequest} {user i : ℕ}

theorem Clean.keep (h : Clean s q) (hq : q ≠ p) (hg : Guards c p s s') : Clean s' q := by
  refine ⟨fun x hx => ?_, fun x hx => ?_⟩
  · rcases hg.contact with heq | ⟨-, hp⟩
    · exact h.contact x (heq ▸ hx)
    · exact hq (hp q x hx)
  · rcases hg.conversation with heq | ⟨-, hp⟩
    · exact h.conversation x (heq ▸ hx)
    · exact hq (hp q x hx)

theorem unwritten_keep {t t' : Rows (Filed α)} (h : Unwritten q t) (hq : q ≠ p) (hby : RowsBy c p s t t') :
    Unwritten q t' := by
  intro i r x hr hx
  rcases hby i with heq | ⟨r', hr', hp, -⟩
  · exact h i r x (heq ▸ hr) hx
  · rw [hr] at hr'
    obtain rfl := Option.some.inj hr'
    exact hq (hp q x hx)

theorem Wrote.keep (h : Wrote s q r) (hq : q ≠ p) (hg : Guards c p s s') : Wrote s' q r := by
  intro i row z y hrow hz hy
  rcases hg.assignments i with heq | ⟨row', hrow', hp, -⟩
  · exact h i row z y (heq ▸ hrow) hz hy
  · rw [hrow] at hrow'
    obtain rfl := Option.some.inj hrow'
    exact absurd (hp q z hz) hq

theorem conversation_keep (h : s.locks.Owns q .conversation) (hq : q ≠ p) (hg : Guards c p s s') :
    s'.conversation = s.conversation :=
  hg.conversation.resolve_right fun hp => hq (h.unique hp.1)

theorem RequestHeld.keep (h : RequestHeld s q r) (hq : q ≠ p) (hg : Guards c p s s') : RequestHeld s' q r where
  owns := hg.locks q _ hq h.owns
  clean := h.clean.keep hq hg
  unlinked hk := by
    have heq := conversation_keep (hk ▸ h.owns) hq hg
    show s'.conversation.committed.any _ = false
    rw [heq]
    exact h.unlinked hk
  unblocked user claim hr := by
    have hold := h.unblocked user claim hr
    have howns : s.locks.Owns q .contact := by
      have := h.owns
      rwa [hr] at this
    refine (hg.contact.resolve_right fun hp => ?_).trans hold
    rcases hp.1 with hown | hnone
    · exact hq (howns.unique hown)
    · rw [hold] at hnone
      cases hnone
  wrote := h.wrote.keep hq hg

theorem RequestHeld.linkedFor (h : RequestHeld s p r) : s.linkedFor p = s.linked :=
  congrArg (Option.any _) (Versioned.seenBy_of_ne h.clean.conversation)

theorem RequestHeld.family (h : RequestHeld s p r) {t : Rows (Filed α)} {x : Filed α} (hok : RowsOk s t)
    (hx : Sees p t i x) (hk : x.keyed r.key = true) : x.family = r.key := by
  cases hkey : r.key with
  | contact =>
    rw [hkey] at hk
    exact Filed.family_of_contact hk
  | conversation =>
    rw [hkey] at hk
    have hunlinked := h.unlinked hkey
    refine Filed.family_of_orphan ?_
    by_contra hc
    have hc : x.ofContact = true := by simpa using hc
    obtain ⟨row, hrow, hseen⟩ := hx
    rcases Versioned.pending_cases p row with ⟨y, hy⟩ | hne
    · rw [Versioned.seenBy_of_pending hy] at hseen
      obtain rfl := Option.some.inj hseen
      have hl := (hok i row hrow).bothPending p _ hy hc hk
      rw [h.linkedFor, hunlinked] at hl
      cases hl
    · rw [Versioned.seenBy_of_ne hne] at hseen
      have hl := (hok i row hrow).both _ hseen hc hk
      rw [hunlinked] at hl
      cases hl

theorem RequestHeld.sees_keep (h : RequestHeld s q r) {t t' : Rows (Filed α)} {x : Filed α} (hok : RowsOk s t)
    (hx : Sees q t i x) (hk : x.keyed r.key = true) (hq : q ≠ p) (hby : RowsBy c p s t t') : Sees q t' i x :=
  hx.keep (h.family hok hx hk ▸ h.owns) hq hby

theorem keyed_of_isCurrent {x : Filed Holder} (h : isCurrent k x = true) : x.keyed k = true :=
  (Bool.and_eq_true_iff.mp h).1

theorem keyed_of_isActive {x : Filed CaseStatus} (h : isActive k x = true) : x.keyed k = true :=
  (Bool.and_eq_true_iff.mp h).1

theorem Claimed.keep (h : Claimed s q r.key user) (hheld : RequestHeld s q r) (hs : GuardInv s) (hq : q ≠ p)
    (hg : Guards c p s s') : Claimed s' q r.key user := by
  obtain ⟨i, x, hx, hcurrent, huser⟩ := h
  exact ⟨i, x, hheld.sees_keep hs.assignments hx (keyed_of_isCurrent hcurrent) hq hg.assignments, hcurrent, huser⟩

theorem CaseAt.keep (h : CaseAt s q r.key i) (hheld : RequestHeld s q r) (hs : GuardInv s) (hq : q ≠ p)
    (hg : Guards c p s s') : CaseAt s' q r.key i := by
  obtain ⟨x, hx, hactive⟩ := h
  exact ⟨x, hheld.sees_keep hs.cases hx (keyed_of_isActive hactive) hq hg.cases, hactive⟩

/-- `p` files under the contact nothing that somebody else than the user holds. -/
def Undisturbed (p : ℕ) (s : Guarded) (user : ℕ) : Prop :=
  ∀ (i : ℕ) (row : Versioned (Filed Holder)) (x y : Filed Holder), s.assignments[i]? = some row →
    row.pending = some (p, x) → row.committed = some y → y.orphaned = true → isCurrent .contact x = true →
      x.value.assignedTo = user

theorem Cleared.keep (h : Cleared s q r.key user) (hheld : RequestHeld s q r) (hs : GuardInv s) (hq : q ≠ p)
    (hg : Guards c p s s') (hmoved : c → r.key = .contact → Undisturbed p s user) : Cleared s' q r.key user := by
  intro i x hx hcurrent
  rcases sees_cases hx hq hg.assignments with hold | ⟨hc, row, hrow, hp⟩
  · exact h i x hold hcurrent
  · have hok := hs.assignments i row hrow
    have hkeyed := keyed_of_isCurrent hcurrent
    have hother : ¬ s.locks.Owns p r.key := fun hown => hq (hheld.owns.unique hown)
    cases hkey : r.key with
    | contact =>
      rw [hkey] at hother hkeyed hcurrent
      obtain ⟨y, hy, horphan⟩ := hok.orphaned_of_pending hp hkeyed hother
      exact hmoved hc hkey i row x y hrow hp hy horphan hcurrent
    | conversation =>
      rw [hkey] at hother hkeyed
      -- nobody else can have linked the conversation
      have hl : s.linkedFor p = false := by
        have hne : ∀ z, s.conversation.pending ≠ some (p, z) := fun z hz => hother (hs.conversation p z hz).1
        show (s.conversation.seenBy p).any _ = false
        rw [Versioned.seenBy_of_ne hne]
        exact hheld.unlinked hkey
      exact (hok.not_ofConversation hp hkeyed hother hl).elim

theorem Claimed.undisturbed (h : Claimed s q .contact user) (hs : GuardInv s) (hown : s.locks.Owns q .contact)
    (hq : q ≠ p) : Undisturbed p s user := by
  intro i row x y hrow hp hy horphan hcurrent
  obtain ⟨j, z, ⟨row', hrow', hz⟩, hzcurrent, -⟩ := h
  have hzcontact : z.ofContact = true := keyed_of_isCurrent hzcurrent
  by_cases hij : i = j
  · subst hij
    rw [hrow] at hrow'
    obtain rfl := Option.some.inj hrow'
    rw [Versioned.seenBy_of_free (Versioned.free_of_pending hp) hq, hy] at hz
    obtain rfl := Option.some.inj hz
    simp [Filed.orphaned, hzcontact] at horphan
  · have hc := (hs.holders .contact).compatible hrow hrow' hij
    have hwill : row.willBe (isCurrent .contact) = true := (Versioned.willBe_of_pending hp).trans hcurrent
    rcases Versioned.pending_cases q row' with ⟨z', hz'⟩ | hne
    · rw [Versioned.seenBy_of_pending hz'] at hz
      obtain rfl := Option.some.inj hz
      exact absurd ⟨hwill, (Versioned.willBe_of_pending hz').trans hzcurrent⟩ hc.2.1
    · rw [Versioned.seenBy_of_ne hne] at hz
      have howner := hc.2.2.2 hwill (by rw [Versioned.isNow, hz]; exact hzcurrent)
      rw [Versioned.owner_of_pending hp] at howner
      obtain ⟨w, hw⟩ := Versioned.pending_of_owner howner.symm
      have howned := (hs.assignments j row' hrow').owned p w hw
      rw [hz] at howned
      exact absurd (hown.unique (Filed.family_of_contact hzcontact ▸ howned)) hq

theorem AllFiled.keep {t t' : Rows (Filed α)} (h : AllFiled q t) (hown : s.locks.Owns q .conversation)
    (hok : RowsOk s t) (hq : q ≠ p) (hby : RowsBy c p s t t') : AllFiled q t' := by
  intro i x hx
  rcases sees_cases hx hq hby with hold | ⟨-, row, hrow, hp⟩
  · exact h i x hold
  · exact Filed.orphaned_of_contact ((hok i row hrow).ofContact_of_pending hp fun hp => hq (hown.unique hp))

theorem linkedFor_keep (hown : s.locks.Owns q .conversation) (hq : q ≠ p) (hg : Guards c p s s') :
    s'.linkedFor q = s.linkedFor q := by
  show (s'.conversation.seenBy q).any _ = _
  rw [conversation_keep hown hq hg]
  rfl

theorem Linking.keep (h : Linking s q) (hq : q ≠ p) (hg : Guards c p s s') : Linking s' q :=
  ⟨hg.locks q _ hq h.owns, (linkedFor_keep h.owns hq hg).trans h.linked, h.wrote.keep hq hg⟩

theorem AllClean.keep (h : AllClean s q) (hq : q ≠ p) (hg : Guards c p s s') : AllClean s' q :=
  ⟨h.toClean.keep hq hg, unwritten_keep h.assignments hq hg.assignments, unwritten_keep h.cases hq hg.cases⟩

/-- Of a request of the contact family that has looked at the assignment and does not hold it: its user. -/
def GuardRequest.unprotected : GuardRequest → Option ℕ
  | .send .contact user false | .transition .contact user _ => some user
  | _ => none

def GuardStage.unprotected : GuardStage → Option ℕ
  | .claiming .contact user => some user
  | .vacated r | .stamped r _ | .cleared r | .chosen r _ | .written r _ => r.unprotected
  | _ => none

theorem Checked.keep (h : Checked s q r) (hheld : RequestHeld s q r) (hs : GuardInv s) (hq : q ≠ p)
    (hg : Guards c p s s') (hmoved : c → ∀ user ∈ r.unprotected, Undisturbed p s user) : Checked s' q r := by
  cases r with
  | send k user claim =>
    obtain ⟨hcleared, hclaimed⟩ := h
    refine ⟨Cleared.keep (r := .send k user claim) hcleared hheld hs hq hg fun hc hk => ?_, fun hclaim =>
      Claimed.keep (r := .send k user claim) (hclaimed hclaim) hheld hs hq hg⟩
    obtain rfl : k = .contact := hk
    cases claim with
    | false => exact hmoved hc user rfl
    | true => exact (hclaimed rfl).undisturbed hs hheld.owns hq
  | transition k actor kind =>
    refine Cleared.keep (r := .transition k actor kind) h hheld hs hq hg fun hc hk => ?_
    obtain rfl : k = .contact := hk
    exact hmoved hc actor rfl
  | _ => trivial

theorem Checking.keep (h : Checking s q r) (hheld : RequestHeld s q r) (hs : GuardInv s) (hq : q ≠ p)
    (hg : Guards c p s s') (hmoved : c → ∀ user ∈ r.unprotected, Undisturbed p s user) : Checking s' q r := by
  cases r with
  | transition k actor kind => exact Checked.keep (r := .transition k actor kind) h hheld hs hq hg hmoved
  | _ => trivial

theorem WrittenOk.keep {i : Option ℕ} (h : WrittenOk s q i r) (hs : GuardInv s) (hq : q ≠ p)
    (hg : Guards c p s s') (hmoved : c → ∀ user ∈ r.unprotected, Undisturbed p s user) : WrittenOk s' q i r := by
  cases r with
  | send k user claim =>
    obtain ⟨hheld, hchecked, j, hj, hcase⟩ := h
    exact ⟨hheld.keep hq hg, hchecked.keep hheld hs hq hg hmoved, j, hj,
      CaseAt.keep (r := .send k user claim) hcase hheld hs hq hg⟩
  | block b =>
    obtain ⟨hown, hclean, hwrote⟩ := h
    refine ⟨hg.locks q _ hq hown, fun x hx => ?_, hwrote.keep hq hg⟩
    rcases hg.conversation with heq | ⟨-, hp⟩
    · exact hclean x (heq ▸ hx)
    · exact hq (hp q x hx)
  | attach =>
    obtain ⟨hown, hwrote, hall⟩ := h
    refine ⟨hg.locks q _ hq hown, hwrote.keep hq hg, fun hl => ?_⟩
    obtain ⟨ha, hc⟩ := hall ((linkedFor_keep hown hq hg).symm.trans hl)
    exact ⟨ha.keep hown hs.assignments hq hg.assignments, hc.keep hown hs.cases hq hg.cases⟩
  | transition | assign | unassign => exact ⟨h.1.keep hq hg, h.2.keep h.1 hs hq hg hmoved⟩

/-- **The others' assertions stay**, unless an assignment comes to the contact under a request that does not hold it. -/
theorem StageOk.keep {x : GuardStage} (h : StageOk s q x) (hs : GuardInv s) (hq : q ≠ p) (hg : Guards c p s s')
    (hmoved : c → ∀ user ∈ x.unprotected, Undisturbed p s user) : StageOk s' q x := by
  cases x with
  | idle | relock => exact AllClean.keep h hq hg
  | locked r =>
    exact ⟨h.1.keep hq hg, unwritten_keep h.2.1 hq hg.assignments, unwritten_keep h.2.2 hq hg.cases⟩
  | claiming k user =>
    obtain ⟨hheld, hun, hcleared⟩ := h
    refine ⟨hheld.keep hq hg, unwritten_keep hun hq hg.assignments,
      Cleared.keep (r := .send k user true) hcleared hheld hs hq hg fun hc hk => ?_⟩
    obtain rfl : k = .contact := hk
    exact hmoved hc user rfl
  | vacated r => exact ⟨h.1.keep hq hg, h.2.keep h.1 hs hq hg hmoved⟩
  | stamped r bridged =>
    obtain ⟨hheld, hbridged, hchecking⟩ := h
    exact ⟨hheld.keep hq hg, fun hb hk => hg.linked (hbridged hb hk), hchecking.keep hheld hs hq hg hmoved⟩
  | cleared r => exact ⟨h.1.keep hq hg, h.2.keep h.1 hs hq hg hmoved⟩
  | chosen r i =>
    obtain ⟨hheld, hchecked, hcase⟩ := h
    exact ⟨hheld.keep hq hg, hchecked.keep hheld hs hq hg hmoved, hcase.keep hheld hs hq hg⟩
  | linkedUp =>
    exact ⟨h.1.keep hq hg, unwritten_keep h.2.1 hq hg.assignments, unwritten_keep h.2.2 hq hg.cases⟩
  | adopted =>
    obtain ⟨hlinking, hall, hun⟩ := h
    exact ⟨hlinking.keep hq hg, hall.keep hlinking.owns hs.assignments hq hg.assignments,
      unwritten_keep hun hq hg.cases⟩
  | written r i => exact WrittenOk.keep h hs hq hg hmoved

end TeamInbox.Cases
