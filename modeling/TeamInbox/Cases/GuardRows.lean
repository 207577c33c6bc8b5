import TeamInbox.Cases.SendGuard

/-!
# TeamInbox.Cases.GuardRows — who may write a row of a thread

A row that bears the contact is the contact family's, any other the conversation family's: whoever has written it holds
the lock of its family.  `attachWorkflowContact` alone moves rows from one family to the other, and a row of both keys
is there only once the conversation is linked.  `RowsBy` is what a statement of `p` may do to a table, as another
transaction sees it.
-/

namespace TeamInbox.Cases

open TeamInbox.Lib

variable {α : Type}

def Filed.family (x : Filed α) : ThreadKey := if x.ofContact then .contact else .conversation

theorem Filed.family_of_contact {x : Filed α} (h : x.ofContact = true) : x.family = .contact := if_pos h

theorem Filed.family_of_orphan {x : Filed α} (h : x.ofContact = false) : x.family = .conversation :=
  if_neg (Bool.eq_false_iff.mp h)

theorem Filed.orphaned_of_contact {x : Filed α} (h : x.ofContact = true) : x.orphaned = false := by
  simp [orphaned, h]

/-- The conversation is linked, as `p` sees it. -/
def Guarded.linkedFor (p : ℕ) (s : Guarded) : Bool := (s.conversation.seenBy p).any ThreadRow.linked

structure RowOk (s : Guarded) (r : Versioned (Filed α)) : Prop where
  /-- whoever has written the row holds the lock of its family -/
  owned : ∀ q x, r.pending = some (q, x) → s.locks.Owns q (r.committed.getD x).family
  /-- the keys of a row stay, unless it is filed under the contact -/
  kept : ∀ q x y, r.pending = some (q, x) → r.committed = some y → x.ofConversation = y.ofConversation ∧
    (x.ofContact = y.ofContact ∨ y.orphaned = true ∧ x.ofContact = true)
  both : ∀ x, r.committed = some x → x.ofContact = true → x.ofConversation = true → s.linked = true
  bothPending : ∀ q x, r.pending = some (q, x) → x.ofContact = true → x.ofConversation = true → s.linkedFor q = true
  filed : s.linked = true → ∀ x, r.committed = some x ∨ (∃ q, r.pending = some (q, x)) → x.orphaned = false

def RowsOk (s : Guarded) (t : Rows (Filed α)) : Prop := ∀ (i : ℕ) (r : Versioned (Filed α)), t[i]? = some r → RowOk s r

/-- What a statement of `p`, or its commit if `c`, does to a row. -/
def RowBy (c : Prop) (p : ℕ) (s : Guarded) (o o' : Option (Versioned (Filed α))) : Prop :=
  ∃ r', o' = some r' ∧ (∀ q x, r'.pending = some (q, x) → q = p) ∧
    (o = none ∧ r'.committed = none ∨ ∃ r, o = some r ∧ r.free p = true ∧
      (∀ x, r.committed = some x → s.locks.Owns p x.family) ∧
        (r'.committed = r.committed ∨ c ∧ ∃ x, r.pending = some (p, x) ∧ r'.committed = some x))

def RowsBy (c : Prop) (p : ℕ) (s : Guarded) (t t' : Rows (Filed α)) : Prop :=
  ∀ i : ℕ, t'[i]? = t[i]? ∨ RowBy c p s t[i]? t'[i]?

/-- `p` sees the version at the place. -/
def Sees (p : ℕ) (t : Rows (Filed α)) (i : ℕ) (x : Filed α) : Prop := ∃ r, t[i]? = some r ∧ r.seenBy p = some x

variable {c : Prop} {p q : ℕ} {s s' : Guarded} {t t' : Rows (Filed α)} {r : Versioned (Filed α)} {x : Filed α} {i : ℕ}

theorem rowsBy_refl : RowsBy c p s t t := fun _ => .inl rfl

theorem Sees.keep (h : Sees q t i x) (hown : s.locks.Owns q x.family) (hq : q ≠ p) (hby : RowsBy c p s t t') :
    Sees q t' i x := by
  obtain ⟨r, hr, hx⟩ := h
  rcases hby i with heq | ⟨r', -, -, hold⟩
  · exact ⟨r, heq.trans hr, hx⟩
  · rcases hold with ⟨hnone, -⟩ | ⟨r₁, hr₁, hfree, howns, -⟩
    · rw [hr] at hnone
      cases hnone
    · rw [hr] at hr₁
      obtain rfl := Option.some.inj hr₁
      rw [Versioned.seenBy_of_free hfree hq] at hx
      exact absurd (hown.unique (howns x hx)) hq

theorem sees_cases (h : Sees q t' i x) (hq : q ≠ p) (hby : RowsBy c p s t t') :
    Sees q t i x ∨ c ∧ ∃ r, t[i]? = some r ∧ r.pending = some (p, x) := by
  obtain ⟨r', hr', hx⟩ := h
  rcases hby i with heq | ⟨r₁, hr₁, hpending, hold⟩
  · exact .inl ⟨r', heq ▸ hr', hx⟩
  · rw [hr'] at hr₁
    obtain rfl := Option.some.inj hr₁
    rw [Versioned.seenBy_of_ne fun y hy => hq (hpending q y hy)] at hx
    rcases hold with ⟨-, hnone⟩ | ⟨r, hr, hfree, -, hsame | ⟨hc, y, hy, hcommitted⟩⟩
    · rw [hx] at hnone
      cases hnone
    · exact .inl ⟨r, hr, by rw [Versioned.seenBy_of_free hfree hq, ← hsame, hx]⟩
    · rw [hx] at hcommitted
      obtain rfl := Option.some.inj hcommitted
      exact .inr ⟨hc, r, hr, hy⟩

/-! ### What the locks say of a row that is being written -/

theorem RowOk.ofContact_of_pending (h : RowOk s r) (hp : r.pending = some (p, x))
    (hown : ¬ s.locks.Owns p .conversation) : x.ofContact = true := by
  have howned := h.owned p x hp
  cases hc : r.committed with
  | none =>
    rw [hc] at howned
    by_contra hx
    exact hown (Filed.family_of_orphan (Bool.eq_false_iff.mpr hx) ▸ howned)
  | some y =>
    rw [hc] at howned
    have hy : y.ofContact = true := by
      by_contra hy
      exact hown (Filed.family_of_orphan (Bool.eq_false_iff.mpr hy) ▸ howned)
    rcases (h.kept p x y hp hc).2 with heq | ⟨-, hx⟩
    · exact heq.trans hy
    · exact hx

theorem RowOk.orphaned_of_pending (h : RowOk s r) (hp : r.pending = some (p, x)) (hx : x.ofContact = true)
    (hown : ¬ s.locks.Owns p .contact) : ∃ y, r.committed = some y ∧ y.orphaned = true := by
  have howned := h.owned p x hp
  cases hc : r.committed with
  | none =>
    rw [hc] at howned
    exact absurd (Filed.family_of_contact hx ▸ howned) hown
  | some y =>
    rw [hc] at howned
    rcases (h.kept p x y hp hc).2 with heq | ⟨horphan, -⟩
    · exact absurd (Filed.family_of_contact (heq.symm.trans hx) ▸ howned) hown
    · exact ⟨y, rfl, horphan⟩

theorem RowOk.not_ofConversation (h : RowOk s r) (hp : r.pending = some (p, x)) (hx : x.ofConversation = true)
    (hown : ¬ s.locks.Owns p .conversation) (hlinked : s.linkedFor p = false) : False := by
  have hcontact := h.ofContact_of_pending hp hown
  rw [h.bothPending p x hp hcontact hx] at hlinked
  cases hlinked

theorem RowOk.clean (hp : r.pending = none)
    (hboth : ∀ x, r.committed = some x → x.ofContact = true → x.ofConversation = true → s.linked = true)
    (hfiled : s.linked = true → ∀ x, r.committed = some x → x.orphaned = false) : RowOk s r := by
  have hne : ∀ q x, r.pending ≠ some (q, x) := fun q x h => by simp [hp] at h
  refine ⟨fun q x h => absurd h (hne q x), fun q x _ h => absurd h (hne q x), hboth, fun q x h => absurd h (hne q x), ?_⟩
  rintro hlinked x (hc | ⟨q, h⟩)
  · exact hfiled hlinked x hc
  · exact absurd h (hne q x)

theorem RowOk.mono (h : RowOk s r)
    (hlocks : ∀ q x k, r.pending = some (q, x) → s.locks.Owns q k → s'.locks.Owns q k)
    (hlinked : s.linked = true → s'.linked = true)
    (hfor : ∀ q x, r.pending = some (q, x) → s.linkedFor q = true → s'.linkedFor q = true)
    (hfiled : s'.linked = true → s.linked = true ∨
      ∀ x, r.committed = some x ∨ (∃ q, r.pending = some (q, x)) → x.orphaned = false) : RowOk s' r where
  owned q x hp := hlocks q x _ hp (h.owned q x hp)
  kept := h.kept
  both x hx hcontact hconversation := hlinked (h.both x hx hcontact hconversation)
  bothPending q x hp hcontact hconversation := hfor q x hp (h.bothPending q x hp hcontact hconversation)
  filed hs' x hx := by
    rcases hfiled hs' with hs | hall
    · exact h.filed hs x hx
    · exact hall x hx

/-! ### Statements -/

/-- The rows a statement writes are `p`'s to write: it has the lock of their family. -/
def MayWrite (p : ℕ) (s : Guarded) (t : Rows (Filed α)) (m : ℕ → Filed α → Bool) : Prop :=
  ∀ (i : ℕ) (r : Versioned (Filed α)) (x : Filed α), t[i]? = some r → r.seenBy p = some x → m i x = true →
    r.free p = true → s.locks.Owns p (r.committed.getD x).family

theorem rowsBy_update {m : ℕ → Filed α → Bool} {f : Filed α → Filed α} (h : t.update p m f = some t')
    (hmay : MayWrite p s t m) : RowsBy c p s t t' := by
  intro i
  rcases Rows.update_row h i with heq | ⟨r, x, hr, hx, hm, hfree, heq⟩
  · exact .inl heq
  · refine .inr ⟨r.write p (f x), heq, fun q y hy => ?_, .inr ⟨r, hr, hfree, fun y hy => ?_, .inl rfl⟩⟩
    · exact (congrArg Prod.fst (Option.some.inj hy)).symm
    · have hown := hmay i r x hr hx hm hfree
      rw [hy] at hown
      exact hown

theorem rowsBy_insert : RowsBy c p s t (t.insert p x) := by
  intro i
  rcases Rows.insert_row (p := p) (t := t) (x := x) i with heq | ⟨hnone, heq⟩
  · exact .inl heq
  · refine .inr ⟨_, heq, fun q y hy => ?_, .inl ⟨hnone, rfl⟩⟩
    exact (congrArg Prod.fst (Option.some.inj hy)).symm

theorem RowsOk.owns_committed (h : RowsOk s t) {y : Filed α} (hr : t[i]? = some r) (hp : r.pending = some (p, x))
    (hc : r.committed = some y) : s.locks.Owns p y.family := by
  have howned := (h i r hr).owned p x hp
  rw [hc] at howned
  exact howned

theorem rowsBy_commit (h : RowsOk s t) : RowsBy True p s t (t.commit p) := by
  intro i
  rw [Rows.commit_row]
  cases hr : t[i]? with
  | none => exact .inl rfl
  | some r =>
    rcases Versioned.pending_cases p r with ⟨x, hx⟩ | hne
    · refine .inr ⟨r.commit p, rfl, fun q y hy => ?_,
        .inr ⟨r, rfl, Versioned.free_of_pending hx, fun y hy => h.owns_committed hr hx hy, .inr ⟨trivial, x, hx, ?_⟩⟩⟩
      · rw [Versioned.commit_of_pending hx] at hy
        cases hy
      · rw [Versioned.commit_of_pending hx]
    · exact .inl (congrArg some (Versioned.commit_of_ne hne))

theorem rowsBy_rollback (h : RowsOk s t) : RowsBy c p s t (t.rollback p) := by
  intro i
  rw [Rows.rollback_row]
  cases hr : t[i]? with
  | none => exact .inl rfl
  | some r =>
    rcases Versioned.pending_cases p r with ⟨x, hx⟩ | hne
    · refine .inr ⟨r.rollback p, rfl, fun q y hy => ?_,
        .inr ⟨r, rfl, Versioned.free_of_pending hx, fun y hy => h.owns_committed hr hx hy, .inl ?_⟩⟩
      · rw [Versioned.rollback_of_pending hx] at hy
        cases hy
      · rw [Versioned.rollback_of_pending hx]
    · exact .inl (congrArg some (Versioned.rollback_of_ne hne))

theorem RowOk.write {f : Filed α → Filed α} (h : RowOk s r) (hx : r.seenBy p = some x)
    (hown : s.locks.Owns p (r.committed.getD x).family) (hfor : s.linked = true → s.linkedFor p = true)
    (hconversation : (f x).ofConversation = x.ofConversation)
    (hcontact : (f x).ofContact = x.ofContact ∨
      r.committed = some x ∧ x.orphaned = true ∧ (f x).ofContact = true ∧ s.linkedFor p = true) :
    RowOk s (r.write p (f x)) := by
  -- the version seen is the pending one of `p`, or the committed one
  have hseen : r.pending = some (p, x) ∨ r.committed = some x := by
    rcases Versioned.pending_cases p r with ⟨y, hy⟩ | hne
    · rw [Versioned.seenBy_of_pending hy] at hx
      exact .inl (hy.trans (by rw [Option.some.inj hx]))
    · rw [Versioned.seenBy_of_ne hne] at hx
      exact .inr hx
  refine ⟨fun q z hz => ?_, fun q z y hz hy => ?_, h.both, fun q z hz hzc hzv => ?_, fun hlinked z hz => ?_⟩
  · obtain ⟨rfl, rfl⟩ := Prod.mk.inj (Option.some.inj hz)
    show s.locks.Owns p (r.committed.getD (f x)).family
    cases hc : r.committed with
    | some y =>
      rw [hc] at hown
      exact hown
    | none =>
      rw [hc] at hown
      have hkeep := hcontact.resolve_right fun hadopt => by
        rw [hc] at hadopt
        cases hadopt.1
      show s.locks.Owns p (if (f x).ofContact then .contact else .conversation)
      rw [hkeep]
      exact hown
  · have hy : r.committed = some y := hy
    obtain ⟨rfl, rfl⟩ := Prod.mk.inj (Option.some.inj hz)
    rcases hseen with hp | hc
    · obtain ⟨hv, hkeys⟩ := h.kept p x y hp hy
      refine ⟨hconversation.trans hv, ?_⟩
      rcases hcontact with hsame | ⟨hc, horphan, hset, -⟩
      · rw [hsame]
        exact hkeys
      · rw [hc] at hy
        exact .inr ⟨Option.some.inj hy ▸ horphan, hset⟩
    · rw [hc] at hy
      obtain rfl := Option.some.inj hy
      exact ⟨hconversation, hcontact.imp_right fun hadopt => ⟨hadopt.2.1, hadopt.2.2.1⟩⟩
  · obtain ⟨rfl, rfl⟩ := Prod.mk.inj (Option.some.inj hz)
    rcases hcontact with hsame | hadopt
    · rw [hsame] at hzc
      rw [hconversation] at hzv
      rcases hseen with hp | hc
      · exact h.bothPending p x hp hzc hzv
      · exact hfor (h.both x hc hzc hzv)
    · exact hadopt.2.2.2
  · rcases hz with hc | ⟨q, hz⟩
    · exact h.filed hlinked z (.inl hc)
    · obtain ⟨rfl, rfl⟩ := Prod.mk.inj (Option.some.inj hz)
      rcases hcontact with hsame | hadopt
      · have hx := h.filed hlinked x (hseen.symm.imp_right fun hp => ⟨p, hp⟩)
        show ((f x).ofConversation && !(f x).ofContact) = false
        rw [hsame, hconversation]
        exact hx
      · exact Filed.orphaned_of_contact hadopt.2.2.1

theorem rowsOk_update {m : ℕ → Filed α → Bool} {f : Filed α → Filed α} (h : RowsOk s t)
    (hup : t.update p m f = some t') (hmay : MayWrite p s t m) (hfor : s.linked = true → s.linkedFor p = true)
    (hconversation : ∀ x, (f x).ofConversation = x.ofConversation)
    (hcontact : ∀ (i : ℕ) (r : Versioned (Filed α)) (x : Filed α), t[i]? = some r → r.seenBy p = some x →
      m i x = true → r.free p = true → (f x).ofContact = x.ofContact ∨
        r.committed = some x ∧ x.orphaned = true ∧ (f x).ofContact = true ∧ s.linkedFor p = true) : RowsOk s t' := by
  intro i r' hr'
  rcases Rows.update_row hup i with heq | ⟨r, x, hr, hx, hm, hfree, heq⟩
  · exact h i r' (heq ▸ hr')
  · rw [heq] at hr'
    obtain rfl := Option.some.inj hr'
    exact (h i r hr).write hx (hmay i r x hr hx hm hfree) hfor (hconversation x) (hcontact i r x hr hx hm hfree)

theorem rowsOk_insert (h : RowsOk s t) (hown : s.locks.Owns p x.family)
    (hboth : x.ofContact = true → x.ofConversation = true → s.linkedFor p = true)
    (hfiled : s.linked = true → x.orphaned = false) : RowsOk s (t.insert p x) := by
  intro i r' hr'
  rcases Rows.insert_row (p := p) (t := t) (x := x) i with heq | ⟨-, heq⟩
  · exact h i r' (heq ▸ hr')
  · rw [heq] at hr'
    obtain rfl := Option.some.inj hr'
    refine ⟨fun q z hz => ?_, fun _ _ _ _ hy => absurd hy.symm (Option.some_ne_none _),
      fun _ hy => absurd hy.symm (Option.some_ne_none _), fun q z hz hc hv => ?_, fun hlinked z hz => ?_⟩
    · obtain ⟨rfl, rfl⟩ := Prod.mk.inj (Option.some.inj hz)
      exact hown
    · obtain ⟨rfl, rfl⟩ := Prod.mk.inj (Option.some.inj hz)
      exact hboth hc hv
    · rcases hz with hz | ⟨q, hz⟩
      · cases hz
      · obtain ⟨rfl, rfl⟩ := Prod.mk.inj (Option.some.inj hz)
        exact hfiled hlinked

theorem linked_commit : (s.commit p).linked = s.linkedFor p := congrArg (Option.any _) Versioned.committed_commit

theorem rowsOk_commit (h : RowsOk s t) (hfor : s.linked = true → s.linkedFor p = true)
    (hseen : ∀ q, q ≠ p → s.linkedFor q = true → (s.commit p).linkedFor q = true)
    (hnew : s.linkedFor p = true → s.linked = true ∨
      s.locks.Owns p .conversation ∧ ∀ i x, Sees p t i x → x.orphaned = false) :
    RowsOk (s.commit p) (t.commit p) := by
  intro i r' hr'
  rw [Rows.commit_row] at hr'
  obtain ⟨r, hr, rfl⟩ := Option.map_eq_some_iff.mp hr'
  have hok := h i r hr
  rcases Versioned.pending_cases p r with ⟨x, hx⟩ | hne
  · rw [Versioned.commit_of_pending hx]
    refine .clean rfl (fun y hy hc hv => ?_) fun hlinked y hy => ?_
    · obtain rfl := Option.some.inj hy
      exact linked_commit.trans (hok.bothPending p x hx hc hv)
    · obtain rfl := Option.some.inj hy
      rcases hnew (linked_commit.symm.trans hlinked) with hold | ⟨-, hall⟩
      · exact hok.filed hold x (.inr ⟨p, hx⟩)
      · exact hall i x ⟨r, hr, Versioned.seenBy_of_pending hx⟩
  · rw [Versioned.commit_of_ne hne]
    have hother : ∀ q x, r.pending = some (q, x) → q ≠ p := by
      rintro q x hx rfl
      exact hne x hx
    refine hok.mono (fun q x k hx hown => (Locks.owns_release (hother q x hx)).mpr hown)
      (fun hlinked => linked_commit.trans (hfor hlinked)) (fun q x hx => hseen q (hother q x hx)) fun hlinked => ?_
    refine (hnew (linked_commit.symm.trans hlinked)).imp_right ?_
    rintro ⟨hown, hall⟩ x (hc | ⟨q, hx⟩)
    · exact hall i x ⟨r, hr, by rw [Versioned.seenBy_of_ne hne, hc]⟩
    · exact Filed.orphaned_of_contact (hok.ofContact_of_pending hx fun hq => hother q x hx (hq.unique hown))

theorem linked_rollback : (s.rollback p).linked = s.linked := Versioned.isNow_rollback

theorem rowsOk_rollback (h : RowsOk s t) (hseen : ∀ q, q ≠ p → s.linkedFor q = true → (s.rollback p).linkedFor q = true) :
    RowsOk (s.rollback p) (t.rollback p) := by
  intro i r' hr'
  rw [Rows.rollback_row] at hr'
  obtain ⟨r, hr, rfl⟩ := Option.map_eq_some_iff.mp hr'
  have hok := h i r hr
  have hlinked : (s.rollback p).linked = s.linked := linked_rollback
  rcases Versioned.pending_cases p r with ⟨x, hx⟩ | hne
  · rw [Versioned.rollback_of_pending hx]
    exact .clean rfl (fun y hy hc hv => hlinked.trans (hok.both y hy hc hv)) fun hl y hy =>
      hok.filed (hlinked.symm.trans hl) y (.inl hy)
  · rw [Versioned.rollback_of_ne hne]
    have hother : ∀ q x, r.pending = some (q, x) → q ≠ p := by
      rintro q x hx rfl
      exact hne x hx
    exact hok.mono (fun q x k hx hown => (Locks.owns_release (hother q x hx)).mpr hown) hlinked.trans
      (fun q x hx => hseen q (hother q x hx)) fun hl => .inl (hlinked.symm.trans hl)

end TeamInbox.Cases
