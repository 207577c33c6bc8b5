import TeamInbox.Auth.Service
import Mathlib.Data.List.Nodup

/-!
# TeamInbox.Auth.TokenBinding — an emailed token is good for the address it was mailed to

A token names a user and not an address.  What binds it is that the outstanding tokens are of the user's present
address, and so are those that a call is about to issue; an email change has to see to both.
-/

namespace TeamInbox.Auth

open TeamInbox.Lib

variable {Hash Address : Type}

/-! ### What is claimed -/

/-- A token that has been redeemed was mailed to the address of that time and to no other, and is redeemed once. -/
structure BoundToAddress (s : AuthDb Hash Address) : Prop where
  bound : ∀ x ∈ s.redeemed, x ∈ s.mailed
  oneAddress : ∀ t e e', (t, e) ∈ s.mailed → (t, e') ∈ s.mailed → e = e'
  once : (s.redeemed.map Prod.fst).Nodup

/-- The reset tokens that could be redeemed now are for the address. -/
def ResetTokensFor (e : Address) (s : AuthDb Hash Address) : Prop :=
  ∀ t ∈ s.tokens, t.type = .passwordReset → t.usedAt = none → s.now < t.expiresAt → (t.token, e) ∈ s.issued

instance [DecidableEq Address] (e : Address) (s : AuthDb Hash Address) : Decidable (ResetTokensFor e s) :=
  inferInstanceAs (Decidable (∀ t ∈ s.tokens, t.type = .passwordReset → t.usedAt = none → s.now < t.expiresAt →
    (t.token, e) ∈ s.issued))

/-- The address a call has read and is about to issue a token for. -/
def AuthCall.readAddress : AuthCall Hash Address → Option Address
  | .resending e | .resendCleared e | .forgetting e | .forgetCleared e => some e
  | _ => none

/-- The new address of an email change that is about to be committed. -/
def AuthCall.newAddress : AuthCall Hash Address → Option Address
  | .updating e => e
  | _ => none

/-- An email change leaves no reset token of another address. -/
def LeavesNoReset (s : Calls (AuthDb Hash Address) (AuthCall Hash Address)) :
    CallAction (AuthAction Address) Elapse → Prop
  | .act p .next => ∀ e ∈ (s.calls p).newAddress, ResetTokensFor e s.shared
  | _ => True

/-- No call is about to issue a token for another address when the address changes. -/
def OvertakesNoIssue (s : Calls (AuthDb Hash Address) (AuthCall Hash Address)) :
    CallAction (AuthAction Address) Elapse → Prop
  | .act p .next => ∀ e ∈ (s.calls p).newAddress, ∀ q, ∀ e' ∈ (s.calls q).readAddress, e' = e
  | _ => True

def ChangesAlone (s : Calls (AuthDb Hash Address) (AuthCall Hash Address))
    (a : CallAction (AuthAction Address) Elapse) : Prop := LeavesNoReset s a ∧ OvertakesNoIssue s a

instance [DecidableEq Address] (s : Calls (AuthDb Hash Address) (AuthCall Hash Address))
    (a : CallAction (AuthAction Address) Elapse) : Decidable (LeavesNoReset s a) :=
  match a with
  | .act p .next => inferInstanceAs (Decidable (∀ e ∈ (s.calls p).newAddress, ResetTokensFor e s.shared))
  | .act _ (.register ..) | .act _ (.login ..) | .act _ (.verifyEmail _) | .act _ (.resendVerification ..)
  | .act _ (.forgotPassword _) | .act _ (.resetPassword ..) | .act _ (.updateProfile ..)
  | .act _ (.changePassword ..) | .act _ (.refreshSession ..) | .act _ (.revokeSession _) | .act _ (.mail _)
  | .act _ .fail | .env _ => .isTrue trivial

/-! ### The invariant -/

def AuthDb.email (s : AuthDb Hash Address) : Option Address := s.user.map User.email

/-- The tokens that could be redeemed now are for the user's address. -/
structure TokenInv (s : AuthDb Hash Address) : Prop where
  issuedOld : ∀ x ∈ s.issued, x.1 < s.fresh
  issuedOnce : (s.issued.map Prod.fst).Nodup
  rowsOld : ∀ t ∈ s.tokens, t.token < s.fresh
  rowsOnce : (s.tokens.map AuthToken.token).Nodup
  mailedIssued : ∀ x ∈ s.mailed, x ∈ s.issued
  redeemedMailed : ∀ x ∈ s.redeemed, x ∈ s.mailed
  redeemedOnce : (s.redeemed.map Prod.fst).Nodup
  redeemedUsed : ∀ x ∈ s.redeemed, ∀ t ∈ s.tokens, t.token = x.1 → t.usedAt ≠ none
  live : ∀ t ∈ s.tokens, t.usedAt = none → s.now < t.expiresAt → ∀ e ∈ s.email, (t.token, e) ∈ s.issued
  unregistered : s.email = none → s.tokens = []

def CallOk (s : AuthDb Hash Address) : AuthCall Hash Address → Prop
  | .resending e | .resendCleared e | .forgetting e | .forgetCleared e => s.email = some e
  | .mailing token e _ => (token, e) ∈ s.issued
  | _ => True

structure Kept (s w : AuthDb Hash Address) : Prop where
  issued : ∀ x ∈ s.issued, x ∈ w.issued
  email : ∀ e, s.email = some e → w.email = some e

theorem Kept.callOk {s w : AuthDb Hash Address} (h : Kept s w) {x : AuthCall Hash Address} (hx : CallOk s x) :
    CallOk w x := by
  cases x with
  | resending e | resendCleared e | forgetting e | forgetCleared e => exact h.email e hx
  | mailing token e type => exact h.issued _ hx
  | idle | registering | updating | discarding | loginUnverified | loggingIn | changing => trivial

structure TokenFrame (s w : AuthDb Hash Address) : Prop where
  tokens : w.tokens.Sublist s.tokens
  issued : w.issued = s.issued
  mailed : w.mailed = s.mailed
  redeemed : w.redeemed = s.redeemed
  email : w.email = s.email
  fresh : s.fresh ≤ w.fresh
  now : s.now ≤ w.now

theorem TokenFrame.rfl {s : AuthDb Hash Address} : TokenFrame s s :=
  ⟨List.Sublist.refl _, Eq.refl _, Eq.refl _, Eq.refl _, Eq.refl _, Nat.le_refl _, Nat.le_refl _⟩

theorem TokenFrame.kept {s w : AuthDb Hash Address} (h : TokenFrame s w) : Kept s w :=
  ⟨fun x hx => by rw [h.issued]; exact hx, fun e he => by rw [h.email]; exact he⟩

theorem TokenInv.frame {s w : AuthDb Hash Address} (hI : TokenInv s) (h : TokenFrame s w) : TokenInv w where
  issuedOld := fun x hx => by
    rw [h.issued] at hx
    exact Nat.lt_of_lt_of_le (hI.issuedOld x hx) h.fresh
  issuedOnce := by
    rw [h.issued]
    exact hI.issuedOnce
  rowsOld := fun t ht => Nat.lt_of_lt_of_le (hI.rowsOld t (h.tokens.subset ht)) h.fresh
  rowsOnce := (h.tokens.map _).nodup hI.rowsOnce
  mailedIssued := fun x hx => by
    rw [h.mailed] at hx
    rw [h.issued]
    exact hI.mailedIssued x hx
  redeemedMailed := fun x hx => by
    rw [h.redeemed] at hx
    rw [h.mailed]
    exact hI.redeemedMailed x hx
  redeemedOnce := by
    rw [h.redeemed]
    exact hI.redeemedOnce
  redeemedUsed := fun x hx t ht => by
    rw [h.redeemed] at hx
    exact hI.redeemedUsed x hx t (h.tokens.subset ht)
  live := fun t ht hused hnow e he => by
    rw [h.email] at he
    rw [h.issued]
    exact hI.live t (h.tokens.subset ht) hused (Nat.lt_of_le_of_lt h.now hnow) e he
  unregistered := fun hnone => by
    rw [h.email] at hnone
    have hempty : s.tokens = [] := hI.unregistered hnone
    exact List.sublist_nil.mp (hempty ▸ h.tokens)

theorem TokenInv.boundToAddress {s : AuthDb Hash Address} (hI : TokenInv s) : BoundToAddress s where
  bound := hI.redeemedMailed
  oneAddress := fun t e e' he he' => by
    have hpair : ((t, e) : ℕ × Address) = (t, e') :=
      List.inj_on_of_nodup_map hI.issuedOnce (hI.mailedIssued _ he) (hI.mailedIssued _ he') rfl
    exact (Prod.mk.inj hpair).2
  once := hI.redeemedOnce

/-! ### The operations -/

section Operations

variable {s : AuthDb Hash Address}

theorem clearTokens_frame (s : AuthDb Hash Address) (type : AuthTokenType) (all : Bool) :
    TokenFrame s (s.clearTokens type all) :=
  ⟨List.filter_sublist, rfl, rfl, rfl, rfl, Nat.le_refl _, Nat.le_refl _⟩

theorem discardAuthToken_frame (s : AuthDb Hash Address) (token : ℕ) : TokenFrame s (s.discardAuthToken token) :=
  ⟨List.filter_sublist, rfl, rfl, rfl, rfl, Nat.le_refl _, Nat.le_refl _⟩

theorem deleteSessions_frame (s : AuthDb Hash Address) (keep : Option ℕ) : TokenFrame s (s.deleteSessions keep) :=
  ⟨List.Sublist.refl _, rfl, rfl, rfl, rfl, Nat.le_refl _, Nat.le_refl _⟩

theorem setPassword_frame {u : User Hash Address} (hu : s.user = some u) (hash : Hash) (session : Option ℕ) :
    TokenFrame s (s.setPassword u hash session) := by
  refine ⟨List.Sublist.refl _, rfl, rfl, rfl, ?_, Nat.le_refl _, Nat.le_refl _⟩
  show some u.email = s.user.map User.email
  rw [hu]
  rfl

theorem changeWrite_frame (s : AuthDb Hash Address) (hash : Hash) (session : ℕ) :
    TokenFrame s (s.changeWrite hash session) := by
  unfold AuthDb.changeWrite
  split
  · exact .rfl
  · next u hu =>
    have hset : TokenFrame s (s.setPassword u hash (some session)) := setPassword_frame hu hash _
    exact ⟨hset.tokens, hset.issued, hset.mailed, hset.redeemed, hset.email, hset.fresh, hset.now⟩

theorem loginCreate_frame (E : AuthEnv Hash) (s : AuthDb Hash Address) (version : ℕ) :
    TokenFrame s (s.loginCreate E version) := by
  unfold AuthDb.loginCreate
  split
  · exact .rfl
  · split
    · exact deleteSessions_frame s none
    · exact ⟨List.Sublist.refl _, rfl, rfl, rfl, rfl, Nat.le_add_right _ _, Nat.le_refl _⟩

theorem refreshSession_frame (E : AuthEnv Hash) (s : AuthDb Hash Address) (session hash : ℕ) :
    TokenFrame s (s.refreshSession E session hash) := by
  unfold AuthDb.refreshSession
  split
  · split_ifs
    · exact ⟨List.Sublist.refl _, rfl, rfl, rfl, rfl, Nat.le_refl _, Nat.le_refl _⟩
    · exact ⟨List.Sublist.refl _, rfl, rfl, rfl, rfl, Nat.le_add_right _ _, Nat.le_refl _⟩
    · exact .rfl
  · exact .rfl

theorem TokenInv.insertToken (hI : TokenInv s) {e : Address} (he : s.email = some e) (type : AuthTokenType) :
    TokenInv (s.insertToken type e) where
  issuedOld := fun x hx => by
    rcases List.mem_cons.mp hx with rfl | hx
    · exact Nat.lt_succ_self _
    · exact Nat.lt_succ_of_lt (hI.issuedOld x hx)
  issuedOnce := by
    refine List.nodup_cons.mpr ⟨fun h => ?_, hI.issuedOnce⟩
    obtain ⟨x, hx, hfresh⟩ := List.mem_map.mp h
    exact absurd (hI.issuedOld x hx) (by rw [hfresh]; exact Nat.lt_irrefl _)
  rowsOld := fun t ht => by
    rcases List.mem_cons.mp ht with rfl | ht
    · exact Nat.lt_succ_self _
    · exact Nat.lt_succ_of_lt (hI.rowsOld t ht)
  rowsOnce := by
    refine List.nodup_cons.mpr ⟨fun h => ?_, hI.rowsOnce⟩
    obtain ⟨t, ht, hfresh⟩ := List.mem_map.mp h
    exact absurd (hI.rowsOld t ht) (by rw [hfresh]; exact Nat.lt_irrefl _)
  mailedIssued := fun x hx => List.mem_cons_of_mem _ (hI.mailedIssued x hx)
  redeemedMailed := hI.redeemedMailed
  redeemedOnce := hI.redeemedOnce
  redeemedUsed := fun x hx t ht hx1 => by
    rcases List.mem_cons.mp ht with rfl | ht
    · have hold : x.1 < s.fresh := hI.issuedOld x (hI.mailedIssued x (hI.redeemedMailed x hx))
      exact absurd hold (by rw [← hx1]; exact Nat.lt_irrefl _)
    · exact hI.redeemedUsed x hx t ht hx1
  live := fun t ht hused hnow e' he' => by
    have heq : e' = e := Option.some.inj (he'.symm.trans he)
    rcases List.mem_cons.mp ht with rfl | ht
    · rw [heq]
      exact List.mem_cons_self
    · exact List.mem_cons_of_mem _ (hI.live t ht hused hnow e' he')
  unregistered := fun hnone => absurd (he.symm.trans hnone) (Option.some_ne_none e)

theorem insertToken_kept (s : AuthDb Hash Address) (type : AuthTokenType) (e : Address) :
    Kept s (s.insertToken type e) :=
  ⟨fun _ hx => List.mem_cons_of_mem _ hx, fun _ h => h⟩

theorem TokenInv.readdress (hI : TokenInv s) (u : User Hash Address) (h : ∀ t ∈ s.tokens, t.usedAt = none →
    s.now < t.expiresAt → (t.token, u.email) ∈ s.issued) : TokenInv { s with user := some u } where
  issuedOld := hI.issuedOld
  issuedOnce := hI.issuedOnce
  rowsOld := hI.rowsOld
  rowsOnce := hI.rowsOnce
  mailedIssued := hI.mailedIssued
  redeemedMailed := hI.redeemedMailed
  redeemedOnce := hI.redeemedOnce
  redeemedUsed := hI.redeemedUsed
  live := fun t ht hused hnow e he => by
    obtain rfl : u.email = e := Option.some.inj he
    exact h t ht hused hnow
  unregistered := fun hnone => absurd hnone (Option.some_ne_none u.email)

theorem mem_clearTokens {type : AuthTokenType} {t : AuthToken} (h : t ∈ (s.clearTokens type true).tokens) :
    t ∈ s.tokens ∧ t.type ≠ type := by
  obtain ⟨ht, hkeep⟩ := List.mem_filter.mp h
  refine ⟨ht, ?_⟩
  simpa using hkeep

theorem TokenInv.issueFor (hI : TokenInv s) (u : User Hash Address) (h : ResetTokensFor u.email s) :
    TokenInv (({ s with user := some u } : AuthDb Hash Address).issueAuthToken .emailVerification u.email) := by
  have hcleared : TokenInv (s.clearTokens .emailVerification true) := hI.frame (clearTokens_frame s _ _)
  refine TokenInv.insertToken (s := { s.clearTokens .emailVerification true with user := some u }) ?_ rfl _
  refine hcleared.readdress u fun t ht hused hnow => ?_
  obtain ⟨ht, htype⟩ := mem_clearTokens ht
  refine h t ht ?_ hused hnow
  cases hty : t.type with
  | emailVerification => exact absurd hty htype
  | passwordReset => rfl

theorem TokenInv.redeem (hI : TokenInv s) {u : User Hash Address} (hu : s.user = some u) {token : ℕ}
    (hmailed : token ∈ s.mailed.map Prod.fst) {type : AuthTokenType} (hstored : s.stored token type = true)
    {f : AuthToken → AuthToken} (hrow : ∀ t, (f t).token = t.token ∧ (f t).expiresAt = t.expiresAt)
    (hkeep : ∀ t, t.usedAt ≠ none → (f t).usedAt ≠ none)
    (huse : ∀ t, t.token = token → t.type = type → (f t).usedAt ≠ none) {u' : User Hash Address}
    (hu' : u'.email = u.email) :
    TokenInv { s with
      user := some u'
      tokens := s.tokens.map f
      redeemed := (token, u.email) :: s.redeemed } := by
  obtain ⟨r, hr, hr'⟩ := List.any_eq_true.mp hstored
  simp only [Bool.and_eq_true, decide_eq_true_eq, Option.isNone_iff_eq_none] at hr'
  obtain ⟨⟨⟨htoken, htype⟩, hunused⟩, hnow⟩ := hr'
  have hemail : s.email = some u.email := by
    show s.user.map User.email = _
    rw [hu]
    rfl
  have hissued : (token, u.email) ∈ s.issued := htoken ▸ hI.live r hr hunused hnow _ hemail
  have hboth : (token, u.email) ∈ s.mailed := by
    obtain ⟨⟨t, e⟩, hmem, rfl⟩ := List.mem_map.mp hmailed
    have hpair : ((t, e) : ℕ × Address) = (t, u.email) :=
      List.inj_on_of_nodup_map hI.issuedOnce (hI.mailedIssued _ hmem) hissued rfl
    exact hpair ▸ hmem
  have hnew : token ∉ s.redeemed.map Prod.fst := by
    intro h
    obtain ⟨x, hx, hx1⟩ := List.mem_map.mp h
    exact hI.redeemedUsed x hx r hr (htoken.trans hx1.symm) hunused
  have htokens : (s.tokens.map f).map AuthToken.token = s.tokens.map AuthToken.token := by
    rw [List.map_map]
    exact List.map_congr_left fun t _ => (hrow t).1
  refine ⟨hI.issuedOld, hI.issuedOnce, fun t ht => ?_, htokens ▸ hI.rowsOnce, hI.mailedIssued, fun x hx => ?_,
    List.nodup_cons.mpr ⟨hnew, hI.redeemedOnce⟩, fun x hx t ht hx1 => ?_, fun t ht hused hexp e he => ?_,
    fun hnone => absurd hnone (Option.some_ne_none u'.email)⟩
  · obtain ⟨t, hold, rfl⟩ := List.mem_map.mp ht
    rw [(hrow t).1]
    exact hI.rowsOld t hold
  · rcases List.mem_cons.mp hx with rfl | hx
    · exact hboth
    · exact hI.redeemedMailed x hx
  · obtain ⟨t, hold, rfl⟩ := List.mem_map.mp ht
    rw [(hrow t).1] at hx1
    rcases List.mem_cons.mp hx with rfl | hx
    · have hsame : t = r := List.inj_on_of_nodup_map hI.rowsOnce hold hr (hx1.trans htoken.symm)
      exact huse t hx1 (hsame ▸ htype)
    · exact hkeep t (hI.redeemedUsed x hx t hold hx1)
  · obtain ⟨t, hold, rfl⟩ := List.mem_map.mp ht
    obtain rfl : u'.email = e := Option.some.inj he
    rw [(hrow t).1, hu']
    rw [(hrow t).2] at hexp
    refine hI.live t hold ?_ hexp _ hemail
    by_contra hne
    exact hkeep t hne hused

theorem TokenInv.verifyEmail (hI : TokenInv s) {token : ℕ} (hmailed : token ∈ s.mailed.map Prod.fst) :
    TokenInv (s.verifyEmail token) ∧ Kept s (s.verifyEmail token) := by
  unfold AuthDb.verifyEmail
  split
  · exact ⟨hI, TokenFrame.rfl.kept⟩
  · next u hu =>
    split_ifs with hstored
    · refine ⟨hI.redeem hu hmailed hstored (fun t => ?_) (fun t hne => ?_) (fun t _ htype => ?_) rfl, fun _ h => h,
        fun e he => ?_⟩
      · split_ifs
        · exact ⟨rfl, rfl⟩
        · exact ⟨rfl, rfl⟩
      · split_ifs
        · exact Option.some_ne_none _
        · exact hne
      · split_ifs with h
        · exact Option.some_ne_none _
        · exact fun hnone => h ⟨htype, hnone⟩
      · have hemail : s.user.map User.email = some e := he
        rw [hu] at hemail
        exact hemail
    · exact ⟨hI, TokenFrame.rfl.kept⟩

theorem TokenInv.resetPassword (hI : TokenInv s) {token : ℕ} (hmailed : token ∈ s.mailed.map Prod.fst) (hash : Hash) :
    TokenInv (s.resetPassword token hash) ∧ Kept s (s.resetPassword token hash) := by
  unfold AuthDb.resetPassword
  split
  · exact ⟨hI, TokenFrame.rfl.kept⟩
  · next u hu =>
    split_ifs with hstored
    · have hset : TokenFrame s ((s.setPassword u hash none).deleteSessions none) :=
        ⟨List.Sublist.refl _, rfl, rfl, rfl, (setPassword_frame hu hash none).email, Nat.le_refl _, Nat.le_refl _⟩
      refine ⟨TokenInv.redeem (hI.frame hset) rfl hmailed hstored (fun t => ?_) (fun t hne => ?_) (fun t ht _ => ?_) rfl,
        fun _ h => h, fun e he => ?_⟩
      · split_ifs
        · exact ⟨rfl, rfl⟩
        · exact ⟨rfl, rfl⟩
      · split_ifs
        · exact Option.some_ne_none _
        · exact hne
      · rw [if_pos ht]
        exact Option.some_ne_none _
      · exact hset.email.trans he
    · exact ⟨hI, TokenFrame.rfl.kept⟩

end Operations

/-! ### Runs -/

section Runs

variable {E : AuthEnv Hash} {s w : AuthDb Hash Address} {x y : AuthCall Hash Address}

theorem email_of {u : User Hash Address} (hu : s.user = some u) : s.email = some u.email := by
  show s.user.map User.email = _
  rw [hu]
  rfl

theorem readOnly (hI : TokenInv s) (hy : CallOk s y) (h : some (s, y) = some (w, x)) :
    TokenInv w ∧ CallOk w x ∧ Kept s w := by
  obtain ⟨rfl, rfl⟩ := Prod.mk.inj (Option.some.inj h)
  exact ⟨hI, hy, TokenFrame.rfl.kept⟩

theorem TokenInv.framed (hI : TokenInv s) (hw : TokenFrame s w) (hy : CallOk w y) :
    TokenInv w ∧ CallOk w y ∧ Kept s w := ⟨hI.frame hw, hy, hw.kept⟩

theorem authNext_inv (hI : TokenInv s) (hx : CallOk s x) (hnew : x.newAddress = none)
    (h : authNext E s x = some (w, y)) : TokenInv w ∧ CallOk w y ∧ Kept s w := by
  cases x with
  | idle | mailing => exact nomatch h
  | registering email hash =>
    have h : s.register email hash = (w, y) := Option.some.inj h
    cases hu : s.user with
    | some u =>
      rw [AuthDb.register_taken hu] at h
      obtain ⟨rfl, rfl⟩ := Prod.mk.inj h
      exact ⟨hI, trivial, TokenFrame.rfl.kept⟩
    | none =>
      rw [AuthDb.register_new hu] at h
      obtain ⟨rfl, rfl⟩ := Prod.mk.inj h
      have hnone : s.email = none := by
        show s.user.map User.email = none
        rw [hu]
        rfl
      refine ⟨hI.issueFor ⟨email, hash, none, 0⟩ fun t ht => ?_, List.mem_cons_self, fun z hz => List.mem_cons_of_mem _ hz,
        fun e he => absurd (hnone.symm.trans he).symm (Option.some_ne_none e)⟩
      rw [hI.unregistered hnone] at ht
      exact absurd ht List.not_mem_nil
  | resending email =>
    obtain ⟨rfl, rfl⟩ := Prod.mk.inj (Option.some.inj h)
    exact hI.framed (clearTokens_frame s _ _) hx
  | resendCleared email =>
    obtain ⟨rfl, rfl⟩ := Prod.mk.inj (Option.some.inj h)
    exact ⟨hI.insertToken hx _, List.mem_cons_self, insertToken_kept s _ email⟩
  | forgetting email =>
    obtain ⟨rfl, rfl⟩ := Prod.mk.inj (Option.some.inj h)
    exact hI.framed (clearTokens_frame s _ _) hx
  | forgetCleared email =>
    obtain ⟨rfl, rfl⟩ := Prod.mk.inj (Option.some.inj h)
    exact ⟨hI.insertToken hx _, List.mem_cons_self, insertToken_kept s _ email⟩
  | updating email =>
    obtain rfl : email = none := hnew
    have h : s.updateWrite none = (w, y) := Option.some.inj h
    rw [AuthDb.updateWrite_none] at h
    obtain ⟨rfl, rfl⟩ := Prod.mk.inj h
    exact ⟨hI, trivial, TokenFrame.rfl.kept⟩
  | discarding token =>
    obtain ⟨rfl, rfl⟩ := Prod.mk.inj (Option.some.inj h)
    exact hI.framed (discardAuthToken_frame s token) trivial
  | loginUnverified =>
    obtain ⟨rfl, rfl⟩ := Prod.mk.inj (Option.some.inj h)
    exact hI.framed (deleteSessions_frame s none) trivial
  | loggingIn version =>
    obtain ⟨rfl, rfl⟩ := Prod.mk.inj (Option.some.inj h)
    exact hI.framed (loginCreate_frame E s version) trivial
  | changing hash session =>
    obtain ⟨rfl, rfl⟩ := Prod.mk.inj (Option.some.inj h)
    exact hI.framed (changeWrite_frame s hash session) trivial

theorem updateWrite_inv (hI : TokenInv s) {e : Address} (hreset : ResetTokensFor e s)
    (h : s.updateWrite (some e) = (w, y)) :
    TokenInv w ∧ CallOk w y ∧ ∀ z, CallOk s z → (∀ e' ∈ z.readAddress, e' = e) → CallOk w z := by
  cases hu : s.user with
  | none =>
    rw [AuthDb.updateWrite_missing hu] at h
    obtain ⟨rfl, rfl⟩ := Prod.mk.inj h
    exact ⟨hI, trivial, fun _ hz _ => hz⟩
  | some u =>
    rw [AuthDb.updateWrite_some hu] at h
    obtain ⟨rfl, rfl⟩ := Prod.mk.inj h
    refine ⟨(hI.issueFor { u with email := e, emailVerifiedAt := none } hreset).frame (deleteSessions_frame _ none),
      List.mem_cons_self, fun z hz hread => ?_⟩
    cases z with
    | resending e' | resendCleared e' | forgetting e' | forgetCleared e' => exact congrArg some (hread e' rfl).symm
    | mailing token e' type => exact List.mem_cons_of_mem _ hz
    | idle | registering | updating | discarding | loginUnverified | loggingIn | changing => trivial

theorem tokenInv_empty : TokenInv (AuthDb.empty : AuthDb Hash Address) where
  issuedOld := fun _ h => absurd h List.not_mem_nil
  issuedOnce := List.nodup_nil
  rowsOld := fun _ h => absurd h List.not_mem_nil
  rowsOnce := List.nodup_nil
  mailedIssued := fun _ h => absurd h List.not_mem_nil
  redeemedMailed := fun _ h => absurd h List.not_mem_nil
  redeemedOnce := List.nodup_nil
  redeemedUsed := fun _ h => absurd h List.not_mem_nil
  live := fun _ h => absurd h List.not_mem_nil
  unregistered := fun _ => rfl

variable [DecidableEq Address]

theorem authRequest_inv (hI : TokenInv s) {a : AuthAction Address} (h : authRequest E s a = some (w, y)) :
    TokenInv w ∧ CallOk w y ∧ Kept s w := by
  cases authRequest_cases E h with
  | reads hy =>
    refine ⟨hI, ?_, TokenFrame.rfl.kept⟩
    cases hy with
    | resending hu | forgetting hu => exact email_of hu
    | done | registering | unverified | loggingIn | updating | changing => trivial
  | verifies hmailed =>
    obtain ⟨hw, hkept⟩ := hI.verifyEmail hmailed
    exact ⟨hw, trivial, hkept⟩
  | resets hmailed =>
    obtain ⟨hw, hkept⟩ := hI.resetPassword hmailed _
    exact ⟨hw, trivial, hkept⟩
  | refreshes => exact hI.framed (refreshSession_frame E s _ _) trivial
  | revokes => exact hI.framed ⟨List.Sublist.refl _, rfl, rfl, rfl, rfl, Nat.le_refl _, Nat.le_refl _⟩ trivial

theorem authAct_other (hI : TokenInv s) (hx : CallOk s x) {a : AuthAction Address} (ha : a ≠ .next)
    (h : authAct E s x a = some (w, y)) : TokenInv w ∧ CallOk w y ∧ Kept s w := by
  unfold authAct at h
  split at h
  · obtain ⟨rfl, rfl⟩ := Prod.mk.inj (Option.some.inj h)
    refine ⟨⟨hI.issuedOld, hI.issuedOnce, hI.rowsOld, hI.rowsOnce, fun z hz => ?_, fun z hz =>
      List.mem_cons_of_mem _ (hI.redeemedMailed z hz), hI.redeemedOnce, hI.redeemedUsed, hI.live, hI.unregistered⟩, ?_,
      fun _ hz => hz, fun _ he => he⟩
    · rcases List.mem_cons.mp hz with rfl | hz
      · exact hx
      · exact hI.mailedIssued z hz
    · split_ifs <;> trivial
  · exact authRequest_inv hI h
  · exact absurd rfl ha
  · exact readOnly (y := .idle) hI trivial h
  · exact nomatch h

theorem authAct_next (h : authAct E s x .next = some (w, y)) : authNext E s x = some (w, y) := by
  cases x with
  | idle => exact nomatch h
  | _ => exact h

theorem authStep_inv {t : Calls (AuthDb Hash Address) (AuthCall Hash Address)} {p : ℕ} {a : AuthAction Address}
    (hI : Holds TokenInv (fun s _ x => CallOk s x) t) (hC : ChangesAlone t (.act p a))
    (h : authAct E t.shared (t.calls p) a = some (w, y)) :
    TokenInv w ∧ CallOk w y ∧ ∀ q, q ≠ p → CallOk w (t.calls q) := by
  obtain ⟨hinv, hcalls⟩ := hI
  by_cases ha : a = .next
  · subst ha
    have hnext : authNext E t.shared (t.calls p) = some (w, y) := authAct_next h
    cases hnew : (t.calls p).newAddress with
    | none =>
      obtain ⟨hw, hy, hkept⟩ := authNext_inv hinv (hcalls p) hnew hnext
      exact ⟨hw, hy, fun q _ => hkept.callOk (hcalls q)⟩
    | some e =>
      have hreset : ResetTokensFor e t.shared := hC.1 e hnew
      have hread : ∀ q, ∀ e' ∈ (t.calls q).readAddress, e' = e := hC.2 e hnew
      have hp : t.calls p = .updating (some e) := by
        generalize t.calls p = x at hnew
        cases x with
        | updating email => exact congrArg AuthCall.updating hnew
        | _ => exact nomatch hnew
      rw [hp] at hnext
      obtain ⟨hw, hy, hothers⟩ := updateWrite_inv hinv hreset (Option.some.inj hnext)
      exact ⟨hw, hy, fun q _ => hothers _ (hcalls q) (hread q)⟩
  · obtain ⟨hw, hy, hkept⟩ := authAct_other hinv (hcalls p) ha h
    exact ⟨hw, hy, fun q _ => hkept.callOk (hcalls q)⟩

/-- **An emailed token is bound to its address** in every run in which no email change overtakes a token. -/
theorem emailed_token_bound (E : AuthEnv Hash) (as : List (CallAction (AuthAction Address) Elapse))
    (h : Meets (authSystem E).step ChangesAlone (.start .empty .idle) as) :
    Always (authSystem E).step (fun t => BoundToAddress t.shared) (.start .empty .idle) as := by
  have hstart : Holds TokenInv (fun s _ x => CallOk s x) (.start (.empty : AuthDb Hash Address) .idle) :=
    holds_start tokenInv_empty fun _ => trivial
  have hstep := Machine.holds_step (M := authSystem E) (C := ChangesAlone) (I := TokenInv)
    (J := fun (s : AuthDb Hash Address) _ x => CallOk s x) (fun t p a w x hI hC hact => authStep_inv hI hC hact)
    (fun t e w hI _ henv => by
      obtain rfl := Option.some.inj henv
      have hframe : TokenFrame t.shared { t.shared with now := t.shared.now + e.ms } :=
        ⟨List.Sublist.refl _, rfl, rfl, rfl, rfl, Nat.le_refl _, Nat.le_add_right _ _⟩
      exact ⟨hI.1.frame hframe, fun q => hframe.kept.callOk (hI.2 q)⟩)
  exact (always_of_meets hstep hstart h).mono fun _ hI => hI.1.boundToAddress

end Runs

/-- A reset and an email change, each with its token. -/
theorem emailed_token_bound_changed : Always (authSystem plainEnv).step
    (fun t : Calls (AuthDb (ℕ × String) String) _ => BoundToAddress t.shared) (.start .empty .idle)
    [.act 0 (.register "a" "p" 0), .act 0 .next, .act 0 (.mail true), .act 0 (.verifyEmail 0),
      .act 1 (.forgotPassword "a"), .act 1 .next, .act 1 .next, .act 1 (.mail true), .act 0 (.resetPassword 1 "q" 1),
      .env ⟨10⟩, .act 0 (.updateProfile (some "b") (some "q") false), .act 0 .next, .act 0 (.mail true),
      .act 1 (.verifyEmail 2)] := by
  refine emailed_token_bound plainEnv _ (Meets.and (meets_of_check (by decide +kernel)) ?_)
  have hidle : (AuthCall.idle : AuthCall (ℕ × String) String).readAddress = none := rfl
  refine meets_of_below (P := fun x => x.readAddress = none) 2 hidle (fun s a h => ?_) (fun _ _ => rfl) rfl
    (meets_of_check (by decide +kernel))
  cases a with
  | env e => trivial
  | act p a =>
    cases a with
    | next =>
      intro e he q e' he'
      by_cases hq : q = p
      · subst hq
        generalize s.calls q = x at he he'
        cases x with
        | updating => exact nomatch he'
        | _ => exact nomatch he
      · rw [h q fun hp => hq (Option.some.inj hp).symm] at he'
        exact nomatch he'
    | _ => trivial

/-- A reset link that was mailed to the old address sets the password after the change. -/
theorem emailed_token_outlives_address : ¬ ∀ as, Always (authSystem plainEnv).step
    (fun t : Calls (AuthDb (ℕ × String) String) _ => BoundToAddress t.shared) (.start .empty .idle) as := by
  intro h
  have hend := always_iff_reached.mp (h [.act 0 (.register "a" "p" 0), .act 0 .next, .act 0 (.mail true),
    .act 0 (.verifyEmail 0), .act 1 (.forgotPassword "a"), .act 1 .next, .act 1 .next, .act 1 (.mail true),
    .act 0 (.updateProfile (some "b") (some "p") false), .act 0 .next, .act 0 (.mail true),
    .act 1 (.resetPassword 1 "q" 1)]) _ [] _ (List.append_nil _).symm rfl
  have hmailed : ((1, "b") : ℕ × String) ∈ [(2, "b"), (1, "a"), (0, "a")] := hend.bound (1, "b") List.mem_cons_self
  exact absurd hmailed (by decide)

end TeamInbox.Auth
