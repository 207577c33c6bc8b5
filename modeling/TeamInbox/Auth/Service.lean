import TeamInbox.Lib.Calls
import Mathlib.Tactic.SplitIfs

/-!
# TeamInbox.Auth.Service — the account service, for one user

`auth.service.ts`: registration, sign-in, the two kinds of emailed token, email and password changes and session
refresh.  A transaction is one step, and so is a statement outside one; bcrypt stands for the time between a read
and what follows it.  Random tokens and ids are numbers that have not been given out before, and an address is what
`trim` and `toLowerCase` leave of it.  `version`, `issued`, `mailed`, `redeemed` and `changes` are for the proofs.
-/

namespace TeamInbox.Auth

open TeamInbox.Lib

inductive AuthTokenType
  | emailVerification
  | passwordReset
  deriving DecidableEq

def EMAIL_VERIFICATION_TTL_MS : ℕ := 24 * 60 * 60 * 1000

def PASSWORD_RESET_TTL_MS : ℕ := 60 * 60 * 1000

def AuthTokenType.ttl : AuthTokenType → ℕ
  | .emailVerification => EMAIL_VERIFICATION_TTL_MS
  | .passwordReset => PASSWORD_RESET_TTL_MS

/-- A row of `auth_tokens`. -/
structure AuthToken where
  token : ℕ
  type : AuthTokenType
  expiresAt : ℕ
  usedAt : Option ℕ
  deriving DecidableEq

structure RetiredRefreshToken where
  hash : ℕ
  expiresAt : ℕ
  deriving DecidableEq

/-- A row of `user_sessions`, and the version of the password it was authenticated with. -/
structure UserSession where
  id : ℕ
  refreshToken : ℕ
  previousRefreshTokens : List RetiredRefreshToken
  expiresAt : ℕ
  version : ℕ
  deriving DecidableEq

/-- The row of `users`, and how often its password has been replaced. -/
structure User (Hash Address : Type) where
  email : Address
  passwordHash : Hash
  emailVerifiedAt : Option ℕ
  version : ℕ
  deriving DecidableEq

structure AuthDb (Hash Address : Type) where
  now : ℕ
  user : Option (User Hash Address)
  tokens : List AuthToken
  sessions : List UserSession
  fresh : ℕ
  /-- the tokens issued, and the address each is for -/
  issued : List (ℕ × Address)
  /-- what has been given to the mail provider -/
  mailed : List (ℕ × Address)
  /-- the tokens redeemed, and the address the user had then -/
  redeemed : List (ℕ × Address)
  /-- the passwords set, and the session that did -/
  changes : List (ℕ × Option ℕ)
  deriving DecidableEq

/-- bcrypt, with the salt supplied, and the settings of the environment. -/
structure AuthEnv (Hash : Type) where
  hashPassword : ℕ → String → Hash
  verifyPassword : String → Hash → Bool
  refreshTtlMs : ℕ
  graceMs : ℕ

inductive AuthCall (Hash Address : Type)
  | idle
  | registering (email : Address) (hash : Hash)
  | resending (email : Address)
  | resendCleared (email : Address)
  | forgetting (email : Address)
  | forgetCleared (email : Address)
  /-- with the new address, if it differs from the one read -/
  | updating (email : Option Address)
  /-- a token is to be mailed; verification tokens are discarded if that fails -/
  | mailing (token : ℕ) (email : Address) (type : AuthTokenType)
  | discarding (token : ℕ)
  | loginUnverified
  | loggingIn (version : ℕ)
  | changing (hash : Hash) (session : ℕ)
  deriving DecidableEq

inductive AuthAction (Address : Type)
  | register (email : Address) (password : String) (salt : ℕ)
  | login (email : Address) (password : String)
  | verifyEmail (token : ℕ)
  | resendVerification (email : Address) (password : String)
  | forgotPassword (email : Address)
  | resetPassword (token : ℕ) (newPassword : String) (salt : ℕ)
  /-- `taken`: another user has the address -/
  | updateProfile (email : Option Address) (currentPassword : Option String) (taken : Bool)
  | changePassword (session : ℕ) (currentPassword newPassword : String) (salt : ℕ)
  | refreshSession (session hash : ℕ)
  | revokeSession (session : ℕ)
  /-- the call's next statement or transaction -/
  | next
  /-- the mail provider has taken the token, and says whether it succeeded -/
  | mail (success : Bool)
  /-- the statement or transaction fails, or the process ends -/
  | fail
  deriving DecidableEq

section AuthService

variable {Hash Address : Type} [DecidableEq Address] (E : AuthEnv Hash)

namespace AuthDb

/-- The deletion of `issueAuthToken`. -/
def clearTokens (type : AuthTokenType) (invalidateExisting : Bool) (s : AuthDb Hash Address) : AuthDb Hash Address :=
  { s with
    tokens := s.tokens.filter fun t =>
      decide (t.type ≠ type) || !invalidateExisting && decide (s.now < t.expiresAt) && t.usedAt.isNone }

/-- The insertion of `issueAuthToken`. -/
def insertToken (type : AuthTokenType) (email : Address) (s : AuthDb Hash Address) : AuthDb Hash Address :=
  { s with
    tokens := ⟨s.fresh, type, s.now + type.ttl, none⟩ :: s.tokens
    fresh := s.fresh + 1
    issued := (s.fresh, email) :: s.issued }

def issueAuthToken (type : AuthTokenType) (email : Address) (s : AuthDb Hash Address) : AuthDb Hash Address :=
  (s.clearTokens type true).insertToken type email

def discardAuthToken (token : ℕ) (s : AuthDb Hash Address) : AuthDb Hash Address :=
  { s with tokens := s.tokens.filter fun t => decide (t.token ≠ token) }

def deleteSessions (keep : Option ℕ) (s : AuthDb Hash Address) : AuthDb Hash Address :=
  { s with sessions := s.sessions.filter fun x => decide (some x.id = keep) }

def stored (s : AuthDb Hash Address) (token : ℕ) (type : AuthTokenType) : Bool :=
  s.tokens.any fun t => decide (t.token = token) && decide (t.type = type) && t.usedAt.isNone &&
    decide (s.now < t.expiresAt)

def setPassword (u : User Hash Address) (hash : Hash) (session : Option ℕ) (s : AuthDb Hash Address) :
    AuthDb Hash Address :=
  { s with
    user := some { u with
      passwordHash := hash
      version := u.version + 1 }
    changes := (u.version + 1, session) :: s.changes }

/-- The transaction of `register`; the address may be taken by now. -/
def register (email : Address) (hash : Hash) (s : AuthDb Hash Address) : AuthDb Hash Address × AuthCall Hash Address :=
  match s.user with
  | some _ => (s, .idle)
  | none => (({ s with user := some ⟨email, hash, none, 0⟩ } : AuthDb Hash Address).issueAuthToken .emailVerification email,
      .mailing s.fresh email .emailVerification)

omit [DecidableEq Address] in
theorem register_taken {s : AuthDb Hash Address} {u : User Hash Address} (hu : s.user = some u) (email : Address)
    (hash : Hash) : s.register email hash = (s, .idle) := by
  unfold AuthDb.register
  rw [hu]

omit [DecidableEq Address] in
theorem register_new {s : AuthDb Hash Address} (hu : s.user = none) (email : Address) (hash : Hash) :
    s.register email hash =
      (({ s with user := some ⟨email, hash, none, 0⟩ } : AuthDb Hash Address).issueAuthToken .emailVerification email,
        .mailing s.fresh email .emailVerification) := by
  unfold AuthDb.register
  rw [hu]

/-- The read of `login` and the password check. -/
def loginRead (email : Address) (password : String) (s : AuthDb Hash Address) : AuthCall Hash Address :=
  match s.user with
  | none => .idle
  | some u =>
    if u.email = email ∧ E.verifyPassword password u.passwordHash = true then
      if u.emailVerifiedAt.isNone then .loginUnverified else .loggingIn u.version
    else .idle

/-- The transaction of `login`; `version` is of the password that has been checked. -/
def loginCreate (version : ℕ) (s : AuthDb Hash Address) : AuthDb Hash Address :=
  match s.user with
  | none => s
  | some u =>
    if u.emailVerifiedAt.isNone then s.deleteSessions none
    else { s with
      sessions := ⟨s.fresh, s.fresh + 1, [], s.now + E.refreshTtlMs, version⟩ :: s.sessions
      fresh := s.fresh + 2 }

def verifyEmail (token : ℕ) (s : AuthDb Hash Address) : AuthDb Hash Address :=
  match s.user with
  | none => s
  | some u =>
    if s.stored token .emailVerification then
      { s with
        user := some { u with emailVerifiedAt := some s.now }
        tokens := s.tokens.map fun t =>
          if t.type = .emailVerification ∧ t.usedAt = none then { t with usedAt := some s.now } else t
        redeemed := (token, u.email) :: s.redeemed }
    else s

def resendRead (email : Address) (password : String) (s : AuthDb Hash Address) : AuthCall Hash Address :=
  match s.user with
  | none => .idle
  | some u =>
    if u.email = email ∧ E.verifyPassword password u.passwordHash = true then
      if u.emailVerifiedAt.isSome then .idle else .resending u.email
    else .idle

def forgotRead (email : Address) (s : AuthDb Hash Address) : AuthCall Hash Address :=
  match s.user with
  | none => .idle
  | some u => if u.email = email then .forgetting u.email else .idle

def resetPassword (token : ℕ) (hash : Hash) (s : AuthDb Hash Address) : AuthDb Hash Address :=
  match s.user with
  | none => s
  | some u =>
    if s.stored token .passwordReset then
      let s := (s.setPassword u hash none).deleteSessions none
      { s with
        tokens := s.tokens.map fun t => if t.token = token then { t with usedAt := some s.now } else t
        redeemed := (token, u.email) :: s.redeemed }
    else s

/-- The checks of `updateProfile`. -/
def updateRead (email : Option Address) (currentPassword : Option String) (taken : Bool) (s : AuthDb Hash Address) :
    AuthCall Hash Address :=
  match s.user with
  | none => .idle
  | some u =>
    match email.filter (fun e => decide (e ≠ u.email)) with
    | none => .updating none
    | some e =>
      if currentPassword.any (fun p => E.verifyPassword p u.passwordHash) = true ∧ taken = false then .updating (some e)
      else .idle

/-- The transaction of `updateProfile`. -/
def updateWrite (email : Option Address) (s : AuthDb Hash Address) : AuthDb Hash Address × AuthCall Hash Address :=
  match s.user, email with
  | some u, some e =>
    let s' := ({ s with user := some { u with email := e, emailVerifiedAt := none } } : AuthDb Hash Address)
    ((s'.issueAuthToken .emailVerification e).deleteSessions none, .mailing s.fresh e .emailVerification)
  | _, _ => (s, .idle)

omit [DecidableEq Address] in
theorem updateWrite_none (s : AuthDb Hash Address) : s.updateWrite none = (s, .idle) := by
  unfold AuthDb.updateWrite
  cases s.user with
  | none => rfl
  | some u => rfl

omit [DecidableEq Address] in
theorem updateWrite_missing {s : AuthDb Hash Address} (hu : s.user = none) (email : Option Address) :
    s.updateWrite email = (s, .idle) := by
  unfold AuthDb.updateWrite
  rw [hu]

omit [DecidableEq Address] in
theorem updateWrite_some {s : AuthDb Hash Address} {u : User Hash Address} (hu : s.user = some u) (e : Address) :
    s.updateWrite (some e) =
      ((({ s with user := some { u with email := e, emailVerifiedAt := none } } :
        AuthDb Hash Address).issueAuthToken .emailVerification e).deleteSessions none,
        .mailing s.fresh e .emailVerification) := by
  unfold AuthDb.updateWrite
  rw [hu]

/-- The checks of `changePassword`. -/
def changeRead (session : ℕ) (currentPassword newPassword : String) (salt : ℕ) (s : AuthDb Hash Address) :
    AuthCall Hash Address :=
  match s.user with
  | none => .idle
  | some u =>
    if E.verifyPassword currentPassword u.passwordHash = true ∧ E.verifyPassword newPassword u.passwordHash = false then
      .changing (E.hashPassword salt newPassword) session
    else .idle

/-- The transaction of `changePassword`. -/
def changeWrite (hash : Hash) (session : ℕ) (s : AuthDb Hash Address) : AuthDb Hash Address :=
  match s.user with
  | none => s
  | some u => (s.setPassword u hash (some session)).deleteSessions (some session)

end AuthDb

def MAX_RETAINED_REFRESH_TOKENS : ℕ := 5

def isRetiredRefreshTokenAccepted (entries : List RetiredRefreshToken) (hash now : ℕ) : Bool :=
  entries.any fun e => decide (e.hash = hash) && decide (now < e.expiresAt)

def retainSupersededRefreshToken (entries : List RetiredRefreshToken) (hash now graceMs : ℕ) :
    List RetiredRefreshToken :=
  let live := entries.filter fun e => decide (now < e.expiresAt)
  if graceMs = 0 then live
  else
    let live := live ++ [⟨hash, now + graceMs⟩]
    live.drop (live.length - MAX_RETAINED_REFRESH_TOKENS)

def UserSession.accepts (now hash : ℕ) (x : UserSession) : Bool :=
  decide (now < x.expiresAt) &&
    (decide (x.refreshToken = hash) || isRetiredRefreshTokenAccepted x.previousRefreshTokens hash now)

def UserSession.rotate (now hash : ℕ) (x : UserSession) : UserSession :=
  { x with
    refreshToken := hash
    previousRefreshTokens := retainSupersededRefreshToken x.previousRefreshTokens x.refreshToken now E.graceMs
    expiresAt := now + E.refreshTtlMs }

namespace AuthDb

/-- The transaction of `refreshSession`; `hash` is of the token presented. -/
def refreshSession (session hash : ℕ) (s : AuthDb Hash Address) : AuthDb Hash Address :=
  match s.user, s.sessions.find? (fun x => decide (x.id = session)) with
  | some u, some x =>
    if x.accepts s.now hash then
      if u.emailVerifiedAt.isNone then { s with sessions := s.sessions.filter fun y => decide (y.id ≠ session) }
      else { s with
        sessions := s.sessions.map fun y => if y.id = session then y.rotate E s.now s.fresh else y
        fresh := s.fresh + 1 }
    else s
  | _, _ => s

def revokeSession (session : ℕ) (s : AuthDb Hash Address) : AuthDb Hash Address :=
  { s with sessions := s.sessions.filter fun x => decide (x.id ≠ session) }

def empty : AuthDb Hash Address := ⟨0, none, [], [], 0, [], [], [], []⟩

end AuthDb

/-- A request arrives, and does what it does before the first pause. -/
def authRequest (s : AuthDb Hash Address) :
    AuthAction Address → Option (AuthDb Hash Address × AuthCall Hash Address)
  | .register email password salt =>
    if s.user.isNone then some (s, .registering email (E.hashPassword salt password)) else none
  | .login email password => some (s, s.loginRead E email password)
  | .verifyEmail token => if token ∈ s.mailed.map Prod.fst then some (s.verifyEmail token, .idle) else none
  | .resendVerification email password => some (s, s.resendRead E email password)
  | .forgotPassword email => some (s, s.forgotRead email)
  | .resetPassword token newPassword salt =>
    if token ∈ s.mailed.map Prod.fst then some (s.resetPassword token (E.hashPassword salt newPassword), .idle)
    else none
  | .updateProfile email currentPassword taken => some (s, s.updateRead E email currentPassword taken)
  | .changePassword session currentPassword newPassword salt =>
    if session < s.fresh then some (s, s.changeRead E session currentPassword newPassword salt) else none
  | .refreshSession session hash => some (s.refreshSession E session hash, .idle)
  | .revokeSession session => some (s.revokeSession session, .idle)
  | .next | .mail _ | .fail => none

inductive AuthReads (s : AuthDb Hash Address) : AuthCall Hash Address → Prop
  | done : AuthReads s .idle
  | registering {email : Address} {hash : Hash} : AuthReads s (.registering email hash)
  | unverified : AuthReads s .loginUnverified
  | loggingIn {u : User Hash Address} (hu : s.user = some u) : AuthReads s (.loggingIn u.version)
  | resending {u : User Hash Address} (hu : s.user = some u) : AuthReads s (.resending u.email)
  | forgetting {u : User Hash Address} (hu : s.user = some u) : AuthReads s (.forgetting u.email)
  | updating {email : Option Address} : AuthReads s (.updating email)
  | changing {hash : Hash} {session : ℕ} (hsession : session < s.fresh) : AuthReads s (.changing hash session)

inductive RequestMove (s : AuthDb Hash Address) : AuthDb Hash Address → AuthCall Hash Address → Prop
  | reads {y : AuthCall Hash Address} (hy : AuthReads s y) : RequestMove s s y
  | verifies {token : ℕ} (hmailed : token ∈ s.mailed.map Prod.fst) : RequestMove s (s.verifyEmail token) .idle
  | resets {token : ℕ} {hash : Hash} (hmailed : token ∈ s.mailed.map Prod.fst) :
    RequestMove s (s.resetPassword token hash) .idle
  | refreshes {session hash : ℕ} : RequestMove s (s.refreshSession E session hash) .idle
  | revokes {session : ℕ} : RequestMove s (s.revokeSession session) .idle

omit [DecidableEq Address] in
theorem RequestMove.read {s w : AuthDb Hash Address} {x y : AuthCall Hash Address} (hx : AuthReads s x)
    (h : some (s, x) = some (w, y)) : RequestMove E s w y := by
  obtain ⟨rfl, rfl⟩ := Prod.mk.inj (Option.some.inj h)
  exact .reads hx

theorem authRequest_cases {s w : AuthDb Hash Address} {y : AuthCall Hash Address} {a : AuthAction Address}
    (h : authRequest E s a = some (w, y)) : RequestMove E s w y := by
  cases a with
  | register email password salt =>
    obtain ⟨-, h⟩ := Option.ite_none_right_eq_some.mp h
    exact .read E .registering h
  | login email password =>
    refine .read E ?_ h
    unfold AuthDb.loginRead
    split
    · exact .done
    · next u hu =>
      split_ifs
      · exact .unverified
      · exact .loggingIn hu
      · exact .done
  | verifyEmail token =>
    obtain ⟨hmailed, h⟩ := Option.ite_none_right_eq_some.mp h
    obtain ⟨rfl, rfl⟩ := Prod.mk.inj (Option.some.inj h)
    exact .verifies hmailed
  | resendVerification email password =>
    refine .read E ?_ h
    unfold AuthDb.resendRead
    split
    · exact .done
    · next u hu =>
      split_ifs
      · exact .done
      · exact .resending hu
      · exact .done
  | forgotPassword email =>
    refine .read E ?_ h
    unfold AuthDb.forgotRead
    split
    · exact .done
    · next u hu =>
      split_ifs
      · exact .forgetting hu
      · exact .done
  | resetPassword token newPassword salt =>
    obtain ⟨hmailed, h⟩ := Option.ite_none_right_eq_some.mp h
    obtain ⟨rfl, rfl⟩ := Prod.mk.inj (Option.some.inj h)
    exact .resets hmailed
  | updateProfile email currentPassword taken =>
    refine .read E ?_ h
    unfold AuthDb.updateRead
    split
    · exact .done
    · split
      · exact .updating
      · split_ifs
        · exact .updating
        · exact .done
  | changePassword session currentPassword newPassword salt =>
    obtain ⟨hsession, h⟩ := Option.ite_none_right_eq_some.mp h
    refine .read E ?_ h
    unfold AuthDb.changeRead
    split
    · exact .done
    · split_ifs
      · exact .changing hsession
      · exact .done
  | refreshSession session hash =>
    obtain ⟨rfl, rfl⟩ := Prod.mk.inj (Option.some.inj h)
    exact .refreshes
  | revokeSession session =>
    obtain ⟨rfl, rfl⟩ := Prod.mk.inj (Option.some.inj h)
    exact .revokes
  | next | mail | fail => exact nomatch h

/-- The next statement or transaction of a call. -/
def authNext (s : AuthDb Hash Address) :
    AuthCall Hash Address → Option (AuthDb Hash Address × AuthCall Hash Address)
  | .registering email hash => some (s.register email hash)
  | .resending email => some (s.clearTokens .emailVerification false, .resendCleared email)
  | .resendCleared email => some (s.insertToken .emailVerification email, .mailing s.fresh email .emailVerification)
  | .forgetting email => some (s.clearTokens .passwordReset true, .forgetCleared email)
  | .forgetCleared email => some (s.insertToken .passwordReset email, .mailing s.fresh email .passwordReset)
  | .updating email => some (s.updateWrite email)
  | .discarding token => some (s.discardAuthToken token, .idle)
  | .loginUnverified => some (s.deleteSessions none, .idle)
  | .loggingIn version => some (s.loginCreate E version, .idle)
  | .changing hash session => some (s.changeWrite hash session, .idle)
  | .idle | .mailing .. => none

def authAct (s : AuthDb Hash Address) :
    AuthCall Hash Address → AuthAction Address → Option (AuthDb Hash Address × AuthCall Hash Address)
  | .mailing token email type, .mail success =>
    some ({ s with mailed := (token, email) :: s.mailed },
      if success = false ∧ type = .emailVerification then .discarding token else .idle)
  | .idle, a => authRequest E s a
  | x, .next => authNext E s x
  | _, .fail => some (s, .idle)
  | _, _ => none

structure Elapse where
  ms : ℕ
  deriving DecidableEq

def authSystem : Machine (AuthDb Hash Address) (AuthCall Hash Address) (AuthAction Address) Elapse where
  act := fun _ s x a => authAct E s x a
  env := fun e s => some { s with now := s.now + e.ms }

end AuthService

def plainEnv : AuthEnv (ℕ × String) := ⟨fun salt password => (salt, password), fun password h => password = h.2, 9000, 0⟩

end TeamInbox.Auth
