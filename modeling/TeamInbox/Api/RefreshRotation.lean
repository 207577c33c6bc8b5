import TeamInbox.Lib.Json
import TeamInbox.Lib.Retained
import TeamInbox.Lib.Run

/-!
# TeamInbox.Api.RefreshRotation — refresh tokens and their grace

A refresh replaces the token of a session and retires the one it replaces: for a grace period it may still
be presented, as one of the last few.  The retired tokens stand in a JSON column as hashes with deadlines.
The calls on one session follow one another, since each locks its row; the readings of the clock they make
under the lock do not decrease.  Besides what the session holds, a token must verify: its own expiration is
checked before the session is read.
-/

namespace TeamInbox.Api

open TeamInbox.Lib

structure RefreshTokenPayload where
  sessionID : String
  tokenID : String
  deriving DecidableEq

/-- What a client presents: a token signed with the secret, with its expiration in seconds, or some other text. -/
inductive PresentedToken
  | signed (payload : RefreshTokenPayload) (exp : ℕ)
  | other (text : String)
  deriving DecidableEq

/-- `jwtVerify` refuses a text it has no signature for and a token whose second of expiration has come. -/
def verifyRefreshToken (now : ℕ) : PresentedToken → Option RefreshTokenPayload
  | .signed payload exp => if now / 1000 < exp then some payload else none
  | .other _ => none

/-- The texts of instants: `Date.parse`, which is not a number on other texts, and `toISOString`. -/
structure IsoDates where
  parse : String → Option ℤ
  toISOString : ℕ → String
  parse_toISOString : ∀ t : ℕ, parse (toISOString t) = some (t : ℤ)

structure RetiredRefreshToken where
  hash : String
  expiresAt : String
  deriving DecidableEq

/-- `MAX_RETAINED_REFRESH_TOKENS`. -/
def maxRetainedRefreshTokens : ℕ := 5

/-! ### Retention -/

section Retention

variable (dates : IsoDates)

def parseEntry : Js .value → Option RetiredRefreshToken
  | .obj es =>
    match es.entries.lookup "hash", es.entries.lookup "expiresAt" with
    | some (.string hash), some (.string expiresAt) =>
      if hash = "" then none else if (dates.parse expiresAt).isNone then none else some ⟨hash, expiresAt⟩
    | _, _ => none
  | _ => none

def readRetiredRefreshTokens : Js .value → List RetiredRefreshToken
  | .arr es => es.elements.filterMap (parseEntry dates)
  | _ => []

/-- `Date.parse(entry.expiresAt) > nowMs` -/
def RetiredRefreshToken.stillOpen (nowMs : ℕ) (entry : RetiredRefreshToken) : Bool :=
  (dates.parse entry.expiresAt).any fun t => decide ((nowMs : ℤ) < t)

def pruneRetiredRefreshTokens (entries : List RetiredRefreshToken) (nowMs : ℕ) : List RetiredRefreshToken :=
  entries.filter fun entry => entry.stillOpen dates nowMs

def isRetiredRefreshTokenAccepted (entries : List RetiredRefreshToken) (presentedHash : String) (nowMs : ℕ) : Bool :=
  entries.any fun entry => decide (entry.hash = presentedHash) && entry.stillOpen dates nowMs

def retainSupersededRefreshToken (entries : List RetiredRefreshToken) (retiredHash : String) (nowMs graceMs : ℕ) :
    List RetiredRefreshToken :=
  let live := pruneRetiredRefreshTokens dates entries nowMs
  if graceMs = 0 then live
  else keepLast maxRetainedRefreshTokens (live ++ [⟨retiredHash, dates.toISOString (nowMs + graceMs)⟩])

def RetiredRefreshToken.toJs (e : RetiredRefreshToken) : Js .value :=
  .obj (.ofEntries [("hash", .string e.hash), ("expiresAt", .string e.expiresAt)])

/-- `JSON.stringify`, as the column holds it. -/
def storedTokens (entries : List RetiredRefreshToken) : Js .value := .arr (.ofElements (entries.map (·.toJs)))

end Retention

/-! ### Sessions -/

/-- A row of `user_sessions`, as far as a refresh reads and writes it. -/
structure UserSession where
  refreshToken : String
  previousRefreshTokens : Js .value
  expiresAt : ℕ

/-- The codes of `AuthError`. -/
inductive RefreshError
  | invalidToken
  | sessionExpired
  | emailNotVerified
  deriving DecidableEq

/-- A call, with what it reads of the user and of the clock.  The first two readings are made before the row is locked. -/
structure RefreshCall where
  token : PresentedToken
  emailVerified : Bool
  verifiedAt : ℕ
  readAt : ℕ
  checkedAt : ℕ
  signedAt : ℕ
  rotatedAt : ℕ
  savedAt : ℕ
  deriving DecidableEq

/-- The settings: the hash of a token, the grace and the lifetime in seconds; and the session the calls are about. -/
structure RefreshSettings where
  dates : IsoDates
  hashToken : PresentedToken → String
  graceSeconds : ℕ
  refreshExpiresIn : ℕ
  sessionID : String

section Refresh

variable (env : RefreshSettings)

def generateRefreshToken (tokenID : String) (now : ℕ) : PresentedToken :=
  .signed ⟨env.sessionID, tokenID⟩ (now / 1000 + env.refreshExpiresIn)

def rotated (session : UserSession) (call : RefreshCall) (newToken : PresentedToken) : UserSession where
  refreshToken := env.hashToken newToken
  previousRefreshTokens := storedTokens (retainSupersededRefreshToken env.dates
    (readRetiredRefreshTokens env.dates session.previousRefreshTokens) session.refreshToken call.rotatedAt
    (env.graceSeconds * 1000))
  expiresAt := call.savedAt + env.refreshExpiresIn * 1000

/-- A token of another session finds another row. -/
def refreshSession (row : Option UserSession) (call : RefreshCall) (tokenID : String) :
    Except RefreshError PresentedToken × Option UserSession :=
  match verifyRefreshToken call.verifiedAt call.token with
  | none => (.error .invalidToken, row)
  | some payload =>
    let presentedHash := env.hashToken call.token
    match row.filter fun s => decide (payload.sessionID = env.sessionID) && decide (call.readAt < s.expiresAt) with
    | none => (.error .sessionExpired, row)
    | some session =>
      let isCurrentToken := decide (session.refreshToken = presentedHash)
      let retired := readRetiredRefreshTokens env.dates session.previousRefreshTokens
      let isRetry := !isCurrentToken && isRetiredRefreshTokenAccepted env.dates retired presentedHash call.checkedAt
      if !isCurrentToken && !isRetry then (.error .sessionExpired, row)
      else if !call.emailVerified then (.error .emailNotVerified, none)
      else
        let newToken := generateRefreshToken env tokenID call.signedAt
        (.ok newToken, some (rotated env session call newToken))

end Refresh

/-! ### Runs -/

/-- A token that a rotation superseded, and when. -/
structure Rotation where
  token : PresentedToken
  at_ : ℕ
  deriving DecidableEq

structure RefreshState where
  session : Option UserSession
  clock : ℕ
  /-- the token the session was given last -/
  current : PresentedToken
  rotations : List Rotation

section Runs

variable (env : RefreshSettings) (randomUUID : ℕ → String)

def RefreshState.started (now : ℕ) : RefreshState where
  session := some ⟨env.hashToken (generateRefreshToken env (randomUUID 0) now), storedTokens [],
    now + env.refreshExpiresIn * 1000⟩
  clock := now
  current := generateRefreshToken env (randomUUID 0) now
  rotations := []

/-- What a call answers and leaves, the next token being the one after those issued so far. -/
def RefreshState.answer (s : RefreshState) (call : RefreshCall) : Except RefreshError PresentedToken × Option UserSession :=
  refreshSession env s.session call (randomUUID (s.rotations.length + 1))

/-- The readings under the lock do not decrease. -/
def RefreshCall.inOrder (clock : ℕ) (call : RefreshCall) : Prop :=
  clock ≤ call.checkedAt ∧ call.checkedAt ≤ call.signedAt ∧ call.signedAt ≤ call.rotatedAt ∧ call.rotatedAt ≤ call.savedAt

instance (clock : ℕ) (call : RefreshCall) : Decidable (call.inOrder clock) :=
  inferInstanceAs (Decidable (_ ∧ _ ∧ _ ∧ _))

def refreshStep (s : RefreshState) (call : RefreshCall) : Option RefreshState :=
  if call.inOrder s.clock then
    match s.answer env randomUUID call with
    | (.ok newToken, session) => some ⟨session, call.savedAt, newToken, ⟨s.current, call.rotatedAt⟩ :: s.rotations⟩
    | (.error _, session) => some { s with
        session := session
        clock := call.checkedAt }
  else none

/-! ### What is claimed -/

def Accepts (s : RefreshState) (call : RefreshCall) : Prop := ∃ newToken, (s.answer env randomUUID call).1 = .ok newToken

/-- The token was superseded less than the grace ago, and at most so many rotations have been made since, that one
included. -/
def RecentlySuperseded (s : RefreshState) (call : RefreshCall) : Prop :=
  ∃ k r, s.rotations[k]? = some r ∧ k + 1 ≤ maxRetainedRefreshTokens ∧ r.token = call.token ∧
    call.checkedAt < r.at_ + env.graceSeconds * 1000

/-- The user is verified and the session has not expired. -/
def InService (s : RefreshState) (call : RefreshCall) : Prop :=
  call.emailVerified = true ∧ ∃ session, s.session = some session ∧ call.readAt < session.expiresAt

/-- The token of the call verifies when it is presented. -/
def Verifies (call : RefreshCall) : Prop := (verifyRefreshToken call.verifiedAt call.token).isSome = true

/-- A call on a session, from the state before it to the state after it. -/
structure Refreshed (s : RefreshState) (call : RefreshCall) (s' : RefreshState) : Prop where
  accepted : InService s call →
    (Accepts env randomUUID s call ↔ Verifies call ∧ (call.token = s.current ∨ RecentlySuperseded env s call))
  /-- A token that is retired keeps its deadline. -/
  deadlines : ∀ session session', s.session = some session → s'.session = some session' →
    ∀ e ∈ readRetiredRefreshTokens env.dates session.previousRefreshTokens,
    ∀ e' ∈ readRetiredRefreshTokens env.dates session'.previousRefreshTokens, e'.hash = e.hash → e' = e
  capped : ∀ session, s'.session = some session →
    (readRetiredRefreshTokens env.dates session.previousRefreshTokens).length ≤ maxRetainedRefreshTokens
  rejected : InService s call → ¬ Accepts env randomUUID s call → s'.session = s.session

end Runs

/-! ### The column -/

section Column

variable {dates : IsoDates}

theorem parseEntry_stored {e : RetiredRefreshToken} (hhash : e.hash ≠ "") (hdate : (dates.parse e.expiresAt).isSome = true) :
    parseEntry dates e.toJs = some e := by
  have hexpires : ("expiresAt" == "hash") = false := rfl
  unfold parseEntry RetiredRefreshToken.toJs
  simp only [Js.ofEntries, Js.entries, List.lookup_cons, beq_self_eq_true, hexpires]
  rw [if_neg hhash, if_neg (by simp [Option.isNone_iff_eq_none, Option.isSome_iff_ne_none.mp hdate])]

theorem read_stored {entries : List RetiredRefreshToken}
    (h : ∀ e ∈ entries, e.hash ≠ "" ∧ (dates.parse e.expiresAt).isSome = true) :
    readRetiredRefreshTokens dates (storedTokens entries) = entries := by
  unfold readRetiredRefreshTokens storedTokens
  dsimp only
  rw [Js.elements_ofElements, List.filterMap_map]
  induction entries with
  | nil => rfl
  | cons e entries ih =>
    obtain ⟨hhash, hdate⟩ := h e List.mem_cons_self
    have hfirst : (parseEntry dates ∘ fun e => e.toJs) e = some e := parseEntry_stored hhash hdate
    rw [List.filterMap_cons_some hfirst, ih fun e he => h e (List.mem_cons_of_mem _ he)]

variable (env : RefreshSettings)

/-- When a superseded token is no longer accepted. -/
def Rotation.deadline (r : Rotation) : ℕ := r.at_ + env.graceSeconds * 1000

def Rotation.entry (r : Rotation) : RetiredRefreshToken := ⟨env.hashToken r.token, env.dates.toISOString (r.deadline env)⟩

variable {env}

theorem entry_stillOpen (r : Rotation) (now : ℕ) :
    (r.entry env).stillOpen env.dates now = decide (now < r.deadline env) := by
  unfold RetiredRefreshToken.stillOpen Rotation.entry
  dsimp only
  rw [env.dates.parse_toISOString, Option.any_some]
  exact decide_eq_decide.mpr Int.ofNat_lt

theorem prune_entries (kept : List Rotation) (now : ℕ) :
    pruneRetiredRefreshTokens env.dates (kept.map (·.entry env)) now =
      (live (·.deadline env) now kept).map (·.entry env) := by
  unfold pruneRetiredRefreshTokens live
  rw [List.filter_map]
  refine congrArg (List.map _) (List.filter_congr fun r _ => ?_)
  exact entry_stillOpen r now

theorem isRetired_entries (kept : List Rotation) (hash : String) (now : ℕ) :
    isRetiredRefreshTokenAccepted env.dates (kept.map (·.entry env)) hash now = true ↔
      ∃ r ∈ kept, env.hashToken r.token = hash ∧ now < r.deadline env := by
  unfold isRetiredRefreshTokenAccepted
  rw [List.any_map, List.any_eq_true]
  simp only [Function.comp_apply, Bool.and_eq_true, decide_eq_true_eq, entry_stillOpen]
  rfl

theorem retain_entries (kept : List Rotation) (r : Rotation) :
    retainSupersededRefreshToken env.dates (kept.map (·.entry env)) (env.hashToken r.token) r.at_ (env.graceSeconds * 1000) =
      (if env.graceSeconds * 1000 = 0 then live (·.deadline env) r.at_ kept
        else keepLast maxRetainedRefreshTokens (live (·.deadline env) r.at_ kept ++ [r])).map (·.entry env) := by
  unfold retainSupersededRefreshToken
  rw [prune_entries]
  dsimp only
  split
  · rfl
  · unfold keepLast
    rw [List.map_drop, List.map_append, List.length_append, List.length_append, List.length_map]
    rfl

end Column

/-! ### What the session holds -/

section Invariant

variable (env : RefreshSettings) (randomUUID : ℕ → String)

/-- The identifier of a token, if it is one of the session. -/
def PresentedToken.idOf : PresentedToken → Option String
  | .signed payload _ => if payload.sessionID = env.sessionID then some payload.tokenID else none
  | .other _ => none

def RefreshState.last (s : RefreshState) : ℕ := (s.rotations.head?.map (·.at_)).getD 0

/-- The hashes are those of distinct tokens of the session, and the column holds what the history retains. -/
structure RotationInv (s : RefreshState) : Prop where
  ids : (s.current :: s.rotations.map (·.token)).map (·.idOf env) =
    ((List.range (s.rotations.length + 1)).map fun k => some (randomUUID k)).reverse
  ordered : s.rotations.Pairwise fun r r' => r'.at_ ≤ r.at_
  past : ∀ r ∈ s.rotations, r.at_ ≤ s.clock
  column : ∀ session, s.session = some session → session.refreshToken = env.hashToken s.current ∧
    ∃ kept, Retained (·.deadline env) maxRetainedRefreshTokens s.rotations s.last kept ∧
      readRetiredRefreshTokens env.dates session.previousRefreshTokens = kept.map (·.entry env)

variable {env randomUUID} {s : RefreshState}

theorem RotationInv.last_le (h : RotationInv env randomUUID s) : s.last ≤ s.clock := by
  unfold RefreshState.last
  cases hr : s.rotations with
  | nil => exact Nat.zero_le _
  | cons r rest => exact h.past r (hr ▸ List.mem_cons_self)

theorem RotationInv.newestFirst (h : RotationInv env randomUUID s) {now : ℕ} (hclock : s.clock ≤ now) :
    NewestFirst (·.deadline env) (⟨s.current, now⟩ :: s.rotations) := by
  refine List.pairwise_cons.mpr ⟨fun r hr => ?_, h.ordered.imp fun hle => Nat.add_le_add_right hle _⟩
  exact Nat.add_le_add_right ((h.past r hr).trans hclock) _

theorem RotationInv.started (now : ℕ) : RotationInv env randomUUID (.started env randomUUID now) where
  ids := by
    have hid : (generateRefreshToken env (randomUUID 0) now).idOf env = some (randomUUID 0) := if_pos rfl
    exact congrArg (fun o => [o]) hid
  ordered := List.Pairwise.nil
  past r hr := (List.not_mem_nil hr).elim
  column session hs := by
    cases hs
    exact ⟨rfl, [], Retained.nil, rfl⟩

end Invariant

/-! ### A call -/

section Call

variable {env : RefreshSettings} {randomUUID : ℕ → String} {s s' : RefreshState} {call : RefreshCall}

/-- What the session is asked for: the current token, or a retired one in its grace. -/
def KnownTo (env : RefreshSettings) (session : UserSession) (call : RefreshCall) : Prop :=
  session.refreshToken = env.hashToken call.token ∨
    isRetiredRefreshTokenAccepted env.dates (readRetiredRefreshTokens env.dates session.previousRefreshTokens)
      (env.hashToken call.token) call.checkedAt = true

def FoundBy (env : RefreshSettings) (row : Option UserSession) (call : RefreshCall) (session : UserSession) : Prop :=
  row = some session ∧ call.readAt < session.expiresAt ∧
    ∃ payload, verifyRefreshToken call.verifiedAt call.token = some payload ∧ payload.sessionID = env.sessionID

variable (env) in
theorem refreshSession_cases (row : Option UserSession) (call : RefreshCall) (tokenID : String) :
    (∃ session, FoundBy env row call session ∧ KnownTo env session call ∧ call.emailVerified = true ∧
      refreshSession env row call tokenID = (.ok (generateRefreshToken env tokenID call.signedAt),
        some (rotated env session call (generateRefreshToken env tokenID call.signedAt)))) ∨
    (∃ session, FoundBy env row call session ∧ KnownTo env session call ∧ call.emailVerified = false ∧
      refreshSession env row call tokenID = (.error .emailNotVerified, none)) ∨
    ((∀ session, FoundBy env row call session → ¬ KnownTo env session call) ∧
      ∃ e, refreshSession env row call tokenID = (.error e, row)) := by
  unfold refreshSession
  cases hverify : verifyRefreshToken call.verifiedAt call.token with
  | none =>
    refine Or.inr (Or.inr ⟨?_, .invalidToken, rfl⟩)
    rintro session ⟨-, -, payload, hpayload, -⟩
    rw [hverify] at hpayload
    cases hpayload
  | some payload =>
    dsimp only
    cases hfound : row.filter fun s => decide (payload.sessionID = env.sessionID) && decide (call.readAt < s.expiresAt) with
    | none =>
      refine Or.inr (Or.inr ⟨?_, .sessionExpired, rfl⟩)
      rintro session ⟨rfl, hlt, payload', hpayload, hid⟩
      cases hverify.symm.trans hpayload
      rw [Option.filter_some, if_pos (by simp [hid, hlt])] at hfound
      cases hfound
    | some session =>
      obtain ⟨hrow, hcond⟩ := Option.filter_eq_some_iff.mp hfound
      rw [Bool.and_eq_true, decide_eq_true_eq, decide_eq_true_eq] at hcond
      have hby : FoundBy env row call session := ⟨hrow, hcond.2, payload, hverify, hcond.1⟩
      by_cases hknown : KnownTo env session call
      · have hcheck : (!decide (session.refreshToken = env.hashToken call.token) &&
            !(!decide (session.refreshToken = env.hashToken call.token) && isRetiredRefreshTokenAccepted env.dates
              (readRetiredRefreshTokens env.dates session.previousRefreshTokens) (env.hashToken call.token)
              call.checkedAt)) = false := by
          rcases hknown with h | h
          · rw [decide_eq_true h]
            rfl
          · rw [h]
            cases decide (session.refreshToken = env.hashToken call.token) <;> rfl
        dsimp only
        rw [hcheck]
        cases hemail : call.emailVerified with
        | true => exact Or.inl ⟨session, hby, hknown, rfl, rfl⟩
        | false => exact Or.inr (Or.inl ⟨session, hby, hknown, rfl, rfl⟩)
      · have hcurrent : decide (session.refreshToken = env.hashToken call.token) = false :=
          decide_eq_false fun h => hknown (Or.inl h)
        have hretired : isRetiredRefreshTokenAccepted env.dates
            (readRetiredRefreshTokens env.dates session.previousRefreshTokens) (env.hashToken call.token)
            call.checkedAt = false := Bool.eq_false_iff.mpr fun h => hknown (Or.inr h)
        dsimp only
        rw [hcurrent, hretired]
        refine Or.inr (Or.inr ⟨?_, .sessionExpired, rfl⟩)
        rintro session' ⟨hrow', -, -⟩
        cases hrow.symm.trans hrow'
        exact hknown

theorem accepts_iff (h : InService s call) {session : UserSession} (hs : s.session = some session) :
    Accepts env randomUUID s call ↔ FoundBy env s.session call session ∧ KnownTo env session call := by
  unfold Accepts RefreshState.answer
  rcases refreshSession_cases env s.session call (randomUUID (s.rotations.length + 1)) with
    ⟨session', hby, hknown, -, heq⟩ | ⟨-, -, -, hemail, -⟩ | ⟨hnot, e, heq⟩
  · cases hs.symm.trans hby.1
    rw [heq]
    exact ⟨fun _ => ⟨hby, hknown⟩, fun _ => ⟨_, rfl⟩⟩
  · rw [h.1] at hemail
    cases hemail
  · rw [heq]
    refine ⟨fun ⟨_, ht⟩ => (by cases ht), fun ⟨hby, hknown⟩ => absurd hknown (hnot session hby)⟩

inductive RefreshMove (env : RefreshSettings) (randomUUID : ℕ → String) (s : RefreshState) (call : RefreshCall) :
    RefreshState → Prop
  | rotate (session : UserSession) (newToken : PresentedToken) (hs : s.session = some session)
      (hnew : newToken = generateRefreshToken env (randomUUID (s.rotations.length + 1)) call.signedAt) :
      RefreshMove env randomUUID s call ⟨some (rotated env session call newToken), call.savedAt, newToken,
        ⟨s.current, call.rotatedAt⟩ :: s.rotations⟩
  | unverified (hemail : call.emailVerified = false) :
      RefreshMove env randomUUID s call ⟨none, call.checkedAt, s.current, s.rotations⟩
  | refuse (hnot : ¬ Accepts env randomUUID s call) :
      RefreshMove env randomUUID s call ⟨s.session, call.checkedAt, s.current, s.rotations⟩

theorem refresh_move (h : refreshStep env randomUUID s call = some s') :
    call.inOrder s.clock ∧ RefreshMove env randomUUID s call s' := by
  unfold refreshStep at h
  by_cases horder : call.inOrder s.clock
  · rw [if_pos horder] at h
    refine ⟨horder, ?_⟩
    rcases refreshSession_cases env s.session call (randomUUID (s.rotations.length + 1)) with
      ⟨session, hby, -, -, heq⟩ | ⟨-, -, -, hemail, heq⟩ | ⟨-, e, heq⟩
    · unfold RefreshState.answer at h
      rw [heq] at h
      cases h
      exact .rotate session _ hby.1 rfl
    · unfold RefreshState.answer at h
      rw [heq] at h
      cases h
      exact .unverified hemail
    · have hnot : ¬ Accepts env randomUUID s call := by
        rintro ⟨t, ht⟩
        unfold RefreshState.answer at ht
        rw [heq] at ht
        cases ht
      unfold RefreshState.answer at h
      rw [heq] at h
      cases h
      exact .refuse hnot
  · rw [if_neg horder] at h
    cases h

/-- What is assumed: identifiers of tokens are distinct, hashes of tokens are distinct and not empty. -/
structure DistinctTokens (env : RefreshSettings) (randomUUID : ℕ → String) : Prop where
  ids : Function.Injective randomUUID
  hashes : Function.Injective env.hashToken
  nonempty : ∀ t, env.hashToken t ≠ ""

theorem read_entries (hd : DistinctTokens env randomUUID) (kept : List Rotation) :
    readRetiredRefreshTokens env.dates (storedTokens (kept.map (·.entry env))) = kept.map (·.entry env) := by
  refine read_stored fun e he => ?_
  obtain ⟨r, -, rfl⟩ := List.mem_map.mp he
  exact ⟨hd.nonempty _, by unfold Rotation.entry; dsimp only; rw [env.dates.parse_toISOString]; rfl⟩

theorem RotationInv.retained (hd : DistinctTokens env randomUUID) (h : RotationInv env randomUUID s)
    (horder : call.inOrder s.clock) {session : UserSession} (hs : s.session = some session) (newToken : PresentedToken) :
    ∃ kept, Retained (·.deadline env) maxRetainedRefreshTokens (⟨s.current, call.rotatedAt⟩ :: s.rotations)
        call.rotatedAt kept ∧
      readRetiredRefreshTokens env.dates (rotated env session call newToken).previousRefreshTokens =
        kept.map (·.entry env) := by
  obtain ⟨htoken, kept, hkept, hread⟩ := h.column session hs
  obtain ⟨hchecked, hsigned, hrotated, -⟩ := horder
  have hclock : s.clock ≤ call.rotatedAt := hchecked.trans (hsigned.trans hrotated)
  have hlast : s.last ≤ call.rotatedAt := h.last_le.trans hclock
  have hord := h.newestFirst hclock
  have hcolumn : (rotated env session call newToken).previousRefreshTokens = storedTokens
      ((if env.graceSeconds * 1000 = 0 then live (·.deadline env) call.rotatedAt kept
        else keepLast maxRetainedRefreshTokens (live (·.deadline env) call.rotatedAt kept ++
          [⟨s.current, call.rotatedAt⟩])).map (·.entry env)) := by
    unfold rotated
    dsimp only
    rw [hread, htoken, ← retain_entries kept ⟨s.current, call.rotatedAt⟩]
  rw [hcolumn, read_entries hd]
  refine ⟨_, ?_, rfl⟩
  by_cases hgrace : env.graceSeconds * 1000 = 0
  · rw [if_pos hgrace]
    refine hkept.expire hord hlast ?_
    show call.rotatedAt + env.graceSeconds * 1000 ≤ call.rotatedAt
    omega
  · rw [if_neg hgrace]
    refine hkept.retire hord hlast ?_
    show call.rotatedAt < call.rotatedAt + env.graceSeconds * 1000
    omega

theorem RotationInv.step (hd : DistinctTokens env randomUUID) (h : RotationInv env randomUUID s)
    (hstep : refreshStep env randomUUID s call = some s') : RotationInv env randomUUID s' := by
  obtain ⟨horder, hmove⟩ := refresh_move hstep
  obtain ⟨hchecked, hsigned, hrotated, hsaved⟩ := horder
  cases hmove with
  | rotate session newToken hs hnew =>
    refine ⟨?_, ?_, ?_, ?_⟩
    · have hid : newToken.idOf env = some (randomUUID (s.rotations.length + 1)) := by
        rw [hnew]
        exact if_pos rfl
      have hids := h.ids
      rw [List.map_cons, List.map_cons, hid]
      dsimp only
      rw [hids, List.length_cons, List.range_succ (n := s.rotations.length + 1), List.map_append, List.reverse_append]
      rfl
    · refine List.pairwise_cons.mpr ⟨fun r hr => ?_, h.ordered⟩
      exact (h.past r hr).trans (hchecked.trans (hsigned.trans hrotated))
    · intro r hr
      rcases List.mem_cons.mp hr with rfl | hr
      · exact hsaved
      · exact (h.past r hr).trans (hchecked.trans (hsigned.trans (hrotated.trans hsaved)))
    · intro session' hs'
      cases hs'
      exact ⟨rfl, h.retained hd ⟨hchecked, hsigned, hrotated, hsaved⟩ hs newToken⟩
  | unverified hemail => exact ⟨h.ids, h.ordered, fun r hr => (h.past r hr).trans hchecked, fun _ hs => by cases hs⟩
  | refuse hnot => exact ⟨h.ids, h.ordered, fun r hr => (h.past r hr).trans hchecked, h.column⟩

end Call

/-! ### What a call comes to -/

section Settled

variable {env : RefreshSettings} {randomUUID : ℕ → String} {s s' : RefreshState} {call : RefreshCall}

theorem RotationInv.signed (h : RotationInv env randomUUID s) {t : PresentedToken}
    (ht : t ∈ s.current :: s.rotations.map (·.token)) {now : ℕ} {payload : RefreshTokenPayload}
    (hverify : verifyRefreshToken now t = some payload) : payload.sessionID = env.sessionID := by
  have hid : t.idOf env ∈ (s.current :: s.rotations.map (·.token)).map (·.idOf env) := List.mem_map_of_mem ht
  rw [h.ids, List.mem_reverse] at hid
  obtain ⟨k, -, hk⟩ := List.mem_map.mp hid
  cases t with
  | other text => cases hk
  | signed payload' exp =>
    unfold verifyRefreshToken at hverify
    dsimp only at hverify
    split_ifs at hverify
    cases hverify
    unfold PresentedToken.idOf at hk
    dsimp only at hk
    split_ifs at hk with hsession
    exact hsession

theorem RotationInv.knownTo_iff (hd : DistinctTokens env randomUUID) (h : RotationInv env randomUUID s)
    (hclock : s.clock ≤ call.checkedAt) {session : UserSession} (hs : s.session = some session) :
    KnownTo env session call ↔ call.token = s.current ∨ RecentlySuperseded env s call := by
  obtain ⟨htoken, kept, hkept, hread⟩ := h.column session hs
  have hretired : isRetiredRefreshTokenAccepted env.dates
      (readRetiredRefreshTokens env.dates session.previousRefreshTokens) (env.hashToken call.token) call.checkedAt = true ↔
      RecentlySuperseded env s call := by
    rw [hread, isRetired_entries, hkept.accepts (h.last_le.trans hclock)]
    constructor
    · rintro ⟨r, hr, hhash, hlt⟩
      obtain ⟨k, hk, rfl⟩ := List.mem_iff_getElem.mp hr
      rw [List.length_take] at hk
      rw [List.getElem_take] at hhash hlt
      have hlength : k < s.rotations.length := by omega
      refine ⟨k, s.rotations[k], List.getElem?_eq_getElem hlength, by omega, hd.hashes hhash, hlt⟩
    · rintro ⟨k, r, hk, hcap, htok, hlt⟩
      have htake : (s.rotations.take maxRetainedRefreshTokens)[k]? = some r := by
        rw [List.getElem?_take_of_lt (by omega)]
        exact hk
      exact ⟨r, List.mem_of_getElem? htake, congrArg env.hashToken htok, hlt⟩
  unfold KnownTo
  rw [hretired, htoken]
  exact or_congr_left ⟨fun heq => (hd.hashes heq).symm, fun heq => congrArg env.hashToken heq.symm⟩

theorem RecentlySuperseded.mem (h : RecentlySuperseded env s call) : call.token ∈ s.rotations.map (·.token) := by
  obtain ⟨k, r, hk, -, hr, -⟩ := h
  exact hr ▸ List.mem_map_of_mem (List.mem_of_getElem? hk)

theorem RotationInv.accepted (hd : DistinctTokens env randomUUID) (h : RotationInv env randomUUID s)
    (hclock : s.clock ≤ call.checkedAt) (hservice : InService s call) :
    Accepts env randomUUID s call ↔ Verifies call ∧ (call.token = s.current ∨ RecentlySuperseded env s call) := by
  obtain ⟨hemail, session, hs, hread⟩ := hservice
  rw [accepts_iff ⟨hemail, session, hs, hread⟩ hs, h.knownTo_iff hd hclock hs]
  constructor
  · rintro ⟨⟨-, -, payload, hverify, -⟩, hknown⟩
    exact ⟨Option.isSome_iff_exists.mpr ⟨payload, hverify⟩, hknown⟩
  · rintro ⟨hverifies, hknown⟩
    obtain ⟨payload, hverify⟩ := Option.isSome_iff_exists.mp hverifies
    have hmem : call.token ∈ s.current :: s.rotations.map (·.token) := by
      rcases hknown with heq | hsuperseded
      · exact heq ▸ List.mem_cons_self
      · exact List.mem_cons_of_mem _ hsuperseded.mem
    exact ⟨⟨hs, hread, payload, hverify, h.signed hmem hverify⟩, hknown⟩

theorem entry_eq_of_hash (hd : DistinctTokens env randomUUID) {history : List Rotation}
    (hnodup : (history.map (·.token)).Nodup) {r r' : Rotation} (hr : r ∈ history) (hr' : r' ∈ history)
    (h : (r'.entry env).hash = (r.entry env).hash) : r'.entry env = r.entry env := by
  have htoken : r'.token = r.token := hd.hashes h
  exact congrArg (·.entry env) (List.inj_on_of_nodup_map hnodup hr' hr htoken)

theorem RotationInv.tokens_nodup (hd : DistinctTokens env randomUUID) (h : RotationInv env randomUUID s) :
    (s.current :: s.rotations.map (·.token)).Nodup := by
  refine List.Nodup.of_map (·.idOf env) ?_
  rw [h.ids, List.nodup_reverse]
  exact List.nodup_range.map fun a b hab => hd.ids (Option.some.inj hab)

theorem RotationInv.read_mem (h : RotationInv env randomUUID s) {session : UserSession} (hs : s.session = some session)
    {e : RetiredRefreshToken} (he : e ∈ readRetiredRefreshTokens env.dates session.previousRefreshTokens) :
    ∃ r ∈ s.rotations, r.entry env = e := by
  obtain ⟨-, kept, hkept, hread⟩ := h.column session hs
  rw [hread] at he
  obtain ⟨r, hr, rfl⟩ := List.mem_map.mp he
  exact ⟨r, hkept.mem_history hr, rfl⟩

theorem refreshed_of_step (hd : DistinctTokens env randomUUID) (h : RotationInv env randomUUID s)
    (hstep : refreshStep env randomUUID s call = some s') : Refreshed env randomUUID s call s' := by
  have hnext := h.step hd hstep
  obtain ⟨horder, hmove⟩ := refresh_move hstep
  have hhistory : ∀ r ∈ s.rotations, r ∈ s'.rotations := by
    intro r hr
    cases hmove with
    | rotate session newToken hs hnew => exact List.mem_cons_of_mem _ hr
    | unverified hemail => exact hr
    | refuse hnot => exact hr
  refine ⟨h.accepted hd horder.1, ?_, ?_, ?_⟩
  · intro session session' hs hs' e he e' he' hhash
    obtain ⟨r, hr, rfl⟩ := h.read_mem hs he
    obtain ⟨r', hr', rfl⟩ := hnext.read_mem hs' he'
    exact entry_eq_of_hash hd (List.nodup_cons.mp (hnext.tokens_nodup hd)).2 (hhistory r hr) hr' hhash
  · intro session hs
    obtain ⟨-, kept, hkept, hread⟩ := hnext.column session hs
    rw [hread, List.length_map]
    exact hkept.length_le
  · intro hservice hnot
    cases hmove with
    | rotate session newToken hs hnew =>
      -- a call that is refused makes no rotation
      unfold refreshStep at hstep
      rw [if_pos horder] at hstep
      cases hanswer : s.answer env randomUUID call with
      | mk result row =>
        rw [hanswer] at hstep
        cases result with
        | ok t => exact absurd ⟨t, congrArg Prod.fst hanswer⟩ hnot
        | error e =>
          have hlen := congrArg (fun st => st.rotations.length) (Option.some.inj hstep)
          simp at hlen
    | unverified hemail =>
      rw [hservice.1] at hemail
      cases hemail
    | refuse _ => rfl

end Settled

/-- **Refresh token rotation.**  On a session in service, a token is accepted if and only if it verifies and is the current
one or was superseded less than the grace ago with at most so many rotations since; no call moves the deadline of a
retired token, the list is capped, and a token that is refused leaves the session as it is. -/
theorem refresh_rotation (env : RefreshSettings) (randomUUID : ℕ → String) (hd : DistinctTokens env randomUUID) (now : ℕ)
    (calls : List RefreshCall) :
    Steps (refreshStep env randomUUID) (Refreshed env randomUUID) (.started env randomUUID now) calls :=
  steps_of_meets (C := fun _ _ => True) (I := RotationInv env randomUUID)
    (fun _ _ _ h _ hstep => ⟨h.step hd hstep, refreshed_of_step hd h hstep⟩) (RotationInv.started now)
    (meets_of_forall fun _ _ => trivial)

/-! ### A retired token whose own expiration has come -/

/-- A minute after the first week of the epoch, less a second. -/
def weekText : String := "1970-01-08T00:00:59.000Z"

/-- Texts of instants; that of `weekText` is as `toISOString` writes it. -/
def exampleDates : IsoDates where
  parse text := if text = weekText then some 604859000
    else if text.toList.head? = some '+' then some (text.toList.length - 1 : ℤ) else none
  toISOString t := if t = 604859000 then weekText else String.ofList ('+' :: List.replicate t '0')
  parse_toISOString t := by
    by_cases h : t = 604859000
    · rw [if_pos h, if_pos rfl, h]
      rfl
    · have hne : String.ofList ('+' :: List.replicate t '0') ≠ weekText := by
        intro heq
        have hhead := congrArg (fun text : String => text.toList.head?) heq
        rw [String.toList_ofList, List.head?_cons] at hhead
        exact absurd hhead (by decide)
      rw [if_neg h, if_neg hne, String.toList_ofList, List.head?_cons, if_pos rfl, List.length_cons,
        List.length_replicate]
      exact congrArg some (by omega)

/-- The parts of a token in quotes, and its expiration. -/
def exampleHash : PresentedToken → String
  | .signed payload exp => String.ofList ('s' :: (payload.sessionID.toList.flatMap escape ++
      '"' :: (payload.tokenID.toList.flatMap escape ++ '"' :: List.replicate exp '0')))
  | .other text => String.ofList ('o' :: text.toList)

theorem exampleHash_injective : Function.Injective exampleHash := by
  intro t t' h
  have hlist := congrArg String.toList h
  cases t with
  | other text =>
    cases t' with
    | other text' =>
      unfold exampleHash at hlist
      rw [String.toList_ofList, String.toList_ofList] at hlist
      exact congrArg PresentedToken.other (String.toList_inj.mp (List.cons_eq_cons.mp hlist).2)
    | signed payload' exp' =>
      unfold exampleHash at hlist
      rw [String.toList_ofList, String.toList_ofList] at hlist
      exact absurd (List.cons_eq_cons.mp hlist).1 (by decide)
  | signed payload exp =>
    cases t' with
    | other text' =>
      unfold exampleHash at hlist
      rw [String.toList_ofList, String.toList_ofList] at hlist
      exact absurd (List.cons_eq_cons.mp hlist).1 (by decide)
    | signed payload' exp' =>
      unfold exampleHash at hlist
      rw [String.toList_ofList, String.toList_ofList] at hlist
      have hsession := congrArg readChars (List.cons_eq_cons.mp hlist).2
      rw [readChars_quoted, readChars_quoted] at hsession
      obtain ⟨hs, hrest⟩ := Prod.mk.inj (Option.some.inj hsession)
      have htoken := congrArg readChars hrest
      rw [readChars_quoted, readChars_quoted] at htoken
      obtain ⟨hid, hexp⟩ := Prod.mk.inj (Option.some.inj htoken)
      have hlength := congrArg List.length hexp
      rw [List.length_replicate, List.length_replicate] at hlength
      obtain ⟨sessionID, tokenID⟩ := payload
      obtain ⟨sessionID', tokenID'⟩ := payload'
      cases String.toList_inj.mp hs
      cases String.toList_inj.mp hid
      rw [hlength]

def exampleUUID (k : ℕ) : String := String.ofList (List.replicate k 'x')

def weekEnv : RefreshSettings := ⟨exampleDates, exampleHash, 60, 604800, "s1"⟩

theorem weekEnv_distinct : DistinctTokens weekEnv exampleUUID where
  ids a b h := by
    have hlength := congrArg (fun text : String => text.toList.length) h
    unfold exampleUUID at hlength
    simpa only [String.toList_ofList, List.length_replicate] using hlength
  hashes := exampleHash_injective
  nonempty t h := by
    have hlist := congrArg String.toList h
    cases t with
    | signed payload exp =>
      unfold weekEnv exampleHash at hlist
      dsimp only at hlist
      rw [String.toList_ofList] at hlist
      cases hlist
    | other text =>
      unfold weekEnv exampleHash at hlist
      dsimp only at hlist
      rw [String.toList_ofList] at hlist
      cases hlist

/-- The first token is presented a second before its expiration, and again a second after it. -/
def firstToken : PresentedToken := generateRefreshToken weekEnv (exampleUUID 0) 0

def refreshAt (now : ℕ) : RefreshCall := ⟨firstToken, true, now, now, now, now, now, now⟩

theorem refresh_rotation_week : Steps (refreshStep weekEnv exampleUUID) (Refreshed weekEnv exampleUUID)
    (.started weekEnv exampleUUID 0) [refreshAt 604799000, refreshAt 604801000] :=
  refresh_rotation weekEnv exampleUUID weekEnv_distinct 0 _

/-- The second call presents a token superseded two seconds ago, and is refused. -/
theorem expired_retry_refused :
    ¬ ∀ (env : RefreshSettings) (randomUUID : ℕ → String), DistinctTokens env randomUUID → ∀ now calls,
      Steps (refreshStep env randomUUID) (fun s call _ => InService s call →
        (Accepts env randomUUID s call ↔ call.token = s.current ∨ RecentlySuperseded env s call))
        (.started env randomUUID now) calls := by
  intro h
  have hsteps := h weekEnv exampleUUID weekEnv_distinct 0 [refreshAt 604799000, refreshAt 604801000]
  have hstarted : RotationInv weekEnv exampleUUID (.started weekEnv exampleUUID 0) := RotationInv.started 0
  obtain ⟨s₁, hs₁⟩ : ∃ s₁, refreshStep weekEnv exampleUUID (.started weekEnv exampleUUID 0) (refreshAt 604799000) =
      some s₁ := by
    unfold refreshStep
    rw [if_pos ⟨Nat.zero_le _, le_refl _, le_refl _, le_refl _⟩]
    split <;> exact ⟨_, rfl⟩
  obtain ⟨-, hsteps⟩ := hsteps s₁ hs₁
  have hservice : InService (.started weekEnv exampleUUID 0) (refreshAt 604799000) := ⟨rfl, _, rfl, by decide⟩
  have haccepts : Accepts weekEnv exampleUUID (.started weekEnv exampleUUID 0) (refreshAt 604799000) :=
    (hstarted.accepted weekEnv_distinct (Nat.zero_le _) hservice).mpr ⟨rfl, Or.inl rfl⟩
  have hinv := hstarted.step weekEnv_distinct hs₁
  obtain ⟨-, hmove⟩ := refresh_move hs₁
  cases hmove with
  | unverified hemail => cases hemail
  | refuse hnot => exact hnot haccepts
  | rotate session newToken hs hnew =>
    have hclock : 604799000 ≤ (refreshAt 604801000).checkedAt := by decide
    obtain ⟨s₂, hs₂⟩ : ∃ s₂, refreshStep weekEnv exampleUUID ⟨some (rotated weekEnv session (refreshAt 604799000) newToken),
        604799000, newToken, [⟨firstToken, 604799000⟩]⟩ (refreshAt 604801000) = some s₂ := by
      unfold refreshStep
      rw [if_pos ⟨hclock, le_refl _, le_refl _, le_refl _⟩]
      split <;> exact ⟨_, rfl⟩
    obtain ⟨hliteral, -⟩ := hsteps s₂ hs₂
    have hlater : InService ⟨some (rotated weekEnv session (refreshAt 604799000) newToken), 604799000, newToken,
        [⟨firstToken, 604799000⟩]⟩ (refreshAt 604801000) := by
      refine ⟨rfl, _, rfl, ?_⟩
      show 604801000 < 604799000 + 604800 * 1000
      omega
    have hagain := (hliteral hlater).mpr (Or.inr ⟨0, _, rfl, by decide, rfl, by decide⟩)
    obtain ⟨hverifies, -⟩ := (hinv.accepted weekEnv_distinct hclock hlater).mp hagain
    revert hverifies
    unfold Verifies
    decide

end TeamInbox.Api
