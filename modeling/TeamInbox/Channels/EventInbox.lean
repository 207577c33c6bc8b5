import TeamInbox.Lib.Calls
import Mathlib.Tactic.SplitIfs
import Mathlib.Algebra.Group.Nat.Defs

/-!
# TeamInbox.Channels.EventInbox — a channel event takes effect at most once

`applyNormalizedChannelEvent` for one event identity.  A call reserves the inbox row, applies the event in a
transaction that locks the row, and records a failure; each of these commits on its own.  Calls come from
deliveries and from the retry loop.  A payload is what the digest is taken of: an event without its `receivedAt`.
-/

namespace TeamInbox.Channels

open TeamInbox.Lib

inductive InboxStatus
  | pending
  | applied
  | quarantined
  deriving DecidableEq

/-- The row of the event identity in `channel_event_inbox`. -/
structure InboxRow (Payload Digest : Type) where
  status : InboxStatus
  payloadDigest : Digest
  normalizedEvent : Payload
  attempts : ℕ
  nextAttemptAt : ℕ
  lastErrorCode : Option String
  deriving DecidableEq

/-- The row, and the payloads whose effects have been committed. -/
structure Inbox (Payload Digest : Type) where
  row : Option (InboxRow Payload Digest)
  effects : List Payload

inductive ApplicationError
  | identityCollision (text : String)
  | accountMismatch (text : String)
  | other (text : String)
  deriving DecidableEq

def ApplicationError.quarantines : ApplicationError → Bool
  | .identityCollision _ | .accountMismatch _ => true
  | .other _ => false

def ApplicationError.code : ApplicationError → String
  | .identityCollision text | .accountMismatch text | .other text => String.ofList (text.toList.take 200)

inductive EventCall (Payload : Type)
  | idle
  | received (x : Payload)
  | reserved (x : Payload)
  | failed (x : Payload) (error : ApplicationError)
  /-- the retry loop has found a stored event it cannot use -/
  | invalid
  deriving DecidableEq

inductive EventAction (Payload : Type)
  | deliver (x : Payload)
  /-- the retry loop selects the row, and finds it valid or not -/
  | retry (valid : Bool)
  | reserve
  /-- the transaction; what it applies may fail -/
  | apply (error : Option ApplicationError)
  | record
  | crash
  deriving DecidableEq

section EventInbox

variable {Payload Digest : Type} [DecidableEq Digest] (digest : Payload → Digest)

/-- The time until the next attempt, in milliseconds. -/
def retryDelay (attempts : ℕ) : ℕ := min 900000 (5000 * 2 ^ min attempts 8)

/-- `recordApplicationFailure`. -/
def InboxRow.recordFailure (now : ℕ) (error : ApplicationError) (r : InboxRow Payload Digest) :
    InboxRow Payload Digest :=
  { r with
    status := if error.quarantines then .quarantined else .pending
    attempts := min (r.attempts + 1) 30
    nextAttemptAt := now + retryDelay r.attempts
    lastErrorCode := some error.code }

def InboxRow.quarantine (code : String) (r : InboxRow Payload Digest) : InboxRow Payload Digest :=
  { r with
    status := .quarantined
    lastErrorCode := some code }

def collision : ApplicationError := .identityCollision "event identity was reused with another payload"

/-- `reserveInboxEvent`. -/
def reserveInboxEvent (now : ℕ) (s : Inbox Payload Digest) (x : Payload) :
    Inbox Payload Digest × EventCall Payload :=
  match s.row with
  | none => ({ s with row := some ⟨.pending, digest x, x, 0, now, none⟩ }, .reserved x)
  | some r =>
    if r.payloadDigest ≠ digest x then ({ s with row := some (r.quarantine "event_identity_collision") }, .idle)
    else if r.status = .applied then (s, .idle)
    else (s, .reserved x)

/-- The transaction of `applyNormalizedChannelEvent`; `error` is what applying the event runs into. -/
def applyEvent (s : Inbox Payload Digest) (x : Payload) (error : Option ApplicationError) :
    Inbox Payload Digest × EventCall Payload :=
  match s.row with
  | none => (s, .failed x (.other "no result"))
  | some r =>
    if r.payloadDigest ≠ digest x then (s, .failed x collision)
    else match r.status, error with
      | .applied, _ => (s, .idle)
      | .quarantined, _ => (s, .failed x (.identityCollision "event is quarantined"))
      | .pending, some e => (s, .failed x e)
      | .pending, none =>
        ({ row := some { r with
             status := .applied
             lastErrorCode := none
             attempts := r.attempts + 1 }
           effects := x :: s.effects }, .idle)

/-- `dispatchNextChannelEventRetry` up to the call it makes. -/
def selectRetry (now : ℕ) (s : Inbox Payload Digest) (valid : Bool) : Option (EventCall Payload) :=
  match s.row with
  | none => none
  | some r =>
    if r.status = .pending ∧ r.nextAttemptAt ≤ now then
      some (if valid then .received r.normalizedEvent else .invalid)
    else none

def eventAct (s : Inbox Payload Digest) :
    EventCall Payload → ℕ × EventAction Payload → Option (Inbox Payload Digest × EventCall Payload)
  | .idle, (_, .deliver x) => some (s, .received x)
  | .idle, (now, .retry valid) => (selectRetry now s valid).map fun call => (s, call)
  | .received x, (now, .reserve) => some (reserveInboxEvent digest now s x)
  | .reserved x, (_, .apply error) => some (applyEvent digest s x error)
  | .failed _ error, (now, .record) => some ({ s with row := s.row.map (·.recordFailure now error) }, .idle)
  | .invalid, (_, .record) => some ({ s with row := s.row.map (·.quarantine "invalid_stored_event") }, .idle)
  | _, (_, .crash) => some (s, .idle)
  | _, _ => none

def inboxSystem : Machine (Inbox Payload Digest) (EventCall Payload) (ℕ × EventAction Payload) Empty where
  act := fun _ s x a => eventAct digest s x a
  env := fun e _ => nomatch e

/-! ### What is claimed -/

/-- Effects are committed once at most, of the payload reserved first; then the row is not retried, and before it is
not taken for applied. -/
structure EffectOnce (s : Inbox Payload Digest) : Prop where
  once : s.effects.length ≤ 1
  reserved : ∀ x ∈ s.effects, ∃ r, s.row = some r ∧ x = r.normalizedEvent
  settled : s.effects ≠ [] → ∀ r ∈ s.row, r.status ≠ .pending
  kept : s.effects = [] → ∀ r ∈ s.row, r.status = .pending ∨ r.status = .quarantined

/-- A reserved event stays, and so does its payload. -/
def StaysReserved (s s' : Inbox Payload Digest) : Prop :=
  ∀ r ∈ s.row, ∃ r' ∈ s'.row, r'.normalizedEvent = r.normalizedEvent

def Inbox.empty : Inbox Payload Digest := ⟨none, []⟩

def EventOnce (as : List (CallAction (ℕ × EventAction Payload) Empty)) : Prop :=
  Always (inboxSystem digest).step (fun s => EffectOnce s.shared) (.start .empty .idle) as ∧
    Steps (inboxSystem digest).step (fun s _ s' => StaysReserved s.shared s'.shared) (.start .empty .idle) as

/-- A failure that is to be retried is recorded before the effects have been committed. -/
def RecordsInTime (s : Calls (Inbox Payload Digest) (EventCall Payload)) :
    CallAction (ℕ × EventAction Payload) Empty → Prop
  | .act p (_, .record) =>
    match s.calls p with
    | .failed _ error => error.quarantines = true ∨ s.shared.effects = []
    | _ => True
  | _ => True

instance (s : Calls (Inbox Payload Digest) (EventCall Payload)) (a : CallAction (ℕ × EventAction Payload) Empty) :
    Decidable (RecordsInTime s a) := by
  unfold RecordsInTime
  split
  · split <;> infer_instance
  · infer_instance

/-! ### Steps -/

inductive InboxMove (s : Inbox Payload Digest) : Inbox Payload Digest → Prop
  | same : InboxMove s s
  | reserve {x : Payload} {now : ℕ} (h : s.row = none) :
    InboxMove s { s with row := some ⟨.pending, digest x, x, 0, now, none⟩ }
  | quarantine {r : InboxRow Payload Digest} {code : String} (h : s.row = some r) :
    InboxMove s { s with row := some (r.quarantine code) }
  | commit {r : InboxRow Payload Digest} {x : Payload} (h : s.row = some r) (hdigest : r.payloadDigest = digest x)
      (hstatus : r.status = .pending) :
    InboxMove s ⟨some { r with status := .applied, lastErrorCode := none, attempts := r.attempts + 1 }, x :: s.effects⟩
  | record {r : InboxRow Payload Digest} {now : ℕ} {error : ApplicationError} (h : s.row = some r)
      (htime : error.quarantines = true ∨ s.effects = []) :
    InboxMove s { s with row := some (r.recordFailure now error) }

variable {digest}

theorem applyEvent_move {s w : Inbox Payload Digest} {x : Payload} {error : Option ApplicationError}
    {y : EventCall Payload} (h : applyEvent digest s x error = (w, y)) : InboxMove digest s w := by
  unfold applyEvent at h
  split at h
  · obtain ⟨rfl, -⟩ := Prod.mk.inj h
    exact .same
  · next r hrow =>
    split_ifs at h with hdigest
    · obtain ⟨rfl, -⟩ := Prod.mk.inj h
      exact .same
    · split at h
      · obtain ⟨rfl, -⟩ := Prod.mk.inj h
        exact .same
      · obtain ⟨rfl, -⟩ := Prod.mk.inj h
        exact .same
      · obtain ⟨rfl, -⟩ := Prod.mk.inj h
        exact .same
      · next hstatus =>
        obtain ⟨rfl, -⟩ := Prod.mk.inj h
        exact .commit hrow (not_not.mp hdigest) hstatus

theorem reserveInboxEvent_move {s w : Inbox Payload Digest} {x : Payload} {now : ℕ} {y : EventCall Payload}
    (h : reserveInboxEvent digest now s x = (w, y)) : InboxMove digest s w := by
  unfold reserveInboxEvent at h
  split at h
  · next hrow =>
    obtain ⟨rfl, -⟩ := Prod.mk.inj h
    exact .reserve hrow
  · next r hrow =>
    split_ifs at h
    · obtain ⟨rfl, -⟩ := Prod.mk.inj h
      exact .quarantine hrow
    · obtain ⟨rfl, -⟩ := Prod.mk.inj h
      exact .same
    · obtain ⟨rfl, -⟩ := Prod.mk.inj h
      exact .same

theorem inboxStep_move {s s' : Calls (Inbox Payload Digest) (EventCall Payload)}
    {a : CallAction (ℕ × EventAction Payload) Empty} (hC : RecordsInTime s a)
    (h : (inboxSystem digest).step s a = some s') : InboxMove digest s.shared s'.shared := by
  cases a with
  | env e => exact nomatch e
  | act p a =>
    obtain ⟨w, x', hact, rfl⟩ := Machine.step_act h
    obtain ⟨now, a⟩ := a
    have hact : eventAct digest s.shared (s.calls p) (now, a) = some (w, x') := hact
    rw [Calls.shared_set]
    generalize hp : s.calls p = x at hact
    cases a with
    | deliver y =>
      cases x with
      | idle =>
        obtain ⟨rfl, -⟩ := Prod.mk.inj (Option.some.inj hact)
        exact .same
      | received | reserved | failed | invalid => exact nomatch hact
    | retry valid =>
      cases x with
      | idle =>
        obtain ⟨_, -, heq⟩ := Option.map_eq_some_iff.mp hact
        obtain ⟨rfl, -⟩ := Prod.mk.inj heq
        exact .same
      | received | reserved | failed | invalid => exact nomatch hact
    | reserve =>
      cases x with
      | received y => exact reserveInboxEvent_move (Option.some.inj hact)
      | idle | reserved | failed | invalid => exact nomatch hact
    | apply error =>
      cases x with
      | reserved y => exact applyEvent_move (Option.some.inj hact)
      | idle | received | failed | invalid => exact nomatch hact
    | record =>
      cases x with
      | failed y error =>
        obtain ⟨rfl, -⟩ := Prod.mk.inj (Option.some.inj hact)
        cases hrow : s.shared.row with
        | none =>
          have hsame : ({ s.shared with row := none } : Inbox Payload Digest) = s.shared := by rw [← hrow]
          rw [Option.map_none, hsame]
          exact .same
        | some r =>
          have hC : match s.calls p with
              | .failed _ error => error.quarantines = true ∨ s.shared.effects = []
              | _ => True := hC
          rw [hp] at hC
          exact .record hrow hC
      | invalid =>
        obtain ⟨rfl, -⟩ := Prod.mk.inj (Option.some.inj hact)
        cases hrow : s.shared.row with
        | none =>
          have hsame : ({ s.shared with row := none } : Inbox Payload Digest) = s.shared := by rw [← hrow]
          rw [Option.map_none, hsame]
          exact .same
        | some r => exact .quarantine hrow
      | idle | received | reserved => exact nomatch hact
    | crash =>
      have hact : some (s.shared, EventCall.idle) = some (w, x') := by
        cases x <;> exact hact
      obtain ⟨rfl, -⟩ := Prod.mk.inj (Option.some.inj hact)
      exact .same

/-- The row bears the digest of the payload it stores. -/
structure InboxInv (digest : Payload → Digest) (s : Inbox Payload Digest) : Prop extends EffectOnce s where
  digested : ∀ r ∈ s.row, r.payloadDigest = digest r.normalizedEvent

omit [DecidableEq Digest] in
theorem inboxInv_empty : InboxInv digest (Inbox.empty : Inbox Payload Digest) where
  once := Nat.zero_le 1
  reserved := fun _ h => absurd h List.not_mem_nil
  settled := fun _ _ h => (nomatch h)
  kept := fun _ _ h => (nomatch h)
  digested := fun _ h => (nomatch h)

omit [DecidableEq Digest] in
theorem InboxInv.of_row {s : Inbox Payload Digest} (hI : InboxInv digest s) {r r' : InboxRow Payload Digest}
    (hr : s.row = some r) (hdigest : r'.payloadDigest = r.payloadDigest)
    (hevent : r'.normalizedEvent = r.normalizedEvent) (hsettled : s.effects ≠ [] → r'.status ≠ .pending)
    (hkept : s.effects = [] → r'.status = .pending ∨ r'.status = .quarantined) :
    InboxInv digest { s with row := some r' } := by
  refine ⟨⟨hI.once, fun x hx => ?_, fun h t ht => ?_, fun h t ht => ?_⟩, fun t ht => ?_⟩
  · obtain ⟨t, ht, rfl⟩ := hI.reserved x hx
    obtain rfl := Option.some.inj (hr.symm.trans ht)
    exact ⟨r', rfl, hevent.symm⟩
  · obtain rfl := Option.some.inj ht
    exact hsettled h
  · obtain rfl := Option.some.inj ht
    exact hkept h
  · obtain rfl := Option.some.inj ht
    rw [hdigest, hevent]
    exact hI.digested r hr

omit [DecidableEq Digest] in
theorem InboxInv.move (hinj : Function.Injective digest) {s w : Inbox Payload Digest} (hI : InboxInv digest s)
    (h : InboxMove digest s w) : InboxInv digest w ∧ StaysReserved s w := by
  cases h with
  | same => exact ⟨hI, fun r hr => ⟨r, hr, rfl⟩⟩
  | reserve hrow =>
    have hnone : s.effects = [] := by
      by_contra hne
      obtain ⟨x, hx⟩ := List.exists_mem_of_ne_nil s.effects hne
      obtain ⟨r, hr, -⟩ := hI.reserved x hx
      rw [hrow] at hr
      exact Option.some_ne_none r hr.symm
    refine ⟨⟨⟨hI.once, fun x hx => ?_, fun h => absurd hnone h, fun _ t ht => ?_⟩, fun t ht => ?_⟩, fun r hr => ?_⟩
    · rw [hnone] at hx
      exact absurd hx List.not_mem_nil
    · obtain rfl := Option.some.inj ht
      exact .inl rfl
    · obtain rfl := Option.some.inj ht
      rfl
    · rw [hrow] at hr
      exact absurd hr (nomatch ·)
  | quarantine hrow =>
    rename_i r code
    refine ⟨hI.of_row hrow rfl rfl (fun _ => nofun) fun _ => .inr rfl, fun t ht => ?_⟩
    obtain rfl := Option.some.inj (hrow.symm.trans ht)
    exact ⟨_, rfl, rfl⟩
  | commit hrow hdigest hstatus =>
    rename_i r x
    have hnone : s.effects = [] := by
      by_contra hne
      exact hI.settled hne r hrow hstatus
    -- under one digest there is one payload
    have hx : x = r.normalizedEvent := hinj (hdigest.symm.trans (hI.digested r hrow))
    refine ⟨⟨⟨?_, fun y hy => ?_, fun _ t ht => ?_, fun h => absurd h (List.cons_ne_nil _ _)⟩, fun t ht => ?_⟩,
      fun t ht => ?_⟩
    · rw [hnone]
      exact Nat.le_refl 1
    · rw [hnone, List.mem_singleton] at hy
      exact ⟨_, rfl, hy.trans hx⟩
    · obtain rfl := Option.some.inj ht
      exact nofun
    · obtain rfl := Option.some.inj ht
      exact hI.digested r hrow
    · obtain rfl := Option.some.inj (hrow.symm.trans ht)
      exact ⟨_, rfl, rfl⟩
  | record hrow htime =>
    rename_i r now error
    refine ⟨hI.of_row hrow rfl rfl (fun hne => ?_) fun _ => ?_, fun t ht => ?_⟩
    · have hq : error.quarantines = true := htime.resolve_right hne
      rw [InboxRow.recordFailure, if_pos hq]
      exact nofun
    · rw [InboxRow.recordFailure]
      cases error.quarantines with
      | true => exact .inr rfl
      | false => exact .inl rfl
    · obtain rfl := Option.some.inj (hrow.symm.trans ht)
      exact ⟨_, rfl, rfl⟩

theorem recordsInTime_of_step {s s' : Calls (Inbox Payload Digest) (EventCall Payload)}
    {a : CallAction (ℕ × EventAction Payload) Empty} (hs : EffectOnce s.shared)
    (h : (inboxSystem digest).step s a = some s') (hs' : EffectOnce s'.shared) : RecordsInTime s a := by
  cases a with
  | env e => exact nomatch e
  | act p a =>
    obtain ⟨now, a⟩ := a
    cases a with
    | deliver | retry | reserve | apply | crash => trivial
    | record =>
      obtain ⟨w, y, hact, rfl⟩ := Machine.step_act h
      have hact : eventAct digest s.shared (s.calls p) (now, .record) = some (w, y) := hact
      show match s.calls p with
        | .failed _ error => error.quarantines = true ∨ s.shared.effects = []
        | _ => True
      cases hp : s.calls p with
      | idle | received | reserved | invalid => trivial
      | failed x error => ?_
      rw [hp] at hact
      obtain ⟨rfl, -⟩ := Prod.mk.inj (Option.some.inj hact)
      by_contra hlate
      obtain ⟨hq, hne⟩ := not_or.mp hlate
      obtain ⟨z, hz⟩ := List.exists_mem_of_ne_nil s.shared.effects hne
      obtain ⟨r, hr, -⟩ := hs.reserved z hz
      have hrow : ({ s.shared with row := s.shared.row.map (·.recordFailure now error) } : Inbox Payload Digest).row =
          some (r.recordFailure now error) := by rw [hr]; rfl
      refine hs'.settled hne _ hrow ?_
      rw [InboxRow.recordFailure, if_neg hq]

/-- **At most once, and never lost**, exactly as long as no failure is recorded after a commit. -/
theorem event_takes_effect_once (hinj : Function.Injective digest)
    (as : List (CallAction (ℕ × EventAction Payload) Empty)) :
    Meets (inboxSystem digest).step RecordsInTime (.start .empty .idle) as ↔ EventOnce digest as := by
  have hstart : InboxInv digest (Inbox.empty : Inbox Payload Digest) := inboxInv_empty
  constructor
  · intro h
    have hstep : ∀ s a s', InboxInv digest s.shared → RecordsInTime s a → (inboxSystem digest).step s a = some s' →
        InboxInv digest s'.shared ∧ StaysReserved s.shared s'.shared :=
      fun s a s' hI hC hrun => hI.move hinj (inboxStep_move hC hrun)
    have hrun : Always (inboxSystem digest).step (fun s => InboxInv digest s.shared) (.start .empty .idle) as :=
      always_of_meets (fun s a s' hI hC hrun => (hstep s a s' hI hC hrun).1) hstart h
    exact ⟨hrun.mono fun _ hI => hI.toEffectOnce, steps_of_meets hstep hstart h⟩
  · rintro ⟨h, -⟩
    exact meets_of_always (I := fun s => EffectOnce s.shared) (fun _ _ _ _ _ h => h)
      (fun _ _ _ hs hrun hs' => recordsInTime_of_step hs hrun hs') hstart.toEffectOnce h

end EventInbox

/-- A failed delivery is retried and committed; another payload under the identity is quarantined. -/
theorem event_takes_effect_once_retried : EventOnce (id : String → String)
    [.act 0 (0, .deliver "a"), .act 0 (0, .reserve), .act 0 (0, .apply (some (.other "timeout"))),
      .act 0 (0, .record), .act 1 (9000, .retry true), .act 1 (9000, .reserve), .act 1 (9000, .apply none),
      .act 2 (9500, .deliver "b"), .act 2 (9500, .reserve)] := by
  refine (event_takes_effect_once Function.injective_id _).mp ?_
  exact meets_of_check (by decide +kernel)

/-- A failure is recorded after another call has committed, and the retry commits again. -/
theorem event_takes_effect_twice : ¬ ∀ as, EventOnce (id : String → String) as := by
  intro h
  obtain ⟨honce, -⟩ := h [.act 0 (0, .deliver "a"), .act 0 (0, .reserve), .act 0 (0, .apply (some (.other "timeout"))),
    .act 1 (0, .deliver "a"), .act 1 (0, .reserve), .act 1 (0, .apply none), .act 0 (0, .record),
    .act 2 (20000, .retry true), .act 2 (20000, .reserve), .act 2 (20000, .apply none)]
  have hrun : (runActions (inboxSystem (id : String → String)).step (.start .empty .idle) [.act 0 (0, .deliver "a"),
      .act 0 (0, .reserve), .act 0 (0, .apply (some (.other "timeout"))), .act 1 (0, .deliver "a"),
      .act 1 (0, .reserve), .act 1 (0, .apply none), .act 0 (0, .record), .act 2 (20000, .retry true),
      .act 2 (20000, .reserve), .act 2 (20000, .apply none)]).map (fun s => s.shared.effects) = some ["a", "a"] := by
    decide +kernel
  obtain ⟨s, hs, heffects⟩ := Option.map_eq_some_iff.mp hrun
  have hend : EffectOnce s.shared := always_iff_reached.mp honce _ [] s (List.append_nil _).symm hs
  have htwice : s.shared.effects.length ≤ 1 := hend.once
  rw [heffects] at htwice
  exact absurd htwice (by decide)

end TeamInbox.Channels
