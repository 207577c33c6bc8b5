import TeamInbox.Channels.TelegramTransport

/-!
# TeamInbox.Channels.SendOnce — the adapter is called again only after a transient failure

A dispatcher that has claimed the intent is the only one until it has recorded a transient failure: nothing else
makes the intent pending again.  Hence every call of the adapter but the last has been recorded as such, and an
adapter without transient failures is called once.
-/

namespace TeamInbox.Channels

open TeamInbox.Lib

section SendOnce

variable {Op : Type} {Resp : Op → Type} {μ E : Type}

/-! ### What is claimed -/

/-- The call has returned and its result has been recorded as a transient failure. -/
def Invocation.Retried (i : Invocation) : Prop := ∃ r, i.progress = .recorded r ∧ r.transient = true

def Invocation.Unrecorded (i : Invocation) : Prop := ∀ r, i.progress ≠ .recorded r

def IntentRow.undecided (r : IntentRow) : Prop := r.status = .dispatching ∨ r.status = .uncertain

structure SendsOnce (s : Outbound Op μ) : Prop where
  retried : ∀ i ∈ s.invocations.tail, i.Retried
  undecided : ∀ i ∈ s.invocations, i.Unrecorded → s.intent.undecided

structure DispatchStep (s : Calls (Outbound Op μ) (DispatchCall Op Resp))
    (a : CallAction (DispatchAction Op Resp) (OutboundEvent E)) (s' : Calls (Outbound Op μ) (DispatchCall Op Resp)) :
    Prop where
  final : s.shared.intent.status.final = true → s'.shared.intent.status = s.shared.intent.status
  stale : ∀ p now c result, a = .act p (.complete now) → s.calls p = .completing c result →
    s.shared.intent.leaseToken ≠ some c.leaseToken →
    s'.shared.intent = s.shared.intent ∧ s'.shared.message = s.shared.message

/-- As `insertNeutralOutboundSend` and the routes of actions leave it. -/
def Outbound.created (id : String) (operation : Operation) (normalizedPayload : Js .object) (nextAttemptAt : ℕ)
    (message : Option OutboundMessage) (announced : Bool) (rest : μ) : Outbound Op μ where
  intent := ⟨id, operation, normalizedPayload, .pending, 0, nextAttemptAt, none, none, none, none⟩
  message := message
  announced := announced
  rest := rest
  tokens := 0
  invocations := []
  performed := []
  claimant := none

/-! ### The annotation -/

structure SendInv (s : Outbound Op μ) : Prop extends SendsOnce s where
  pending : s.intent.status = .pending → ∀ i ∈ s.invocations, i.Retried
  fresh : ∀ i ∈ s.invocations, i.token < s.tokens

/-- Dispatcher `p` has claimed last, and its claim has not been completed. -/
structure Owns (s : Outbound Op μ) (p : ℕ) (c : ClaimedIntent) : Prop where
  claimant : s.claimant = some p
  token : c.leaseToken + 1 = s.tokens
  undecided : s.intent.undecided

def DispatchOk (s : Outbound Op μ) (p : ℕ) : DispatchCall Op Resp → Prop
  | .idle => True
  | .claimed c | .authorized c => Owns s p c ∧ ∀ i ∈ s.invocations, i.Retried ∧ i.token < c.leaseToken
  | .calling c _ =>
    Owns s p c ∧ ∃ older, s.invocations = ⟨c.leaseToken, .begun⟩ :: older ∧ ∀ i ∈ older, i.Retried ∧ i.token < c.leaseToken
  | .completing c result =>
    Owns s p c ∧ ((∃ older, s.invocations = ⟨c.leaseToken, .returned result⟩ :: older ∧
      ∀ i ∈ older, i.Retried ∧ i.token < c.leaseToken) ∨
      result.transient = false ∧ ∀ i ∈ s.invocations, i.Retried ∧ i.token < c.leaseToken)

def DispatchCall.claim : DispatchCall Op Resp → Option ClaimedIntent
  | .idle => none
  | .claimed c | .authorized c | .calling c _ | .completing c _ => some c

theorem DispatchOk.owns {s : Outbound Op μ} {p : ℕ} {x : DispatchCall Op Resp} {c : ClaimedIntent}
    (h : DispatchOk s p x) (hx : x.claim = some c) : Owns s p c := by
  cases x with
  | idle => exact nomatch hx
  | claimed | authorized | calling | completing =>
    obtain rfl := Option.some.inj hx
    exact h.1

theorem DispatchOk.idle_of_ne {s : Outbound Op μ} {p q : ℕ} {c : ClaimedIntent} {x : DispatchCall Op Resp}
    (hp : Owns s p c) (hq : DispatchOk s q x) (hne : q ≠ p) : x.claim = none := by
  cases hx : x.claim with
  | none => rfl
  | some d => exact absurd (Option.some.inj ((hq.owns hx).claimant.symm.trans hp.claimant)) hne

theorem dispatchOk_of_claim_none {s : Outbound Op μ} {p : ℕ} {x : DispatchCall Op Resp} (h : x.claim = none) :
    DispatchOk s p x := by
  cases x with
  | idle => trivial
  | claimed | authorized | calling | completing => exact nomatch h

theorem DispatchOk.idle_of_pending {s : Outbound Op μ} {q : ℕ} {x : DispatchCall Op Resp} (hq : DispatchOk s q x)
    (h : s.intent.status = .pending) : x.claim = none := by
  cases hx : x.claim with
  | none => rfl
  | some d =>
    rcases (hq.owns hx).undecided with hd | hd <;>
    · rw [h] at hd
      exact nomatch hd

/-- The record of calls stays, and an undecided intent does. -/
structure Steady (s w : Outbound Op μ) : Prop where
  claimant : w.claimant = s.claimant
  tokens : w.tokens = s.tokens
  invocations : w.invocations = s.invocations
  pending : w.intent.status = .pending → s.intent.status = .pending
  undecided : s.intent.undecided → w.intent.undecided

theorem Steady.inv {s w : Outbound Op μ} (h : Steady s w) (hs : SendInv s) : SendInv w where
  retried := by
    rw [h.invocations]
    exact hs.retried
  undecided := by
    rw [h.invocations]
    exact fun i hi hopen => h.undecided (hs.undecided i hi hopen)
  pending := by
    rw [h.invocations]
    exact fun hw => hs.pending (h.pending hw)
  fresh := by
    rw [h.invocations, h.tokens]
    exact hs.fresh

theorem Steady.owns {s w : Outbound Op μ} (h : Steady s w) {p : ℕ} {c : ClaimedIntent} (hp : Owns s p c) : Owns w p c :=
  ⟨h.claimant.trans hp.claimant, hp.token.trans h.tokens.symm, h.undecided hp.undecided⟩

theorem Steady.ok {s w : Outbound Op μ} (h : Steady s w) {p : ℕ} {x : DispatchCall Op Resp} (hp : DispatchOk s p x) :
    DispatchOk w p x := by
  cases x with
  | idle => trivial
  | claimed | authorized | calling | completing =>
    obtain ⟨howns, hcalls⟩ := hp
    exact ⟨h.owns howns, h.invocations.symm ▸ hcalls⟩

theorem steady_recover (now : ℕ) (s : Outbound Op μ) : Steady s (recoverExpiredLeases now s) := by
  unfold recoverExpiredLeases
  split_ifs with h
  · exact ⟨rfl, rfl, rfl, nofun, fun _ => .inr rfl⟩
  · exact ⟨rfl, rfl, rfl, id, id⟩

theorem steady_outside (s : Outbound Op μ) (message : Option OutboundMessage) (rest : μ) (performed : List Op) :
    Steady s { s with message := message, rest := rest, performed := performed } := ⟨rfl, rfl, rfl, id, id⟩

/-! ### Steps -/

theorem setProgress_ne {token : ℕ} {progress : Progress} {i : Invocation} (h : i.token < token) :
    setProgress token progress i = i := if_neg (Nat.ne_of_lt h)

theorem map_setProgress {token : ℕ} {old progress : Progress} {older : List Invocation}
    (h : ∀ i ∈ older, i.Retried ∧ i.token < token) :
    (⟨token, old⟩ :: older).map (setProgress token progress) = ⟨token, progress⟩ :: older := by
  rw [List.map_cons, List.map_congr_left fun i hi => setProgress_ne (h i hi).2, List.map_id']
  simp [setProgress]

theorem map_setProgress_none {token : ℕ} {progress : Progress} {is : List Invocation}
    (h : ∀ i ∈ is, i.Retried ∧ i.token < token) : is.map (setProgress token progress) = is := by
  rw [List.map_congr_left fun i hi => setProgress_ne (h i hi).2, List.map_id']

theorem Invocation.Retried.not_unrecorded {i : Invocation} (h : i.Retried) : ¬ i.Unrecorded := by
  obtain ⟨r, hr, -⟩ := h
  exact fun hopen => hopen r hr

theorem claim_ok {s w : Outbound Op μ} {now p : ℕ} {c : ClaimedIntent} (hs : SendInv s)
    (h : claimIntent now p s = some (w, c)) :
    s.intent.status = .pending ∧ SendInv w ∧ Owns w p c ∧ ∀ i ∈ w.invocations, i.Retried ∧ i.token < c.leaseToken := by
  unfold claimIntent at h
  split_ifs at h with hdue
  obtain ⟨rfl, rfl⟩ := Prod.mk.inj (Option.some.inj h)
  have hretried := hs.pending hdue.1
  refine ⟨hdue.1, ⟨⟨hs.retried, fun i hi hopen => ?_⟩, nofun, fun i hi => ?_⟩, ⟨rfl, rfl, .inl rfl⟩, fun i hi => ?_⟩
  · exact absurd hopen (hretried i hi).not_unrecorded
  · exact Nat.lt_succ_of_lt (hs.fresh i hi)
  · exact ⟨hretried i hi, hs.fresh i hi⟩

theorem invoke_ok {s : Outbound Op μ} {p : ℕ} {c : ClaimedIntent} {program : Proc Op Resp String ProviderSendResult}
    (hs : SendInv s) (hp : Owns s p c) (hcalls : ∀ i ∈ s.invocations, i.Retried ∧ i.token < c.leaseToken) :
    SendInv { s with invocations := ⟨c.leaseToken, .begun⟩ :: s.invocations } ∧
      DispatchOk { s with invocations := ⟨c.leaseToken, .begun⟩ :: s.invocations } p (.calling c program) := by
  refine ⟨⟨⟨fun i hi => (hcalls i hi).1, fun _ _ _ => hp.undecided⟩, fun h => ?_, fun i hi => ?_⟩,
    ⟨⟨hp.claimant, hp.token, hp.undecided⟩, s.invocations, rfl, hcalls⟩⟩
  · rcases hp.undecided with hd | hd <;>
    · rw [h] at hd
      exact nomatch hd
  · have htoken := hp.token
    rcases List.mem_cons.mp hi with rfl | hi
    · show c.leaseToken < s.tokens
      omega
    · exact hs.fresh i hi

theorem returned_ok {s : Outbound Op μ} {p : ℕ} {c : ClaimedIntent} {result : ProviderSendResult}
    {older : List Invocation} (hp : Owns s p c)
    (hcalls : s.invocations = ⟨c.leaseToken, .begun⟩ :: older)
    (holder : ∀ i ∈ older, i.Retried ∧ i.token < c.leaseToken) :
    SendInv (s.returned c result) ∧
      DispatchOk (s.returned c result) p (.completing c result : DispatchCall Op Resp) := by
  have hnew : (s.returned c result).invocations = ⟨c.leaseToken, .returned result⟩ :: older := by
    show s.invocations.map _ = _
    rw [hcalls, map_setProgress holder]
  refine ⟨⟨⟨fun i hi => ?_, fun _ _ _ => hp.undecided⟩, fun h => ?_, fun i hi => ?_⟩,
    ⟨⟨hp.claimant, hp.token, hp.undecided⟩, .inl ⟨older, hnew, holder⟩⟩⟩
  · rw [hnew] at hi
    exact (holder i hi).1
  · rcases hp.undecided with hd | hd <;>
    · have hd : (s.returned c result).intent.status = _ := hd
      rw [h] at hd
      exact nomatch hd
  · rw [hnew] at hi
    have htoken := hp.token
    show i.token < s.tokens
    rcases List.mem_cons.mp hi with rfl | hi
    · show c.leaseToken < s.tokens
      omega
    · have := (holder i hi).2
      omega

theorem transient_of_pending {r : IntentRow} {now : ℕ} {result : ProviderSendResult}
    (h : (r.complete now result).status = .pending) : result.transient = true := by
  cases result with
  | success confirmed =>
    cases confirmed with
    | true | false => exact nomatch h
  | failure outcome =>
    cases outcome with
    | transient => rfl
    | permanent | uncertain => exact nomatch h

theorem complete_ok {s : Outbound Op μ} {now p : ℕ} {c : ClaimedIntent} {result : ProviderSendResult} (hs : SendInv s)
    (hp : DispatchOk s p (.completing c result : DispatchCall Op Resp)) : SendInv (completeClaim now c result s) := by
  unfold completeClaim
  split_ifs with hfenced
  · obtain ⟨hp, ⟨older, hcalls, holder⟩ | ⟨hdefinite, hcalls⟩⟩ := hp
    · have hnew : s.invocations.map (setProgress c.leaseToken (.recorded result)) =
          ⟨c.leaseToken, .recorded result⟩ :: older := by
        rw [hcalls, map_setProgress holder]
      refine ⟨⟨fun i hi => ?_, fun i hi hopen => ?_⟩, fun h i hi => ?_, fun i hi => ?_⟩
      · rw [hnew] at hi
        exact (holder i hi).1
      · rw [hnew] at hi
        rcases List.mem_cons.mp hi with rfl | hi
        · exact absurd rfl (hopen result)
        · exact absurd hopen (holder i hi).1.not_unrecorded
      · rw [hnew] at hi
        rcases List.mem_cons.mp hi with rfl | hi
        · exact ⟨result, rfl, transient_of_pending h⟩
        · exact (holder i hi).1
      · rw [hnew] at hi
        have htoken := hp.token
        show i.token < s.tokens
        rcases List.mem_cons.mp hi with rfl | hi
        · show c.leaseToken < s.tokens
          omega
        · have := (holder i hi).2
          omega
    · have hnew : s.invocations.map (setProgress c.leaseToken (.recorded result)) = s.invocations :=
        map_setProgress_none hcalls
      refine ⟨⟨fun i hi => ?_, fun i hi hopen => ?_⟩, fun h => ?_, fun i hi => ?_⟩
      · rw [hnew] at hi
        exact hs.retried i hi
      · rw [hnew] at hi
        exact absurd hopen (hcalls i hi).1.not_unrecorded
      · have htransient := transient_of_pending h
        rw [hdefinite] at htransient
        exact nomatch htransient
      · rw [hnew] at hi
        exact hs.fresh i hi
  · exact hs

variable {adapter : ChannelAdapter Op Resp μ}
  {outside : E → Option OutboundMessage × μ → Option (Option OutboundMessage × μ)}

theorem dispatchAct_ok {s w : Outbound Op μ} {p : ℕ} {x y : DispatchCall Op Resp} {a : DispatchAction Op Resp}
    (hs : SendInv s) (hp : DispatchOk s p x) (h : dispatchAct adapter p s x a = some (w, y)) :
    SendInv w ∧ DispatchOk w p y ∧
      (s.intent.status = .pending ∨ (∃ c, Owns s p c) ∨ w = s) := by
  cases a with
  | claim now =>
    cases x with
    | idle =>
      obtain ⟨⟨v, c⟩, hclaim, heq⟩ := Option.map_eq_some_iff.mp h
      obtain ⟨rfl, rfl⟩ := Prod.mk.inj heq
      obtain ⟨hpending, hinv, howns, hcalls⟩ := claim_ok hs hclaim
      exact ⟨hinv, ⟨howns, hcalls⟩, .inl hpending⟩
    | claimed | authorized | calling | completing => exact nomatch h
  | authorize authorized =>
    cases x with
    | claimed c =>
      obtain ⟨rfl, rfl⟩ := Prod.mk.inj (Option.some.inj h)
      obtain ⟨howns, hcalls⟩ := hp
      refine ⟨hs, ?_, .inr (.inl ⟨c, howns⟩)⟩
      split_ifs
      · exact ⟨howns, hcalls⟩
      · exact ⟨howns, .inr ⟨rfl, hcalls⟩⟩
    | idle | authorized | calling | completing => exact nomatch h
  | invoke registered outboundInitiation =>
    cases x with
    | authorized c =>
      obtain ⟨howns, hcalls⟩ := hp
      have h := Option.some.inj h
      unfold invokeAdapter at h
      split_ifs at h
      · obtain ⟨rfl, rfl⟩ := Prod.mk.inj h
        exact ⟨hs, ⟨howns, .inr ⟨rfl, hcalls⟩⟩, .inr (.inl ⟨c, howns⟩)⟩
      · obtain ⟨rfl, rfl⟩ := Prod.mk.inj h
        exact ⟨hs, ⟨howns, .inr ⟨rfl, hcalls⟩⟩, .inr (.inl ⟨c, howns⟩)⟩
      · obtain ⟨rfl, rfl⟩ := Prod.mk.inj h
        obtain ⟨hinv, hok⟩ := invoke_ok hs howns hcalls
        exact ⟨hinv, hok, .inr (.inl ⟨c, howns⟩)⟩
    | idle | claimed | calling | completing => exact nomatch h
  | perform answers =>
    cases x with
    | calling c program =>
      have h : performNext adapter c answers s program = some (w, y) := h
      cases program with
      | act op k =>
        obtain ⟨rfl, rfl⟩ := Prod.mk.inj (Option.some.inj h)
        have hsteady := steady_outside s (adapter.exec op (answers op) (s.message, s.rest)).1
          (adapter.exec op (answers op) (s.message, s.rest)).2 (op :: s.performed)
        obtain ⟨howns, hcalls⟩ := hp
        exact ⟨hsteady.inv hs, ⟨hsteady.owns howns, hcalls⟩, .inr (.inl ⟨c, howns⟩)⟩
      | done | fail => exact nomatch h
    | idle | claimed | authorized | completing => exact nomatch h
  | answer =>
    cases x with
    | calling c program =>
      obtain ⟨howns, older, hcalls, holder⟩ := hp
      obtain ⟨result, -, heq⟩ := Option.map_eq_some_iff.mp h
      obtain ⟨rfl, rfl⟩ := Prod.mk.inj heq
      have hreturned : SendInv (s.returned c result) ∧
          DispatchOk (s.returned c result) p (.completing c result : DispatchCall Op Resp) :=
        returned_ok howns hcalls holder
      exact ⟨hreturned.1, hreturned.2, .inr (.inl ⟨c, howns⟩)⟩
    | idle | claimed | authorized | completing => exact nomatch h
  | complete now =>
    cases x with
    | completing c result =>
      obtain ⟨rfl, rfl⟩ := Prod.mk.inj (Option.some.inj h)
      exact ⟨complete_ok hs hp, trivial, .inr (.inl ⟨c, hp.1⟩)⟩
    | idle | claimed | authorized | calling => exact nomatch h
  | crash =>
    have h : some (s, DispatchCall.idle) = some (w, y) := by
      cases x <;> exact h
    obtain ⟨rfl, rfl⟩ := Prod.mk.inj (Option.some.inj h)
    exact ⟨hs, trivial, .inr (.inr rfl)⟩

theorem others_ok {J : Outbound Op μ → ℕ → DispatchCall Op Resp → Prop}
    (hfree : ∀ w q x, x.claim = none → J w q x) {s w : Outbound Op μ} {p q : ℕ} {x : DispatchCall Op Resp}
    (hq : DispatchOk s q x) (hJ : J s q x) (hne : q ≠ p)
    (h : s.intent.status = .pending ∨ (∃ c, Owns s p c) ∨ w = s) : J w q x := by
  rcases h with hpending | ⟨c, howns⟩ | rfl
  · exact hfree w q x (hq.idle_of_pending hpending)
  · exact hfree w q x (hq.idle_of_ne howns hne)
  · exact hJ

theorem sendInv_step (s : Calls (Outbound Op μ) (DispatchCall Op Resp))
    (a : CallAction (DispatchAction Op Resp) (OutboundEvent E)) (s' : Calls (Outbound Op μ) (DispatchCall Op Resp))
    (hs : Holds SendInv DispatchOk s) (h : (outboundSystem adapter outside).step s a = some s') :
    Holds SendInv DispatchOk s' := by
  refine Machine.holds_step (C := fun _ _ => True) (fun s p a w y hs _ hact => ?_) (fun s e w hs _ henv => ?_)
    s a s' hs trivial h
  · obtain ⟨hinv, hok, hothers⟩ := dispatchAct_ok hs.1 (hs.2 p) hact
    exact ⟨hinv, hok, fun q hne =>
      others_ok (J := DispatchOk) (fun _ _ _ => dispatchOk_of_claim_none) (hs.2 q) (hs.2 q) hne hothers⟩
  · cases e with
    | recover now =>
      obtain rfl := Option.some.inj henv
      exact ⟨(steady_recover now s.shared).inv hs.1, fun q => (steady_recover now s.shared).ok (hs.2 q)⟩
    | outside e =>
      obtain ⟨⟨message, rest⟩, -, rfl⟩ := Option.map_eq_some_iff.mp henv
      have hsteady := steady_outside s.shared message rest s.shared.performed
      exact ⟨hsteady.inv hs.1, fun q => hsteady.ok (hs.2 q)⟩

theorem sendInv_created (id : String) (operation : Operation) (normalizedPayload : Js .object) (nextAttemptAt : ℕ)
    (message : Option OutboundMessage) (announced : Bool) (rest : μ) :
    SendInv (Outbound.created id operation normalizedPayload nextAttemptAt message announced rest : Outbound Op μ) where
  retried := fun _ hi => absurd hi List.not_mem_nil
  undecided := fun _ hi => absurd hi List.not_mem_nil
  pending := fun _ _ hi => absurd hi List.not_mem_nil
  fresh := fun _ hi => absurd hi List.not_mem_nil

theorem dispatchAct_final {s w : Outbound Op μ} {p : ℕ} {x y : DispatchCall Op Resp} {a : DispatchAction Op Resp}
    (h : dispatchAct adapter p s x a = some (w, y)) (hfinal : s.intent.status.final = true) :
    w.intent.status = s.intent.status := by
  cases a with
  | claim now =>
    cases x with
    | idle =>
      obtain ⟨⟨v, c⟩, hclaim, -⟩ := Option.map_eq_some_iff.mp h
      unfold claimIntent at hclaim
      split_ifs at hclaim with hdue
      rw [hdue.1] at hfinal
      exact nomatch hfinal
    | claimed | authorized | calling | completing => exact nomatch h
  | authorize authorized =>
    cases x with
    | claimed c =>
      obtain ⟨rfl, -⟩ := Prod.mk.inj (Option.some.inj h)
      rfl
    | idle | authorized | calling | completing => exact nomatch h
  | invoke registered outboundInitiation =>
    cases x with
    | authorized c =>
      have h := Option.some.inj h
      unfold invokeAdapter at h
      split_ifs at h <;>
      · obtain ⟨rfl, -⟩ := Prod.mk.inj h
        rfl
    | idle | claimed | calling | completing => exact nomatch h
  | perform answers =>
    cases x with
    | calling c program =>
      have h : performNext adapter c answers s program = some (w, y) := h
      cases program with
      | act op k =>
        obtain ⟨rfl, -⟩ := Prod.mk.inj (Option.some.inj h)
        rfl
      | done | fail => exact nomatch h
    | idle | claimed | authorized | completing => exact nomatch h
  | answer =>
    cases x with
    | calling c program =>
      obtain ⟨result, -, heq⟩ := Option.map_eq_some_iff.mp h
      obtain ⟨rfl, -⟩ := Prod.mk.inj heq
      rfl
    | idle | claimed | authorized | completing => exact nomatch h
  | complete now =>
    cases x with
    | completing c result =>
      obtain ⟨rfl, -⟩ := Prod.mk.inj (Option.some.inj h)
      unfold completeClaim
      split_ifs with hfenced
      · rw [hfenced.1] at hfinal
        exact nomatch hfinal
      · rfl
    | idle | claimed | authorized | calling => exact nomatch h
  | crash =>
    have h : some (s, DispatchCall.idle) = some (w, y) := by
      cases x <;> exact h
    obtain ⟨rfl, -⟩ := Prod.mk.inj (Option.some.inj h)
    rfl

theorem dispatch_step {s s' : Calls (Outbound Op μ) (DispatchCall Op Resp)}
    {a : CallAction (DispatchAction Op Resp) (OutboundEvent E)}
    (h : (outboundSystem adapter outside).step s a = some s') : DispatchStep s a s' := by
  constructor
  · intro hfinal
    cases a with
    | act p a =>
      obtain ⟨w, y, hact, rfl⟩ := Machine.step_act h
      exact dispatchAct_final hact hfinal
    | env e =>
      obtain ⟨w, henv, rfl⟩ := Machine.step_env h
      cases e with
      | recover now =>
        obtain rfl := Option.some.inj henv
        show (recoverExpiredLeases now s.shared).intent.status = _
        unfold recoverExpiredLeases
        split_ifs with hexpired
        · rw [hexpired.1] at hfinal
          exact nomatch hfinal
        · rfl
      | outside e =>
        obtain ⟨_, -, rfl⟩ := Option.map_eq_some_iff.mp henv
        rfl
  · rintro p now c result rfl hcall hlease
    obtain ⟨w, y, hact, rfl⟩ := Machine.step_act h
    have hact : dispatchAct adapter p s.shared (s.calls p) (.complete now) = some (w, y) := hact
    rw [hcall] at hact
    obtain ⟨rfl, rfl⟩ := Prod.mk.inj (Option.some.inj hact)
    rw [Calls.shared_set, completeClaim, if_neg fun hfenced => hlease hfenced.2]
    exact ⟨rfl, rfl⟩

end SendOnce

/-! ### Telegram -/

section Telegram

abbrev TelegramOutbound := Outbound TelegramOp Unit

abbrev TelegramCall := DispatchCall TelegramOp TelegramOp.Resp

def fetchCount (s : TelegramOutbound) : ℕ := s.performed.countP (·.isFetch)

/-- The results of the calls so far are not retried, and only a call calls the Bot API. -/
structure TelegramInv (s : TelegramOutbound) : Prop extends SendInv s where
  definite : ∀ i ∈ s.invocations, ∀ r, i.progress = .returned r ∨ i.progress = .recorded r → Definite r
  once : fetchCount s ≤ 1
  unused : s.invocations = [] → fetchCount s = 0

def TelegramOk (s : TelegramOutbound) (p : ℕ) (x : TelegramCall) : Prop :=
  DispatchOk s p x ∧ match x with
    | .calling _ program => (∃ n, Fetches n program ∧ fetchCount s + n ≤ 1) ∧ program.Returns Definite
    | .completing _ result => Definite result
    | .idle | .claimed _ | .authorized _ => True

theorem telegramOk_of_claim_none {s : TelegramOutbound} {p : ℕ} {x : TelegramCall} (h : x.claim = none) :
    TelegramOk s p x := by
  cases x with
  | idle => exact ⟨trivial, trivial⟩
  | claimed | authorized | calling | completing => exact nomatch h

theorem TelegramInv.none_of_retried {s : TelegramOutbound} (hs : TelegramInv s) (h : ∀ i ∈ s.invocations, i.Retried) :
    s.invocations = [] := by
  refine List.eq_nil_iff_forall_not_mem.mpr fun i hi => ?_
  obtain ⟨r, hr, htransient⟩ := h i hi
  have hdefinite : r.transient = false := hs.definite i hi r (.inr hr)
  rw [htransient] at hdefinite
  exact nomatch hdefinite

theorem definite_map {is : List Invocation} {token : ℕ} {progress : Progress}
    (h : ∀ i ∈ is, ∀ r, i.progress = .returned r ∨ i.progress = .recorded r → Definite r)
    (hnew : ∀ r, progress = .returned r ∨ progress = .recorded r → Definite r) :
    ∀ i ∈ is.map (setProgress token progress), ∀ r, i.progress = .returned r ∨ i.progress = .recorded r → Definite r := by
  intro i hi r hr
  obtain ⟨j, hj, rfl⟩ := List.mem_map.mp hi
  unfold setProgress at hr
  split_ifs at hr
  · exact hnew r hr
  · exact h j hj r hr

variable {E : Type} {numberValue : Js .value → Option ℕ} {toText : Js .value → String}
  {outside : E → Option OutboundMessage × Unit → Option (Option OutboundMessage × Unit)}

theorem telegram_perform {s : TelegramOutbound} {program : TelegramProc ProviderSendResult} {op : TelegramOp}
    {k : op.Resp → TelegramProc ProviderSendResult} (hprogram : program = .act op k) (answer : op.Resp) {n : ℕ}
    (hn : Fetches n program) (hcount : fetchCount s + n ≤ 1) :
    ∃ m, Fetches m (k answer) ∧ (op :: s.performed).countP (·.isFetch) + m ≤ 1 := by
  subst hprogram
  unfold Fetches at hn
  unfold fetchCount at hcount
  rw [List.countP_cons]
  split_ifs at hn ⊢ with hfetch
  · obtain ⟨m, rfl, hm⟩ := hn
    exact ⟨m, hm answer, by omega⟩
  · exact ⟨n, hn answer, by omega⟩

theorem telegramAct_ok {s w : TelegramOutbound} {p : ℕ} {x y : TelegramCall}
    {a : DispatchAction TelegramOp TelegramOp.Resp} (hs : TelegramInv s) (hp : TelegramOk s p x)
    (h : dispatchAct (telegramAdapter numberValue toText) p s x a = some (w, y)) : TelegramInv w ∧ TelegramOk w p y := by
  obtain ⟨hinv, hok, -⟩ := dispatchAct_ok hs.toSendInv hp.1 h
  cases a with
  | claim now =>
    cases x with
    | idle =>
      obtain ⟨⟨v, c⟩, hclaim, heq⟩ := Option.map_eq_some_iff.mp h
      obtain ⟨rfl, rfl⟩ := Prod.mk.inj heq
      unfold claimIntent at hclaim
      split_ifs at hclaim
      obtain ⟨rfl, rfl⟩ := Prod.mk.inj (Option.some.inj hclaim)
      exact ⟨⟨hinv, hs.definite, hs.once, hs.unused⟩, hok, trivial⟩
    | claimed | authorized | calling | completing => exact nomatch h
  | authorize authorized =>
    cases x with
    | claimed c =>
      obtain ⟨rfl, rfl⟩ := Prod.mk.inj (Option.some.inj h)
      refine ⟨hs, hok, ?_⟩
      split_ifs
      · trivial
      · exact rfl
    | idle | authorized | calling | completing => exact nomatch h
  | invoke registered outboundInitiation =>
    cases x with
    | authorized c =>
      have hnone := hs.none_of_retried fun i hi => (hp.1.2 i hi).1
      have h := Option.some.inj h
      unfold invokeAdapter at h
      split_ifs at h
      · obtain ⟨rfl, rfl⟩ := Prod.mk.inj h
        exact ⟨hs, hok, rfl⟩
      · obtain ⟨rfl, rfl⟩ := Prod.mk.inj h
        exact ⟨hs, hok, rfl⟩
      · obtain ⟨rfl, rfl⟩ := Prod.mk.inj h
        have hzero : fetchCount s = 0 := hs.unused hnone
        refine ⟨⟨hinv, fun i hi r hr => ?_, hs.once, nofun⟩, hok, ⟨1, fetches_call numberValue toText c, ?_⟩,
          returns_call numberValue toText c⟩
        · rcases List.mem_cons.mp hi with rfl | hi
          · rcases hr with hr | hr <;> exact nomatch hr
          · exact hs.definite i hi r hr
        · show fetchCount s + 1 ≤ 1
          omega
    | idle | claimed | calling | completing => exact nomatch h
  | perform answers =>
    cases x with
    | calling c program =>
      have h : performNext (telegramAdapter numberValue toText) c answers s program = some (w, y) := h
      cases program with
      | act op k =>
        obtain ⟨rfl, rfl⟩ := Prod.mk.inj (Option.some.inj h)
        obtain ⟨-, ⟨n, hn, hcount⟩, hreturns⟩ := hp
        obtain ⟨m, hm, hcount'⟩ := telegram_perform rfl (answers op) hn hcount
        have hcalls := hok.2
        refine ⟨⟨hinv, hs.definite, ?_, fun hempty => ?_⟩, hok, ⟨m, hm, hcount'⟩, hreturns (answers op)⟩
        · exact Nat.le_of_add_right_le hcount'
        · obtain ⟨older, heq, -⟩ := hcalls
          rw [heq] at hempty
          exact nomatch hempty
      | done | fail => exact nomatch h
    | idle | claimed | authorized | completing => exact nomatch h
  | answer =>
    cases x with
    | calling c program =>
      obtain ⟨result, hresult, heq⟩ := Option.map_eq_some_iff.mp h
      obtain ⟨rfl, rfl⟩ := Prod.mk.inj heq
      have hdefinite : Definite result := by
        cases program with
        | act op k => exact nomatch hresult
        | done r =>
          obtain rfl := Option.some.inj hresult
          exact hp.2.2
        | fail e =>
          obtain rfl := Option.some.inj hresult
          exact rfl
      refine ⟨⟨hinv, definite_map hs.definite fun r hr => ?_, hs.once, fun hempty => ?_⟩, hok, hdefinite⟩
      · rcases hr with hr | hr
        · obtain rfl := Progress.returned.inj hr
          exact hdefinite
        · exact nomatch hr
      · exact hs.unused (List.map_eq_nil_iff.mp hempty)
    | idle | claimed | authorized | completing => exact nomatch h
  | complete now =>
    cases x with
    | completing c result =>
      obtain ⟨rfl, rfl⟩ := Prod.mk.inj (Option.some.inj h)
      refine ⟨?_, trivial, trivial⟩
      unfold completeClaim at hinv ⊢
      split_ifs at hinv ⊢
      · refine ⟨hinv, definite_map hs.definite fun r hr => ?_, hs.once, fun hempty => ?_⟩
        · rcases hr with hr | hr
          · exact nomatch hr
          · obtain rfl := Progress.recorded.inj hr
            exact hp.2
        · exact hs.unused (List.map_eq_nil_iff.mp hempty)
      · exact hs
    | idle | claimed | authorized | calling => exact nomatch h
  | crash =>
    have h : some (s, DispatchCall.idle) = some (w, y) := by
      cases x <;> exact h
    obtain ⟨rfl, rfl⟩ := Prod.mk.inj (Option.some.inj h)
    exact ⟨hs, trivial, trivial⟩

theorem telegramInv_step (s : Calls TelegramOutbound TelegramCall)
    (a : CallAction (DispatchAction TelegramOp TelegramOp.Resp) (OutboundEvent E)) (s' : Calls TelegramOutbound TelegramCall)
    (hs : Holds TelegramInv TelegramOk s)
    (h : (outboundSystem (telegramAdapter numberValue toText) outside).step s a = some s') :
    Holds TelegramInv TelegramOk s' := by
  refine Machine.holds_step (C := fun _ _ => True) (fun s p a w y hs _ hact => ?_) (fun s e w hs _ henv => ?_)
    s a s' hs trivial h
  · obtain ⟨hinv, hok⟩ := telegramAct_ok hs.1 (hs.2 p) hact
    obtain ⟨-, -, hothers⟩ := dispatchAct_ok hs.1.toSendInv (hs.2 p).1 hact
    exact ⟨hinv, hok, fun q hne =>
      others_ok (J := TelegramOk) (fun _ _ _ => telegramOk_of_claim_none) (hs.2 q).1 (hs.2 q) hne hothers⟩
  · -- neither touches the calls of the adapter
    have hsame : w.invocations = s.shared.invocations ∧ w.performed = s.shared.performed ∧ Steady s.shared w := by
      cases e with
      | recover now =>
        obtain rfl := Option.some.inj henv
        refine ⟨(steady_recover now s.shared).invocations, ?_, steady_recover now s.shared⟩
        unfold recoverExpiredLeases
        split_ifs <;> rfl
      | outside e =>
        obtain ⟨⟨message, rest⟩, -, rfl⟩ := Option.map_eq_some_iff.mp henv
        exact ⟨rfl, rfl, steady_outside s.shared message rest s.shared.performed⟩
    obtain ⟨hcalls, hperformed, hsteady⟩ := hsame
    have hcount : fetchCount w = fetchCount s.shared := congrArg (List.countP TelegramOp.isFetch) hperformed
    refine ⟨⟨hsteady.inv hs.1.toSendInv, hcalls ▸ hs.1.definite, hcount ▸ hs.1.once, ?_⟩, fun q => ?_⟩
    · rw [hcalls, hcount]
      exact hs.1.unused
    · refine ⟨hsteady.ok (hs.2 q).1, ?_⟩
      have hq := (hs.2 q).2
      revert hq
      cases s.calls q with
      | idle | claimed | authorized | completing => exact id
      | calling c program =>
        rw [hcount]
        exact id

end Telegram

/-- **The adapter is called again only after a transient failure has been recorded.**  The Bot API is called once. -/
theorem outbound_sent_once :
    (∀ {Op : Type} {Resp : Op → Type} {μ E : Type} (adapter : ChannelAdapter Op Resp μ)
        (outside : E → Option OutboundMessage × μ → Option (Option OutboundMessage × μ)) (id : String)
        (operation : Operation)
        (normalizedPayload : Js .object) (nextAttemptAt : ℕ) (message : Option OutboundMessage) (announced : Bool)
        (rest : μ) (as : List (CallAction (DispatchAction Op Resp) (OutboundEvent E))),
        let start := Calls.start (Outbound.created id operation normalizedPayload nextAttemptAt message announced rest) .idle
        Always (outboundSystem adapter outside).step (fun s => SendsOnce s.shared) start as ∧
          Steps (outboundSystem adapter outside).step DispatchStep start as) ∧
      ∀ {E : Type} (numberValue : Js .value → Option ℕ) (toText : Js .value → String)
        (outside : E → Option OutboundMessage × Unit → Option (Option OutboundMessage × Unit)) (id : String)
        (operation : Operation)
        (normalizedPayload : Js .object) (nextAttemptAt : ℕ) (message : Option OutboundMessage) (announced : Bool)
        (as : List (CallAction (DispatchAction TelegramOp TelegramOp.Resp) (OutboundEvent E))),
        Always (outboundSystem (telegramAdapter numberValue toText) outside).step (fun s => fetchCount s.shared ≤ 1)
          (Calls.start (Outbound.created id operation normalizedPayload nextAttemptAt message announced ()) .idle) as := by
  constructor
  · intro Op Resp μ E adapter outside id operation normalizedPayload nextAttemptAt message announced rest as start
    have hstart : Holds SendInv DispatchOk start := holds_start (sendInv_created ..) fun _ => trivial
    refine ⟨(always_of_step sendInv_step hstart as).mono fun s hs => hs.1.toSendsOnce, ?_⟩
    have hstep : ∀ s a s', (outboundSystem adapter outside).step s a = some s' → DispatchStep s a s' :=
      fun _ _ _ h => dispatch_step h
    exact steps_of_meets (I := fun _ => True) (C := fun _ _ => True) (fun s a s' _ _ h => ⟨trivial, hstep s a s' h⟩)
      trivial (meets_of_forall fun _ _ => trivial)
  · intro E numberValue toText outside id operation normalizedPayload nextAttemptAt message announced as
    have hinv : TelegramInv (Outbound.created id operation normalizedPayload nextAttemptAt message announced () : TelegramOutbound) :=
      ⟨sendInv_created .., fun _ hi => absurd hi List.not_mem_nil, Nat.zero_le 1, fun _ => rfl⟩
    have hidle : ∀ p, TelegramOk (Outbound.created id operation normalizedPayload nextAttemptAt message announced ()) p .idle :=
      fun _ => ⟨trivial, trivial⟩
    exact (always_of_step telegramInv_step (holds_start hinv hidle) as).mono fun s hs => hs.1.once

end TeamInbox.Channels
