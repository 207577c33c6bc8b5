import TeamInbox.Api.EventLoops

/-!
# TeamInbox.Api.EventsKept — no event is dropped

When the broker will not hand an event out again, its handler has completed, or it has been moved to the history lane,
or it has expired, or it is among the dead letters.  That is so as long as the last permitted delivery is not given up:
neither a crash nor a dead letter that could not be published is followed by another delivery there.
-/

namespace TeamInbox.Api

open TeamInbox.Lib

variable {δ : Type}

section Spec

variable (parse : δ → Except String WhatsAppEvent) (name : EventLoopName) (m : StreamMessage δ)

/-- The event is a presence or typing event that is too old by now. -/
def Expired (w : LoopState δ) : Bool :=
  match parse m.data with
  | .ok event => isExpiredEphemeralEvent event.type m.timestampNanos w.now
  | .error _ => false

structure Unsettled (w : LoopState δ) : Prop where
  handled : w.handled = 0
  history : w.history = []
  fresh : Expired parse m w = false
  deadLetters : w.deadLetters = []

/-- The broker will not hand the event out again, and no delivery is in progress. -/
def Over (w : LoopState δ) : Prop :=
  w.acked = true ∨ w.termed = true ∨ (name.maxDeliver ≤ w.delivered ∧ w.inProgress = [])

structure EventKept (w : LoopState δ) : Prop where
  settled : Over name w → ¬ Unsettled parse m w
  sameID : ∃ id, ∀ r ∈ w.history, r.msgID = some id

def DeliveryStage.givesUp : DeliveryStage → DeliveryAction → Bool
  | .rejecting _ _, .publish (.refused _) _ nak => match nak with
    | .throws _ => false
    | _ => true
  | .failing _ _, .publish (.refused _) _ _ => true
  | _, .crash => true
  | _, _ => false

/-- The last permitted delivery is not given up, unless something has been done with the event before. -/
def LastKept (t : Calls (LoopState δ) DeliveryStage) : CallAction DeliveryAction ℕ → Prop
  | .act p a => ∀ n ∈ (t.calls p).delivery, name.maxDeliver ≤ n → (t.calls p).givesUp a = true →
      ¬ Unsettled parse m t.shared
  | .env _ => True

/-! ### Assertions -/

structure LoopInv (w : LoopState δ) : Prop where
  bounded : w.delivered ≤ name.maxDeliver
  acked : w.acked = true ∨ w.termed = true → ¬ Unsettled parse m w
  last : name.maxDeliver ≤ w.delivered → Unsettled parse m w → name.maxDeliver ∈ w.inProgress
  sameID : ∀ r ∈ w.history, r.msgID = legacyHistoryID m.streamSequence

/-- What a step of delivery `n` does. -/
structure DeliveryOk (n : ℕ) (excused : Prop) (w w' : LoopState δ) (y : DeliveryStage) : Prop where
  delivered : w'.delivered = w.delivered
  unsettled : Unsettled parse m w' → Unsettled parse m w
  acked : w'.acked = true ∨ w'.termed = true → w.acked = true ∨ w.termed = true ∨ ¬ Unsettled parse m w'
  sameID : ∀ r ∈ w'.history, r ∈ w.history ∨ r.msgID = legacyHistoryID m.streamSequence
  ended : w'.inProgress = w.inProgress ∨
    (w'.inProgress = w.inProgress.erase n ∧ (name.maxDeliver ≤ n → ¬ Unsettled parse m w' ∨ excused))

end Spec

variable {parse : δ → Except String WhatsAppEvent} {name : EventLoopName} {m : StreamMessage δ} {n p : ℕ}
  {w w' w₁ : LoopState δ} {x y : DeliveryStage} {a : DeliveryAction} {excused : Prop}

/-! ### The end of a delivery -/

theorem DeliveryOk.refl : DeliveryOk parse name m n excused w w y :=
  ⟨rfl, id, fun h => h.elim .inl fun h => .inr (.inl h), fun _ h => .inl h, .inl rfl⟩

theorem close_ok (h : name.maxDeliver ≤ n → ¬ Unsettled parse m w ∨ excused) :
    DeliveryOk parse name m n excused w (w.close n) y :=
  ⟨rfl, fun h => ⟨h.handled, h.history, h.fresh, h.deadLetters⟩, fun h => h.elim .inl fun h => .inr (.inl h),
    fun _ h => .inl h,
    .inr ⟨rfl, fun hn => (h hn).imp_left fun hs h => hs ⟨h.handled, h.history, h.fresh, h.deadLetters⟩⟩⟩

theorem settled_ok (h : ¬ Unsettled parse m w') (hdelivered : w'.delivered = w.delivered)
    (hprogress : w'.inProgress = w.inProgress ∨ w'.inProgress = w.inProgress.erase n)
    (hid : ∀ r ∈ w'.history, r ∈ w.history ∨ r.msgID = legacyHistoryID m.streamSequence) :
    DeliveryOk parse name m n excused w w' y :=
  ⟨hdelivered, fun hs => absurd hs h, fun _ => .inr (.inr h), hid, hprogress.imp_right fun h' => ⟨h', fun _ => .inl h⟩⟩

theorem catchError_ok {permanent : Bool} {error : String} (h : catchError name n permanent error w = (w', y)) :
    DeliveryOk parse name m n excused w w' y := by
  unfold catchError at h
  split_ifs at h with hlast
  · obtain ⟨rfl, rfl⟩ := Prod.mk.inj h
    exact .refl
  · obtain ⟨rfl, rfl⟩ := Prod.mk.inj h
    exact close_ok fun hn => absurd (.inr hn) hlast

theorem ackLast_ok {ack : Settling} (hs : ¬ Unsettled parse m w) (h : ackLast name n w ack = (w', y)) :
    DeliveryOk parse name m n excused w w' y := by
  cases ack with
  | arrives =>
    obtain ⟨rfl, rfl⟩ := Prod.mk.inj h
    exact settled_ok (fun h => hs ⟨h.handled, h.history, h.fresh, h.deadLetters⟩) rfl (.inr rfl) fun _ h => .inl h
  | lost =>
    obtain ⟨rfl, rfl⟩ := Prod.mk.inj h
    exact close_ok fun _ => .inl hs
  | throws error => exact catchError_ok h

theorem nakInvalid_ok {nak : Settling} (h : nakInvalid name n w nak = (w', y))
    (hend : (∀ error, nak ≠ .throws error) → name.maxDeliver ≤ n → ¬ Unsettled parse m w ∨ excused) :
    DeliveryOk parse name m n excused w w' y := by
  cases nak with
  | arrives | lost =>
    obtain ⟨rfl, rfl⟩ := Prod.mk.inj h
    exact close_ok (hend fun _ h => by cases h)
  | throws error => exact catchError_ok h

/-- Something is done with the event, and nothing else. -/
structure Records (parse : δ → Except String WhatsAppEvent) (m : StreamMessage δ) (w w₁ : LoopState δ) : Prop where
  delivered : w₁.delivered = w.delivered
  acked : w₁.acked = w.acked
  termed : w₁.termed = w.termed
  inProgress : w₁.inProgress = w.inProgress
  settled : ¬ Unsettled parse m w₁
  sameID : ∀ r ∈ w₁.history, r ∈ w.history ∨ r.msgID = legacyHistoryID m.streamSequence

theorem publishDeadLetter_records {error : String} {deliveries : ℕ} :
    Records parse m w (w.publishDeadLetter m error deliveries) :=
  ⟨rfl, rfl, rfl, rfl, fun h => List.cons_ne_nil _ _ h.deadLetters, fun _ h => .inl h⟩

theorem publishHistory_records {subject : String} : Records parse m w (w.publishHistory m subject) :=
  ⟨rfl, rfl, rfl, rfl, fun h => List.cons_ne_nil _ _ h.history, fun _ hr =>
    (List.mem_cons.mp hr).symm.imp_right fun h => congrArg Republished.msgID h⟩

theorem handled_records : Records parse m w { w with handled := w.handled + 1 } :=
  ⟨rfl, rfl, rfl, rfl, fun h => Nat.succ_ne_zero _ h.handled, fun _ h => .inl h⟩

theorem Records.then (hr : Records parse m w w₁) (h : DeliveryOk parse name m n excused w₁ w' y) :
    DeliveryOk parse name m n excused w w' y where
  delivered := h.delivered.trans hr.delivered
  unsettled hs := absurd (h.unsettled hs) hr.settled
  acked _ := .inr (.inr fun hs => hr.settled (h.unsettled hs))
  sameID r hmem := (h.sameID r hmem).elim (hr.sameID r) .inr
  ended := hr.inProgress ▸ h.ended

/-! ### The steps of a delivery -/

theorem rejectInvalid_ok {error : String} {settle nak : Settling} {result : PublishResult}
    (hC : name.maxDeliver ≤ n → DeliveryStage.givesUp (.rejecting n error) (.publish result settle nak) = true → excused)
    (h : rejectInvalid name m n error w settle nak result = (w', y)) : DeliveryOk parse name m n excused w w' y := by
  cases result with
  | stored =>
    have hr : Records parse m w (w.publishDeadLetter m error 1) := publishDeadLetter_records
    cases settle with
    | arrives =>
      obtain ⟨rfl, rfl⟩ := Prod.mk.inj h
      exact settled_ok (fun hs => hr.settled ⟨hs.handled, hs.history, hs.fresh, hs.deadLetters⟩) rfl (.inr rfl)
        fun _ h => .inl h
    | lost =>
      obtain ⟨rfl, rfl⟩ := Prod.mk.inj h
      exact hr.then (close_ok fun _ => .inl hr.settled)
    | throws e => exact hr.then (nakInvalid_ok h fun _ _ => .inl hr.settled)
  | unanswered e =>
    have hr : Records parse m w (w.publishDeadLetter m error 1) := publishDeadLetter_records
    exact hr.then (nakInvalid_ok h fun _ _ => .inl hr.settled)
  | refused e =>
    refine nakInvalid_ok h fun hnak hn => .inr (hC hn ?_)
    cases nak with
    | throws e => exact absurd rfl (hnak e)
    | arrives | lost => rfl

theorem moveToHistory_ok {subject : String} {ack : Settling} {result : PublishResult}
    (h : moveToHistory name m n subject w ack result = (w', y)) : DeliveryOk parse name m n excused w w' y := by
  have hr : Records parse m w (w.publishHistory m subject) := publishHistory_records
  cases result with
  | stored => exact hr.then (ackLast_ok hr.settled h)
  | unanswered e => exact hr.then (catchError_ok h)
  | refused e => exact catchError_ok h

theorem handleEvent_ok {ack : Settling} {result : HandlerResult} (h : handleEvent name n w ack result = (w', y)) :
    DeliveryOk parse name m n excused w w' y := by
  cases result with
  | completes => exact handled_records.then (ackLast_ok handled_records.settled h)
  | fails permanent error => exact catchError_ok h

theorem failEvent_ok {error : String} {settle nak : Settling} {result : PublishResult}
    (hC : name.maxDeliver ≤ n → DeliveryStage.givesUp (.failing n error) (.publish result settle nak) = true → excused)
    (h : failEvent m n error w settle result = (w', y)) : DeliveryOk parse name m n excused w w' y := by
  have hr : Records parse m w (w.publishDeadLetter m error n) := publishDeadLetter_records
  cases result with
  | stored =>
    obtain ⟨rfl, rfl⟩ := Prod.mk.inj h
    cases settle with
    | arrives =>
      exact settled_ok (fun hs => hr.settled ⟨hs.handled, hs.history, hs.fresh, hs.deadLetters⟩) rfl (.inr rfl)
        fun _ h => .inl h
    | lost | throws e => exact hr.then (close_ok fun _ => .inl hr.settled)
  | unanswered e =>
    obtain ⟨rfl, rfl⟩ := Prod.mk.inj h
    exact hr.then (close_ok fun _ => .inl hr.settled)
  | refused e =>
    obtain ⟨rfl, rfl⟩ := Prod.mk.inj h
    exact close_ok fun hn => .inr (hC hn rfl)

theorem handleMessage_ok {ack : Settling} (h : handleMessage parse name m n ack w = (w', y)) :
    DeliveryOk parse name m n excused w w' y := by
  unfold handleMessage at h
  cases hparse : parse m.data with
  | error e =>
    simp only [hparse, Prod.mk.injEq] at h
    obtain ⟨rfl, rfl⟩ := h
    exact .refl
  | ok event =>
    simp only [hparse] at h
    split_ifs at h with hexpired
    · have hstale : Expired parse m w = true := by
        unfold Expired
        rw [hparse]
        exact hexpired.2
      exact ackLast_ok (fun hs => by rw [hs.fresh] at hstale; cases hstale) h
    · cases hsubject : legacyHistorySubject name event with
      | none =>
        simp only [hsubject, Prod.mk.injEq] at h
        obtain ⟨rfl, rfl⟩ := h
        exact .refl
      | some subject =>
        simp only [hsubject, Prod.mk.injEq] at h
        obtain ⟨rfl, rfl⟩ := h
        exact .refl

/-- **A step of a delivery** that is not its start. -/
theorem loopAct_ok (hC : ∀ n ∈ x.delivery, name.maxDeliver ≤ n → x.givesUp a = true → ¬ Unsettled parse m w)
    (h : loopAct parse name m p w x a = some (w', y)) :
    deliver name w = some (w', y) ∨ ∃ n, DeliveryOk parse name m n (¬ Unsettled parse m w) w w' y := by
  cases x with
  | idle =>
    cases a with
    | deliver => exact .inl h
    | run _ | publish _ _ _ | handle _ _ | crash => cases h
  | received n =>
    cases a with
    | run ack => exact .inr ⟨n, handleMessage_ok (Option.some.inj h)⟩
    | crash =>
      obtain ⟨rfl, rfl⟩ := Prod.mk.inj (Option.some.inj h)
      exact .inr ⟨n, close_ok fun hn => .inr (hC n rfl hn rfl)⟩
    | deliver | publish _ _ _ | handle _ _ => cases h
  | rejecting n error =>
    cases a with
    | publish result settle nak => exact .inr ⟨n, rejectInvalid_ok (hC n rfl) (Option.some.inj h)⟩
    | crash =>
      obtain ⟨rfl, rfl⟩ := Prod.mk.inj (Option.some.inj h)
      exact .inr ⟨n, close_ok fun hn => .inr (hC n rfl hn rfl)⟩
    | deliver | run _ | handle _ _ => cases h
  | moving n subject =>
    cases a with
    | publish result ack nak => exact .inr ⟨n, moveToHistory_ok (Option.some.inj h)⟩
    | crash =>
      obtain ⟨rfl, rfl⟩ := Prod.mk.inj (Option.some.inj h)
      exact .inr ⟨n, close_ok fun hn => .inr (hC n rfl hn rfl)⟩
    | deliver | run _ | handle _ _ => cases h
  | handling n =>
    cases a with
    | handle result ack => exact .inr ⟨n, handleEvent_ok (Option.some.inj h)⟩
    | crash =>
      obtain ⟨rfl, rfl⟩ := Prod.mk.inj (Option.some.inj h)
      exact .inr ⟨n, close_ok fun hn => .inr (hC n rfl hn rfl)⟩
    | deliver | run _ | publish _ _ _ => cases h
  | failing n error =>
    cases a with
    | publish result settle nak => exact .inr ⟨n, failEvent_ok (hC n rfl) (Option.some.inj h)⟩
    | crash =>
      obtain ⟨rfl, rfl⟩ := Prod.mk.inj (Option.some.inj h)
      exact .inr ⟨n, close_ok fun hn => .inr (hC n rfl hn rfl)⟩
    | deliver | run _ | handle _ _ => cases h

/-! ### The invariant -/

theorem deliver_inv (hw : LoopInv parse name m w) (h : deliver name w = some (w', y)) : LoopInv parse name m w' := by
  unfold deliver at h
  split_ifs at h with hstop
  obtain ⟨rfl, rfl⟩ := Prod.mk.inj (Option.some.inj h)
  obtain ⟨hacked, htermed, hleft⟩ : w.acked = false ∧ w.termed = false ∧ w.delivered < name.maxDeliver := by
    simpa [not_or] using hstop
  refine ⟨hleft, fun hstopped => ?_, fun hlast _ => ?_, hw.sameID⟩
  · have hstopped : w.acked = true ∨ w.termed = true := hstopped
    rw [hacked, htermed] at hstopped
    simp at hstopped
  · have hlast : name.maxDeliver = w.delivered + 1 := le_antisymm hlast hleft
    rw [hlast]
    exact List.mem_cons_self

theorem DeliveryOk.inv (hw : LoopInv parse name m w) (h : DeliveryOk parse name m n (¬ Unsettled parse m w) w w' y) :
    LoopInv parse name m w' where
  bounded := h.delivered.le.trans hw.bounded
  acked hstopped hs := by
    rcases h.acked hstopped with hacked | htermed | hsettled
    · exact hw.acked (.inl hacked) (h.unsettled hs)
    · exact hw.acked (.inr htermed) (h.unsettled hs)
    · exact hsettled hs
  last hlast hs := by
    have hopen := hw.last (h.delivered ▸ hlast) (h.unsettled hs)
    rcases h.ended with hsame | ⟨hclosed, hend⟩
    · exact hsame ▸ hopen
    · rw [hclosed]
      refine (List.mem_erase_of_ne fun hn => ?_).mpr hopen
      rcases hend hn.le with hsettled | hexcused
      · exact hsettled hs
      · exact hexcused (h.unsettled hs)
  sameID r hr := (h.sameID r hr).elim (hw.sameID r) id

theorem isExpiredEphemeralEvent_later {type : WhatsAppEventType} {publishedAt now : ℕ} (ms : ℕ)
    (h : isExpiredEphemeralEvent type publishedAt now = true) :
    isExpiredEphemeralEvent type publishedAt (now + ms) = true := by
  unfold isExpiredEphemeralEvent at *
  simp only [Option.any_eq_true, Bool.and_eq_true, decide_eq_true_eq] at *
  obtain ⟨age, hage, hpos, hlate⟩ := h
  exact ⟨age, hage, hpos, hlate.trans_le (Nat.mul_le_mul_right _ (Nat.le_add_right now ms))⟩

theorem tick_inv {ms : ℕ} (hw : LoopInv parse name m w) : LoopInv parse name m { w with now := w.now + ms } := by
  have hunsettled : Unsettled parse m { w with now := w.now + ms } → Unsettled parse m w := by
    intro h
    refine ⟨h.handled, h.history, ?_, h.deadLetters⟩
    have hfresh := h.fresh
    unfold Expired at *
    cases hparse : parse m.data with
    | error e => rfl
    | ok event =>
      rw [hparse] at hfresh
      by_contra hstale
      have hlater := isExpiredEphemeralEvent_later ms (Bool.eq_true_of_not_eq_false hstale)
      exact Bool.false_ne_true (hfresh.symm.trans hlater)
  exact ⟨hw.bounded, fun h hs => hw.acked h (hunsettled hs), fun h hs => hw.last h (hunsettled hs), hw.sameID⟩

theorem LoopInv.kept (hw : LoopInv parse name m w) : EventKept parse name m w := by
  refine ⟨fun hover hs => ?_, ?_⟩
  · rcases hover with hacked | htermed | ⟨hlast, hidle⟩
    · exact hw.acked (.inl hacked) hs
    · exact hw.acked (.inr htermed) hs
    · have hopen := hw.last hlast hs
      rw [hidle] at hopen
      cases hopen
  · have hid : legacyHistoryID m.streamSequence = some ("legacy-history-" ++ toString m.streamSequence) :=
      if_neg (Nat.ne_of_gt m.counted)
    exact ⟨_, fun r hr => (hw.sameID r hr).trans hid⟩

theorem loops_step (t : Calls (LoopState δ) DeliveryStage) (a : CallAction DeliveryAction ℕ)
    (t' : Calls (LoopState δ) DeliveryStage) (ht : LoopInv parse name m t.shared) (hC : LastKept parse name m t a)
    (h : (eventLoops parse name m).step t a = some t') : LoopInv parse name m t'.shared := by
  cases a with
  | act p a =>
    obtain ⟨w, y, hact, rfl⟩ := Machine.step_act h
    rcases loopAct_ok (p := p) hC hact with hdeliver | ⟨n, hok⟩
    · exact deliver_inv ht hdeliver
    · exact hok.inv ht
  | env ms =>
    obtain ⟨w, henv, rfl⟩ := Machine.step_env h
    obtain rfl := Option.some.inj henv
    exact tick_inv ht

def published (now : ℕ) : LoopState δ :=
  { delivered := 0
    acked := false
    termed := false
    inProgress := []
    handled := 0
    history := []
    deadLetters := []
    now := now }

theorem published_inv {now : ℕ} : LoopInv parse name m (published now) where
  bounded := Nat.zero_le _
  acked h := by simp [published] at h
  last h := by cases name <;> cases h
  sameID _ hr := by cases hr

/-- **No event is dropped** whose last delivery is not given up, and every copy in the history lane has one id. -/
theorem worker_events_kept (parse : δ → Except String WhatsAppEvent) (name : EventLoopName) (m : StreamMessage δ)
    (now : ℕ) (as : List (CallAction DeliveryAction ℕ))
    (hC : Meets (eventLoops parse name m).step (LastKept parse name m) (Calls.start (published now) .idle) as) :
    Always (eventLoops parse name m).step (fun t => EventKept parse name m t.shared)
      (Calls.start (published now) .idle) as :=
  (always_of_meets loops_step (I := fun t => LoopInv parse name m t.shared) published_inv hC).mono fun _ h => h.kept

/-! ### Evaluation -/

instance (w : LoopState δ) : Decidable (Unsettled parse m w) :=
  decidable_of_iff
    (w.handled = 0 ∧ w.history.isEmpty = true ∧ Expired parse m w = false ∧ w.deadLetters.isEmpty = true)
    ⟨fun ⟨hh, hm, he, hd⟩ => ⟨hh, List.isEmpty_iff.mp hm, he, List.isEmpty_iff.mp hd⟩,
      fun h => ⟨h.handled, List.isEmpty_iff.mpr h.history, h.fresh, List.isEmpty_iff.mpr h.deadLetters⟩⟩

instance (t : Calls (LoopState δ) DeliveryStage) :
    (a : CallAction DeliveryAction ℕ) → Decidable (LastKept parse name m t a)
  | .act p a => inferInstanceAs (Decidable (∀ n ∈ (t.calls p).delivery, name.maxDeliver ≤ n →
      (t.calls p).givesUp a = true → ¬ Unsettled parse m t.shared))
  | .env _ => .isTrue trivial

def decoded (event : Option WhatsAppEvent) : Except String WhatsAppEvent :=
  event.elim (.error "invalid event") .ok

def liveMessage : StreamMessage (Option WhatsAppEvent) :=
  ⟨"WHATSAPP.events.c.k.message", some ⟨.message, "c", "k", false⟩, 41, 1000000, by decide⟩

def legacyContact : StreamMessage (Option WhatsAppEvent) :=
  ⟨"WHATSAPP.events.c.k.contact", some ⟨.contact, "c", "k", false⟩, 42, 1000000, by decide⟩

/-- The answer to the first publish and the acknowledgement of the second are lost. -/
def movedThrice : List (CallAction DeliveryAction ℕ) :=
  [.act 0 .deliver, .act 0 (.run .lost), .act 0 (.publish (.unanswered "timeout") .lost .lost), .act 1 .deliver,
    .act 1 (.run .lost), .env 60000, .act 0 .deliver, .act 1 (.publish .stored .lost .lost), .act 0 (.run .lost),
    .act 0 (.publish .stored .arrives .lost)]

theorem worker_events_kept_contact :
    Always (eventLoops decoded .critical legacyContact).step
      (fun t => EventKept decoded .critical legacyContact t.shared) (Calls.start (published 1) .idle) movedThrice :=
  worker_events_kept decoded .critical legacyContact 1 movedThrice (meets_of_check (by decide +kernel))

/-- The handler fails ten times, and the dead letter cannot be published. -/
def failingDeliveries : List (CallAction DeliveryAction ℕ) :=
  ((List.range 10).flatMap fun _ =>
    [.act 0 .deliver, .act 0 (.run .lost), .act 0 (.handle (.fails false "database unavailable") .lost)]) ++
    [.act 0 (.publish (.refused "no response from stream") .lost .lost)]

theorem worker_events_dropped :
    ¬ Always (eventLoops decoded .critical liveMessage).step
      (fun t => EventKept decoded .critical liveMessage t.shared) (Calls.start (published 1) .idle)
      failingDeliveries := by
  intro hall
  have hrun : (runActions (eventLoops decoded .critical liveMessage).step (Calls.start (published 1) .idle)
      failingDeliveries).any (fun t => decide (t.shared.delivered = 10) && t.shared.inProgress.isEmpty &&
        decide (Unsettled decoded liveMessage t.shared)) = true := by decide +kernel
  obtain ⟨t, ht, hdropped⟩ := (Option.any_eq_true _ _).mp hrun
  simp only [Bool.and_eq_true, decide_eq_true_eq, List.isEmpty_iff] at hdropped
  obtain ⟨⟨hlast, hidle⟩, hunsettled⟩ := hdropped
  have hkept := always_iff_reached.mp hall failingDeliveries [] t (List.append_nil _).symm ht
  exact hkept.settled (.inr (.inr ⟨hlast.ge, hidle⟩)) hunsettled

end TeamInbox.Api
