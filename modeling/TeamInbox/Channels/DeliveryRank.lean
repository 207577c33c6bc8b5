import TeamInbox.Channels.LinkedDevice
import TeamInbox.Channels.SendOnce
import TeamInbox.Messages.StatusRank

/-!
# TeamInbox.Channels.DeliveryRank — the status of a message that is sent

A completion of Telegram finds the message as it was stored: nothing can name it before it has an external id.  The
worker of a linked device can report on a command before the call that has enqueued it is completed; the completion
of an accepted result then puts the message back to pending.
-/

namespace TeamInbox.Channels

open TeamInbox.Lib
open TeamInbox.Messages (MessageStatus MessageRow MessageStore MessageAction RowChange handle)

/-! ### What is claimed -/

def RankKept {Op μ : Type} (s s' : Outbound Op μ) : Prop :=
  ∀ m ∈ s.message, ∃ m' ∈ s'.message, m.status.rank ≤ m'.status.rank

abbrev LinkedOutbound := Outbound LinkedOp (List String)

abbrev LinkedCall := DispatchCall LinkedOp LinkedOp.Resp

abbrev LinkedAction := CallAction (DispatchAction LinkedOp LinkedOp.Resp) (OutboundEvent LinkedEvent)

def linkedSystem := outboundSystem linkedAdapter linkedOutside

def telegramSystem (numberValue : Js .value → Option ℕ) (toText : Js .value → String) :=
  outboundSystem (telegramAdapter numberValue toText) neutralOutside

/-- An accepted send is completed before an event has advanced the message. -/
def NotOvertaken (s : Calls LinkedOutbound LinkedCall) : LinkedAction → Prop
  | .act p (.complete _) =>
    match s.calls p with
    | .completing c (.success false _ _ _) =>
      fenced s.shared c → c.operation.isAction = false → ∀ m ∈ s.shared.message, m.status.rank = 0
    | _ => True
  | _ => True

def OutboundMessage.created (id : ℕ) (textContent : String) : OutboundMessage where
  id := id
  status := .pending
  messageId := none
  externalMessageId := none
  externalIdentityScope := none
  connection := none
  metadata := none
  textContent := textContent
  deletedBySender := false

/-! ### Events -/

theorem rank_deliveredStatus (reported : Option MessageStatus) (status : MessageStatus) :
    status.rank ≤ (deliveredStatus reported status).rank := by
  rcases reported with _ | reported
  · exact Nat.le_refl _
  · cases reported <;> cases status <;> decide

theorem rank_applyDeliveryUpdate (scope externalId : String) (reported : Option MessageStatus) (m : OutboundMessage) :
    m.status.rank ≤ (applyDeliveryUpdate scope externalId reported m).status.rank := by
  unfold applyDeliveryUpdate
  split_ifs
  · exact rank_deliveredStatus reported m.status
  · exact Nat.le_refl _

theorem rank_ofLegacy {m : OutboundMessage} {r : MessageRow} {n : ℕ} (h : n ≤ r.rank) :
    n ≤ (m.ofLegacy r).status.rank := by
  unfold OutboundMessage.ofLegacy
  unfold MessageRow.rank at h
  rcases hstatus : r.status with _ | status
  · rw [hstatus] at h
    exact Nat.le_trans h (Nat.zero_le _)
  · rw [hstatus] at h
    exact h

theorem rank_legacyRow {m : OutboundMessage} {r : MessageRow} (h : m.legacyRow = some r) : r.rank = m.status.rank := by
  unfold OutboundMessage.legacyRow at h
  split_ifs at h
  obtain ⟨messageId, -, rfl⟩ := Option.map_eq_some_iff.mp h
  rfl

theorem rank_legacyEvent {a : MessageAction} (ha : ∀ s s', handle s a = .ok s' →
      s' = s ∨ ∃ f addressed rank proves, RowChange s s' a f addressed rank proves) (m : OutboundMessage) :
    m.status.rank ≤ (legacyEvent a m).status.rank := by
  unfold legacyEvent
  split
  · exact Nat.le_refl _
  · next r hr =>
    split
    · next s' hs' =>
      rcases ha _ _ hs' with rfl | ⟨f, addressed, rank, proves, hchange⟩
      · exact rank_ofLegacy (Nat.le_of_eq (rank_legacyRow hr).symm)
      · rw [hchange.rows]
        exact rank_ofLegacy ((rank_legacyRow hr).symm ▸ hchange.rank_le r)
    · exact Nat.le_refl _

theorem sendFailed_change {s s' : MessageStore} {pendingMessageId : String} {outcome : Messages.SendOutcome}
    {messageId : Option String} {reason : String}
    (h : handle s (.sendFailed pendingMessageId outcome messageId reason) = .ok s') :
    ∃ f addressed rank proves,
      RowChange s s' (.sendFailed pendingMessageId outcome messageId reason) f addressed rank proves := by
  cases outcome with
  | failed =>
    exact ⟨_, _, _, _, RowChange.silent h (fun _ => rfl) fun r hr => ⟨Messages.pendingSelects_rank hr, rfl⟩⟩
  | unknown =>
    exact ⟨_, _, _, _, RowChange.silent h (fun _ => rfl) fun r hr => ⟨Messages.unknownSelects_rank hr, rfl⟩⟩

theorem rankKept_map {Op μ : Type} {s s' : Outbound Op μ} {f : OutboundMessage → OutboundMessage}
    (h : s'.message = s.message.map f) (hf : ∀ m ∈ s.message, m.status.rank ≤ (f m).status.rank) : RankKept s s' := by
  intro m hm
  refine ⟨f m, ?_, hf m hm⟩
  rw [h, Option.mem_def.mp hm]
  rfl

theorem rankKept_same {Op μ : Type} {s s' : Outbound Op μ} (h : s'.message = s.message) : RankKept s s' :=
  fun m hm => ⟨m, h.symm ▸ hm, Nat.le_refl _⟩

theorem neutralOutside_map {e : NeutralEvent} {message : Option OutboundMessage} {rest : Unit}
    {r : Option OutboundMessage × Unit} (h : neutralOutside e (message, rest) = some r) :
    ∃ scope externalId reported, r.1 = message.map (applyDeliveryUpdate scope externalId reported) := by
  cases e with
  | deliveryUpdate scope externalId reported =>
    obtain rfl := Option.some.inj h
    exact ⟨scope, externalId, reported, rfl⟩

theorem linkedOutside_map {e : LinkedEvent} {message : Option OutboundMessage} {commands : List String}
    {r : Option OutboundMessage × List String} (h : linkedOutside e (message, commands) = some r) :
    r.2 = commands ∧ ∃ f : OutboundMessage → OutboundMessage, r.1 = message.map f ∧
      (∀ m, m.status.rank ≤ (f m).status.rank) ∧ (commands = [] → ∀ m, m.externalMessageId = none → f m = m) := by
  cases e with
  | deliveryUpdate scope externalId reported =>
    obtain rfl := Option.some.inj h
    refine ⟨rfl, _, rfl, rank_applyDeliveryUpdate scope externalId reported, fun _ m hm => if_neg fun haddr => ?_⟩
    rw [hm] at haddr
    exact nomatch haddr.2
  | confirmation pendingMessageId messageId =>
    simp only [linkedOutside] at h
    split_ifs at h with hmem
    obtain rfl := Option.some.inj h
    refine ⟨rfl, _, rfl, rank_legacyEvent fun s s' hs => ?_, fun hnil => ?_⟩
    · exact .inr (Messages.handleSendConfirmationEvent_change hs)
    · rw [hnil] at hmem
      exact nomatch hmem
  | receipt messageId type pendingMessageId =>
    simp only [linkedOutside] at h
    split_ifs at h with hcommands
    obtain rfl := Option.some.inj h
    refine ⟨rfl, _, rfl, rank_legacyEvent fun s s' hs => ?_, fun hnil => absurd hnil hcommands⟩
    exact Messages.handleReceiptEvent_change hs
  | sendFailed pendingMessageId outcome messageId reason =>
    simp only [linkedOutside] at h
    split_ifs at h with hmem
    obtain rfl := Option.some.inj h
    refine ⟨rfl, _, rfl, rank_legacyEvent fun s s' hs => .inr (sendFailed_change hs), fun hnil => ?_⟩
    rw [hnil] at hmem
    exact nomatch hmem
  | mirrored scope externalId =>
    simp only [linkedOutside] at h
    split_ifs at h with hcommands
    obtain rfl := Option.some.inj h
    exact ⟨rfl, _, rfl, fun _ => Nat.le_refl _, fun hnil => absurd hnil hcommands⟩

/-! ### Completions -/

section Dispatch

variable {Op : Type} {Resp : Op → Type} {μ E : Type} {adapter : ChannelAdapter Op Resp μ}

/-- Before it has been sent: no rank to lose, and nothing an update can name it by. -/
def OutboundMessage.Fresh (m : OutboundMessage) : Prop := m.status.rank = 0 ∧ m.externalMessageId = none

theorem resultMessage_of_pending {c : ClaimedIntent} {now : ℕ} {r : IntentRow} {result : ProviderSendResult}
    {m : OutboundMessage} (h : (r.complete now result).status = .pending) : resultMessage c result m = m := by
  cases result with
  | success confirmed =>
    cases confirmed with
    | true | false => exact nomatch h
  | failure outcome =>
    cases outcome with
    | transient => rfl
    | permanent | uncertain => exact nomatch h

theorem status_resultMessage_action {c : ClaimedIntent} {name : String} (hc : c.operation = .action name)
    (result : ProviderSendResult) (m : OutboundMessage) : (resultMessage c result m).status = m.status := by
  cases result with
  | success confirmed =>
    show (completeMessage c confirmed _ _ m).status = _
    unfold completeMessage
    rw [hc]
    dsimp only
    split_ifs
    · rfl
    · split <;> rfl
    · rfl
  | failure outcome =>
    show (ite _ _ _ : OutboundMessage).status = _
    rw [hc, if_neg fun h => nomatch h.2]

theorem dispatchAct_message {F : (OutboundMessage → OutboundMessage) → Prop} (hid : F id)
    (hexec : ∀ op answer message rest, ∃ f, F f ∧ (adapter.exec op answer (message, rest)).1 = message.map f)
    {s w : Outbound Op μ} {p : ℕ} {x y : DispatchCall Op Resp} {a : DispatchAction Op Resp}
    (h : dispatchAct adapter p s x a = some (w, y)) : (∃ f, F f ∧ w.message = s.message.map f) ∨ ∃ now c result,
      a = .complete now ∧ x = .completing c result ∧ fenced s c ∧ w = completeClaim now c result s := by
  have hsame : s.message = s.message.map id := Option.map_id.symm ▸ rfl
  cases a with
  | claim now =>
    cases x with
    | idle =>
      obtain ⟨⟨v, c⟩, hclaim, heq⟩ := Option.map_eq_some_iff.mp h
      obtain ⟨rfl, rfl⟩ := Prod.mk.inj heq
      unfold claimIntent at hclaim
      split_ifs at hclaim
      obtain ⟨rfl, -⟩ := Prod.mk.inj (Option.some.inj hclaim)
      exact .inl ⟨id, hid, hsame⟩
    | claimed | authorized | calling | completing => cases h
  | authorize authorized =>
    cases x with
    | claimed c =>
      obtain ⟨rfl, -⟩ := Prod.mk.inj (Option.some.inj h)
      exact .inl ⟨id, hid, hsame⟩
    | idle | authorized | calling | completing => cases h
  | invoke registered outboundInitiation =>
    cases x with
    | authorized c =>
      have h := Option.some.inj h
      unfold invokeAdapter at h
      split_ifs at h <;>
      · obtain ⟨rfl, -⟩ := Prod.mk.inj h
        exact .inl ⟨id, hid, hsame⟩
    | idle | claimed | calling | completing => cases h
  | perform answers =>
    cases x with
    | calling c program =>
      have h : performNext adapter c answers s program = some (w, y) := h
      cases program with
      | act op k =>
        obtain ⟨rfl, -⟩ := Prod.mk.inj (Option.some.inj h)
        exact .inl (hexec op (answers op) s.message s.rest)
      | done | fail => cases h
    | idle | claimed | authorized | completing => cases h
  | answer =>
    cases x with
    | calling c program =>
      obtain ⟨result, -, heq⟩ := Option.map_eq_some_iff.mp h
      obtain ⟨rfl, -⟩ := Prod.mk.inj heq
      exact .inl ⟨id, hid, hsame⟩
    | idle | claimed | authorized | completing => cases h
  | complete now =>
    cases x with
    | completing c result =>
      obtain ⟨rfl, -⟩ := Prod.mk.inj (Option.some.inj h)
      by_cases hfenced : fenced s c
      · exact .inr ⟨now, c, result, rfl, rfl, hfenced, rfl⟩
      · refine .inl ⟨id, hid, ?_⟩
        rw [completeClaim, if_neg hfenced]
        exact hsame
    | idle | claimed | authorized | calling => cases h
  | crash =>
    have h : some (s, DispatchCall.idle) = some (w, y) := by
      cases x <;> exact h
    obtain ⟨rfl, -⟩ := Prod.mk.inj (Option.some.inj h)
    exact .inl ⟨id, hid, hsame⟩

end Dispatch

/-! ### Telegram -/

section Telegram

variable {numberValue : Js .value → Option ℕ} {toText : Js .value → String}

/-- As long as the intent is open, the message is as it was stored. -/
def UnsentWhileOpen {Op μ : Type} (s : Outbound Op μ) : Prop :=
  s.intent.status.final = false → ∀ m ∈ s.message, m.Fresh

theorem final_of_dispatching {Op μ : Type} {s : Outbound Op μ} {c : ClaimedIntent} (h : fenced s c) :
    s.intent.status.final = false := by
  rw [h.1]
  rfl

theorem UnsentWhileOpen.same {Op μ : Type} {s w : Outbound Op μ} (hs : UnsentWhileOpen s)
    (hmessage : w.message = s.message) (hfinal : s.intent.status.final = true → w.intent.status = s.intent.status) :
    UnsentWhileOpen w := by
  intro hopen m hm
  rw [hmessage] at hm
  refine hs ?_ m hm
  cases hfin : s.intent.status.final with
  | false => rfl
  | true =>
    rw [hfinal hfin, hfin] at hopen
    exact nomatch hopen

theorem UnsentWhileOpen.complete {Op μ : Type} {s : Outbound Op μ} {c : ClaimedIntent} {result : ProviderSendResult}
    {now : ℕ} (hs : UnsentWhileOpen s) (hfenced : fenced s c) :
    UnsentWhileOpen (completeClaim now c result s) ∧ RankKept s (completeClaim now c result s) := by
  rw [completeClaim, if_pos hfenced]
  have hfresh := hs (final_of_dispatching hfenced)
  refine ⟨fun hopen m hm => ?_, rankKept_map rfl fun m hm => ?_⟩
  · obtain ⟨old, hold, rfl⟩ := Option.map_eq_some_iff.mp hm
    have hpending : (s.intent.complete now result).status = .pending := by
      revert hopen
      show (s.intent.complete now result).status.final = false → _
      cases result with
      | success confirmed =>
        cases confirmed with
        | true | false =>
          intro hopen
          cases hopen
      | failure outcome =>
        cases outcome with
        | transient => exact fun _ => rfl
        | permanent | uncertain =>
          intro hopen
          cases hopen
    rw [resultMessage_of_pending hpending]
    exact hfresh old hold
  · rw [(hfresh m hm).1]
    exact Nat.zero_le _

theorem telegram_step (s : Calls TelegramOutbound TelegramCall)
    (a : CallAction (DispatchAction TelegramOp TelegramOp.Resp) (OutboundEvent NeutralEvent))
    (s' : Calls TelegramOutbound TelegramCall) (hs : UnsentWhileOpen s.shared)
    (h : (telegramSystem numberValue toText).step s a = some s') :
    UnsentWhileOpen s'.shared ∧ RankKept s.shared s'.shared := by
  have hfinal := (dispatch_step h).final
  cases a with
  | act p a =>
    obtain ⟨w, y, hact, rfl⟩ := Machine.step_act h
    have hexec : ∀ (op : TelegramOp) (answer : op.Resp) message rest, ∃ f, f = id ∧
        ((telegramAdapter numberValue toText).exec op answer (message, rest)).1 = message.map f :=
      fun _ _ message _ => ⟨id, rfl, Option.map_id.symm ▸ rfl⟩
    rcases dispatchAct_message (F := (· = id)) rfl hexec hact with ⟨f, rfl, hmessage⟩ | ⟨now, c, result, -, -, hfenced, rfl⟩
    · have hmessage : w.message = s.shared.message := hmessage.trans (by rw [Option.map_id]; rfl)
      exact ⟨hs.same hmessage hfinal, rankKept_same hmessage⟩
    · exact hs.complete hfenced
  | env e =>
    obtain ⟨w, henv, rfl⟩ := Machine.step_env h
    cases e with
    | recover now =>
      obtain rfl := Option.some.inj henv
      have hmessage : (recoverExpiredLeases now s.shared).message = s.shared.message := by
        unfold recoverExpiredLeases
        split_ifs <;> rfl
      exact ⟨hs.same hmessage hfinal, rankKept_same hmessage⟩
    | outside e =>
      have henv : (neutralOutside e (s.shared.message, s.shared.rest)).map
          (fun r => { s.shared with message := r.1, rest := r.2 }) = some w := henv
      obtain ⟨⟨message, rest⟩, hout, rfl⟩ := Option.map_eq_some_iff.mp henv
      obtain ⟨scope, externalId, reported, rfl⟩ := neutralOutside_map hout
      refine ⟨fun hopen m hm => ?_, rankKept_map rfl fun m _ => rank_applyDeliveryUpdate scope externalId reported m⟩
      obtain ⟨old, hold, rfl⟩ := Option.map_eq_some_iff.mp hm
      have hfresh := hs hopen old hold
      rw [applyDeliveryUpdate, if_neg fun haddr => by rw [hfresh.2] at haddr; exact nomatch haddr.2]
      exact hfresh

end Telegram

/-! ### What the linked device answers -/

/-- The operation has put a command into the outbox. -/
def LinkedOp.sends : (op : LinkedOp) → op.Resp → Bool
  | .enqueue _ _, outcome => decide (outcome ≠ .failed)
  | .readTarget, _ | .activeSession _, _ | .buildCommand _, _ => false

/-- On every path the outcome satisfies `Q` with whether there is a command. -/
def Handed {α : Type} (Q : Bool → Except String α → Prop) : Bool → LinkedProc α → Prop
  | sent, .done a => Q sent (.ok a)
  | sent, .fail e => Q sent (.error e)
  | sent, .act op k => ∀ b, Handed Q (sent || op.sends b) (k b)

section Handed

variable {α β : Type} {sent : Bool}

theorem Handed.mono {Q Q' : Bool → Except String α → Prop} {p : LinkedProc α} (h : Handed Q sent p)
    (hQ : ∀ sent r, Q sent r → Q' sent r) : Handed Q' sent p := by
  induction p generalizing sent with
  | done | fail => exact hQ _ _ h
  | act op k ih => exact fun b => ih b (h b)

theorem Handed.bind {Q : Bool → Except String β → Prop} {p : LinkedProc α} {g : α → LinkedProc β}
    (h : Handed (fun sent r => match r with
      | .ok a => Handed Q sent (g a)
      | .error e => Q sent (.error e)) sent p) : Handed Q sent (p.bind g) := by
  induction p generalizing sent with
  | done | fail => exact h
  | act op k ih => exact fun b => ih b (h b)

theorem Handed.attempt {Q : Bool → Except String (Except String α) → Prop} {p : LinkedProc α}
    (h : Handed (fun sent r => Q sent (.ok r)) sent p) : Handed Q sent p.attempt := by
  induction p generalizing sent with
  | done | fail => exact h
  | act op k ih => exact fun b => ih b (h b)

theorem Handed.ofExcept {Q : Bool → Except String β → Prop} {x : Except String α} {g : α → LinkedProc β}
    (hok : ∀ a, Handed Q sent (g a)) (herror : ∀ e, Q sent (.error e)) :
    Handed Q sent ((Proc.ofExcept x).bind g) := by
  cases x with
  | ok a => exact hok a
  | error e => exact herror e

/-- Accepted or open once there is a command, and nothing is confirmed. -/
def Unconfirmed (sent : Bool) : ProviderSendResult → Prop
  | .success confirmed _ externalMessageId _ => confirmed = false ∧ externalMessageId = none
  | .failure outcome _ _ _ => sent = true → outcome = .uncertain

def UnconfirmedOutcome (sent : Bool) : Except String ProviderSendResult → Prop
  | .ok r => Unconfirmed sent r
  | .error _ => True

theorem handed_handOver (connectionId : ℕ) (input : SendCommandInput) (providerRequestId : String) :
    Handed UnconfirmedOutcome false (handOver connectionId input providerRequestId) := by
  intro built
  refine Handed.ofExcept (fun _ outcome => ?_) fun _ => trivial
  cases outcome with
  | committed => exact ⟨rfl, rfl⟩
  | lost | failed => trivial

theorem handed_body (c : ClaimedIntent) : Handed UnconfirmedOutcome false (linkedBody c) := by
  intro read
  refine Handed.ofExcept (fun target => ?_) fun _ => trivial
  split
  · split_ifs
    · rintro ⟨⟩
    · intro session
      refine Handed.ofExcept (fun sessionId => ?_) fun _ => trivial
      dsimp only
      split
      · rintro ⟨⟩
      · exact handed_handOver _ _ _
  · rintro ⟨⟩

/-- **Whatever the call meets, it confirms nothing, and with a command in the outbox it has not failed.** -/
theorem handed_call (c : ClaimedIntent) : Handed UnconfirmedOutcome false (linkedAdapter.call c) := by
  have hsend : Handed UnconfirmedOutcome false (linkedSend c) := by
    refine Handed.bind (Handed.attempt ((handed_body c).mono fun sent r hr => ?_))
    cases r with
    | ok result => exact hr
    | error e => exact fun _ => rfl
  unfold ChannelAdapter.call
  split
  · exact nofun
  · exact hsend
  · exact hsend

end Handed

/-! ### The linked device -/

structure LinkedInv (s : LinkedOutbound) : Prop extends SendInv s where
  commands : s.intent.status = .pending → s.rest = []
  unsent : s.rest = [] → ∀ m ∈ s.message, m.Fresh

def LinkedOk (s : LinkedOutbound) (p : ℕ) (x : LinkedCall) : Prop :=
  DispatchOk s p x ∧ match x with
    | .idle => True
    | .claimed _ | .authorized _ => s.rest = []
    | .calling _ program => ∃ sent, Handed UnconfirmedOutcome sent program ∧ (sent = false → s.rest = [])
    | .completing _ result => ∃ sent, Unconfirmed sent result ∧ (sent = false → s.rest = [])

theorem linkedExec_message (op : LinkedOp) (answer : op.Resp) (message : Option OutboundMessage)
    (commands : List String) : ∃ f : OutboundMessage → OutboundMessage,
      (∀ m, (f m).status = m.status ∧ (f m).externalMessageId = m.externalMessageId) ∧
        (linkedExec op answer (message, commands)).1 = message.map f := by
  have hsame : ∃ f : OutboundMessage → OutboundMessage,
      (∀ m, (f m).status = m.status ∧ (f m).externalMessageId = m.externalMessageId) ∧ message = message.map f :=
    ⟨id, fun _ => ⟨rfl, rfl⟩, Option.map_id.symm ▸ rfl⟩
  cases op with
  | readTarget | activeSession | buildCommand => exact hsame
  | enqueue connectionId pendingMessageId =>
    cases answer with
    | failed => exact hsame
    | committed | lost =>
      cases message with
      | none => exact hsame
      | some m => exact ⟨enqueueCommand connectionId pendingMessageId, fun _ => ⟨rfl, rfl⟩, rfl⟩

theorem linkedExec_commands {op : LinkedOp} {answer : op.Resp} {message : Option OutboundMessage}
    {commands : List String} (h : op.sends answer = false) : (linkedExec op answer (message, commands)).2 = commands := by
  cases op with
  | readTarget | activeSession | buildCommand => rfl
  | enqueue connectionId pendingMessageId =>
    cases answer with
    | failed => rfl
    | committed | lost => exact nomatch h

theorem linkedExec_nil {op : LinkedOp} {answer : op.Resp} {message : Option OutboundMessage} {commands : List String}
    (h : (linkedExec op answer (message, commands)).2 = []) : commands = [] := by
  cases op with
  | readTarget | activeSession | buildCommand => exact h
  | enqueue connectionId pendingMessageId =>
    cases answer with
    | failed => exact h
    | committed | lost =>
      cases message with
      | none => exact h
      | some m => exact nomatch h

theorem linked_complete {s : LinkedOutbound} {now : ℕ} {c : ClaimedIntent} {result : ProviderSendResult}
    (hs : LinkedInv s) (hinv : SendInv (completeClaim now c result s))
    (hresult : ∃ sent, Unconfirmed sent result ∧ (sent = false → s.rest = [])) : LinkedInv (completeClaim now c result s) := by
  obtain ⟨sent, hresult, hnone⟩ := hresult
  unfold completeClaim at hinv ⊢
  split_ifs with hfenced
  · rw [if_pos hfenced] at hinv
    refine ⟨hinv, fun hpending => hnone ?_, fun hnil m hm => ?_⟩
    · cases sent with
      | false => rfl
      | true =>
        have htransient := transient_of_pending hpending
        cases result with
        | success => exact nomatch htransient
        | failure outcome =>
          rw [hresult rfl] at htransient
          exact nomatch htransient
    · obtain ⟨old, hold, rfl⟩ := Option.map_eq_some_iff.mp hm
      obtain ⟨hrank, hexternal⟩ := hs.unsent hnil old hold
      cases result with
      | success confirmed providerRequestId externalMessageId =>
        obtain ⟨rfl, rfl⟩ := hresult
        show (completeMessage c false none _ old).Fresh
        unfold completeMessage
        split
        · simp only [Bool.false_eq_true, false_and, if_false]
          exact ⟨hrank, hexternal⟩
        · exact ⟨rfl, hexternal⟩
        · exact ⟨rfl, hexternal⟩
      | failure outcome =>
        show (ite _ _ _ : OutboundMessage).Fresh
        split_ifs
        · exact ⟨rfl, hexternal⟩
        · exact ⟨hrank, hexternal⟩
  · exact hs

theorem linkedAct_ok {s w : LinkedOutbound} {p : ℕ} {x y : LinkedCall} {a : DispatchAction LinkedOp LinkedOp.Resp}
    (hs : LinkedInv s) (hp : LinkedOk s p x) (h : dispatchAct linkedAdapter p s x a = some (w, y)) :
    LinkedInv w ∧ LinkedOk w p y := by
  obtain ⟨hinv, hok, -⟩ := dispatchAct_ok hs.toSendInv hp.1 h
  have hp := hp.2
  cases a with
  | claim now =>
    cases x with
    | idle =>
      obtain ⟨⟨v, c⟩, hclaim, heq⟩ := Option.map_eq_some_iff.mp h
      obtain ⟨rfl, rfl⟩ := Prod.mk.inj heq
      unfold claimIntent at hclaim
      split_ifs at hclaim with hdue
      obtain ⟨rfl, rfl⟩ := Prod.mk.inj (Option.some.inj hclaim)
      exact ⟨⟨hinv, nofun, hs.unsent⟩, hok, hs.commands hdue.1⟩
    | claimed | authorized | calling | completing => exact nomatch h
  | authorize authorized =>
    cases x with
    | claimed c =>
      obtain ⟨rfl, rfl⟩ := Prod.mk.inj (Option.some.inj h)
      refine ⟨hs, hok, ?_⟩
      split_ifs
      · exact hp
      · exact ⟨false, nofun, fun _ => hp⟩
    | idle | authorized | calling | completing => exact nomatch h
  | invoke registered outboundInitiation =>
    cases x with
    | authorized c =>
      have h := Option.some.inj h
      unfold invokeAdapter at h
      split_ifs at h
      · obtain ⟨rfl, rfl⟩ := Prod.mk.inj h
        exact ⟨hs, hok, false, nofun, fun _ => hp⟩
      · obtain ⟨rfl, rfl⟩ := Prod.mk.inj h
        exact ⟨hs, hok, false, nofun, fun _ => hp⟩
      · obtain ⟨rfl, rfl⟩ := Prod.mk.inj h
        exact ⟨⟨hinv, hs.commands, hs.unsent⟩, hok, false, handed_call c, fun _ => hp⟩
    | idle | claimed | calling | completing => exact nomatch h
  | perform answers =>
    cases x with
    | calling c program =>
      have h : performNext linkedAdapter c answers s program = some (w, y) := h
      cases program with
      | act op k =>
        obtain ⟨rfl, rfl⟩ := Prod.mk.inj (Option.some.inj h)
        obtain ⟨sent, hprogram, hnone⟩ := hp
        have hrest : (linkedExec op (answers op) (s.message, s.rest)).2 = [] → s.rest = [] := linkedExec_nil
        refine ⟨⟨hinv, fun hpending => ?_, fun hnil m hm => ?_⟩, hok, _, hprogram (answers op), fun hsent => ?_⟩
        · rcases hok.1.undecided with hd | hd <;>
          · rw [hpending] at hd
            exact nomatch hd
        · obtain ⟨f, hf, hmessage⟩ := linkedExec_message op (answers op) s.message s.rest
          have hm : m ∈ (linkedExec op (answers op) (s.message, s.rest)).1 := hm
          rw [hmessage] at hm
          obtain ⟨old, hold, rfl⟩ := Option.map_eq_some_iff.mp hm
          obtain ⟨hrank, hexternal⟩ := hs.unsent (hrest hnil) old hold
          exact ⟨(congrArg _ (hf old).1).trans hrank, (hf old).2.trans hexternal⟩
        · obtain ⟨hsent, hop⟩ := Bool.or_eq_false_iff.mp hsent
          exact (linkedExec_commands hop).trans (hnone hsent)
      | done | fail => exact nomatch h
    | idle | claimed | authorized | completing => exact nomatch h
  | answer =>
    cases x with
    | calling c program =>
      obtain ⟨result, hresult, heq⟩ := Option.map_eq_some_iff.mp h
      obtain ⟨rfl, rfl⟩ := Prod.mk.inj heq
      obtain ⟨sent, hprogram, hnone⟩ := hp
      refine ⟨⟨hinv, hs.commands, hs.unsent⟩, hok, sent, ?_, hnone⟩
      cases program with
      | act op k => exact nomatch hresult
      | done r =>
        obtain rfl := Option.some.inj hresult
        exact hprogram
      | fail e =>
        obtain rfl := Option.some.inj hresult
        exact fun _ => rfl
    | idle | claimed | authorized | completing => exact nomatch h
  | complete now =>
    cases x with
    | completing c result =>
      obtain ⟨rfl, rfl⟩ := Prod.mk.inj (Option.some.inj h)
      exact ⟨linked_complete hs hinv hp, hok, trivial⟩
    | idle | claimed | authorized | calling => exact nomatch h
  | crash =>
    have h : some (s, DispatchCall.idle) = some (w, y) := by
      cases x <;> exact h
    obtain ⟨rfl, rfl⟩ := Prod.mk.inj (Option.some.inj h)
    exact ⟨hs, hok, trivial⟩

theorem LinkedOk.idle {s : LinkedOutbound} {p : ℕ} {x : LinkedCall} (h : x.claim = none) : LinkedOk s p x := by
  cases x with
  | idle => exact ⟨trivial, trivial⟩
  | claimed | authorized | calling | completing => exact nomatch h

theorem LinkedOk.steady {s w : LinkedOutbound} {p : ℕ} {x : LinkedCall} (h : LinkedOk s p x) (hsteady : Steady s w)
    (hrest : w.rest = s.rest) : LinkedOk w p x := by
  refine ⟨hsteady.ok h.1, ?_⟩
  rw [hrest]
  exact h.2

theorem linked_env {s w : LinkedOutbound} {e : OutboundEvent LinkedEvent} (hs : LinkedInv s)
    (h : linkedSystem.env e s = some w) : LinkedInv w ∧ Steady s w ∧ w.rest = s.rest ∧ RankKept s w := by
  cases e with
  | recover now =>
    obtain rfl := Option.some.inj h
    have hsteady := steady_recover now s
    have hsame : (recoverExpiredLeases now s).message = s.message ∧ (recoverExpiredLeases now s).rest = s.rest := by
      unfold recoverExpiredLeases
      split_ifs <;> exact ⟨rfl, rfl⟩
    refine ⟨⟨hsteady.inv hs.toSendInv, fun hpending => ?_, fun hnil => ?_⟩, hsteady, hsame.2, rankKept_same hsame.1⟩
    · exact hsame.2.trans (hs.commands (hsteady.pending hpending))
    · rw [hsame.1]
      exact hs.unsent (hsame.2.symm.trans hnil)
  | outside e =>
    have h : (linkedOutside e (s.message, s.rest)).map (fun r => { s with message := r.1, rest := r.2 }) = some w := h
    obtain ⟨⟨message, rest⟩, hout, rfl⟩ := Option.map_eq_some_iff.mp h
    obtain ⟨rfl, f, rfl, hrank, hsame⟩ := linkedOutside_map hout
    have hsteady := steady_outside s (s.message.map f) s.rest s.performed
    refine ⟨⟨hsteady.inv hs.toSendInv, hs.commands, fun hnil m hm => ?_⟩, hsteady, rfl, rankKept_map rfl fun m _ => hrank m⟩
    obtain ⟨old, hold, rfl⟩ := Option.map_eq_some_iff.mp hm
    have hfresh := hs.unsent hnil old hold
    rw [hsame hnil old hfresh.2]
    exact hfresh

theorem linked_step (s : Calls LinkedOutbound LinkedCall) (a : LinkedAction) (s' : Calls LinkedOutbound LinkedCall)
    (hs : Holds LinkedInv LinkedOk s) (h : linkedSystem.step s a = some s') : Holds LinkedInv LinkedOk s' := by
  refine Machine.holds_step (C := fun _ _ => True) (fun s p a w y hs _ hact => ?_) (fun s e w hs _ henv => ?_)
    s a s' hs trivial h
  · obtain ⟨-, -, hothers⟩ := dispatchAct_ok hs.1.toSendInv (hs.2 p).1 hact
    obtain ⟨hinv, hok⟩ := linkedAct_ok hs.1 (hs.2 p) hact
    exact ⟨hinv, hok, fun q hne =>
      others_ok (J := LinkedOk) (fun _ _ _ => LinkedOk.idle) (hs.2 q).1 (hs.2 q) hne hothers⟩
  · obtain ⟨hinv, hsteady, hrest, -⟩ := linked_env hs.1 henv
    exact ⟨hinv, fun q => (hs.2 q).steady hsteady hrest⟩

theorem linked_complete_rank {s : LinkedOutbound} {now : ℕ} {c : ClaimedIntent} {result : ProviderSendResult}
    (hs : LinkedInv s) (hfenced : fenced s c)
    (hresult : ∃ sent, Unconfirmed sent result ∧ (sent = false → s.rest = []))
    (haccepted : ∀ providerRequestId externalMessageId externalIdentityScope,
      result = .success false providerRequestId externalMessageId externalIdentityScope →
        c.operation.isAction = false → ∀ m ∈ s.message, m.status.rank = 0) :
    RankKept s (completeClaim now c result s) := by
  rw [completeClaim, if_pos hfenced]
  refine rankKept_map rfl fun m hm => ?_
  obtain ⟨sent, hresult, hnone⟩ := hresult
  cases hop : c.operation with
  | action name => exact Nat.le_of_eq (congrArg _ (status_resultMessage_action hop result m).symm)
  | send | initiate =>
    have hsend : c.operation.isAction = false := by
      rw [hop]
      rfl
    cases result with
    | success confirmed providerRequestId externalMessageId externalIdentityScope =>
      obtain ⟨rfl, -⟩ := hresult
      rw [haccepted _ _ _ rfl hsend m hm]
      exact Nat.zero_le _
    | failure outcome =>
      cases outcome with
      | transient | uncertain => exact Nat.le_refl _
      | permanent =>
        have hsent : sent = false := by
          cases sent with
          | false => rfl
          | true => cases hresult rfl
        rw [(hs.unsent (hnone hsent) m hm).1]
        exact Nat.zero_le _

theorem linked_rank (s : Calls LinkedOutbound LinkedCall) (a : LinkedAction) (s' : Calls LinkedOutbound LinkedCall)
    (hs : Holds LinkedInv LinkedOk s) (hC : NotOvertaken s a) (h : linkedSystem.step s a = some s') :
    RankKept s.shared s'.shared := by
  cases a with
  | act p a =>
    obtain ⟨w, y, hact, rfl⟩ := Machine.step_act h
    rcases dispatchAct_message (F := fun f => ∀ m, (f m).status = m.status ∧ (f m).externalMessageId = m.externalMessageId)
      (fun _ => ⟨rfl, rfl⟩) linkedExec_message hact with ⟨f, hf, hmessage⟩ | ⟨now, c, result, rfl, hcall, hfenced, rfl⟩
    · exact rankKept_map hmessage fun m _ => Nat.le_of_eq (congrArg _ (hf m).1.symm)
    · have hp := (hs.2 p).2
      rw [hcall] at hp
      refine linked_complete_rank hs.1 hfenced hp fun _ _ _ hresult hsend => ?_
      simp only [NotOvertaken, hcall, hresult] at hC
      exact hC hfenced hsend
  | env e =>
    obtain ⟨w, henv, rfl⟩ := Machine.step_env h
    exact (linked_env hs.1 henv).2.2.2

theorem notOvertaken_of_rank (s : Calls LinkedOutbound LinkedCall) (a : LinkedAction)
    (s' : Calls LinkedOutbound LinkedCall) (h : linkedSystem.step s a = some s') (hrank : RankKept s.shared s'.shared) :
    NotOvertaken s a := by
  unfold NotOvertaken
  split
  · split
    · next p now _ c providerRequestId externalMessageId externalIdentityScope hcall =>
      intro hfenced hsend m hm
      obtain ⟨w, y, hact, rfl⟩ := Machine.step_act h
      have hact : dispatchAct linkedAdapter p s.shared (s.calls p) (.complete now) = some (w, y) := hact
      rw [hcall] at hact
      obtain ⟨rfl, -⟩ := Prod.mk.inj (Option.some.inj hact)
      obtain ⟨m', hm', hle⟩ := hrank m hm
      rw [Calls.shared_set, completeClaim, if_pos hfenced] at hm'
      have hm' : m' ∈ s.shared.message.map (completeMessage c false externalMessageId externalIdentityScope) := hm'
      rw [Option.mem_def.mp hm] at hm'
      obtain rfl := Option.some.inj hm'
      unfold completeMessage at hle
      split at hle
      · next name hop =>
        rw [hop] at hsend
        cases hsend
      · exact Nat.le_zero.mp hle
      · exact Nat.le_zero.mp hle
    · trivial
  · trivial

/-- **The rank of a message that is sent does not fall**: on Telegram never, on a linked device exactly where no accepted
send is completed after an event has advanced the message. -/
theorem neutral_status_never_regresses (id : String) (operation : Operation) (normalizedPayload : Js .object)
    (nextAttemptAt messageId : ℕ) (textContent : String) (announced : Bool) :
    (∀ (numberValue : Js .value → Option ℕ) (toText : Js .value → String)
        (as : List (CallAction (DispatchAction TelegramOp TelegramOp.Resp) (OutboundEvent NeutralEvent))),
        Steps (telegramSystem numberValue toText).step (fun s _ s' => RankKept s.shared s'.shared)
          (Calls.start (Outbound.created id operation normalizedPayload nextAttemptAt
            (some (OutboundMessage.created messageId textContent)) announced ()) .idle) as) ∧
      ∀ as : List LinkedAction,
        let start := Calls.start (Outbound.created id operation normalizedPayload nextAttemptAt
          (some (OutboundMessage.created messageId textContent)) announced []) .idle
        Steps linkedSystem.step (fun s _ s' => RankKept s.shared s'.shared) start as ↔
          Meets linkedSystem.step NotOvertaken start as := by
  have hfresh : ∀ m ∈ some (OutboundMessage.created messageId textContent), m.Fresh := by
    intro m hm
    obtain rfl := Option.some.inj hm
    exact ⟨rfl, rfl⟩
  constructor
  · intro numberValue toText as
    refine steps_of_meets (I := fun s => UnsentWhileOpen s.shared) (C := fun _ _ => True) (fun s a s' hs _ h => ?_)
      (fun _ => hfresh) (meets_of_forall fun _ _ => trivial)
    exact telegram_step s a s' hs h
  · intro as start
    constructor
    · intro hsteps
      exact meets_of_steps (I := fun _ => True) (fun s a s' _ h hrank => ⟨trivial, notOvertaken_of_rank s a s' h hrank⟩)
        trivial hsteps
    · intro hmeets
      have hstart : Holds LinkedInv LinkedOk start :=
        holds_start ⟨sendInv_created .., fun _ => rfl, fun _ => hfresh⟩ fun _ => ⟨trivial, trivial⟩
      exact steps_of_meets (fun s a s' hs hC h => ⟨linked_step s a s' hs h, linked_rank s a s' hs hC h⟩) hstart hmeets

/-! ### A confirmation that comes first -/

def linkedStart : Calls LinkedOutbound LinkedCall :=
  Calls.start (Outbound.created "intent" .send
    (.entry "actorUserId" (.string "user") (.entry "sentByUserId" (.string "user") .empty)) 0
    (some (OutboundMessage.created 1 "Hello")) true []) .idle

def linkedAnswers : ∀ op : LinkedOp, op.Resp
  | .readTarget => .ok (some ⟨some "4917@s.whatsapp.net", 1, true⟩)
  | .activeSession _ => .ok "session"
  | .buildCommand _ => .ok ()
  | .enqueue _ _ => .committed

/-- The worker confirms the command before the call that has enqueued it is completed. -/
def confirmedFirst : List LinkedAction :=
  [.act 0 (.claim 0), .act 0 (.authorize true), .act 0 (.invoke true true), .act 0 (.perform linkedAnswers),
    .act 0 (.perform linkedAnswers), .act 0 (.perform linkedAnswers), .act 0 (.perform linkedAnswers),
    .env (.outside (.confirmation "pending_1" "3EB0")), .act 0 .answer]

theorem confirmed_message_pending_again :
    ¬ Steps linkedSystem.step (fun s _ s' => RankKept s.shared s'.shared) linkedStart
      (confirmedFirst ++ [.act 0 (.complete 0)]) := by
  intro hsteps
  have hbefore : (runActions linkedSystem.step linkedStart confirmedFirst).map
      (fun s => s.shared.message.map (·.status)) = some (some .sent) := by decide +kernel
  have hafter : ((runActions linkedSystem.step linkedStart confirmedFirst).bind fun s =>
      linkedSystem.step s (.act 0 (.complete 0))).map (fun s => s.shared.message.map (·.status)) =
        some (some .pending) := by decide +kernel
  obtain ⟨s, hrun, hsent⟩ := Option.map_eq_some_iff.mp hbefore
  rw [hrun] at hafter
  obtain ⟨s', hlast, hpending⟩ := Option.map_eq_some_iff.mp hafter
  obtain ⟨m, hm, hstatus⟩ := Option.map_eq_some_iff.mp hsent
  obtain ⟨m', hm', hle⟩ := hsteps.last hrun hlast m hm
  rw [Option.mem_def.mp hm'] at hpending
  have hpending : m'.status = .pending := Option.some.inj hpending
  rw [hstatus, hpending] at hle
  exact absurd hle (by decide)

end TeamInbox.Channels
