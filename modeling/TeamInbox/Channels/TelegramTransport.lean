import TeamInbox.Channels.Outbound

/-!
# TeamInbox.Channels.TelegramTransport — sending through the Bot API

`TelegramBotApiTransport` as procedures over three operations: the host resolves the target of a conversation, it
resolves the URL of an attachment, and the Bot API is called.  Only the last one leaves the process.  `Number` and
`String` of the language are parameters.
-/

namespace TeamInbox.Channels

open TeamInbox.Lib

structure TelegramOutboundContext where
  token : String
  chatId : String
  messageThreadId : Option ℕ
  externalThreadId : String

/-- A response of the Bot API that `isTelegramResponse` accepts. -/
structure TelegramResponse where
  ok : Bool
  result : Option (Js .value)
  errorCode : Option ℕ

inductive FetchOutcome
  | unavailable
  /-- the status line, and the body if it is a response -/
  | answered (ok : Bool) (status : ℕ) (response : Option TelegramResponse)

inductive TelegramOp
  | resolveOutboundContext
  | resolveAttachmentUrl (attachment : Js .object)
  | fetch (token method : String) (payload : Js .object)

def TelegramOp.isFetch : TelegramOp → Bool
  | .fetch _ _ _ => true
  | _ => false

@[reducible] def TelegramOp.Resp : TelegramOp → Type
  | .resolveOutboundContext => Except String TelegramOutboundContext
  | .resolveAttachmentUrl _ => Except String String
  | .fetch _ _ _ => FetchOutcome

abbrev TelegramProc (α : Type) := Proc TelegramOp TelegramOp.Resp String α

def tokenChar (c : Char) : Bool := c.isAlphanum || c = '_' || c = '-'

/-- `^\d{5,16}:[A-Za-z0-9_-]{30,128}$` -/
def validToken (token : String) : Bool :=
  match token.toList.span (·.isDigit) with
  | (id, ':' :: secret) =>
    decide (5 ≤ id.length ∧ id.length ≤ 16) && decide (30 ≤ secret.length ∧ secret.length ≤ 128) && secret.all tokenChar
  | _ => false

def unavailable : String := "Telegram Bot API is unavailable"
def invalidResponse : String := "Telegram Bot API returned an invalid response"
def rejected : String := "Telegram Bot API rejected the request"

def readResponse : FetchOutcome → Except String (Js .value)
  | .unavailable => .error unavailable
  | .answered _ _ none => .error invalidResponse
  | .answered httpOk status (some response) =>
    if response.ok = true ∧ response.result.isNone then .error invalidResponse
    else if httpOk = false ∨ response.ok = false then
      let errorCode := response.errorCode.getD status
      if errorCode = 429 ∨ 500 ≤ errorCode then .error unavailable else .error rejected
    else .ok (response.result.getD .undefined)

def telegramBotRequest (token method : String) (payload : Js .object) : TelegramProc (Js .value) :=
  if validToken token then .act (.fetch token method payload) fun outcome => .ofExcept (readResponse outcome)
  else .fail "invalid Telegram bot credential"

def telegramLocalFailureCodes : List String :=
  ["telegram_credential_unavailable", "telegram_credential_key_unavailable", "telegram_conversation_unavailable",
    "telegram_conversation_invalid", "telegram_attachment_missing"]

/-- Nothing is classified as transient: the Bot API has no idempotency key. -/
def classifyTelegramSendFailure (message : String) : FailureOutcome × String :=
  if telegramLocalFailureCodes.contains message then (.permanent, message)
  else if message = rejected then (.permanent, "telegram_request_rejected")
  else (.uncertain, "telegram_send_outcome_unknown")

def resolveContext : TelegramProc TelegramOutboundContext := .act .resolveOutboundContext .ofExcept

/-- `#attachmentUrl` -/
def attachmentUrl : Option (Js .object) → TelegramProc String
  | none => .fail "telegram_attachment_missing"
  | some attachment => .act (.resolveAttachmentUrl attachment) .ofExcept

def firstAttachment : Js .value → Option (Js .object)
  | .arr (.cons (.obj attachment) _) => some attachment
  | .arr (.cons (.arr _) _) => some .empty
  | _ => none

def stringValue : Js .value → Option String
  | .string s => some s
  | _ => none

section Transport

variable (numberValue : Js .value → Option ℕ) (toText : Js .value → String)

def optionalNumber : Option ℕ → Js .value
  | none => .undefined
  | some n => .number (.ofNat n)

def optionalReply (value : Js .value) : Js .value :=
  match numberValue value with
  | none => .undefined
  | some n => .obj (.entry "message_id" (.number (.ofNat n)) .empty)

/-- The Bot API method of a message type and the name of its attachment. -/
def mediaMethod : String → Option (String × String)
  | "image" => some ("sendPhoto", "photo")
  | "video" => some ("sendVideo", "video")
  | "audio" => some ("sendAudio", "audio")
  | "voice" => some ("sendVoice", "voice")
  | "document" => some ("sendDocument", "document")
  | _ => none

def messageTypeUnsupported : ProviderSendResult :=
  .failure .permanent "telegram_message_type_unsupported" none none

/-- `String(result.message_id)` -/
def sentMessageId : Js .value → Except String String
  | .undefined | .null => .error "TypeError"
  | .obj result => .ok (toText (field "message_id" result))
  | _ => .ok (toText .undefined)

/-- The call of the Bot API, and what it confirms. -/
def sendRequest (context : TelegramOutboundContext) (method : String) (request : Js .object) :
    TelegramProc ProviderSendResult :=
  (telegramBotRequest context.token method request).bind fun result =>
    (Proc.ofExcept (sentMessageId toText result)).bind fun messageId =>
      .done (.success true none (some messageId) (some ("telegram-thread:" ++ context.externalThreadId)))

def sendBody (c : ClaimedIntent) : TelegramProc ProviderSendResult :=
  resolveContext.bind fun context =>
    let payload := c.normalizedPayload
    let messageType := (stringValue (field "messageType" payload)).getD "text"
    let text := (stringValue (field "textContent" payload)).getD ""
    let attachment := firstAttachment (field "attachments" payload)
    let request := [("chat_id", Js.string context.chatId),
      ("message_thread_id", optionalNumber context.messageThreadId),
      ("reply_parameters", optionalReply numberValue (field "replyToExternalMessageId" payload))]
    if messageType = "text" then
      sendRequest toText context "sendMessage" (.ofEntries (request ++ [("text", .string text)]))
    else match mediaMethod messageType with
      | none => .done messageTypeUnsupported
      | some (method, key) =>
        (attachmentUrl attachment).bind fun url =>
          sendRequest toText context method
            (.ofEntries (request ++ [(key, .string url), ("caption", if text = "" then .undefined else .string text)]))

def telegramSend (c : ClaimedIntent) : TelegramProc ProviderSendResult :=
  (sendBody numberValue toText c).attempt.bind fun
    | .ok result => .done result
    | .error message =>
      let failed := classifyTelegramSendFailure message
      .done (.failure failed.1 failed.2 none none)

def confirmedAction : Js .value → TelegramProc ProviderActionResult := fun _ => .done (.success true none)

def performBody (operation : String) (c : ClaimedIntent) : TelegramProc ProviderActionResult :=
  resolveContext.bind fun context =>
    let payload := c.normalizedPayload
    match numberValue (field "externalMessageId" payload) with
    | none => .done (.failure .permanent "telegram_message_id_missing" none)
    | some messageId =>
      let target := [("chat_id", Js.string context.chatId), ("message_id", Js.number (.ofNat messageId))]
      match operation with
      | "delete" => (telegramBotRequest context.token "deleteMessage" (.ofEntries target)).bind confirmedAction
      | "edit" =>
        (telegramBotRequest context.token "editMessageText" (.ofEntries (target ++
          [("text", .string ((stringValue (field "textContent" payload)).getD ""))]))).bind confirmedAction
      | "reaction" =>
        let emoji : Js .value := match stringValue (field "emoji" payload) with
          | none => .undefined
          | some emoji => .string emoji
        let reaction := Js.obj (.ofEntries [("type", .string "emoji"), ("emoji", emoji)])
        (telegramBotRequest context.token "setMessageReaction" (.ofEntries (target ++
          [("reaction", .arr (.cons reaction .nil))]))).bind confirmedAction
      | _ => .done (.failure .unsupported "telegram_action_unsupported" none)

def telegramPerform (operation : String) (c : ClaimedIntent) : TelegramProc ProviderActionResult :=
  (performBody numberValue operation c).attempt.bind fun
    | .ok result => .done result
    | .error message =>
      let failed := classifyTelegramSendFailure message
      .done (.failure (match failed.1 with
        | .transient => .transient
        | .uncertain => .uncertain
        | .permanent => .permanent) failed.2 none)

/-- The adapter keeps nothing and leaves the message alone. -/
def telegramAdapter : ChannelAdapter TelegramOp TelegramOp.Resp Unit where
  send := telegramSend numberValue toText
  perform := telegramPerform numberValue
  exec := fun _ _ s => s

end Transport

/-! ### Calls of the Bot API -/

/-- On every path there are `n` calls of the Bot API at most. -/
def Fetches {α : Type} : ℕ → TelegramProc α → Prop
  | _, .done _ | _, .fail _ => True
  | n, .act op k => if op.isFetch then ∃ m, n = m + 1 ∧ ∀ b, Fetches m (k b) else ∀ b, Fetches n (k b)

section Fetches

variable {α β : Type}

theorem Fetches.mono {n m : ℕ} {p : TelegramProc α} (h : Fetches n p) (hnm : n ≤ m) : Fetches m p := by
  induction p generalizing n m with
  | done _ | fail _ => trivial
  | act op k ih =>
    unfold Fetches at h ⊢
    split_ifs at h ⊢
    · obtain ⟨n, rfl, h⟩ := h
      obtain ⟨m, rfl⟩ : ∃ l, m = l + 1 := ⟨m - 1, by omega⟩
      exact ⟨m, rfl, fun b => ih b (h b) (by omega)⟩
    · exact fun b => ih b (h b) hnm

theorem Fetches.bind {n m : ℕ} {p : TelegramProc α} {g : α → TelegramProc β} (h : Fetches n p)
    (hg : ∀ a, Fetches m (g a)) : Fetches (n + m) (p.bind g) := by
  induction p generalizing n with
  | done a => exact (hg a).mono (Nat.le_add_left _ _)
  | fail _ => trivial
  | act op k ih =>
    unfold Fetches at h
    rw [Proc.bind_act]
    unfold Fetches
    split_ifs at h ⊢
    · obtain ⟨n, rfl, h⟩ := h
      exact ⟨n + m, by omega, fun b => ih b (h b)⟩
    · exact fun b => ih b (h b)

theorem Fetches.before {n : ℕ} {p : TelegramProc α} {g : α → TelegramProc β} (h : Fetches 0 p)
    (hg : ∀ a, Fetches n (g a)) : Fetches n (p.bind g) := by
  have hbind := h.bind hg
  rw [Nat.zero_add] at hbind
  exact hbind

theorem Fetches.after {n : ℕ} {p : TelegramProc α} {g : α → TelegramProc β} (h : Fetches n p)
    (hg : ∀ a, Fetches 0 (g a)) : Fetches n (p.bind g) := h.bind hg

theorem Fetches.attempt {n : ℕ} {p : TelegramProc α} (h : Fetches n p) : Fetches n p.attempt := by
  induction p generalizing n with
  | done _ | fail _ => trivial
  | act op k ih =>
    unfold Fetches at h
    unfold Proc.attempt Fetches
    split_ifs at h ⊢
    · obtain ⟨n, rfl, h⟩ := h
      exact ⟨n, rfl, fun b => ih b (h b)⟩
    · exact fun b => ih b (h b)

theorem fetches_ofExcept (n : ℕ) (x : Except String α) : Fetches n (Proc.ofExcept x : TelegramProc α) := by
  cases x <;> trivial

theorem fetches_request (token method : String) (payload : Js .object) :
    Fetches 1 (telegramBotRequest token method payload) := by
  unfold telegramBotRequest
  split_ifs
  · exact ⟨0, rfl, fun _ => fetches_ofExcept 0 _⟩
  · trivial

theorem fetches_resolveContext : Fetches 0 resolveContext := fun _ => fetches_ofExcept 0 _

theorem fetches_attachmentUrl (attachment : Option (Js .object)) : Fetches 0 (attachmentUrl attachment) := by
  cases attachment with
  | none => trivial
  | some _ => exact fun _ => fetches_ofExcept 0 _

variable (numberValue : Js .value → Option ℕ) (toText : Js .value → String)

theorem fetches_sendRequest (context : TelegramOutboundContext) (method : String) (request : Js .object) :
    Fetches 1 (sendRequest toText context method request) :=
  (fetches_request ..).after fun _ => (fetches_ofExcept 0 _).after fun _ => trivial

theorem fetches_sendBody (c : ClaimedIntent) : Fetches 1 (sendBody numberValue toText c) := by
  unfold sendBody
  refine fetches_resolveContext.before fun context => ?_
  dsimp only
  split
  · exact fetches_sendRequest ..
  · split
    · trivial
    · exact (fetches_attachmentUrl _).before fun _ => fetches_sendRequest ..

theorem fetches_performBody (operation : String) (c : ClaimedIntent) :
    Fetches 1 (performBody numberValue operation c) := by
  unfold performBody
  refine fetches_resolveContext.before fun context => ?_
  dsimp only
  split
  · trivial
  · split
    · exact (fetches_request ..).after fun _ => trivial
    · exact (fetches_request ..).after fun _ => trivial
    · exact (fetches_request ..).after fun _ => trivial
    · trivial

theorem fetches_send (c : ClaimedIntent) : Fetches 1 (telegramSend numberValue toText c) := by
  unfold telegramSend
  refine (fetches_sendBody numberValue toText c).attempt.after fun r => ?_
  cases r <;> trivial

theorem fetches_perform (operation : String) (c : ClaimedIntent) :
    Fetches 1 (telegramPerform numberValue operation c) := by
  unfold telegramPerform
  refine (fetches_performBody numberValue operation c).attempt.after fun r => ?_
  cases r <;> trivial

/-- **A call of the adapter is one call of the Bot API at most.** -/
theorem fetches_call (c : ClaimedIntent) : Fetches 1 ((telegramAdapter numberValue toText).call c) := by
  unfold ChannelAdapter.call
  split
  · exact (fetches_perform numberValue _ c).after fun _ => trivial
  · exact fetches_send numberValue toText c
  · exact fetches_send numberValue toText c

theorem classify_not_transient (message : String) : (classifyTelegramSendFailure message).1 ≠ .transient := by
  unfold classifyTelegramSendFailure
  split_ifs <;> exact nofun

def Definite (r : ProviderSendResult) : Prop := r.transient = false

theorem returns_sendBody (c : ClaimedIntent) : (sendBody numberValue toText c).Returns Definite := by
  unfold sendBody
  refine Proc.Returns.bind _ fun context => ?_
  dsimp only
  split
  · exact Proc.Returns.bind _ fun _ => Proc.Returns.bind _ fun _ => rfl
  · split
    · exact rfl
    · exact Proc.Returns.bind _ fun _ => Proc.Returns.bind _ fun _ => Proc.Returns.bind _ fun _ => rfl

theorem returns_performBody (operation : String) (c : ClaimedIntent) :
    (performBody numberValue operation c).Returns fun r => Definite r.asSend := by
  unfold performBody
  refine Proc.Returns.bind _ fun context => ?_
  dsimp only
  split
  · exact rfl
  · split
    · exact Proc.Returns.bind _ fun _ => rfl
    · exact Proc.Returns.bind _ fun _ => rfl
    · exact Proc.Returns.bind _ fun _ => rfl
    · exact rfl

theorem returns_send (c : ClaimedIntent) : (telegramSend numberValue toText c).Returns Definite := by
  unfold telegramSend
  refine (returns_sendBody numberValue toText c).attempt.bind_of fun r hr => ?_
  cases r with
  | ok result => exact hr result rfl
  | error message =>
    show ProviderSendResult.transient _ = false
    have hne := classify_not_transient message
    revert hne
    cases (classifyTelegramSendFailure message).1 with
    | transient => exact fun hne => absurd rfl hne
    | permanent | uncertain => exact fun _ => rfl

theorem returns_perform (operation : String) (c : ClaimedIntent) :
    (telegramPerform numberValue operation c).Returns fun r => Definite r.asSend := by
  unfold telegramPerform
  refine (returns_performBody numberValue operation c).attempt.bind_of fun r hr => ?_
  cases r with
  | ok result => exact hr result rfl
  | error message =>
    show ProviderSendResult.transient _ = false
    have hne := classify_not_transient message
    revert hne
    cases (classifyTelegramSendFailure message).1 with
    | transient => exact fun hne => absurd rfl hne
    | permanent | uncertain => exact fun _ => rfl

/-- **No result of the adapter is retried.** -/
theorem returns_call (c : ClaimedIntent) : ((telegramAdapter numberValue toText).call c).Returns Definite := by
  unfold ChannelAdapter.call
  split
  · exact (returns_perform numberValue _ c).bind_of fun _ hr => hr
  · exact returns_send numberValue toText c
  · exact returns_send numberValue toText c

end Fetches

end TeamInbox.Channels
