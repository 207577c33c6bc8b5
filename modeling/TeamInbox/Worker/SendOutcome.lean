import TeamInbox.Worker.SendCommand

/-!
# TeamInbox.Worker.SendOutcome — one send, and what is reported about it

Handlers of any number of workers run over one ledger.  The log is a history variable: who inserted an
intent (and whether the insert was answered), who called the transport, what it returned and what was
reported.  The transport is called at most once under a command's stable identifier and a confirmation
follows a successful send, whatever fails and whoever crashes.  A failure report is different:
`finishFailedSend` saves over an intent that another handler inserted meanwhile and reports the failure
whether or not its save took effect.  It is truthful as long as no other handler has inserted an intent
when `finishFailedSend` saves.
-/

namespace TeamInbox.Worker

open TeamInbox.Lib

/-! ### The system -/

/-- A run of `handleSendCommand`: the worker it runs in and the number of the delivery. -/
structure Delivery where
  worker : ℕ
  number : ℕ
  deriving DecidableEq

structure HandlerID where
  thread : ℕ
  delivery : ℕ
  deriving DecidableEq

def handlerOf (t : Who Delivery) : HandlerID := ⟨t.id, t.ctx.number⟩

inductive SendEvent
  /-- An intent was inserted; `answered` says that the handler learned of it. -/
  | began (h : HandlerID) (id : CommandID) (answered : Bool)
  | started (h : HandlerID) (id : CommandID) (part : SendPart) (messageID : String)
  | returned (h : HandlerID) (id : CommandID) (part : SendPart) (success : Bool)
  | reported (h : HandlerID) (id : CommandID) (event : CommandEvent)
  deriving DecidableEq

def SendEvent.handler : SendEvent → HandlerID
  | .began h _ _ => h
  | .started h _ _ _ => h
  | .returned h _ _ _ => h
  | .reported h _ _ => h

structure SendWorld where
  ledger : Ledger StoredCommandResult
  /-- What happened, the latest first. -/
  log : List SendEvent
  deliveries : ℕ

def SendWorld.start : SendWorld := ⟨Table.empty, [], 0⟩

/-- What the scheduler supplies: the fate of the call, the text of its error, the answer of the
transport. -/
structure SendChoice where
  fault : Fault
  text : String
  response : SendResponse
  deriving DecidableEq

namespace SendWorld

def record (w : SendWorld) (e : SendEvent) : SendWorld := { w with log := e :: w.log }

def setLedger (w : SendWorld) (l : Ledger StoredCommandResult) : SendWorld := { w with ledger := l }

/-- `BeginSendCommand` with its entry in the history. -/
def begin (h : HandlerID) (id : CommandID) (intent : StoredCommandResult) (answered : Bool)
    (w : SendWorld) : Bool × SendWorld :=
  match w.ledger.beginSendCommand id intent.commandType.name intent with
  | (true, l) => (true, (w.setLedger l).record (.began h id answered))
  | (false, l) => (false, w.setLedger l)

def save (id : CommandID) (result : StoredCommandResult) (w : SendWorld) : SendWorld :=
  w.setLedger (w.ledger.saveProcessedCommand (·.inFlight) id result.commandType.name result)

def mark (id : CommandID) (w : SendWorld) : SendWorld :=
  w.setLedger (w.ledger.markCommandEventPublished id)

end SendWorld

def sendExec (t : Who Delivery) (op : SendOp) (f : SendChoice) (w : SendWorld) : op.Resp × SendWorld :=
  match op with
  | .getProcessedCommand id =>
    (f.fault.answer f.text (w.ledger.getProcessedCommand id) w w : Except String _ × SendWorld)
  | .beginSendCommand id intent =>
    let (claimed, w') := w.begin (handlerOf t) id intent (decide (f.fault = .none))
    (f.fault.answer f.text claimed w w' : Except String Bool × SendWorld)
  | .saveProcessedCommand id result =>
    (f.fault.answer f.text () w (w.save id result) : Except String Unit × SendWorld)
  | .markCommandEventPublished id =>
    (f.fault.answer f.text () w (w.mark id) : Except String Unit × SendWorld)
  | .publish id event =>
    (f.fault.answer f.text () w (w.record (.reported (handlerOf t) id event)) :
      Except String Unit × SendWorld)
  | .prepare _ => (f.fault.answer f.text () w w : Except String Unit × SendWorld)
  | .sendStart id part messageID => ((), w.record (.started (handlerOf t) id part messageID))
  | .sendReturn id part =>
    -- the transport may have accepted a message whose send returned an error
    (match f.fault with
      | .none => (.ok f.response, w.record (.returned (handlerOf t) id part true))
      | _ => (.error f.text, w.record (.returned (handlerOf t) id part false)) :
      Except String SendResponse × SendWorld)
  | .pause => (decide (f.fault = .none), w)

/-- A delivery of a command to a worker, with the media its preparation pool left for it. -/
structure Delivered where
  worker : ℕ
  cmd : SendMessageCommand
  prepared : Option (Except String Unit)

structure WorkerCrash where
  worker : ℕ

def sendSystem (stableID : CommandID → String) :
    System SendOp SendOp.Resp Empty SendWorld Delivery SendChoice Delivered WorkerCrash where
  exec t op f w := some (sendExec t op f w)
  start b w := some (⟨b.worker, w.deliveries⟩,
    (handleSendCommand stableID b.cmd b.prepared).bind fun _ => .done (),
    { w with deliveries := w.deliveries + 1 })
  env _ w := some w
  kills e d := decide (d.worker = e.worker)

/-! ### What is claimed -/

/-- A call of the transport with the stable identifier of the command. -/
def SendEvent.startsMessage (id : CommandID) : SendEvent → Bool
  | .started _ id' .message _ => decide (id' = id)
  | _ => false

def SendWorld.Sent (w : SendWorld) (id : CommandID) : Prop :=
  ∃ h, .returned h id .message true ∈ w.log

/-- A handler called the transport for the command. -/
def SendWorld.Started (w : SendWorld) (id : CommandID) : Prop :=
  ∃ h part messageID, .started h id part messageID ∈ w.log

def SendWorld.Reported (w : SendWorld) (id : CommandID) (o : CommandOutcome) : Prop :=
  ∃ h event, .reported h id event ∈ w.log ∧ event.outcome = o

/-- The transport is called at most once under the stable identifier, and a confirmation means that
the send returned success. -/
structure SentOnce (id : CommandID) (w : SendWorld) : Prop where
  once : w.log.countP (SendEvent.startsMessage id) ≤ 1
  confirmed : w.Reported id .confirmed → w.Sent id

/-- A failure report means that no handler called the transport; what was started and is not known to
have been sent is reported as unknown. -/
structure TruthfulOutcome (id : CommandID) (w : SendWorld) : Prop extends SentOnce id w where
  failed : w.Reported id .failed → ¬ w.Started id
  otherwise : w.Started id → ¬ w.Sent id → ∀ o, w.Reported id o → o = .unknown

/-- When `finishFailedSend` saves, no other handler has inserted an intent for the command. -/
def NoForeignIntent (t : Who Delivery) (op : SendOp) (_ : SendChoice) (w : SendWorld) : Prop :=
  ∀ id result, op = .saveProcessedCommand id result → result.failed = true →
    ∀ h answered, .began h id answered ∈ w.log → h = handlerOf t

/-! ### The invariant -/

/-- What a reported or stored outcome rests on.  A failure rests on a row that lets no handler begin
any more, and on nobody having begun; under `P` only. -/
def Grounded (P : Prop) (id : CommandID) (o : CommandOutcome) (w : SendWorld) : Prop :=
  match o with
  | .confirmed => w.Sent id
  | .failed => P → w.ledger.find? id ≠ none ∧ ∀ h, .began h id true ∉ w.log
  | .unknown => ∃ h answered, .began h id answered ∈ w.log

/-- `P` says that failures are saved over no foreign intent. -/
structure SendInv (P : Prop) (w : SendWorld) : Prop where
  fresh : ∀ e ∈ w.log, e.handler.delivery < w.deliveries
  begun : ∀ h id a, .began h id a ∈ w.log → w.ledger.find? id ≠ none
  alone : ∀ h h' id a a', .began h id a ∈ w.log → .began h' id a' ∈ w.log → h = h' ∧ a = a'
  started : ∀ h id part m, .started h id part m ∈ w.log → .began h id true ∈ w.log
  once : ∀ id, w.log.countP (SendEvent.startsMessage id) ≤ 1
  rows : ∀ id row, w.ledger.find? id = some row → Grounded P id row.result.outcome w
  reports : ∀ h id event, .reported h id event ∈ w.log → Grounded P id event.outcome w

/-- The history grows, rows stay, and no intent is inserted where a row is. -/
structure SendGrows (w w' : SendWorld) : Prop where
  log : ∀ e ∈ w.log, e ∈ w'.log
  rows : ∀ id, w.ledger.find? id ≠ none → w'.ledger.find? id ≠ none
  closed : ∀ id, w.ledger.find? id ≠ none → ∀ h a, .began h id a ∈ w'.log → .began h id a ∈ w.log
  deliveries : w.deliveries ≤ w'.deliveries

/-- What a handler relies on: besides, nobody else writes its part of the history. -/
structure SendRely (h : HandlerID) (w w' : SendWorld) : Prop extends SendGrows w w' where
  own : ∀ e ∈ w'.log, e.handler = h → e ∈ w.log

theorem SendGrows.refl (w : SendWorld) : SendGrows w w where
  log _ he := he
  rows _ h := h
  closed _ _ _ _ hb := hb
  deliveries := Nat.le_refl _

theorem SendGrows.trans {w₁ w₂ w₃ : SendWorld} (h : SendGrows w₁ w₂) (h' : SendGrows w₂ w₃) :
    SendGrows w₁ w₃ where
  log e he := h'.log e (h.log e he)
  rows id hr := h'.rows id (h.rows id hr)
  closed id hr k a hb := h.closed id hr k a (h'.closed id (h.rows id hr) k a hb)
  deliveries := Nat.le_trans h.deliveries h'.deliveries

theorem SendRely.trans {h : HandlerID} {w₁ w₂ w₃ : SendWorld} (h₁ : SendRely h w₁ w₂)
    (h₂ : SendRely h w₂ w₃) : SendRely h w₁ w₃ where
  toSendGrows := h₁.toSendGrows.trans h₂.toSendGrows
  own e he heq := h₁.own e (h₂.own e he heq) heq

def sendContract (P : Prop) : Contract SendOp SendWorld Delivery SendChoice where
  inv := SendInv P
  rely t := SendRely (handlerOf t)
  admits t op f w := P → NoForeignIntent t op f w
  ok _ _ _ _ := True
  refl _ w := ⟨SendGrows.refl w, fun _ he _ => he⟩
  trans _ _ _ _ h h' := h.trans h'

section Growth

variable {P : Prop} {w w' : SendWorld} {id : CommandID} {o : CommandOutcome}

theorem Grounded.grows (h : Grounded P id o w) (hg : SendGrows w w') : Grounded P id o w' := by
  cases o with
  | confirmed =>
    obtain ⟨k, hk⟩ := h
    exact ⟨k, hg.log _ hk⟩
  | failed =>
    intro hP
    obtain ⟨hrow, hnone⟩ := h hP
    exact ⟨hg.rows id hrow, fun k hk => hnone k (hg.closed id hrow k true hk)⟩
  | unknown =>
    obtain ⟨k, a, hk⟩ := h
    exact ⟨k, a, hg.log _ hk⟩

theorem mem_record {e e' : SendEvent} : e' ∈ (w.record e).log ↔ e' = e ∨ e' ∈ w.log := List.mem_cons

theorem grows_record {e : SendEvent} (hb : ∀ h id a, e ≠ .began h id a) :
    SendGrows w (w.record e) where
  log _ he := mem_record.mpr (Or.inr he)
  rows _ h := h
  closed id _ h a hk := by
    rcases mem_record.mp hk with heq | hold
    · exact absurd heq.symm (hb h id a)
    · exact hold
  deliveries := Nat.le_refl _

theorem grows_setLedger {l : Ledger StoredCommandResult}
    (hrows : ∀ id, w.ledger.find? id ≠ none → l.find? id ≠ none) : SendGrows w (w.setLedger l) where
  log _ he := he
  rows := hrows
  closed _ _ _ _ hk := hk
  deliveries := Nat.le_refl _

theorem grows_save (r : StoredCommandResult) : SendGrows w (w.save id r) := by
  refine grows_setLedger fun id' hrow => ?_
  by_cases hid : id' = id
  · subst hid
    obtain ⟨row, hfind, -⟩ := Ledger.find?_saveProcessedCommand_self w.ledger (·.inFlight) id'
      r.commandType.name r
    rw [hfind]
    simp
  · rw [Ledger.find?_saveProcessedCommand_ne _ _ _ _ _ _ hid]
    exact hrow

theorem grows_mark : SendGrows w (w.mark id) := by
  refine grows_setLedger fun id' hrow hnone => hrow ?_
  have h := Ledger.find?_markCommandEventPublished w.ledger id id'
  rw [hnone] at h
  exact Option.map_eq_none_iff.mp h.symm

def SendWorld.begun (w : SendWorld) (h : HandlerID) (id : CommandID) (intent : StoredCommandResult)
    (answered : Bool) : SendWorld :=
  (w.setLedger (w.ledger.put id ⟨intent.commandType.name, intent, false⟩)).record
    (.began h id answered)

theorem begin_of_none {h : HandlerID} {intent : StoredCommandResult} {a : Bool}
    (hnone : w.ledger.find? id = none) : w.begin h id intent a = (true, w.begun h id intent a) := by
  unfold SendWorld.begin
  rw [Ledger.beginSendCommand_of_none _ _ _ _ hnone]
  rfl

theorem begin_of_some {h : HandlerID} {intent : StoredCommandResult} {a : Bool}
    (hsome : w.ledger.find? id ≠ none) : w.begin h id intent a = (false, w) := by
  obtain ⟨row, hrow⟩ := Option.ne_none_iff_exists'.mp hsome
  unfold SendWorld.begin
  rw [Ledger.beginSendCommand_of_some _ _ _ _ hrow]
  rfl

theorem grows_begun {h : HandlerID} {intent : StoredCommandResult} {a : Bool}
    (hnone : w.ledger.find? id = none) : SendGrows w (w.begun h id intent a) where
  log _ he := mem_record.mpr (Or.inr he)
  rows id' hrow := by
    show (w.ledger.put id _).find? id' ≠ none
    rw [Table.find?_put]
    split_ifs
    · simp
    · exact hrow
  closed id' hrow k b hk := by
    rcases mem_record.mp hk with heq | hold
    · simp only [SendEvent.began.injEq] at heq
      exact absurd (heq.2.1 ▸ hnone) hrow
    · exact hold
  deliveries := Nat.le_refl _

end Growth

/-! ### What each operation does to the invariant -/

section Invariant

variable {P : Prop} {w : SendWorld} {h : HandlerID} {id : CommandID}

theorem SendInv.record {e : SendEvent} (hI : SendInv P w) (hh : e.handler.delivery < w.deliveries)
    (hb : ∀ h id a, e ≠ .began h id a) (hs : ∀ h id part m, e ≠ .started h id part m)
    (hr : ∀ h id event, e = .reported h id event → Grounded P id event.outcome w) :
    SendInv P (w.record e) where
  fresh e' he := by
    rcases mem_record.mp he with rfl | hold
    · exact hh
    · exact hI.fresh e' hold
  begun k i a hk := by
    rcases mem_record.mp hk with heq | hold
    · exact absurd heq.symm (hb k i a)
    · exact hI.begun k i a hold
  alone k k' i a a' hk hk' := by
    rcases mem_record.mp hk with heq | hold
    · exact absurd heq.symm (hb k i a)
    · rcases mem_record.mp hk' with heq' | hold'
      · exact absurd heq'.symm (hb k' i a')
      · exact hI.alone k k' i a a' hold hold'
  started k i part m hk := by
    rcases mem_record.mp hk with heq | hold
    · exact absurd heq.symm (hs k i part m)
    · exact mem_record.mpr (Or.inr (hI.started k i part m hold))
  once i := by
    have hno : SendEvent.startsMessage i e = false := by
      cases e with
      | started k i' part m => exact absurd rfl (hs k i' part m)
      | _ => rfl
    show List.countP _ (e :: w.log) ≤ 1
    rw [List.countP_cons_of_neg (by simp [hno])]
    exact hI.once i
  rows i row hrow := (hI.rows i row hrow).grows (grows_record hb)
  reports k i event hk := by
    rcases mem_record.mp hk with heq | hold
    · exact (hr k i event heq.symm).grows (grows_record hb)
    · exact (hI.reports k i event hold).grows (grows_record hb)

theorem SendInv.start {part : SendPart} {m : String} (hI : SendInv P w)
    (hbegan : .began h id true ∈ w.log) (hno : ∀ i m, .started h i .message m ∉ w.log) :
    SendInv P (w.record (.started h id part m)) where
  fresh e' he := by
    rcases mem_record.mp he with rfl | hold
    · exact hI.fresh (.began h id true) hbegan
    · exact hI.fresh e' hold
  begun k i a hk := hI.begun k i a (by simpa [SendWorld.record] using hk)
  alone k k' i a a' hk hk' := hI.alone k k' i a a' (by simpa [SendWorld.record] using hk)
    (by simpa [SendWorld.record] using hk')
  started k i part' m' hk := by
    rcases mem_record.mp hk with heq | hold
    · simp only [SendEvent.started.injEq] at heq
      obtain ⟨rfl, rfl, -, -⟩ := heq
      exact mem_record.mpr (Or.inr hbegan)
    · exact mem_record.mpr (Or.inr (hI.started k i part' m' hold))
  once i := by
    show List.countP _ (_ :: w.log) ≤ 1
    by_cases hs : SendEvent.startsMessage i (.started h id part m) = true
    · -- whoever started before had the same intent, so it was this handler
      have hzero : w.log.countP (SendEvent.startsMessage i) = 0 := by
        rw [List.countP_eq_zero]
        intro e he hsame
        cases part with
        | manifest => cases hs
        | message =>
          have hi : id = i := by simpa [SendEvent.startsMessage] using hs
          subst hi
          cases e with
          | started k i' part' m' =>
            cases part' with
            | manifest => cases hsame
            | message =>
              have hi' : i' = id := by simpa [SendEvent.startsMessage] using hsame
              subst hi'
              have hk := hI.started k i' .message m' he
              obtain ⟨rfl, -⟩ := hI.alone k h i' true true hk hbegan
              exact hno i' m' he
          | _ => cases hsame
      rw [List.countP_cons_of_pos hs, hzero]
    · rw [List.countP_cons_of_neg hs]
      exact hI.once i
  rows i row hrow := (hI.rows i row hrow).grows (grows_record (by simp))
  reports k i event hk := (hI.reports k i event (by simpa [SendWorld.record] using hk)).grows
    (grows_record (by simp))

theorem SendInv.begun_intent {intent : StoredCommandResult} {a : Bool} (hI : SendInv P w)
    (hh : h.delivery < w.deliveries) (hnone : w.ledger.find? id = none)
    (hintent : intent.inFlight = true) : SendInv P (w.begun h id intent a) where
  fresh e' he := by
    rcases mem_record.mp he with rfl | hold
    · exact hh
    · exact hI.fresh e' hold
  begun k i b hk := by
    rcases mem_record.mp hk with heq | hold
    · simp only [SendEvent.began.injEq] at heq
      show (w.ledger.put id _).find? i ≠ none
      rw [heq.2.1, Table.find?_put_self]
      simp
    · exact (grows_begun hnone).rows i (hI.begun k i b hold)
  alone k k' i b b' hk hk' := by
    have hold : ∀ {k i b}, .began k i b ∈ w.log → i ≠ id := by
      rintro k i b hold rfl
      exact hI.begun k i b hold hnone
    rcases mem_record.mp hk with heq | hk₀
    · simp only [SendEvent.began.injEq] at heq
      rcases mem_record.mp hk' with heq' | hk₀'
      · simp only [SendEvent.began.injEq] at heq'
        exact ⟨heq.1.trans heq'.1.symm, heq.2.2.trans heq'.2.2.symm⟩
      · exact absurd heq.2.1 (hold hk₀')
    · rcases mem_record.mp hk' with heq' | hk₀'
      · simp only [SendEvent.began.injEq] at heq'
        exact absurd heq'.2.1 (hold hk₀)
      · exact hI.alone k k' i b b' hk₀ hk₀'
  started k i part m hk := by
    rcases mem_record.mp hk with heq | hold
    · cases heq
    · exact mem_record.mpr (Or.inr (hI.started k i part m hold))
  once i := by
    show List.countP _ (_ :: w.log) ≤ 1
    rw [List.countP_cons_of_neg (by simp [SendEvent.startsMessage])]
    exact hI.once i
  rows i row hrow := by
    change (w.ledger.put id _).find? i = some row at hrow
    rw [Table.find?_put] at hrow
    by_cases hi : i = id
    · rw [if_pos hi] at hrow
      obtain rfl := Option.some.inj hrow
      rw [hi]
      have hout : intent.outcome = .unknown := by simp [StoredCommandResult.outcome, hintent]
      show Grounded P id intent.outcome _
      rw [hout]
      exact ⟨h, a, List.mem_cons_self⟩
    · rw [if_neg hi] at hrow
      exact (hI.rows i row hrow).grows (grows_begun hnone)
  reports k i event hk := by
    rcases mem_record.mp hk with heq | hold
    · cases heq
    · exact (hI.reports k i event hold).grows (grows_begun hnone)

theorem SendInv.setLedger {l : Ledger StoredCommandResult} (hI : SendInv P w)
    (hg : SendGrows w (w.setLedger l))
    (hrows : ∀ i row, l.find? i = some row → Grounded P i row.result.outcome (w.setLedger l)) :
    SendInv P (w.setLedger l) where
  fresh := hI.fresh
  begun k i a hk := hg.rows i (hI.begun k i a hk)
  alone := hI.alone
  started := hI.started
  once := hI.once
  rows := hrows
  reports k i event hk := (hI.reports k i event hk).grows hg

theorem SendInv.save {r : StoredCommandResult} (hI : SendInv P w)
    (hr : Grounded P id r.outcome (w.save id r)) : SendInv P (w.save id r) := by
  refine hI.setLedger (grows_save r) fun i row hrow => ?_
  by_cases hi : i = id
  · subst hi
    obtain ⟨row', hrow', hres⟩ := Ledger.find?_saveProcessedCommand_self w.ledger (·.inFlight) i
      r.commandType.name r
    rw [hrow] at hrow'
    obtain rfl := Option.some.inj hrow'
    rcases hres with hnew | hold
    · rw [hnew]
      exact hr
    · exact (hI.rows i row hold).grows (grows_save r)
  · rw [Ledger.find?_saveProcessedCommand_ne _ _ _ _ _ _ hi] at hrow
    exact (hI.rows i row hrow).grows (grows_save r)

theorem SendInv.mark (hI : SendInv P w) : SendInv P (w.mark id) := by
  refine hI.setLedger grows_mark fun i row hrow => ?_
  have h := Ledger.find?_markCommandEventPublished w.ledger id i
  rw [hrow] at h
  obtain ⟨row', hrow', hres⟩ := Option.map_eq_some_iff.mp h.symm
  have hres : row'.result = row.result := hres
  rw [← hres]
  exact (hI.rows i row' hrow').grows grows_mark

end Invariant

/-! ### The handler keeps the contract -/

section Handler

variable {P : Prop} {stableID : CommandID → String} {t : Who Delivery} {w : SendWorld}
  {cmd : SendMessageCommand} {α β : Type}

/-- The procedure keeps the contract and leaves `M` of its value and the state. -/
def Leaves (P : Prop) (stableID : CommandID → String) (t : Who Delivery) (p : SendProc α)
    (w : SendWorld) (M : α → SendWorld → Prop) : Prop :=
  Wp (sendSystem stableID) (sendContract P) t p w fun r w' => ∀ a, r = .ok a → M a w'

theorem Leaves.pure {a : α} {M : α → SendWorld → Prop} (h : M a w) :
    Leaves P stableID t (.done a) w M := fun _ ha => Except.ok.inj ha ▸ h

theorem Leaves.bind {p : SendProc α} {g : α → SendProc β} {M : α → SendWorld → Prop}
    {N : β → SendWorld → Prop} (hp : Leaves P stableID t p w M)
    (hg : ∀ a w', M a w' → Leaves P stableID t (g a) w' N) :
    Leaves P stableID t (p.bind g) w N :=
  Wp.seq hp (fun a w' h => hg a w' (h a rfl)) fun e => e.elim

/-- What the handler knows besides: its delivery has a number. -/
def Numbered (t : Who Delivery) (w : SendWorld) : Prop := t.ctx.number < w.deliveries

/-- The handler has no intent it knows of and has not called the transport. -/
structure Unclaimed (t : Who Delivery) (w : SendWorld) : Prop where
  numbered : Numbered t w
  intent : ∀ id, .began (handlerOf t) id true ∉ w.log
  start : ∀ id part m, .started (handlerOf t) id part m ∉ w.log

/-- The handler has inserted the intent and has not sent the message of the command. -/
structure Claimed (t : Who Delivery) (id : CommandID) (w : SendWorld) : Prop where
  numbered : Numbered t w
  intent : .began (handlerOf t) id true ∈ w.log
  start : ∀ id m, .started (handlerOf t) id .message m ∉ w.log

theorem numbered_stable : Stable (sendContract P) t (Numbered t) :=
  fun _ _ h hR _ => Nat.lt_of_lt_of_le h hR.deliveries

theorem unclaimed_stable : Stable (sendContract P) t (Unclaimed t) := by
  intro w w' h hR hI
  refine ⟨numbered_stable w w' h.numbered hR hI, fun id hb => ?_, fun id part m hs => ?_⟩
  · exact h.intent id (hR.own _ hb rfl)
  · exact h.start id part m (hR.own _ hs rfl)

theorem claimed_stable {id : CommandID} : Stable (sendContract P) t (Claimed t id) := by
  intro w w' h hR hI
  refine ⟨numbered_stable w w' h.numbered hR hI, hR.log _ h.intent, fun id m hs => ?_⟩
  exact h.start id m (hR.own _ hs rfl)

theorem grounded_stable {id : CommandID} {o : CommandOutcome} :
    Stable (sendContract P) t (Grounded P id o) := fun _ _ h hR _ => h.grows hR.toSendGrows

/-- What one operation of `t` has to do with the state. -/
structure SendStep (P : Prop) (t : Who Delivery) (w w' : SendWorld) : Prop where
  inv : SendInv P w'
  grows : SendGrows w w'
  mine : ∀ e ∈ w'.log, e ∈ w.log ∨ e.handler = handlerOf t

theorem SendStep.refl (hI : SendInv P w) : SendStep P t w w :=
  ⟨hI, SendGrows.refl w, fun _ he => Or.inl he⟩

theorem SendStep.quiet {w' : SendWorld} (hI : SendInv P w') (hg : SendGrows w w')
    (hlog : w'.log = w.log) : SendStep P t w w' :=
  ⟨hI, hg, fun _ he => Or.inl (hlog ▸ he)⟩

theorem SendStep.event {w' : SendWorld} {e : SendEvent} (hI : SendInv P w') (hg : SendGrows w w')
    (hlog : w'.log = e :: w.log) (he : e.handler = handlerOf t) : SendStep P t w w' := by
  refine ⟨hI, hg, fun e' he' => ?_⟩
  rw [hlog] at he'
  rcases List.mem_cons.mp he' with rfl | hold
  · exact Or.inr he
  · exact Or.inl hold

/-- **One operation.**  `A` is what the handler knows before it. -/
theorem Leaves.act {op : SendOp} {A : SendWorld → Prop} {M : op.Resp → SendWorld → Prop}
    (hA : Stable (sendContract P) t A) (hw : A w)
    (h : ∀ f w₁, A w₁ → SendInv P w₁ → (P → NoForeignIntent t op f w₁) →
      SendStep P t w₁ (sendExec t op f w₁).2 ∧ M (sendExec t op f w₁).1 (sendExec t op f w₁).2) :
    Leaves P stableID t (SendOp.perform op) w M := by
  refine Wp.act hA hw fun w₁ f b w₂ hw₁ hI hadm hx => ?_
  obtain ⟨rfl, rfl⟩ := Prod.mk.inj (Option.some.inj hx : sendExec t op f w₁ = (b, w₂))
  obtain ⟨hstep, hM⟩ := h f w₁ hw₁ hI hadm
  refine ⟨⟨trivial, hstep.inv, fun u hu => ⟨hstep.grows, fun e he heq => ?_⟩⟩,
    fun a ha => Except.ok.inj ha ▸ hM⟩
  rcases hstep.mine e he with hold | hnew
  · exact hold
  · exact absurd (congrArg HandlerID.thread (heq.symm.trans hnew)) hu

theorem Leaves.look {op : SendOp} {A : SendWorld → Prop} (hA : Stable (sendContract P) t A) (hw : A w)
    (hop : ∀ f w₁, (sendExec t op f w₁).2 = w₁) :
    Leaves P stableID t (SendOp.perform op) w fun _ w' => A w' := by
  refine Leaves.act hA hw fun f w₁ hw₁ hI _ => ?_
  rw [hop f w₁]
  exact ⟨SendStep.refl hI, hw₁⟩

theorem answer_cases {f : Fault} {e : String} {w w' : SendWorld} {a : α}
    {Q : Except String α × SendWorld → Prop} (hran : Q (.ok a, w')) (hlost : Q (.error e, w'))
    (hfailed : Q (.error e, w)) : Q (f.answer e a w w') := by
  cases f with
  | none => exact hran
  | failed => exact hfailed
  | lost => exact hlost

theorem leaves_ready {what : Preparation} {A : SendWorld → Prop} (hA : Stable (sendContract P) t A)
    (hw : A w) : Leaves P stableID t (SendOp.ready what) w fun _ w' => A w' :=
  Leaves.look hA hw fun f w₁ => (Fault.answer_snd f.fault f.text () w₁ w₁).elim id id

theorem leaves_report {id : CommandID} {event : CommandEvent} (hn : Numbered t w)
    (hg : Grounded P id event.outcome w) :
    Leaves P stableID t (SendOp.report id event) w fun _ w' => Numbered t w' := by
  refine Leaves.act (numbered_stable.and grounded_stable) ⟨hn, hg⟩ fun f w₁ hw₁ hI _ => ?_
  have hpub : SendStep P t w₁ (w₁.record (.reported (handlerOf t) id event)) :=
    SendStep.event
      (hI.record hw₁.1 (by simp) (by simp) fun h i e heq => by
        simp only [SendEvent.reported.injEq] at heq
        obtain ⟨-, rfl, rfl⟩ := heq
        exact hw₁.2)
      (grows_record (by simp)) rfl rfl
  exact answer_cases (Q := fun r => SendStep P t w₁ r.2 ∧ Numbered t r.2) ⟨hpub, hw₁.1⟩ ⟨hpub, hw₁.1⟩
    ⟨SendStep.refl hI, hw₁.1⟩

theorem leaves_mark {id : CommandID} :
    Leaves P stableID t (SendOp.mark id) w fun _ _ => True := by
  refine Leaves.act (stable_const True) trivial fun f w₁ _ hI _ => ⟨?_, trivial⟩
  have hmark : SendStep P t w₁ (w₁.mark id) := SendStep.quiet hI.mark grows_mark rfl
  exact answer_cases (Q := fun r => SendStep P t w₁ r.2) hmark hmark (SendStep.refl hI)

theorem leaves_save {id : CommandID} {r : StoredCommandResult} {A : SendWorld → Prop}
    (hA : Stable (sendContract P) t A) (hw : A w) (hn : ∀ w, A w → Numbered t w)
    (hg : ∀ f w₁, A w₁ → SendInv P w₁ → (P → NoForeignIntent t (.saveProcessedCommand id r) f w₁) →
      Grounded P id r.outcome (w₁.save id r)) :
    Leaves P stableID t (SendOp.save id r) w fun a w' =>
      a = .ok () → Numbered t w' ∧ Grounded P id r.outcome w' := by
  refine Leaves.act hA hw fun f w₁ hw₁ hI hadm => ?_
  have hground := hg f w₁ hw₁ hI hadm
  have hsave : SendStep P t w₁ (w₁.save id r) := SendStep.quiet (hI.save hground) (grows_save r) rfl
  exact answer_cases
    (Q := fun x => SendStep P t w₁ x.2 ∧ (x.1 = .ok () → Numbered t x.2 ∧ Grounded P id r.outcome x.2))
    ⟨hsave, fun _ => ⟨hn w₁ hw₁, hground⟩⟩ ⟨hsave, nofun⟩ ⟨SendStep.refl hI, nofun⟩

theorem leaves_publishStored {id : CommandID} {r : StoredCommandResult} (hn : Numbered t w)
    (hg : Grounded P id r.outcome w) :
    Leaves P stableID t (publishStoredCommandResult r id) w fun _ _ => True := by
  refine Leaves.bind (leaves_report hn (r.event_outcome ▸ hg)) fun a w' _ => ?_
  cases a with
  | error e => exact Leaves.pure trivial
  | ok u =>
    dsimp only
    split_ifs
    · exact Leaves.pure trivial
    · exact leaves_mark

theorem leaves_recordAndPublish {id : CommandID} {r : StoredCommandResult} {A : SendWorld → Prop}
    (hA : Stable (sendContract P) t A) (hw : A w) (hn : ∀ w, A w → Numbered t w)
    (hg : ∀ f w₁, A w₁ → SendInv P w₁ → (P → NoForeignIntent t (.saveProcessedCommand id r) f w₁) →
      Grounded P id r.outcome (w₁.save id r)) :
    Leaves P stableID t (recordAndPublish id r) w fun _ _ => True := by
  refine Leaves.bind (leaves_save hA hw hn hg) fun a w' h => ?_
  cases a with
  | error e => exact Leaves.pure trivial
  | ok u =>
    obtain ⟨hn', hg'⟩ := h rfl
    refine Leaves.bind (leaves_publishStored hn' hg') fun a w'' _ => ?_
    cases a with
    | error e => exact Leaves.pure trivial
    | ok u => exact Leaves.pure trivial

theorem leaves_finishFailedSend {text : String} (hw : Unclaimed t w) :
    Leaves P stableID t (finishFailedSend cmd text) w fun _ _ => True := by
  refine leaves_recordAndPublish unclaimed_stable hw (fun _ h => h.numbered) ?_
  intro f w₁ hw₁ hI hadm hP
  refine ⟨?_, fun h hb => ?_⟩
  · obtain ⟨row, hrow, -⟩ := Ledger.find?_saveProcessedCommand_self w₁.ledger (·.inFlight)
      cmd.commandID cmd.type.name _
    exact Option.ne_none_iff_exists'.mpr ⟨row, hrow⟩
  · obtain rfl := hadm hP cmd.commandID _ rfl rfl h true hb
    exact hw₁.intent cmd.commandID hb

/-- What the flag `began` stands for. -/
def Ready (t : Who Delivery) (id : CommandID) : Bool → SendWorld → Prop
  | true => Claimed t id
  | false => Unclaimed t

/-- How an attempt may end: with a send, after its intent, or before it. -/
def AttemptEnd (t : Who Delivery) (id : CommandID) :
    Except SendError SendResponse × Bool → SendWorld → Prop
  | (.ok _, _), w => Numbered t w ∧ w.Sent id
  | (.error _, true), w => Numbered t w ∧ .began (handlerOf t) id true ∈ w.log
  | (.error e, false), w => Unclaimed t w ∧ e.kind ≠ .unknownOutcome

theorem leaves_begin {id : CommandID} {intent : StoredCommandResult} (hw : Unclaimed t w)
    (hintent : intent.inFlight = true) :
    Leaves P stableID t (SendOp.begin id intent) w fun a w' =>
      match a with
      | .ok true => Claimed t id w'
      | _ => Unclaimed t w' := by
  refine Leaves.act unclaimed_stable hw fun f w₁ hw₁ hI _ => ?_
  by_cases hrow : w₁.ledger.find? id = none
  · -- the insert takes place, whether or not it is answered
    have hstep : ∀ a, SendStep P t w₁ (w₁.begun (handlerOf t) id intent a) := fun a =>
      SendStep.event (hI.begun_intent hw₁.numbered hrow hintent) (grows_begun hrow) rfl rfl
    have hnot : ∀ i part m a,
        .started (handlerOf t) i part m ∉ (w₁.begun (handlerOf t) id intent a).log := by
      intro i part m a hs
      rcases mem_record.mp hs with heq | hold
      · cases heq
      · exact hw₁.start i part m hold
    simp only [sendExec, begin_of_none hrow]
    cases hf : f.fault with
    | none =>
      exact ⟨hstep _, hw₁.numbered, List.mem_cons_self, fun i m => hnot i .message m _⟩
    | failed => exact ⟨SendStep.refl hI, hw₁⟩
    | lost =>
      refine ⟨hstep _, hw₁.numbered, fun i hb => ?_, fun i part m => hnot i part m _⟩
      rcases mem_record.mp hb with heq | hold
      · simp at heq
      · exact hw₁.intent i hold
  · simp only [sendExec, begin_of_some hrow]
    cases hf : f.fault with
    | none => exact ⟨SendStep.refl hI, hw₁⟩
    | failed => exact ⟨SendStep.refl hI, hw₁⟩
    | lost => exact ⟨SendStep.refl hI, hw₁⟩

theorem leaves_beforeSend {began : Bool} (hw : Ready t cmd.commandID began w) :
    Leaves P stableID t (beforeSend stableID cmd began) w fun a w' =>
      match a with
      | (.ok _, began') => began' = true ∧ Claimed t cmd.commandID w'
      | (.error e, began') => began' = false ∧ Unclaimed t w' ∧ e.kind ≠ .unknownOutcome := by
  cases began with
  | true => exact Leaves.pure ⟨rfl, hw⟩
  | false =>
    refine Leaves.bind (leaves_begin hw rfl) fun a w' h => ?_
    match a, h with
    | .error e, h => exact Leaves.pure ⟨rfl, h, nofun⟩
    | .ok false, h => exact Leaves.pure ⟨rfl, h, nofun⟩
    | .ok true, h => exact Leaves.pure ⟨rfl, h⟩

theorem leaves_start {id : CommandID} {part : SendPart} {m : String} (hw : Claimed t id w) :
    Leaves P stableID t (SendOp.start id part m) w fun _ w' => Numbered t w' ∧
      .began (handlerOf t) id true ∈ w'.log ∧ (part = .manifest → Claimed t id w') := by
  refine Leaves.act claimed_stable hw fun f w₁ hw₁ hI _ => ?_
  have hbegan : .began (handlerOf t) id true ∈ (w₁.record (.started (handlerOf t) id part m)).log :=
    mem_record.mpr (Or.inr hw₁.intent)
  refine ⟨SendStep.event (hI.start hw₁.intent hw₁.start) (grows_record (by simp)) rfl rfl,
    hw₁.numbered, hbegan, fun hpart => ⟨hw₁.numbered, hbegan, fun i m' hs => ?_⟩⟩
  rcases mem_record.mp hs with heq | hold
  · simp [hpart] at heq
  · exact hw₁.start i m' hold

theorem leaves_await {id : CommandID} {part : SendPart} {A : SendWorld → Prop}
    (hA : Stable (sendContract P) t A) (hw : A w) (hn : ∀ w, A w → Numbered t w)
    (hrec : ∀ w success, A w → A (w.record (.returned (handlerOf t) id part success))) :
    Leaves P stableID t (SendOp.await id part) w fun a w' => A w' ∧
      ∀ r, a = .ok r → .returned (handlerOf t) id part true ∈ w'.log := by
  refine Leaves.act hA hw fun f w₁ hw₁ hI _ => ?_
  have hstep : ∀ b, SendStep P t w₁ (w₁.record (.returned (handlerOf t) id part b)) := fun b =>
    SendStep.event (hI.record (hn w₁ hw₁) (by simp) (by simp) (by simp)) (grows_record (by simp)) rfl
      rfl
  simp only [sendExec]
  cases f.fault with
  | none => exact ⟨hstep true, hrec w₁ true hw₁, fun _ _ => List.mem_cons_self⟩
  | failed => exact ⟨hstep false, hrec w₁ false hw₁, nofun⟩
  | lost => exact ⟨hstep false, hrec w₁ false hw₁, nofun⟩

/-- What the handler knows once it has called the transport for a part. -/
structure Calling (t : Who Delivery) (id : CommandID) (part : SendPart) (w : SendWorld) : Prop where
  numbered : Numbered t w
  intent : .began (handlerOf t) id true ∈ w.log
  claimed : part = .manifest → Claimed t id w

theorem calling_stable {id : CommandID} {part : SendPart} :
    Stable (sendContract P) t (Calling t id part) := fun w w' h hR hI =>
  ⟨numbered_stable w w' h.numbered hR hI, hR.log _ h.intent, fun hp =>
    claimed_stable w w' (h.claimed hp) hR hI⟩

theorem Calling.returned {id : CommandID} {part : SendPart} {b : Bool} (h : Calling t id part w) :
    Calling t id part (w.record (.returned (handlerOf t) id part b)) where
  numbered := h.numbered
  intent := mem_record.mpr (Or.inr h.intent)
  claimed hp := by
    have hc := h.claimed hp
    refine ⟨hc.numbered, mem_record.mpr (Or.inr hc.intent), fun i m hs => ?_⟩
    rcases mem_record.mp hs with heq | hold
    · cases heq
    · exact hc.start i m hold

theorem leaves_sendWithID {part : SendPart} {m : String} {began : Bool}
    (hw : Ready t cmd.commandID began w) :
    Leaves P stableID t (sendCommandMessageWithID stableID cmd part m began) w fun a w' =>
      match a with
      | (.ok _, began') => began' = true ∧ Calling t cmd.commandID part w' ∧
          .returned (handlerOf t) cmd.commandID part true ∈ w'.log
      | (.error e, began') => AttemptEnd t cmd.commandID (.error e, began') w' := by
  refine Leaves.bind (leaves_beforeSend hw) fun a w₁ h₁ => ?_
  match a, h₁ with
  | (.error e, _), ⟨rfl, hun⟩ => exact Leaves.pure hun
  | (.ok _, _), ⟨rfl, hcl⟩ =>
    refine Leaves.bind (leaves_start hcl) fun _ w₂ h₂ => ?_
    have hcalling : Calling t cmd.commandID part w₂ := ⟨h₂.1, h₂.2.1, h₂.2.2⟩
    refine Leaves.bind (leaves_await calling_stable hcalling (fun _ h => h.numbered)
      fun _ _ h => h.returned) fun a w₃ h₃ => ?_
    match a, h₃ with
    | .error e, ⟨hc, _⟩ => exact Leaves.pure ⟨hc.numbered, hc.intent⟩
    | .ok r, ⟨hc, hret⟩ => exact Leaves.pure ⟨rfl, hc, hret r rfl⟩

theorem AttemptEnd.wrap {id : CommandID} {e : SendError} {began : Bool} {context : String}
    (h : AttemptEnd t id (.error e, began) w) :
    AttemptEnd t id (.error (e.wrap context), began) w := by
  cases began with
  | true => exact h
  | false => exact h

theorem leaves_sendCommandMessage {context : String} {began : Bool}
    (hw : Ready t cmd.commandID began w) :
    Leaves P stableID t (sendCommandMessage stableID cmd context began) w
      (AttemptEnd t cmd.commandID) := by
  refine Leaves.bind (leaves_sendWithID hw) fun a w' h => ?_
  match a, h with
  | (.error e, _), h => exact Leaves.pure h.wrap
  | (.ok _, _), ⟨rfl, hc, hret⟩ => exact Leaves.pure ⟨hc.numbered, _, hret⟩

theorem leaves_plain {text : String} (hw : Unclaimed t w) :
    Leaves P stableID t (.done (.error ⟨.plain, text⟩, false)) w (AttemptEnd t cmd.commandID) :=
  Leaves.pure ⟨hw, nofun⟩

theorem leaves_sendPlain {context : String} (hw : Unclaimed t w) :
    Leaves P stableID t (sendPlain stableID cmd context) w (AttemptEnd t cmd.commandID) := by
  refine Leaves.bind (leaves_ready unclaimed_stable hw) fun a w₁ h₁ => ?_
  cases a with
  | error e => exact leaves_plain h₁
  | ok _ =>
    refine Leaves.bind (leaves_ready unclaimed_stable h₁) fun a w₂ h₂ => ?_
    cases a with
    | error e => exact leaves_plain h₂
    | ok _ => exact leaves_sendCommandMessage h₂

theorem leaves_sendMediaAlbum (hw : Unclaimed t w) :
    Leaves P stableID t (sendMediaAlbumMessage stableID cmd) w (AttemptEnd t cmd.commandID) := by
  refine Leaves.bind (leaves_ready unclaimed_stable hw) fun a w₁ h₁ => ?_
  cases a with
  | error e => exact leaves_plain h₁
  | ok _ =>
    dsimp only
    split_ifs with htype hctx hfirst
    · exact leaves_plain h₁
    · exact leaves_plain h₁
    · refine Leaves.bind (leaves_ready unclaimed_stable h₁) fun a w₂ h₂ => ?_
      cases a with
      | error e => exact leaves_plain h₂
      | ok _ =>
        -- the first child sends the manifest, and its intent covers both sends
        refine Leaves.bind (leaves_sendWithID h₂) fun a w₃ h₃ => ?_
        match a, h₃ with
        | (.error e, _), h => exact Leaves.pure h.wrap
        | (.ok _, _), ⟨rfl, hc, _⟩ => exact leaves_sendCommandMessage (hc.claimed rfl)
    · refine Leaves.bind (leaves_ready unclaimed_stable h₁) fun a w₂ h₂ => ?_
      cases a with
      | error e => exact leaves_plain h₂
      | ok _ => exact leaves_sendCommandMessage h₂

theorem leaves_mediaData {prepared : Option (Except String Unit)} (hw : Unclaimed t w) :
    Leaves P stableID t (mediaData prepared) w fun _ w' => Unclaimed t w' := by
  cases prepared with
  | some media => exact Leaves.pure hw
  | none => exact leaves_ready unclaimed_stable hw

theorem leaves_executeMedia {prepared : Option (Except String Unit)} (hw : Unclaimed t w) :
    Leaves P stableID t (do
      match ← mediaData prepared with
      | .error e => pure (.error ⟨.plain, e⟩, false)
      | .ok _ =>
        if cmd.mediaAlbumID ≠ "" then sendMediaAlbumMessage stableID cmd
        else sendPlain stableID cmd "failed to send media message") w
      (AttemptEnd t cmd.commandID) := by
  refine Leaves.bind (leaves_mediaData hw) fun a w₁ h₁ => ?_
  cases a with
  | error e => exact leaves_plain h₁
  | ok _ =>
    dsimp only
    split_ifs
    · exact leaves_sendMediaAlbum h₁
    · exact leaves_sendPlain h₁

theorem leaves_executeSend {prepared : Option (Except String Unit)} (hw : Unclaimed t w) :
    Leaves P stableID t (executeSend stableID cmd prepared) w (AttemptEnd t cmd.commandID) := by
  unfold executeSend
  cases cmd.type with
  | text => exact leaves_sendPlain hw
  | reaction => exact leaves_sendPlain hw
  | other name => exact leaves_plain hw
  | _ => exact leaves_executeMedia hw

theorem leaves_sendAttempts {prepared : Option (Except String Unit)} (left : ℕ) (hw : Unclaimed t w) :
    Leaves P stableID t (sendAttempts stableID cmd prepared left) w fun _ _ => True := by
  induction left generalizing w with
  | zero => exact Leaves.pure trivial
  | succ left ih =>
    refine Leaves.bind (leaves_executeSend hw) fun a w₁ h₁ => ?_
    match a, h₁ with
    | (.ok response, _), ⟨hn, hsent⟩ =>
      exact leaves_recordAndPublish (numbered_stable.and (grounded_stable (o := .confirmed)))
        ⟨hn, hsent⟩ (fun _ h => h.1) fun f w₂ h₂ _ _ => h₂.2.grows (grows_save _)
    | (.error e, began), h₁ =>
      dsimp only
      split_ifs with halready hunknown hlast
      · exact Leaves.pure trivial
      · -- the intent is recorded: began, or the transport was reached
        have hbegan : Numbered t w₁ ∧ Grounded P cmd.commandID .unknown w₁ := by
          cases began with
          | true => exact ⟨h₁.1, _, _, h₁.2⟩
          | false => exact absurd (by simpa using hunknown) h₁.2
        exact leaves_recordAndPublish (numbered_stable.and grounded_stable) hbegan (fun _ h => h.1)
          fun f w₂ h₂ _ _ => h₂.2.grows (grows_save _)
      · cases began with
        | true => exact absurd rfl hunknown
        | false => exact leaves_finishFailedSend h₁.1
      · cases began with
        | true => exact absurd rfl hunknown
        | false =>
          refine Leaves.bind (Leaves.look unclaimed_stable h₁.1 fun f w => rfl) fun a w₂ h₂ => ?_
          cases a with
          | false => exact Leaves.pure trivial
          | true => exact ih h₂

theorem leaves_handleSendCommand {prepared : Option (Except String Unit)} (hw : Unclaimed t w) :
    Leaves P stableID t (handleSendCommand stableID cmd prepared) w fun _ _ => True := by
  unfold handleSendCommand
  split_ifs
  · exact Leaves.pure trivial
  · have hread : Leaves P stableID t (SendOp.read cmd.commandID) w fun a w' => Unclaimed t w' ∧
        ∀ stored, a = .ok (some stored) → Grounded P cmd.commandID stored.outcome w' := by
      refine Leaves.act unclaimed_stable hw fun f w₁ hw₁ hI _ => ?_
      refine answer_cases (Q := fun x => SendStep P t w₁ x.2 ∧ Unclaimed t x.2 ∧
          ∀ stored : StoredCommandResult, x.1 = .ok (some stored) → Grounded P cmd.commandID stored.outcome x.2)
        ⟨SendStep.refl hI, hw₁, fun stored hs => ?_⟩ ⟨SendStep.refl hI, hw₁, nofun⟩
        ⟨SendStep.refl hI, hw₁, nofun⟩
      obtain ⟨row, hrow, rfl⟩ := Option.map_eq_some_iff.mp (Except.ok.inj hs)
      exact hI.rows cmd.commandID row hrow
    refine Leaves.bind hread fun a w₁ h₁ => ?_
    match a, h₁ with
    | .error e, _ => exact Leaves.pure trivial
    | .ok none, h₁ => exact leaves_sendAttempts _ h₁.1
    | .ok (some stored), h₁ =>
      refine Leaves.bind (leaves_publishStored h₁.1.numbered (h₁.2 stored rfl)) fun a w₂ _ => ?_
      cases a with
      | error e => exact Leaves.pure trivial
      | ok _ => exact Leaves.pure trivial

end Handler

/-! ### Runs -/

theorem sendContract_respected (P : Prop) (stableID : CommandID → String) :
    (sendContract P).Respected (sendSystem stableID) where
  start b w ctx p w' hI h := by
    obtain ⟨rfl, rfl, rfl⟩ : ctx = ⟨b.worker, w.deliveries⟩ ∧
        p = (handleSendCommand stableID b.cmd b.prepared).bind (fun _ => .done ()) ∧
        w' = { w with deliveries := w.deliveries + 1 } := by
      simpa [sendSystem, eq_comm] using h
    have hg : SendGrows w { w with deliveries := w.deliveries + 1 } :=
      ⟨fun _ he => he, fun _ hr => hr, fun _ _ _ _ hb => hb, Nat.le_succ _⟩
    refine ⟨⟨fun e he => Nat.lt_succ_of_lt (hI.fresh e he), hI.begun, hI.alone, hI.started, hI.once,
      fun i row hr => (hI.rows i row hr).grows hg, fun k i e he => (hI.reports k i e he).grows hg⟩,
      fun u => ⟨hg, fun _ he _ => he⟩, fun id => ?_⟩
    -- nothing in the history carries the number of the new delivery
    have hnew : Unclaimed ⟨id, ⟨b.worker, w.deliveries⟩⟩ { w with deliveries := w.deliveries + 1 } :=
      ⟨Nat.lt_succ_self _, fun i hb => Nat.lt_irrefl _ (hI.fresh _ hb),
        fun i part m hs => Nat.lt_irrefl _ (hI.fresh _ hs)⟩
    have hwp : Leaves P stableID ⟨id, ⟨b.worker, w.deliveries⟩⟩
        ((handleSendCommand stableID b.cmd b.prepared).bind fun _ => .done ())
        { w with deliveries := w.deliveries + 1 } fun _ _ => True :=
      Leaves.bind (leaves_handleSendCommand hnew) fun _ _ _ => Leaves.pure trivial
    exact hwp.mono fun _ _ _ => trivial
  env e w w' hI h := by
    obtain rfl := Option.some.inj h
    exact ⟨hI, fun u _ => ⟨SendGrows.refl w, fun _ he _ => he⟩⟩

theorem sendInv_start (P : Prop) : SendInv P SendWorld.start where
  fresh e he := by cases he
  begun h id a he := by cases he
  alone h h' id a a' he := by cases he
  started h id part m he := by cases he
  once id := Nat.zero_le 1
  rows id row h := by cases h
  reports h id e he := by cases he

theorem SendInv.sentOnce {P : Prop} {w : SendWorld} (hI : SendInv P w) (id : CommandID) :
    SentOnce id w where
  once := hI.once id
  confirmed := by
    rintro ⟨h, event, hrep, hout⟩
    have hg := hI.reports h id event hrep
    rw [hout] at hg
    exact hg

theorem SendInv.truthful {w : SendWorld} (hI : SendInv True w) (id : CommandID) :
    TruthfulOutcome id w := by
  have hfailed : w.Reported id .failed → ¬ w.Started id := by
    rintro ⟨h, event, hrep, hout⟩ ⟨k, part, m, hs⟩
    have hg := hI.reports h id event hrep
    rw [hout] at hg
    exact (hg trivial).2 k (hI.started k id part m hs)
  refine ⟨hI.sentOnce id, hfailed, fun hstarted hsent o hrep => ?_⟩
  cases o with
  | confirmed => exact absurd ((hI.sentOnce id).confirmed hrep) hsent
  | failed => exact absurd hstarted (hfailed hrep)
  | unknown => rfl

/-- **At-most-once send and truthful outcome.**  In every run the transport is called at most once for
a command and a confirmation follows a successful send; in every run in which `finishFailedSend` saves
over no foreign intent, every reported outcome is truthful. -/
theorem send_outcome (stableID : CommandID → String)
    (as : List (PoolAction SendChoice Delivered WorkerCrash)) :
    Always (sendSystem stableID).step (fun s => ∀ id, SentOnce id s.world)
        (Pool.ofWorld SendWorld.start) as ∧
      (Meets (sendSystem stableID).step (OpCond NoForeignIntent) (Pool.ofWorld SendWorld.start) as →
        Always (sendSystem stableID).step (fun s => ∀ id, TruthfulOutcome id s.world)
          (Pool.ofWorld SendWorld.start) as) := by
  constructor
  · have hmeets : Meets (sendSystem stableID).step (OpCond (sendContract False).admits)
        (Pool.ofWorld SendWorld.start) as :=
      meets_of_forall fun s a => by cases a <;> simp [OpCond, sendContract]
    have hrun := (sendContract False).pool_sound (sendContract_respected False stableID)
      (Contract.poolInv_ofWorld (sendInv_start False)) hmeets
    exact hrun.1.mono fun s hI id => SendInv.sentOnce hI id
  · intro hcond
    have hmeets : Meets (sendSystem stableID).step (OpCond (sendContract True).admits)
        (Pool.ofWorld SendWorld.start) as := by
      refine hcond.mono fun s a h => ?_
      cases a with
      | run id f => exact fun ctx op k hth _ => h ctx op k hth
      | start id b => trivial
      | env e => trivial
    have hrun := (sendContract True).pool_sound (sendContract_respected True stableID)
      (Contract.poolInv_ofWorld (sendInv_start True)) hmeets
    exact hrun.1.mono fun s hI id => SendInv.truthful hI id

/-- An image for the command `c1`. -/
def imageCommand : SendMessageCommand :=
  { commandID := "c1", messageID := "m1", type := .image, correlationID := "r1", mediaAlbumID := ""
    mediaAlbumIndex := 0, mediaAlbumCount := 0, mediaAlbumImageCount := 0, mediaAlbumVideoCount := 0 }

def runOk (thread : ℕ) : PoolAction SendChoice Delivered WorkerCrash :=
  .run thread ⟨.none, "", ⟨"3EB0", 7⟩⟩

def runFailing (thread : ℕ) : PoolAction SendChoice Delivered WorkerCrash :=
  .run thread ⟨.failed, "download failed", ⟨"", 0⟩⟩

/-- Two workers handle `c1`.  The second cannot download the image; before it saves the failure, the
first has inserted its intent and called the transport. -/
def overlappingSends : List (PoolAction SendChoice Delivered WorkerCrash) :=
  [.start 1 ⟨1, imageCommand, none⟩, .start 2 ⟨2, imageCommand, none⟩, runOk 1, runOk 2,
    -- three failed downloads with a pause between them
    runFailing 2, runOk 2, runFailing 2, runOk 2, runFailing 2,
    -- download, recipient, message, intent, transport
    runOk 1, runOk 1, runOk 1, runOk 1, runOk 1,
    -- the failure is saved over the intent and reported
    runOk 2, runOk 2]

theorem failure_reported_over_started_send :
    ¬ Always (sendSystem fun id => "3EB0" ++ id).step (fun s => ∀ id, TruthfulOutcome id s.world)
      (Pool.ofWorld SendWorld.start) overlappingSends := by
  intro h
  obtain ⟨s, hrun, hrep, hstart⟩ : ∃ s, runActions (sendSystem fun id => "3EB0" ++ id).step
      (Pool.ofWorld SendWorld.start) overlappingSends = some s ∧
      s.world.Reported "c1" .failed ∧ s.world.Started "c1" :=
    ⟨_, rfl, ⟨⟨2, 1⟩, _, List.mem_cons_self, rfl⟩,
      ⟨⟨1, 0⟩, .message, _, List.mem_cons_of_mem _ List.mem_cons_self⟩⟩
  have htrue := always_iff_reached.mp h overlappingSends [] s (List.append_nil _).symm hrun "c1"
  exact htrue.failed hrep hstart

/-- The image cannot be downloaded: the failure is saved and reported, and a redelivery reports it
again. -/
theorem send_outcome_failed_download :
    Always (sendSystem fun id => "3EB0" ++ id).step (fun s => ∀ id, TruthfulOutcome id s.world)
      (Pool.ofWorld SendWorld.start)
      [.start 1 ⟨1, imageCommand, some (.error "download failed")⟩, runOk 1, runOk 1, runOk 1,
        .start 2 ⟨1, imageCommand, none⟩, runOk 2, runOk 2] := by
  refine (send_outcome _ _).2 fun s₁ h₁ => ⟨trivial, fun s₂ h₂ => ⟨?_, fun s₃ h₃ => ⟨?_,
    fun s₄ h₄ => ⟨?_, fun s₅ h₅ => ⟨trivial, fun s₆ h₆ => ⟨?_, fun s₇ h₇ => ⟨?_, trivial⟩⟩⟩⟩⟩⟩⟩
  all_goals
    intro ctx op k hth id result hop hfailed h answered hb
    obtain rfl := Option.some.inj h₁
  · cases hth
    cases hop
  · obtain rfl := Option.some.inj h₂
    cases hb
  · obtain rfl := Option.some.inj h₂
    obtain rfl := Option.some.inj h₃
    cases hth
    cases hop
  · obtain rfl := Option.some.inj h₂
    obtain rfl := Option.some.inj h₃
    obtain rfl := Option.some.inj h₄
    obtain rfl := Option.some.inj h₅
    cases hth
    cases hop
  · obtain rfl := Option.some.inj h₂
    obtain rfl := Option.some.inj h₃
    obtain rfl := Option.some.inj h₄
    obtain rfl := Option.some.inj h₅
    obtain rfl := Option.some.inj h₆
    cases hth
    cases hop

end TeamInbox.Worker
