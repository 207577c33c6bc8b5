import Mathlib.Data.List.Count
import Mathlib.Data.List.Infix
import Mathlib.Data.List.Sigma
import TeamInbox.Lib.Lines

/-!
# TeamInbox.Channels.Reactions — the reactions of a Telegram account

`normalizeReaction` of the Telegram adapter and `applyReactionMutation`.  A reaction is stored under a text of the
reactor, the message id and the reaction, which does not say in which chat the message is: `reactions_exact_iff`.
-/

namespace TeamInbox.Reactions

open TeamInbox.Lib

/-! ### Updates -/

inductive TelegramReactionType
  | emoji (emoji : String) (given : emoji ≠ "")
  | customEmoji (customEmojiId : String) (given : customEmojiId ≠ "")
  | paid
  deriving DecidableEq

def reactionKey : TelegramReactionType → String
  | .emoji e _ => "emoji" ++ (String.singleton ':' ++ e)
  | .customEmoji id _ => "custom" ++ (String.singleton ':' ++ id)
  | .paid => "paid"

def reactionDisplayValue : TelegramReactionType → String
  | .emoji e _ => e
  | .customEmoji id _ => "custom_emoji:" ++ id
  | .paid => "⭐"

/-- Who reacts: a user, or a chat for an anonymous one. -/
inductive Reactor
  | user (id : ℤ)
  | actorChat (id : ℤ)
  deriving DecidableEq

structure EndpointReference where
  identityScope : String
  externalId : String
  deriving DecidableEq

/-- `userEndpoint` and `chatEndpoint`. -/
def Reactor.endpoint : Reactor → EndpointReference
  | .user id => ⟨"telegram-user", intText id⟩
  | .actorChat id => ⟨"telegram-chat", intText id⟩

structure Conversation where
  chatId : ℤ
  messageThreadId : Option ℤ
  deriving DecidableEq

/-- `conversationReference`. -/
def Conversation.externalThreadId (c : Conversation) : String :=
  match c.messageThreadId with
  | none => intText c.chatId
  | some thread => intText c.chatId ++ (String.singleton ':' ++ ("thread" ++ (String.singleton ':' ++ intText thread)))

structure Slot where
  conversation : Conversation
  messageId : ℕ
  reactor : Reactor
  deriving DecidableEq

structure MessageReference where
  identityScope : String
  externalId : String
  deriving DecidableEq

def Slot.message (slot : Slot) : MessageReference :=
  ⟨"telegram-thread:" ++ slot.conversation.externalThreadId, toString slot.messageId⟩

structure ReactionUpdate where
  updateId : ℕ
  slot : Slot
  oldReaction : List TelegramReactionType
  newReaction : List TelegramReactionType

/-! ### Normalization -/

def reactionCounts (reactions : List TelegramReactionType) : String → ℕ :=
  reactions.foldl (fun counts r => Function.update counts (reactionKey r) (counts (reactionKey r) + 1)) fun _ => 0

/-- `Map.set`. -/
def setEntry (entries : List (String × TelegramReactionType)) (r : TelegramReactionType) :
    List (String × TelegramReactionType) :=
  if (entries.map Prod.fst).contains (reactionKey r) then
    entries.map fun e => if e.1 = reactionKey r then (reactionKey r, r) else e
  else entries ++ [(reactionKey r, r)]

def allReactionDescriptors (oldReactions newReactions : List TelegramReactionType) :
    List (String × TelegramReactionType) := (oldReactions ++ newReactions).foldl setEntry []

inductive ReactionKind
  | upsert
  | delete
  deriving DecidableEq

def ReactionKind.text : ReactionKind → String
  | .upsert => "reaction.upsert"
  | .delete => "reaction.delete"

/-- The changes from the old reactions to the new ones, in the order of the events. -/
def reactionChanges (oldReactions newReactions : List TelegramReactionType) : List (ReactionKind × TelegramReactionType) :=
  (allReactionDescriptors oldReactions newReactions).flatMap fun e =>
    let difference : ℤ := reactionCounts newReactions e.1 - reactionCounts oldReactions e.1
    List.replicate difference.natAbs (if 0 < difference then .upsert else .delete, e.2)

structure ReactionEventPayload where
  message : MessageReference
  externalReactionId : String
  reactor : EndpointReference
  emoji : String

def externalReactionId (reactor : EndpointReference) (messageId : String) (r : TelegramReactionType) : String :=
  reactor.identityScope ++ (String.singleton ':' ++ (reactor.externalId ++ (String.singleton ':' ++
    (messageId ++ (String.singleton ':' ++ reactionKey r)))))

def payload (slot : Slot) (r : TelegramReactionType) : ReactionEventPayload where
  message := slot.message
  externalReactionId := externalReactionId slot.reactor.endpoint (toString slot.messageId) r
  reactor := slot.reactor.endpoint
  emoji := reactionDisplayValue r

inductive ChannelEventBody
  | endpointUpsert (endpoint : EndpointReference)
  | conversationUpsert (externalThreadId : String)
  | reaction (kind : ReactionKind) (payload : ReactionEventPayload)

structure ChannelEvent where
  eventId : String
  body : ChannelEventBody

def updatePrefix (u : ReactionUpdate) : String := "telegram:" ++ toString u.updateId ++ ":"

def referenceEvents (u : ReactionUpdate) : List ChannelEvent :=
  [⟨updatePrefix u ++ "endpoint.upsert", .endpointUpsert u.slot.reactor.endpoint⟩,
    ⟨updatePrefix u ++ "conversation.upsert", .conversationUpsert u.slot.conversation.externalThreadId⟩]

def reactionEvent (u : ReactionUpdate) (change : (ReactionKind × TelegramReactionType) × ℕ) : ChannelEvent where
  eventId := updatePrefix u ++ (change.1.1.text ++ (String.singleton ':' ++ toString change.2))
  body := .reaction change.1.1 (payload u.slot change.1.2)

def normalizeReaction (u : ReactionUpdate) : List ChannelEvent :=
  referenceEvents u ++ ((reactionChanges u.oldReaction u.newReaction).zipIdx.map (reactionEvent u))

/-! ### Storage -/

/-- A row of `message_reactions` of the account. -/
structure ReactionRow where
  message : MessageReference
  reactorJid : String
  emoji : String
  reactorEndpoint : EndpointReference
  externalReactionId : String
  deriving DecidableEq

structure ReactionStore where
  messages : List MessageReference
  rows : List ReactionRow

/-- `emoji VARCHAR(10)`. -/
def emojiWidth : ℕ := 10

def insertRow (row : ReactionRow) (s : ReactionStore) : Except String ReactionStore :=
  if emojiWidth < row.emoji.length then .error "value too long for type character varying(10)"
  else if s.rows.any fun r => r.message = row.message ∧ r.reactorJid = row.reactorJid then
    .error "duplicate key value violates unique constraint \"message_reactions_unique\""
  else .ok { s with rows := s.rows ++ [row] }

def applyReactionMutation (kind : ReactionKind) (p : ReactionEventPayload) (s : ReactionStore) :
    Except String ReactionStore :=
  if p.message ∉ s.messages then .error "message_dependency_missing"
  else match kind with
    | .delete => .ok { s with
        rows := s.rows.filter fun r => !decide (r.message = p.message ∧ r.externalReactionId = p.externalReactionId) }
    | .upsert =>
      if s.rows.any fun r => r.externalReactionId = p.externalReactionId then
        if emojiWidth < p.emoji.length then .error "value too long for type character varying(10)"
        else .ok { s with
          rows := s.rows.map fun r =>
            if r.externalReactionId = p.externalReactionId then { r with emoji := p.emoji } else r }
      else insertRow ⟨p.message, p.reactor.externalId, p.emoji, p.reactor, p.externalReactionId⟩ s

/-- The transaction of an event: one that throws leaves the rows as they were. -/
def applyEvent (s : ReactionStore) (e : ChannelEvent) : ReactionStore :=
  match e.body with
  | .reaction kind p => (applyReactionMutation kind p s).toOption.getD s
  | .endpointUpsert _ | .conversationUpsert _ => s

def receive (s : ReactionStore) (u : ReactionUpdate) : ReactionStore := (normalizeReaction u).foldl applyEvent s

def received (messages : List MessageReference) (us : List ReactionUpdate) : ReactionStore :=
  us.foldl receive ⟨messages, []⟩

/-! ### What is claimed -/

/-- What every reactor last had on every message. -/
def latest (us : List ReactionUpdate) : Slot → List TelegramReactionType :=
  us.foldl (fun l u => Function.update l u.slot u.newReaction) fun _ => []

/-- Every update goes on from the one before it on the same slot. -/
def Consecutive (us : List ReactionUpdate) : Prop :=
  ∀ before u after, us = before ++ u :: after →
    u.oldReaction = latest before u.slot ∧ u.oldReaction.Nodup ∧ u.newReaction.Nodup

def rowOf (slot : Slot) (r : TelegramReactionType) : ReactionRow where
  message := slot.message
  reactorJid := slot.reactor.endpoint.externalId
  emoji := reactionDisplayValue r
  reactorEndpoint := slot.reactor.endpoint
  externalReactionId := externalReactionId slot.reactor.endpoint (toString slot.messageId) r

def ReactionStore.at (s : ReactionStore) (slot : Slot) : List ReactionRow :=
  s.rows.filter fun row => row.message = slot.message ∧ row.reactorEndpoint = slot.reactor.endpoint

/-- Every slot has the rows of its reactions, and no others. -/
def Exact (s : ReactionStore) (l : Slot → List TelegramReactionType) : Prop :=
  ∀ slot, (s.at slot).Perm ((l slot).map (rowOf slot))

structure AppliedExactly (messages : List MessageReference) (us : List ReactionUpdate) : Prop where
  exact : ∀ before after, us = before ++ after → Exact (received messages before) (latest before)
  distinct : ∀ u ∈ us, ((normalizeReaction u).map ChannelEvent.eventId).Nodup
  unchanged : ∀ u ∈ us, ∀ r ∈ u.oldReaction, r ∈ u.newReaction → ∀ e ∈ normalizeReaction u, ∀ kind p,
    e.body = .reaction kind p → p.externalReactionId ≠ (payload u.slot r).externalReactionId

/-- An update that adds a reaction adds the only one of its slot, to a stored message.  Its emoji fits the column, the
reactor does not have it on a message with the same id elsewhere, and nobody with the reactor's id has one there. -/
def Fits (messages : List MessageReference) (l : Slot → List TelegramReactionType) (u : ReactionUpdate) : Prop :=
  ∀ r ∈ u.newReaction, r ∉ u.oldReaction → u.newReaction = [r] ∧ u.slot.message ∈ messages ∧
    (reactionDisplayValue r).length ≤ emojiWidth ∧
    (∀ other, other.messageId = u.slot.messageId → other.reactor = u.slot.reactor → r ∉ l other) ∧
    ∀ other, other.message = u.slot.message → other.reactor.endpoint.externalId = u.slot.reactor.endpoint.externalId →
      other ≠ u.slot → l other = []

/-! ### Texts -/

theorem colon_not_mem_intText (i : ℤ) : ':' ∉ (intText i).toList := fun h => by
  rcases digit_of_mem_intText h with hdigit | heq
  · exact absurd hdigit (by decide)
  · exact absurd heq (by decide)

theorem colon_mem (a x : String) : ':' ∈ (a ++ (String.singleton ':' ++ x)).toList := by
  simp [String.toList_append]

theorem reactionKey_injective : Function.Injective reactionKey := by
  have hfield : ∀ {a b x y : String}, ':' ∉ a.toList → ':' ∉ b.toList → a ≠ b →
      a ++ (String.singleton ':' ++ x) ≠ b ++ (String.singleton ':' ++ y) :=
    fun ha hb hne h => hne (field_inj ha hb h).1
  have hpaid : ∀ a x : String, a ++ (String.singleton ':' ++ x) ≠ "paid" := fun a x h =>
    absurd (h ▸ colon_mem a x) (by decide)
  intro r q h
  cases r with
  | emoji e _ =>
    cases q with
    | emoji e' _ =>
      obtain ⟨-, rfl⟩ := field_inj (by decide) (by decide) h
      rfl
    | customEmoji id _ => exact absurd h (hfield (by decide) (by decide) (by decide))
    | paid => exact absurd h (hpaid _ _)
  | customEmoji id _ =>
    cases q with
    | emoji e _ => exact absurd h (hfield (by decide) (by decide) (by decide))
    | customEmoji id' _ =>
      obtain ⟨-, rfl⟩ := field_inj (by decide) (by decide) h
      rfl
    | paid => exact absurd h (hpaid _ _)
  | paid =>
    cases q with
    | emoji e _ => exact absurd h.symm (hpaid _ _)
    | customEmoji id _ => exact absurd h.symm (hpaid _ _)
    | paid => rfl

theorem endpoint_injective : Function.Injective Reactor.endpoint := by
  intro r q h
  obtain ⟨hscope, hid⟩ := EndpointReference.mk.inj (show EndpointReference.mk r.endpoint.identityScope r.endpoint.externalId =
    EndpointReference.mk q.endpoint.identityScope q.endpoint.externalId from h)
  cases r with
  | user i =>
    cases q with
    | user j => exact congrArg Reactor.user (intText_injective hid)
    | actorChat j => exact absurd (show "telegram-user" = "telegram-chat" from hscope) (by decide)
  | actorChat i =>
    cases q with
    | user j => exact absurd (show "telegram-chat" = "telegram-user" from hscope) (by decide)
    | actorChat j => exact congrArg Reactor.actorChat (intText_injective hid)

theorem externalThreadId_injective : Function.Injective Conversation.externalThreadId := by
  have hmixed : ∀ i j : ℤ, ∀ t, intText i ++ (String.singleton ':' ++ t) ≠ intText j := fun i j t h =>
    colon_not_mem_intText j (h ▸ colon_mem (intText i) t)
  rintro ⟨i, thread⟩ ⟨j, thread'⟩ h
  cases thread with
  | none =>
    cases thread' with
    | none =>
      obtain rfl := intText_injective h
      rfl
    | some t => exact absurd h.symm (hmixed _ _ _)
  | some t =>
    cases thread' with
    | none => exact absurd h (hmixed _ _ _)
    | some t' =>
      obtain ⟨hchat, hrest⟩ := field_inj (colon_not_mem_intText i) (colon_not_mem_intText j) h
      obtain ⟨-, hthread⟩ := field_inj (by decide) (by decide) hrest
      obtain rfl := intText_injective hchat
      obtain rfl := intText_injective hthread
      rfl

theorem append_left_inj {p a b : String} (h : p ++ a = p ++ b) : a = b := by
  have hchars := congrArg String.toList h
  rw [String.toList_append, String.toList_append] at hchars
  exact String.toList_inj.mp (List.append_cancel_left hchars)

theorem message_inj {slot other : Slot} (h : slot.message = other.message) :
    slot.conversation = other.conversation ∧ slot.messageId = other.messageId := by
  obtain ⟨hscope, hid⟩ := MessageReference.mk.inj h
  exact ⟨externalThreadId_injective (append_left_inj hscope), toString_injective hid⟩

theorem slot_eq {slot other : Slot} (hmessage : slot.message = other.message)
    (hendpoint : slot.reactor.endpoint = other.reactor.endpoint) : slot = other := by
  obtain ⟨hconversation, hid⟩ := message_inj hmessage
  have hreactor := endpoint_injective hendpoint
  cases slot
  cases other
  dsimp only at hconversation hid hreactor
  rw [hconversation, hid, hreactor]

theorem colon_not_mem_endpoint (r : Reactor) :
    ':' ∉ r.endpoint.identityScope.toList ∧ ':' ∉ r.endpoint.externalId.toList := by
  cases r with
  | user i => exact ⟨show ':' ∉ "telegram-user".toList by decide, colon_not_mem_intText i⟩
  | actorChat i => exact ⟨show ':' ∉ "telegram-chat".toList by decide, colon_not_mem_intText i⟩

theorem colon_not_mem_toString (n : ℕ) : ':' ∉ (toString n).toList := fun h =>
  absurd (isDigit_toString n _ h) (by decide)

theorem rowOf_id_inj {slot other : Slot} {r q : TelegramReactionType}
    (h : (rowOf slot r).externalReactionId = (rowOf other q).externalReactionId) :
    slot.reactor = other.reactor ∧ slot.messageId = other.messageId ∧ r = q := by
  obtain ⟨hscope, h⟩ := field_inj (colon_not_mem_endpoint _).1 (colon_not_mem_endpoint _).1 h
  obtain ⟨hid, h⟩ := field_inj (colon_not_mem_endpoint _).2 (colon_not_mem_endpoint _).2 h
  obtain ⟨hmessage, hkey⟩ := field_inj (colon_not_mem_toString _) (colon_not_mem_toString _) h
  exact ⟨endpoint_injective (congrArg₂ EndpointReference.mk hscope hid), toString_injective hmessage,
    reactionKey_injective hkey⟩

theorem rowOf_injective (slot : Slot) : Function.Injective (rowOf slot) := fun _ _ h =>
  (rowOf_id_inj (congrArg ReactionRow.externalReactionId h)).2.2

/-! ### The changes of an update -/

theorem reactionCounts_eq (l : List TelegramReactionType) (k : String) :
    reactionCounts l k = (l.map reactionKey).count k := by
  suffices hfrom : ∀ counts : String → ℕ, l.foldl (fun counts r =>
      Function.update counts (reactionKey r) (counts (reactionKey r) + 1)) counts k =
        counts k + (l.map reactionKey).count k by
    exact (hfrom _).trans (Nat.zero_add _)
  induction l with
  | nil => exact fun _ => rfl
  | cons r l ih =>
    intro counts
    rw [List.foldl_cons, ih, List.map_cons, List.count_cons]
    by_cases hk : k = reactionKey r
    · subst hk
      rw [Function.update_self, if_pos (beq_self_eq_true _)]
      omega
    · rw [Function.update_of_ne hk, if_neg (by simpa using Ne.symm hk), Nat.add_zero]

theorem reactionCounts_key {l : List TelegramReactionType} (hl : l.Nodup) (r : TelegramReactionType) :
    reactionCounts l (reactionKey r) = if r ∈ l then 1 else 0 := by
  rw [reactionCounts_eq, List.count_map_of_injective l _ reactionKey_injective]
  by_cases hr : r ∈ l
  · rw [if_pos hr, List.count_eq_one_of_mem hl hr]
  · rw [if_neg hr, List.count_eq_zero_of_not_mem hr]

theorem setEntry_map (l : List TelegramReactionType) (r : TelegramReactionType) :
    setEntry (l.map fun r => (reactionKey r, r)) r =
      (if r ∈ l then l else l ++ [r]).map fun r => (reactionKey r, r) := by
  have hmem : ((l.map fun r => (reactionKey r, r)).map Prod.fst).contains (reactionKey r) = true ↔ r ∈ l := by
    rw [List.contains_iff_mem, List.map_map]
    constructor
    · intro h
      obtain ⟨q, hq, hkey⟩ := List.mem_map.mp h
      exact reactionKey_injective hkey ▸ hq
    · exact fun h => List.mem_map_of_mem h
  unfold setEntry
  by_cases hr : r ∈ l
  · rw [if_pos (hmem.mpr hr), if_pos hr, List.map_map]
    refine List.map_congr_left fun q _ => ?_
    dsimp only [Function.comp]
    split_ifs with hkey
    · rw [reactionKey_injective hkey]
    · rfl
  · rw [if_neg fun h => hr (hmem.mp h), if_neg hr, List.map_append]
    rfl

theorem foldl_setEntry {l : List TelegramReactionType} (hl : l.Nodup) (acc : List TelegramReactionType) :
    l.foldl setEntry (acc.map fun r => (reactionKey r, r)) =
      (acc ++ l.filter fun r => decide (r ∉ acc)).map fun r => (reactionKey r, r) := by
  induction l generalizing acc with
  | nil => simp
  | cons r l ih =>
    obtain ⟨hr, hl⟩ := List.nodup_cons.mp hl
    rw [List.foldl_cons, setEntry_map, ih hl]
    by_cases hmem : r ∈ acc
    · rw [if_pos hmem, List.filter_cons_of_neg (by simpa using hmem)]
    · rw [if_neg hmem, List.filter_cons_of_pos (by simpa using hmem), List.append_assoc, List.singleton_append]
      have hrest : (l.filter fun q => decide (q ∉ acc ++ [r])) = l.filter fun q => decide (q ∉ acc) :=
        List.filter_congr fun q hq => by
          have hne : q ≠ r := fun h => hr (h ▸ hq)
          simp [hne]
      rw [hrest]

theorem flatMap_unless {α β : Type} (p : α → Bool) (f : α → β) (l : List α) :
    (l.flatMap fun a => if p a then [] else [f a]) = (l.filter fun a => !p a).map f := by
  induction l with
  | nil => rfl
  | cons a l ih =>
    rw [List.flatMap_cons, ih]
    cases hp : p a <;> simp [hp]

theorem reactionChanges_eq {old new : List TelegramReactionType} (hold : old.Nodup) (hnew : new.Nodup) :
    reactionChanges old new = ((old.filter fun r => !decide (r ∈ new)).map fun r => (.delete, r)) ++
      ((new.filter fun r => !decide (r ∈ old)).map fun r => (.upsert, r)) := by
  have hdescriptors : allReactionDescriptors old new =
      (old ++ new.filter fun r => decide (r ∉ old)).map fun r => (reactionKey r, r) := by
    have hfirst := foldl_setEntry hold []
    rw [List.map_nil, List.nil_append, List.filter_eq_self.mpr fun r _ => by simp] at hfirst
    rw [allReactionDescriptors, List.foldl_append, hfirst, foldl_setEntry hnew]
  unfold reactionChanges
  rw [hdescriptors, List.map_append, List.flatMap_append, List.flatMap_map, List.flatMap_map]
  congr 1
  · rw [← flatMap_unless]
    refine List.flatMap_congr fun r hr => ?_
    simp only [reactionCounts_key hold, reactionCounts_key hnew, if_pos hr]
    by_cases hmem : r ∈ new <;> simp [hmem]
  · have hadded : ∀ l : List TelegramReactionType, (∀ r ∈ l, r ∈ new ∧ r ∉ old) → (l.flatMap fun r =>
        List.replicate ((reactionCounts new (reactionKey r) : ℤ) - reactionCounts old (reactionKey r)).natAbs
          (if 0 < (reactionCounts new (reactionKey r) : ℤ) - reactionCounts old (reactionKey r) then ReactionKind.upsert
            else .delete, r)) = l.map fun r => (.upsert, r) := fun l hl => by
      rw [List.map_eq_flatMap]
      refine List.flatMap_congr fun r hr => ?_
      simp only [reactionCounts_key hold, reactionCounts_key hnew, if_pos (hl r hr).1, if_neg (hl r hr).2]
      rfl
    refine Eq.trans (hadded _ fun r hr => ?_) (by simp)
    obtain ⟨hmem, hnot⟩ := List.mem_filter.mp hr
    exact ⟨hmem, of_decide_eq_true hnot⟩

/-! ### One change -/

def applyChange (slot : Slot) (s : ReactionStore) (change : ReactionKind × TelegramReactionType) : ReactionStore :=
  (applyReactionMutation change.1 (payload slot change.2) s).toOption.getD s

theorem receive_eq {u : ReactionUpdate} (hold : u.oldReaction.Nodup) (hnew : u.newReaction.Nodup) (s : ReactionStore) :
    receive s u = (u.newReaction.filter fun r => !decide (r ∈ u.oldReaction)).foldl
      (fun s r => applyChange u.slot s (.upsert, r))
      ((u.oldReaction.filter fun r => !decide (r ∈ u.newReaction)).foldl (fun s r => applyChange u.slot s (.delete, r)) s) := by
  have hindexed : ∀ l : List (ReactionKind × TelegramReactionType),
      (l.zipIdx.map (reactionEvent u)).foldl applyEvent s = l.foldl (applyChange u.slot) s := fun l => by
    conv_rhs => rw [← List.zipIdx_map_fst 0 l]
    rw [List.foldl_map, List.foldl_map]
    rfl
  unfold receive normalizeReaction
  rw [List.foldl_append]
  show (_ : List ChannelEvent).foldl applyEvent s = _
  rw [hindexed, reactionChanges_eq hold hnew, List.foldl_append, List.foldl_map, List.foldl_map]

/-- The rows are those of the reactions, all on stored messages. -/
structure Sound (s : ReactionStore) (l : Slot → List TelegramReactionType) : Prop where
  exact : Exact s l
  stored : ∀ row ∈ s.rows, row.message ∈ s.messages
  slotted : ∀ row ∈ s.rows, ∃ slot r, row = rowOf slot r

variable {s : ReactionStore} {l : Slot → List TelegramReactionType} {slot : Slot} {r : TelegramReactionType}

theorem Exact.mem_iff (h : Exact s l) : rowOf slot r ∈ s.rows ↔ r ∈ l slot := by
  have hat : rowOf slot r ∈ s.at slot ↔ rowOf slot r ∈ s.rows := by
    unfold ReactionStore.at
    rw [List.mem_filter]
    exact and_iff_left (decide_eq_true ⟨rfl, rfl⟩)
  rw [← hat, (h slot).mem_iff]
  exact ⟨fun hr => by
    obtain ⟨q, hq, heq⟩ := List.mem_map.mp hr
    exact rowOf_injective slot heq ▸ hq, fun hr => List.mem_map_of_mem hr⟩

theorem Sound.perm {l' : Slot → List TelegramReactionType} (h : Sound s l) (hperm : ∀ slot, (l slot).Perm (l' slot)) :
    Sound s l' :=
  ⟨fun slot => (h.exact slot).trans ((hperm slot).map _), h.stored, h.slotted⟩

theorem Sound.delete (h : Sound s l) (hr : r ∈ l slot) :
    (applyChange slot s (.delete, r)).messages = s.messages ∧
      Sound (applyChange slot s (.delete, r)) (Function.update l slot ((l slot).filter fun q => !decide (q = r))) := by
  have hmessage : slot.message ∈ s.messages := h.stored _ (h.exact.mem_iff.mpr hr)
  have happly : applyChange slot s (.delete, r) = { s with
      rows := s.rows.filter fun row => !decide (row.message = slot.message ∧
        row.externalReactionId = (rowOf slot r).externalReactionId) } := by
    unfold applyChange applyReactionMutation
    dsimp only
    rw [if_neg (show ¬ (payload slot r).message ∉ s.messages from not_not.mpr hmessage)]
    rfl
  rw [happly]
  refine ⟨rfl, fun other => ?_, fun row hrow => h.stored row (List.mem_filter.mp hrow).1,
    fun row hrow => h.slotted row (List.mem_filter.mp hrow).1⟩
  have hat := (h.exact other).filter fun row => !decide (row.message = slot.message ∧
    row.externalReactionId = (rowOf slot r).externalReactionId)
  unfold ReactionStore.at at hat ⊢
  rw [List.filter_comm]
  refine hat.trans (List.Perm.of_eq ?_)
  rw [List.filter_map]
  by_cases hother : other = slot
  · subst hother
    rw [Function.update_self]
    refine congrArg _ (List.filter_congr fun q _ => congrArg _ (decide_eq_decide.mpr ?_))
    exact ⟨fun hq => (rowOf_id_inj hq.2).2.2, fun hq => by rw [hq]; exact ⟨rfl, rfl⟩⟩
  · rw [Function.update_of_ne hother]
    refine congrArg _ (List.filter_eq_self.mpr fun q _ => ?_)
    have hnot : ¬ ((rowOf other q).message = slot.message ∧
        (rowOf other q).externalReactionId = (rowOf slot r).externalReactionId) := fun hq =>
      hother (slot_eq hq.1 (congrArg Reactor.endpoint (rowOf_id_inj hq.2).1))
    exact congrArg _ (decide_eq_false hnot)

/-- What the table lets in: the only reaction of its slot on a stored message. -/
structure Insertable (messages : List MessageReference) (l : Slot → List TelegramReactionType) (slot : Slot)
    (r : TelegramReactionType) : Prop where
  message : slot.message ∈ messages
  width : (reactionDisplayValue r).length ≤ emojiWidth
  elsewhere : ∀ other, other.messageId = slot.messageId → other.reactor = slot.reactor → r ∉ l other
  alone : ∀ other, other.message = slot.message →
    other.reactor.endpoint.externalId = slot.reactor.endpoint.externalId → l other = []

theorem Sound.any_id (h : Sound s l) : (s.rows.any fun row => row.externalReactionId =
    (payload slot r).externalReactionId) = true ↔
      ∃ other, other.messageId = slot.messageId ∧ other.reactor = slot.reactor ∧ r ∈ l other := by
  rw [List.any_eq_true]
  constructor
  · rintro ⟨row, hrow, hid⟩
    obtain ⟨other, q, rfl⟩ := h.slotted row hrow
    obtain ⟨hreactor, hmessage, rfl⟩ := rowOf_id_inj (of_decide_eq_true hid : (rowOf other q).externalReactionId =
      (rowOf slot r).externalReactionId)
    exact ⟨other, hmessage, hreactor, h.exact.mem_iff.mp hrow⟩
  · rintro ⟨other, hmessage, hreactor, hr⟩
    refine ⟨rowOf other r, h.exact.mem_iff.mpr hr, decide_eq_true ?_⟩
    show externalReactionId other.reactor.endpoint _ r = externalReactionId slot.reactor.endpoint _ r
    rw [hmessage, hreactor]

theorem Sound.any_jid (h : Sound s l) : (s.rows.any fun row => row.message = slot.message ∧
    row.reactorJid = slot.reactor.endpoint.externalId) = true ↔ ∃ other, other.message = slot.message ∧
      other.reactor.endpoint.externalId = slot.reactor.endpoint.externalId ∧ l other ≠ [] := by
  rw [List.any_eq_true]
  constructor
  · rintro ⟨row, hrow, hkeys⟩
    obtain ⟨other, q, rfl⟩ := h.slotted row hrow
    obtain ⟨hmessage, hjid⟩ := of_decide_eq_true hkeys
    exact ⟨other, hmessage, hjid, List.ne_nil_of_mem (h.exact.mem_iff.mp hrow)⟩
  · rintro ⟨other, hmessage, hjid, hne⟩
    obtain ⟨q, hq⟩ := List.exists_mem_of_ne_nil _ hne
    exact ⟨rowOf other q, h.exact.mem_iff.mpr hq, decide_eq_true ⟨hmessage, hjid⟩⟩

theorem Sound.rewrite (h : Sound s l) : (s.rows.map fun row => if row.externalReactionId =
    (payload slot r).externalReactionId then { row with emoji := (payload slot r).emoji } else row) = s.rows := by
  refine (List.map_congr_left fun row hrow => ?_).trans (List.map_id _)
  split_ifs with hid
  · obtain ⟨other, q, rfl⟩ := h.slotted row hrow
    obtain ⟨-, -, rfl⟩ := rowOf_id_inj (hid : (rowOf other q).externalReactionId = (rowOf slot r).externalReactionId)
    rfl
  · rfl

theorem Sound.insert (h : Sound s l) (hin : Insertable s.messages l slot r) :
    (applyChange slot s (.upsert, r)).messages = s.messages ∧
      Sound (applyChange slot s (.upsert, r)) (Function.update l slot [r]) := by
  have hid : ¬ (s.rows.any fun row => row.externalReactionId = (payload slot r).externalReactionId) = true := fun hany => by
    obtain ⟨other, hmessage, hreactor, hr⟩ := h.any_id.mp hany
    exact hin.elsewhere other hmessage hreactor hr
  have hjid : ¬ (s.rows.any fun row => row.message = slot.message ∧
      row.reactorJid = slot.reactor.endpoint.externalId) = true := fun hany => by
    obtain ⟨other, hmessage, hjid, hne⟩ := h.any_jid.mp hany
    exact hne (hin.alone other hmessage hjid)
  have hinsert : insertRow (rowOf slot r) s = .ok { s with rows := s.rows ++ [rowOf slot r] } := by
    unfold insertRow
    rw [if_neg (show ¬ emojiWidth < (rowOf slot r).emoji.length from Nat.not_lt.mpr hin.width)]
    exact if_neg hjid
  have happly : applyChange slot s (.upsert, r) = { s with rows := s.rows ++ [rowOf slot r] } := by
    unfold applyChange applyReactionMutation
    dsimp only
    rw [if_neg (show ¬ (payload slot r).message ∉ s.messages from not_not.mpr hin.message), if_neg hid]
    exact congrArg (fun answer => answer.toOption.getD s) hinsert
  rw [happly]
  refine ⟨rfl, fun other => ?_, fun row hrow => ?_, fun row hrow => ?_⟩
  · unfold ReactionStore.at
    rw [List.filter_append]
    by_cases hother : other = slot
    · subst hother
      have hnone := h.exact other
      rw [hin.alone other rfl rfl, List.map_nil] at hnone
      have hself : ([rowOf other r].filter fun row => decide (row.message = other.message ∧
          row.reactorEndpoint = other.reactor.endpoint)) = [rowOf other r] :=
        List.filter_eq_self.mpr fun row hrow => by
          rw [List.mem_singleton.mp hrow]
          exact decide_eq_true ⟨rfl, rfl⟩
      rw [Function.update_self, show s.rows.filter _ = [] from hnone.eq_nil, List.nil_append, hself]
      exact .refl _
    · rw [Function.update_of_ne hother, List.filter_cons_of_neg, List.filter_nil, List.append_nil]
      · exact h.exact other
      · intro hkeys
        obtain ⟨hmessage, hendpoint⟩ := of_decide_eq_true hkeys
        exact hother (slot_eq hmessage hendpoint).symm
  · rcases List.mem_append.mp hrow with hrow | hrow
    · exact h.stored row hrow
    · rw [List.mem_singleton.mp hrow]
      exact hin.message
  · rcases List.mem_append.mp hrow with hrow | hrow
    · exact h.slotted row hrow
    · exact ⟨slot, r, List.mem_singleton.mp hrow⟩

theorem Sound.refused (h : Sound s l) (hin : ¬ Insertable s.messages l slot r) :
    applyChange slot s (.upsert, r) = s := by
  unfold applyChange applyReactionMutation
  by_cases hmessage : (payload slot r).message ∉ s.messages
  · rw [if_pos hmessage]
    rfl
  rw [if_neg hmessage]
  dsimp only
  split_ifs with hid hwide
  · rfl
  · show { s with rows := s.rows.map fun row => _ } = s
    rw [h.rewrite]
  · unfold insertRow
    split_ifs with hwide hjid
    · rfl
    · rfl
    · refine absurd ⟨not_not.mp hmessage, Nat.not_lt.mp hwide, fun other hm hr hmem => ?_, fun other hm hr => ?_⟩ hin
      · exact hid (h.any_id.mpr ⟨other, hm, hr, hmem⟩)
      · exact by_contra fun hne => hjid (h.any_jid.mpr ⟨other, hm, hr, hne⟩)

/-! ### One update -/

theorem Sound.deletes (h : Sound s l) {gone : List TelegramReactionType} (hgone : gone.Nodup) (hl : ∀ r ∈ gone, r ∈ l slot) :
    (gone.foldl (fun s r => applyChange slot s (.delete, r)) s).messages = s.messages ∧
      Sound (gone.foldl (fun s r => applyChange slot s (.delete, r)) s)
        (Function.update l slot ((l slot).filter fun q => !decide (q ∈ gone))) := by
  induction gone generalizing s l with
  | nil => exact ⟨rfl, h.perm fun other => by
      by_cases hother : other = slot
      · subst hother
        simp
      · rw [Function.update_of_ne hother]⟩
  | cons r gone ih =>
    obtain ⟨hr, hgone⟩ := List.nodup_cons.mp hgone
    obtain ⟨hmessages, hdeleted⟩ := h.delete (hl r List.mem_cons_self)
    obtain ⟨hmessages', hsound⟩ := ih hdeleted hgone fun q hq => by
      rw [Function.update_self, List.mem_filter]
      exact ⟨hl q (List.mem_cons_of_mem r hq), by simpa using fun heq : q = r => hr (heq ▸ hq)⟩
    refine ⟨hmessages'.trans hmessages, ?_⟩
    rw [Function.update_self, Function.update_idem, List.filter_filter] at hsound
    refine hsound.perm fun other => List.Perm.of_eq (congrFun (congrArg _ (List.filter_congr fun q _ => ?_)) other)
    simp [Bool.and_comm]

theorem Sound.blocked (h : Sound s l) (hne : l slot ≠ []) (added : List TelegramReactionType) :
    added.foldl (fun s r => applyChange slot s (.upsert, r)) s = s := by
  induction added with
  | nil => rfl
  | cons r added ih =>
    rw [List.foldl_cons, h.refused fun hin => hne (hin.alone slot rfl rfl)]
    exact ih

theorem Sound.added_subset (h : Sound s l) (added : List TelegramReactionType) :
    ∃ l', Sound (added.foldl (fun s r => applyChange slot s (.upsert, r)) s) l' ∧ l' slot ⊆ l slot ++ added := by
  induction added generalizing s l with
  | nil => exact ⟨l, h, fun _ hq => List.mem_append_left _ hq⟩
  | cons r added ih =>
    by_cases hin : Insertable s.messages l slot r
    · obtain ⟨l', hl', hsub⟩ := ih (h.insert hin).2
      refine ⟨l', hl', fun q hq => ?_⟩
      have hq := hsub hq
      rw [Function.update_self] at hq
      exact List.mem_append_right _ hq
    · rw [List.foldl_cons, h.refused hin]
      obtain ⟨l', hl', hsub⟩ := ih h
      refine ⟨l', hl', fun q hq => ?_⟩
      rcases List.mem_append.mp (hsub hq) with hq | hq
      · exact List.mem_append_left _ hq
      · exact List.mem_append_right _ (List.mem_cons_of_mem r hq)

variable {u : ReactionUpdate}

/-- For an update that adds `r` to a slot, the table lets it in after the deletions exactly when the update fits. -/
theorem insertable_iff {messages : List MessageReference} (hnot : r ∉ l u.slot) :
    Insertable messages (Function.update l u.slot ((l u.slot).filter fun q => decide (q ∈ u.newReaction))) u.slot r ↔
      (l u.slot).filter (fun q => decide (q ∈ u.newReaction)) = [] ∧ u.slot.message ∈ messages ∧
        (reactionDisplayValue r).length ≤ emojiWidth ∧
        (∀ other, other.messageId = u.slot.messageId → other.reactor = u.slot.reactor → r ∉ l other) ∧
        ∀ other, other.message = u.slot.message →
          other.reactor.endpoint.externalId = u.slot.reactor.endpoint.externalId → other ≠ u.slot → l other = [] := by
  constructor
  · intro hin
    refine ⟨?_, hin.message, hin.width, fun other hm hreactor => ?_, fun other hm hjid hne => ?_⟩
    · have halone := hin.alone u.slot rfl rfl
      rwa [Function.update_self] at halone
    · by_cases hother : other = u.slot
      · exact hother ▸ hnot
      · have helsewhere := hin.elsewhere other hm hreactor
        rwa [Function.update_of_ne hother] at helsewhere
    · have halone := hin.alone other hm hjid
      rwa [Function.update_of_ne hne] at halone
  · rintro ⟨hempty, hmessage, hwidth, helsewhere, halone⟩
    refine ⟨hmessage, hwidth, fun other hm hreactor => ?_, fun other hm hjid => ?_⟩
    · by_cases hother : other = u.slot
      · subst hother
        rw [Function.update_self, hempty]
        exact List.not_mem_nil
      · rw [Function.update_of_ne hother]
        exact helsewhere other hm hreactor
    · by_cases hother : other = u.slot
      · subst hother
        rw [Function.update_self, hempty]
      · rw [Function.update_of_ne hother]
        exact halone other hm hjid hother

theorem Sound.receive_iff (h : Sound s l) (hold : u.oldReaction = l u.slot) (hnodup : u.oldReaction.Nodup)
    (hnew : u.newReaction.Nodup) :
    (Exact (receive s u) (Function.update l u.slot u.newReaction) ↔ Fits s.messages l u) ∧ (Fits s.messages l u →
      (receive s u).messages = s.messages ∧ Sound (receive s u) (Function.update l u.slot u.newReaction)) := by
  rw [receive_eq hnodup hnew]
  obtain ⟨hmessages, hs⟩ := @Sound.deletes _ _ u.slot h _ (hnodup.filter fun r => !decide (r ∈ u.newReaction))
    fun r hr => hold ▸ (List.mem_filter.mp hr).1
  set t := (u.oldReaction.filter fun r => !decide (r ∈ u.newReaction)).foldl
    (fun s r => applyChange u.slot s (.delete, r)) s
  have hkept : ((l u.slot).filter fun q => !decide (q ∈ u.oldReaction.filter fun r => !decide (r ∈ u.newReaction))) =
      (l u.slot).filter fun q => decide (q ∈ u.newReaction) :=
    List.filter_congr fun q hq => by
      have hq : q ∈ u.oldReaction := hold ▸ hq
      simp [hq]
  rw [hkept] at hs
  cases hadded : u.newReaction.filter fun r => !decide (r ∈ u.oldReaction) with
  | nil =>
    have hmem : ∀ r ∈ u.newReaction, r ∈ u.oldReaction := fun r hr => by
      have hall := List.filter_eq_nil_iff.mp hadded r hr
      simpa using hall
    have hsound : Sound t (Function.update l u.slot u.newReaction) := hs.perm fun other => by
      by_cases hother : other = u.slot
      · subst hother
        rw [Function.update_self, Function.update_self, ← hold]
        refine (List.perm_ext_iff_of_nodup (hnodup.filter _) hnew).mpr fun q => ?_
        rw [List.mem_filter, decide_eq_true_eq]
        exact and_iff_right_of_imp (hmem q)
      · rw [Function.update_of_ne hother, Function.update_of_ne hother]
    exact ⟨iff_of_true hsound.exact fun r hr hnot => absurd (hmem r hr) hnot, fun _ => ⟨hmessages, hsound⟩⟩
  | cons r added =>
    have hfilter : ∀ q, q ∈ r :: added ↔ q ∈ u.newReaction ∧ q ∉ u.oldReaction := fun q => by
      rw [← hadded, List.mem_filter, Bool.not_eq_true', decide_eq_false_iff_not]
    obtain ⟨hr, hnot⟩ := (hfilter r).mp List.mem_cons_self
    have hrnodup := (List.nodup_cons.mp (hadded ▸ hnew.filter fun r => !decide (r ∈ u.oldReaction))).1
    have hin := @insertable_iff l r u t.messages (hold ▸ hnot)
    rw [List.foldl_cons]
    by_cases hlet : Insertable t.messages (Function.update l u.slot
        ((l u.slot).filter fun q => decide (q ∈ u.newReaction))) u.slot r
    · obtain ⟨hempty, hmessage, hwidth, helsewhere, halone⟩ := hin.mp hlet
      obtain ⟨hmessages', hone⟩ := hs.insert hlet
      rw [Function.update_idem] at hone
      rw [hone.blocked (by rw [Function.update_self]; exact List.cons_ne_nil _ _)]
      have hsingle : u.newReaction = [r] ↔ (u.newReaction).length = 1 := by
        refine ⟨fun heq => by rw [heq]; rfl, fun hlen => ?_⟩
        obtain ⟨q, hq⟩ := List.length_eq_one_iff.mp hlen
        rw [hq] at hr ⊢
        rw [List.mem_singleton.mp hr]
      have hfits : u.newReaction = [r] → Fits s.messages l u := fun heq q hq hq' => by
        rw [heq] at hq
        obtain rfl := List.mem_singleton.mp hq
        exact ⟨heq, hmessages ▸ hmessage, hwidth, helsewhere, halone⟩
      refine ⟨⟨fun hexact => hfits (hsingle.mpr ?_), fun hfit => ?_⟩, fun hfit => ⟨hmessages'.trans hmessages, ?_⟩⟩
      · have hlen := ((hone.exact u.slot).symm.trans (hexact u.slot)).length_eq
        rw [Function.update_self, Function.update_self, List.length_map, List.length_map] at hlen
        exact hlen.symm
      · rw [(hfit r hr hnot).1]
        exact hone.exact
      · rw [(hfit r hr hnot).1]
        exact hone
    · rw [hs.refused hlet]
      obtain ⟨l', hl', hsub⟩ := @Sound.added_subset _ _ u.slot hs added
      have hfits : ¬ Fits s.messages l u := fun hfit => by
        obtain ⟨heq, hmessage, hwidth, helsewhere, halone⟩ := hfit r hr hnot
        refine hlet (hin.mpr ⟨List.filter_eq_nil_iff.mpr fun q hq hmem => ?_, hmessages.symm ▸ hmessage, hwidth, helsewhere,
          halone⟩)
        rw [heq] at hmem
        exact hnot (hold ▸ List.mem_singleton.mp (of_decide_eq_true hmem) ▸ hq)
      refine ⟨iff_of_false (fun hexact => ?_) hfits, fun hfit => absurd hfit hfits⟩
      -- the refused reaction is not among the rows
      have hrow := hexact.mem_iff.mpr (show r ∈ Function.update l u.slot u.newReaction u.slot by
        rw [Function.update_self]
        exact hr)
      have hmem := hsub (hl'.exact.mem_iff.mp hrow)
      rw [Function.update_self] at hmem
      rcases List.mem_append.mp hmem with hmem | hmem
      · exact hnot (hold ▸ (List.mem_filter.mp hmem).1)
      · exact hrnodup hmem

/-! ### The events of an update -/

theorem eventIds_nodup (u : ReactionUpdate) : ((normalizeReaction u).map ChannelEvent.eventId).Nodup := by
  have hcolon : ∀ kind : ReactionKind, ':' ∉ kind.text.toList := fun kind => by
    cases kind <;> decide
  have hreference : ∀ t : String, ':' ∉ t.toList → ∀ change,
      updatePrefix u ++ t ≠ (reactionEvent u change).eventId := fun t ht change h =>
    ht (append_left_inj h ▸ colon_mem _ _)
  unfold normalizeReaction referenceEvents
  rw [List.map_append, List.nodup_append]
  refine ⟨?_, ?_, ?_⟩
  · have hne : updatePrefix u ++ "endpoint.upsert" ≠ updatePrefix u ++ "conversation.upsert" := fun h =>
      absurd (append_left_inj h) (by decide)
    exact List.nodup_cons.mpr ⟨fun hmem => hne (List.mem_singleton.mp hmem), List.nodup_singleton _⟩
  · rw [List.map_map]
    refine (List.pairwise_map.mp (List.nodup_zipIdx_map_snd _)).map _ fun change other hne h => hne ?_
    exact toString_injective (field_inj (hcolon _) (hcolon _) (append_left_inj h)).2
  · intro id hid id' hid'
    obtain ⟨e, he, rfl⟩ := List.mem_map.mp hid'
    obtain ⟨change, -, rfl⟩ := List.mem_map.mp he
    simp only [List.map_cons, List.map_nil, List.mem_cons, List.not_mem_nil, or_false] at hid
    rcases hid with rfl | rfl
    · exact hreference _ (by decide) change
    · exact hreference _ (by decide) change

theorem unchanged_of_both {u : ReactionUpdate} (hold : u.oldReaction.Nodup) (hnew : u.newReaction.Nodup)
    {r : TelegramReactionType} (hr : r ∈ u.oldReaction) (hr' : r ∈ u.newReaction) {e : ChannelEvent}
    (he : e ∈ normalizeReaction u) {kind : ReactionKind} {p : ReactionEventPayload} (hbody : e.body = .reaction kind p) :
    p.externalReactionId ≠ (payload u.slot r).externalReactionId := by
  rcases List.mem_append.mp he with he | he
  · simp only [referenceEvents, List.mem_cons, List.not_mem_nil, or_false] at he
    rcases he with rfl | rfl <;> cases hbody
  · obtain ⟨change, hchange, rfl⟩ := List.mem_map.mp he
    obtain ⟨-, rfl⟩ := ChannelEventBody.reaction.inj hbody
    intro hid
    have hq : change.1.2 = r := (rowOf_id_inj (hid : (rowOf u.slot change.1.2).externalReactionId =
      (rowOf u.slot r).externalReactionId)).2.2
    have hmem := List.mem_map_of_mem (f := Prod.fst) hchange
    rw [List.zipIdx_map_fst, reactionChanges_eq hold hnew] at hmem
    rcases List.mem_append.mp hmem with hmem | hmem
    · obtain ⟨q, hq', heq⟩ := List.mem_map.mp hmem
      have hnot := (List.mem_filter.mp hq').2
      rw [show q = r from (congrArg Prod.snd heq).trans hq] at hnot
      simp [hr'] at hnot
    · obtain ⟨q, hq', heq⟩ := List.mem_map.mp hmem
      have hnot := (List.mem_filter.mp hq').2
      rw [show q = r from (congrArg Prod.snd heq).trans hq] at hnot
      simp [hr] at hnot

/-! ### Every history -/

theorem received_concat (messages : List MessageReference) (us : List ReactionUpdate) (u : ReactionUpdate) :
    received messages (us ++ [u]) = receive (received messages us) u := by
  rw [received, List.foldl_append]
  rfl

theorem latest_concat (us : List ReactionUpdate) (u : ReactionUpdate) :
    latest (us ++ [u]) = Function.update (latest us) u.slot u.newReaction := by
  rw [latest, List.foldl_append]
  rfl

theorem received_sound {messages : List MessageReference} {us : List ReactionUpdate} (hus : Consecutive us)
    (hfits : ∀ before u after, us = before ++ u :: after → Fits messages (latest before) u) :
    (received messages us).messages = messages ∧ Sound (received messages us) (latest us) := by
  induction us using List.reverseRecOn with
  | nil => exact ⟨rfl, fun _ => .refl _, nofun, nofun⟩
  | append_singleton us u ih =>
    obtain ⟨hmessages, hsound⟩ := ih
      (fun before v after h => hus before v (after ++ [u]) (by rw [h, List.append_assoc]; rfl))
      (fun before v after h => hfits before v (after ++ [u]) (by rw [h, List.append_assoc]; rfl))
    obtain ⟨hold, hnodup, hnew⟩ := hus us u [] rfl
    obtain ⟨hmessages', hsound'⟩ := (hsound.receive_iff hold hnodup hnew).2 (hmessages.symm ▸ hfits us u [] rfl)
    rw [received_concat, latest_concat]
    exact ⟨hmessages'.trans hmessages, hsound'⟩

/-- **Reactions are applied exactly as long as every update fits.** -/
theorem reactions_exact_iff (messages : List MessageReference) (us : List ReactionUpdate) (hus : Consecutive us) :
    AppliedExactly messages us ↔
      ∀ before u after, us = before ++ u :: after → Fits messages (latest before) u := by
  constructor
  · intro happlied
    suffices hall : ∀ n, ∀ before u after, us = before ++ u :: after → before.length < n → Fits messages (latest before) u from
      fun before u after h => hall _ before u after h (Nat.lt_succ_self _)
    intro n
    induction n with
    | zero => exact fun _ _ _ _ hlt => absurd hlt (Nat.not_lt_zero _)
    | succ n ih =>
      intro before u after h hlt
      have hbefore : Consecutive before := fun b v a hb =>
        hus b v (a ++ u :: after) (by rw [h, hb, List.append_assoc]; rfl)
      obtain ⟨hmessages, hsound⟩ := @received_sound messages before hbefore fun b v a hb =>
        ih b v (a ++ u :: after) (by rw [h, hb, List.append_assoc]; rfl) (by
          rw [hb, List.length_append, List.length_cons] at hlt
          omega)
      obtain ⟨hold, hnodup, hnew⟩ := hus before u after h
      have hexact := happlied.exact (before ++ [u]) after (by rw [h, List.append_assoc]; rfl)
      rw [received_concat, latest_concat] at hexact
      exact hmessages ▸ (hsound.receive_iff hold hnodup hnew).1.mp hexact
  · intro hfits
    refine ⟨fun before after h => ?_, fun u _ => eventIds_nodup u, fun u hu r hr hr' e he kind p hbody => ?_⟩
    · refine (received_sound (fun b v a hb => hus b v (a ++ after) ?_) fun b v a hb => hfits b v (a ++ after) ?_).2.exact
      · rw [h, hb, List.append_assoc]
        rfl
      · rw [h, hb, List.append_assoc]
        rfl
    · obtain ⟨before, after, h⟩ := List.append_of_mem hu
      obtain ⟨-, hold, hnew⟩ := hus before u after h
      exact unchanged_of_both hold hnew hr hr' he hbody

/-! ### Examples -/

theorem forall_split_cons {α : Type} {P : List α → α → Prop} {a : α} {l : List α} (ha : P [] a)
    (hl : ∀ before u after, l = before ++ u :: after → P (a :: before) u) :
    ∀ before u after, a :: l = before ++ u :: after → P before u := by
  intro before u after h
  cases before with
  | nil =>
    obtain ⟨rfl, -⟩ := List.cons.inj h
    exact ha
  | cons b before =>
    obtain ⟨rfl, hrest⟩ := List.cons.inj h
    exact hl before u after hrest

theorem forall_split_nil {α : Type} {P : List α → α → Prop} :
    ∀ before u after, ([] : List α) = before ++ u :: after → P before u := fun before u after h => by
  cases before <;> cases h

def thumbsUp : TelegramReactionType := .emoji "👍" (by decide)

def heart : TelegramReactionType := .emoji "❤" (by decide)

def seventh (chatId : ℤ) : Slot := ⟨⟨chatId, none⟩, 7, .user 5⟩

def oneChat : List ReactionUpdate := [⟨1, seventh 10, [], [thumbsUp]⟩, ⟨2, seventh 10, [thumbsUp], [heart]⟩]

theorem reactions_exact_one_chat : AppliedExactly [(seventh 10).message] oneChat := by
  refine (reactions_exact_iff _ oneChat ?_).mpr ?_
  · exact forall_split_cons ⟨rfl, by decide, by decide⟩
      (forall_split_cons ⟨by decide, by decide, by decide⟩ forall_split_nil)
  · refine forall_split_cons (fun r hr _ => ?_) (forall_split_cons (fun r hr _ => ?_) forall_split_nil)
    · obtain rfl := List.mem_singleton.mp hr
      exact ⟨rfl, List.mem_singleton_self _, by decide, fun _ _ _ => List.not_mem_nil, fun _ _ _ _ => rfl⟩
    · obtain rfl := List.mem_singleton.mp hr
      refine ⟨rfl, List.mem_singleton_self _, by decide, fun other _ _ => ?_, fun other _ _ hne => ?_⟩
      · show heart ∉ Function.update (fun _ => []) (seventh 10) [thumbsUp] other
        by_cases hother : other = seventh 10
        · rw [hother, Function.update_self]
          decide
        · rw [Function.update_of_ne hother]
          exact List.not_mem_nil
      · show Function.update (fun _ => []) (seventh 10) [thumbsUp] other = []
        exact Function.update_of_ne hne _ _

/-- The same user puts a thumb up on message 7 of two chats. -/
def twoChats : List ReactionUpdate := [⟨1, seventh 10, [], [thumbsUp]⟩, ⟨2, seventh 20, [], [thumbsUp]⟩]

/-- The second one is lost. -/
theorem second_chat_reaction_lost :
    Consecutive twoChats ∧ ¬ AppliedExactly [(seventh 10).message, (seventh 20).message] twoChats := by
  refine ⟨forall_split_cons ⟨rfl, by decide, by decide⟩
    (forall_split_cons ⟨by decide, by decide, by decide⟩ forall_split_nil), fun happlied => ?_⟩
  have hlen := (happlied.exact twoChats [] rfl (seventh 20)).length_eq
  have hnone : ((received [(seventh 10).message, (seventh 20).message] twoChats).at (seventh 20)).length = 0 := by
    decide +kernel
  rw [hnone, List.length_map] at hlen
  exact absurd hlen (by decide)

end TeamInbox.Reactions
