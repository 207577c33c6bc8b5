import TeamInbox.Lib.Calls
import Mathlib.Data.List.Perm.Subperm
import Mathlib.Data.List.Nodup
import Mathlib.Tactic.Cases

/-!
# TeamInbox.Worker.GroupRefresh — group refreshes, coalesced and capped

`handleGroupInfo` and `scheduleGroupRefresh` with the goroutine it starts, as calls over the state of one handler.  A
section under `groupRefreshMu` is one step; between two of them other calls run.  `groupRefreshSlots` is a channel: a
send takes a slot, a receive gives one back.

For the record, a state keeps whose values lie in the channel, and what happened (latest first): a call that names a
group, a refresh that starts.
-/

namespace TeamInbox.Worker

open TeamInbox.Lib

variable {JID κ : Type} [DecidableEq κ]

/-- What the handler asks of a `types.JID`. -/
structure GroupIds (JID κ : Type) where
  isEmpty : JID → Bool
  /-- `ToNonAD().String()`. -/
  key : JID → κ

inductive RefreshEvent (κ : Type)
  | asked (key : κ)
  | started (key : κ)
  deriving DecidableEq

structure RefreshState (κ : Type) where
  groupRefreshPending : κ → Option Bool
  /-- The capacity of `groupRefreshSlots`; a handler built without `New` has no channel. -/
  slots : Option ℕ
  used : ℕ
  holders : List ℕ
  history : List (RefreshEvent κ)

namespace RefreshState

def new (slots : Option ℕ) : RefreshState κ where
  groupRefreshPending _ := none
  slots := slots
  used := 0
  holders := []
  history := []

def mark (key : κ) (queued : Option Bool) (w : RefreshState κ) : RefreshState κ :=
  { w with
    groupRefreshPending := Function.update w.groupRefreshPending key queued }

def record (e : RefreshEvent κ) (w : RefreshState κ) : RefreshState κ :=
  { w with
    history := e :: w.history }

/-- `groupRefreshSlots <- struct{}{}`. -/
def send (p : ℕ) (w : RefreshState κ) : Option (RefreshState κ) :=
  match w.slots with
  | none => some w
  | some n =>
    if w.used < n then
      some { w with
        used := w.used + 1
        holders := p :: w.holders }
    else none

/-- `<-groupRefreshSlots`. -/
def receive (p : ℕ) (w : RefreshState κ) : Option (RefreshState κ) :=
  match w.slots with
  | none => some w
  | some _ =>
    if 0 < w.used then
      some { w with
        used := w.used - 1
        holders := w.holders.erase p }
    else none

end RefreshState

/-- Where a call stands; it goes on as the goroutine. -/
inductive RefreshStage (JID : Type)
  | idle
  | acquiring (groupJID : JID)
  | acquired (groupJID : JID)
  | refreshing (groupJID : JID)
  | refreshed (groupJID : JID)
  /-- The slot is given back, `groupRefreshMu` is next. -/
  | deciding (groupJID : JID)
  deriving DecidableEq

inductive RefreshAction (JID : Type)
  | groupInfo (publisher : Bool) (evt : Option JID) (selfLeaving : Bool)
  | next
  deriving DecidableEq

variable (ids : GroupIds JID κ)

/-- The section of `scheduleGroupRefresh`. -/
def scheduleGroupRefresh (groupJID : JID) (w : RefreshState κ) : RefreshState κ × RefreshStage JID :=
  if ids.isEmpty groupJID then (w, .idle)
  else
    let key := ids.key groupJID
    let w := w.record (.asked key)
    match w.groupRefreshPending key with
    | some queued => (if queued then w else w.mark key (some true), .idle)
    | none => (w.mark key (some false), .acquiring groupJID)

/-- The group that a live change names, unless the account itself leaves it. -/
def handleGroupInfo (publisher : Bool) (evt : Option JID) (selfLeaving : Bool) : Option JID :=
  if publisher = false ∨ selfLeaving = true then none else evt

/-- One step of the call `p`. -/
def refreshAct (p : ℕ) (w : RefreshState κ) (x : RefreshStage JID) (a : RefreshAction JID) :
    Option (RefreshState κ × RefreshStage JID) :=
  match x, a with
  | .idle, .groupInfo publisher evt selfLeaving =>
    match handleGroupInfo publisher evt selfLeaving with
    | none => some (w, .idle)
    | some groupJID => some (scheduleGroupRefresh ids groupJID w)
  | .acquiring g, .next => (w.send p).map fun w => (w, .acquired g)
  | .acquired g, .next => some (w.record (.started (ids.key g)), .refreshing g)
  | .refreshing g, .next => some (w, .refreshed g)
  | .refreshed g, .next => (w.receive p).map fun w => (w, .deciding g)
  | .deciding g, .next =>
    if (w.groupRefreshPending (ids.key g)).getD false then some (w.mark (ids.key g) (some false), .acquiring g)
    else some (w.mark (ids.key g) none, .idle)
  | _, _ => none

def refreshMachine : Machine (RefreshState κ) (RefreshStage JID) (RefreshAction JID) Empty where
  act := refreshAct ids
  env e _ := e.elim

abbrev RefreshCalls (JID κ : Type) := Calls (RefreshState κ) (RefreshStage JID)

namespace RefreshStage

def group : RefreshStage JID → Option JID
  | .idle => none
  | .acquiring g | .acquired g | .refreshing g | .refreshed g | .deciding g => some g

def key (x : RefreshStage JID) : Option κ := x.group.map ids.key

def holdsSlot : RefreshStage JID → Bool
  | .acquired _ | .refreshing _ | .refreshed _ => true
  | _ => false

def refreshes : RefreshStage JID → Bool
  | .refreshing _ => true
  | _ => false

/-- The next refresh of the goroutine has not started. -/
def waits : RefreshStage JID → Bool
  | .acquiring _ | .acquired _ => true
  | _ => false

end RefreshStage

/-- A goroutine of the group has a refresh to start. -/
def Awaits (s : RefreshCalls JID κ) (k : κ) : Prop :=
  ∃ p, (s.calls p).key ids = some k ∧ ((s.calls p).waits = true ∨ s.shared.groupRefreshPending k = some true)

/-- One goroutine for each key in the map, and none for another. -/
structure RefreshLanes (s : RefreshCalls JID κ) : Prop where
  one : ∀ p q k, (s.calls p).key ids = some k → (s.calls q).key ids = some k → q = p
  entry : ∀ k, s.shared.groupRefreshPending k ≠ none ↔ ∃ p, (s.calls p).key ids = some k

structure RefreshSlots (s : RefreshCalls JID κ) : Prop where
  nodup : s.shared.holders.Nodup
  holds : ∀ p, s.shared.slots ≠ none → (p ∈ s.shared.holders ↔ (s.calls p).holdsSlot = true)
  count : s.shared.used = s.shared.holders.length
  capped : ∀ n, s.shared.slots = some n → s.shared.used ≤ n

/-- Every call is followed by the start of a refresh, or a refresh is still to start. -/
def Followed (s : RefreshCalls JID κ) : Prop :=
  ∀ later earlier k, s.shared.history = later ++ .asked k :: earlier → .started k ∈ later ∨ Awaits ids s k

structure RefreshInv (s : RefreshCalls JID κ) : Prop where
  lanes : RefreshLanes ids s
  slots : RefreshSlots s
  followed : Followed ids s

variable {ids} {p : ℕ} {s : RefreshCalls JID κ} {w w' : RefreshState κ} {x x' y : RefreshStage JID}
  {a : RefreshAction JID} {k : κ}

/-! ### The moves of a call -/

/-- What the call `p` can do. -/
inductive RefreshMove (ids : GroupIds JID κ) (p : ℕ) (w : RefreshState κ) :
    RefreshStage JID → RefreshAction JID → RefreshState κ → RefreshStage JID → Prop
  | ignore (a : RefreshAction JID) : RefreshMove ids p w .idle a w .idle
  | queue (g : JID) (a : RefreshAction JID) (h : w.groupRefreshPending (ids.key g) ≠ none) :
      RefreshMove ids p w .idle a ((w.record (.asked (ids.key g))).mark (ids.key g) (some true)) .idle
  | spawn (g : JID) (a : RefreshAction JID) (h : w.groupRefreshPending (ids.key g) = none) :
      RefreshMove ids p w .idle a ((w.record (.asked (ids.key g))).mark (ids.key g) (some false)) (.acquiring g)
  | acquire (g : JID) (w' : RefreshState κ) (h : w.send p = some w') :
      RefreshMove ids p w (.acquiring g) .next w' (.acquired g)
  | start (g : JID) : RefreshMove ids p w (.acquired g) .next (w.record (.started (ids.key g))) (.refreshing g)
  | finish (g : JID) : RefreshMove ids p w (.refreshing g) .next w (.refreshed g)
  | release (g : JID) (w' : RefreshState κ) (h : w.receive p = some w') :
      RefreshMove ids p w (.refreshed g) .next w' (.deciding g)
  | again (g : JID) (h : w.groupRefreshPending (ids.key g) = some true) :
      RefreshMove ids p w (.deciding g) .next (w.mark (ids.key g) (some false)) (.acquiring g)
  | stop (g : JID) (h : w.groupRefreshPending (ids.key g) ≠ some true) :
      RefreshMove ids p w (.deciding g) .next (w.mark (ids.key g) none) .idle

theorem schedule_move (g : JID) (h : scheduleGroupRefresh ids g w = (w', x')) : RefreshMove ids p w .idle a w' x' := by
  unfold scheduleGroupRefresh at h
  by_cases hempty : ids.isEmpty g = true
  · rw [if_pos hempty] at h
    cases h
    exact .ignore a
  · rw [if_neg hempty] at h
    dsimp only at h
    split at h
    · next queued hq =>
      have hq : w.groupRefreshPending (ids.key g) = some queued := hq
      have hentry : w.groupRefreshPending (ids.key g) ≠ none := by
        rw [hq]
        exact nofun
      have hmove : RefreshMove ids p w .idle a _ .idle := .queue g a hentry
      cases queued with
      | false =>
        cases h
        exact hmove
      | true =>
        cases h
        have hsame : (w.record (.asked (ids.key g))).mark (ids.key g) (some true) = w.record (.asked (ids.key g)) := by
          unfold RefreshState.mark
          rw [← hq]
          exact congrArg (RefreshState.mk · _ _ _ _) (Function.update_eq_self _ _)
        rw [hsame] at hmove
        exact hmove
    · next hq =>
      cases h
      exact .spawn g a hq

theorem refresh_move (h : refreshAct ids p w x a = some (w', x')) : RefreshMove ids p w x a w' x' := by
  unfold refreshAct at h
  split at h
  · split at h
    · cases h
      exact .ignore _
    · next g _ => exact schedule_move g (Option.some.inj h)
  · obtain ⟨w₁, hsend, heq⟩ := Option.map_eq_some_iff.mp h
    cases heq
    exact .acquire _ _ hsend
  · cases h
    exact .start _
  · cases h
    exact .finish _
  · obtain ⟨w₁, hreceive, heq⟩ := Option.map_eq_some_iff.mp h
    cases heq
    exact .release _ _ hreceive
  · next g =>
    cases hpending : w.groupRefreshPending (ids.key g) with
    | none =>
      rw [hpending] at h
      cases h
      exact .stop g (hpending ▸ nofun)
    | some queued =>
      rw [hpending] at h
      cases queued with
      | false =>
        cases h
        exact .stop g (hpending ▸ nofun)
      | true =>
        cases h
        exact .again g hpending
  · cases h

theorem mark_self (q : Option Bool) : (w.mark k q).groupRefreshPending k = q := by
  show Function.update w.groupRefreshPending k q k = q
  rw [Function.update_self]

theorem mark_ne {k' : κ} (q : Option Bool) (h : k' ≠ k) :
    (w.mark k q).groupRefreshPending k' = w.groupRefreshPending k' := by
  show Function.update w.groupRefreshPending k q k' = _
  rw [Function.update_of_ne h]

theorem send_cases (h : w.send p = some w') : w'.groupRefreshPending = w.groupRefreshPending ∧ w'.slots = w.slots ∧
    w'.history = w.history ∧ ((w.slots = none ∧ w'.used = w.used ∧ w'.holders = w.holders) ∨
      ∃ n, w.slots = some n ∧ w.used < n ∧ w'.used = w.used + 1 ∧ w'.holders = p :: w.holders) := by
  unfold RefreshState.send at h
  split at h
  · next hslots =>
    cases h
    exact ⟨rfl, rfl, rfl, .inl ⟨hslots, rfl, rfl⟩⟩
  · next n hslots =>
    split_ifs at h with hfree
    cases h
    exact ⟨rfl, rfl, rfl, .inr ⟨n, hslots, hfree, rfl, rfl⟩⟩

theorem receive_cases (h : w.receive p = some w') : w'.groupRefreshPending = w.groupRefreshPending ∧
    w'.slots = w.slots ∧ w'.history = w.history ∧ ((w.slots = none ∧ w'.used = w.used ∧ w'.holders = w.holders) ∨
      (w.slots ≠ none ∧ w'.used = w.used - 1 ∧ w'.holders = w.holders.erase p)) := by
  unfold RefreshState.receive at h
  split at h
  · next hslots =>
    cases h
    exact ⟨rfl, rfl, rfl, .inl ⟨hslots, rfl, rfl⟩⟩
  · next n hslots =>
    split_ifs at h
    cases h
    refine ⟨rfl, rfl, rfl, .inr ⟨?_, rfl, rfl⟩⟩
    rw [hslots]
    exact nofun

/-! ### One goroutine for each group -/

theorem RefreshLanes.keep (h : RefreshLanes ids s) (hp : s.calls p = x) (hy : y.group = x.group)
    (hw : ∀ k, w.groupRefreshPending k = none ↔ s.shared.groupRefreshPending k = none) :
    RefreshLanes ids (s.set p w y) := by
  have hkey : ∀ q, ((s.set p w y).calls q).key ids = (s.calls q).key ids := by
    intro q
    by_cases hq : q = p
    · rw [hq, Calls.calls_set_self, hp]
      exact congrArg (Option.map ids.key) hy
    · rw [Calls.calls_set_ne s w y hq]
  refine ⟨fun q r k hq hr => ?_, fun k => ?_⟩
  · rw [hkey] at hq hr
    exact h.one q r k hq hr
  · rw [Calls.shared_set, ne_eq, hw k, ← ne_eq, h.entry k]
    exact exists_congr fun q => by rw [hkey]

theorem refreshLanes_move (h : RefreshLanes ids s) (hmove : RefreshMove ids p s.shared (s.calls p) a w' x') :
    RefreshLanes ids (s.set p w' x') := by
  generalize hx : s.calls p = x at hmove
  cases hmove with
  | ignore => exact h.keep hx rfl fun _ => .rfl
  | start | finish => exact h.keep hx rfl fun _ => .rfl
  | acquire g w' hsend =>
    obtain ⟨hpending, -⟩ := send_cases hsend
    exact h.keep hx rfl fun k => by rw [hpending]
  | release g w' hreceive =>
    obtain ⟨hpending, -⟩ := receive_cases hreceive
    exact h.keep hx rfl fun k => by rw [hpending]
  | queue g a hentry =>
    refine h.keep hx rfl fun k => ?_
    by_cases hk : k = ids.key g
    · rw [hk, mark_self]
      exact iff_of_false nofun hentry
    · rw [mark_ne _ hk]
      exact .rfl
  | again g htrue =>
    refine h.keep hx rfl fun k => ?_
    by_cases hk : k = ids.key g
    · rw [hk, mark_self, htrue]
      exact iff_of_false nofun nofun
    · rw [mark_ne _ hk]
  | spawn g a hfree =>
    have hnone : ∀ q, (s.calls q).key ids ≠ some (ids.key g) := fun q hq => (h.entry _).mpr ⟨q, hq⟩ hfree
    refine ⟨fun q r k hq hr => ?_, fun k => ?_⟩
    · by_cases hqp : q = p <;> by_cases hrp : r = p
      · rw [hqp, hrp]
      · rw [hqp, Calls.calls_set_self] at hq
        rw [Calls.calls_set_ne s _ _ hrp] at hr
        exact absurd (hr.trans hq.symm) (hnone r)
      · rw [hrp, Calls.calls_set_self] at hr
        rw [Calls.calls_set_ne s _ _ hqp] at hq
        exact absurd (hq.trans hr.symm) (hnone q)
      · rw [Calls.calls_set_ne s _ _ hqp] at hq
        rw [Calls.calls_set_ne s _ _ hrp] at hr
        exact h.one q r k hq hr
    · rw [Calls.shared_set]
      by_cases hk : k = ids.key g
      · subst hk
        rw [mark_self]
        refine iff_of_true nofun ⟨p, ?_⟩
        rw [Calls.calls_set_self]
        rfl
      · rw [mark_ne _ hk]
        refine (h.entry k).trans ⟨fun ⟨q, hq⟩ => ⟨q, ?_⟩, fun ⟨q, hq⟩ => ⟨q, ?_⟩⟩
        · have hqp : q ≠ p := by
            rintro rfl
            rw [hx] at hq
            cases hq
          rw [Calls.calls_set_ne s _ _ hqp]
          exact hq
        · have hqp : q ≠ p := by
            rintro rfl
            rw [Calls.calls_set_self] at hq
            exact hk (Option.some.inj hq).symm
          rw [Calls.calls_set_ne s _ _ hqp] at hq
          exact hq
  | stop g =>
    have hkey : (s.calls p).key ids = some (ids.key g) := by
      rw [hx]
      rfl
    have hother : ∀ q k, (((s.set p (s.shared.mark (ids.key g) none) .idle).calls q).key ids = some k ↔
        k ≠ ids.key g ∧ (s.calls q).key ids = some k) := by
      intro q k
      by_cases hq : q = p
      · rw [hq, Calls.calls_set_self, hkey]
        exact iff_of_false nofun fun hk => hk.1 (Option.some.inj hk.2).symm
      · rw [Calls.calls_set_ne s _ _ hq]
        refine ⟨fun hk => ⟨?_, hk⟩, fun hk => hk.2⟩
        rintro rfl
        exact hq (h.one p q _ hkey hk)
    refine ⟨fun q r k hq hr => h.one q r k ((hother q k).mp hq).2 ((hother r k).mp hr).2, fun k => ?_⟩
    rw [Calls.shared_set]
    by_cases hk : k = ids.key g
    · rw [hk, mark_self]
      exact iff_of_false (fun hne => hne rfl) fun ⟨q, hq⟩ => ((hother q _).mp hq).1 rfl
    · rw [mark_ne _ hk, h.entry k]
      exact exists_congr fun q => (and_iff_right hk).symm.trans (hother q k).symm

/-! ### The slots -/

theorem RefreshSlots.keep (h : RefreshSlots s) (hp : s.calls p = x) (hy : y.holdsSlot = x.holdsSlot)
    (hslots : w.slots = s.shared.slots) (hused : w.used = s.shared.used) (hholders : w.holders = s.shared.holders) :
    RefreshSlots (s.set p w y) := by
  refine ⟨?_, fun q hq => ?_, ?_, fun n hn => ?_⟩
  · rw [Calls.shared_set, hholders]
    exact h.nodup
  · rw [Calls.shared_set, hslots] at hq
    rw [Calls.shared_set, hholders, h.holds q hq]
    by_cases hqp : q = p
    · rw [hqp, Calls.calls_set_self, hp, hy]
    · rw [Calls.calls_set_ne s w y hqp]
  · rw [Calls.shared_set, hused, hholders]
    exact h.count
  · rw [Calls.shared_set, hslots] at hn
    rw [Calls.shared_set, hused]
    exact h.capped n hn

theorem refreshSlots_move (h : RefreshSlots s) (hmove : RefreshMove ids p s.shared (s.calls p) a w' x') :
    RefreshSlots (s.set p w' x') := by
  generalize hx : s.calls p = x at hmove
  cases hmove with
  | ignore | queue | spawn | start | finish | again | stop => exact h.keep hx rfl rfl rfl rfl
  | acquire g w' hsend =>
    obtain ⟨-, hslots, -, ⟨hnone, hused, hholders⟩ | ⟨n, hn, hfree, hused, hholders⟩⟩ := send_cases hsend
    · refine ⟨?_, fun q hq => absurd (hslots.trans hnone) hq, ?_, fun n hn => absurd (hn.symm.trans (hslots.trans hnone)) nofun⟩
      · rw [Calls.shared_set, hholders]
        exact h.nodup
      · rw [Calls.shared_set, hused, hholders]
        exact h.count
    · have hsome : s.shared.slots ≠ none := by
        rw [hn]
        exact nofun
      have hnot : p ∉ s.shared.holders := by
        rw [h.holds p hsome, hx]
        exact nofun
      refine ⟨?_, fun q _ => ?_, ?_, fun m hm => ?_⟩
      · rw [Calls.shared_set, hholders]
        exact List.nodup_cons.mpr ⟨hnot, h.nodup⟩
      · rw [Calls.shared_set, hholders, List.mem_cons]
        by_cases hq : q = p
        · rw [hq, Calls.calls_set_self]
          exact iff_of_true (.inl rfl) rfl
        · rw [Calls.calls_set_ne s _ _ hq, ← h.holds q hsome]
          exact or_iff_right hq
      · rw [Calls.shared_set, hused, hholders, List.length_cons, h.count]
      · rw [Calls.shared_set, hslots, hn] at hm
        cases hm
        rw [Calls.shared_set, hused]
        exact hfree
  | release g w' hreceive =>
    obtain ⟨-, hslots, -, ⟨hnone, hused, hholders⟩ | ⟨hsome, hused, hholders⟩⟩ := receive_cases hreceive
    · refine ⟨?_, fun q hq => absurd (hslots.trans hnone) hq, ?_, fun n hn => absurd (hn.symm.trans (hslots.trans hnone)) nofun⟩
      · rw [Calls.shared_set, hholders]
        exact h.nodup
      · rw [Calls.shared_set, hused, hholders]
        exact h.count
    · have hmem : p ∈ s.shared.holders := by
        rw [h.holds p hsome, hx]
        rfl
      refine ⟨?_, fun q _ => ?_, ?_, fun n hn => ?_⟩
      · rw [Calls.shared_set, hholders]
        exact h.nodup.erase p
      · rw [Calls.shared_set, hholders, h.nodup.mem_erase_iff]
        by_cases hq : q = p
        · rw [hq, Calls.calls_set_self]
          exact iff_of_false (fun hne => hne.1 rfl) nofun
        · rw [Calls.calls_set_ne s _ _ hq, ← h.holds q hsome]
          exact and_iff_right hq
      · rw [Calls.shared_set, hused, hholders, h.count, List.length_erase_of_mem hmem]
      · rw [Calls.shared_set, hslots] at hn
        rw [Calls.shared_set, hused]
        exact Nat.le_trans (Nat.sub_le _ _) (h.capped n hn)

/-! ### No call is lost -/

theorem Awaits.keep (h : Awaits ids s k) (hp : s.calls p = x) (hy : y.group = x.group)
    (hwaits : x.waits = true → y.waits = true)
    (hw : s.shared.groupRefreshPending k = some true → w.groupRefreshPending k = some true) :
    Awaits ids (s.set p w y) k := by
  obtain ⟨q, hkey, hdue⟩ := h
  refine ⟨q, ?_⟩
  rw [Calls.shared_set]
  by_cases hq : q = p
  · rw [hq, hp] at hkey hdue
    rw [hq, Calls.calls_set_self]
    exact ⟨(congrArg (Option.map ids.key) hy).trans hkey, hdue.imp hwaits hw⟩
  · rw [Calls.calls_set_ne s w y hq]
    exact ⟨hkey, hdue.imp_right hw⟩

theorem Awaits.other (h : Awaits ids s k) (hp : s.calls p = x) (hx : x.key ids ≠ some k)
    (hw : w.groupRefreshPending k = s.shared.groupRefreshPending k) : Awaits ids (s.set p w y) k := by
  obtain ⟨q, hkey, hdue⟩ := h
  have hq : q ≠ p := by
    rintro rfl
    rw [hp] at hkey
    exact hx hkey
  refine ⟨q, ?_⟩
  rw [Calls.shared_set, Calls.calls_set_ne s w y hq, hw]
  exact ⟨hkey, hdue⟩

theorem awaits_acquiring (g : JID) : Awaits ids (s.set p w (.acquiring g)) (ids.key g) := by
  refine ⟨p, ?_⟩
  rw [Calls.calls_set_self]
  exact ⟨rfl, .inl rfl⟩

theorem awaits_move (hlanes : RefreshLanes ids s) (h : Awaits ids s k)
    (hmove : RefreshMove ids p s.shared (s.calls p) a w' x') :
    Awaits ids (s.set p w' x') k ∨ w'.history = .started k :: s.shared.history := by
  generalize hx : s.calls p = x at hmove
  cases hmove with
  | ignore | finish => exact .inl (h.keep hx rfl id id)
  | acquire g w' hsend =>
    obtain ⟨hpending, -⟩ := send_cases hsend
    exact .inl (h.keep hx rfl (fun _ => rfl) fun htrue => hpending ▸ htrue)
  | release g w' hreceive =>
    obtain ⟨hpending, -⟩ := receive_cases hreceive
    exact .inl (h.keep hx rfl id fun htrue => hpending ▸ htrue)
  | queue g a hentry =>
    refine .inl (h.keep hx rfl id fun htrue => ?_)
    by_cases hk : k = ids.key g
    · rw [hk, mark_self]
    · rw [mark_ne _ hk]
      exact htrue
  | spawn g a hfree =>
    by_cases hk : k = ids.key g
    · subst hk
      exact .inl (awaits_acquiring g)
    · exact .inl (h.other hx nofun (mark_ne _ hk))
  | start g =>
    by_cases hk : k = ids.key g
    · exact .inr (hk ▸ rfl)
    · exact .inl (h.other hx (fun heq => hk (Option.some.inj heq).symm) rfl)
  | again g htrue =>
    by_cases hk : k = ids.key g
    · subst hk
      exact .inl (awaits_acquiring g)
    · exact .inl (h.other hx (fun heq => hk (Option.some.inj heq).symm) (mark_ne _ hk))
  | stop g hfalse =>
    by_cases hk : k = ids.key g
    · -- the only goroutine of the group has nothing to start
      subst hk
      obtain ⟨q, hkey, hdue⟩ := h
      have hq : q = p := hlanes.one p q _ (hx ▸ rfl) hkey
      rw [hq, hx] at hdue
      rcases hdue with hwaits | htrue
      · cases hwaits
      · exact absurd htrue hfalse
    · exact .inl (h.other hx (fun heq => hk (Option.some.inj heq).symm) (mark_ne _ hk))

theorem refreshHistory_move (hlanes : RefreshLanes ids s) (hmove : RefreshMove ids p s.shared (s.calls p) a w' x') :
    w'.history = s.shared.history ∨ (∃ k, w'.history = .started k :: s.shared.history) ∨
      ∃ k, w'.history = .asked k :: s.shared.history ∧ Awaits ids (s.set p w' x') k := by
  generalize hx : s.calls p = x at hmove
  cases hmove with
  | ignore | finish | again | stop => exact .inl rfl
  | acquire g w' hsend =>
    obtain ⟨-, -, hhistory, -⟩ := send_cases hsend
    exact .inl hhistory
  | release g w' hreceive =>
    obtain ⟨-, -, hhistory, -⟩ := receive_cases hreceive
    exact .inl hhistory
  | start g => exact .inr (.inl ⟨_, rfl⟩)
  | spawn g a hfree => exact .inr (.inr ⟨_, rfl, awaits_acquiring g⟩)
  | queue g a hentry =>
    obtain ⟨q, hq⟩ := (hlanes.entry _).mp hentry
    have hqp : q ≠ p := by
      rintro rfl
      rw [hx] at hq
      cases hq
    refine .inr (.inr ⟨_, rfl, q, ?_⟩)
    rw [Calls.shared_set, Calls.calls_set_ne s _ _ hqp, mark_self]
    exact ⟨hq, .inr rfl⟩

theorem followed_move (hlanes : RefreshLanes ids s) (h : Followed ids s)
    (hmove : RefreshMove ids p s.shared (s.calls p) a w' x') : Followed ids (s.set p w' x') := by
  intro later earlier k hsplit
  rw [Calls.shared_set] at hsplit
  rcases refreshHistory_move hlanes hmove with hsame | ⟨k₀, hstarted⟩ | ⟨k₀, hasked, hawaits⟩
  · rw [hsame] at hsplit
    rcases h later earlier k hsplit with hstarted | hdue
    · exact .inl hstarted
    · rcases awaits_move hlanes hdue hmove with hdue | hstarted
      · exact .inr hdue
      · exact absurd (congrArg List.length (hsame.symm.trans hstarted)) (Nat.ne_of_lt (Nat.lt_succ_self _))
  · rw [hstarted] at hsplit
    cases later with
    | nil => cases hsplit
    | cons e later =>
      obtain ⟨rfl, hrest⟩ := List.cons.inj hsplit
      rcases h later earlier k hrest with hmem | hdue
      · exact .inl (List.mem_cons_of_mem _ hmem)
      · rcases awaits_move hlanes hdue hmove with hdue | hnow
        · exact .inr hdue
        · rw [hstarted] at hnow
          exact .inl ((List.cons.inj hnow).1 ▸ List.mem_cons_self)
  · rw [hasked] at hsplit
    cases later with
    | nil =>
      cases hsplit
      exact .inr hawaits
    | cons e later =>
      obtain ⟨rfl, hrest⟩ := List.cons.inj hsplit
      rcases h later earlier k hrest with hmem | hdue
      · exact .inl (List.mem_cons_of_mem _ hmem)
      · rcases awaits_move hlanes hdue hmove with hdue | hnow
        · exact .inr hdue
        · rw [hasked] at hnow
          cases hnow

theorem refreshInv_move (h : RefreshInv ids s) (hmove : RefreshMove ids p s.shared (s.calls p) a w' x') :
    RefreshInv ids (s.set p w' x') where
  lanes := refreshLanes_move h.lanes hmove
  slots := refreshSlots_move h.slots hmove
  followed := followed_move h.lanes h.followed hmove

theorem RefreshInv.next (h : RefreshInv ids s) (hp : s.calls p = x) (hmove : RefreshMove ids p s.shared x a w' x') :
    RefreshInv ids (s.set p w' x') := by
  subst hp
  exact refreshInv_move h hmove

theorem refreshInv_start (slots : Option ℕ) : RefreshInv ids (Calls.start (.new slots) .idle) where
  lanes := ⟨nofun, fun _ => iff_of_false (fun h => h rfl) nofun⟩
  slots := ⟨List.nodup_nil, fun _ _ => iff_of_false nofun nofun, rfl, fun _ _ => Nat.zero_le _⟩
  followed later earlier k h := by
    cases later <;> cases h

theorem refreshInv_step {a : CallAction (RefreshAction JID) Empty} {s' : RefreshCalls JID κ} (h : RefreshInv ids s)
    (hs : (refreshMachine ids).step s a = some s') : RefreshInv ids s' := by
  cases a with
  | act p a =>
    obtain ⟨w, x, hact, rfl⟩ := Machine.step_act hs
    exact refreshInv_move h (refresh_move hact)
  | env e => exact e.elim

/-! ### What is to start can start -/

variable (ids) in
/-- Goroutines alone lead from `s` to a state of `P`. -/
def Leads (s : RefreshCalls JID κ) (P : RefreshCalls JID κ → Prop) : Prop :=
  ∃ ps : List ℕ, ∃ s', runActions (refreshMachine ids).step s (ps.map fun p => .act p .next) = some s' ∧ P s'

/-- The last thing that happened is the start of a refresh, after `before`. -/
def Started (k : κ) (before : List (RefreshEvent κ)) (s : RefreshCalls JID κ) : Prop :=
  ∃ rest, s.shared.history = .started k :: rest ∧ before <:+ rest

theorem Leads.next {P : RefreshCalls JID κ → Prop} (hp : s.calls p = x)
    (hact : refreshAct ids p s.shared x .next = some (w, y)) (h : Leads ids (s.set p w y) P) : Leads ids s P := by
  obtain ⟨ps, s', hrun, hP⟩ := h
  refine ⟨p :: ps, s', runActions_cons.mpr ⟨_, ?_, hrun⟩, hP⟩
  show (refreshAct ids p s.shared (s.calls p) .next).map _ = _
  rw [hp, hact]
  rfl

section Start

variable {g : JID} {n : ℕ} {before : List (RefreshEvent κ)}

theorem receive_act (g : JID) (h : s.shared.slots ≠ none → 0 < s.shared.used) :
    ∃ w, s.shared.receive p = some w ∧ refreshAct ids p s.shared (.refreshed g) .next = some (w, .deciding g) := by
  have hreceive : ∃ w, s.shared.receive p = some w := by
    unfold RefreshState.receive
    cases hn : s.shared.slots with
    | none => exact ⟨_, rfl⟩
    | some n => exact ⟨_, if_pos (h (hn ▸ nofun))⟩
  obtain ⟨w, hreceive⟩ := hreceive
  refine ⟨w, hreceive, ?_⟩
  show (s.shared.receive p).map _ = _
  rw [hreceive]
  rfl

theorem leads_acquired (hp : s.calls p = .acquired g) (hbefore : before <:+ s.shared.history) :
    Leads ids s (Started (ids.key g) before) :=
  .next hp rfl ⟨[], _, rfl, _, rfl, hbefore⟩

theorem leads_free (hp : s.calls p = .acquiring g)
    (hfree : ∀ n, s.shared.slots = some n → s.shared.used < n) (hbefore : before <:+ s.shared.history) :
    Leads ids s (Started (ids.key g) before) := by
  have hsend : ∃ w, s.shared.send p = some w := by
    unfold RefreshState.send
    cases hslots : s.shared.slots with
    | none => exact ⟨_, rfl⟩
    | some n => exact ⟨_, if_pos (hfree n hslots)⟩
  obtain ⟨w, hsend⟩ := hsend
  obtain ⟨-, -, hhistory, -⟩ := send_cases hsend
  have hact : refreshAct ids p s.shared (.acquiring g) .next = some (w, .acquired g) := by
    show (s.shared.send p).map _ = _
    rw [hsend]
    rfl
  exact .next hp hact (leads_acquired (s.calls_set_self p w _) (hhistory ▸ hbefore))

theorem leads_refreshed {q : ℕ} {g' : JID} (hp : s.calls p = .acquiring g) (hq : s.calls q = .refreshed g')
    (hslots : s.shared.slots = some n) (hused : s.shared.used ≤ n) (hpos : 0 < s.shared.used)
    (hbefore : before <:+ s.shared.history) : Leads ids s (Started (ids.key g) before) := by
  have hpq : p ≠ q := by
    rintro rfl
    rw [hp] at hq
    cases hq
  obtain ⟨w, hreceive, hact⟩ := receive_act g' fun _ => hpos
  obtain ⟨-, hsame, hhistory, ⟨hnone, -⟩ | ⟨-, hless, -⟩⟩ := receive_cases hreceive
  · rw [hslots] at hnone
    cases hnone
  · refine .next hq hact (leads_free ((s.calls_set_ne _ _ hpq).trans hp) (fun m hm => ?_) (hhistory ▸ hbefore))
    rw [Calls.shared_set, hsame, hslots] at hm
    cases hm
    rw [Calls.shared_set, hless]
    omega

theorem leads_acquiring (hinv : RefreshInv ids s) (hslots : s.shared.slots ≠ some 0) (hp : s.calls p = .acquiring g)
    (hbefore : before <:+ s.shared.history) : Leads ids s (Started (ids.key g) before) := by
  by_cases hfree : ∀ n, s.shared.slots = some n → s.shared.used < n
  · exact leads_free hp hfree hbefore
  · obtain ⟨n, hfull⟩ := not_forall.mp hfree
    obtain ⟨hn, hfull⟩ := Classical.not_imp.mp hfull
    have hused := hinv.slots.capped n hn
    have hpos : 0 < s.shared.used := by
      have hzero : n ≠ 0 := by
        rintro rfl
        exact hslots hn
      omega
    obtain ⟨q, hq⟩ := List.exists_mem_of_length_pos (hinv.slots.count ▸ hpos)
    have hholds := (hinv.slots.holds q (hn ▸ nofun)).mp hq
    have hpq : p ≠ q := by
      rintro rfl
      rw [hp] at hholds
      cases hholds
    -- from where it stands, the holder goes on until it gives its slot back
    cases hstage : s.calls q with
    | refreshed g' => exact leads_refreshed hp hstage hn hused hpos hbefore
    | refreshing g' =>
      exact .next hstage rfl (leads_refreshed ((s.calls_set_ne _ _ hpq).trans hp) (s.calls_set_self q _ _) hn hused hpos
        hbefore)
    | acquired g' =>
      refine .next hstage rfl (.next (Calls.calls_set_self _ q _ _) rfl ?_)
      refine leads_refreshed (p := p) ?_ (Calls.calls_set_self _ q _ _) hn hused hpos
        (hbefore.trans (List.suffix_cons _ _))
      rw [Calls.calls_set_ne _ _ _ hpq, Calls.calls_set_ne _ _ _ hpq]
      exact hp
    | _ =>
      rw [hstage] at hholds
      cases hholds

theorem leads_deciding (hinv : RefreshInv ids s) (hslots : s.shared.slots ≠ some 0) (hp : s.calls p = .deciding g)
    (htrue : s.shared.groupRefreshPending (ids.key g) = some true) (hbefore : before <:+ s.shared.history) :
    Leads ids s (Started (ids.key g) before) := by
  have hact : refreshAct ids p s.shared (.deciding g) .next =
      some (s.shared.mark (ids.key g) (some false), .acquiring g) := by
    refine if_pos ?_
    rw [htrue]
    rfl
  refine .next hp hact (leads_acquiring ?_ hslots (s.calls_set_self p _ _) hbefore)
  exact hinv.next hp (.again g htrue)

theorem leads_released (hinv : RefreshInv ids s) (hslots : s.shared.slots ≠ some 0) (hp : s.calls p = .refreshed g)
    (htrue : s.shared.groupRefreshPending (ids.key g) = some true) (hbefore : before <:+ s.shared.history) :
    Leads ids s (Started (ids.key g) before) := by
  have hpos : s.shared.slots ≠ none → 0 < s.shared.used := by
    intro hsome
    have hmem : p ∈ s.shared.holders := by
      rw [hinv.slots.holds p hsome, hp]
      rfl
    rw [hinv.slots.count]
    exact List.length_pos_of_mem hmem
  obtain ⟨w, hreceive, hact⟩ := receive_act g hpos
  obtain ⟨hpending, hsame, hhistory, -⟩ := receive_cases hreceive
  refine .next hp hact (leads_deciding ?_ (hsame ▸ hslots) (s.calls_set_self p _ _) (hpending ▸ htrue) (hhistory ▸ hbefore))
  exact hinv.next hp (.release g w hreceive)

theorem leads_of_awaits (hinv : RefreshInv ids s) (hslots : s.shared.slots ≠ some 0) (h : Awaits ids s k) :
    Leads ids s (Started k s.shared.history) := by
  obtain ⟨p, hkey, hdue⟩ := h
  generalize hp : s.calls p = x at hkey hdue
  cases x with
  | idle => cases hkey
  | acquiring g =>
    obtain rfl := Option.some.inj hkey
    exact leads_acquiring hinv hslots hp List.suffix_rfl
  | acquired g =>
    obtain rfl := Option.some.inj hkey
    exact leads_acquired hp List.suffix_rfl
  | refreshing g =>
    obtain rfl := Option.some.inj hkey
    have htrue := hdue.resolve_left nofun
    refine .next hp rfl (leads_released ?_ hslots (s.calls_set_self p _ _) htrue List.suffix_rfl)
    exact hinv.next hp (.finish g)
  | refreshed g =>
    obtain rfl := Option.some.inj hkey
    exact leads_released hinv hslots hp (hdue.resolve_left nofun) List.suffix_rfl
  | deciding g =>
    obtain rfl := Option.some.inj hkey
    exact leads_deciding hinv hslots hp (hdue.resolve_left nofun) List.suffix_rfl

end Start

variable (ids) in
structure RefreshHolds (s : RefreshCalls JID κ) : Prop where
  oneRefresh : ∀ p q k, (s.calls p).refreshes = true → (s.calls q).refreshes = true → (s.calls p).key ids = some k →
    (s.calls q).key ids = some k → q = p
  capped : ∀ n, s.shared.slots = some n → ∀ running : List ℕ, running.Nodup →
    (∀ p ∈ running, (s.calls p).refreshes = true) → running.length ≤ n
  followed : Followed ids s
  /-- When no goroutine of the group is left, a refresh has started after every call. -/
  settled : ∀ later earlier k, s.shared.history = later ++ .asked k :: earlier →
    (∀ p, (s.calls p).key ids ≠ some k) → .started k ∈ later
  starts : ∀ k, s.shared.slots ≠ some 0 → Awaits ids s k → Leads ids s (Started k s.shared.history)

theorem holdsSlot_of_refreshes (h : x.refreshes = true) : x.holdsSlot = true := by
  cases x with
  | refreshing g => rfl
  | _ => cases h

theorem RefreshInv.holds (h : RefreshInv ids s) : RefreshHolds ids s where
  oneRefresh p q k _ _ hp hq := h.lanes.one p q k hp hq
  capped n hn running hnodup hrunning := by
    have hsub : running ⊆ s.shared.holders := fun p hp =>
      (h.slots.holds p (hn ▸ nofun)).mpr (holdsSlot_of_refreshes (hrunning p hp))
    calc running.length ≤ s.shared.holders.length := (List.subperm_of_subset hnodup hsub).length_le
      _ = s.shared.used := h.slots.count.symm
      _ ≤ n := h.slots.capped n hn
  followed := h.followed
  settled later earlier k hsplit hnone := by
    rcases h.followed later earlier k hsplit with hstarted | ⟨p, hkey, -⟩
    · exact hstarted
    · exact absurd hkey (hnone p)
  starts k hslots hawaits := leads_of_awaits h hslots hawaits

/-- **Group refreshes coalesce without loss.**  In every state of every run one refresh of a group runs at most and no more
refreshes than there are slots; after every call for a group a refresh of that group has started or is to start, which
the goroutines bring about by themselves. -/
theorem group_refresh (ids : GroupIds JID κ) (slots : Option ℕ) (as : List (CallAction (RefreshAction JID) Empty)) :
    Always (refreshMachine ids).step (RefreshHolds ids) (Calls.start (.new slots) .idle) as :=
  (always_of_step (fun _ _ _ h hs => refreshInv_step h hs) (refreshInv_start slots) as).mono fun _ h => h.holds

end TeamInbox.Worker
