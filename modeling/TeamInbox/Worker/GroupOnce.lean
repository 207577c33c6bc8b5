import TeamInbox.Worker.GroupCommand

/-!
# TeamInbox.Worker.GroupOnce — group mutations succeed once and are reported as applied

The history of a command says when its mutation succeeded, what was reported and when a delivery was
acknowledged.  Between the mutation and the record of it lies one statement: when that save fails, the
error is an ordinary one, the redelivery finds no record and asks WhatsApp again; on the last attempt
the command is reported as failed.  A ledger read that fails on the last attempt has the same effect.
As long as neither happens, a mutation succeeds at most once and what is reported in the end fits it.
-/

namespace TeamInbox.Worker

open TeamInbox.Lib

/-! ### The history of a command -/

def GroupEvent.isApplied : GroupEvent → Bool
  | .applied _ => true
  | _ => false

def lastReport : List GroupEvent → Option GroupReport
  | [] => none
  | .reported r :: _ => some r
  | _ :: h => lastReport h

/-- A delivery was acknowledged after the last successful mutation. -/
def ackedSince : List GroupEvent → Bool
  | [] => false
  | .acked :: _ => true
  | .applied _ :: _ => false
  | .reported _ :: h => ackedSince h

/-- The last report fits every successful mutation: the state of the group, applied but not synced, or
a failure where WhatsApp rejected every participant. -/
def FitReport (h : List GroupEvent) : Prop :=
  ∀ stored, .applied stored ∈ h → match lastReport h with
    | some .state => True
    | some (.result .appliedNotSynced _) => True
    | some (.result .failed _) => stored.rejectsAll
    | none => False

/-- The mutation succeeded at most once; once it is acknowledged, the last report fits it. -/
structure AppliedOnce (h : List GroupEvent) : Prop where
  once : h.countP GroupEvent.isApplied ≤ 1
  ends : ackedSince h = true → FitReport h

namespace GroupWorld

/-- The history of the command `id`, the latest first. -/
def history (w : GroupWorld) (id : CommandID) : List GroupEvent :=
  (w.log.filter fun e => e.1 = id).map (·.2)

theorem history_cons_self (w : GroupWorld) (id : CommandID) (e : GroupEvent) :
    history { w with log := (id, e) :: w.log } id = e :: w.history id := by
  simp [history]

theorem history_cons_ne (w : GroupWorld) {id i : CommandID} (e : GroupEvent) (h : i ≠ id) :
    history { w with log := (id, e) :: w.log } i = w.history i := by
  simp [history, Ne.symm h]

end GroupWorld

/-! ### A delivery touches its own command -/

/-- Nothing but the command `id` changes. -/
def OnlyAt (id : CommandID) (w w' : GroupWorld) : Prop :=
  ∀ i, i ≠ id → w'.ledger.find? i = w.ledger.find? i ∧ w'.history i = w.history i

/-- The computation touches the command `id` only. -/
def Touches {α : Type} (id : CommandID) (m : GroupM α) : Prop := ∀ w, OnlyAt id w (m w).2

section Touches

variable {α β : Type} {id : CommandID} {o : GroupChoices} {cmd : GroupCommand}

theorem touches_pure (a : α) : Touches id (pure a) := fun _ _ _ => ⟨rfl, rfl⟩

theorem Touches.bind {m : GroupM α} {g : α → GroupM β} (hm : Touches id m)
    (hg : ∀ a, Touches id (g a)) : Touches id (m >>= g) := by
  intro w i hi
  obtain ⟨hrow, hhist⟩ := hg (m w).1 (m w).2 i hi
  obtain ⟨hrow', hhist'⟩ := hm w i hi
  exact ⟨hrow.trans hrow', hhist.trans hhist'⟩

theorem touches_record (e : GroupEvent) : Touches id (GroupM.record id e) :=
  fun w _ hi => ⟨rfl, w.history_cons_ne e hi⟩

theorem touches_faulty {fault : Fault} {text : String} {f : GroupWorld → GroupWorld}
    (hf : ∀ w, OnlyAt id w (f w)) : Touches id (GroupM.faulty fault text f) := by
  intro w
  rcases Fault.answer_snd fault text () w (f w) with h | h
  · rw [GroupM.faulty, h]
    exact fun _ _ => ⟨rfl, rfl⟩
  · rw [GroupM.faulty, h]
    exact hf w

theorem touches_publish (fault : Fault) (r : GroupReport) : Touches id (GroupM.publish fault id r) :=
  touches_faulty fun w _ hi => ⟨rfl, w.history_cons_ne _ hi⟩

theorem touches_save (fault : Fault) (stored : StoredGroupResult) :
    Touches id (GroupM.save fault id stored) :=
  touches_faulty fun w _ hi => ⟨Ledger.find?_saveProcessedCommand_ne w.ledger _ id _ _ _ hi, rfl⟩

theorem touches_mark (fault : Fault) : Touches id (GroupM.mark fault id) :=
  touches_faulty fun w _ hi => ⟨Table.find?_updateWhere_ne w.ledger _ hi, rfl⟩

theorem touches_scrub (fault : Fault) : Touches id (GroupM.scrub fault id) :=
  touches_faulty fun w _ hi => ⟨Table.find?_updateWhere_ne w.ledger _ hi, rfl⟩

theorem touches_readState (fault : Fault) : Touches id (GroupM.readState fault id) := by
  intro w
  rcases Fault.answer_snd fault "get processed command state" (w.ledger.getProcessedCommandState id) w w
    with h | h
  all_goals
    rw [GroupM.readState, h]
    exact fun _ _ => ⟨rfl, rfl⟩

theorem touches_markReported (mark scrub : Fault) (stored : StoredGroupResult) :
    Touches id (markGroupCommandReported id mark scrub stored) := by
  unfold markGroupCommandReported
  split_ifs
  · exact touches_pure _
  · refine (touches_mark mark).bind fun a => ?_
    cases a with
    | error e => exact touches_pure _
    | ok _ => exact (touches_scrub scrub).bind fun _ => touches_pure _
  · refine (touches_mark mark).bind fun a => ?_
    cases a with
    | error e => exact touches_pure _
    | ok _ => exact touches_pure _

theorem touches_publishSnapshot : Touches id (publishGroupSnapshot o id) := by
  unfold publishGroupSnapshot
  cases o.readBack with
  | error e => exact touches_pure _
  | ok _ => exact touches_publish _ _

theorem touches_reportEvent (stored : StoredGroupResult) : Touches id (reportEvent o id stored) :=
  (touches_publish _ _).bind fun _ => touches_pure _

theorem touches_reportSnapshot (action : String) (stored : StoredGroupResult) :
    Touches id (reportSnapshot o id action stored) := by
  refine touches_publishSnapshot.bind fun a => ?_
  cases a with
  | error e => exact touches_pure _
  | ok _ => exact touches_pure _

theorem touches_reportJoinRequests (stored : StoredGroupResult) :
    Touches id (reportJoinRequests o id cmd stored) := by
  unfold reportJoinRequests
  cases o.fetch with
  | error e => exact touches_pure _
  | ok _ =>
    refine (touches_publish _ _).bind fun a => ?_
    cases a with
    | error e => exact touches_pure _
    | ok _ => exact touches_reportSnapshot _ _

theorem touches_reportGroupCommand {report : StoredGroupResult → GroupM ReportResult}
    (hr : ∀ stored, Touches id (report stored)) (stored : StoredGroupResult) :
    Touches id (reportGroupCommand o id report stored) := by
  refine (hr stored).bind fun a => ?_
  cases a with
  | rejection detail => exact touches_pure _
  | error e => exact touches_pure _
  | done =>
    refine (touches_markReported _ _ stored).bind fun b => ?_
    cases b with
    | error e => exact touches_pure _
    | ok _ => exact touches_pure _

theorem touches_applyMutation (keep : GroupMutation → StoredGroupResult) :
    Touches id (applyMutation o id cmd keep) := by
  unfold applyMutation
  cases o.mutation with
  | error e => exact touches_pure _
  | ok m => exact (touches_record _).bind fun _ => touches_pure _

theorem touches_applyOnce {keep : GroupMutation → StoredGroupResult}
    {report : StoredGroupResult → GroupM ReportResult} (hr : ∀ stored, Touches id (report stored)) :
    Touches id (applyGroupCommandOnce o id cmd keep report) := by
  have hreport := fun stored => touches_reportGroupCommand (o := o) hr stored
  unfold applyGroupCommandOnce
  split_ifs
  · refine (touches_applyMutation keep).bind fun a => ?_
    cases a with
    | error e => exact touches_pure _
    | ok stored => exact hreport stored
  · refine (touches_readState o.read).bind fun a => ?_
    match a with
    | .error e => exact touches_pure _
    | .ok (some (_, true)) => exact touches_pure _
    | .ok (some (stored, false)) =>
      dsimp only
      split_ifs
      · exact touches_pure _
      · exact hreport stored
    | .ok none =>
      refine (touches_applyMutation keep).bind fun b => ?_
      cases b with
      | error e => exact touches_pure _
      | ok stored =>
        refine (touches_save o.save stored).bind fun c => ?_
        cases c with
        | error e => exact touches_pure _
        | ok _ => exact hreport stored

theorem touches_fetch : Touches id (match o.fetch with
    | .error e => pure (.error (.plain e))
    | .ok _ => do
      let r ← GroupM.publish o.publishFetched id .state
      pure (ofPlain r) : GroupM (Except GroupError Unit)) := by
  cases o.fetch with
  | error e => exact touches_pure _
  | ok _ => exact (touches_publish _ _).bind fun _ => touches_pure _

theorem touches_executeGroupCommand : Touches id (executeGroupCommand o id cmd) := by
  unfold executeGroupCommand
  split
  · exact touches_applyOnce touches_reportEvent
  · exact touches_applyOnce touches_reportEvent
  · split_ifs
    · exact touches_applyOnce touches_reportEvent
    · exact touches_fetch
  · exact touches_fetch
  · exact touches_applyOnce touches_reportJoinRequests
  · refine touches_publishSnapshot.bind fun r => ?_
    cases o.mutation with
    | error e => exact touches_pure _
    | ok _ => exact touches_pure _
  · exact touches_publishSnapshot.bind fun _ => touches_pure _
  · split
    · exact touches_pure _
    · exact touches_applyOnce (touches_reportSnapshot _)

theorem touches_handleGroupCommand (attempt : ℕ) :
    Touches id (handleGroupCommand o id cmd attempt) := by
  refine touches_executeGroupCommand.bind fun a => ?_
  match a with
  | .ok _ => exact touches_record _
  | .error (.syncFailed cause stored) =>
    dsimp only
    unfold retryAppliedGroupCommand
    split_ifs
    · refine (touches_publish _ _).bind fun b => ?_
      cases b with
      | error e => exact touches_pure _
      | ok _ => exact (touches_markReported _ _ stored).bind fun _ => touches_record _
    · exact touches_pure _
  | .error (.rejected detail stored) =>
    refine (touches_publish _ _).bind fun b => ?_
    cases b with
    | error e => exact touches_pure _
    | ok _ =>
      refine (touches_markReported _ _ stored).bind fun c => ?_
      cases c with
      | error e => exact touches_pure _
      | ok _ => exact touches_record _
  | .error (.plain text) =>
    dsimp only
    unfold retryCommand
    split_ifs
    · exact (touches_publish _ _).bind fun _ => touches_record _
    · exact touches_pure _

end Touches

/-! ### The invariant of a ledgered command -/

/-- The record exists as soon as the mutation succeeded, holds its result until it was reported, and
is marked when a fitting report is out. -/
structure GroupInv (cmd : GroupCommand) (row : Option (ProcessedCommand StoredGroupResult))
    (h : List GroupEvent) : Prop extends AppliedOnce h where
  fresh : row = none → ∀ stored, .applied stored ∉ h
  kept : ∀ r, row = some r → r.eventPublished = false → .applied r.result ∈ h
  same : ∀ s s', .applied s ∈ h → .applied s' ∈ h → s = s'
  typed : ∀ s, .applied s ∈ h → s.commandType = cmd.type.name
  published : ∀ r, row = some r → r.eventPublished = true → FitReport h

section Invariant

variable {cmd : GroupCommand} {row : Option (ProcessedCommand StoredGroupResult)}
  {h : List GroupEvent} {stored : StoredGroupResult} {text : String}

theorem fitReport_state : FitReport (.reported .state :: h) := fun _ _ => trivial

theorem fitReport_notSynced : FitReport (.reported (.result .appliedNotSynced text) :: h) :=
  fun _ _ => trivial

theorem fitReport_failed (hr : ∀ s, .applied s ∈ h → s.rejectsAll) :
    FitReport (.reported (.result .failed text) :: h) := by
  intro s hs
  exact hr s (by simpa using hs)

theorem FitReport.acked (hfit : FitReport h) : FitReport (.acked :: h) := by
  intro s hs
  exact hfit s (by simpa using hs)

theorem groupInv_start : GroupInv cmd none [] where
  once := Nat.zero_le 1
  ends h := by cases h
  fresh _ _ h := by cases h
  kept _ h := by cases h
  same _ _ h := by cases h
  typed _ h := by cases h
  published _ h := by cases h

theorem GroupInv.report {r : GroupReport} (hI : GroupInv cmd row h)
    (hfit : FitReport (.reported r :: h)) : GroupInv cmd row (.reported r :: h) where
  once := by
    rw [List.countP_cons_of_neg (by simp [GroupEvent.isApplied])]
    exact hI.once
  ends _ := hfit
  fresh hrow s hs := hI.fresh hrow s (by simpa using hs)
  kept r hrow hp := List.mem_cons_of_mem _ (hI.kept r hrow hp)
  same s s' hs hs' := hI.same s s' (by simpa using hs) (by simpa using hs')
  typed s hs := hI.typed s (by simpa using hs)
  published _ _ _ := hfit

theorem GroupInv.ack (hI : GroupInv cmd row h) (hfit : FitReport h) : GroupInv cmd row (.acked :: h) where
  once := by
    rw [List.countP_cons_of_neg (by simp [GroupEvent.isApplied])]
    exact hI.once
  ends _ := hfit.acked
  fresh hrow s hs := hI.fresh hrow s (by simpa using hs)
  kept r hrow hp := List.mem_cons_of_mem _ (hI.kept r hrow hp)
  same s s' hs hs' := hI.same s s' (by simpa using hs) (by simpa using hs')
  typed s hs := hI.typed s (by simpa using hs)
  published r hrow hp := (hI.published r hrow hp).acked

theorem GroupInv.mark (hI : GroupInv cmd row h) (hfit : FitReport h) :
    GroupInv cmd (row.map fun r => { r with eventPublished := true }) h where
  toAppliedOnce := hI.toAppliedOnce
  fresh hrow := hI.fresh (Option.map_eq_none_iff.mp hrow)
  kept r hrow hp := by
    obtain ⟨r₀, -, rfl⟩ := Option.map_eq_some_iff.mp hrow
    cases hp
  same := hI.same
  typed := hI.typed
  published _ _ _ := hfit

theorem GroupInv.scrub (hI : GroupInv cmd row h) :
    GroupInv cmd (row.map fun r => if r.eventPublished = true then
      { r with result := StoredGroupResult.empty } else r) h where
  toAppliedOnce := hI.toAppliedOnce
  fresh hrow := hI.fresh (Option.map_eq_none_iff.mp hrow)
  kept r hrow hp := by
    obtain ⟨r₀, hr₀, rfl⟩ := Option.map_eq_some_iff.mp hrow
    by_cases hpub : r₀.eventPublished = true
    · simp [hpub] at hp
    · simp only [hpub] at hp ⊢
      exact hI.kept r₀ hr₀ (by simpa using hpub)
  same := hI.same
  typed := hI.typed
  published r hrow hp := by
    obtain ⟨r₀, hr₀, rfl⟩ := Option.map_eq_some_iff.mp hrow
    by_cases hpub : r₀.eventPublished = true
    · exact hI.published r₀ hr₀ hpub
    · simp [hpub] at hp

theorem GroupInv.apply {commandType : String} (hI : GroupInv cmd row h) (hrow : row = none)
    (htype : stored.commandType = cmd.type.name) :
    GroupInv cmd (some ⟨commandType, stored, false⟩) (.applied stored :: h) where
  once := by
    have hzero : h.countP GroupEvent.isApplied = 0 := by
      rw [List.countP_eq_zero]
      intro e he happ
      cases e with
      | applied s => exact hI.fresh hrow s he
      | reported r => cases happ
      | acked => cases happ
    rw [List.countP_cons_of_pos rfl, hzero]
  ends hack := by cases hack
  fresh hrow := by cases hrow
  kept r hr _ := by
    obtain rfl := Option.some.inj hr
    exact List.mem_cons_self
  same s s' hs hs' := by
    rcases List.mem_cons.mp hs with heq | hold
    · rcases List.mem_cons.mp hs' with heq' | hold'
      · exact GroupEvent.applied.inj (heq.trans heq'.symm)
      · exact absurd hold' (hI.fresh hrow s')
    · exact absurd hold (hI.fresh hrow s)
  typed s hs := by
    rcases List.mem_cons.mp hs with heq | hold
    · rw [GroupEvent.applied.inj heq]
      exact htype
    · exact hI.typed s hold
  published r hr hp := by
    obtain rfl := Option.some.inj hr
    cases hp

end Invariant

/-! ### A delivery keeps the invariant -/

/-- The invariant holds and the mutation succeeded with this result. -/
structure Held (cmd : GroupCommand) (id : CommandID) (stored : StoredGroupResult) (w : GroupWorld) :
    Prop where
  inv : GroupInv cmd (w.ledger.find? id) (w.history id)
  applied : .applied stored ∈ w.history id

section Delivery

variable {o : GroupChoices} {id : CommandID} {cmd : GroupCommand} {stored : StoredGroupResult}
  {w : GroupWorld}

theorem ensures_faulty {fault : Fault} {text : String} {f : GroupWorld → GroupWorld}
    {Q : Except String Unit → GroupWorld → Prop} (hran : Q (.ok ()) (f w))
    (hlost : Q (.error text) (f w)) (hfailed : Q (.error text) w) :
    Ensures (GroupM.faulty fault text f) w Q := by
  cases fault with
  | none => exact hran
  | failed => exact hfailed
  | lost => exact hlost

theorem ensures_publish {fault : Fault} {r : GroupReport} (hw : Held cmd id stored w)
    (hfit : FitReport (.reported r :: w.history id)) :
    Ensures (GroupM.publish fault id r) w fun a w' => Held cmd id stored w' ∧
      (a = .ok () → FitReport (w'.history id)) := by
  have hhist := w.history_cons_self id (.reported r)
  have hout : Held cmd id stored { w with log := (id, .reported r) :: w.log } :=
    ⟨hhist ▸ hw.inv.report hfit, hhist ▸ List.mem_cons_of_mem _ hw.applied⟩
  exact ensures_faulty ⟨hout, fun _ => hhist ▸ hfit⟩ ⟨hout, nofun⟩ ⟨hw, nofun⟩

theorem ensures_markReported {mark scrub : Fault} (hw : Held cmd id stored w)
    (hfit : FitReport (w.history id)) :
    Ensures (markGroupCommandReported id mark scrub stored) w fun _ w' =>
      Held cmd id stored w' ∧ FitReport (w'.history id) := by
  have hmark : Ensures (GroupM.mark mark id) w fun _ w' =>
      Held cmd id stored w' ∧ FitReport (w'.history id) := by
    have hrow : (w.ledger.markCommandEventPublished id).find? id =
        (w.ledger.find? id).map fun r => { r with eventPublished := true } := by
      rw [Ledger.markCommandEventPublished, Table.find?_updateWhere_self]
      simp
    have hmarked : Held cmd id stored
        { w with ledger := w.ledger.markCommandEventPublished id } :=
      ⟨hrow ▸ hw.inv.mark hfit, hw.applied⟩
    exact ensures_faulty ⟨hmarked, hfit⟩ ⟨hmarked, hfit⟩ ⟨hw, hfit⟩
  have hscrub : ∀ w, Held cmd id stored w → FitReport (w.history id) →
      Ensures (GroupM.scrub scrub id) w fun _ w' =>
        Held cmd id stored w' ∧ FitReport (w'.history id) := by
    intro w hw hfit
    have hrow : (w.ledger.scrubProcessedCommandResult StoredGroupResult.empty id).find? id =
        (w.ledger.find? id).map fun r => if r.eventPublished = true then
          { r with result := StoredGroupResult.empty } else r := by
      rw [Ledger.scrubProcessedCommandResult, Table.find?_updateWhere_self]
    have hscrubbed : Held cmd id stored
        { w with ledger := w.ledger.scrubProcessedCommandResult StoredGroupResult.empty id } :=
      ⟨hrow ▸ hw.inv.scrub, hw.applied⟩
    exact ensures_faulty ⟨hscrubbed, hfit⟩ ⟨hscrubbed, hfit⟩ ⟨hw, hfit⟩
  unfold markGroupCommandReported
  split_ifs
  · exact ⟨hw, hfit⟩
  · refine Ensures.bind hmark fun a w' h => ?_
    cases a with
    | error e => exact h
    | ok _ => exact Ensures.bind (hscrub w' h.1 h.2) fun _ _ h' => h'
  · refine Ensures.bind hmark fun a w' h => ?_
    cases a with
    | error e => exact h
    | ok _ => exact h

theorem rejectsAll_of_rejectionFor {action detail : String}
    (h : rejectionFor action stored.results = some detail) : stored.rejectsAll := by
  unfold rejectionFor at h
  split_ifs at h with hnil hany
  exact ⟨hnil, by simpa using hany⟩

/-- What a report function leaves: when it is done the last report fits, and it rejects only what
WhatsApp rejected. -/
def ReportEnd (cmd : GroupCommand) (id : CommandID) (stored : StoredGroupResult) (r : ReportResult)
    (w : GroupWorld) : Prop :=
  Held cmd id stored w ∧ match r with
    | .done => FitReport (w.history id)
    | .error _ => True
    | .rejection _ => stored.rejectsAll

theorem ensures_reportEvent (hw : Held cmd id stored w) :
    Ensures (reportEvent o id stored) w (ReportEnd cmd id stored) := by
  refine Ensures.bind (ensures_publish hw fitReport_state) fun a w' h => ?_
  cases a with
  | error e => exact ⟨h.1, trivial⟩
  | ok _ => exact ⟨h.1, h.2 rfl⟩

theorem ensures_reportSnapshot {action : String} (hw : Held cmd id stored w) :
    Ensures (reportSnapshot o id action stored) w (ReportEnd cmd id stored) := by
  have hpub : Ensures (publishGroupSnapshot o id) w fun a w' => Held cmd id stored w' ∧
      (a = .ok () → FitReport (w'.history id)) := by
    unfold publishGroupSnapshot
    cases o.readBack with
    | error e => exact ⟨hw, nofun⟩
    | ok _ => exact ensures_publish hw fitReport_state
  refine Ensures.bind hpub fun a w' h => ?_
  cases a with
  | error e => exact ⟨h.1, trivial⟩
  | ok _ =>
    dsimp only
    cases hrej : rejectionFor action stored.results with
    | none => exact ⟨h.1, h.2 rfl⟩
    | some detail => exact ⟨h.1, rejectsAll_of_rejectionFor hrej⟩

theorem ensures_reportJoinRequests (hw : Held cmd id stored w) :
    Ensures (reportJoinRequests o id cmd stored) w (ReportEnd cmd id stored) := by
  unfold reportJoinRequests
  cases o.fetch with
  | error e => exact ⟨hw, trivial⟩
  | ok _ =>
    refine Ensures.bind (ensures_publish hw fitReport_state) fun a w' h => ?_
    cases a with
    | error e => exact ⟨h.1, trivial⟩
    | ok _ => exact ensures_reportSnapshot h.1

/-- How `executeGroupCommand` may end for a command whose deliveries so far were counted `attempt`. -/
def ExecuteEnd (cmd : GroupCommand) (id : CommandID) (attempt : ℕ) (r : Except GroupError Unit)
    (w : GroupWorld) : Prop :=
  match r with
  | .ok _ => GroupInv cmd (w.ledger.find? id) (w.history id) ∧ FitReport (w.history id)
  | .error (.syncFailed _ stored) => Held cmd id stored w
  | .error (.rejected _ stored) => Held cmd id stored w ∧ stored.rejectsAll
  | .error (.plain _) => GroupInv cmd (w.ledger.find? id) (w.history id) ∧
      (attempt < commandMaxAttempts ∨ ∀ s, .applied s ∉ w.history id)

theorem ensures_reportGroupCommand {report : StoredGroupResult → GroupM ReportResult} {attempt : ℕ}
    (hr : ∀ w, Held cmd id stored w → Ensures (report stored) w (ReportEnd cmd id stored))
    (hw : Held cmd id stored w) :
    Ensures (reportGroupCommand o id report stored) w (ExecuteEnd cmd id attempt) := by
  refine Ensures.bind (hr w hw) fun a w' h => ?_
  cases a with
  | rejection detail => exact h
  | error e => exact h.1
  | done =>
    refine Ensures.bind (ensures_markReported h.1 h.2) fun b w'' h' => ?_
    cases b with
    | error e => exact h'.1
    | ok _ => exact ⟨h'.1.inv, h'.2⟩

/-- A delivery loses no record: the save of a successful mutation is answered, or it commits while
attempts are left; and the ledger of an applied command can be read when no attempts are left. -/
structure RecordKept (w : GroupWorld) (d : GroupDelivery) : Prop where
  save : w.ledger.find? d.id = none → d.choices.read = .none → (∃ m, d.choices.mutation = .ok m) →
    d.choices.save = .none ∨ (d.choices.save = .lost ∧ d.attempt < commandMaxAttempts)
  read : commandMaxAttempts ≤ d.attempt → (∃ s, .applied s ∈ w.history d.id) →
    d.choices.read = .none

theorem held_saved (hI : GroupInv cmd (w.ledger.find? id) (w.history id))
    (hrow : w.ledger.find? id = none) (htype : stored.commandType = cmd.type.name) :
    Held cmd id stored
      { ledger := w.ledger.saveProcessedCommand (fun _ => false) id stored.commandType stored
        log := (id, .applied stored) :: w.log } := by
  have hfind : (w.ledger.saveProcessedCommand (fun _ => false) id stored.commandType stored).find? id =
      some ⟨stored.commandType, stored, false⟩ := by
    rw [Ledger.saveProcessedCommand, hrow]
    exact Table.find?_put_self _ _ _
  have hhist := w.history_cons_self id (.applied stored)
  refine ⟨?_, ?_⟩
  · show GroupInv cmd (Table.find? _ id) (GroupWorld.history { w with log := _ :: w.log } id)
    rw [hfind, hhist]
    exact hI.apply hrow htype
  · show _ ∈ GroupWorld.history { w with log := _ :: w.log } id
    rw [hhist]
    exact List.mem_cons_self

theorem ensures_applyOnce {attempt : ℕ} {keep : GroupMutation → StoredGroupResult}
    {report : StoredGroupResult → GroupM ReportResult} (hid : id ≠ "")
    (hr : ∀ stored w, Held cmd id stored w → Ensures (report stored) w (ReportEnd cmd id stored))
    (hI : GroupInv cmd (w.ledger.find? id) (w.history id)) (hC : RecordKept w ⟨id, attempt, o⟩) :
    Ensures (applyGroupCommandOnce o id cmd keep report) w (ExecuteEnd cmd id attempt) := by
  unfold applyGroupCommandOnce
  rw [if_neg hid]
  cases hread : o.read with
  | none =>
    refine Ensures.bind (M := fun a w' => a = .ok (w.ledger.getProcessedCommandState id) ∧ w = w')
      ⟨rfl, rfl⟩ ?_
    rintro a w' ⟨rfl, rfl⟩
    cases hrow : w.ledger.find? id with
    | none =>
      -- nothing recorded: the mutation runs
      simp only [Ledger.getProcessedCommandState, hrow, Option.map_none]
      cases hmut : o.mutation with
      | error e =>
        rw [applyMutation, hmut]
        exact ⟨hI, Or.inr (hI.fresh hrow)⟩
      | ok m =>
        let stored : StoredGroupResult := { keep m with commandType := cmd.type.name }
        have hheld : Held cmd id stored _ := held_saved hI hrow rfl
        have happly : Ensures (applyMutation o id cmd keep) w fun a w₁ =>
            a = .ok stored ∧ { w with log := (id, .applied stored) :: w.log } = w₁ := by
          rw [applyMutation, hmut]
          exact ⟨rfl, rfl⟩
        refine Ensures.bind happly ?_
        rintro a w₁ ⟨rfl, rfl⟩
        rcases hC.save hrow hread ⟨m, hmut⟩ with hsave | ⟨hsave, hattempt⟩
        · dsimp only at hsave ⊢
          rw [hsave]
          refine Ensures.bind (M := fun a w₂ => a = .ok () ∧ Held cmd id stored w₂) ⟨rfl, hheld⟩ ?_
          rintro a w₂ ⟨rfl, hw₂⟩
          exact ensures_reportGroupCommand (hr stored) hw₂
        · dsimp only at hsave ⊢
          rw [hsave]
          refine Ensures.bind (M := fun a w₂ => (∃ e, a = .error e) ∧ Held cmd id stored w₂)
            ⟨⟨_, rfl⟩, hheld⟩ ?_
          rintro a w₂ ⟨⟨e, rfl⟩, hw₂⟩
          exact ⟨hw₂.inv, Or.inl hattempt⟩
    | some r =>
      simp only [Ledger.getProcessedCommandState, hrow, Option.map_some]
      cases hpub : r.eventPublished with
      | true => exact ⟨hI, hI.published r hrow hpub⟩
      | false =>
        have happ := hI.kept r hrow hpub
        have htype := hI.typed _ happ
        dsimp only
        rw [if_neg fun h => h.2 htype]
        exact ensures_reportGroupCommand (hr _) ⟨hI, happ⟩
  | failed | lost =>
    refine Ensures.bind (M := fun a w' => (∃ e, a = .error e) ∧ w = w') ⟨⟨_, rfl⟩, rfl⟩ ?_
    rintro a w' ⟨⟨e, rfl⟩, rfl⟩
    refine ⟨hI, ?_⟩
    by_cases hattempt : attempt < commandMaxAttempts
    · exact Or.inl hattempt
    · refine Or.inr fun s hs => ?_
      have hnone := hC.read (Nat.le_of_not_lt hattempt) ⟨s, hs⟩
      rw [show o.read = .none from hnone] at hread
      cases hread

theorem ensures_executeGroupCommand {attempt : ℕ} (hid : id ≠ "") (hl : cmd.ledgered = true)
    (hI : GroupInv cmd (w.ledger.find? id) (w.history id)) (hC : RecordKept w ⟨id, attempt, o⟩) :
    Ensures (executeGroupCommand o id cmd) w (ExecuteEnd cmd id attempt) := by
  have hevent := fun stored w (hw : Held cmd id stored w) => ensures_reportEvent (o := o) hw
  unfold executeGroupCommand
  cases htype : cmd.type with
  | create | leave => exact ensures_applyOnce hid hevent hI hC
  | inviteLink =>
    have hreset : cmd.reset = true := by simpa [GroupCommand.ledgered, htype] using hl
    dsimp only
    rw [if_pos hreset]
    exact ensures_applyOnce hid hevent hI hC
  | joinRequestsUpdate => exact ensures_applyOnce hid (fun _ _ => ensures_reportJoinRequests) hI hC
  | addParticipants | removeParticipants | removeParticipant | promoteAdmin | demoteAdmin =>
    exact ensures_applyOnce hid (fun _ _ => ensures_reportSnapshot) hI hC
  | joinRequestsFetch | updateSettings | sync | other name =>
    simp [GroupCommand.ledgered, htype, participantActionFor] at hl

theorem ensures_ack (hI : GroupInv cmd (w.ledger.find? id) (w.history id))
    (hfit : FitReport (w.history id)) :
    Ensures (GroupM.record id .acked) w fun _ w' =>
      GroupInv cmd (w'.ledger.find? id) (w'.history id) := by
  show GroupInv cmd (w.ledger.find? id) (GroupWorld.history { w with log := _ :: w.log } id)
  rw [GroupWorld.history_cons_self]
  exact hI.ack hfit

theorem ensures_handleGroupCommand {attempt : ℕ} (hid : id ≠ "") (hl : cmd.ledgered = true)
    (hI : GroupInv cmd (w.ledger.find? id) (w.history id)) (hC : RecordKept w ⟨id, attempt, o⟩) :
    Ensures (handleGroupCommand o id cmd attempt) w fun _ w' =>
      GroupInv cmd (w'.ledger.find? id) (w'.history id) := by
  refine Ensures.bind (ensures_executeGroupCommand hid hl hI hC) fun a w₁ h₁ => ?_
  match a, h₁ with
  | .ok _, h₁ => exact ensures_ack h₁.1 h₁.2
  | .error (.syncFailed cause stored), h₁ =>
    dsimp only
    unfold retryAppliedGroupCommand
    split_ifs
    · refine Ensures.bind (ensures_publish h₁ fitReport_notSynced) fun b w₂ h₂ => ?_
      cases b with
      | error e => exact h₂.1.inv
      | ok _ =>
        refine Ensures.bind (ensures_markReported h₂.1 (h₂.2 rfl)) fun c w₃ h₃ => ?_
        exact ensures_ack h₃.1.inv h₃.2
    · exact h₁.inv
  | .error (.rejected detail stored), ⟨hheld, hrej⟩ =>
    have hfit : FitReport (.reported (.result .failed detail) :: w₁.history id) :=
      fitReport_failed fun s hs => hheld.inv.same s stored hs hheld.applied ▸ hrej
    refine Ensures.bind (ensures_publish hheld hfit) fun b w₂ h₂ => ?_
    cases b with
    | error e => exact h₂.1.inv
    | ok _ =>
      refine Ensures.bind (ensures_markReported h₂.1 (h₂.2 rfl)) fun c w₃ h₃ => ?_
      cases c with
      | error e => exact h₃.1.inv
      | ok _ => exact ensures_ack h₃.1.inv h₃.2
  | .error (.plain text), ⟨hI₁, hlast⟩ =>
    dsimp only
    unfold retryCommand
    split_ifs with hattempt
    · -- no attempt is left, so the mutation never succeeded
      have hno : ∀ s, .applied s ∉ w₁.history id :=
        hlast.resolve_left (Nat.not_lt_of_le hattempt)
      have hhist := w₁.history_cons_self id (.reported (.result .failed text))
      have hout : GroupInv cmd (w₁.ledger.find? id)
          (.reported (.result .failed text) :: w₁.history id) :=
        hI₁.report (fitReport_failed fun s hs => absurd hs (hno s))
      have hpub : Ensures (GroupM.publish o.publishResult id (.result .failed text)) w₁ fun _ w₂ =>
          GroupInv cmd (w₂.ledger.find? id) (w₂.history id) ∧ ∀ s, .applied s ∉ w₂.history id := by
        have hnew : ∀ s, .applied s ∉ GroupEvent.reported (.result .failed text) :: w₁.history id :=
          fun s hs => hno s (by simpa using hs)
        exact ensures_faulty ⟨hhist ▸ hout, hhist ▸ hnew⟩ ⟨hhist ▸ hout, hhist ▸ hnew⟩ ⟨hI₁, hno⟩
      exact Ensures.bind hpub fun _ w₂ h₂ => ensures_ack h₂.1 fun s hs => absurd hs (h₂.2 s)
    · exact hI₁

end Delivery

/-! ### Runs -/

section Runs

variable (cmds : CommandID → GroupCommand)

def GroupWorld.Recorded (w : GroupWorld) : Prop :=
  ∀ id, id ≠ "" → (cmds id).ledgered = true →
    GroupInv (cmds id) (w.ledger.find? id) (w.history id)

/-- The condition on the deliveries of ledgered commands. -/
def KeepsRecord (w : GroupWorld) (d : GroupDelivery) : Prop :=
  d.id ≠ "" → (cmds d.id).ledgered = true → RecordKept w d

theorem recorded_step {w w' : GroupWorld} {d : GroupDelivery} (hI : w.Recorded cmds)
    (hC : KeepsRecord cmds w d) (h : groupStep cmds w d = some w') : w'.Recorded cmds := by
  obtain rfl := Option.some.inj h
  intro id hid hl
  by_cases hsame : id = d.id
  · subst hsame
    exact ensures_handleGroupCommand hid hl (hI d.id hid hl) (hC hid hl)
  · obtain ⟨hrow, hhist⟩ := touches_handleGroupCommand d.attempt w id hsame
    rw [hrow, hhist]
    exact hI id hid hl

/-- **Group mutations succeed at most once.**  In every sequence of deliveries that loses no record,
every ledgered command is applied at most once and, once acknowledged, its last report fits. -/
theorem group_applied_once (ds : List GroupDelivery)
    (hds : Meets (groupStep cmds) (KeepsRecord cmds) GroupWorld.start ds) :
    Always (groupStep cmds)
      (fun w => ∀ id, id ≠ "" → (cmds id).ledgered = true → AppliedOnce (w.history id))
      GroupWorld.start ds := by
  have hstart : GroupWorld.start.Recorded cmds := fun id _ _ => groupInv_start
  have hrun := always_of_meets (fun _ _ _ hI hC h => recorded_step cmds hI hC h) hstart hds
  exact hrun.mono fun w hI id hid hl => (hI id hid hl).toAppliedOnce

end Runs

def createCommands (_ : CommandID) : GroupCommand := ⟨.create, false, ""⟩

/-- The environment answers everything; the group is created. -/
def groupCreated : GroupChoices :=
  { read := .none, mutation := .ok ⟨"g1", "", []⟩, save := .none, fetch := .ok (), readBack := .ok ()
    publishFetched := .none, publishSnapshot := .none, publishResult := .none, mark := .none
    scrub := .none, markAgain := .none, scrubAgain := .none }

/-- The save of the first delivery fails; the redelivery creates a second group. -/
def unsavedCreation : List GroupDelivery :=
  [⟨"c1", 1, { groupCreated with save := .failed }⟩, ⟨"c1", 2, groupCreated⟩]

theorem group_created_twice :
    ¬ Always (groupStep createCommands)
      (fun w => ∀ id, id ≠ "" → (createCommands id).ledgered = true → AppliedOnce (w.history id))
      GroupWorld.start unsavedCreation := by
  intro h
  obtain ⟨w, hrun, htwice⟩ : ∃ w, runActions (groupStep createCommands) GroupWorld.start
      unsavedCreation = some w ∧ (w.history "c1").countP GroupEvent.isApplied = 2 :=
    ⟨_, rfl, by decide⟩
  have honce := (always_iff_reached.mp h unsavedCreation [] w (List.append_nil _).symm hrun "c1"
    (by decide) rfl).once
  omega

/-- The group is created and saved, its publication fails, and the redelivery reports it. -/
theorem group_applied_once_redelivery :
    Always (groupStep createCommands)
      (fun w => ∀ id, id ≠ "" → (createCommands id).ledgered = true → AppliedOnce (w.history id))
      GroupWorld.start
      [⟨"c1", 1, { groupCreated with publishFetched := .failed }⟩, ⟨"c1", 2, groupCreated⟩] :=
  group_applied_once createCommands _ fun _ _ =>
    ⟨fun _ _ => ⟨fun _ _ _ => Or.inl rfl, fun _ _ => rfl⟩, fun _ _ =>
      ⟨fun _ _ => ⟨fun _ _ _ => Or.inl rfl, fun _ _ => rfl⟩, trivial⟩⟩

end TeamInbox.Worker
