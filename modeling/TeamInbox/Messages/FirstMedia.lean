import TeamInbox.Messages.MediaResponse

/-!
# TeamInbox.Messages.FirstMedia — what the compare-and-set is good for

Once no response can complete the row any more, the row does not change: what is not referred to then will not be
referred to later, and may be deleted.  A failure, however, is settled in one step and broadcast in a later one, and
an upload is lost if neither the deletion nor the cleanup queue takes it.
-/

namespace TeamInbox.Messages

open TeamInbox.Lib

section FirstMedia

variable {Url Key : Type} {p q : ℕ} {s w : MediaDb Url Key} {x y : MediaCall Url}

/-! ### Rows and broadcasts -/

def MediaBroadcast.isDownloaded : MediaBroadcast → Bool
  | .downloaded _ => true
  | .downloadFailed _ => false

/-- The number of `media:downloaded`. -/
def MediaDb.downloads (s : MediaDb Url Key) : ℕ := s.broadcasts.countP MediaBroadcast.isDownloaded

def MediaDb.settled (s : MediaDb Url Key) : Bool := s.row.any MediaColumns.settled

theorem any_iff {α : Type} {P : α → Bool} {o : Option α} : o.any P = true ↔ ∃ r, o = some r ∧ P r = true := by
  cases o with
  | none => exact ⟨fun h => (nomatch h), fun ⟨_, h, _⟩ => (nomatch h)⟩
  | some r => exact ⟨fun h => ⟨r, rfl, h⟩, fun ⟨r', heq, h⟩ => by rw [Option.some.inj heq]; exact h⟩

theorem completes_iff : s.completes = true ↔ s.active = true ∧ ∃ r, s.row = some r ∧ r.settled = false := by
  unfold MediaDb.completes
  rw [Bool.and_eq_true, any_iff]
  simp only [Bool.not_eq_true']

theorem fails_iff : s.fails = true ↔ s.active = true ∧ ∃ r, s.row = some r ∧ r.status ≠ some .completed := by
  unfold MediaDb.fails
  rw [Bool.and_eq_true, any_iff]
  simp only [decide_eq_true_eq]

theorem settled_iff : s.settled = true ↔ ∃ r, s.row = some r ∧ r.settled = true := any_iff

theorem MediaColumns.settled_iff {r : MediaColumns Url} :
    r.settled = true ↔ r.status = some .completed ∧ ∃ u, r.mediaUrl = some u := by
  unfold MediaColumns.settled
  rw [Bool.and_eq_true, decide_eq_true_iff, Option.isSome_iff_exists]

theorem completes_of_fails (h : s.fails = true) : s.completes = true := by
  obtain ⟨hactive, r, hr, hopen⟩ := fails_iff.mp h
  refine completes_iff.mpr ⟨hactive, r, hr, ?_⟩
  rw [← Bool.not_eq_true, MediaColumns.settled_iff]
  exact fun hsettled => hopen hsettled.1

theorem completes_of_settled (h : s.settled = true) : s.completes = false := by
  obtain ⟨r, hr, hsettled⟩ := settled_iff.mp h
  rw [← Bool.not_eq_true, completes_iff]
  rintro ⟨-, r', hr', hopen⟩
  obtain rfl := Option.some.inj (hr.symm.trans hr')
  rw [hsettled] at hopen
  exact nomatch hopen

theorem downloads_announce (size : Option ℕ) : (s.broadcast (.downloaded size)).downloads = s.downloads + 1 :=
  List.countP_cons_of_pos rfl

theorem downloads_failure (error : Option String) : (s.broadcast (.downloadFailed error)).downloads = s.downloads :=
  List.countP_cons_of_neg Bool.false_ne_true

theorem settled_complete {r : MediaColumns Url} (hr : s.row = some r) (url : Url) (size : Option ℕ) :
    (s.complete p url size).settled = true :=
  settled_iff.mpr ⟨_, congrArg (Option.map _) hr, MediaColumns.settled_iff.mpr ⟨rfl, url, rfl⟩⟩

variable [DecidableEq Url] {resolveMediaKey : Url → Option Key}

/-! ### What is claimed -/

/-- The object of a completed row is not deleted; an upload that is given up is referred to, deleted or queued; and a
row that has been completed is announced once, unless the call that has completed it is about to. -/
structure FirstWins (resolveMediaKey : Url → Option Key) (before : Bool)
    (t : Calls (MediaDb Url Key) (MediaCall Url)) : Prop where
  kept : ∀ r ∈ t.shared.row, r.status = some .completed → ∀ u ∈ r.mediaUrl, ∀ k ∈ resolveMediaKey u, k ∉ t.shared.sent
  reclaimed : ∀ v ∈ t.shared.losers,
    t.shared.referenced v = true ∨ (∃ k ∈ resolveMediaKey v, k ∈ t.shared.deleted) ∨ v ∈ t.shared.queued
  completed : t.shared.settled = true → before = true ∨ ∃ p, t.shared.winner = some p
  announced : ∀ p, t.shared.winner = some p →
    t.shared.downloads = 1 ∧ (∀ size, t.calls p ≠ .completed size) ∨
      t.shared.downloads = 0 ∧ ∃ size, t.calls p = .completed size
  unannounced : t.shared.winner = none → t.shared.downloads = 0

/-- A completed row does not change, and no failure is broadcast then. -/
structure KeepsFirst (s s' : MediaDb Url Key) : Prop where
  stable : ∀ r ∈ s.row, r.settled = true → s'.row = some r
  failure : ∀ e, s'.broadcasts = .downloadFailed e :: s.broadcasts → ∀ r ∈ s.row, r.status ≠ some .completed

def QueueTakes (t : Calls (MediaDb Url Key) (MediaCall Url)) : CallAction (MediaAction Url) Empty → Prop
  | .act p (.next ok) => match t.calls p with
    | .queueing _ => ok = true
    | _ => True
  | _ => True

instance (t : Calls (MediaDb Url Key) (MediaCall Url)) (a : CallAction (MediaAction Url) Empty) :
    Decidable (QueueTakes t a) := by
  unfold QueueTakes
  split
  · split <;> infer_instance
  · infer_instance

def MediaCall.isFailed : MediaCall Url → Bool
  | .failed _ => true
  | _ => false

/-- No success is settled while a failure is settled and not yet broadcast. -/
def NoFailureWaits (t : Calls (MediaDb Url Key) (MediaCall Url)) : CallAction (MediaAction Url) Empty → Prop
  | .act p (.next true) => match t.calls p with
    | .received r => r.success = true → r.mediaUrl.isSome = true → t.shared.completes = true →
      ∀ q, q ≠ p → (t.calls q).isFailed = false
    | _ => True
  | _ => True

/-- What is deleted is not the row's object under another reference. -/
def OneReference (resolveMediaKey : Url → Option Key) (t : Calls (MediaDb Url Key) (MediaCall Url)) :
    CallAction (MediaAction Url) Empty → Prop
  | .act p (.next _) => match t.calls p with
    | .deleting url => ∀ r ∈ t.shared.row, ∀ u ∈ r.mediaUrl, resolveMediaKey u = resolveMediaKey url → u = url
    | _ => True
  | _ => True

instance [DecidableEq Key] (t : Calls (MediaDb Url Key) (MediaCall Url)) (a : CallAction (MediaAction Url) Empty) :
    Decidable (OneReference resolveMediaKey t a) := by
  unfold OneReference
  split
  · split <;> infer_instance
  · infer_instance

/-- Uploads are not lost, and no success is settled between a failure and its broadcast. -/
def InTurn (resolveMediaKey : Url → Option Key) (t : Calls (MediaDb Url Key) (MediaCall Url))
    (a : CallAction (MediaAction Url) Empty) : Prop :=
  (QueueTakes t a ∧ OneReference resolveMediaKey t a) ∧ NoFailureWaits t a

/-! ### Steps -/

inductive MediaMove (resolveMediaKey : Url → Option Key) (p : ℕ) (s : MediaDb Url Key) :
    MediaCall Url → MediaDb Url Key → MediaCall Url → Prop
  | respond {r : DownloadResponse Url} : MediaMove resolveMediaKey p s .idle s (.received r)
  | stop {r : DownloadResponse Url} : MediaMove resolveMediaKey p s (.received r) s .idle
  | complete {r : DownloadResponse Url} {url : Url} (hcan : s.completes = true) :
    MediaMove resolveMediaKey p s (.received r) (s.complete p url r.mediaSize) (.completed r.mediaSize)
  | lose {r : DownloadResponse Url} {url : Url} (hcannot : s.completes = false) :
    MediaMove resolveMediaKey p s (.received r) s (.reclaiming url)
  | fail {r : DownloadResponse Url} (hcan : s.fails = true) :
    MediaMove resolveMediaKey p s (.received r) (s.fail r.error) (.failed r.error)
  | keep {url : Url} (hreferenced : s.referenced url = true) :
    MediaMove resolveMediaKey p s (.reclaiming url) (s.giveUp url) .idle
  | reclaim {url : Url} (hfree : s.referenced url = false) :
    MediaMove resolveMediaKey p s (.reclaiming url) s (.deleting url)
  | queue {url : Url} : MediaMove resolveMediaKey p s (.reclaiming url) s (.queueing url)
  | delete {url : Url} {key : Key} (hkey : resolveMediaKey url = some key) :
    MediaMove resolveMediaKey p s (.deleting url)
      (({ s with
        sent := key :: s.sent
        deleted := key :: s.deleted } : MediaDb Url Key).giveUp url) .idle
  | undeleted {url : Url} {key : Key} (hkey : resolveMediaKey url = some key) :
    MediaMove resolveMediaKey p s (.deleting url) { s with sent := key :: s.sent } (.queueing url)
  | queued {url : Url} :
    MediaMove resolveMediaKey p s (.queueing url) (({ s with queued := url :: s.queued } : MediaDb Url Key).giveUp url) .idle
  | lost {url : Url} : MediaMove resolveMediaKey p s (.queueing url) (s.giveUp url) .idle
  | announce {size : Option ℕ} : MediaMove resolveMediaKey p s (.completed size) (s.broadcast (.downloaded size)) .idle
  | announceFailure {error : Option String} :
    MediaMove resolveMediaKey p s (.failed error) (s.broadcast (.downloadFailed error)) .idle

theorem settleResponse_move {r : DownloadResponse Url} (h : settleResponse p s r = (w, y)) :
    MediaMove resolveMediaKey p s (.received r) w y := by
  unfold settleResponse at h
  split at h
  · split_ifs at h with hcan
    · obtain ⟨rfl, rfl⟩ := Prod.mk.inj h
      exact .complete hcan
    · obtain ⟨rfl, rfl⟩ := Prod.mk.inj h
      exact .lose (Bool.not_eq_true _ ▸ hcan)
  · split_ifs at h with hcan
    · obtain ⟨rfl, rfl⟩ := Prod.mk.inj h
      exact .fail hcan
    · obtain ⟨rfl, rfl⟩ := Prod.mk.inj h
      exact .stop

theorem mediaAct_move {a : MediaAction Url} (h : mediaAct resolveMediaKey p s x a = some (w, y)) :
    MediaMove resolveMediaKey p s x w y := by
  cases a with
  | respond r =>
    cases x with
    | idle =>
      obtain ⟨rfl, rfl⟩ := Prod.mk.inj (Option.some.inj h)
      exact .respond
    | _ => exact nomatch h
  | next ok =>
    cases x with
    | idle => exact nomatch h
    | received r =>
      cases ok with
      | true => exact settleResponse_move (Option.some.inj h)
      | false =>
        obtain ⟨rfl, rfl⟩ := Prod.mk.inj (Option.some.inj h)
        exact .stop
    | reclaiming url =>
      cases ok with
      | true =>
        have h : (if s.referenced url then (s.giveUp url, MediaCall.idle)
          else (s, if (resolveMediaKey url).isSome then .deleting url else .queueing url)) = (w, y) := Option.some.inj h
        split_ifs at h with hreferenced hkey
        · obtain ⟨rfl, rfl⟩ := Prod.mk.inj h
          exact .keep hreferenced
        · obtain ⟨rfl, rfl⟩ := Prod.mk.inj h
          exact .reclaim (Bool.not_eq_true _ ▸ hreferenced)
        · obtain ⟨rfl, rfl⟩ := Prod.mk.inj h
          exact .queue
      | false =>
        obtain ⟨rfl, rfl⟩ := Prod.mk.inj (Option.some.inj h)
        exact .queue
    | deleting url =>
      obtain ⟨key, hkey, h⟩ := Option.map_eq_some_iff.mp h
      cases ok with
      | true =>
        obtain ⟨rfl, rfl⟩ := Prod.mk.inj h
        exact .delete hkey
      | false =>
        obtain ⟨rfl, rfl⟩ := Prod.mk.inj h
        exact .undeleted hkey
    | queueing url =>
      cases ok with
      | true =>
        obtain ⟨rfl, rfl⟩ := Prod.mk.inj (Option.some.inj h)
        exact .queued
      | false =>
        obtain ⟨rfl, rfl⟩ := Prod.mk.inj (Option.some.inj h)
        exact .lost
    | completed size =>
      obtain ⟨rfl, rfl⟩ := Prod.mk.inj (Option.some.inj h)
      exact .announce
    | failed error =>
      obtain ⟨rfl, rfl⟩ := Prod.mk.inj (Option.some.inj h)
      exact .announceFailure

theorem not_referenced {url : Url} (hfree : s.referenced url = false) : ∀ r ∈ s.row, url ∉ r.mediaUrl := by
  intro r hr hurl
  have hreferenced : s.referenced url = true :=
    Bool.or_eq_true_iff.mpr (.inl (any_iff.mpr ⟨r, hr, decide_eq_true hurl⟩))
  rw [hfree] at hreferenced
  exact nomatch hreferenced

/-! ### A row that can no longer be completed -/

theorem MediaMove.row (h : MediaMove resolveMediaKey p s x w y) (hcannot : s.completes = false) : w.row = s.row := by
  cases h with
  | complete hcan => exact absurd hcan (by rw [hcannot]; exact Bool.false_ne_true)
  | fail hcan => exact absurd (completes_of_fails hcan) (by rw [hcannot]; exact Bool.false_ne_true)
  | respond | stop | lose | keep | reclaim | queue | delete | undeleted | queued | lost | announce | announceFailure => rfl

theorem MediaMove.constant (h : MediaMove resolveMediaKey p s x w y) : w.active = s.active ∧ w.others = s.others := by
  cases h with
  | _ => exact ⟨rfl, rfl⟩

theorem MediaMove.completes (h : MediaMove resolveMediaKey p s x w y) (hcannot : s.completes = false) :
    w.completes = false := by
  obtain ⟨hactive, -⟩ := h.constant
  unfold MediaDb.completes
  rw [h.row hcannot, hactive]
  exact hcannot

theorem MediaMove.referenced (h : MediaMove resolveMediaKey p s x w y) (hcannot : s.completes = false) (u : Url) :
    w.referenced u = s.referenced u := by
  obtain ⟨-, hothers⟩ := h.constant
  unfold MediaDb.referenced
  rw [h.row hcannot, hothers]

/-! ### The invariant -/

/-- What has been asked to be deleted is not what the row refers to, and the row can no longer change. -/
structure MediaInv (resolveMediaKey : Url → Option Key) (before : Bool) (s : MediaDb Url Key) : Prop where
  sent : ∀ k ∈ s.sent, s.completes = false ∧ ∀ r ∈ s.row, ∀ u ∈ r.mediaUrl, resolveMediaKey u ≠ some k
  losers : ∀ v ∈ s.losers, s.referenced v = true ∧ s.completes = false ∨
    (∃ k ∈ resolveMediaKey v, k ∈ s.deleted) ∨ v ∈ s.queued
  downloads : s.downloads ≤ 1
  unannounced : s.winner = none → s.downloads = 0
  won : ∀ p, s.winner = some p → s.settled = true
  completed : s.settled = true → before = true ∨ ∃ p, s.winner = some p

/-- What a call relies on, and where the winner stands. -/
structure MediaOk (s : MediaDb Url Key) (p : ℕ) (x : MediaCall Url) : Prop where
  stage : match x with
    | .reclaiming _ => s.completes = false
    | .deleting url => s.completes = false ∧ s.referenced url = false
    | .completed _ => s.winner = some p ∧ s.downloads = 0
    | .failed _ => ∀ r ∈ s.row, r.status ≠ some .completed
    | _ => True
  winner : s.winner = some p → s.downloads = 1 ∨ ∃ size, x = .completed size

theorem MediaInv.winner_none {before : Bool} (hI : MediaInv resolveMediaKey before s) (hcan : s.completes = true) :
    s.winner = none := by
  cases hw : s.winner with
  | none => rfl
  | some p =>
    have hcannot : s.completes = false := completes_of_settled (hI.won p hw)
    rw [hcannot] at hcan
    exact nomatch hcan

theorem MediaInv.move {before : Bool} (hI : MediaInv resolveMediaKey before s) (hx : MediaOk s p x)
    (h : MediaMove resolveMediaKey p s x w y) (hqueue : ∀ url, x = .queueing url → url ∈ w.queued)
    (hone : ∀ url, x = .deleting url →
      ∀ r ∈ s.row, ∀ u ∈ r.mediaUrl, resolveMediaKey u = resolveMediaKey url → u = url) :
    MediaInv resolveMediaKey before w := by
  -- the object of an upload that is deleted is not the row's
  have hother : ∀ url key, x = .deleting url → resolveMediaKey url = some key →
      ∀ r ∈ s.row, ∀ u ∈ r.mediaUrl, resolveMediaKey u ≠ some key := fun url key hurl hkey r hr u hu hsame => by
    have hfree : s.referenced url = false := by
      have hstage := hx.stage
      rw [hurl] at hstage
      exact hstage.2
    have heq : u = url := hone url hurl r hr u hu (hsame.trans hkey.symm)
    exact not_referenced hfree r hr (heq ▸ hu)
  cases h with
  | respond | stop | lose | reclaim | queue => exact hI
  | complete hcan =>
    rename_i r url
    obtain ⟨-, row, hrow, -⟩ := completes_iff.mp hcan
    have hopen : ¬ s.completes = false := by
      rw [hcan]
      exact nofun
    refine ⟨fun k hk => ?_, fun v hv => ?_, hI.downloads, fun hnone => absurd hnone (Option.some_ne_none p),
      fun _ _ => settled_complete hrow url r.mediaSize, fun _ => .inr ⟨p, rfl⟩⟩
    · exact absurd (hI.sent k hk).1 hopen
    · exact .inr ((hI.losers v hv).resolve_left fun hlost => hopen hlost.2)
  | fail hcan =>
    rename_i r
    have hopen : ¬ s.completes = false := by
      rw [completes_of_fails hcan]
      exact nofun
    have hnone : s.winner = none := hI.winner_none (completes_of_fails hcan)
    refine ⟨fun k hk => ?_, fun v hv => ?_, hI.downloads, hI.unannounced, fun q hq => ?_, fun hsettled => ?_⟩
    · exact absurd (hI.sent k hk).1 hopen
    · exact .inr ((hI.losers v hv).resolve_left fun hlost => hopen hlost.2)
    · exact absurd (hnone.symm.trans hq) (Option.some_ne_none q).symm
    · obtain ⟨row, hrow, hstatus⟩ := settled_iff.mp hsettled
      obtain ⟨row₀, -, rfl⟩ := Option.map_eq_some_iff.mp hrow
      exact nomatch (MediaColumns.settled_iff.mp hstatus).1
  | keep hreferenced =>
    refine ⟨hI.sent, fun v hv => ?_, hI.downloads, hI.unannounced, hI.won, hI.completed⟩
    rcases List.mem_cons.mp hv with rfl | hv
    · exact .inl ⟨hreferenced, hx.stage⟩
    · exact hI.losers v hv
  | delete hkey =>
    rename_i url key
    refine ⟨fun k hk => ?_, fun v hv => ?_, hI.downloads, hI.unannounced, hI.won, hI.completed⟩
    · rcases List.mem_cons.mp hk with rfl | hk
      · exact ⟨hx.stage.1, hother url k rfl hkey⟩
      · exact hI.sent k hk
    · rcases List.mem_cons.mp hv with rfl | hv
      · exact .inr (.inl ⟨key, hkey, List.mem_cons_self⟩)
      · exact (hI.losers v hv).imp_right (Or.imp_left fun ⟨k, hk, hdeleted⟩ => ⟨k, hk, List.mem_cons_of_mem _ hdeleted⟩)
  | undeleted hkey =>
    rename_i url key
    refine ⟨fun k hk => ?_, hI.losers, hI.downloads, hI.unannounced, hI.won, hI.completed⟩
    rcases List.mem_cons.mp hk with rfl | hk
    · exact ⟨hx.stage.1, hother url k rfl hkey⟩
    · exact hI.sent k hk
  | queued =>
    refine ⟨hI.sent, fun v hv => ?_, hI.downloads, hI.unannounced, hI.won, hI.completed⟩
    rcases List.mem_cons.mp hv with rfl | hv
    · exact .inr (.inr List.mem_cons_self)
    · exact (hI.losers v hv).imp_right (Or.imp_right (List.mem_cons_of_mem _))
  | lost =>
    refine ⟨hI.sent, fun v hv => ?_, hI.downloads, hI.unannounced, hI.won, hI.completed⟩
    rcases List.mem_cons.mp hv with rfl | hv
    · exact .inr (.inr (hqueue v rfl))
    · exact hI.losers v hv
  | announce =>
    obtain ⟨hwinner, hzero⟩ := hx.stage
    refine ⟨hI.sent, hI.losers, ?_, fun hnone => ?_, hI.won, hI.completed⟩
    · exact Nat.le_of_eq ((downloads_announce _).trans (congrArg (· + 1) hzero))
    · exact absurd (hwinner.symm.trans hnone) (Option.some_ne_none p)
  | announceFailure => exact ⟨hI.sent, hI.losers, hI.downloads, hI.unannounced, hI.won, hI.completed⟩

theorem MediaOk.next {before : Bool} (hI : MediaInv resolveMediaKey before s) (hx : MediaOk s p x)
    (h : MediaMove resolveMediaKey p s x w y) : MediaOk w p y := by
  have hdone : (∀ size, x ≠ .completed size) → s.winner = some p → s.downloads = 1 := fun hne hwinner =>
    (hx.winner hwinner).resolve_right fun ⟨size, hsize⟩ => hne size hsize
  cases h with
  | respond | stop | queue => exact ⟨trivial, fun hw => .inl (hdone nofun hw)⟩
  | complete hcan =>
    exact ⟨⟨rfl, hI.unannounced (hI.winner_none hcan)⟩, fun _ => .inr ⟨_, rfl⟩⟩
  | lose hcannot => exact ⟨hcannot, fun hw => .inl (hdone nofun hw)⟩
  | fail hcan =>
    refine ⟨fun r hr => ?_, fun hw => .inl (hdone nofun hw)⟩
    obtain ⟨r₀, -, rfl⟩ := Option.map_eq_some_iff.mp hr
    exact nofun
  | keep => exact ⟨trivial, fun hw => .inl (hdone nofun hw)⟩
  | reclaim hfree => exact ⟨⟨hx.stage, hfree⟩, fun hw => .inl (hdone nofun hw)⟩
  | delete | undeleted | queued | lost | announceFailure => exact ⟨trivial, fun hw => .inl (hdone nofun hw)⟩
  | announce =>
    refine ⟨trivial, fun _ => .inl ?_⟩
    rw [downloads_announce, hx.stage.2]

theorem MediaMove.announced {before : Bool} (hI : MediaInv resolveMediaKey before s) (hx : MediaOk s p x)
    (h : MediaMove resolveMediaKey p s x w y) (hqp : q ≠ p) (hwinner : s.winner = some q) :
    w.winner = some q ∧ w.downloads = s.downloads := by
  cases h with
  | complete hcan => exact absurd ((hI.winner_none hcan).symm.trans hwinner) (Option.some_ne_none q).symm
  | announce => exact absurd (Option.some.inj (hwinner.symm.trans hx.stage.1)) hqp
  | announceFailure => exact ⟨hwinner, downloads_failure _⟩
  | respond | stop | lose | fail | keep | reclaim | queue | delete | undeleted | queued | lost => exact ⟨hwinner, rfl⟩

theorem MediaMove.winner (h : MediaMove resolveMediaKey p s x w y) : w.winner = s.winner ∨ w.winner = some p := by
  cases h with
  | complete => exact .inr rfl
  | respond | stop | lose | fail | keep | reclaim | queue | delete | undeleted | queued | lost | announce
  | announceFailure => exact .inl rfl

theorem MediaMove.uncompleted (h : MediaMove resolveMediaKey p s x w y) (hlosing : w.winner = s.winner ∨ s.completes = false)
    (hopen : ∀ r ∈ s.row, r.status ≠ some .completed) (hnone : s.completes = true → s.winner = none) :
    ∀ r ∈ w.row, r.status ≠ some .completed := by
  cases h with
  | complete hcan =>
    rcases hlosing with hsame | hcannot
    · exact absurd (hsame.trans (hnone hcan)) (Option.some_ne_none p)
    · rw [hcan] at hcannot
      exact nomatch hcannot
  | fail =>
    intro r hr
    obtain ⟨r₀, -, rfl⟩ := Option.map_eq_some_iff.mp hr
    exact nofun
  | respond | stop | lose | keep | reclaim | queue | delete | undeleted | queued | lost | announce
  | announceFailure => exact hopen

theorem MediaOk.kept {before : Bool} (hI : MediaInv resolveMediaKey before s) (hx : MediaOk s p x)
    (h : MediaMove resolveMediaKey p s x w y) (hqp : q ≠ p) {z : MediaCall Url} (hz : MediaOk s q z)
    (hfailure : s.winner = none → w.winner = some p → z.isFailed = false) : MediaOk w q z := by
  refine ⟨?_, fun hwinner => ?_⟩
  · have hstage := hz.stage
    cases z with
    | idle | received | queueing => trivial
    | reclaiming url => exact h.completes hstage
    | deleting url => exact ⟨h.completes hstage.1, (h.referenced hstage.1 url).trans hstage.2⟩
    | completed size =>
      obtain ⟨hwinner, hdownloads⟩ := h.announced hI hx hqp hstage.1
      exact ⟨hwinner, hdownloads.trans hstage.2⟩
    | failed error =>
      refine h.uncompleted ?_ hstage hI.winner_none
      rcases h.winner with hsame | hwins
      · exact .inl hsame
      · rw [← Bool.not_eq_true]
        exact .inr fun hcan => nomatch hfailure (hI.winner_none hcan) hwins
  · have hbefore : s.winner = some q := by
      rcases h.winner with hsame | hwins
      · exact hsame.symm.trans hwinner
      · exact absurd (Option.some.inj (hwinner.symm.trans hwins)) hqp
    rw [(h.announced hI hx hqp hbefore).2]
    exact hz.winner hbefore

/-! ### Runs -/

theorem mediaAct_wins {a : MediaAction Url} (h : mediaAct resolveMediaKey p s x a = some (w, y)) (hnone : s.winner = none)
    (hwins : w.winner = some p) :
    ∃ r, x = .received r ∧ a = .next true ∧ r.success = true ∧ r.mediaUrl.isSome = true ∧ s.completes = true := by
  have hmove : MediaMove resolveMediaKey p s x w y := mediaAct_move h
  cases hmove with
  | complete hcan =>
    rename_i r url
    cases a with
    | respond => exact nomatch h
    | next ok =>
      cases ok with
      | false => exact nomatch (Prod.mk.inj (Option.some.inj h)).2
      | true =>
        have hsettle : settleResponse p s r = (s.complete p url r.mediaSize, .completed r.mediaSize) := Option.some.inj h
        unfold settleResponse at hsettle
        split at hsettle
        next hsuccess hurl =>
          refine ⟨r, rfl, rfl, hsuccess, ?_, hcan⟩
          rw [hurl]
          rfl
        next =>
          split_ifs at hsettle
          · exact nomatch (Prod.mk.inj hsettle).2
          · exact nomatch (Prod.mk.inj hsettle).2
  | respond | stop | lose | fail | keep | reclaim | queue | delete | undeleted | queued | lost | announce
  | announceFailure => exact absurd (hnone.symm.trans hwins) (Option.some_ne_none p).symm

def MediaHolds (resolveMediaKey : Url → Option Key) (before : Bool) : Calls (MediaDb Url Key) (MediaCall Url) → Prop :=
  Holds (MediaInv resolveMediaKey before) MediaOk

theorem mediaHolds_step {before : Bool} (t : Calls (MediaDb Url Key) (MediaCall Url))
    (a : CallAction (MediaAction Url) Empty) (t' : Calls (MediaDb Url Key) (MediaCall Url))
    (hI : MediaHolds resolveMediaKey before t) (hC : InTurn resolveMediaKey t a)
    (h : (mediaSystem resolveMediaKey).step t a = some t') : MediaHolds resolveMediaKey before t' := by
  refine Machine.holds_step (M := mediaSystem resolveMediaKey) (C := InTurn resolveMediaKey)
    (fun t p a w y hI hC hact => ?_) (fun t e => nomatch e) t a t' hI hC h
  obtain ⟨hshared, hcalls⟩ := hI
  obtain ⟨⟨htakes, hone⟩, hwaits⟩ := hC
  have hact : mediaAct resolveMediaKey p t.shared (t.calls p) a = some (w, y) := hact
  have hmove : MediaMove resolveMediaKey p t.shared (t.calls p) w y := mediaAct_move hact
  refine ⟨hshared.move (hcalls p) hmove (fun url hurl => ?_) (fun url hurl => ?_), MediaOk.next hshared (hcalls p) hmove,
    fun q hq => MediaOk.kept hshared (hcalls p) hmove hq (hcalls q) fun hnone hwins => ?_⟩
  · rw [hurl] at hact
    cases a with
    | respond => exact nomatch hact
    | next ok =>
      have hok : ok = true := by
        simp only [QueueTakes, hurl] at htakes
        exact htakes
      subst hok
      obtain ⟨rfl, -⟩ := Prod.mk.inj (Option.some.inj hact)
      exact List.mem_cons_self
  · cases a with
    | respond => exact nomatch hurl ▸ hact
    | next ok =>
      simp only [OneReference, hurl] at hone
      exact hone
  · obtain ⟨r, hr, rfl, hsuccess, hurl, hcan⟩ := mediaAct_wins hact hnone hwins
    simp only [NoFailureWaits, hr] at hwaits
    exact hwaits hsuccess hurl hcan q hq

theorem MediaHolds.firstWins {before : Bool} {t : Calls (MediaDb Url Key) (MediaCall Url)}
    (h : MediaHolds resolveMediaKey before t) : FirstWins resolveMediaKey before t where
  kept := fun r hr _ u hu k hk hsent => (h.1.sent k hsent).2 r hr u hu hk
  reclaimed := fun v hv => (h.1.losers v hv).imp_left And.left
  completed := h.1.completed
  announced := fun p hp => by
    by_cases hcompleted : ∃ size, t.calls p = .completed size
    · obtain ⟨size, hsize⟩ := hcompleted
      have hstage := (h.2 p).stage
      rw [hsize] at hstage
      exact .inr ⟨hstage.2, size, hsize⟩
    · have hnot : ∀ size, t.calls p ≠ .completed size := not_exists.mp hcompleted
      exact .inl ⟨((h.2 p).winner hp).resolve_right hcompleted, hnot⟩
  unannounced := h.1.unannounced

theorem keepsFirst_step {before : Bool} {t t' : Calls (MediaDb Url Key) (MediaCall Url)}
    {a : CallAction (MediaAction Url) Empty} (hI : MediaHolds resolveMediaKey before t)
    (h : (mediaSystem resolveMediaKey).step t a = some t') : KeepsFirst t.shared t'.shared := by
  cases a with
  | env e => exact nomatch e
  | act p a =>
    obtain ⟨w, y, hact, rfl⟩ := Machine.step_act h
    have hmove : MediaMove resolveMediaKey p t.shared (t.calls p) w y := mediaAct_move hact
    rw [Calls.shared_set]
    refine ⟨fun r hr hsettled => ?_, fun e hbroadcast => ?_⟩
    · rw [hmove.row (completes_of_settled (settled_iff.mpr ⟨r, hr, hsettled⟩))]
      exact hr
    · have hok : MediaOk t.shared p (t.calls p) := hI.2 p
      generalize t.calls p = x at hmove hok
      cases hmove with
      | announceFailure => exact hok.stage
      | announce => exact nomatch (List.cons.inj hbroadcast).1
      | respond | stop | complete | lose | fail | keep | reclaim | queue | delete | undeleted | queued | lost =>
        exact absurd hbroadcast.symm (List.cons_ne_self _ _)

theorem mediaHolds_start (active : Bool) (row : Option (MediaColumns Url)) (others : List Url) :
    MediaHolds resolveMediaKey (row.any MediaColumns.settled) (.start (.initial active row others) .idle) :=
  holds_start ⟨fun _ hk => absurd hk List.not_mem_nil, fun _ hv => absurd hv List.not_mem_nil, Nat.zero_le 1, fun _ => rfl,
    fun _ hp => absurd hp.symm (Option.some_ne_none _), fun hsettled => .inl hsettled⟩
    fun _ => ⟨trivial, fun hp => absurd hp.symm (Option.some_ne_none _)⟩

/-- **The first media response wins**, as long as none comes between a failure and its broadcast and the cleanup queue
takes what could not be deleted. -/
theorem first_media_wins (active : Bool) (row : Option (MediaColumns Url)) (others : List Url)
    (as : List (CallAction (MediaAction Url) Empty))
    (h : Meets (mediaSystem resolveMediaKey).step (InTurn resolveMediaKey)
      (.start (.initial active row others) .idle) as) :
    Always (mediaSystem resolveMediaKey).step (FirstWins resolveMediaKey (row.any MediaColumns.settled))
        (.start (.initial active row others) .idle) as ∧
      Steps (mediaSystem resolveMediaKey).step (fun t _ t' => KeepsFirst t.shared t'.shared)
        (.start (.initial active row others) .idle) as := by
  have hstart : MediaHolds resolveMediaKey (row.any MediaColumns.settled) (.start (.initial active row others) .idle) :=
    mediaHolds_start active row others
  exact ⟨(always_of_meets mediaHolds_step hstart h).mono fun _ => MediaHolds.firstWins,
    steps_of_meets (fun t a t' hI hC hstep => ⟨mediaHolds_step t a t' hI hC hstep, keepsFirst_step hI hstep⟩) hstart h⟩

def pendingMedia : MediaColumns String := ⟨none, none, some .pending, none⟩

def downloadSuccess (url : String) : DownloadResponse String := ⟨true, some url, some 7, none⟩

def downloadFailure : DownloadResponse String := ⟨false, none, none, some "gone"⟩

/-- A failure, two successes of which the second loses and is deleted, and a redelivery of the first. -/
theorem first_media_wins_redelivered :
    Always (mediaSystem (some : String → Option String)).step (FirstWins some false)
        (.start (.initial true (some pendingMedia) []) .idle)
        [.act 0 (.respond downloadFailure), .act 0 (.next true), .act 0 (.next true), .act 1 (.respond (downloadSuccess "a")),
          .act 2 (.respond (downloadSuccess "b")), .act 1 (.next true), .act 2 (.next true), .act 1 (.next true),
          .act 2 (.next true), .act 2 (.next true), .act 3 (.respond (downloadSuccess "a")), .act 3 (.next true),
          .act 3 (.next true)] ∧
      Steps (mediaSystem (some : String → Option String)).step (fun t _ t' => KeepsFirst t.shared t'.shared)
        (.start (.initial true (some pendingMedia) []) .idle)
        [.act 0 (.respond downloadFailure), .act 0 (.next true), .act 0 (.next true), .act 1 (.respond (downloadSuccess "a")),
          .act 2 (.respond (downloadSuccess "b")), .act 1 (.next true), .act 2 (.next true), .act 1 (.next true),
          .act 2 (.next true), .act 2 (.next true), .act 3 (.respond (downloadSuccess "a")), .act 3 (.next true),
          .act 3 (.next true)] := by
  refine first_media_wins true (some pendingMedia) [] _
    (Meets.and (meets_of_check (by decide +kernel)) ?_)
  refine meets_of_below (P := fun x => x.isFailed = false) 4 rfl (fun s a h => ?_) (fun _ _ => rfl) rfl
    (meets_of_check (by decide +kernel))
  cases a with
  | env e => exact nomatch e
  | act p a =>
    cases a with
    | respond => trivial
    | next ok =>
      cases ok with
      | false => trivial
      | true =>
        have hothers : ∀ q, q ≠ p → (s.calls q).isFailed = false := fun q hq =>
          h q fun hp => hq (Option.some.inj hp).symm
        simp only [NoFailureWaits]
        split
        · exact fun _ _ _ => hothers
        · trivial

/-- A failure is settled, a success completes the row, and then the failure is broadcast. -/
theorem late_failure_broadcast : ¬ ∀ as, Steps (mediaSystem (some : String → Option String)).step
    (fun t _ t' => KeepsFirst t.shared t'.shared) (.start (.initial true (some pendingMedia) []) .idle) as := by
  intro h
  have hrun : (runActions (mediaSystem (some : String → Option String)).step
      (.start (.initial true (some pendingMedia) []) .idle)
      [.act 0 (.respond downloadFailure), .act 0 (.next true), .act 1 (.respond (downloadSuccess "a")), .act 1 (.next true)]).map
      (fun t => (t.shared.row, t.shared.broadcasts,
        ((mediaSystem some).step t (.act 0 (.next true))).map fun t' => t'.shared.broadcasts)) =
        some (some ⟨some "a", some 7, some .completed, some "gone"⟩, [], some [.downloadFailed (some "gone")]) := by
    decide +kernel
  obtain ⟨t, ht, hend⟩ := Option.map_eq_some_iff.mp hrun
  obtain ⟨hrow, hend⟩ := Prod.mk.inj hend
  obtain ⟨hnone, hlast⟩ := Prod.mk.inj hend
  obtain ⟨t', ht', hbroadcast⟩ := Option.map_eq_some_iff.mp hlast
  have hkeeps : KeepsFirst t.shared t'.shared := (h (_ ++ [.act 0 (.next true)])).last ht ht'
  have hlate : t'.shared.broadcasts = .downloadFailed (some "gone") :: t.shared.broadcasts := by
    rw [hnone]
    exact hbroadcast
  exact hkeeps.failure _ hlate _ hrow rfl

end FirstMedia

end TeamInbox.Messages
