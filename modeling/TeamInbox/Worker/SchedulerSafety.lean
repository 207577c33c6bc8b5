import TeamInbox.Worker.SendScheduler
import Mathlib.Data.List.Perm.Basic

/-!
# TeamInbox.Worker.SchedulerSafety — what the send scheduler keeps

The queues are read through `Scheduler.jobs`, the jobs of all queues up to order: accepting a job adds
one, settling it takes one away, the round robin permutes them and a preparation changes the stage of
one.  The bounds, the order of hand-outs and the whereabouts of every accepted job follow from one
invariant.  Two slips show: a handler that settles its command before it has taken the prepared media
leaves the buffer in `s.prepared` beyond its media slot, and a command of a type the scheduler does not
list leaves its queue although `handleSendCommand` deferred it.
-/

namespace TeamInbox.Worker

open TeamInbox.Lib

/-! ### The round robin -/

namespace Scheduler

/-- One pass over the keys still pending; `visited` holds the keys that were passed over. -/
def scanPass (clock : String → ℕ) (queues : String → List Job) :
    List String → List String → List String × Option Job
  | [], visited => (visited, none)
  | key :: pending, visited =>
    match queues key with
    | [] => scanPass clock queues pending visited
    | job :: _ =>
      if eligible clock job then (pending ++ visited ++ [key], some job)
      else scanPass clock queues pending (visited ++ [key])

theorem scanLoop_eq (clock : String → ℕ) (queues : String → List Job) (fuel : ℕ)
    (pending visited : List String) (h : pending.length ≤ fuel) :
    scanLoop clock fuel visited.length (pending ++ visited) queues =
      some ((scanPass clock queues pending visited).1, queues,
        (scanPass clock queues pending visited).2) := by
  induction pending generalizing fuel visited with
  | nil =>
    cases fuel with
    | zero => simp [scanLoop, scanPass]
    | succ fuel => simp [scanLoop, scanPass]
  | cons key pending ih =>
    cases fuel with
    | zero => simp at h
    | succ fuel =>
      have hfuel : pending.length ≤ fuel := by simpa using h
      have hlt : visited.length < (key :: pending ++ visited).length := by
        simp only [List.length_append, List.length_cons]
        omega
      unfold scanLoop scanPass
      rw [if_pos hlt]
      dsimp only [List.cons_append]
      cases hq : queues key with
      | nil =>
        dsimp only
        rw [Function.update_eq_self_iff.mpr hq.symm]
        exact ih fuel visited hfuel
      | cons job rest =>
        dsimp only
        split_ifs with hel
        · simp
        · have hstep := ih fuel (visited ++ [key]) hfuel
          rw [List.length_append, List.length_singleton, ← List.append_assoc] at hstep
          exact hstep

theorem scanLoop_order (clock : String → ℕ) (order : List String) (queues : String → List Job) :
    scanLoop clock order.length 0 order queues =
      some ((scanPass clock queues order []).1, queues, (scanPass clock queues order []).2) := by
  have h := scanLoop_eq clock queues order.length order [] (Nat.le_refl _)
  rwa [List.append_nil] at h

theorem scanPass_none {clock : String → ℕ} {queues : String → List Job} {pending visited : List String}
    (h : (scanPass clock queues pending visited).2 = none) :
    ∀ key ∈ pending, ∀ job rest, queues key = job :: rest → eligible clock job = false := by
  induction pending generalizing visited with
  | nil => simp
  | cons key pending ih =>
    intro key' hmem job rest hq
    rw [scanPass] at h
    rcases List.mem_cons.mp hmem with rfl | hmem
    · rw [hq] at h
      dsimp only at h
      split_ifs at h with hel
      simpa using hel
    · cases hk : queues key with
      | nil =>
        rw [hk] at h
        exact ih h key' hmem job rest hq
      | cons j l =>
        rw [hk] at h
        dsimp only at h
        split_ifs at h
        exact ih h key' hmem job rest hq

theorem scanPass_some {clock : String → ℕ} {queues : String → List Job} {pending visited : List String}
    {job : Job} (h : (scanPass clock queues pending visited).2 = some job) :
    ∃ key ∈ pending, ∃ rest, queues key = job :: rest ∧ eligible clock job = true := by
  induction pending generalizing visited with
  | nil => cases h
  | cons key pending ih =>
    rw [scanPass] at h
    cases hk : queues key with
    | nil =>
      rw [hk] at h
      obtain ⟨key', hmem, hrest⟩ := ih h
      exact ⟨key', List.mem_cons_of_mem _ hmem, hrest⟩
    | cons j l =>
      rw [hk] at h
      dsimp only at h
      split_ifs at h with hel
      · obtain rfl := Option.some.inj h
        exact ⟨key, List.mem_cons_self, l, hk, hel⟩
      · obtain ⟨key', hmem, hrest⟩ := ih h
        exact ⟨key', List.mem_cons_of_mem _ hmem, hrest⟩

theorem scanPass_perm {clock : String → ℕ} {queues : String → List Job} {pending visited : List String}
    (h : ∀ key ∈ pending, queues key ≠ []) :
    (scanPass clock queues pending visited).1.Perm (pending ++ visited) := by
  induction pending generalizing visited with
  | nil => exact List.Perm.refl _
  | cons key pending ih =>
    have hrest := fun k hk => h k (List.mem_cons_of_mem key hk)
    have hmove : (pending ++ visited ++ [key]).Perm (key :: pending ++ visited) := by
      rw [List.cons_append]
      exact List.perm_append_singleton key (pending ++ visited)
    rw [scanPass]
    cases hk : queues key with
    | nil => exact absurd hk (h key List.mem_cons_self)
    | cons j l =>
      dsimp only
      split_ifs
      · exact hmove
      · have hperm : (scanPass clock queues pending (visited ++ [key])).1.Perm
            (pending ++ (visited ++ [key])) := ih hrest
        rw [← List.append_assoc] at hperm
        exact hperm.trans hmove

/-! ### What is claimed -/

def jobs (s : Scheduler) : List Job := s.order.flatMap s.queues

/-- `s.prepared` still holds a buffer that no queued job holds. -/
def stale (s : Scheduler) : Bool :=
  match s.handoff with
  | some (r, .data) => !s.jobs.any fun j => decide (j.id = r.id) && j.stage.buffer
  | _ => false

def buffers (s : Scheduler) : ℕ :=
  s.jobs.countP (·.stage.buffer) + if s.stale then 1 else 0

end Scheduler

/-- When a job is handed out, every job of its key that was accepted before it has left the queue, and
no later one has been handed out. -/
def HandedInOrder : List SchedEvent → Prop
  | [] => True
  | .handed r :: l =>
    ((∀ i, .accepted ⟨r.key, i⟩ ∈ l → i < r.id → .removed i ∈ l) ∧
      ∀ i, .handed ⟨r.key, i⟩ ∈ l → i ≤ r.id) ∧ HandedInOrder l
  | _ :: l => HandedInOrder l

/-- The round robin ends, and hands out an eligible head or has seen every head. -/
def ScanVisitsAll (s : Scheduler) : Prop :=
  ∀ clock, ∃ order job, Scheduler.scanLoop clock s.order.length 0 s.order s.queues =
      some (order, s.queues, job) ∧ order.Perm s.order ∧
    match job with
    | some j => ∃ key rest, s.queues key = j :: rest ∧ Scheduler.eligible clock j = true
    | none => ∀ key j rest, s.queues key = j :: rest → Scheduler.eligible clock j = false

structure SchedSafe (s : Scheduler) : Prop where
  oneSend : s.running.length ≤ 1
  inOrder : HandedInOrder s.log
  oneJob : ∀ i ∈ s.jobs, ∀ j ∈ s.jobs, i.commandID = j.commandID → i.commandID ≠ "" → i = j
  slots : s.slots = s.jobs.length + s.fetcher.holds
  limit : s.slots ≤ commandQueueLimit
  round : ScanVisitsAll s
  /-- No job stands in two queues or twice in one. -/
  oneQueue : (s.jobs.map (·.id)).Nodup

/-- Every accepted job is queued, settled or left to the broker at shutdown, and the buffers are
bounded. -/
structure SchedKept (s : Scheduler) : Prop extends SchedSafe s where
  buffers : s.buffers ≤ mediaPreparationLimit
  kept : ∀ i < s.accepted, .settled i ∈ s.log ∨
    if s.ended then .returned i ∈ s.log ∨ s.sending.map (·.id) = some i
    else ∃ j ∈ s.jobs, j.id = i

/-- A handler that settles its command tells the broker and has taken its prepared media. -/
def SettlesCleanly (s : Scheduler) : SchedAction → Prop
  | .handlerEnds r took e _ => ∀ job, s.find? r = some job → e.settled job.kind = true →
      e.told = true ∧ (job.stage.buffer = true → took = true)
  | _ => True

/-! ### The invariant -/

/-- `P` says that every handler settles cleanly. -/
structure SchedInv (P : Prop) (s : Scheduler) : Prop where
  nodup : s.order.Nodup
  cover : ∀ k, k ∈ s.order ↔ s.queues k ≠ []
  keyed : ∀ k, ∀ j ∈ s.queues k, j.key = k
  sorted : ∀ k, (s.queues k).Pairwise fun i j => i.id < j.id
  behind : ∀ k, ∀ j ∈ (s.queues k).tail, j.stage = .queued
  ids : (s.jobs.map (·.id)).Nodup
  numbered : ∀ j ∈ s.jobs, j.id < s.accepted
  commands : ∀ i ∈ s.jobs, ∀ j ∈ s.jobs, i.commandID = j.commandID → i.commandID ≠ "" → i.id = j.id
  active : ∀ j ∈ s.jobs, j.commandID ≠ "" → j.commandID ∈ s.activeIDs
  slots : s.slots = s.jobs.length + s.fetcher.holds
  slots_le : s.slots ≤ commandQueueLimit
  media : s.mediaSlots = s.jobs.countP (·.stage.slot)
  media_le : s.mediaSlots ≤ mediaPreparationLimit
  head : ∀ r, s.sending = some r →
    ∃ j rest m, s.queues r.key = j :: rest ∧ j.id = r.id ∧ j.stage = .ready m
  tasks : s.running.length + s.finished.length ≤ 1
  runs : ∀ r b, (r, b) ∈ s.running → s.sending = some r
  posts : ∀ r b, (r, b) ∈ s.finished → s.sending = some r
  handed : HandedInOrder s.log
  due : ∀ r, .handed r ∈ s.log → ∀ j ∈ s.queues r.key, r.id ≤ j.id
  handed_lt : ∀ r, .handed r ∈ s.log → r.id < s.accepted
  known : ∀ k i, .accepted ⟨k, i⟩ ∈ s.log → (∃ j ∈ s.queues k, j.id = i) ∨ .removed i ∈ s.log
  all : ∀ i < s.accepted, ∃ k, .accepted ⟨k, i⟩ ∈ s.log
  settled : P → ∀ i, .removed i ∈ s.log → .settled i ∈ s.log
  told : P → ∀ r, (r, true) ∈ s.finished → .settled r.id ∈ s.log
  handoff : P → ∀ r, s.handoff = some (r, .data) →
    (∃ j ∈ s.jobs, (j.id = r.id ∧ j.key = r.key) ∧ j.stage = .ready .data) ∧ (r, true) ∉ s.finished
  left : s.ended = true → ∀ j ∈ s.jobs, .returned j.id ∈ s.log ∨ s.sending.map (·.id) = some j.id

section Jobs

variable {P : Prop} {s : Scheduler}

theorem mem_jobs (hI : SchedInv P s) {j : Job} : j ∈ s.jobs ↔ j ∈ s.queues j.key := by
  unfold Scheduler.jobs
  rw [List.mem_flatMap]
  constructor
  · rintro ⟨k, -, hj⟩
    rw [hI.keyed k j hj]
    exact hj
  · intro hj
    exact ⟨j.key, (hI.cover j.key).mpr (List.ne_nil_of_mem hj), hj⟩

theorem mem_jobs_of_mem (hI : SchedInv P s) {j : Job} {k : String} (hj : j ∈ s.queues k) :
    j ∈ s.jobs := by
  rw [mem_jobs hI, hI.keyed k j hj]
  exact hj

theorem eq_of_id (hI : SchedInv P s) {i j : Job} (hi : i ∈ s.jobs) (hj : j ∈ s.jobs)
    (h : i.id = j.id) : i = j := List.inj_on_of_nodup_map hI.ids hi hj h

theorem flatMap_perm {order : List String} (queues : String → List Job) {k : String}
    (hn : order.Nodup) (hk : k ∈ order) (l : List Job) :
    (order.flatMap (Function.update queues k l)).Perm (l ++ (order.erase k).flatMap queues) := by
  have hperm := (List.perm_cons_erase hk).flatMap_right (Function.update queues k l)
  rw [List.flatMap_cons, Function.update_self] at hperm
  have hrest : (order.erase k).flatMap (Function.update queues k l) =
      (order.erase k).flatMap queues := by
    refine List.flatMap_congr fun x hx => ?_
    have hne : x ≠ k := fun heq => (List.Nodup.not_mem_erase hn) (heq ▸ hx)
    rw [Function.update_of_ne hne]
  rwa [hrest] at hperm

theorem jobs_perm (hn : s.order.Nodup) {k : String} (hk : k ∈ s.order) :
    s.jobs.Perm (s.queues k ++ (s.order.erase k).flatMap s.queues) := by
  have h := flatMap_perm s.queues hn hk (s.queues k)
  rwa [Function.update_eq_self] at h

theorem find?_mem {r : JobRef} {job : Job} (hI : SchedInv P s) (h : s.find? r = some job) :
    job ∈ s.jobs ∧ job.id = r.id ∧ job.key = r.key ∧ job ∈ s.queues r.key := by
  have hmem : job ∈ s.queues r.key := List.mem_of_find?_eq_some h
  have hid : job.id = r.id := by simpa using List.find?_some h
  exact ⟨mem_jobs_of_mem hI hmem, hid, hI.keyed _ _ hmem, hmem⟩

end Jobs

/-! ### The invariant gives what is claimed -/

section Claims

open Scheduler

variable {P : Prop} {s : Scheduler}

theorem SchedInv.scanVisitsAll (hI : SchedInv P s) : ScanVisitsAll s := by
  intro clock
  have hne : ∀ key ∈ s.order, s.queues key ≠ [] := fun key hk => (hI.cover key).mp hk
  have hperm : (scanPass clock s.queues s.order []).1.Perm (s.order ++ []) := scanPass_perm hne
  rw [List.append_nil] at hperm
  refine ⟨_, _, scanLoop_order clock s.order s.queues, hperm, ?_⟩
  cases hjob : (scanPass clock s.queues s.order []).2 with
  | none =>
    intro key j rest hq
    have hk : key ∈ s.order := (hI.cover key).mpr (by simp [hq])
    exact scanPass_none hjob key hk j rest hq
  | some j =>
    obtain ⟨key, -, rest, hq, hel⟩ := scanPass_some hjob
    exact ⟨key, rest, hq, hel⟩

theorem SchedInv.safe (hI : SchedInv P s) : SchedSafe s where
  oneSend := by
    have h := hI.tasks
    omega
  inOrder := hI.handed
  oneJob i hi j hj hc hne := eq_of_id hI hi hj (hI.commands i hi j hj hc hne)
  slots := hI.slots
  limit := hI.slots_le
  round := hI.scanVisitsAll
  oneQueue := hI.ids

theorem Stage.slot_of_buffer {st : Stage} (h : st.buffer = true) : st.slot = true := by
  cases st with
  | downloading => rfl
  | offered m => cases m <;> first | rfl | cases h
  | ready m => cases m <;> first | rfl | cases h
  | _ => cases h

theorem SchedInv.buffers_le (hI : SchedInv True s) : s.buffers ≤ mediaPreparationLimit := by
  have hstale : s.stale = false := by
    unfold Scheduler.stale
    split
    · next r hh =>
      obtain ⟨⟨j, hj, ⟨hid, -⟩, hst⟩, -⟩ := hI.handoff trivial r hh
      simp only [Bool.not_eq_false', List.any_eq_true]
      exact ⟨j, hj, by simp [hid, hst, Stage.buffer]⟩
    · rfl
  have hcount : s.jobs.countP (·.stage.buffer) ≤ s.jobs.countP (·.stage.slot) :=
    List.countP_mono_left fun j _ => Stage.slot_of_buffer
  have hmedia := hI.media
  have hle := hI.media_le
  unfold Scheduler.buffers
  rw [hstale]
  simp only [Bool.false_eq_true, if_false]
  omega

theorem SchedInv.kept (hI : SchedInv True s) : SchedKept s where
  toSchedSafe := hI.safe
  buffers := hI.buffers_le
  kept i hi := by
    obtain ⟨k, hacc⟩ := hI.all i hi
    rcases hI.known k i hacc with ⟨j, hj, rfl⟩ | hrem
    · refine Or.inr ?_
      have hmem := mem_jobs_of_mem hI hj
      cases hend : s.ended with
      | true => exact hI.left hend j hmem
      | false => exact ⟨j, hmem, rfl⟩
    · exact Or.inl (hI.settled trivial i hrem)

end Claims

/-! ### Writing through a pointer -/

section SetJob

variable {P : Prop} {s : Scheduler}

/-- What a write through a pointer does to a job. -/
def touch (r : JobRef) (f : Job → Job) (j : Job) : Job := if j.key = r.key ∧ j.id = r.id then f j else j

theorem setJob_queues (hI : SchedInv P s) (r : JobRef) (f : Job → Job) (k : String) :
    (s.setJob r f).queues k = (s.queues k).map (touch r f) := by
  show Function.update s.queues r.key _ k = _
  by_cases hk : k = r.key
  · subst hk
    rw [Function.update_self]
    refine List.map_congr_left fun j hj => ?_
    rw [touch, hI.keyed _ j hj]
    simp
  · rw [Function.update_of_ne hk]
    have hid : ∀ j ∈ s.queues k, touch r f j = j := by
      intro j hj
      rw [touch, hI.keyed k j hj, if_neg fun h => hk h.1]
    conv_lhs => rw [← List.map_id (s.queues k)]
    exact List.map_congr_left fun j hj => (hid j hj).symm

theorem setJob_jobs (hI : SchedInv P s) (r : JobRef) (f : Job → Job) :
    (s.setJob r f).jobs = s.jobs.map (touch r f) := by
  unfold Scheduler.jobs
  rw [List.map_flatMap]
  exact List.flatMap_congr fun k _ => setJob_queues hI r f k

theorem countP_touch (hI : SchedInv P s) {r : JobRef} {f : Job → Job} {job : Job}
    (h : s.find? r = some job) (p : Job → Bool) :
    (s.jobs.map (touch r f)).countP p + (if p job then 1 else 0) =
      s.jobs.countP p + if p (f job) then 1 else 0 := by
  obtain ⟨hmem, hid, hkey, -⟩ := find?_mem hI h
  have hperm := List.perm_cons_erase hmem
  have hids : (job.id :: (s.jobs.erase job).map (·.id)).Nodup := by
    rw [← List.map_cons (f := fun j : Job => j.id)]
    exact (hperm.map (fun j : Job => j.id)).nodup_iff.mp hI.ids
  have hrest : (s.jobs.erase job).map (touch r f) = s.jobs.erase job := by
    conv_rhs => rw [← List.map_id (s.jobs.erase job)]
    refine List.map_congr_left fun j hj => ?_
    have hne : j.id ≠ r.id := by
      intro heq
      exact (List.nodup_cons.mp hids).1 (List.mem_map.mpr ⟨j, hj, heq.trans hid.symm⟩)
    rw [touch, if_neg fun h => hne h.2]
    rfl
  have hself : touch r f job = f job := by rw [touch, if_pos ⟨hkey, hid⟩]
  rw [(hperm.map (touch r f)).countP_eq, hperm.countP_eq p, List.map_cons, hrest, hself,
    List.countP_cons, List.countP_cons]
  omega

theorem SchedInv.setJob {r : JobRef} {f : Job → Job} {m : ℕ} {p : List JobRef} (hI : SchedInv P s)
    (hf : ∀ j, (f j).id = j.id ∧ (f j).commandID = j.commandID ∧ (f j).key = j.key)
    (hready : ∀ j ∈ s.jobs, j.id = r.id → ((∃ m, j.stage = .ready m) ∨ j.stage = .queued) →
      (f j).stage = j.stage)
    (hm : m = (s.jobs.map (touch r f)).countP (·.stage.slot)) (hle : m ≤ mediaPreparationLimit) :
    SchedInv P { s.setJob r f with mediaSlots := m, prepared := p } := by
  have hid : ∀ j, (touch r f j).id = j.id := by
    intro j
    rw [touch]
    split_ifs
    · exact (hf j).1
    · rfl
  have hcmd : ∀ j, (touch r f j).commandID = j.commandID := by
    intro j
    rw [touch]
    split_ifs
    · exact (hf j).2.1
    · rfl
  have hkey : ∀ j, (touch r f j).key = j.key := by
    intro j
    rw [touch]
    split_ifs
    · exact (hf j).2.2
    · rfl
  have hst : ∀ j ∈ s.jobs, ((∃ m, j.stage = .ready m) ∨ j.stage = .queued) →
      (touch r f j).stage = j.stage := by
    intro j hj hs
    rw [touch]
    split_ifs with hr
    · exact hready j hj hr.2 hs
    · rfl
  have hq := setJob_queues hI r f
  have hjobs : ({ s.setJob r f with mediaSlots := m, prepared := p } : Scheduler).jobs =
      s.jobs.map (touch r f) := setJob_jobs hI r f
  have hmem : ∀ j ∈ s.jobs.map (touch r f), ∃ j₀ ∈ s.jobs, touch r f j₀ = j :=
    fun j hj => List.mem_map.mp hj
  exact
    { nodup := hI.nodup
      cover := fun k => by
        show k ∈ s.order ↔ (s.setJob r f).queues k ≠ []
        rw [hI.cover k, hq k]
        simp
      keyed := fun k j hj => by
        change j ∈ (s.setJob r f).queues k at hj
        rw [hq k] at hj
        obtain ⟨j₀, hj₀, rfl⟩ := List.mem_map.mp hj
        rw [hkey, hI.keyed k j₀ hj₀]
      sorted := fun k => by
        show ((s.setJob r f).queues k).Pairwise _
        rw [hq k, List.pairwise_map]
        exact (hI.sorted k).imp fun {a b} h => by rwa [hid, hid]
      behind := fun k j hj => by
        change j ∈ ((s.setJob r f).queues k).tail at hj
        rw [hq k, ← List.map_tail] at hj
        obtain ⟨j₀, hj₀, rfl⟩ := List.mem_map.mp hj
        have hqueued := hI.behind k j₀ hj₀
        rw [hst j₀ (mem_jobs_of_mem hI (List.mem_of_mem_tail hj₀)) (Or.inr hqueued)]
        exact hqueued
      ids := by
        rw [hjobs, List.map_map]
        have heq : ((·.id) ∘ touch r f : Job → ℕ) = (·.id) := funext hid
        rw [heq]
        exact hI.ids
      numbered := fun j hj => by
        rw [hjobs] at hj
        obtain ⟨j₀, hj₀, rfl⟩ := hmem j hj
        rw [hid]
        exact hI.numbered j₀ hj₀
      commands := fun i hi j hj hc hne => by
        rw [hjobs] at hi hj
        obtain ⟨i₀, hi₀, rfl⟩ := hmem i hi
        obtain ⟨j₀, hj₀, rfl⟩ := hmem j hj
        rw [hcmd, hcmd] at hc
        rw [hcmd] at hne
        rw [hid, hid]
        exact hI.commands i₀ hi₀ j₀ hj₀ hc hne
      active := fun j hj hne => by
        rw [hjobs] at hj
        obtain ⟨j₀, hj₀, rfl⟩ := hmem j hj
        rw [hcmd] at hne ⊢
        exact hI.active j₀ hj₀ hne
      slots := by
        rw [hjobs, List.length_map]
        exact hI.slots
      slots_le := hI.slots_le
      media := by
        rw [hjobs]
        exact hm
      media_le := hle
      head := fun r' hs => by
        obtain ⟨j, rest, m', hqr, hj, hrdy⟩ := hI.head r' hs
        have hjm : j ∈ s.jobs := mem_jobs_of_mem hI (hqr ▸ List.mem_cons_self)
        refine ⟨touch r f j, rest.map (touch r f), m', ?_, (hid j).trans hj,
          (hst j hjm (Or.inl ⟨m', hrdy⟩)).trans hrdy⟩
        show (s.setJob r f).queues r'.key = _
        rw [hq, hqr, List.map_cons]
      tasks := hI.tasks
      runs := hI.runs
      posts := hI.posts
      handed := hI.handed
      due := fun r' hh j hj => by
        change j ∈ (s.setJob r f).queues r'.key at hj
        rw [hq] at hj
        obtain ⟨j₀, hj₀, rfl⟩ := List.mem_map.mp hj
        rw [hid]
        exact hI.due r' hh j₀ hj₀
      handed_lt := hI.handed_lt
      known := fun k i hacc => by
        rcases hI.known k i hacc with ⟨j, hj, rfl⟩ | hrem
        · refine Or.inl ⟨touch r f j, ?_, hid j⟩
          show _ ∈ (s.setJob r f).queues k
          rw [hq]
          exact List.mem_map_of_mem hj
        · exact Or.inr hrem
      all := hI.all
      settled := hI.settled
      told := hI.told
      handoff := fun hP r' hh => by
        obtain ⟨⟨j, hj, ⟨hji, hjk⟩, hs⟩, hfin⟩ := hI.handoff hP r' hh
        refine ⟨⟨touch r f j, ?_, ⟨(hid j).trans hji, (hkey j).trans hjk⟩,
          (hst j hj (Or.inl ⟨_, hs⟩)).trans hs⟩, hfin⟩
        rw [hjobs]
        exact List.mem_map_of_mem hj
      left := fun hend j hj => by
        rw [hjobs] at hj
        obtain ⟨j₀, hj₀, rfl⟩ := hmem j hj
        rw [hid]
        exact hI.left hend j₀ hj₀ }

theorem SchedInv.setStage {r : JobRef} {job : Job} {stage : Stage} {m : ℕ} {p : List JobRef}
    (hI : SchedInv P s) (h : s.find? r = some job) (hready : ∀ m, job.stage ≠ .ready m)
    (hqueued : job.stage ≠ .queued)
    (hm : m + (if job.stage.slot then 1 else 0) = s.mediaSlots + if stage.slot then 1 else 0)
    (hle : m ≤ mediaPreparationLimit) :
    SchedInv P { s.setStage r stage with mediaSlots := m, prepared := p } := by
  obtain ⟨hmem, hid, -, -⟩ := find?_mem hI h
  refine hI.setJob (fun j => ⟨rfl, rfl, rfl⟩) (fun j hj hjid hst => ?_) ?_ hle
  · obtain rfl := eq_of_id hI hj hmem (hjid.trans hid.symm)
    rcases hst with ⟨m, hm⟩ | hq
    · exact absurd hm (hready m)
    · exact absurd hq hqueued
  · have hcount := countP_touch hI (f := fun j => { j with stage := stage }) h (·.stage.slot)
    have hmedia := hI.media
    dsimp only at hcount
    omega

theorem SchedInv.setJob_slot {r : JobRef} {f : Job → Job} {p : List JobRef} (hI : SchedInv P s)
    (hf : ∀ j, (f j).id = j.id ∧ (f j).commandID = j.commandID ∧ (f j).key = j.key)
    (hready : ∀ j : Job, ((∃ m, j.stage = .ready m) ∨ j.stage = .queued) → (f j).stage = j.stage)
    (hslot : ∀ j, (f j).stage.slot = j.stage.slot) :
    SchedInv P { s.setJob r f with prepared := p } := by
  refine hI.setJob hf (fun j _ _ hst => hready j hst) ?_ hI.media_le
  rw [List.countP_map]
  have heq : ((·.stage.slot) ∘ touch r f : Job → Bool) = (·.stage.slot) := by
    funext j
    show (touch r f j).stage.slot = j.stage.slot
    rw [touch]
    split_ifs
    · exact hslot j
    · rfl
  rw [heq]
  exact hI.media

end SetJob

/-! ### The round robin keeps the invariant -/

section Scan

open Scheduler

variable {P : Prop} {s s' : Scheduler} {clock : String → ℕ}

theorem SchedInv.rotate {order : List String} (hI : SchedInv P s) (hperm : order.Perm s.order) :
    SchedInv P { s with order := order } := by
  have hjobs : ({ s with order := order } : Scheduler).jobs.Perm s.jobs :=
    hperm.flatMap_right s.queues
  have hmem : ∀ {j}, j ∈ ({ s with order := order } : Scheduler).jobs ↔ j ∈ s.jobs := hjobs.mem_iff
  exact
    { hI with
      nodup := hperm.nodup_iff.mpr hI.nodup
      cover := fun k => by
        show k ∈ order ↔ s.queues k ≠ []
        rw [hperm.mem_iff]
        exact hI.cover k
      ids := (hjobs.map _).nodup_iff.mpr hI.ids
      numbered := fun j hj => hI.numbered j (hmem.mp hj)
      commands := fun i hi j hj => hI.commands i (hmem.mp hi) j (hmem.mp hj)
      active := fun j hj => hI.active j (hmem.mp hj)
      slots := by
        rw [hjobs.length_eq]
        exact hI.slots
      media := by
        rw [hjobs.countP_eq]
        exact hI.media
      handoff := fun hP r hh => by
        obtain ⟨⟨j, hj, hrest⟩, hfin⟩ := hI.handoff hP r hh
        exact ⟨⟨j, hmem.mpr hj, hrest⟩, hfin⟩
      left := fun hend j hj => hI.left hend j (hmem.mp hj) }

theorem eligible_ready {job : Job} (h : eligible clock job = true) : ∃ m, job.stage = .ready m := by
  unfold eligible at h
  split at h
  · exact ⟨_, ‹_›⟩
  · cases h

theorem SchedInv.hand {job : Job} {rest : List Job} (hI : SchedInv P s) (hend : s.ended = false)
    (hnone : s.sending = none) (hq : s.queues job.key = job :: rest) (hready : ∃ m, job.stage = .ready m) :
    SchedInv P { s with
      sending := some ⟨job.key, job.id⟩
      running := (⟨job.key, job.id⟩, false) :: s.running
      log := .handed ⟨job.key, job.id⟩ :: s.log } := by
  have hrun : s.running = [] := by
    refine List.eq_nil_iff_forall_not_mem.mpr fun ⟨r, b⟩ hr => ?_
    have hsend := hI.runs r b hr
    rw [hnone] at hsend
    cases hsend
  have hfin : s.finished = [] := by
    refine List.eq_nil_iff_forall_not_mem.mpr fun ⟨r, b⟩ hr => ?_
    have hsend := hI.posts r b hr
    rw [hnone] at hsend
    cases hsend
  have hsorted := hI.sorted job.key
  rw [hq] at hsorted
  have hle : ∀ j ∈ s.queues job.key, job.id ≤ j.id := by
    intro j hj
    rw [hq] at hj
    rcases List.mem_cons.mp hj with rfl | hj
    · exact Nat.le_refl _
    · exact Nat.le_of_lt ((List.pairwise_cons.mp hsorted).1 j hj)
  obtain ⟨m, hm⟩ := hready
  exact
    { hI with
      head := fun r hr => by
        obtain rfl := Option.some.inj hr
        exact ⟨job, rest, m, hq, rfl, hm⟩
      tasks := by
        show (_ :: s.running).length + s.finished.length ≤ 1
        rw [hrun, hfin]
        exact Nat.le_refl 1
      runs := fun r b hr => by
        change (r, b) ∈ _ :: s.running at hr
        rw [hrun, List.mem_singleton] at hr
        obtain ⟨rfl, -⟩ := Prod.mk.inj hr
        rfl
      posts := fun r b hr => by
        rw [hfin] at hr
        cases hr
      handed := by
        refine ⟨⟨fun i hacc hlt => ?_, fun i hh => ?_⟩, hI.handed⟩
        · rcases hI.known job.key i hacc with ⟨j, hj, rfl⟩ | hrem
          · exact absurd (hle j hj) (Nat.not_le_of_lt hlt)
          · exact hrem
        · exact hI.due ⟨job.key, i⟩ hh job (hq ▸ List.mem_cons_self)
      due := fun r hh j hj => by
        rcases List.mem_cons.mp hh with heq | hold
        · obtain rfl := SchedEvent.handed.inj heq
          exact hle j hj
        · exact hI.due r hold j hj
      handed_lt := fun r hh => by
        rcases List.mem_cons.mp hh with heq | hold
        · obtain rfl := SchedEvent.handed.inj heq
          exact hI.numbered job (mem_jobs_of_mem hI (hq ▸ List.mem_cons_self))
        · exact hI.handed_lt r hold
      known := fun k i hacc => by
        rcases hI.known k i (by simpa using hacc) with hin | hrem
        · exact Or.inl hin
        · exact Or.inr (List.mem_cons_of_mem _ hrem)
      all := fun i hi => by
        obtain ⟨k, hk⟩ := hI.all i hi
        exact ⟨k, List.mem_cons_of_mem _ hk⟩
      settled := fun hP i hrem => by
        exact List.mem_cons_of_mem _ (hI.settled hP i (by simpa using hrem))
      told := fun hP r hr => List.mem_cons_of_mem _ (hI.told hP r hr)
      left := fun h => by
        rw [hend] at h
        cases h }

theorem SchedInv.scan (hI : SchedInv P s) (hend : s.ended = false)
    (h : Scheduler.scan clock s = some s') : SchedInv P s' := by
  unfold Scheduler.scan at h
  split_ifs at h with hsend
  · exact Option.some.inj h ▸ hI
  · have hnone : s.sending = none := by simpa using hsend
    have hne : ∀ key ∈ s.order, s.queues key ≠ [] := fun key hk => (hI.cover key).mp hk
    have hperm : (scanPass clock s.queues s.order []).1.Perm (s.order ++ []) := scanPass_perm hne
    rw [List.append_nil] at hperm
    rw [scanLoop_order] at h
    cases hjob : (scanPass clock s.queues s.order []).2 with
    | none =>
      rw [hjob] at h
      obtain rfl := Option.some.inj h
      exact hI.rotate hperm
    | some job =>
      rw [hjob] at h
      obtain rfl := Option.some.inj h
      obtain ⟨key, -, rest, hq, hel⟩ := scanPass_some hjob
      have hkey : job.key = key := hI.keyed key job (hq ▸ List.mem_cons_self)
      subst hkey
      exact (hI.rotate hperm).hand hend hnone hq (eligible_ready hel)

end Scan

/-! ### A job comes and goes -/

section Queue

open Scheduler

variable {P : Prop} {s s' : Scheduler}

theorem startHead_same (j : Job) :
    (startHead j).id = j.id ∧ (startHead j).commandID = j.commandID ∧ (startHead j).key = j.key ∧
      (startHead j).stage.slot = false := by
  unfold startHead
  split_ifs
  · exact ⟨rfl, rfl, rfl, rfl⟩
  · exact ⟨rfl, rfl, rfl, rfl⟩

theorem mem_append_queue {key k : String} {job j : Job} :
    j ∈ Function.update s.queues key (s.queues key ++ [job]) k ↔
      j ∈ s.queues k ∨ (k = key ∧ j = job) := by
  by_cases hk : k = key
  · subst hk
    simp
  · simp [hk]

theorem SchedInv.push {m : Incoming} (job : Job) (order : List String) (hI : SchedInv P s)
    (hoff : s.fetcher = .offering m) (hend : s.ended = false) (hid : job.id = s.accepted)
    (hslot : job.stage.slot = false) (hnew : job.commandID ≠ "" → job.commandID ∉ s.activeIDs)
    (horder : order = if s.queues job.key = [] then s.order ++ [job.key] else s.order)
    (hst : s.queues job.key ≠ [] → job.stage = .queued) :
    SchedInv P { s with
      fetcher := .idle, activeIDs := job.commandID :: s.activeIDs, accepted := s.accepted + 1
      log := .accepted ⟨job.key, job.id⟩ :: s.log, order := order
      queues := Function.update s.queues job.key (s.queues job.key ++ [job]) } := by
  have hperm : (order.flatMap (Function.update s.queues job.key (s.queues job.key ++ [job]))).Perm
      (job :: s.jobs) := by
    by_cases hq : s.queues job.key = []
    · have hnot : job.key ∉ s.order := fun h => (hI.cover job.key).mp h hq
      rw [horder, if_pos hq, List.flatMap_append, hq]
      have hold : s.order.flatMap (Function.update s.queues job.key ([] ++ [job])) = s.jobs := by
        refine List.flatMap_congr fun x hx => ?_
        rw [Function.update_of_ne fun heq : x = job.key => hnot (heq ▸ hx)]
      rw [hold, List.flatMap_singleton, Function.update_self]
      exact List.perm_append_singleton job s.jobs
    · rw [horder, if_neg hq]
      have hk := (hI.cover job.key).mpr hq
      refine (flatMap_perm s.queues hI.nodup hk _).trans ?_
      rw [List.append_assoc]
      refine List.perm_middle.trans (List.Perm.cons job ?_)
      exact (jobs_perm hI.nodup hk).symm
  have hmem : ∀ {j}, j ∈ order.flatMap (Function.update s.queues job.key (s.queues job.key ++ [job])) ↔
      j = job ∨ j ∈ s.jobs := fun {j} => hperm.mem_iff.trans List.mem_cons
  have hfresh : ∀ j ∈ s.jobs, j.id < job.id := fun j hj => hid ▸ hI.numbered j hj
  have hcmd : ∀ j ∈ s.jobs, j.commandID = job.commandID → job.commandID = "" := by
    intro j hj heq
    by_contra hne
    exact hnew hne (heq ▸ hI.active j hj (heq ▸ hne))
  exact
    { hI with
      nodup := by
        show order.Nodup
        rw [horder]
        split_ifs with hq
        · refine List.nodup_append.mpr ⟨hI.nodup, List.nodup_singleton _, fun a ha b hb heq => ?_⟩
          rw [List.mem_singleton.mp hb] at heq
          exact (hI.cover job.key).mp (heq ▸ ha) hq
        · exact hI.nodup
      cover := fun k => by
        show k ∈ order ↔ Function.update s.queues job.key _ k ≠ []
        by_cases hk : k = job.key
        · subst hk
          rw [Function.update_self, horder]
          split_ifs with hq
          · simp
          · simp [(hI.cover job.key).mpr hq]
        · rw [Function.update_of_ne hk, ← hI.cover k, horder]
          split_ifs
          · simp [hk]
          · rfl
      keyed := fun k j hj => by
        rcases mem_append_queue.mp hj with hold | ⟨rfl, rfl⟩
        · exact hI.keyed k j hold
        · rfl
      sorted := fun k => by
        show (Function.update s.queues job.key _ k).Pairwise _
        by_cases hk : k = job.key
        · subst hk
          rw [Function.update_self]
          refine List.pairwise_append.mpr ⟨hI.sorted _, List.pairwise_singleton _ _, fun a ha b hb => ?_⟩
          rw [List.mem_singleton.mp hb]
          exact hfresh a (mem_jobs_of_mem hI ha)
        · rw [Function.update_of_ne hk]
          exact hI.sorted k
      behind := fun k j hj => by
        change j ∈ (Function.update s.queues job.key _ k).tail at hj
        by_cases hk : k = job.key
        · subst hk
          rw [Function.update_self] at hj
          by_cases hq : s.queues job.key = []
          · rw [hq] at hj
            cases hj
          · rw [List.tail_append_of_ne_nil hq] at hj
            rcases List.mem_append.mp hj with hold | hnew
            · exact hI.behind _ j hold
            · rw [List.mem_singleton.mp hnew]
              exact hst hq
        · rw [Function.update_of_ne hk] at hj
          exact hI.behind k j hj
      ids := by
        refine (hperm.map _).nodup_iff.mpr ?_
        rw [List.map_cons]
        refine List.nodup_cons.mpr ⟨fun h => ?_, hI.ids⟩
        obtain ⟨j, hj, heq⟩ := List.mem_map.mp h
        exact absurd heq (Nat.ne_of_lt (hfresh j hj))
      numbered := fun j hj => by
        rcases hmem.mp hj with rfl | hold
        · rw [hid]
          exact Nat.lt_succ_self _
        · exact Nat.lt_succ_of_lt (hI.numbered j hold)
      commands := fun i hi j hj hc hne => by
        rcases hmem.mp hi with rfl | hi'
        · rcases hmem.mp hj with rfl | hj'
          · rfl
          · exact absurd (hcmd j hj' hc.symm) hne
        · rcases hmem.mp hj with rfl | hj'
          · exact absurd (hc.trans (hcmd i hi' hc)) hne
          · exact hI.commands i hi' j hj' hc hne
      active := fun j hj hne => by
        rcases hmem.mp hj with rfl | hold
        · exact List.mem_cons_self
        · exact List.mem_cons_of_mem _ (hI.active j hold hne)
      slots := by
        show s.slots = (order.flatMap _).length + 0
        have hlen := hperm.length_eq
        have hslots := hI.slots
        rw [hoff] at hslots
        rw [hlen, List.length_cons]
        exact hslots
      media := by
        show s.mediaSlots = (order.flatMap _).countP _
        rw [hperm.countP_eq, List.countP_cons_of_neg (by simp [hslot])]
        exact hI.media
      head := fun r hr => by
        obtain ⟨j, rest, m', hq, hj, hs⟩ := hI.head r hr
        by_cases hk : r.key = job.key
        · refine ⟨j, rest ++ [job], m', ?_, hj, hs⟩
          show Function.update s.queues job.key _ r.key = _
          rw [hk, Function.update_self, ← hk, hq, List.cons_append]
        · refine ⟨j, rest, m', ?_, hj, hs⟩
          show Function.update s.queues job.key _ r.key = _
          rw [Function.update_of_ne hk, hq]
      due := fun r hh j hj => by
        have hlog : SchedEvent.handed r ∈ s.log := by simpa using hh
        rcases mem_append_queue.mp hj with hold | ⟨hk, rfl⟩
        · exact hI.due r hlog j hold
        · rw [hid]
          exact Nat.le_of_lt (hI.handed_lt r hlog)
      handed_lt := fun r hh => Nat.lt_succ_of_lt (hI.handed_lt r (by simpa using hh))
      known := fun k i hacc => by
        rcases List.mem_cons.mp hacc with heq | hold
        · obtain ⟨rfl, rfl⟩ := JobRef.mk.inj (SchedEvent.accepted.inj heq)
          exact Or.inl ⟨job, mem_append_queue.mpr (Or.inr ⟨rfl, rfl⟩), rfl⟩
        · rcases hI.known k i hold with ⟨j, hj, rfl⟩ | hrem
          · exact Or.inl ⟨j, mem_append_queue.mpr (Or.inl hj), rfl⟩
          · exact Or.inr (List.mem_cons_of_mem _ hrem)
      all := fun i hi => by
        rcases Nat.lt_succ_iff_lt_or_eq.mp hi with hlt | rfl
        · obtain ⟨k, hk⟩ := hI.all i hlt
          exact ⟨k, List.mem_cons_of_mem _ hk⟩
        · exact ⟨job.key, hid ▸ List.mem_cons_self⟩
      settled := fun hP i hrem => List.mem_cons_of_mem _ (hI.settled hP i (by simpa using hrem))
      told := fun hP r hr => List.mem_cons_of_mem _ (hI.told hP r hr)
      handoff := fun hP r hh => by
        obtain ⟨⟨j, hj, hrest⟩, hfin⟩ := hI.handoff hP r hh
        exact ⟨⟨j, hmem.mpr (Or.inr hj), hrest⟩, hfin⟩
      left := fun h => by
        rw [hend] at h
        cases h }

theorem SchedInv.accept {m : Incoming} (hI : SchedInv P s) (hoff : s.fetcher = .offering m)
    (hend : s.ended = false) (hnew : ¬ (m.commandID ≠ "" ∧ m.commandID ∈ s.activeIDs)) :
    SchedInv P (Scheduler.accept m { s with fetcher := .idle }) := by
  have hcmd : m.commandID ≠ "" → m.commandID ∉ s.activeIDs := fun hne hmem => hnew ⟨hne, hmem⟩
  let key := if m.recipient = "" then "control" else m.recipient
  let job : Job := ⟨s.accepted, m.commandID, key, m.kind, .queued, 0⟩
  by_cases hq : s.queues key = []
  · obtain ⟨hsid, hscmd, hskey, hslot⟩ := startHead_same job
    have hempty : s.queues (startHead job).key = [] := by
      rw [hskey]
      exact hq
    have hpush := hI.push (startHead job) (s.order ++ [key]) hoff hend hsid hslot (hscmd ▸ hcmd)
      (by rw [if_pos hempty, hskey]) (fun hne => absurd hempty hne)
    rw [hempty, List.nil_append, hskey, hsid, hscmd] at hpush
    simp only [Scheduler.accept, setQueue]
    rw [if_pos hq]
    exact hpush
  · have hpush := hI.push job s.order hoff hend rfl rfl hcmd (by rw [if_neg hq]) fun _ => rfl
    simp only [Scheduler.accept, setQueue]
    rw [if_neg hq]
    exact hpush

theorem startNext_same {l : List Job} (hl : ∀ j ∈ l, j.stage = .queued) :
    (startNext l).map (·.id) = l.map (·.id) ∧ (startNext l).length = l.length ∧
      (startNext l).tail = l.tail ∧ (startNext l).countP (·.stage.slot) = 0 ∧
      ∀ j ∈ startNext l, ∃ j₀ ∈ l, j₀.id = j.id ∧ j₀.commandID = j.commandID ∧ j₀.key = j.key := by
  cases l with
  | nil => simp [startNext]
  | cons next rest =>
    obtain ⟨hid, hcmd, hkey, hslot⟩ := startHead_same next
    have hrest : rest.countP (·.stage.slot) = 0 := by
      rw [List.countP_eq_zero]
      intro j hj
      rw [hl j (List.mem_cons_of_mem _ hj)]
      simp [Stage.slot]
    refine ⟨by simp [startNext, hid], rfl, rfl, ?_, fun j hj => ?_⟩
    · rw [startNext, List.countP_cons_of_neg (by simp [hslot])]
      exact hrest
    · rcases List.mem_cons.mp hj with rfl | hold
      · exact ⟨next, List.mem_cons_self, hid.symm, hcmd.symm, hkey.symm⟩
      · exact ⟨j, List.mem_cons_of_mem _ hold, rfl, rfl, rfl⟩

theorem startNext_eq_nil {l : List Job} : startNext l = [] ↔ l = [] := by
  cases l with
  | nil => simp [startNext]
  | cons next rest => simp [startNext]

theorem head_of_find {r : JobRef} {job : Job} (hI : SchedInv P s) (hs : s.sending = some r)
    (h : s.find? r = some job) : s.queues r.key = job :: (s.queues r.key).tail := by
  obtain ⟨j, rest, m, hq, hj, -⟩ := hI.head r hs
  obtain ⟨hmem, hid, -, -⟩ := find?_mem hI h
  have hjm : j ∈ s.jobs := mem_jobs_of_mem hI (hq ▸ List.mem_cons_self)
  obtain rfl := eq_of_id hI hjm hmem (hj.trans hid.symm)
  rw [hq, List.tail_cons]

theorem SchedInv.settle {r : JobRef} {job : Job} {rest : List (JobRef × Bool)} (hI : SchedInv P s)
    (hend : s.ended = false) (hfin : s.finished = (r, true) :: rest) (h : s.find? r = some job) :
    SchedInv P (Scheduler.settle r job { s with finished := rest }) := by
  have hposted : (r, true) ∈ s.finished := hfin ▸ List.mem_cons_self
  have hsend := hI.posts r true hposted
  have hq := head_of_find hI hsend h
  obtain ⟨hmem, hid, hkey, -⟩ := find?_mem hI h
  have htasks := hI.tasks
  rw [hfin, List.length_cons] at htasks
  have hrun : s.running = [] := List.eq_nil_of_length_eq_zero (by omega)
  have hrest : rest = [] := List.eq_nil_of_length_eq_zero (by omega)
  have hk : r.key ∈ s.order := (hI.cover r.key).mpr (by rw [hq]; simp)
  set queue := (s.queues r.key).tail with hqueue
  obtain ⟨hnids, hnlen, hntail, hnslot, hnsame⟩ :=
    startNext_same (l := queue) (hI.behind r.key)
  set others := (s.order.erase r.key).flatMap s.queues with hothers
  set order := if queue = [] then s.order.erase r.key else s.order with horder
  -- the jobs before and after
  have hbefore : s.jobs.Perm (job :: (queue ++ others)) := by
    have hp := jobs_perm hI.nodup hk
    rw [hq, List.cons_append] at hp
    exact hp
  have hafter : (order.flatMap (Function.update s.queues r.key (startNext queue))).Perm
      (startNext queue ++ others) := by
    rw [horder]
    split_ifs with hnil
    · have hsame : (s.order.erase r.key).flatMap (Function.update s.queues r.key (startNext queue)) =
          others := by
        refine List.flatMap_congr fun x hx => ?_
        rw [Function.update_of_ne fun heq : x = r.key =>
          (List.Nodup.not_mem_erase hI.nodup) (heq ▸ hx)]
      rw [hsame, hnil]
      exact List.Perm.refl _
    · exact flatMap_perm s.queues hI.nodup hk _
  have hback : ∀ j ∈ order.flatMap (Function.update s.queues r.key (startNext queue)),
      ∃ j₀ ∈ queue ++ others, j₀.id = j.id ∧ j₀.commandID = j.commandID ∧ j₀.key = j.key := by
    intro j hj
    rcases List.mem_append.mp (hafter.mem_iff.mp hj) with hin | hin
    · obtain ⟨j₀, hj₀, hsame⟩ := hnsame j hin
      exact ⟨j₀, List.mem_append_left _ hj₀, hsame⟩
    · exact ⟨j, List.mem_append_right _ hin, rfl, rfl, rfl⟩
  have hold : ∀ j ∈ queue ++ others, j ∈ s.jobs :=
    fun j hj => hbefore.mem_iff.mpr (List.mem_cons_of_mem _ hj)
  have hidsBefore : (job.id :: (queue ++ others).map (·.id)).Nodup := by
    rw [← List.map_cons (f := fun j : Job => j.id)]
    exact (hbefore.map (fun j : Job => j.id)).nodup_iff.mp hI.ids
  have hne : ∀ j ∈ queue ++ others, j.id ≠ job.id := by
    intro j hj heq
    exact (List.nodup_cons.mp hidsBefore).1 (List.mem_map.mpr ⟨j, hj, heq⟩)
  have hupd : ∀ k, k ≠ r.key → Function.update s.queues r.key (startNext queue) k = s.queues k :=
    fun k hk => Function.update_of_ne hk _ _
  have hqmem : ∀ k, ∀ j ∈ Function.update s.queues r.key (startNext queue) k,
      ∃ j₀ ∈ s.queues k, j₀ ≠ job ∧ j₀.id = j.id ∧ j₀.key = j.key := by
    intro k j hj
    by_cases hkr : k = r.key
    · subst hkr
      rw [Function.update_self] at hj
      obtain ⟨j₀, hj₀, hjid, -, hjkey⟩ := hnsame j hj
      refine ⟨j₀, List.mem_of_mem_tail hj₀, fun heq => ?_, hjid, hjkey⟩
      exact hne j₀ (List.mem_append_left _ hj₀) (heq ▸ rfl)
    · rw [hupd k hkr] at hj
      refine ⟨j, hj, fun heq => hkr ?_, rfl, rfl⟩
      rw [← hI.keyed k j hj, heq, hkey]
  show SchedInv P { s with
    finished := rest, sending := none
    mediaSlots := if job.stage.slot then s.mediaSlots - 1 else s.mediaSlots
    activeIDs := s.activeIDs.filter (· ≠ job.commandID), slots := s.slots - 1, order := order
    log := .removed r.id :: s.log
    queues := Function.update s.queues r.key (startNext queue) }
  exact
    { nodup := by
        show order.Nodup
        rw [horder]
        split_ifs
        · exact hI.nodup.erase _
        · exact hI.nodup
      cover := fun k => by
        show k ∈ order ↔ Function.update s.queues r.key (startNext queue) k ≠ []
        by_cases hkr : k = r.key
        · rw [hkr, Function.update_self, Ne, startNext_eq_nil, horder]
          split_ifs with hnil
          · simp [hnil, List.Nodup.not_mem_erase hI.nodup]
          · simp [hnil, hk]
        · rw [hupd k hkr, ← hI.cover k, horder]
          split_ifs
          · exact List.mem_erase_of_ne hkr
          · rfl
      keyed := fun k j hj => by
        obtain ⟨j₀, hj₀, -, -, hjkey⟩ := hqmem k j hj
        rw [← hjkey]
        exact hI.keyed k j₀ hj₀
      sorted := fun k => by
        show (Function.update s.queues r.key (startNext queue) k).Pairwise _
        by_cases hkr : k = r.key
        · have htail : queue.Pairwise fun i j => i.id < j.id := (hI.sorted r.key).tail
          rw [hkr, Function.update_self]
          have hmap : ((startNext queue).map (·.id)).Pairwise (· < ·) := by
            rw [hnids, List.pairwise_map]
            exact htail
          exact List.pairwise_map.mp hmap
        · rw [hupd k hkr]
          exact hI.sorted k
      behind := fun k j hj => by
        change j ∈ (Function.update s.queues r.key (startNext queue) k).tail at hj
        by_cases hkr : k = r.key
        · rw [hkr, Function.update_self, hntail] at hj
          exact hI.behind r.key j (List.mem_of_mem_tail hj)
        · rw [hupd k hkr] at hj
          exact hI.behind k j hj
      ids := by
        refine (hafter.map _).nodup_iff.mpr ?_
        rw [List.map_append, hnids, ← List.map_append]
        exact (List.nodup_cons.mp hidsBefore).2
      numbered := fun j hj => by
        obtain ⟨j₀, hj₀, hjid, -, -⟩ := hback j hj
        rw [← hjid]
        exact hI.numbered j₀ (hold j₀ hj₀)
      commands := fun i hi j hj hc hne' => by
        obtain ⟨i₀, hi₀, hiid, hicmd, -⟩ := hback i hi
        obtain ⟨j₀, hj₀, hjid, hjcmd, -⟩ := hback j hj
        rw [← hiid, ← hjid]
        exact hI.commands i₀ (hold i₀ hi₀) j₀ (hold j₀ hj₀) (by rw [hicmd, hjcmd, hc])
          (by rw [hicmd]; exact hne')
      active := fun j hj hne' => by
        obtain ⟨j₀, hj₀, -, hjcmd, -⟩ := hback j hj
        rw [← hjcmd] at hne' ⊢
        refine List.mem_filter.mpr ⟨hI.active j₀ (hold j₀ hj₀) hne', ?_⟩
        have hdiff : j₀.commandID ≠ job.commandID := fun heq =>
          hne j₀ hj₀ (hI.commands j₀ (hold j₀ hj₀) job hmem heq hne')
        simpa using hdiff
      slots := by
        show s.slots - 1 = (order.flatMap _).length + s.fetcher.holds
        have hlen := hbefore.length_eq
        have hslots := hI.slots
        rw [hafter.length_eq, List.length_append, hnlen]
        rw [List.length_cons, List.length_append] at hlen
        omega
      slots_le := Nat.le_trans (Nat.sub_le _ _) hI.slots_le
      media := by
        show (if job.stage.slot then s.mediaSlots - 1 else s.mediaSlots) = (order.flatMap _).countP _
        have hmedia := hI.media
        have hqslot : queue.countP (·.stage.slot) = 0 := by
          rw [List.countP_eq_zero]
          intro j hj
          rw [hI.behind r.key j hj]
          simp [Stage.slot]
        rw [hbefore.countP_eq, List.countP_cons, List.countP_append, hqslot] at hmedia
        rw [hafter.countP_eq, List.countP_append, hnslot]
        split_ifs at hmedia ⊢ <;> omega
      media_le := by
        show (if job.stage.slot then s.mediaSlots - 1 else s.mediaSlots) ≤ _
        have hle := hI.media_le
        split_ifs
        · omega
        · exact hle
      head := fun r' hr' => by cases hr'
      tasks := by
        show s.running.length + rest.length ≤ 1
        rw [hrun, hrest]
        exact Nat.zero_le 1
      runs := fun r' b hr' => by
        rw [hrun] at hr'
        cases hr'
      posts := fun r' b hr' => by
        rw [hrest] at hr'
        cases hr'
      handed := hI.handed
      due := fun r' hh j hj => by
        obtain ⟨j₀, hj₀, -, hjid, -⟩ := hqmem r'.key j hj
        rw [← hjid]
        exact hI.due r' (by simpa using hh) j₀ hj₀
      handed_lt := fun r' hh => hI.handed_lt r' (by simpa using hh)
      known := fun k i hacc => by
        rcases hI.known k i (by simpa using hacc) with ⟨j, hj, rfl⟩ | hrem
        · by_cases hjid : j.id = r.id
          · exact Or.inr (hjid ▸ List.mem_cons_self)
          · refine Or.inl ?_
            by_cases hkr : k = r.key
            · subst hkr
              rw [hq] at hj
              rcases List.mem_cons.mp hj with rfl | hj
              · exact absurd hid hjid
              · have hids : j.id ∈ (startNext queue).map (·.id) := by
                  rw [hnids]
                  exact List.mem_map_of_mem hj
                obtain ⟨j', hj', heq⟩ := List.mem_map.mp hids
                refine ⟨j', ?_, heq⟩
                show j' ∈ Function.update s.queues r.key (startNext queue) r.key
                rwa [Function.update_self]
            · refine ⟨j, ?_, rfl⟩
              show j ∈ Function.update s.queues r.key (startNext queue) k
              rwa [hupd k hkr]
        · exact Or.inr (List.mem_cons_of_mem _ hrem)
      all := fun i hi => by
        obtain ⟨k, hacc⟩ := hI.all i hi
        exact ⟨k, List.mem_cons_of_mem _ hacc⟩
      settled := fun hP i hrem => by
        rcases List.mem_cons.mp hrem with heq | hold
        · obtain rfl := SchedEvent.removed.inj heq
          exact List.mem_cons_of_mem _ (hI.told hP r hposted)
        · exact List.mem_cons_of_mem _ (hI.settled hP i hold)
      told := fun _ r' hr' => by
        rw [hrest] at hr'
        cases hr'
      handoff := fun hP r' hh => by
        obtain ⟨⟨j, hj, ⟨hjid, hjkey⟩, hst⟩, hnot⟩ := hI.handoff hP r' hh
        refine ⟨⟨j, ?_, ⟨hjid, hjkey⟩, hst⟩, by rw [hrest]; simp⟩
        -- the buffer in `s.prepared` is not the one of the job that leaves
        have hdiff : j ≠ job := by
          rintro rfl
          refine hnot ?_
          have href : r' = r := by
            cases r'
            cases r
            simp only at hjid hjkey hid hkey
            rw [← hjid, ← hjkey, hid, hkey]
          rw [href]
          exact hposted
        refine hafter.mem_iff.mpr ?_
        rcases List.mem_cons.mp (hbefore.mem_iff.mp hj) with heq | hin
        · exact absurd heq hdiff
        · rcases List.mem_append.mp hin with hin | hin
          · have hqd := hI.behind r.key j hin
            rw [hst] at hqd
            cases hqd
          · exact List.mem_append_right _ hin
      left := fun h => by
        rw [hend] at h
        cases h }

theorem SchedInv.retryLater {r : JobRef} {now : ℕ} {rest : List (JobRef × Bool)} (hI : SchedInv P s)
    (hend : s.ended = false) (hfin : s.finished = (r, false) :: rest) :
    SchedInv P (Scheduler.retryLater r now { s with finished := rest }) := by
  have htasks := hI.tasks
  rw [hfin, List.length_cons] at htasks
  have hrun : s.running = [] := List.eq_nil_of_length_eq_zero (by omega)
  have hrest : rest = [] := List.eq_nil_of_length_eq_zero (by omega)
  have hidle : SchedInv P { s with finished := rest, sending := none } :=
    { hI with
      head := fun r' hr' => by cases hr'
      tasks := by
        show s.running.length + rest.length ≤ 1
        rw [hrun, hrest]
        exact Nat.zero_le 1
      runs := fun r' b hr' => by
        rw [hrun] at hr'
        cases hr'
      posts := fun r' b hr' => by
        rw [hrest] at hr'
        cases hr'
      told := fun _ r' hr' => by
        rw [hrest] at hr'
        cases hr'
      handoff := fun hP r' hh => ⟨(hI.handoff hP r' hh).1, by rw [hrest]; simp⟩
      left := fun h => by
        rw [hend] at h
        cases h }
  exact hidle.setJob_slot (fun _ => ⟨rfl, rfl, rfl⟩) (fun _ _ => rfl) fun _ => rfl

theorem SchedInv.attach {r : JobRef} {rest : List JobRef} (hI : SchedInv P s) :
    SchedInv P ({ s with prepared := rest }.setJob r Scheduler.attach) := by
  have hattach : ∀ j, (Scheduler.attach j).id = j.id ∧ (Scheduler.attach j).commandID = j.commandID ∧
      (Scheduler.attach j).key = j.key := by
    intro j
    unfold Scheduler.attach
    split
    · exact ⟨rfl, rfl, rfl⟩
    · exact ⟨rfl, rfl, rfl⟩
  refine hI.setJob_slot hattach (fun j hst => ?_) fun j => ?_
  · unfold Scheduler.attach
    split
    · next m hm =>
      rw [hm] at hst
      simp at hst
    · rfl
  · unfold Scheduler.attach
    split
    · next m hm =>
      rw [hm]
      rfl
    · rfl

theorem handedInOrder_returned (l : List Job) (log : List SchedEvent) (h : HandedInOrder log) :
    HandedInOrder (l.map (fun j => .returned j.id) ++ log) := by
  induction l with
  | nil => exact h
  | cons j l ih => exact ih

theorem SchedInv.returnQueued (hI : SchedInv P s) : SchedInv P s.returnQueued := by
  set back := s.jobs.filter fun j => s.sending ≠ some ⟨j.key, j.id⟩ with hback
  have hlog : s.returnQueued.log = back.map (fun j => .returned j.id) ++ s.log := rfl
  have hgrow : ∀ e ∈ s.log, e ∈ s.returnQueued.log := fun e he => List.mem_append_right _ he
  have hold : ∀ e ∈ s.returnQueued.log, (∀ i, e ≠ .returned i) → e ∈ s.log := by
    intro e he hne
    rw [hlog, List.mem_append] at he
    refine he.resolve_left fun hr => ?_
    obtain ⟨j, -, heq⟩ := List.mem_map.mp hr
    exact hne j.id heq.symm
  exact
    { hI with
      handed := handedInOrder_returned back s.log hI.handed
      due := fun r hh => hI.due r (hold _ hh nofun)
      handed_lt := fun r hh => hI.handed_lt r (hold _ hh nofun)
      known := fun k i hacc => by
        rcases hI.known k i (hold _ hacc nofun) with hin | hrem
        · exact Or.inl hin
        · exact Or.inr (hgrow _ hrem)
      all := fun i hi => by
        obtain ⟨k, hk⟩ := hI.all i hi
        exact ⟨k, hgrow _ hk⟩
      settled := fun hP i hrem => hgrow _ (hI.settled hP i (hold _ hrem nofun))
      told := fun hP r hr => hgrow _ (hI.told hP r hr)
      left := fun _ j hj => by
        by_cases hs : s.sending = some ⟨j.key, j.id⟩
        · right
          show s.sending.map (·.id) = some j.id
          rw [hs]
          rfl
        · left
          rw [hlog]
          refine List.mem_append_left _ (List.mem_map.mpr ⟨j, ?_, rfl⟩)
          exact List.mem_filter.mpr ⟨hj, by simpa using hs⟩ }

end Queue

/-! ### The handler -/

section Handler

variable {P : Prop} {s : Scheduler} {r : JobRef}

theorem running_alone {b : Bool} (hI : SchedInv P s) (h : (r, b) ∈ s.running) :
    s.running = [(r, b)] ∧ s.finished = [] := by
  have htasks := hI.tasks
  have hpos : 0 < s.running.length := List.length_pos_of_mem h
  refine ⟨?_, List.eq_nil_of_length_eq_zero (by omega)⟩
  obtain ⟨x, hx⟩ := List.length_eq_one_iff.mp (show s.running.length = 1 by omega)
  rw [hx, List.mem_singleton] at h
  rw [hx, h]

theorem SchedInv.handlerBegins {job : Job} {m : Media} (hI : SchedInv P s)
    (hrun : (r, false) ∈ s.running) (h : s.find? r = some job) (hst : job.stage = .ready m) :
    SchedInv P { s with
      running := (r, true) :: s.running.erase (r, false)
      handoff := if m = .absent then s.handoff else some (r, m) } := by
  obtain ⟨hmem, hid, hkey, -⟩ := find?_mem hI h
  obtain ⟨hone, hnone⟩ := running_alone hI hrun
  exact
    { hI with
      tasks := by
        show ((r, true) :: s.running.erase (r, false)).length + s.finished.length ≤ 1
        rw [hone, hnone]
        simp
      runs := fun r' b hr' => by
        change (r', b) ∈ (r, true) :: s.running.erase (r, false) at hr'
        rw [hone, List.erase_cons_head, List.mem_singleton] at hr'
        obtain ⟨rfl, -⟩ := Prod.mk.inj hr'
        exact hI.runs r' false hrun
      handoff := fun hP r' hh => by
        change (if m = .absent then s.handoff else some (r, m)) = some (r', .data) at hh
        split_ifs at hh with hm
        · exact hI.handoff hP r' hh
        · obtain ⟨rfl, rfl⟩ := Prod.mk.inj (Option.some.inj hh)
          exact ⟨⟨job, hmem, ⟨hid, hkey⟩, hst⟩, by rw [hnone]; simp⟩ }

theorem SchedInv.handlerEnds {job : Job} {took posted : Bool} {e : HandlerEnd} (hI : SchedInv P s)
    (hrun : (r, true) ∈ s.running) (h : s.find? r = some job)
    (hclean : P → e.settled job.kind = true →
      e.told = true ∧ (job.stage.buffer = true → took = true)) :
    SchedInv P { s with
      running := s.running.erase (r, true)
      finished := if posted then [(r, e.settled job.kind)] else s.finished
      handoff := if took ∧ s.handoff.map (·.1) = some r then none else s.handoff
      log := if e.told then .settled r.id :: s.log else s.log } := by
  obtain ⟨hmem, hid, hkey, -⟩ := find?_mem hI h
  obtain ⟨hone, hnone⟩ := running_alone hI hrun
  have hpost : ∀ r' b, (r', b) ∈ (if posted then [(r, e.settled job.kind)] else s.finished) →
      r' = r ∧ b = e.settled job.kind := by
    intro r' b hr'
    split_ifs at hr' with hp
    · exact Prod.mk.inj (List.mem_singleton.mp hr')
    · rw [hnone] at hr'
      cases hr'
  set log := if e.told then .settled r.id :: s.log else s.log with hlog
  have hgrow : ∀ e' ∈ s.log, e' ∈ log := by
    intro e' he'
    rw [hlog]
    split_ifs
    · exact List.mem_cons_of_mem _ he'
    · exact he'
  have hback : ∀ e' ∈ log, (∀ i, e' ≠ .settled i) → e' ∈ s.log := by
    intro e' he' hne
    rw [hlog] at he'
    split_ifs at he'
    · exact (List.mem_cons.mp he').resolve_left (hne r.id)
    · exact he'
  exact
    { hI with
      tasks := by
        show (s.running.erase (r, true)).length +
          (if posted then [(r, e.settled job.kind)] else s.finished).length ≤ 1
        rw [hone, hnone]
        split_ifs <;> simp
      runs := fun r' b hr' => by
        change (r', b) ∈ s.running.erase (r, true) at hr'
        rw [hone] at hr'
        simp at hr'
      posts := fun r' b hr' => by
        obtain ⟨rfl, -⟩ := hpost r' b hr'
        exact hI.runs r' true hrun
      handed := by
        show HandedInOrder log
        rw [hlog]
        split_ifs
        · exact hI.handed
        · exact hI.handed
      due := fun r' hh => hI.due r' (hback _ hh nofun)
      handed_lt := fun r' hh => hI.handed_lt r' (hback _ hh nofun)
      known := fun k i hacc => by
        rcases hI.known k i (hback _ hacc nofun) with hin | hrem
        · exact Or.inl hin
        · exact Or.inr (hgrow _ hrem)
      all := fun i hi => by
        obtain ⟨k, hk⟩ := hI.all i hi
        exact ⟨k, hgrow _ hk⟩
      settled := fun hP i hrem => hgrow _ (hI.settled hP i (hback _ hrem nofun))
      told := fun hP r' hr' => by
        obtain ⟨rfl, hset⟩ := hpost r' true hr'
        show SchedEvent.settled r'.id ∈ log
        rw [hlog, if_pos (hclean hP hset.symm).1]
        exact List.mem_cons_self
      handoff := fun hP r' hh => by
        change (if took = true ∧ s.handoff.map (·.1) = some r then none else s.handoff) =
          some (r', .data) at hh
        split_ifs at hh with htook
        obtain ⟨⟨j, hj, ⟨hjid, hjkey⟩, hst⟩, -⟩ := hI.handoff hP r' hh
        refine ⟨⟨j, hj, ⟨hjid, hjkey⟩, hst⟩, fun hr' => ?_⟩
        -- a settled handler took the media it was given
        obtain ⟨rfl, hset⟩ := hpost r' true hr'
        obtain rfl := eq_of_id hI hj hmem (hjid.trans hid.symm)
        have hbuf : j.stage.buffer = true := by rw [hst]; rfl
        exact htook ⟨(hclean hP hset.symm).2 hbuf, by rw [hh]; rfl⟩
      left := fun hend j hj => by
        rcases hI.left hend j hj with hret | hsend
        · exact Or.inl (hgrow _ hret)
        · exact Or.inr hsend }

end Handler

/-! ### Runs -/

theorem schedInv_start (P : Prop) : SchedInv P Scheduler.start where
  nodup := List.nodup_nil
  cover k := by simp [Scheduler.start]
  keyed k j hj := by cases hj
  sorted k := List.Pairwise.nil
  behind k j hj := by cases hj
  ids := List.nodup_nil
  numbered j hj := by cases hj
  commands i hi := by cases hi
  active j hj := by cases hj
  slots := rfl
  slots_le := by decide
  media := rfl
  media_le := by decide
  head r hr := by cases hr
  tasks := by decide
  runs r b hr := by cases hr
  posts r b hr := by cases hr
  handed := trivial
  due r hh := by cases hh
  handed_lt r hh := by cases hh
  known k i hh := by cases hh
  all i hi := by cases hi
  settled _ i hh := by cases hh
  told _ r hr := by cases hr
  handoff _ r hh := by cases hh
  left h := by cases h

section Step

open Scheduler

variable {P : Prop} {s s' : Scheduler}

theorem SchedInv.fetch {f : Fetcher} {n : ℕ} (hI : SchedInv P s)
    (hn : n + s.fetcher.holds = s.slots + f.holds) (hle : n ≤ commandQueueLimit) :
    SchedInv P { s with fetcher := f, slots := n } :=
  { hI with
    slots := by
      have hslots := hI.slots
      show n = s.jobs.length + f.holds
      omega
    slots_le := hle }

theorem schedInv_preparation {a : SchedAction} (hI : SchedInv P s)
    (ha : (∃ r found, a = .ledgerChecked r found) ∨ (∃ r, a = .mediaSlot r) ∨
      (∃ r ok, a = .downloaded r ok) ∨ ∃ r, a = .preparationStops r)
    (h : schedStep s a = some s') : SchedInv P s' := by
  have hle := hI.media_le
  rcases ha with ⟨r, found, rfl⟩ | ⟨r, rfl⟩ | ⟨r, ok, rfl⟩ | ⟨r, rfl⟩
  · simp only [schedStep] at h
    split at h
    · next hfind =>
      split_ifs at h with hfound hroom
      · obtain rfl := Option.some.inj h
        exact hI.setStage hfind nofun nofun rfl hle
      · obtain rfl := Option.some.inj h
        exact hI.setStage hfind nofun nofun rfl hle
    · cases h
  · simp only [schedStep] at h
    split at h
    · next hfind =>
      split_ifs at h with hroom
      obtain rfl := Option.some.inj h
      exact hI.setStage hfind nofun nofun rfl hroom
    · cases h
  · simp only [schedStep] at h
    split at h
    · next hfind =>
      by_cases hroom : s.prepared.length < commandQueueLimit
      · rw [if_pos hroom] at h
        obtain rfl := Option.some.inj h
        refine hI.setStage hfind ?_ ?_ ?_ hle <;> cases ok <;> first | rfl | nofun
      · rw [if_neg hroom] at h
        cases h
    · cases h
  · simp only [schedStep] at h
    split_ifs at h with hcancel
    split at h
    · next hfind =>
      obtain rfl := Option.some.inj h
      exact hI.setStage hfind nofun nofun rfl hle
    · next hfind =>
      obtain rfl := Option.some.inj h
      exact hI.setStage hfind nofun nofun rfl hle
    · next hfind =>
      obtain rfl := Option.some.inj h
      obtain ⟨hmem, -⟩ := find?_mem hI hfind
      have hpos : 0 < s.jobs.countP (·.stage.slot) := List.countP_pos_iff.mpr ⟨_, hmem, rfl⟩
      have hmedia := hI.media
      refine hI.setStage hfind nofun nofun ?_ (Nat.le_trans (Nat.sub_le _ _) hle)
      show s.mediaSlots - 1 + 1 = s.mediaSlots + 0
      omega
    · cases h

theorem schedInv_main {a : SchedAction} (hI : SchedInv P s)
    (ha : (∃ clock, a = .incoming clock) ∨ (∃ clock, a = .preparedResult clock) ∨
      (∃ now clock, a = .finishedJob now clock) ∨ (∃ clock, a = .tick clock) ∨ a = .stop)
    (h : schedStep s a = some s') : SchedInv P s' := by
  rcases ha with ⟨clock, rfl⟩ | ⟨clock, rfl⟩ | ⟨now, clock, rfl⟩ | ⟨clock, rfl⟩ | rfl
  · simp only [schedStep] at h
    split at h
    · next m hend hoff =>
      split_ifs at h with hdup
      · obtain rfl := Option.some.inj h
        have hslots := hI.slots
        rw [hoff] at hslots
        refine hI.fetch ?_ (Nat.le_trans (Nat.sub_le _ _) hI.slots_le)
        rw [hoff]
        simp only [Fetcher.holds] at hslots ⊢
        omega
      · refine (hI.accept hoff hend hdup).scan ?_ h
        simp only [Scheduler.accept, setQueue]
        split_ifs <;> exact hend
    · cases h
  · simp only [schedStep] at h
    split at h
    · next r rest hend hprep => exact hI.attach.scan hend h
    · cases h
  · simp only [schedStep] at h
    split at h
    · next r settled rest hend hfin =>
      split at h
      · cases h
      · next job hfind =>
        split_ifs at h with hset
        · subst hset
          exact (hI.settle hend hfin hfind).scan hend h
        · obtain rfl : settled = false := by simpa using hset
          exact (hI.retryLater hend hfin).scan hend h
    · cases h
  · simp only [schedStep] at h
    split_ifs at h with hend
    exact hI.scan (by simpa using hend) h
  · simp only [schedStep] at h
    split_ifs at h
    obtain rfl := Option.some.inj h
    exact hI.returnQueued

theorem schedInv_step {a : SchedAction} (hI : SchedInv P s) (hC : P → SettlesCleanly s a)
    (h : schedStep s a = some s') : SchedInv P s' := by
  cases a with
  | acquireSlot =>
    simp only [schedStep] at h
    split_ifs at h with hfree
    obtain rfl := Option.some.inj h
    refine hI.fetch ?_ hfree.2
    rw [hfree.1]
    rfl
  | fetchFailed =>
    simp only [schedStep] at h
    split_ifs at h with hfetch
    obtain rfl := Option.some.inj h
    have hslots := hI.slots
    refine hI.fetch ?_ (Nat.le_trans (Nat.sub_le _ _) hI.slots_le)
    rw [hfetch] at hslots ⊢
    simp only [Fetcher.holds] at hslots ⊢
    omega
  | fetched m =>
    simp only [schedStep] at h
    split_ifs at h with hfetch
    obtain rfl := Option.some.inj h
    refine hI.fetch ?_ hI.slots_le
    rw [hfetch]
    rfl
  | fetcherStops =>
    simp only [schedStep] at h
    split_ifs at h
    split at h
    · next hf =>
      obtain rfl := Option.some.inj h
      refine hI.fetch ?_ hI.slots_le
      rw [hf]
      rfl
    · next hf =>
      obtain rfl := Option.some.inj h
      refine hI.fetch ?_ hI.slots_le
      rw [hf]
      rfl
    · cases h
  | incoming clock => exact schedInv_main hI (Or.inl ⟨clock, rfl⟩) h
  | preparedResult clock => exact schedInv_main hI (Or.inr (Or.inl ⟨clock, rfl⟩)) h
  | finishedJob now clock => exact schedInv_main hI (Or.inr (Or.inr (Or.inl ⟨now, clock, rfl⟩))) h
  | tick clock => exact schedInv_main hI (Or.inr (Or.inr (Or.inr (Or.inl ⟨clock, rfl⟩)))) h
  | stop => exact schedInv_main hI (Or.inr (Or.inr (Or.inr (Or.inr rfl)))) h
  | ledgerChecked r found => exact schedInv_preparation hI (Or.inl ⟨r, found, rfl⟩) h
  | mediaSlot r => exact schedInv_preparation hI (Or.inr (Or.inl ⟨r, rfl⟩)) h
  | downloaded r ok => exact schedInv_preparation hI (Or.inr (Or.inr (Or.inl ⟨r, ok, rfl⟩))) h
  | preparationStops r => exact schedInv_preparation hI (Or.inr (Or.inr (Or.inr ⟨r, rfl⟩))) h
  | handlerBegins r =>
    simp only [schedStep] at h
    split_ifs at h with hrun
    split at h
    · next hfind =>
      obtain rfl := Option.some.inj h
      exact hI.handlerBegins hrun hfind rfl
    · cases h
  | handlerEnds r took e posted =>
    simp only [schedStep] at h
    by_cases hrun : (r, true) ∈ s.running ∧ (if posted then s.finished = [] else s.cancelled = true)
    · rw [if_pos hrun] at h
      split at h
      · next job hfind =>
        by_cases hkind : job.kind = .control ↔ e = .replied
        · rw [if_pos hkind] at h
          obtain rfl := Option.some.inj h
          exact hI.handlerEnds hrun.1 hfind fun hP hset => hC hP job hfind hset
        · rw [if_neg hkind] at h
          cases h
      · cases h
    · rw [if_neg hrun] at h
      cases h
  | cancel =>
    obtain rfl := Option.some.inj h
    exact { hI with }

end Step

/-- **Send scheduler safety.**  In every run: one send at a time, hand-outs per recipient in arrival
order, one job per command, slots that count the queued jobs, a round robin that ends and sees every
head.  In every run whose handlers settle cleanly no accepted job is lost either, and the media buffers
stay within their limit. -/
theorem scheduler_safety (as : List SchedAction) :
    Always schedStep SchedSafe Scheduler.start as ∧
      (Meets schedStep SettlesCleanly Scheduler.start as →
        Always schedStep SchedKept Scheduler.start as) := by
  constructor
  · have hrun := always_of_step (fun s a s' hI h => schedInv_step (P := False) (a := a) hI nofun h)
      (schedInv_start False) as
    exact hrun.mono fun s hI => hI.safe
  · intro hmeets
    have hrun := always_of_meets
      (fun s a s' hI hC h => schedInv_step (P := True) (a := a) hI (fun _ => hC) h)
      (schedInv_start True) hmeets
    exact hrun.mono fun s hI => hI.kept

/-- A media command arrives, its ledger row is not found and its media is downloaded. -/
def prepareMedia (commandID recipient : String) (id : ℕ) : List SchedAction :=
  [.acquireSlot, .fetched ⟨commandID, recipient, .media⟩, .incoming fun _ => 0,
    .ledgerChecked ⟨recipient, id⟩ false, .mediaSlot ⟨recipient, id⟩, .downloaded ⟨recipient, id⟩ true]

/-- The handler of `c0` finds a stored result, which the preparation could not read, and returns before
it takes the media out of `s.prepared`.  Its slot is given back, two more downloads follow. -/
def leftMedia : List SchedAction :=
  prepareMedia "c0" "a" 0 ++
    [.preparedResult fun _ => 0, .handlerBegins ⟨"a", 0⟩, .handlerEnds ⟨"a", 0⟩ false (.acked true) true,
      .finishedJob 0 fun _ => 0] ++
    prepareMedia "c1" "b" 1 ++ prepareMedia "c2" "c" 2

theorem left_media_exceeds_limit : ¬ Always schedStep SchedKept Scheduler.start leftMedia := by
  intro h
  obtain ⟨s, hrun, hthree⟩ : ∃ s, runActions schedStep Scheduler.start leftMedia = some s ∧
      s.buffers = 3 := ⟨_, rfl, by decide⟩
  have hkept := always_iff_reached.mp h leftMedia [] s (List.append_nil _).symm hrun
  have hle : s.buffers ≤ 2 := hkept.buffers
  omega

/-- A text is sent, an image prepared and sent, and both leave their queues. -/
theorem scheduler_safety_two_sends :
    Always schedStep SchedKept Scheduler.start
      ([.acquireSlot, .fetched ⟨"c0", "a", .plain⟩, .incoming fun _ => 0, .handlerBegins ⟨"a", 0⟩,
        .handlerEnds ⟨"a", 0⟩ true (.acked true) true, .finishedJob 0 fun _ => 0] ++
        prepareMedia "c1" "a" 1 ++
        [.preparedResult fun _ => 0, .handlerBegins ⟨"a", 1⟩,
          .handlerEnds ⟨"a", 1⟩ true (.acked true) true, .finishedJob 0 fun _ => 0]) := by
  refine (scheduler_safety _).2 ?_
  simp only [prepareMedia, List.cons_append, List.nil_append]
  repeat' first
    | exact fun _ _ _ => ⟨rfl, fun _ => rfl⟩
    | exact trivial
    | refine fun s h => ⟨?_, ?_⟩

end TeamInbox.Worker
