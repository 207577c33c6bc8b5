import TeamInbox.Cases.Projection
import Mathlib.Data.List.Chain

/-!
# TeamInbox.Cases.History — the cases of a contact are one chain

The contact-keyed transitions, over a contact that had no case.  The inbound transition takes a reopen
from the projection, the manual one from the history; once there is a case the two agree, since a contact
without an active case has a resolved projection.  Before the first case they may differ: an import leaves
a resolved projection without a case.
-/

namespace TeamInbox.Cases

open TeamInbox.Lib

/-! ### What is claimed -/

def Manual (c : Uuid) : CaseAction → Prop
  | .resolve d _ _ | .setPending d _ | .resume d _ | .openCase d _ _ | .ensureActive d _ _ _ _ => d = c
  | _ => False

/-- A transition keyed by the contact, or what other routes write. -/
def ContactKeyed (c : Uuid) : CaseAction → Prop
  | .inboundMessage d _ _ _ => d = c
  | .elsewhere _ _ => True
  | a => Manual c a

/-- A new case is created later than those there are. -/
def Later (db : CaseDb) (a : CaseAction) : Prop :=
  ∀ supply ∈ a.supply?, ∀ x ∈ db.cases, x.createdAt < supply.createdAt

instance (db : CaseDb) (a : CaseAction) : Decidable (Later db a) :=
  inferInstanceAs (Decidable (∀ supply ∈ a.supply?, ∀ x ∈ db.cases, x.createdAt < supply.createdAt))

/-- The cases, newest first, are one chain in the order of their creation. -/
structure Chained (cases : List Case) : Prop where
  linked : cases.IsChain fun x y => x.reopenedFromCaseID = some y.id
  first : ∀ x ∈ cases.getLast?, x.reopenedFromCaseID = none
  ordered : cases.Pairwise fun x y => y.createdAt < x.createdAt

/-- The contact is known, not assigned to someone else, and there is a policy. -/
structure MayOpen (c : Uuid) (supply : Supply) (input : ManualOpenCaseInput) (db : CaseDb) : Prop where
  known : c ∈ db.contacts
  free : ∀ a ∈ db.getCurrentAssignment c, a.assignedTo = input.openedBy
  policy : supply.policy.isSome = true

/-- What the transitions do from a state; `seeded` says that the projection was resolved before the first
case. -/
structure Lawful (trim : String → String) (c : Uuid) (seeded : Bool) (db : CaseDb) : Prop where
  kept : ∀ a, ContactKeyed c a → ∀ x ∈ db.cases, x.status = .resolved → x ∈ (perform trim a db).2.cases
  created : ∀ a, ContactKeyed c a → Created db (perform trim a db).2 → ∀ x ∈ db.cases, x.status = .resolved
  opens : ∀ supply input, input.expectedMode = .openFirst →
    ((perform trim (.openCase c supply input) db).1 = .ok () ↔ MayOpen c supply input db ∧ db.cases = [])
  reopens : ∀ supply input, input.expectedMode = .reopen →
    ((perform trim (.openCase c supply input) db).1 = .ok () ↔ MayOpen c supply input db ∧ db.cases ≠ [] ∧
      trim (input.reason.getD "") ≠ "" ∧ ∀ x ∈ db.cases, x.status = .resolved)
  released : ∀ supply isGroup m, (perform trim (.inboundMessage c supply isGroup m) db).2.assignments =
    if Created db (perform trim (.inboundMessage c supply isGroup m) db).2 ∧ (db.cases ≠ [] ∨ seeded = true)
    then (contactFamily c).release supply.now db.assignments else db.assignments
  manual : ∀ a, Manual c a → (perform trim a db).2.assignments = db.assignments

/-! ### The chain -/

section Chain

theorem mostRecent_mem {cases : List Case} {x : Case} (h : mostRecent cases = some x) : x ∈ cases := by
  induction cases generalizing x with
  | nil => cases h
  | cons c rest ih =>
    simp only [mostRecent] at h
    split at h
    · cases h
      exact List.mem_cons_self
    · next d hd =>
      split_ifs at h
      · cases h
        exact List.mem_cons_of_mem c (ih hd)
      · cases h
        exact List.mem_cons_self

theorem mostRecent_of_ordered {cases : List Case}
    (h : cases.Pairwise fun x y => y.createdAt < x.createdAt) : mostRecent cases = cases.head? := by
  cases cases with
  | nil => rfl
  | cons c rest =>
    simp only [mostRecent, List.head?_cons]
    split
    · rfl
    · next d hd =>
      have hlt : d.createdAt < c.createdAt := (List.pairwise_cons.mp h).1 d (mostRecent_mem hd)
      have hnot : d.newer c = false := by
        have h1 : ¬ c.createdAt < d.createdAt := by omega
        have h2 : ¬ c.createdAt = d.createdAt := by omega
        simp [Case.newer, h1, h2]
      rw [hnot]
      rfl

theorem Chained.map {cases : List Case} {f : Case → Case} (h : Chained cases)
    (hf : ∀ x, (f x).id = x.id ∧ (f x).reopenedFromCaseID = x.reopenedFromCaseID ∧
      (f x).createdAt = x.createdAt) : Chained (cases.map f) where
  linked := by
    rw [List.isChain_map]
    refine h.linked.imp fun x y hxy => ?_
    rw [(hf x).2.1, (hf y).1]
    exact hxy
  first x hx := by
    rw [List.getLast?_map] at hx
    obtain ⟨y, hy, rfl⟩ := Option.map_eq_some_iff.mp hx
    rw [(hf y).2.1]
    exact h.first y hy
  ordered := by
    rw [List.pairwise_map]
    refine h.ordered.imp fun {x y} hxy => ?_
    rw [(hf x).2.2, (hf y).2.2]
    exact hxy

theorem Chained.cons {cases : List Case} {row : Case} (h : Chained cases)
    (hlink : row.reopenedFromCaseID = cases.head?.map (·.id))
    (hlater : ∀ x ∈ cases, x.createdAt < row.createdAt) : Chained (row :: cases) where
  linked := by
    rw [List.isChain_cons]
    refine ⟨fun y hy => ?_, h.linked⟩
    rw [hlink, Option.mem_def.mp hy]
    rfl
  first x hx := by
    cases cases with
    | nil =>
      cases hx
      exact hlink
    | cons y rest =>
      rw [List.getLast?_cons_cons] at hx
      exact h.first x hx
  ordered := List.pairwise_cons.mpr ⟨hlater, h.ordered⟩

end Chain

/-! ### Transitions -/

section Steps

variable {p : Pair} {seed : List StateRow} {db db' : CaseDb} {trim : String → String} {c : Uuid}
  {a : CaseAction}

theorem ContactKeyed.carries (h : ContactKeyed c a) (hc : p.contact = some c) : CarriesKeys p a := by
  cases a <;> first
    | exact hc.trans (congrArg some h.symm)
    | exact trivial
    | exact h.elim

theorem CaseInv.saysResolved (hI : CaseInv p seed db) (hne : db.cases ≠ [])
    (hnone : ∀ x ∈ db.cases, x.status.active = false) : db.saysResolved = true := by
  obtain ⟨r, hr, -, -, hstatus⟩ := hI.settled hne hnone
  unfold CaseDb.saysResolved
  rw [hr]
  simp [hstatus]

theorem created_link {row : Case} (hI : CaseInv p seed db) (hch : Chained db.cases)
    (hnone : ∀ x ∈ db.cases, x.status.active = false)
    (hprior : row.reopenedFromCaseID = (mostRecent db.cases).map (·.id) ∨
      (row.reopenedFromCaseID = none ∧ ∀ r ∈ db.states, r.status ≠ .resolved)) :
    row.reopenedFromCaseID = db.cases.head?.map (·.id) := by
  rcases hprior with hprior | ⟨hrow, hopen⟩
  · rw [hprior, mostRecent_of_ordered hch.ordered]
  · cases hcases : db.cases with
    | nil => exact hrow
    | cons x rest =>
      obtain ⟨r, hr, -, -, hstatus⟩ := hI.settled (by rw [hcases]; exact List.cons_ne_nil x rest) hnone
      exact absurd hstatus (hopen r (hr ▸ List.mem_singleton_self r))

theorem Chained.move {given : Option Supply} (hI : CaseInv p seed db) (hch : Chained db.cases)
    (hm : CaseMove p given db db') (hlater : ∀ s ∈ given, ∀ x ∈ db.cases, x.createdAt < s.createdAt) :
    Chained db'.cases := by
  cases hm with
  | idle hcases hstates =>
    rw [hcases]
    exact hch
  | flipped x status hx hactive hstatus hcases hstates =>
    rw [hcases]
    refine hch.map fun y => ?_
    split_ifs
    · exact ⟨rfl, rfl, rfl⟩
    · exact ⟨rfl, rfl, rfl⟩
  | closed x f hx hactive hf hcases hstates =>
    rw [hcases]
    refine hch.map fun y => ?_
    split_ifs
    · exact ⟨(hf y).1, (hf y).2.2.2.2.1, (hf y).2.2.2.1⟩
    · exact ⟨rfl, rfl, rfl⟩
  | created row hgiven hnone hkeys hstatus hprior hcases hstates =>
    obtain ⟨s, hs, -, htime⟩ := hgiven
    rw [hcases]
    refine hch.cons (created_link hI hch hnone hprior) fun x hx => ?_
    rw [htime]
    exact hlater s hs x hx

theorem CaseMove.kept {given : Option Supply} (hI : CaseInv p seed db) (hm : CaseMove p given db db')
    {x : Case} (hx : x ∈ db.cases) (hres : x.status = .resolved) : x ∈ db'.cases := by
  have hinactive : x.status.active = false := by
    rw [hres]
    rfl
  have hother : ∀ y ∈ db.cases, y.status.active = true → x.id ≠ y.id := by
    intro y hy hact hid
    rw [eq_of_case_id hI hx hy hid, hact] at hinactive
    cases hinactive
  cases hm with
  | idle hcases hstates =>
    rw [hcases]
    exact hx
  | flipped y status hy hactive hstatus hcases hstates =>
    rw [hcases]
    exact List.mem_map.mpr ⟨x, hx, if_neg (hother y hy hactive)⟩
  | closed y f hy hactive hf hcases hstates =>
    rw [hcases]
    exact List.mem_map.mpr ⟨x, hx, if_neg (hother y hy hactive)⟩
  | created row hgiven hnone hkeys hstatus hprior hcases hstates =>
    rw [hcases]
    exact List.mem_cons_of_mem row hx

theorem CaseMove.created_resolved {given : Option Supply} (hm : CaseMove p given db db')
    (hnew : Created db db') : ∀ x ∈ db.cases, x.status.active = false := by
  unfold Created at hnew
  cases hm with
  | idle hcases hstates =>
    rw [hcases] at hnew
    omega
  | flipped y status hy hactive hstatus hcases hstates =>
    rw [hcases, List.length_map] at hnew
    omega
  | closed y f hy hactive hf hcases hstates =>
    rw [hcases, List.length_map] at hnew
    omega
  | created row hgiven hnone hkeys hstatus hprior hcases hstates => exact hnone

theorem resolved_of_inactive {status : CaseStatus} (h : status.active = false) : status = .resolved := by
  cases status with
  | opened => cases h
  | pending => cases h
  | resolved => rfl

theorem present_contact : (contactFamily c).Present db ↔ c ∈ db.contacts := by
  have hrun : (contactFamily c).lock.run db =
      (if c ∈ db.contacts then pure () else throw (.notFound "Contact") : CaseM Unit).run db := rfl
  unfold Family.Present
  rw [hrun]
  constructor
  · intro h
    by_contra hno
    rw [if_neg hno] at h
    cases congrArg Prod.fst h
  · intro h
    rw [if_pos h]
    rfl

theorem openCase_ok_iff (hI : CaseInv p seed db) (hc : p.contact = some c) {supply : Supply}
    {input : ManualOpenCaseInput} : (perform trim (.openCase c supply input) db).1 = .ok () ↔
      Opens trim (contactFamily c) supply input db := by
  have hl := @lands_openCase _ _ _ db trim hI (suits_contact hc) supply input
  rcases transact_of_lands hl with ⟨x, hok, -, ho⟩ | ⟨e, herr, -, hno, -⟩
  · exact ⟨fun _ => ho, fun _ => hok⟩
  · constructor
    · intro h
      rw [show (perform trim (.openCase c supply input) db).1 = .error e from herr] at h
      cases h
    · exact fun ho => absurd ho hno

theorem manual_assignments (hI : CaseInv p seed db) (hc : p.contact = some c) (h : Manual c a) :
    (perform trim a db).2.assignments = db.assignments := by
  have hkeep : ∀ {α : Type} {m : CaseM α} {E : Prop} {P : CaseDb → Prop},
      Lands m db E (fun _ db' => P db' ∧ db'.assignments = db.assignments) →
      (transact m db).2.assignments = db.assignments := by
    intro α m E P hl
    rcases transact_of_lands hl with ⟨x, -, -, hsame⟩ | ⟨e, -, -, -, hsame⟩
    · exact hsame
    · rw [hsame]
  have hs := suits_contact hc
  cases a with
  | resolve d supply input =>
    cases h
    exact hkeep (lands_resolveCase trim hI hs)
  | setPending d actor =>
    cases h
    exact hkeep (lands_flipCase hI hs rfl rfl)
  | resume d actor =>
    cases h
    exact hkeep (lands_flipCase hI hs rfl rfl)
  | openCase d supply input =>
    cases h
    exact hkeep ((lands_openCase trim hI hs).mono id fun _ _ h => h.1)
  | ensureActive d supply isGroup openedBy reason =>
    cases h
    exact hkeep (lands_ensureActiveCaseWithin trim hI hc)
  | inboundMessage _ _ _ _ => exact h.elim
  | inboundConversation _ _ _ _ _ => exact h.elim
  | resolveConversation _ _ _ => exact h.elim
  | setPendingConversation _ _ => exact h.elim
  | resumeConversation _ _ => exact h.elim
  | reopenConversation _ _ _ => exact h.elim
  | elsewhere _ _ => exact h.elim

theorem inbound_assignments (hI : CaseInv p seed db) (hc : p.contact = some c) {supply : Supply}
    {isGroup : Bool} {m : Uuid} : (perform trim (.inboundMessage c supply isGroup m) db).2.assignments =
    if Created db (perform trim (.inboundMessage c supply isGroup m) db).2 ∧ db.saysResolved = true
    then (contactFamily c).release supply.now db.assignments else db.assignments := by
  have hs := suits_contact hc
  have hl := @lands_openOrReopen _ _ _ db hI hs (fun db => db.getActiveCase c)
    (fun db => db.getMostRecentCase c) (getActiveCase_eq hI hs) (getMostRecentCase_eq hI hs) supply isGroup m
  rcases transact_of_lands hl with ⟨x, -, -, h⟩ | ⟨e, -, -, -, hsame⟩
  · exact h
  · have hsame' : (perform trim (.inboundMessage c supply isGroup m) db).2 = db := hsame
    rw [hsame']
    exact (if_neg fun h => by simp [Created] at h).symm

theorem lawful_of_inv (trim : String → String) (hI : CaseInv p seed db) (hc : p.contact = some c) :
    Lawful trim c (seed.any fun r => decide (r.status = .resolved)) db where
  kept a ha x hx hres := (performed trim hI (ha.carries hc)).moved.move.kept hI hx hres
  created a ha hnew x hx :=
    resolved_of_inactive ((performed trim hI (ha.carries hc)).moved.move.created_resolved hnew x hx)
  opens supply input hmode := by
    rw [openCase_ok_iff hI hc]
    constructor
    · intro ho
      exact ⟨⟨present_contact.mp ho.present, ho.free, ho.policy⟩, ho.mode.mp hmode⟩
    · rintro ⟨hmay, hnil⟩
      refine ⟨present_contact.mpr hmay.known, hmay.free, ⟨fun _ => hnil, fun _ => hmode⟩, ?_, hmay.policy, ?_⟩
      · exact fun hne => absurd hnil hne
      · rw [CaseDb.active, hnil]
        rfl
  reopens supply input hmode := by
    have hother : input.expectedMode ≠ .openFirst := by
      rw [hmode]
      exact fun h => by cases h
    rw [openCase_ok_iff hI hc]
    constructor
    · intro ho
      have hne : db.cases ≠ [] := fun hnil => hother (ho.mode.mpr hnil)
      exact ⟨⟨present_contact.mp ho.present, ho.free, ho.policy⟩, hne, ho.reason hne,
        fun x hx => resolved_of_inactive (active_none ho.inactive x hx)⟩
    · rintro ⟨hmay, hne, hreason, hres⟩
      refine ⟨present_contact.mpr hmay.known, hmay.free, ⟨fun h => absurd h hother, fun h => absurd h hne⟩,
        fun _ => hreason, hmay.policy, List.find?_eq_none.mpr fun x hx => ?_⟩
      rw [hres x hx]
      exact Bool.false_ne_true
  released supply isGroup m := by
    rw [inbound_assignments hI hc]
    by_cases hnew : Created db (perform trim (.inboundMessage c supply isGroup m) db).2
    · -- what the projection says is decided by the cases, or by the seed if there is none
      have hsays : db.saysResolved = true ↔
          (db.cases ≠ [] ∨ (seed.any fun r => decide (r.status = .resolved)) = true) := by
        by_cases hnil : db.cases = []
        · rw [CaseDb.saysResolved, hI.fresh hnil]
          simp [hnil]
        · have hact := (performed trim hI (ContactKeyed.carries (a := .inboundMessage c supply isGroup m)
            rfl hc)).moved.move.created_resolved hnew
          simp [hnil, hI.saysResolved hnil hact]
      simp only [hnew, true_and, hsays]
    · simp only [hnew, false_and, if_false]
  manual a ha := manual_assignments hI hc ha

end Steps

/-- **Case history.**  In every run of contact-keyed transitions whose creation times grow, the cases are
one chain, and every transition does what `Lawful` says. -/
theorem case_history (trim : String → String) (c : Uuid) (db : CaseDb) (as : List CaseAction)
    (hstart : Unopened ⟨some c, db.conversationIDForContact c⟩ db)
    (hrun : Meets (caseStep trim) (fun db a => ContactKeyed c a ∧ Later db a) db as) :
    Always (caseStep trim) (fun s => Chained s.cases ∧ Lawful trim c db.saysResolved s) db as := by
  have hinv : Always (caseStep trim) (fun s => CaseInv ⟨some c, db.conversationIDForContact c⟩ db.states s ∧
      Chained s.cases) db as := by
    refine always_of_meets (fun s a s' hI hC hstep => ?_) ⟨hstart.inv, ?_⟩ hrun
    · refine ⟨hI.1.step trim (hC.1.carries rfl) hstep, ?_⟩
      unfold caseStep at hstep
      split_ifs at hstep
      cases hstep
      exact hI.2.move hI.1 (performed trim hI.1 (hC.1.carries rfl)).moved.move hC.2
    · rw [hstart.noCase]
      exact ⟨List.IsChain.nil, fun x hx => (by cases hx), List.Pairwise.nil⟩
  exact hinv.mono fun s hI => ⟨hI.2, lawful_of_inv trim hI.1 rfl⟩

/-- A first case by hand, resolved, and a second one on the next message. -/
theorem case_history_second_case :
    Always (caseStep id) (fun s => Chained s.cases ∧ Lawful id "c" false s) exampleDb
      [.openCase "c" (exampleSupply "k1" 1) ⟨false, "u", none, .openFirst⟩,
        .resolve "c" (exampleSupply "-" 2) ⟨.handled, none, "u"⟩,
        .inboundMessage "c" (exampleSupply "k2" 3) false "m1"] := by
  refine case_history id "c" exampleDb _ example_fresh.toUnopened ?_
  intro db₁ h₁
  cases h₁
  refine ⟨⟨rfl, by decide⟩, fun db₂ h₂ => ?_⟩
  cases h₂
  refine ⟨⟨rfl, by decide⟩, fun db₃ h₃ => ?_⟩
  cases h₃
  exact ⟨⟨rfl, by decide⟩, trivial⟩

def assignedDb : CaseDb := { exampleDb with assignments := [⟨some "c", some "v", "u2", none⟩] }

def importedDb : CaseDb :=
  { assignedDb with states := [⟨some "c", some "v", none, .resolved, none, none, none, none, none⟩] }

/-- Three cases whose transactions started in another order than they got the lock. -/
def lateStart : List CaseAction :=
  [.inboundMessage "c" (exampleSupply "k1" 2) false "m1",
    .resolve "c" (exampleSupply "-" 3) ⟨.noReplyNeeded, none, "u"⟩,
    .inboundMessage "c" (exampleSupply "k2" 1) false "m2",
    .resolve "c" (exampleSupply "-" 4) ⟨.noReplyNeeded, none, "u"⟩,
    .inboundMessage "c" (exampleSupply "k3" 5) false "m3"]

/-- Without a prior case: a manual open fails on the assignment, and an inbound message clears the
assignment.  With creation times that do not follow the order of the transitions, two cases link to one. -/
theorem first_case_and_late_start :
    (assignedDb.cases = [] ∧ (perform id (.openCase "c" (exampleSupply "k1" 1) ⟨false, "u1", none, .openFirst⟩)
      assignedDb).1 = .error (.assignedToOther "u2")) ∧
    (importedDb.cases = [] ∧ (perform id (.inboundMessage "c" (exampleSupply "k1" 1) false "m1")
      importedDb).2.assignments = [⟨some "c", some "v", "u2", some 1⟩]) ∧
    ∃ db, runActions (caseStep id) exampleDb lateStart = some db ∧
      db.cases.map (fun x => (x.id, x.createdAt, x.reopenedFromCaseID)) =
        [("k3", 5, some "k1"), ("k2", 1, some "k1"), ("k1", 2, none)] :=
  ⟨⟨rfl, rfl⟩, ⟨rfl, rfl⟩, _, rfl, rfl⟩

end TeamInbox.Cases
