import TeamInbox.Lib.Tokens
import Mathlib.Tactic.Cases

/-!
# TeamInbox.Worker.Mentions — the tokens of mentioned LIDs

`prepareTextMentions` and `replaceMentionToken`.  A text is a list of characters; a mention token is `@` with the digits
after it, and the users of the mentioned JIDs are digits.  `types.ParseJID` (with `ToNonAD`) and the LID store are
parameters.
-/

namespace TeamInbox.Worker.Mentions

open TeamInbox.Lib

def marking : Marking Char where
  mark := '@'
  letter := Char.isDigit
  letter_mark := rfl

abbrev User := marking.Word

inductive Server
  | defaultUser
  | hiddenUser
  | hostedLID
  | other (name : String)
  deriving DecidableEq

/-- A `types.JID` without agent and device. -/
structure JID where
  user : User
  server : Server
  deriving DecidableEq

inductive MentionError (Raw : Type)
  | invalid (raw : Raw)
  | unsupportedServer (name : String)
  | cannotResolve (jid : JID)
  | resolveFailed (jid : JID)
  | unavailable (jid : JID)
  | noToken (jid : JID)
  deriving DecidableEq

structure MentionEnv (Raw : Type) where
  parseJID : Raw → Option JID
  /-- The resolver, when there is one; it fails or gives a JID. -/
  resolvePhone : Option (JID → Option JID)

/-- `strings.Index`. -/
def index (sub : List Char) : List Char → Option ℕ
  | [] => if sub = [] then some 0 else none
  | c :: cs => if sub <+: c :: cs then some 0 else (index sub cs).map (· + 1)

/-- The loop of `replaceMentionToken`: `kept` is the text from `cursor` to `searchFrom`, `rest` the text after it. -/
def replaceLoop (fromUser toUser rewritten kept rest : List Char) (replaced : Bool) : List Char × Bool :=
  if hrest : rest = [] then (rewritten ++ kept, replaced)
  else
    match index ('@' :: fromUser) rest with
    | none => (rewritten ++ (kept ++ rest), replaced)
    | some relativeStart =>
      let before := rest.take relativeStart
      let after := rest.drop (relativeStart + (fromUser.length + 1))
      -- a shorter ID must not replace the prefix of another numeric token
      if after.head?.any Char.isDigit then
        replaceLoop fromUser toUser rewritten (kept ++ before ++ '@' :: fromUser) after replaced
      else replaceLoop fromUser toUser (rewritten ++ (kept ++ before) ++ '@' :: toUser) [] after true
termination_by rest.length
decreasing_by
  all_goals
    have hpos := List.length_pos_of_ne_nil hrest
    rw [List.length_drop]
    omega

def replaceMentionToken (text fromUser toUser : List Char) : List Char × Bool :=
  if fromUser = [] ∨ toUser = [] ∨ fromUser = toUser then (text, false)
  else
    let r := replaceLoop fromUser toUser [] [] text false
    if r.2 then r else (text, false)

variable {Raw : Type} (env : MentionEnv Raw)

/-- What the loop of `prepareTextMentions` finds out of one mention: the JID, and the phone user of a LID. -/
def resolveMention (raw : Raw) : Except (MentionError Raw) (JID × Option User) :=
  match env.parseJID raw with
  | none => .error (.invalid raw)
  | some jid =>
    match jid.server with
    | .defaultUser => .ok (jid, none)
    | .other name => .error (.unsupportedServer name)
    | .hiddenUser | .hostedLID =>
      match env.resolvePhone with
      | none => .error (.cannotResolve jid)
      | some resolvePhone =>
        match resolvePhone jid with
        | none => .error (.resolveFailed jid)
        | some phoneJID =>
          if phoneJID.server = .defaultUser then .ok (jid, some phoneJID.user) else .error (.unavailable jid)

def prepareLoop : List Raw → List Char → List JID → Except (MentionError Raw) (List Char × List JID)
  | [], text, normalized => .ok (text, normalized)
  | raw :: rest, text, normalized =>
    match resolveMention env raw with
    | .error e => .error e
    | .ok (jid, none) => prepareLoop rest text (normalized ++ [jid])
    | .ok (jid, some phone) =>
      match replaceMentionToken text jid.user.1 phone.1 with
      | (_, false) => .error (.noToken jid)
      | (text, true) => prepareLoop rest text (normalized ++ [jid])

def prepareTextMentions (text : List Char) (mentionedJIDs : List Raw) :
    Except (MentionError Raw) (List Char × List JID) :=
  prepareLoop env mentionedJIDs text []

/-! ### One replacement -/

section Replace

variable {sub l text rewritten kept rest : List Char} {n : ℕ} {u v : User} {f : User → User}

theorem index_none (h : index sub l = none) : ¬ sub <:+: l := by
  induction l with
  | nil =>
    unfold index at h
    split_ifs at h with hsub
    rw [List.infix_nil]
    exact hsub
  | cons c cs ih =>
    unfold index at h
    split_ifs at h with hfront
    rw [List.infix_cons_iff, not_or]
    exact ⟨hfront, ih (Option.map_eq_none_iff.mp h)⟩

theorem index_some (hsub : sub ≠ []) (h : index sub l = some n) :
    ∃ before after, l = before ++ (sub ++ after) ∧ before.length = n ∧ ¬ sub <:+: before := by
  induction l generalizing n with
  | nil =>
    unfold index at h
    rw [if_neg hsub] at h
    cases h
  | cons c cs ih =>
    unfold index at h
    split_ifs at h with hfront
    · cases h
      obtain ⟨after, hafter⟩ := hfront
      exact ⟨[], after, hafter.symm, rfl, List.infix_nil.not.mpr hsub⟩
    · obtain ⟨m, hm, rfl⟩ := Option.map_eq_some_iff.mp h
      obtain ⟨before, after, rfl, rfl, hnone⟩ := ih hm
      refine ⟨c :: before, after, rfl, rfl, ?_⟩
      rw [List.infix_cons_iff, not_or]
      refine ⟨fun hp => hfront ?_, hnone⟩
      exact hp.trans (List.prefix_append (c :: before) (sub ++ after))

theorem not_mem_tokens (h : ¬ '@' :: u.1 <:+: text) : u ∉ marking.tokens text :=
  fun hu => h (Marking.infix_of_mem_tokens hu)

theorem mapTokens_of_not_mem (h : u ∉ marking.tokens text) : marking.mapTokens (rename (u, v)) text = text := by
  have hid : marking.mapTokens (rename (u, v)) text = marking.mapTokens id text := by
    refine Marking.mapTokens_congr fun d hd => rename_ne ?_
    rintro rfl
    exact h hd
  rw [hid, Marking.mapTokens_id]

theorem token_longer (u v : User) {c : Char} (after : List Char) (hc : c.isDigit = true) :
    marking.mapTokens (rename (u, v)) ('@' :: (u.1 ++ c :: after)) =
        '@' :: (u.1 ++ marking.mapTokens (rename (u, v)) (c :: after)) ∧
      (u ∈ marking.tokens ('@' :: (u.1 ++ c :: after)) ↔ u ∈ marking.tokens (c :: after)) := by
  let e : User := marking.word (c :: after)
  let t := (c :: after).dropWhile marking.letter
  have hsplit : c :: after = e.1 ++ t := List.takeWhile_append_dropWhile.symm
  have hne : e.1 ≠ [] := by
    show (c :: after).takeWhile marking.letter ≠ []
    have hletter : marking.letter c = true := hc
    rw [List.takeWhile_cons_of_pos hletter]
    exact List.cons_ne_nil _ _
  have ht : ∀ d, t.head? = some d → marking.letter d = false := Marking.letter_head_dropWhile _
  let w : User := ⟨u.1 ++ e.1, fun d hd => (List.mem_append.mp hd).elim (u.2 d) (e.2 d)⟩
  have hw : w ≠ u := by
    intro heq
    exact hne (List.append_right_eq_self.mp (congrArg Subtype.val heq))
  have hlong : '@' :: (u.1 ++ (e.1 ++ t)) = marking.mark :: (w.1 ++ t) :=
    congrArg ('@' :: ·) (List.append_assoc _ _ _).symm
  have hfree : marking.mark ∉ e.1 := Marking.mark_not_mem_word e
  rw [hsplit, hlong]
  constructor
  · rw [Marking.mapTokens_token w ht, rename_ne hw, Marking.mapTokens_free_append hfree, ← List.append_assoc]
    rfl
  · rw [Marking.tokens_token w ht, Marking.tokens_free_append hfree, List.mem_cons]
    exact or_iff_right (Ne.symm hw)

theorem token_exact {after : List Char} (h : ∀ c, after.head? = some c → c.isDigit = false) :
    marking.mapTokens (rename (u, v)) ('@' :: (u.1 ++ after)) =
        '@' :: (v.1 ++ marking.mapTokens (rename (u, v)) after) ∧
      u ∈ marking.tokens ('@' :: (u.1 ++ after)) := by
  constructor
  · have htoken := Marking.mapTokens_token (f := rename (u, v)) u (t := after) h
    rw [rename_self] at htoken
    exact htoken
  · have htoken := Marking.tokens_token u (t := after) h
    rw [show '@' = marking.mark from rfl, htoken]
    exact List.mem_cons_self

theorem replaceLoop_eq (u v : User) (rewritten kept rest : List Char) (replaced : Bool) :
    replaceLoop u.1 v.1 rewritten kept rest replaced =
      (rewritten ++ (kept ++ marking.mapTokens (rename (u, v)) rest), replaced || decide (u ∈ marking.tokens rest)) := by
  induction hn : rest.length using Nat.strong_induction_on generalizing rewritten kept rest replaced with
  | _ n ih =>
    unfold replaceLoop
    by_cases hrest : rest = []
    · subst hrest
      rw [dif_pos rfl]
      show (rewritten ++ kept, replaced) = (rewritten ++ (kept ++ []), replaced || false)
      rw [List.append_nil, Bool.or_false]
    · rw [dif_neg hrest]
      split
      · next hnone =>
        have hfree := not_mem_tokens (index_none hnone)
        rw [mapTokens_of_not_mem hfree, decide_eq_false hfree, Bool.or_false]
      · next m hsome =>
        obtain ⟨before, after, rfl, rfl, hfirst⟩ := index_some (List.cons_ne_nil _ _) hsome
        have hbefore := not_mem_tokens hfirst
        have htake : (before ++ ('@' :: u.1 ++ after)).take before.length = before := List.take_left
        have hdrop : (before ++ ('@' :: u.1 ++ after)).drop (before.length + (u.1.length + 1)) = after := by
          rw [← List.append_assoc]
          exact List.drop_left' (by rw [List.length_append]; rfl)
        have hmap := Marking.mapTokens_append_mark (f := rename (u, v)) before (u.1 ++ after)
        have htokens := Marking.tokens_append_mark (M := marking) before (u.1 ++ after)
        have hshort : after.length < n := by
          rw [← hn]
          simp only [List.length_append, List.length_cons]
          omega
        dsimp only
        rw [htake, hdrop]
        rw [mapTokens_of_not_mem hbefore] at hmap
        have hmem : u ∈ marking.tokens (before ++ ('@' :: u.1 ++ after)) ↔ u ∈ marking.tokens ('@' :: (u.1 ++ after)) := by
          rw [List.cons_append]
          exact htokens ▸ List.mem_append.trans (or_iff_right hbefore)
        have hmap : marking.mapTokens (rename (u, v)) (before ++ ('@' :: u.1 ++ after)) =
            before ++ marking.mapTokens (rename (u, v)) ('@' :: (u.1 ++ after)) := hmap
        cases hhead : after.head?.any Char.isDigit with
        | true =>
          cases after with
          | nil => cases hhead
          | cons c after =>
            obtain ⟨hlong, hin⟩ := token_longer u v after hhead
            have hdecide : decide (u ∈ marking.tokens (before ++ ('@' :: u.1 ++ c :: after))) =
              decide (u ∈ marking.tokens (c :: after)) := decide_eq_decide.mpr (hmem.trans hin)
            rw [if_pos rfl, ih _ hshort _ _ _ _ rfl, hmap, hlong, hdecide]
            simp only [List.append_assoc, List.cons_append]
        | false =>
          have hend : ∀ c, after.head? = some c → c.isDigit = false := by
            intro c hc
            rw [hc] at hhead
            exact hhead
          obtain ⟨hexact, hin⟩ := token_exact (v := v) hend
          rw [if_neg Bool.false_ne_true, ih _ hshort _ _ _ _ rfl, hmap, hexact, decide_eq_true (hmem.mpr hin),
            Bool.true_or, Bool.or_true]
          simp only [List.append_assoc, List.cons_append, List.nil_append]

/-- **One replacement** renames the tokens of one user, or says that there is none. -/
theorem replaceMentionToken_eq (text : List Char) (u v : User) : replaceMentionToken text u.1 v.1 =
    if u.1 ≠ [] ∧ v.1 ≠ [] ∧ u ≠ v ∧ u ∈ marking.tokens text then (marking.mapTokens (rename (u, v)) text, true)
    else (text, false) := by
  unfold replaceMentionToken
  by_cases hskip : u.1 = [] ∨ v.1 = [] ∨ u.1 = v.1
  · rw [if_pos hskip, if_neg]
    rintro ⟨hu, hv, huv, -⟩
    rcases hskip with h | h | h
    · exact hu h
    · exact hv h
    · exact huv (Subtype.ext h)
  · rw [if_neg hskip, replaceLoop_eq]
    obtain ⟨hu, hv, huv⟩ := (not_or.mp hskip).imp_right not_or.mp
    by_cases hmem : u ∈ marking.tokens text
    · have hall : u.1 ≠ [] ∧ v.1 ≠ [] ∧ u ≠ v ∧ u ∈ marking.tokens text :=
        ⟨hu, hv, fun h => huv (congrArg Subtype.val h), hmem⟩
      rw [decide_eq_true hmem, if_pos hall]
      rfl
    · have hnot : ¬ (u.1 ≠ [] ∧ v.1 ≠ [] ∧ u ≠ v ∧ u ∈ marking.tokens text) := fun h => hmem h.2.2.2
      rw [decide_eq_false hmem, if_neg hnot]
      rfl

end Replace

/-! ### One mention after the other -/

/-- A mentioned LID: its user and the user of its phone. -/
def mentionPair (raw : Raw) : Option (User × User) :=
  match resolveMention env raw with
  | .ok (jid, some phone) => some (jid.user, phone)
  | _ => none

def mentionPairs (mentionedJIDs : List Raw) : List (User × User) := mentionedJIDs.filterMap (mentionPair env)

/-- Every mention is one that can be sent: it parses, its server is known, and a LID has a phone of another user. -/
structure Usable (mentionedJIDs : List Raw) : Prop where
  resolves : ∀ raw ∈ mentionedJIDs, ∃ r, resolveMention env raw = .ok r
  proper : ∀ m ∈ mentionPairs env mentionedJIDs, m.1.1 ≠ [] ∧ m.2.1 ≠ [] ∧ m.1 ≠ m.2

def TextAfter (text : List Char) (mentionedJIDs : List Raw) (text' : List Char) : Prop :=
  ∃ normalized, prepareTextMentions env text mentionedJIDs = .ok (text', normalized)

structure Substitutes (text : List Char) (mentionedJIDs : List Raw) : Prop where
  /-- The tokens of the mentioned LIDs are replaced at once, and nothing else. -/
  atOnce : ∀ text', TextAfter env text mentionedJIDs text' →
    text' = marking.mapTokens (target (mentionPairs env mentionedJIDs)) text
  /-- No mention rewrites a token that an earlier one has written. -/
  once : (∃ text', TextAfter env text mentionedJIDs text') →
    ∀ b₁ a b₂ b b₃, mentionedJIDs = b₁ ++ a :: (b₂ ++ b :: b₃) → ∀ t₀ t₁ t₂ t₃, TextAfter env text b₁ t₀ →
      TextAfter env text (b₁ ++ [a]) t₁ → TextAfter env text (b₁ ++ a :: b₂) t₂ →
      TextAfter env text (b₁ ++ a :: (b₂ ++ [b])) t₃ →
      ∀ k : ℕ, (marking.tokens t₀)[k]? ≠ (marking.tokens t₁)[k]? → (marking.tokens t₂)[k]? = (marking.tokens t₃)[k]?
  /-- With all its tokens in the text the call succeeds, also when a LID is mentioned twice. -/
  repeated : Usable env mentionedJIDs → (∀ m ∈ mentionPairs env mentionedJIDs, m.1 ∈ marking.tokens text) →
    ∃ text', TextAfter env text mentionedJIDs text'

/-- No LID whose tokens are all there is mentioned twice; and where every mention finds a token, none of them is of the
phone of an earlier one. -/
def Separate (text : List Char) (mentionedJIDs : List Raw) : Prop :=
  Usable env mentionedJIDs →
    ((∀ m ∈ mentionPairs env mentionedJIDs, m.1 ∈ marking.tokens text) →
      ((mentionPairs env mentionedJIDs).map Prod.fst).Nodup) ∧
    ((∀ before m after, mentionPairs env mentionedJIDs = before ++ m :: after →
      Available (marking.tokens text) before m.1) → Unchained (mentionPairs env mentionedJIDs))

section Calls

variable {env} {text text' : List Char} {raws before after : List Raw} {raw : Raw}

theorem usable_cons : Usable env (raw :: raws) ↔ (∃ r, resolveMention env raw = .ok r) ∧
    (∀ m, mentionPair env raw = some m → m.1.1 ≠ [] ∧ m.2.1 ≠ [] ∧ m.1 ≠ m.2) ∧ Usable env raws := by
  constructor
  · intro h
    obtain ⟨hraw, hraws⟩ := List.forall_mem_cons.mp h.resolves
    refine ⟨hraw, fun m hm => h.proper m ?_, hraws, fun m hm => h.proper m ?_⟩
    · exact List.mem_filterMap.mpr ⟨raw, List.mem_cons_self, hm⟩
    · obtain ⟨r, hr, hrm⟩ := List.mem_filterMap.mp hm
      exact List.mem_filterMap.mpr ⟨r, List.mem_cons_of_mem _ hr, hrm⟩
  · rintro ⟨hraw, hpair, hraws⟩
    refine ⟨List.forall_mem_cons.mpr ⟨hraw, hraws.resolves⟩, fun m hm => ?_⟩
    obtain ⟨r, hr, hrm⟩ := List.mem_filterMap.mp hm
    rcases List.mem_cons.mp hr with rfl | hr
    · exact hpair m hrm
    · exact hraws.proper m (List.mem_filterMap.mpr ⟨r, hr, hrm⟩)

theorem mentionPairs_cons_none (h : mentionPair env raw = none) : mentionPairs env (raw :: raws) = mentionPairs env raws :=
  List.filterMap_cons_none h

theorem mentionPairs_cons_some {m : User × User} (h : mentionPair env raw = some m) :
    mentionPairs env (raw :: raws) = m :: mentionPairs env raws := List.filterMap_cons_some h

theorem mentionPairs_append : mentionPairs env (before ++ after) = mentionPairs env before ++ mentionPairs env after :=
  List.filterMap_append

/-- **The call** succeeds when every mention is usable and finds its token, and renames one mention after the other. -/
theorem prepareLoop_ok (normalized : List JID) : (∃ n, prepareLoop env raws text normalized = .ok (text', n)) ↔ Usable env raws ∧
    Applies (mentionPairs env raws) (marking.tokens text) ∧
    text' = marking.mapTokens (renameAll (mentionPairs env raws)) text := by
  induction raws generalizing text normalized with
  | nil =>
    have hid : marking.mapTokens (renameAll (mentionPairs env [])) text = text := Marking.mapTokens_id text
    rw [hid]
    constructor
    · rintro ⟨n, h⟩
      cases h
      exact ⟨⟨fun _ h => absurd h List.not_mem_nil, fun _ h => absurd h List.not_mem_nil⟩, trivial, rfl⟩
    · rintro ⟨-, -, rfl⟩
      exact ⟨normalized, rfl⟩
  | cons raw raws ih =>
    rw [usable_cons]
    unfold prepareLoop
    cases hres : resolveMention env raw with
    | error e => exact iff_of_false (fun ⟨_, h⟩ => nomatch h) fun ⟨⟨⟨_, h⟩, _⟩, _⟩ => nomatch h
    | ok r =>
      obtain ⟨jid, phone⟩ := r
      cases phone with
      | none =>
        have hpair : mentionPair env raw = none := by
          unfold mentionPair
          rw [hres]
        rw [mentionPairs_cons_none hpair, hpair]
        refine (ih (normalized ++ [jid])).trans (and_congr_left fun _ => ?_)
        exact ⟨fun h => ⟨⟨_, rfl⟩, nofun, h⟩, fun h => h.2.2⟩
      | some phone =>
        have hpair : mentionPair env raw = some (jid.user, phone) := by
          unfold mentionPair
          rw [hres]
        rw [mentionPairs_cons_some hpair, hpair]
        dsimp only
        rw [replaceMentionToken_eq]
        by_cases hall : jid.user.1 ≠ [] ∧ phone.1 ≠ [] ∧ jid.user ≠ phone ∧ jid.user ∈ marking.tokens text
        · rw [if_pos hall]
          obtain ⟨hu, hv, huv, hmem⟩ := hall
          have htext : marking.mapTokens (renameAll (mentionPairs env raws))
              (marking.mapTokens (rename (jid.user, phone)) text) =
                marking.mapTokens (renameAll ((jid.user, phone) :: mentionPairs env raws)) text :=
            Marking.mapTokens_mapTokens _ _ text
          refine (ih (normalized ++ [jid])).trans ?_
          rw [htext, Marking.tokens_mapTokens]
          constructor
          · rintro ⟨husable, happlies, htext⟩
            refine ⟨⟨⟨_, rfl⟩, fun m hm => ?_, husable⟩, ⟨hmem, happlies⟩, htext⟩
            cases hm
            exact ⟨hu, hv, huv⟩
          · rintro ⟨⟨-, -, husable⟩, happlies, htext⟩
            exact ⟨husable, happlies.2, htext⟩
        · rw [if_neg hall]
          refine iff_of_false (fun ⟨_, h⟩ => nomatch h) fun ⟨⟨_, hproper, _⟩, happlies, _⟩ => hall ?_
          obtain ⟨hu, hv, huv⟩ := hproper _ rfl
          exact ⟨hu, hv, huv, happlies.1⟩

theorem textAfter_iff : TextAfter env text raws text' ↔ Usable env raws ∧
    Applies (mentionPairs env raws) (marking.tokens text) ∧
    text' = marking.mapTokens (renameAll (mentionPairs env raws)) text := prepareLoop_ok []

theorem TextAfter.tokens (h : TextAfter env text raws text') (k : ℕ) :
    (marking.tokens text')[k]? = ((marking.tokens text)[k]?).map (renameAll (mentionPairs env raws)) := by
  obtain ⟨-, -, rfl⟩ := textAfter_iff.mp h
  rw [Marking.tokens_mapTokens, List.getElem?_map]

theorem TextAfter.left (h : TextAfter env text raws text') (hsplit : raws = before ++ after) :
    ∃ text₀, TextAfter env text before text₀ := by
  subst hsplit
  obtain ⟨husable, happlies, -⟩ := textAfter_iff.mp h
  rw [mentionPairs_append] at happlies
  refine ⟨_, textAfter_iff.mpr ⟨⟨fun raw hraw => ?_, fun m hm => ?_⟩, (applies_append.mp happlies).1, rfl⟩⟩
  · exact husable.resolves raw (List.mem_append_left _ hraw)
  · exact husable.proper m (mentionPairs_append ▸ List.mem_append_left _ hm)

theorem mentionPairs_split {p₁ p₂ : List (User × User)} {m : User × User}
    (h : mentionPairs env raws = p₁ ++ m :: p₂) : ∃ b₁ raw b₂, raws = b₁ ++ raw :: b₂ ∧ mentionPairs env b₁ = p₁ ∧
      mentionPair env raw = some m ∧ mentionPairs env b₂ = p₂ := by
  obtain ⟨b₁, rest, rfl, hb₁, hrest⟩ := List.filterMap_eq_append_iff.mp h
  obtain ⟨skipped, raw, b₂, rfl, hskipped, hraw, hb₂⟩ := List.filterMap_eq_cons_iff.mp hrest
  refine ⟨b₁ ++ skipped, raw, b₂, (List.append_assoc _ _ _).symm, ?_, hraw, hb₂⟩
  have hnone : mentionPairs env skipped = [] := List.filterMap_eq_nil_iff.mpr hskipped
  rw [mentionPairs_append, hnone, List.append_nil]
  exact hb₁

theorem unchained_of_once (h : Substitutes env text raws) (hok : TextAfter env text raws text') :
    Unchained (mentionPairs env raws) := by
  refine Classical.byContradiction fun hchain => ?_
  obtain ⟨husable, happlies, -⟩ := textAfter_iff.mp hok
  obtain ⟨p₁, a, p₂, b, p₃, hsplit, hlink, hbetween⟩ := exists_link hchain
  obtain ⟨b₁, ra, rest, rfl, hp₁, hra, hrest⟩ := mentionPairs_split hsplit
  obtain ⟨b₂, rb, b₃, rfl, hp₂, hrb, -⟩ := mentionPairs_split hrest
  have hproper : a.1 ≠ a.2 ∧ b.1 ≠ b.2 := by
    refine ⟨(husable.proper a ?_).2.2, (husable.proper b ?_).2.2⟩
    · exact hsplit ▸ List.mem_append_right _ List.mem_cons_self
    · exact hsplit ▸ List.mem_append_right _ (List.mem_cons_of_mem _ (List.mem_append_right _ List.mem_cons_self))
  have hpa : mentionPairs env [ra] = [a] := mentionPairs_cons_some hra
  have hpb : mentionPairs env [rb] = [b] := mentionPairs_cons_some hrb
  -- the call gets as far as each of the two mentions, and past it
  have e₁ : b₁ ++ ra :: (b₂ ++ rb :: b₃) = (b₁ ++ [ra]) ++ (b₂ ++ rb :: b₃) := by simp
  have e₂ : b₁ ++ ra :: (b₂ ++ rb :: b₃) = (b₁ ++ ra :: b₂) ++ rb :: b₃ := by simp
  have e₃ : b₁ ++ ra :: (b₂ ++ rb :: b₃) = (b₁ ++ ra :: (b₂ ++ [rb])) ++ b₃ := by simp
  obtain ⟨t₀, hok₀⟩ := hok.left rfl
  obtain ⟨t₁, hok₁⟩ := hok.left e₁
  obtain ⟨t₂, hok₂⟩ := hok.left e₂
  obtain ⟨t₃, hok₃⟩ := hok.left e₃
  -- the place of a token that the first of them rewrites
  rw [hsplit] at happlies
  obtain ⟨-, hmem, -⟩ := applies_append.mp happlies
  obtain ⟨d, hd, hda⟩ := List.mem_map.mp hmem
  obtain ⟨k, hk⟩ := List.mem_iff_getElem?.mp hd
  have h₀ : renameAll (mentionPairs env b₁) d = a.1 := by rw [hp₁, hda]
  have h₁ : renameAll (mentionPairs env (b₁ ++ [ra])) d = a.2 := by
    rw [mentionPairs_append, renameAll_append, h₀, hpa]
    exact rename_self
  have h₂ : renameAll (mentionPairs env (b₁ ++ ra :: b₂)) d = a.2 := by
    rw [mentionPairs_append, renameAll_append, h₀, mentionPairs_cons_some hra, hp₂, renameAll_cons, rename_self]
    exact renameAll_of_ne hbetween
  have h₃ : renameAll (mentionPairs env (b₁ ++ ra :: (b₂ ++ [rb]))) d = b.2 := by
    rw [← List.cons_append, ← List.append_assoc, mentionPairs_append, renameAll_append, h₂, hpb, ← hlink]
    exact rename_self
  have honce := h.once ⟨_, hok⟩ b₁ ra b₂ rb b₃ rfl _ _ _ _ hok₀ hok₁ hok₂ hok₃ k
  rw [hok₀.tokens, hok₁.tokens, hok₂.tokens, hok₃.tokens, hk, Option.map_some, Option.map_some, Option.map_some,
    Option.map_some, h₀, h₁, h₂, h₃] at honce
  have heq := honce fun heq => hproper.1 (Option.some.inj heq)
  exact hproper.2 (hlink.trans (Option.some.inj heq))

theorem separate_of_substitutes (h : Substitutes env text raws) : Separate env text raws := by
  intro husable
  constructor
  · intro hall
    obtain ⟨text', hok⟩ := h.repeated husable hall
    obtain ⟨-, happlies, -⟩ := textAfter_iff.mp hok
    exact nodup_of_applies happlies (unchained_of_once h hok) fun m hm => (husable.proper m hm).2.2
  · intro hall
    exact unchained_of_once h (textAfter_iff.mpr ⟨husable, applies_iff.mpr hall, rfl⟩)

theorem unchained_of_separate (h : Separate env text raws) (hok : TextAfter env text raws text') :
    Unchained (mentionPairs env raws) := by
  obtain ⟨husable, happlies, -⟩ := textAfter_iff.mp hok
  exact (h husable).2 (applies_iff.mp happlies)

theorem substitutes_of_separate (h : Separate env text raws) : Substitutes env text raws where
  atOnce text' hok := by
    obtain ⟨-, -, htext⟩ := textAfter_iff.mp hok
    rw [htext]
    exact Marking.mapTokens_congr fun d _ => renameAll_eq_target (unchained_of_separate h hok) d
  once := by
    rintro ⟨text', hok⟩ b₁ a b₂ b b₃ rfl t₀ t₁ t₂ t₃ h₀ h₁ h₂ h₃ k hne
    have hfree := unchained_of_separate h hok
    rw [h₀.tokens, h₁.tokens] at hne
    rw [h₂.tokens, h₃.tokens]
    cases hk : (marking.tokens text)[k]? with
    | none => rfl
    | some d =>
      rw [hk, Option.map_some, Option.map_some, mentionPairs_append, renameAll_append] at hne
      cases hra : mentionPair env a with
      | none =>
        have hpa : mentionPairs env [a] = [] := mentionPairs_cons_none hra
        rw [hpa] at hne
        exact absurd rfl hne
      | some m =>
        have hpa : mentionPairs env [a] = [m] := mentionPairs_cons_some hra
        rw [hpa] at hne
        have hd : renameAll (mentionPairs env b₁) d = m.1 := by
          refine Classical.byContradiction fun hother => hne ?_
          exact congrArg some (rename_ne hother).symm
        -- what the mention has written, no later one renames
        rw [mentionPairs_append, mentionPairs_cons_some hra, mentionPairs_append] at hfree
        obtain ⟨hlater, -⟩ := List.pairwise_cons.mp (List.pairwise_append.mp hfree).2.1
        have hb₂ : renameAll (mentionPairs env b₂) m.2 = m.2 :=
          renameAll_of_ne fun x hx => hlater x (List.mem_append_left _ hx)
        have hb : renameAll (mentionPairs env [b]) m.2 = m.2 := by
          refine renameAll_of_ne fun x hx => hlater x (List.mem_append_right _ ?_)
          rw [← List.singleton_append, mentionPairs_append]
          exact List.mem_append_left _ hx
        rw [Option.map_some, Option.map_some, mentionPairs_append, mentionPairs_append, mentionPairs_cons_some hra,
          mentionPairs_cons_some hra, renameAll_append, renameAll_append, hd, renameAll_cons, renameAll_cons, rename_self,
          mentionPairs_append, renameAll_append, hb₂, hb]
  repeated husable hall := by
    refine ⟨_, textAfter_iff.mpr ⟨husable, ?_, rfl⟩⟩
    exact applies_of_nodup hall ((h husable).1 hall)

end Calls

/-- **Mentions are rewritten at once** exactly when no LID whose tokens are all there is mentioned twice, and no mention
that is reached is of the phone of an earlier one. -/
theorem mention_rewriting (env : MentionEnv Raw) (text : List Char) (mentionedJIDs : List Raw) :
    Substitutes env text mentionedJIDs ↔ Separate env text mentionedJIDs :=
  ⟨separate_of_substitutes, substitutes_of_separate⟩

def sixDigits (c : Char) (h : c.isDigit = true) : User :=
  ⟨List.replicate 6 c, fun _ hd => List.eq_of_mem_replicate hd ▸ h⟩

def firstLID : JID := ⟨sixDigits '1' rfl, .hiddenUser⟩

def secondLID : JID := ⟨sixDigits '2' rfl, .hiddenUser⟩

/-- The digits of the second LID are those of the phone of the first. -/
def overlapping : MentionEnv JID where
  parseJID := some
  resolvePhone := some fun jid => some ⟨sixDigits (if jid = firstLID then '2' else '3') (by split <;> rfl), .defaultUser⟩

theorem overlapping_resolves (raws : List JID) (h : ∀ raw ∈ raws, raw.server = .hiddenUser) :
    ∀ raw ∈ raws, ∃ r, resolveMention overlapping raw = .ok r := by
  intro raw hraw
  unfold resolveMention
  simp only [overlapping, h raw hraw]
  exact ⟨_, rfl⟩

theorem overlapping_text : TextAfter overlapping ('@' :: firstLID.user.1 ++ ' ' :: '@' :: secondLID.user.1)
    [firstLID, secondLID] ('@' :: List.replicate 6 '3' ++ ' ' :: '@' :: List.replicate 6 '3') :=
  textAfter_iff.mpr ⟨⟨overlapping_resolves _ (by decide), by decide⟩, ⟨by decide, by decide, trivial⟩, by decide⟩

/-- The first LID gets the phone of the second; and a LID that is mentioned twice makes the call fail. -/
theorem sequential_mentions :
    ¬ Substitutes overlapping ('@' :: firstLID.user.1 ++ ' ' :: '@' :: secondLID.user.1) [firstLID, secondLID] ∧
      ¬ Substitutes overlapping ('@' :: firstLID.user.1) [firstLID, firstLID] := by
  constructor
  · intro h
    exact absurd (h.atOnce _ overlapping_text) (by decide)
  · intro h
    obtain ⟨text', htext⟩ := h.repeated ⟨overlapping_resolves _ (by decide), by decide⟩ (by decide)
    obtain ⟨-, ⟨-, htwice, -⟩, -⟩ := textAfter_iff.mp htext
    exact absurd htwice (by decide)

end TeamInbox.Worker.Mentions
