import Mathlib.Data.List.Infix
import Mathlib.Data.List.TakeWhile
import Mathlib.Data.List.Nodup

/-!
# TeamInbox.Lib.Tokens — marked words in a text, and their renaming

A token of a text is a mark with the longest word after it.  `mapTokens f` replaces the word of every token at once and
keeps everything else; it composes, and two of them agree on a text when they agree on its tokens.

The second part renames by a list of pairs, one pair after the other.  `renameAll_eq_target` says when that is the same
as all pairs at once, `applies_iff` when every pair finds its word.
-/

namespace TeamInbox.Lib

/-- A mark, and the letters of the words. -/
structure Marking (α : Type) where
  mark : α
  letter : α → Bool
  letter_mark : letter mark = false

namespace Marking

variable {α : Type} (M : Marking α)

/-- A word: letters only. -/
abbrev Word : Type := {w : List α // ∀ c ∈ w, M.letter c = true}

/-- The longest word at the head of a piece. -/
def word (q : List α) : M.Word := ⟨q.takeWhile M.letter, fun _ hc => List.mem_takeWhile_imp hc⟩

section Word

variable {M} {t : List α}

theorem mark_not_mem_word (w : M.Word) : M.mark ∉ w.1 := by
  intro h
  have hletter := w.2 _ h
  rw [M.letter_mark] at hletter
  cases hletter

theorem word_append (w : M.Word) (ht : ∀ c, t.head? = some c → M.letter c = false) :
    M.word (w.1 ++ t) = w ∧ (w.1 ++ t).dropWhile M.letter = t := by
  have hall : ∀ c ∈ w.1, M.letter c = true := w.2
  have htake : t.takeWhile M.letter = [] ∧ t.dropWhile M.letter = t := by
    cases t with
    | nil => exact ⟨rfl, rfl⟩
    | cons c t =>
      have hc := ht c rfl
      rw [List.takeWhile_cons_of_neg (by simp [hc]), List.dropWhile_cons_of_neg (by simp [hc])]
      exact ⟨rfl, rfl⟩
  constructor
  · apply Subtype.ext
    show (w.1 ++ t).takeWhile M.letter = w.1
    rw [List.takeWhile_append_of_pos hall, htake.1, List.append_nil]
  · rw [List.dropWhile_append_of_pos hall, htake.2]

theorem letter_head_dropWhile (q : List α) : ∀ c, (q.dropWhile M.letter).head? = some c → M.letter c = false := by
  intro c hc
  induction q with
  | nil => cases hc
  | cons d q ih =>
    by_cases hd : M.letter d = true
    · rw [List.dropWhile_cons_of_pos hd] at hc
      exact ih hc
    · rw [List.dropWhile_cons_of_neg hd] at hc
      cases hc
      exact Bool.eq_false_iff.mpr hd

end Word

variable [DecidableEq α]

/-- The text before the first mark, and after each mark up to the next. -/
def pieces : List α → List α × List (List α)
  | [] => ([], [])
  | c :: cs => if c = M.mark then ([], (pieces cs).1 :: (pieces cs).2) else (c :: (pieces cs).1, (pieces cs).2)

def join (p : List α × List (List α)) : List α := p.1 ++ p.2.flatMap (M.mark :: ·)

def tokens (text : List α) : List M.Word := (M.pieces text).2.map M.word

/-- Replace the words of all tokens at once. -/
def mapTokens (f : M.Word → M.Word) (text : List α) : List α :=
  M.join ((M.pieces text).1, (M.pieces text).2.map fun q => (f (M.word q)).1 ++ q.dropWhile M.letter)

variable {M} {text t w a : List α} {f g : M.Word → M.Word}

/-! ### The pieces -/

theorem pieces_mark (cs : List α) : M.pieces (M.mark :: cs) = ([], (M.pieces cs).1 :: (M.pieces cs).2) := if_pos rfl

theorem pieces_ne {c : α} (cs : List α) (h : c ≠ M.mark) :
    M.pieces (c :: cs) = (c :: (M.pieces cs).1, (M.pieces cs).2) := if_neg h

theorem join_pieces (text : List α) : M.join (M.pieces text) = text := by
  induction text with
  | nil => rfl
  | cons c cs ih =>
    by_cases hc : c = M.mark
    · rw [hc, pieces_mark]
      exact congrArg (M.mark :: ·) ih
    · rw [pieces_ne cs hc]
      exact congrArg (c :: ·) ih

theorem pieces_free_append (h : M.mark ∉ w) : M.pieces (w ++ t) = (w ++ (M.pieces t).1, (M.pieces t).2) := by
  induction w with
  | nil => rfl
  | cons c w ih =>
    obtain ⟨hc, hw⟩ := not_or.mp (List.mem_cons.not.mp h)
    rw [List.cons_append, pieces_ne _ (Ne.symm hc), ih hw]
    rfl

theorem pieces_append_mark (a t : List α) :
    M.pieces (a ++ M.mark :: t) = ((M.pieces a).1, (M.pieces a).2 ++ (M.pieces t).1 :: (M.pieces t).2) := by
  induction a with
  | nil => exact pieces_mark t
  | cons c a ih =>
    by_cases hc : c = M.mark
    · rw [hc, List.cons_append, pieces_mark, pieces_mark, ih]
      rfl
    · rw [List.cons_append, pieces_ne _ hc, pieces_ne _ hc, ih]

theorem mark_not_mem_pieces (text : List α) : M.mark ∉ (M.pieces text).1 ∧ ∀ q ∈ (M.pieces text).2, M.mark ∉ q := by
  induction text with
  | nil => exact ⟨List.not_mem_nil, fun _ hq => absurd hq List.not_mem_nil⟩
  | cons c cs ih =>
    by_cases hc : c = M.mark
    · rw [hc, pieces_mark]
      exact ⟨List.not_mem_nil, List.forall_mem_cons.mpr ih⟩
    · rw [pieces_ne cs hc]
      exact ⟨List.mem_cons.not.mpr (not_or.mpr ⟨Ne.symm hc, ih.1⟩), ih.2⟩

theorem pieces_join {p : List α × List (List α)} (h : M.mark ∉ p.1) (hq : ∀ q ∈ p.2, M.mark ∉ q) :
    M.pieces (M.join p) = p := by
  obtain ⟨first, qs⟩ := p
  have hrest : M.pieces (qs.flatMap (M.mark :: ·)) = ([], qs) := by
    clear h
    induction qs with
    | nil => rfl
    | cons q qs ih =>
      obtain ⟨hmark, hqs⟩ := List.forall_mem_cons.mp hq
      show M.pieces (M.mark :: (q ++ qs.flatMap (M.mark :: ·))) = _
      rw [pieces_mark, pieces_free_append hmark, ih hqs, List.append_nil]
  show M.pieces (first ++ qs.flatMap (M.mark :: ·)) = _
  rw [pieces_free_append h, hrest, List.append_nil]

/-! ### The tokens -/

/-- The head of a text that no letter begins is the head of its first piece. -/
theorem letter_head_pieces (ht : ∀ c, t.head? = some c → M.letter c = false) :
    ∀ c, (M.pieces t).1.head? = some c → M.letter c = false := by
  cases t with
  | nil => exact fun c hc => nomatch hc
  | cons d t =>
    intro c hc
    by_cases hd : d = M.mark
    · rw [hd, pieces_mark] at hc
      cases hc
    · rw [pieces_ne t hd] at hc
      exact ht c hc

theorem tokens_append_mark (a t : List α) : M.tokens (a ++ M.mark :: t) = M.tokens a ++ M.tokens (M.mark :: t) := by
  unfold tokens
  rw [pieces_append_mark, pieces_mark, List.map_append]

theorem tokens_free_append (h : M.mark ∉ w) : M.tokens (w ++ t) = M.tokens t := by
  unfold tokens
  rw [pieces_free_append h]

theorem tokens_token (w : M.Word) (ht : ∀ c, t.head? = some c → M.letter c = false) :
    M.tokens (M.mark :: (w.1 ++ t)) = w :: M.tokens t := by
  unfold tokens
  rw [pieces_mark, pieces_free_append (mark_not_mem_word w), List.map_cons,
    (word_append w (letter_head_pieces ht)).1]

theorem mapTokens_append_mark (a t : List α) :
    M.mapTokens f (a ++ M.mark :: t) = M.mapTokens f a ++ M.mapTokens f (M.mark :: t) := by
  unfold mapTokens join
  rw [pieces_append_mark, pieces_mark, List.map_append, List.flatMap_append, List.append_assoc]
  rfl

theorem mapTokens_free_append (h : M.mark ∉ w) : M.mapTokens f (w ++ t) = w ++ M.mapTokens f t := by
  unfold mapTokens join
  rw [pieces_free_append h, List.append_assoc]

theorem mapTokens_token (w : M.Word) (ht : ∀ c, t.head? = some c → M.letter c = false) :
    M.mapTokens f (M.mark :: (w.1 ++ t)) = M.mark :: ((f w).1 ++ M.mapTokens f t) := by
  unfold mapTokens join
  obtain ⟨hword, hrest⟩ := word_append w (letter_head_pieces ht)
  rw [pieces_mark, pieces_free_append (mark_not_mem_word w), List.map_cons, List.flatMap_cons, hword, hrest,
    List.nil_append, List.cons_append, List.append_assoc]

theorem pieces_mapTokens (f : M.Word → M.Word) (text : List α) : M.pieces (M.mapTokens f text) =
    ((M.pieces text).1, (M.pieces text).2.map fun q => (f (M.word q)).1 ++ q.dropWhile M.letter) := by
  obtain ⟨hfirst, hpieces⟩ := mark_not_mem_pieces (M := M) text
  refine pieces_join hfirst fun q hq => ?_
  obtain ⟨q', hq', rfl⟩ := List.mem_map.mp hq
  rw [List.mem_append, not_or]
  exact ⟨mark_not_mem_word _, fun hmem => hpieces q' hq' ((List.dropWhile_sublist _).subset hmem)⟩

theorem tokens_mapTokens (f : M.Word → M.Word) (text : List α) : M.tokens (M.mapTokens f text) = (M.tokens text).map f := by
  unfold tokens
  rw [pieces_mapTokens, List.map_map, List.map_map]
  exact List.map_congr_left fun q _ => (word_append (f (M.word q)) (letter_head_dropWhile q)).1

theorem mapTokens_congr (h : ∀ d ∈ M.tokens text, f d = g d) : M.mapTokens f text = M.mapTokens g text := by
  unfold mapTokens
  congr 2
  refine List.map_congr_left fun q hq => ?_
  rw [h _ (List.mem_map_of_mem hq)]

theorem mapTokens_id (text : List α) : M.mapTokens id text = text := by
  have hsame : (M.pieces text).2.map (fun q => (id (M.word q)).1 ++ q.dropWhile M.letter) = (M.pieces text).2 :=
    (List.map_congr_left fun q _ => List.takeWhile_append_dropWhile).trans (List.map_id _)
  unfold mapTokens
  rw [hsame]
  exact join_pieces text

theorem mapTokens_mapTokens (f g : M.Word → M.Word) (text : List α) :
    M.mapTokens g (M.mapTokens f text) = M.mapTokens (g ∘ f) text := by
  have hpieces := pieces_mapTokens f text
  unfold mapTokens at hpieces ⊢
  rw [hpieces, List.map_map]
  congr 2
  refine List.map_congr_left fun q _ => ?_
  obtain ⟨hword, hrest⟩ := word_append (f (M.word q)) (letter_head_dropWhile q)
  show (g (M.word ((f (M.word q)).1 ++ _))).1 ++ List.dropWhile M.letter ((f (M.word q)).1 ++ _) = _
  rw [hword, hrest]
  rfl

theorem infix_of_mem_tokens {d : M.Word} (h : d ∈ M.tokens text) : M.mark :: d.1 <:+: text := by
  obtain ⟨q, hq, rfl⟩ := List.mem_map.mp h
  obtain ⟨qs, qs', hsplit⟩ := List.append_of_mem hq
  refine ⟨(M.pieces text).1 ++ qs.flatMap (M.mark :: ·), q.dropWhile M.letter ++ qs'.flatMap (M.mark :: ·), ?_⟩
  have hq : q = (M.word q).1 ++ q.dropWhile M.letter := List.takeWhile_append_dropWhile.symm
  calc _ = (M.pieces text).1 ++ (qs.flatMap (M.mark :: ·) ++ (M.mark :: ((M.word q).1 ++ q.dropWhile M.letter) ++
        qs'.flatMap (M.mark :: ·))) := by simp only [List.append_assoc, List.cons_append]
    _ = M.join (M.pieces text) := by rw [← hq, join, hsplit, List.flatMap_append, List.flatMap_cons]
    _ = text := join_pieces text

end Marking

/-! ### Renamings, one after the other -/

section Renaming

variable {β : Type}

/-- No renaming is of what an earlier one gives. -/
def Unchained (ms : List (β × β)) : Prop := ms.Pairwise fun a b => b.1 ≠ a.2

/-- After the renamings `before` the word is there: none was of it, or the last one that concerns it gives it. -/
def Available (ts : List β) (before : List (β × β)) (u : β) : Prop :=
  (u ∈ ts ∧ ∀ a ∈ before, a.1 ≠ u) ∨ ∃ b₁ a b₂, before = b₁ ++ a :: b₂ ∧ a.2 = u ∧ ∀ b ∈ b₂, b.1 ≠ u

theorem available_concat {m : β × β} {ms : List (β × β)} {ts : List β} {u : β} :
    Available ts (ms ++ [m]) u ↔ u = m.2 ∨ (u ≠ m.1 ∧ Available ts ms u) := by
  constructor
  · rintro (⟨hu, hnone⟩ | ⟨b₁, a, b₂, hsplit, ha, hlast⟩)
    · have hm := hnone m (List.mem_append_right _ List.mem_cons_self)
      exact .inr ⟨Ne.symm hm, .inl ⟨hu, fun a ha => hnone a (List.mem_append_left _ ha)⟩⟩
    · cases b₂ using List.reverseRecOn with
      | nil =>
        obtain ⟨-, hma⟩ := List.append_inj' hsplit rfl
        cases hma
        exact .inl ha.symm
      | append_singleton b₂ b =>
        rw [← List.cons_append, ← List.append_assoc] at hsplit
        obtain ⟨hms, hmb⟩ := List.append_inj' hsplit rfl
        cases hmb
        have hm := hlast m (List.mem_append_right _ List.mem_cons_self)
        exact .inr ⟨Ne.symm hm, .inr ⟨b₁, a, b₂, hms, ha, fun b hb => hlast b (List.mem_append_left _ hb)⟩⟩
  · rintro (rfl | ⟨hne, ⟨hu, hnone⟩ | ⟨b₁, a, b₂, rfl, ha, hlast⟩⟩)
    · exact .inr ⟨ms, m, [], rfl, rfl, fun _ hb => absurd hb List.not_mem_nil⟩
    · refine .inl ⟨hu, fun a ha => ?_⟩
      rcases List.mem_append.mp ha with ha | ha
      · exact hnone a ha
      · exact List.mem_singleton.mp ha ▸ Ne.symm hne
    · refine .inr ⟨b₁, a, b₂ ++ [m], by rw [List.append_assoc, List.cons_append], ha, fun b hb => ?_⟩
      rcases List.mem_append.mp hb with hb | hb
      · exact hlast b hb
      · exact List.mem_singleton.mp hb ▸ Ne.symm hne

variable [DecidableEq β]

instance (ms : List (β × β)) : Decidable (Unchained ms) := inferInstanceAs (Decidable (ms.Pairwise _))

/-- The first word becomes the second. -/
def rename (m : β × β) (t : β) : β := if t = m.1 then m.2 else t

/-- One renaming after the other. -/
def renameAll (ms : List (β × β)) (t : β) : β := ms.foldl (fun t m => rename m t) t

/-- All renamings at once: what the first one for `t` says. -/
def target (ms : List (β × β)) (t : β) : β := ((ms.find? fun m => m.1 = t).map Prod.snd).getD t

/-- Every renaming finds its word among what the earlier ones leave. -/
def Applies : List (β × β) → List β → Prop
  | [], _ => True
  | m :: ms, ts => m.1 ∈ ts ∧ Applies ms (ts.map (rename m))

variable {m : β × β} {ms ms' : List (β × β)} {ts : List β} {t u : β}

theorem rename_self : rename m m.1 = m.2 := if_pos rfl

theorem rename_ne (h : t ≠ m.1) : rename m t = t := if_neg h

theorem renameAll_cons : renameAll (m :: ms) t = renameAll ms (rename m t) := rfl

theorem renameAll_append : renameAll (ms ++ ms') t = renameAll ms' (renameAll ms t) := List.foldl_append

theorem renameAll_of_ne (h : ∀ b ∈ ms, b.1 ≠ t) : renameAll ms t = t := by
  induction ms with
  | nil => rfl
  | cons m ms ih =>
    obtain ⟨hm, hms⟩ := List.forall_mem_cons.mp h
    rw [renameAll_cons, rename_ne (Ne.symm hm), ih hms]

/-- **At once.**  Without a chain the order of the renamings does not show. -/
theorem renameAll_eq_target (h : Unchained ms) (t : β) : renameAll ms t = target ms t := by
  induction ms with
  | nil => rfl
  | cons m ms ih =>
    obtain ⟨hm, hms⟩ := List.pairwise_cons.mp h
    by_cases ht : t = m.1
    · subst ht
      rw [renameAll_cons, rename_self, renameAll_of_ne hm]
      unfold target
      rw [List.find?_cons_of_pos (by simp)]
      rfl
    · rw [renameAll_cons, rename_ne ht, ih hms]
      unfold target
      rw [List.find?_cons_of_neg (by simpa using Ne.symm ht)]

theorem applies_append : Applies (ms ++ ms') ts ↔ Applies ms ts ∧ Applies ms' (ts.map (renameAll ms)) := by
  induction ms generalizing ts with
  | nil =>
    have hid : ts.map (renameAll []) = ts := List.map_id ts
    rw [hid]
    exact (true_and _).symm.to_iff
  | cons m ms ih =>
    have hmap : ts.map (renameAll (m :: ms)) = (ts.map (rename m)).map (renameAll ms) := by
      rw [List.map_map]
      rfl
    rw [hmap]
    exact (and_congr_right fun _ => ih).trans and_assoc.symm

theorem mem_map_rename (hm : m.1 ∈ ts) : u ∈ ts.map (rename m) ↔ u = m.2 ∨ (u ≠ m.1 ∧ u ∈ ts) := by
  constructor
  · intro h
    obtain ⟨t, ht, rfl⟩ := List.mem_map.mp h
    by_cases htm : t = m.1
    · rw [htm, rename_self]
      exact .inl rfl
    · rw [rename_ne htm]
      exact .inr ⟨htm, ht⟩
  · rintro (rfl | ⟨hne, hu⟩)
    · exact List.mem_map.mpr ⟨m.1, hm, rename_self⟩
    · exact List.mem_map.mpr ⟨u, hu, rename_ne hne⟩

theorem mem_map_renameAll (h : Applies ms ts) : u ∈ ts.map (renameAll ms) ↔ Available ts ms u := by
  induction ms using List.reverseRecOn generalizing u with
  | nil =>
    have hid : ts.map (renameAll []) = ts := List.map_id ts
    rw [hid]
    constructor
    · exact fun hu => .inl ⟨hu, fun _ ha => absurd ha List.not_mem_nil⟩
    · rintro (⟨hu, -⟩ | ⟨b₁, a, b₂, hsplit, -⟩)
      · exact hu
      · exact absurd hsplit.symm (List.append_ne_nil_of_right_ne_nil _ (List.cons_ne_nil _ _))
  | append_singleton ms m ih =>
    obtain ⟨hms, hm, -⟩ := applies_append.mp h
    have hmap : ts.map (renameAll (ms ++ [m])) = (ts.map (renameAll ms)).map (rename m) := by
      rw [List.map_map]
      exact List.map_congr_left fun t _ => renameAll_append
    rw [hmap, mem_map_rename hm, available_concat, ih hms]

/-- Every renaming finds its word exactly when each is available at its turn. -/
theorem applies_iff : Applies ms ts ↔ ∀ before m after, ms = before ++ m :: after → Available ts before m.1 := by
  constructor
  · rintro h before m after rfl
    obtain ⟨hbefore, hm, -⟩ := applies_append.mp h
    exact (mem_map_renameAll hbefore).mp hm
  · intro h
    induction ms using List.reverseRecOn with
    | nil => trivial
    | append_singleton ms m ih =>
      have hms : Applies ms ts := ih fun before m' after hsplit =>
        h before m' (after ++ [m]) (by rw [hsplit, List.append_assoc, List.cons_append])
      exact applies_append.mpr ⟨hms, (mem_map_renameAll hms).mpr (h ms m [] rfl), trivial⟩

theorem applies_of_nodup (hts : ∀ m ∈ ms, m.1 ∈ ts) (h : (ms.map Prod.fst).Nodup) : Applies ms ts := by
  induction ms generalizing ts with
  | nil => trivial
  | cons m ms ih =>
    obtain ⟨hm, hms⟩ := List.forall_mem_cons.mp hts
    obtain ⟨hnew, hnodup⟩ := List.nodup_cons.mp h
    refine ⟨hm, ih (fun m' hm' => List.mem_map.mpr ⟨m'.1, hms m' hm', rename_ne ?_⟩) hnodup⟩
    intro heq
    exact hnew (heq ▸ List.mem_map_of_mem hm')

theorem mem_of_applies (h : Applies ms ts) (hfree : Unchained ms) : ∀ m ∈ ms, m.1 ∈ ts := by
  induction ms generalizing ts with
  | nil => exact fun _ hm => absurd hm List.not_mem_nil
  | cons m ms ih =>
    obtain ⟨hne, hms⟩ := List.pairwise_cons.mp hfree
    refine List.forall_mem_cons.mpr ⟨h.1, fun m' hm' => ?_⟩
    rcases (mem_map_rename h.1).mp (ih h.2 hms m' hm') with heq | ⟨-, hmem⟩
    · exact absurd heq (hne m' hm')
    · exact hmem

theorem nodup_of_applies (h : Applies ms ts) (hfree : Unchained ms) (hproper : ∀ m ∈ ms, m.1 ≠ m.2) :
    (ms.map Prod.fst).Nodup := by
  induction ms generalizing ts with
  | nil => exact List.nodup_nil
  | cons m ms ih =>
    obtain ⟨hm, hms⟩ := List.forall_mem_cons.mp hproper
    obtain ⟨-, hrest⟩ := List.pairwise_cons.mp hfree
    refine List.nodup_cons.mpr ⟨fun hmem => ?_, ih h.2 hrest hms⟩
    obtain ⟨m', hm', heq⟩ := List.mem_map.mp hmem
    have hfound := mem_of_applies h.2 hrest m' hm'
    rw [heq] at hfound
    rcases (mem_map_rename h.1).mp hfound with hsame | ⟨hne, -⟩
    · exact hm hsame
    · exact hne rfl

/-- A chain has a link: a renaming, and the next one of what it gives. -/
theorem exists_link (h : ¬ Unchained ms) :
    ∃ b₁ a b₂ b b₃, ms = b₁ ++ a :: (b₂ ++ b :: b₃) ∧ b.1 = a.2 ∧ ∀ x ∈ b₂, x.1 ≠ a.2 := by
  induction ms with
  | nil => exact absurd .nil h
  | cons m ms ih =>
    by_cases hms : Unchained ms
    · have hlink : ∃ b ∈ ms, b.1 = m.2 := by
        refine Classical.byContradiction fun hnone => h (List.pairwise_cons.mpr ⟨fun b hb heq => ?_, hms⟩)
        exact hnone ⟨b, hb, heq⟩
      have hsome : (ms.find? fun b => b.1 = m.2).isSome = true := by
        obtain ⟨b, hb, heq⟩ := hlink
        exact List.find?_isSome.mpr ⟨b, hb, decide_eq_true heq⟩
      obtain ⟨b, hfind⟩ := Option.isSome_iff_exists.mp hsome
      obtain ⟨hb, b₂, b₃, hsplit, hfirst⟩ := List.find?_eq_some_iff_append.mp hfind
      refine ⟨[], m, b₂, b, b₃, congrArg (m :: ·) hsplit, of_decide_eq_true hb, fun x hx => ?_⟩
      simpa using hfirst x hx
    · obtain ⟨b₁, a, b₂, b, b₃, rfl, hlink⟩ := ih hms
      exact ⟨m :: b₁, a, b₂, b, b₃, rfl, hlink⟩

end Renaming

end TeamInbox.Lib
