import Mathlib

/-!
# TeamInbox.Lib.Spans — half-open spans of integers, in order

The integers of a window that a list of spans covers are counted span by span, as the overlap of each with the window:
`covered_eq_sum`.  The spans may touch, but must not overlap.
-/

namespace TeamInbox.Lib

/-- `[a, b)`. -/
abbrev Span := ℤ × ℤ

def Covers (spans : List Span) (t : ℤ) : Prop := ∃ p ∈ spans, p.1 ≤ t ∧ t < p.2

instance (spans : List Span) (t : ℤ) : Decidable (Covers spans t) := inferInstanceAs (Decidable (∃ p ∈ spans, _))

/-- What the window `[s, e)` and a span have in common. -/
def overlap (s e : ℤ) (p : Span) : ℕ := (min p.2 e - max p.1 s).toNat

/-- Each span ends before the next one starts. -/
def Ordered (spans : List Span) : Prop := spans.Pairwise fun p q => p.2 ≤ q.1

/-- How many integers of the window are covered. -/
noncomputable def covered (spans : List Span) (s e : ℤ) : ℕ := ((Finset.Ico s e).filter (Covers spans)).card

variable {spans : List Span} {p : Span} {s e t : ℤ}

theorem covers_append {spans' : List Span} : Covers (spans ++ spans') t ↔ Covers spans t ∨ Covers spans' t := by
  constructor
  · rintro ⟨p, hp, ht⟩
    exact (List.mem_append.mp hp).imp (fun hp => ⟨p, hp, ht⟩) fun hp => ⟨p, hp, ht⟩
  · rintro (⟨p, hp, ht⟩ | ⟨p, hp, ht⟩)
    · exact ⟨p, List.mem_append_left _ hp, ht⟩
    · exact ⟨p, List.mem_append_right _ hp, ht⟩

theorem covers_cons : Covers (p :: spans) t ↔ (p.1 ≤ t ∧ t < p.2) ∨ Covers spans t := by
  rw [← List.singleton_append, covers_append]
  refine or_congr_left ⟨?_, fun ht => ⟨p, List.mem_singleton_self p, ht⟩⟩
  rintro ⟨q, hq, ht⟩
  exact List.mem_singleton.mp hq ▸ ht

theorem card_span (p : Span) (s e : ℤ) :
    ((Finset.Ico s e).filter fun t => p.1 ≤ t ∧ t < p.2).card = overlap s e p := by
  have hinter : ((Finset.Ico s e).filter fun t => p.1 ≤ t ∧ t < p.2) = Finset.Ico (max p.1 s) (min p.2 e) := by
    ext t
    simp only [Finset.mem_filter, Finset.mem_Ico, max_le_iff, lt_min_iff]
    tauto
  rw [hinter, Int.card_Ico]
  rfl

theorem overlap_eq_zero (h : e ≤ p.1) : overlap s e p = 0 := by
  unfold overlap
  have hmin := min_le_right p.2 e
  have hmax := le_max_left p.1 s
  omega

/-- **Span by span.** -/
theorem covered_eq_sum (h : Ordered spans) (s e : ℤ) : covered spans s e = (spans.map (overlap s e)).sum := by
  induction spans with
  | nil =>
    refine Finset.card_eq_zero.mpr (Finset.filter_eq_empty_iff.mpr fun t _ => ?_)
    rintro ⟨p, hp, -⟩
    exact absurd hp List.not_mem_nil
  | cons p spans ih =>
    obtain ⟨hp, hspans⟩ := List.pairwise_cons.mp h
    have hsplit : (Finset.Ico s e).filter (Covers (p :: spans)) =
        ((Finset.Ico s e).filter fun t => p.1 ≤ t ∧ t < p.2) ∪ (Finset.Ico s e).filter (Covers spans) := by
      rw [← Finset.filter_or]
      exact Finset.filter_congr fun t _ => covers_cons
    have hdisjoint : Disjoint ((Finset.Ico s e).filter fun t => p.1 ≤ t ∧ t < p.2)
        ((Finset.Ico s e).filter (Covers spans)) := by
      refine Finset.disjoint_filter.mpr fun t _ ht => ?_
      rintro ⟨q, hq, hqt, -⟩
      have hle := hp q hq
      omega
    show ((Finset.Ico s e).filter (Covers (p :: spans))).card = _
    rw [hsplit, Finset.card_union_of_disjoint hdisjoint, card_span, List.map_cons, List.sum_cons, ← ih hspans]
    rfl

end TeamInbox.Lib
