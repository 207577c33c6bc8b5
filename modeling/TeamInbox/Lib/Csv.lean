import Mathlib.Data.List.Basic

/-!
# TeamInbox.Lib.Csv — a reader of comma-separated values

Fields are separated by commas and records by line feeds.  A field that starts with a double quote runs to the
next quote that is not one of a pair; a pair stands for one quote.  What is read of records joined together is the
records, if each field stands for its text (`read_records`).
-/

namespace TeamInbox.Lib.Csv

abbrev Text := List Char

/-- Where the reader is in a field. -/
inductive Mode
  | start
  | plain
  | quoted
  /-- after a quote in a quoted field -/
  | closing
  deriving DecidableEq

/-- The records of a text, after the fields `record` and the part `field` of the next one. -/
def read (mode : Mode) (field : Text) (record : List Text) : List Char → Option (List (List Text))
  | [] => if mode = .quoted then none else some [record ++ [field]]
  | c :: rest =>
    if mode = .quoted then
      if c = '"' then read .closing field record rest else read .quoted (field ++ [c]) record rest
    else if c = '"' ∧ mode = .start then read .quoted field record rest
    else if c = '"' ∧ mode = .closing then read .quoted (field ++ [c]) record rest
    else if c = ',' then read .start [] (record ++ [field]) rest
    else if c = '\n' then (read .start [] [] rest).map fun records => (record ++ [field]) :: records
    else if mode = .closing then none
    else read .plain (field ++ [c]) record rest

def readRecords (content : List Char) : Option (List (List Text)) := read .start [] [] content

example : readRecords [','] = some [[[], []]] := by
  rw [readRecords, read, read]
  rfl

/-- Each quote twice. -/
def doubled (t : Text) : Text := t.flatMap fun c => if c = '"' then ['"', '"'] else [c]

variable {mode : Mode} {field s t rest : Text} {record : List Text} {c : Char}

/-- A field ends here. -/
def Ends (rest : List Char) : Prop := ∀ c, rest.head? = some c → c = ',' ∨ c = '\n'

theorem ends_nil : Ends [] := fun _ h => by cases h

theorem ends_cons (h : c = ',' ∨ c = '\n') : Ends (c :: rest) := by
  intro d hd
  obtain rfl := Option.some.inj hd
  exact h

theorem read_ends (h : Ends rest) (hmode : mode ≠ .quoted) : read mode field record rest = read .plain field record rest := by
  cases rest with
  | nil =>
    unfold read
    rw [if_neg hmode, if_neg (by decide)]
  | cons c rest =>
    unfold read
    rcases h c rfl with rfl | rfl <;> simp [hmode]

/-- The text `s` stands for the field `t`. -/
def Encodes (s t : Text) : Prop :=
  ∀ record rest, Ends rest → read .start [] record (s ++ rest) = read .plain t record rest

theorem read_plain (h : ∀ c ∈ t, c ≠ ',' ∧ c ≠ '\n' ∧ c ≠ '"') :
    read .plain field record (t ++ rest) = read .plain (field ++ t) record rest := by
  induction t generalizing field with
  | nil => simp
  | cons c t ih =>
    obtain ⟨hcomma, hline, hquote⟩ := h c List.mem_cons_self
    rw [List.cons_append, read]
    simp only [hcomma, hline, hquote, if_false, false_and, reduceCtorEq]
    rw [ih fun d hd => h d (List.mem_cons_of_mem _ hd), List.append_assoc]
    rfl

theorem encodes_plain (h : ∀ c ∈ t, c ≠ ',' ∧ c ≠ '\n' ∧ c ≠ '"') : Encodes t t := by
  intro record rest hrest
  cases t with
  | nil => exact read_ends hrest (by decide)
  | cons c t =>
    obtain ⟨hcomma, hline, hquote⟩ := h c List.mem_cons_self
    rw [List.cons_append, read]
    simp only [hcomma, hline, hquote, if_false, false_and, reduceCtorEq]
    exact read_plain fun d hd => h d (List.mem_cons_of_mem _ hd)

theorem read_quoted (hrest : Ends rest) :
    read .quoted field record (doubled t ++ '"' :: rest) = read .plain (field ++ t) record rest := by
  induction t generalizing field with
  | nil =>
    show read .quoted field record ('"' :: rest) = _
    rw [read, List.append_nil]
    simp only [if_true]
    exact read_ends hrest (by decide)
  | cons c t ih =>
    have hsnoc : field ++ c :: t = field ++ [c] ++ t := by rw [List.append_assoc, List.singleton_append]
    rw [hsnoc, ← ih]
    show read .quoted field record ((if c = '"' then ['"', '"'] else [c]) ++ doubled t ++ '"' :: rest) = _
    by_cases hc : c = '"'
    · subst hc
      simp [read]
    · simp [read, hc]

theorem encodes_quoted (t : Text) : Encodes ('"' :: doubled t ++ ['"']) t := by
  intro record rest hrest
  rw [List.append_assoc, List.cons_append, read]
  exact read_quoted hrest

/-! ### Records -/

theorem read_record {ss ts : List Text} (h : List.Forall₂ Encodes ss ts) (hne : ts ≠ []) (hrest : rest = [] ∨ ∃ l, rest = '\n' :: l) :
    read .start [] record ([','].intercalate ss ++ rest) =
      (match rest with
        | [] => some []
        | _ :: l => readRecords l).map ((record ++ ts) :: ·) := by
  have hends : Ends rest := by
    rcases hrest with rfl | ⟨l, rfl⟩
    · exact ends_nil
    · exact ends_cons (Or.inr rfl)
  induction h generalizing record with
  | nil => exact absurd rfl hne
  | @cons s t ss ts hst h ih =>
    cases h with
    | nil =>
      rw [List.intercalate_singleton, hst record rest hends]
      rcases hrest with rfl | ⟨l, rfl⟩
      · simp [read]
      · simp [read, readRecords]
    | @cons s' t' ss' ts' hst' h' =>
      rw [List.intercalate_cons_cons, List.append_assoc, List.append_assoc, List.singleton_append,
        hst record _ (ends_cons (Or.inl rfl)), read]
      simp only [if_true, and_false, reduceCtorEq, if_false, Char.reduceEq]
      rw [ih (by simp), List.append_assoc]
      rfl

/-- **Reading joined records** gives the fields they stand for. -/
theorem read_records {sss tss : List (List Text)} (h : List.Forall₂ (List.Forall₂ Encodes) sss tss) (hne : tss ≠ [])
    (hfields : ∀ ts ∈ tss, ts ≠ []) :
    readRecords (['\n'].intercalate (sss.map fun ss => [','].intercalate ss)) = some tss := by
  unfold readRecords
  induction h with
  | nil => exact absurd rfl hne
  | @cons ss ts sss tss hst h ih =>
    have hts := hfields ts List.mem_cons_self
    cases h with
    | nil =>
      have hlast := @read_record [] [] ss ts hst hts (Or.inl rfl)
      rw [List.append_nil] at hlast
      rw [List.map_singleton, List.intercalate_singleton, hlast]
      rfl
    | @cons ss' ts' sss' tss' hst' h' =>
      rw [List.map_cons, List.map_cons, List.intercalate_cons_cons, List.append_assoc, List.singleton_append,
        read_record hst hts (Or.inr ⟨_, rfl⟩)]
      have hrest := ih (by simp) fun ts hts => hfields ts (List.mem_cons_of_mem _ hts)
      rw [List.map_cons] at hrest
      dsimp only [List.append_eq, List.nil_append]
      rw [readRecords, hrest]
      rfl

end TeamInbox.Lib.Csv
