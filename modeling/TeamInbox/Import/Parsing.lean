import TeamInbox.Broadcast.Audience
import TeamInbox.Export.Csv
import Mathlib.Data.List.DropRight

/-!
# TeamInbox.Import.Parsing — reading comma-separated values for an import

The parser splits the content into lines before it looks at quotes.  An export without line feeds in its cells is
read back (`parseCSV_toCSV`); a cell whose text has a line feed that trimming leaves is not.
-/

namespace TeamInbox.Import

open TeamInbox.Lib.Csv TeamInbox.Export TeamInbox.Broadcast

/-- The values of a line, from inside quotes or not, after the part `current` of a value; `skip` is `i++`. -/
def parseCSVLine (inQuotes skip : Bool) (current : Text) : List Char → List Text
  | [] => [trim current]
  | char :: rest =>
    if skip then parseCSVLine inQuotes false current rest
    else if char = '"' then
      if inQuotes ∧ rest.head? = some '"' then parseCSVLine true true (current ++ ['"']) rest
      else parseCSVLine (!inQuotes) false current rest
    else if char = ',' ∧ inQuotes = false then trim current :: parseCSVLine false false [] rest
    else parseCSVLine inQuotes false (current ++ [char]) rest

def lineValues (line : List Char) : List Text := parseCSVLine false false [] line

/-- `.replace(/\s+/g, "_")`; `after` is whether white space has just been replaced. -/
def underscored (after : Bool) : Text → Text
  | [] => []
  | c :: rest =>
    if isSpace c then (if after then underscored true rest else '_' :: underscored true rest)
    else c :: underscored false rest

abbrev ImportRow := Text → Option Text

/-- `row[key] = value`; a string assigned to `__proto__` is dropped. -/
def ImportRow.assign (row : ImportRow) (key value : Text) : ImportRow :=
  if key = "__proto__".toList then row else Function.update row key (some value)

def ImportRow.fill : List Text → List Text → ImportRow → ImportRow
  | [], _, row => row
  | key :: keys, values, row => fill keys values.tail (row.assign key (values.headD []))

section LowerCase

variable (toLowerCase : Text → Text)

def normalizeKey (name : Text) : Text := underscored false (trim (toLowerCase name))

def rowOf (keys values : List Text) : Option ImportRow :=
  if values = [] ∨ values = [[]] then none else some (ImportRow.fill keys values fun _ => none)

def parseCSV (content : List Char) : List ImportRow :=
  match (trim content).splitOn '\n' with
  | header :: line :: lines =>
    (line :: lines).filterMap fun line => rowOf ((lineValues header).map (normalizeKey toLowerCase)) (lineValues line)
  | _ => []

end LowerCase

variable {toLowerCase : Text → Text} {t s rest current field : Text} {inQuotes : Bool} {columns keys : List Text}

/-! ### Trimming -/

theorem trim_eq (t : Text) : trim t = (t.dropWhile isSpace).rdropWhile isSpace := rfl

theorem rdropWhile_append_of (h : ∃ c ∈ s, isSpace c = false) :
    (t ++ s).rdropWhile isSpace = t ++ s.rdropWhile isSpace := by
  induction s using List.reverseRecOn with
  | nil => obtain ⟨c, hc, -⟩ := h; cases hc
  | append_singleton s x ih =>
    rw [← List.append_assoc]
    cases hx : isSpace x with
    | true =>
      rw [List.rdropWhile_concat_pos _ _ _ hx, List.rdropWhile_concat_pos _ _ _ hx]
      refine ih ?_
      obtain ⟨c, hc, hspace⟩ := h
      rcases List.mem_append.mp hc with hc | hc
      · exact ⟨c, hc, hspace⟩
      · rw [List.mem_singleton.mp hc, hx] at hspace
        cases hspace
    | false => rw [List.rdropWhile_concat_neg _ _ _ (by simp [hx]), List.rdropWhile_concat_neg _ _ _ (by simp [hx]), List.append_assoc]

theorem rdropWhile_append_spaces (h : ∀ c ∈ s, isSpace c = true) :
    (t ++ s).rdropWhile isSpace = t.rdropWhile isSpace := by
  induction s using List.reverseRecOn with
  | nil => rw [List.append_nil]
  | append_singleton s x ih =>
    rw [← List.append_assoc, List.rdropWhile_concat_pos _ _ _ (h x (by simp))]
    exact ih fun c hc => h c (List.mem_append_left _ hc)

theorem trim_append_spaces (h : ∀ c ∈ s, isSpace c = true) : trim (t ++ s) = trim t := by
  rw [trim_eq, trim_eq, List.dropWhile_append]
  split
  · rename_i hempty
    rw [List.dropWhile_eq_nil_iff.mpr h, List.isEmpty_iff.mp hempty]
  · exact rdropWhile_append_spaces h

theorem trim_eq_nil : trim t = [] ↔ ∀ c ∈ t, isSpace c = true := by
  rw [trim_eq, List.rdropWhile_eq_nil_iff]
  constructor
  · intro h
    by_contra hnot
    have hne : t.dropWhile isSpace ≠ [] := fun hnil => hnot (List.dropWhile_eq_nil_iff.mp hnil)
    have hhead := List.head_dropWhile_not isSpace hne
    rw [h _ (List.head_mem hne)] at hhead
    cases hhead
  · exact fun h c hc => h c ((List.dropWhile_sublist _).subset hc)

theorem trim_of_no_space (h : ∀ c ∈ t, isSpace c = false) : trim t = t := by
  have hdrop : t.dropWhile isSpace = t := by
    cases t with
    | nil => rfl
    | cons c t => rw [List.dropWhile_cons_of_neg (by simp [h c])]
  rw [trim_eq, hdrop, List.rdropWhile_eq_self_iff]
  exact fun hl => by simp [h _ (List.getLast_mem hl)]

/-! ### Lines -/

theorem parse_spaces (h : ∀ c ∈ s, isSpace c = true) : parseCSVLine inQuotes false current s = [trim current] := by
  induction s generalizing current with
  | nil => rfl
  | cons c s ih =>
    have hc := h c List.mem_cons_self
    have hquote : c ≠ '"' := by rintro rfl; exact absurd hc (by decide)
    have hcomma : c ≠ ',' := by rintro rfl; exact absurd hc (by decide)
    rw [parseCSVLine, if_neg (by decide), if_neg hquote, if_neg (fun hand => hcomma hand.1),
      ih fun d hd => h d (List.mem_cons_of_mem _ hd), trim_append_spaces (by simpa using hc)]

theorem parse_append_spaces (h : ∀ c ∈ s, isSpace c = true) (skip : Bool) (hskip : skip = true → t ≠ []) :
    parseCSVLine inQuotes skip current (t ++ s) = parseCSVLine inQuotes skip current t := by
  induction t generalizing inQuotes skip current with
  | nil =>
    cases skip with
    | true => exact absurd rfl (hskip rfl)
    | false => exact parse_spaces h
  | cons c t ih =>
    have hhead : (t ++ s).head? = some '"' ↔ t.head? = some '"' := by
      cases t with
      | nil =>
        refine ⟨fun hs => ?_, fun hs => by cases hs⟩
        exact absurd (h _ (List.mem_of_head? hs)) (by decide)
      | cons d t => exact Iff.rfl
    rw [List.cons_append, parseCSVLine, parseCSVLine]
    simp only [hhead]
    split_ifs with h1 h2 h3 h4
    · exact ih false (by simp)
    · refine ih true fun _ hnil => ?_
      rw [hnil] at h3
      cases h3.2
    · exact ih false (by simp)
    · rw [ih false (by simp)]
    · exact ih false (by simp)

theorem parse_doubled (h : rest.head? ≠ some '"') :
    parseCSVLine true false current (doubled t ++ '"' :: rest) = parseCSVLine false false (current ++ t) rest := by
  induction t generalizing current with
  | nil =>
    show parseCSVLine true false current ('"' :: rest) = _
    rw [parseCSVLine, List.append_nil]
    simp [h]
  | cons c t ih =>
    have hsnoc : current ++ c :: t = current ++ [c] ++ t := by rw [List.append_assoc, List.singleton_append]
    rw [hsnoc, ← ih]
    show parseCSVLine true false current ((if c = '"' then ['"', '"'] else [c]) ++ doubled t ++ '"' :: rest) = _
    by_cases hc : c = '"'
    · subst hc
      simp [parseCSVLine]
    · simp [parseCSVLine, hc]

theorem parse_plain (h : ∀ c ∈ t, c ≠ ',' ∧ c ≠ '"') :
    parseCSVLine false false current (t ++ rest) = parseCSVLine false false (current ++ t) rest := by
  induction t generalizing current with
  | nil => simp
  | cons c t ih =>
    obtain ⟨hcomma, hquote⟩ := h c List.mem_cons_self
    rw [List.cons_append, parseCSVLine, if_neg (by decide), if_neg hquote, if_neg (fun hand => hcomma hand.1),
      ih fun d hd => h d (List.mem_cons_of_mem _ hd), List.append_assoc]
    rfl

theorem parse_quoteText (h : rest.head? ≠ some '"') :
    parseCSVLine false false [] (quoteText t ++ rest) = parseCSVLine false false t rest := by
  unfold quoteText
  split
  · rw [List.append_assoc, List.cons_append, parseCSVLine]
    simp only [Bool.false_eq_true, if_false, if_true, false_and, Bool.not_false]
    exact parse_doubled h
  · rename_i hplain
    rw [parse_plain fun c hc => ⟨?_, ?_⟩, List.nil_append] <;> rintro rfl <;> simp [hc] at hplain

theorem lineValues_join {ts : List Text} (hne : ts ≠ []) :
    lineValues ([','].intercalate (ts.map quoteText)) = ts.map trim := by
  unfold lineValues
  induction ts with
  | nil => exact absurd rfl hne
  | cons t ts ih =>
    cases ts with
    | nil =>
      have hlast := @parse_quoteText t [] (by simp)
      rw [List.append_nil] at hlast
      rw [List.map_singleton, List.intercalate_singleton, hlast]
      rfl
    | cons t' ts =>
      rw [List.map_cons, List.map_cons, List.intercalate_cons_cons, List.append_assoc, List.singleton_append,
        parse_quoteText (by simp), parseCSVLine]
      simp only [Bool.false_eq_true, if_false, Char.reduceEq, and_self, if_true]
      rw [← List.map_cons, ih (by simp)]
      rfl

/-! ### Exported content -/

section Exported

variable (columns)

def lineOf (cells : Text → Text) : Text := [','].intercalate ((columns.map fun key => neutralizeFormula (cells key)).map quoteText)

def exported (rows : List (Text → Text)) : Text :=
  toCSV (fun n : Empty => n.elim) (rows.map fun row => ⟨columns, fun key => .text (row key)⟩) (some columns)

/-- One object for each row, in order, with the trimmed neutralised text of each cell. -/
def ReadsBack (toLowerCase : Text → Text) (rows : List (Text → Text)) : Prop :=
  List.Forall₂ (fun (object : ImportRow) row => ∀ key ∈ columns, object key = some (trim (neutralizeFormula (row key))))
    (parseCSV toLowerCase (exported columns rows)) rows

/-- Distinct names in lower case without white space. -/
structure ColumnNames (toLowerCase : Text → Text) : Prop where
  nonempty : columns ≠ []
  nodup : columns.Nodup
  lower : ∀ name ∈ columns, toLowerCase name = name
  spaceless : ∀ name ∈ columns, ∀ c ∈ name, isSpace c = false

/-- Names that the export and the objects keep, and no line feed in a cell. -/
structure OneLineRows (rows : List (Text → Text)) : Prop where
  names : ∀ name ∈ columns, startsFormula name = false ∧ name ≠ "__proto__".toList
  header : columns ≠ [[]]
  cells : ∀ row ∈ rows, ∀ key ∈ columns, '\n' ∉ row key

end Exported

variable {rows : List (Text → Text)} {cells : Text → Text} {c : Char}

theorem exported_eq (h : rows ≠ []) :
    exported columns rows = ['\n'].intercalate (lineOf columns id :: rows.map (lineOf columns)) := by
  have hline : ∀ cells : Text → Text, lineOf columns cells =
      [','].intercalate (columns.map fun key => formatCell (fun n : Empty => n.elim) (.text (cells key))) := by
    intro cells
    unfold lineOf
    rw [List.map_map]
    rfl
  unfold exported
  cases rows with
  | nil => exact absurd rfl h
  | cons row rows =>
    rw [hline, funext hline]
    show ['\n'].intercalate (csvLines _ _ _) = _
    unfold csvLines
    rw [List.map_map]
    rfl

theorem mem_intercalate {sep : Char} {ls : List Text} (h : c ∈ [sep].intercalate ls) : c = sep ∨ ∃ l ∈ ls, c ∈ l := by
  induction ls with
  | nil => cases h
  | cons l ls ih =>
    cases ls with
    | nil => exact Or.inr ⟨l, List.mem_cons_self, by rwa [List.intercalate_singleton] at h⟩
    | cons l' ls =>
      rw [List.intercalate_cons_cons, List.append_assoc, List.mem_append, List.mem_append, List.mem_singleton] at h
      rcases h with h | h | h
      · exact Or.inr ⟨l, List.mem_cons_self, h⟩
      · exact Or.inl h
      · rcases ih h with h | ⟨m, hm, h⟩
        · exact Or.inl h
        · exact Or.inr ⟨m, List.mem_cons_of_mem _ hm, h⟩

theorem mem_intercalate_of {sep : Char} {ls : List Text} {l : Text} (hl : l ∈ ls) (h : c ∈ l) : c ∈ [sep].intercalate ls := by
  induction ls with
  | nil => cases hl
  | cons l' ls ih =>
    cases ls with
    | nil => rwa [List.intercalate_singleton, ← List.mem_singleton.mp hl]
    | cons l'' ls =>
      rw [List.intercalate_cons_cons, List.append_assoc, List.mem_append, List.mem_append]
      rcases List.mem_cons.mp hl with rfl | hl
      · exact Or.inl h
      · exact Or.inr (Or.inr (ih hl))

theorem intercalate_concat {sep : Char} {ls : List Text} (h : ls ≠ []) (l : Text) :
    [sep].intercalate (ls ++ [l]) = [sep].intercalate ls ++ [sep] ++ l := by
  induction ls with
  | nil => exact absurd rfl h
  | cons l' ls ih =>
    cases ls with
    | nil => simp [List.intercalate_cons_cons]
    | cons l'' ls =>
      rw [List.cons_append, List.cons_append, List.intercalate_cons_cons, ← List.cons_append, ih (by simp),
        List.intercalate_cons_cons]
      simp only [List.append_assoc]

theorem mem_quoteText : (c ∈ quoteText t → c = '"' ∨ c ∈ t) ∧ (c ∈ t → c ∈ quoteText t) := by
  have hdoubled : c ∈ doubled t ↔ c ∈ t := by
    unfold doubled
    rw [List.mem_flatMap]
    constructor
    · rintro ⟨d, hd, hc⟩
      split at hc
      · rename_i hquote
        simp only [List.mem_cons, List.not_mem_nil, or_false, or_self] at hc
        rwa [hc, ← hquote]
      · rwa [List.mem_singleton.mp hc]
    · intro hc
      refine ⟨c, hc, ?_⟩
      split <;> simp_all
  unfold quoteText
  split
  · simp only [List.cons_append, List.mem_cons, List.mem_append, hdoubled, List.not_mem_nil, or_false]
    tauto
  · exact ⟨Or.inr, id⟩

theorem neutralizeFormula_eq (t : Text) : neutralizeFormula t = t ∨ neutralizeFormula t = '\'' :: t := by
  cases h : startsFormula t with
  | true => exact Or.inr (neutralizeFormula_of_starts h)
  | false => exact Or.inl (neutralizeFormula_of_not h)

/-- The lines of content that begins and ends with something else than white space do not change by trimming it, but for
white space at the end of the last one. -/
theorem split_trim {header : Text} {lines : List Text} (hne : lines ≠ []) (hheader : ∃ c l, header = c :: l ∧ isSpace c = false)
    (hlines : ∀ l ∈ lines, ∃ c ∈ l, isSpace c = false) (hbreak : ∀ l ∈ header :: lines, '\n' ∉ l) :
    ∃ lines', (trim (['\n'].intercalate (header :: lines))).splitOn '\n' = header :: lines' ∧
      lines'.map lineValues = lines.map lineValues ∧ lines' ≠ [] := by
  obtain ⟨c, l, rfl, hc⟩ := hheader
  obtain ⟨init, last, rfl⟩ : ∃ init last, lines = init ++ [last] := ⟨_, _, (List.dropLast_append_getLast hne).symm⟩
  have hhead : (['\n'].intercalate ((c :: l) :: (init ++ [last]))).head? = some c := by
    cases init <;> simp [List.intercalate_cons_cons]
  have hdrop : (['\n'].intercalate ((c :: l) :: (init ++ [last]))).dropWhile isSpace =
      ['\n'].intercalate ((c :: l) :: (init ++ [last])) := by
    generalize ['\n'].intercalate ((c :: l) :: (init ++ [last])) = content at hhead
    cases content with
    | nil => cases hhead
    | cons d content =>
      obtain rfl := Option.some.inj hhead
      rw [List.dropWhile_cons_of_neg (by simp [hc])]
  have hlast := hlines last (by simp)
  have hstart : ∀ d ∈ last.rdropWhile isSpace, d ∈ last := fun d hd => (List.rdropWhile_prefix _ _).subset hd
  rw [trim_eq, hdrop, ← List.cons_append, intercalate_concat (by simp), rdropWhile_append_of hlast,
    ← intercalate_concat (by simp), List.splitOn_intercalate]
  · refine ⟨init ++ [last.rdropWhile isSpace], by simp, ?_, by simp⟩
    have hsplit := List.rdropWhile_append_rtakeWhile (p := isSpace) (l := last)
    have hvalues : lineValues (last.rdropWhile isSpace) = lineValues last := by
      conv_rhs => rw [← hsplit]
      exact (parse_append_spaces (fun d hd => List.mem_rtakeWhile_imp hd) false (by simp)).symm
    rw [List.map_append, List.map_append, List.map_singleton, List.map_singleton, hvalues]
  · intro m hm
    rcases List.mem_append.mp hm with hm | hm
    · exact hbreak m (by simp at hm ⊢; tauto)
    · rw [List.mem_singleton.mp hm]
      exact fun hmem => hbreak last (by simp) (hstart _ hmem)
  · simp

/-! ### What is read back -/

theorem header_head (hne : columns ≠ []) (hspace : ∀ name ∈ columns, ∀ c ∈ name, isSpace c = false)
    (hstarts : ∀ name ∈ columns, startsFormula name = false) (hheader : columns ≠ [[]]) :
    ∃ c l, lineOf columns id = c :: l ∧ isSpace c = false := by
  obtain ⟨key, keys, rfl⟩ := List.exists_cons_of_ne_nil hne
  have hkey : neutralizeFormula (id key) = key := neutralizeFormula_of_not (hstarts key List.mem_cons_self)
  unfold lineOf
  rw [List.map_cons, List.map_cons, hkey]
  have hfirst : ∀ rest : Text, (∃ c l, rest = c :: l ∧ isSpace c = false) ∨ key ≠ [] →
      ∃ c l, quoteText key ++ rest = c :: l ∧ isSpace c = false := by
    intro rest hrest
    unfold quoteText
    split
    · exact ⟨'"', _, rfl, by decide⟩
    · cases key with
      | nil => exact hrest.resolve_right fun h => h rfl
      | cons d l => exact ⟨d, l ++ rest, rfl, hspace _ List.mem_cons_self d List.mem_cons_self⟩
  cases keys with
  | nil =>
    have h := hfirst [] (Or.inr fun hnil => hheader (by rw [hnil]))
    rw [List.append_nil] at h
    rw [List.map_nil, List.map_nil, List.intercalate_singleton]
    exact h
  | cons key' keys =>
    rw [List.map_cons, List.map_cons, List.intercalate_cons_cons, List.append_assoc]
    exact hfirst _ (Or.inl ⟨',', _, rfl, by decide⟩)

theorem line_unbroken (h : ∀ key ∈ columns, '\n' ∉ cells key) : '\n' ∉ lineOf columns cells := by
  intro hmem
  unfold lineOf at hmem
  rcases mem_intercalate hmem with heq | ⟨l, hl, hmem⟩
  · exact absurd heq (by decide)
  · rw [List.map_map] at hl
    obtain ⟨key, hkey, rfl⟩ := List.mem_map.mp hl
    rcases mem_quoteText.1 hmem with heq | hmem
    · exact absurd heq (by decide)
    · dsimp only at hmem
      rcases neutralizeFormula_eq (cells key) with heq | heq <;> rw [heq] at hmem
      · exact h key hkey hmem
      · exact h key hkey ((List.mem_cons.mp hmem).resolve_left (by decide))

theorem mem_neutralizeFormula (h : c ∈ t) : c ∈ neutralizeFormula t := by
  rcases neutralizeFormula_eq t with heq | heq <;> rw [heq]
  · exact h
  · exact List.mem_cons_of_mem _ h

theorem nonblank_iff : trim t ≠ [] ↔ ∃ c ∈ t, isSpace c = false := by
  rw [ne_eq, trim_eq_nil]
  push Not
  simp only [Bool.not_eq_true]

theorem fill_apply (values : Text → Text) (row : ImportRow) (key : Text) :
    ImportRow.fill keys (keys.map values) row key =
      if key ∈ keys ∧ key ≠ "__proto__".toList then some (values key) else row key := by
  induction keys generalizing row with
  | nil => rfl
  | cons k keys ih =>
    rw [List.map_cons, ImportRow.fill, List.tail_cons, List.headD_cons, ih]
    by_cases hproto : key = "__proto__".toList
    · rw [if_neg fun h => h.2 hproto, if_neg fun h => h.2 hproto]
      unfold ImportRow.assign
      split
      · rfl
      · rename_i hk
        exact Function.update_of_ne (fun h => hk (h.symm.trans hproto)) _ _
    · by_cases hmem : key ∈ keys
      · rw [if_pos ⟨hmem, hproto⟩, if_pos ⟨List.mem_cons_of_mem _ hmem, hproto⟩]
      · rw [if_neg fun h => hmem h.1]
        by_cases hk : key = k
        · subst hk
          rw [if_pos ⟨List.mem_cons_self, hproto⟩, ImportRow.assign, if_neg hproto, Function.update_self]
        · rw [if_neg fun h => (List.mem_cons.mp h.1).elim hk hmem]
          unfold ImportRow.assign
          split
          · rfl
          · exact Function.update_of_ne hk _ _

theorem rowOf_cells (hne : columns ≠ []) (hblank : ∃ key ∈ columns, trim (cells key) ≠ []) (hcolumns : ∀ key ∈ columns,
    key ≠ "__proto__".toList) : ∃ object, rowOf columns (columns.map fun key => trim (neutralizeFormula (cells key))) = some object ∧
      ∀ key ∈ columns, object key = some (trim (neutralizeFormula (cells key))) := by
  refine ⟨_, if_neg ?_, fun key hkey => ?_⟩
  · rintro (hnil | hnil)
    · exact hne (List.map_eq_nil_iff.mp hnil)
    · obtain ⟨key, hkey, hcell⟩ := hblank
      obtain ⟨c, hc, hspace⟩ := nonblank_iff.mp hcell
      have hmem := List.mem_map_of_mem (f := fun key => trim (neutralizeFormula (cells key))) hkey
      rw [hnil] at hmem
      exact nonblank_iff.mpr ⟨c, mem_neutralizeFormula hc, hspace⟩ (List.mem_singleton.mp hmem)
  · rw [fill_apply, if_pos ⟨hkey, hcolumns key hkey⟩]

theorem underscored_of_no_space (h : ∀ c ∈ t, isSpace c = false) (after : Bool) : underscored after t = t := by
  induction t generalizing after with
  | nil => rfl
  | cons c t ih =>
    rw [underscored, if_neg (by simp [h c]), ih fun d hd => h d (List.mem_cons_of_mem _ hd)]

theorem lineValues_lineOf (hne : columns ≠ []) :
    lineValues (lineOf columns cells) = columns.map fun key => trim (neutralizeFormula (cells key)) := by
  unfold lineOf
  rw [lineValues_join (by simpa using hne), List.map_map]
  rfl

theorem forall₂_rowOf (hne : columns ≠ []) (hblank : ∀ row ∈ rows, ∃ key ∈ columns, trim (row key) ≠ [])
    (hcolumns : ∀ key ∈ columns, key ≠ "__proto__".toList) :
    List.Forall₂ (fun (object : ImportRow) row => ∀ key ∈ columns, object key = some (trim (neutralizeFormula (row key))))
      (((rows.map (lineOf columns)).map lineValues).filterMap (rowOf columns)) rows := by
  induction rows with
  | nil => exact .nil
  | cons row rows ih =>
    obtain ⟨object, hobject, hvalue⟩ := rowOf_cells hne (hblank row List.mem_cons_self) hcolumns
    rw [List.map_cons, List.map_cons, lineValues_lineOf hne, List.filterMap_cons_some hobject]
    exact .cons hvalue (ih fun row hrow => hblank row (List.mem_cons_of_mem _ hrow))

theorem readsBack_of_oneLine (hnames : ColumnNames columns toLowerCase) (hrows : rows ≠ [])
    (hblank : ∀ row ∈ rows, ∃ key ∈ columns, trim (row key) ≠ []) (h : OneLineRows columns rows) :
    ReadsBack columns toLowerCase rows := by
  have hne := hnames.nonempty
  have hspaceless := hnames.spaceless
  obtain ⟨lines, hsplit, hvalues, hlines⟩ := @split_trim (lineOf columns id) (rows.map (lineOf columns)) (by simpa using hrows)
    (header_head hne hspaceless (fun name hname => (h.names name hname).1) h.header) (by
      intro l hl
      obtain ⟨row, hrow, rfl⟩ := List.mem_map.mp hl
      obtain ⟨key, hkey, hcell⟩ := hblank row hrow
      obtain ⟨c, hc, hspace⟩ := nonblank_iff.mp hcell
      refine ⟨c, mem_intercalate_of (List.mem_map_of_mem (List.mem_map_of_mem hkey)) ?_, hspace⟩
      exact mem_quoteText.2 (mem_neutralizeFormula hc))
    (by
      intro l hl
      rcases List.mem_cons.mp hl with rfl | hl
      · exact line_unbroken fun key hkey hmem => absurd (hspaceless key hkey _ hmem) (by decide)
      · obtain ⟨row, hrow, rfl⟩ := List.mem_map.mp hl
        exact line_unbroken (h.cells row hrow))
  have hkeys : (lineValues (lineOf columns id)).map (normalizeKey toLowerCase) = columns := by
    rw [lineValues_lineOf hne, List.map_map]
    refine (List.map_congr_left fun key hkey => ?_).trans (List.map_id columns)
    show normalizeKey toLowerCase (trim (neutralizeFormula key)) = key
    have htrim := trim_of_no_space (hspaceless key hkey)
    rw [neutralizeFormula_of_not (h.names key hkey).1, htrim, normalizeKey, hnames.lower key hkey, htrim]
    exact underscored_of_no_space (hspaceless key hkey) false
  unfold ReadsBack
  rw [exported_eq hrows]
  unfold parseCSV
  rw [hsplit]
  obtain ⟨line, rest, rfl⟩ := List.exists_cons_of_ne_nil hlines
  dsimp only
  have hfilter : (line :: rest).filterMap (fun line => rowOf columns (lineValues line)) =
      ((rows.map (lineOf columns)).map lineValues).filterMap (rowOf columns) := by
    rw [← hvalues, List.filterMap_map]
    rfl
  rw [hkeys, hfilter]
  exact forall₂_rowOf hne hblank fun key hkey => (h.names key hkey).2

/-! ### Line feeds -/

theorem mem_of_mem_trim (h : c ∈ trim t) : c ∈ t :=
  (List.dropWhile_sublist _).subset ((List.rdropWhile_prefix _ _).subset h)

theorem mem_parse {line : Text} {skip : Bool} (h : t ∈ parseCSVLine inQuotes skip current line) (hc : c ∈ t) :
    c ∈ current ∨ c ∈ line := by
  induction line generalizing inQuotes skip current with
  | nil =>
    rw [List.mem_singleton.mp h] at hc
    exact Or.inl (mem_of_mem_trim hc)
  | cons d line ih =>
    have hlater : ∀ {current' : Text} {inQuotes skip}, t ∈ parseCSVLine inQuotes skip current' line →
        (c ∈ current' → c ∈ current ∨ c = d) → c ∈ current ∨ c ∈ d :: line := by
      intro current' inQuotes skip hmem hcur
      rcases ih hmem with hold | hnew
      · exact (hcur hold).imp id fun heq => by rw [heq]; exact List.mem_cons_self
      · exact Or.inr (List.mem_cons_of_mem _ hnew)
    rw [parseCSVLine] at h
    split_ifs at h with h1 h2 h3 h4
    · exact hlater h Or.inl
    · exact hlater h fun hmem => (List.mem_append.mp hmem).imp id fun hq => (List.mem_singleton.mp hq).trans h2.symm
    · exact hlater h Or.inl
    · rcases List.mem_cons.mp h with rfl | h
      · exact Or.inl (mem_of_mem_trim hc)
      · exact hlater h fun hmem => by cases hmem
    · exact hlater h fun hmem => (List.mem_append.mp hmem).imp id List.mem_singleton.mp

theorem fill_mem {values : List Text} {row : ImportRow} {key : Text} (h : ImportRow.fill keys values row key = some t) :
    t = [] ∨ t ∈ values ∨ row key = some t := by
  induction keys generalizing values row with
  | nil => exact Or.inr (Or.inr h)
  | cons k keys ih =>
    rcases ih h with hnil | hmem | hold
    · exact Or.inl hnil
    · exact Or.inr (Or.inl (List.mem_of_mem_tail hmem))
    · unfold ImportRow.assign at hold
      split at hold
      · exact Or.inr (Or.inr hold)
      · by_cases hk : key = k
        · subst hk
          rw [Function.update_self] at hold
          obtain rfl := Option.some.inj hold
          cases values with
          | nil => exact Or.inl rfl
          | cons v values => exact Or.inr (Or.inl List.mem_cons_self)
        · rw [Function.update_of_ne hk] at hold
          exact Or.inr (Or.inr hold)

theorem splitOn_unbroken {content line : Text} (h : line ∈ content.splitOn '\n') : '\n' ∉ line := by
  induction content generalizing line with
  | nil => rw [List.mem_singleton.mp h]; simp
  | cons d content ih =>
    rw [List.splitOn_cons_eq_if_modifyHead] at h
    split at h
    · rcases List.mem_cons.mp h with rfl | h
      · simp
      · exact ih h
    · rename_i hd
      cases hlines : content.splitOn '\n' with
      | nil => exact absurd hlines (List.splitOn_ne_nil _ _)
      | cons first lines =>
        rw [hlines] at h ih
        rcases List.mem_cons.mp h with rfl | h
        · intro hmem
          rcases List.mem_cons.mp hmem with heq | hmem
          · exact hd (by simp [← heq])
          · exact ih List.mem_cons_self hmem
        · exact ih (List.mem_cons_of_mem _ h)

theorem parseCSV_unbroken {content : List Char} {object : ImportRow} {key : Text} (h : object ∈ parseCSV toLowerCase content)
    (hvalue : object key = some t) : '\n' ∉ t := by
  intro hbreak
  unfold parseCSV at h
  split at h
  · rename_i header line lines hsplit
    obtain ⟨l, hl, hrow⟩ := List.mem_filterMap.mp h
    unfold rowOf at hrow
    split at hrow
    · cases hrow
    · obtain rfl := Option.some.inj hrow
      rcases fill_mem hvalue with rfl | hmem | hold
      · cases hbreak
      · rcases mem_parse hmem hbreak with hcur | hline
        · cases hcur
        · exact splitOn_unbroken (by rw [hsplit]; exact List.mem_cons_of_mem _ hl) hline
      · cases hold
  · cases h

/-- **When an export is read back.** It is if no cell has a line feed (and the names of the columns are kept), and never
if a line feed is left in the trimmed text of a cell. -/
theorem parseCSV_toCSV (hnames : ColumnNames columns toLowerCase) (hrows : rows ≠ [])
    (hblank : ∀ row ∈ rows, ∃ key ∈ columns, trim (row key) ≠ []) :
    (OneLineRows columns rows → ReadsBack columns toLowerCase rows) ∧
      (ReadsBack columns toLowerCase rows →
        ∀ row ∈ rows, ∀ key ∈ columns, '\n' ∉ trim (neutralizeFormula (row key))) := by
  refine ⟨readsBack_of_oneLine hnames hrows hblank, fun h row hrow key hkey => ?_⟩
  obtain ⟨hlen, hget⟩ := List.forall₂_iff_get.mp h
  obtain ⟨i, rfl⟩ := List.mem_iff_get.mp hrow
  have hi : i.1 < (parseCSV toLowerCase (exported columns rows)).length := by rw [hlen]; exact i.2
  exact parseCSV_unbroken (List.get_mem _ ⟨i, hi⟩) (hget i hi i.2 key hkey)

/-- A note of one line, with a comma and a quote, and a name. -/
theorem parseCSV_toCSV_quoted : ReadsBack ["note".toList, "name".toList] id [fun _ => "a,\"b".toList] :=
  (parseCSV_toCSV ⟨by decide, by decide, fun _ _ => rfl, by simp [isSpace]⟩ (List.cons_ne_nil _ _)
    (by simp only [List.forall_mem_singleton]; decide)).1
    ⟨by decide, by decide, by simp only [List.forall_mem_singleton]; decide⟩

/-- A note of two lines becomes two objects. -/
theorem note_of_two_lines_split : ¬ ReadsBack ["note".toList, "name".toList] id [fun _ => "a\nb".toList] :=
  fun h => absurd (List.Forall₂.length_eq h) (by decide)

end TeamInbox.Import
