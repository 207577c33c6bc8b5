import TeamInbox.Lib.Csv
import Mathlib.Data.List.Forall2

/-!
# TeamInbox.Export.Csv — the export of rows as comma-separated values

A cell whose text a spreadsheet would take for a formula gets an apostrophe, and a text with a separator, a line
break or a quote is quoted.  A reader finds the header and the rows again, each cell with its text, and no field
that starts a formula (`read_toCSV`).
-/

namespace TeamInbox.Export

open TeamInbox.Lib.Csv

/-- A value of an exported row; `ν` are the numbers. -/
inductive Cell (ν : Type)
  | text (value : Text)
  | number (value : ν)
  | null
  | undefined

/-- An object: its own keys in order, and `row[key]`. -/
structure Row (ν : Type) where
  keys : List Text
  get : Text → Cell ν

def FORMULA_TRIGGERS : List Char := ['=', '+', '-', '@']

def LEADING_CONTROL_CHARS : List Char := ['\t', '\r', '\n']

def isTrigger (c : Char) : Bool := decide (c ∈ FORMULA_TRIGGERS) || decide (c ∈ LEADING_CONTROL_CHARS)

def neutralizeFormula : Text → Text
  | [] => []
  | first :: rest => if isTrigger first then '\'' :: first :: rest else first :: rest

def quoteText (str : Text) : Text :=
  if ',' ∈ str ∨ '\n' ∈ str ∨ '\r' ∈ str ∨ '"' ∈ str then '"' :: doubled str ++ ['"'] else str

section Numbers

variable {ν : Type} (numberText : ν → Text)

/-- `String(value)`, where there is one. -/
def cellText : Cell ν → Option Text
  | .text value => some value
  | .number value => some (numberText value)
  | .null => none
  | .undefined => none

def formatCell (value : Cell ν) : Text :=
  match cellText numberText value with
  | none => []
  | some text => quoteText (neutralizeFormula text)

def csvLines (data : List (Row ν)) (keys : List Text) : List Text :=
  let header := [','].intercalate (keys.map fun key => formatCell numberText (.text key))
  header :: data.map fun row => [','].intercalate (keys.map fun key => formatCell numberText (row.get key))

def toCSV (data : List (Row ν)) (columns : Option (List Text)) : Text :=
  match data with
  | [] => []
  | first :: _ => ['\n'].intercalate (csvLines numberText data (columns.getD first.keys))

/-- What a field says: the neutralised text of the cell. -/
def fieldText (value : Cell ν) : Text := ((cellText numberText value).map neutralizeFormula).getD []

def csvRecords (data : List (Row ν)) (columns : List Text) : List (List Text) :=
  (columns.map fun key => neutralizeFormula key) :: data.map fun row => columns.map fun key => fieldText numberText (row.get key)

end Numbers

def startsFormula : Text → Bool
  | [] => false
  | first :: _ => isTrigger first

def startsEscaped : Text → Bool
  | '\'' :: rest => startsFormula rest
  | _ => false

def original (field : Text) : Text := if startsEscaped field then field.drop 1 else field

variable {ν : Type} {numberText : ν → Text} {data : List (Row ν)} {columns : List Text}

theorem neutralizeFormula_of_starts {t : Text} (h : startsFormula t = true) : neutralizeFormula t = '\'' :: t := by
  cases t with
  | nil => cases h
  | cons first rest => exact if_pos h

theorem neutralizeFormula_of_not {t : Text} (h : startsFormula t = false) : neutralizeFormula t = t := by
  cases t with
  | nil => rfl
  | cons first rest => exact if_neg (ne_true_of_eq_false h)

theorem neutralizeFormula_safe (t : Text) : startsFormula (neutralizeFormula t) = false := by
  cases h : startsFormula t with
  | true =>
    rw [neutralizeFormula_of_starts h]
    rfl
  | false => rwa [neutralizeFormula_of_not h]

theorem original_neutralizeFormula {t : Text} (h : startsEscaped t = false) : original (neutralizeFormula t) = t := by
  cases hstarts : startsFormula t with
  | true =>
    rw [neutralizeFormula_of_starts hstarts]
    exact if_pos hstarts
  | false =>
    rw [neutralizeFormula_of_not hstarts]
    exact if_neg (ne_true_of_eq_false h)

theorem quoteText_encodes (t : Text) : Encodes (quoteText t) t := by
  unfold quoteText
  split
  · exact encodes_quoted t
  · rename_i h
    refine encodes_plain fun c hc => ⟨?_, ?_, ?_⟩ <;> rintro rfl <;> simp [hc] at h

theorem formatCell_encodes (value : Cell ν) : Encodes (formatCell numberText value) (fieldText numberText value) := by
  unfold formatCell fieldText
  cases cellText numberText value with
  | none => exact encodes_plain fun c hc => by cases hc
  | some text => exact quoteText_encodes _

theorem formatCells_encode (cells : Text → Cell ν) : List.Forall₂ Encodes
    (columns.map fun key => formatCell numberText (cells key)) (columns.map fun key => fieldText numberText (cells key)) := by
  rw [List.forall₂_map_left_iff, List.forall₂_map_right_iff, List.forall₂_same]
  exact fun key _ => formatCell_encodes (cells key)

theorem fieldText_safe (value : Cell ν) : startsFormula (fieldText numberText value) = false := by
  unfold fieldText
  cases cellText numberText value with
  | none => rfl
  | some text => exact neutralizeFormula_safe text

/-- **An export is read back**: the header and one record for each row, one field for each column, with the
neutralised text of the cell.  No field starts a formula, and the text of a cell is its field without the apostrophe, if
it had not one like it before. -/
theorem read_toCSV (hdata : data ≠ []) (hcolumns : columns ≠ []) :
    readRecords (toCSV numberText data (some columns)) = some (csvRecords numberText data columns) ∧
      (∀ record ∈ csvRecords numberText data columns, ∀ field ∈ record, startsFormula field = false) ∧
      ∀ (value : Cell ν) (text : Text), cellText numberText value = some text → startsEscaped text = false →
        original (fieldText numberText value) = text := by
  refine ⟨?_, ?_, ?_⟩
  · have hlines : csvLines numberText data columns = ((columns.map fun key => formatCell numberText (.text key)) ::
        data.map fun row => columns.map fun key => formatCell numberText (row.get key)).map fun ss => [','].intercalate ss := by
      unfold csvLines
      rw [List.map_cons, List.map_map]
      rfl
    have hrows : List.Forall₂ (List.Forall₂ Encodes) (data.map fun row => columns.map fun key => formatCell numberText (row.get key))
        (data.map fun row => columns.map fun key => fieldText numberText (row.get key)) := by
      rw [List.forall₂_map_left_iff, List.forall₂_map_right_iff, List.forall₂_same]
      exact fun row _ => formatCells_encode row.get
    have hcsv : toCSV numberText data (some columns) = ['\n'].intercalate (csvLines numberText data columns) := by
      cases data with
      | nil => exact absurd rfl hdata
      | cons first rest => rfl
    rw [hcsv, hlines]
    refine read_records (.cons (formatCells_encode Cell.text) hrows) (List.cons_ne_nil _ _) fun ts hts => ?_
    rcases List.mem_cons.mp hts with rfl | hts
    · simpa using hcolumns
    · obtain ⟨row, -, rfl⟩ := List.mem_map.mp hts
      simpa using hcolumns
  · intro record hrecord field hfield
    rcases List.mem_cons.mp hrecord with rfl | hrecord
    · obtain ⟨key, -, rfl⟩ := List.mem_map.mp hfield
      exact neutralizeFormula_safe key
    · obtain ⟨row, -, rfl⟩ := List.mem_map.mp hrecord
      obtain ⟨key, -, rfl⟩ := List.mem_map.mp hfield
      exact fieldText_safe (row.get key)
  · intro value text htext hescaped
    unfold fieldText
    rw [htext]
    exact original_neutralizeFormula hescaped

def formulaRow : Row ℕ := ⟨[['a'], ['b']], fun key => if key = ['a'] then .text ['=', '"'] else .undefined⟩

theorem read_toCSV_formula :
    readRecords (toCSV (fun n => (toString n).toList) [formulaRow] (some [['a'], ['b']])) =
      some [[['a'], ['b']], [['\'', '=', '"'], []]] :=
  (read_toCSV (List.cons_ne_nil _ _) (List.cons_ne_nil _ _)).1

end TeamInbox.Export
