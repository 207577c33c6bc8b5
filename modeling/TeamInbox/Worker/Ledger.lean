import TeamInbox.Lib.Table

/-!
# TeamInbox.Worker.Ledger — the command ledger of a worker

`processed_commands` holds one row per command of the connection.  The statements are those of
`pgstore.go`; `ρ` is what the `result` column decodes to, and `inFlight` reads its `in_flight` field.
Rows past their retention window are pruned; no redelivery outlives that window, so no statement here
deletes a row.  A statement can fail, and it can commit while its answer is lost (`Fault`).
-/

namespace TeamInbox.Worker

open TeamInbox.Lib

abbrev CommandID := String

/-- A row of `processed_commands`. -/
structure ProcessedCommand (ρ : Type) where
  commandType : String
  result : ρ
  eventPublished : Bool
  deriving DecidableEq

abbrev Ledger (ρ : Type) := Table CommandID (ProcessedCommand ρ)

/-- What becomes of a statement: it is answered, it fails, or it commits and the answer is lost. -/
inductive Fault
  | none
  | failed
  | lost
  deriving DecidableEq

/-- The answer of a statement and the state it leaves. -/
def Fault.answer {ε α σ : Type} (f : Fault) (e : ε) (a : α) (s s' : σ) : Except ε α × σ :=
  match f with
  | .none => (.ok a, s')
  | .failed => (.error e, s)
  | .lost => (.error e, s')

theorem Fault.answer_snd {ε α σ : Type} (f : Fault) (e : ε) (a : α) (s s' : σ) :
    (f.answer e a s s').2 = s ∨ (f.answer e a s s').2 = s' := by
  cases f with
  | none => exact Or.inr rfl
  | failed => exact Or.inl rfl
  | lost => exact Or.inr rfl

namespace Ledger

variable {ρ : Type}

/-- `GetProcessedCommand`. -/
def getProcessedCommand (l : Ledger ρ) (commandID : CommandID) : Option ρ :=
  (l.find? commandID).map (·.result)

/-- `GetProcessedCommandState`: the result and whether its outcome reached the API. -/
def getProcessedCommandState (l : Ledger ρ) (commandID : CommandID) : Option (ρ × Bool) :=
  (l.find? commandID).map fun row => (row.result, row.eventPublished)

/-- `BeginSendCommand`: `INSERT … ON CONFLICT DO NOTHING`. -/
def beginSendCommand (l : Ledger ρ) (commandID : CommandID) (commandType : String) (intent : ρ) :
    Bool × Ledger ρ :=
  match l.find? commandID with
  | some _ => (false, l)
  | none => (true, l.put commandID ⟨commandType, intent, false⟩)

/-- `SaveProcessedCommand`: `INSERT … ON CONFLICT DO UPDATE` of an unpublished intent. -/
def saveProcessedCommand (inFlight : ρ → Bool) (l : Ledger ρ) (commandID : CommandID)
    (commandType : String) (result : ρ) : Ledger ρ :=
  match l.find? commandID with
  | none => l.put commandID ⟨commandType, result, false⟩
  | some row =>
    if inFlight row.result = true ∧ row.eventPublished = false then
      l.put commandID { row with result := result, eventPublished := false }
    else l

/-- `MarkCommandEventPublished`. -/
def markCommandEventPublished (l : Ledger ρ) (commandID : CommandID) : Ledger ρ :=
  (l.updateWhere commandID (fun _ => True) fun row => { row with eventPublished := true }).1

/-- `ScrubProcessedCommandResult`: empty the result of a reported command, keep the row. -/
def scrubProcessedCommandResult (scrubbed : ρ) (l : Ledger ρ) (commandID : CommandID) : Ledger ρ :=
  (l.updateWhere commandID (fun row => row.eventPublished = true)
    fun row => { row with result := scrubbed }).1

section Statements

variable (l : Ledger ρ) (inFlight : ρ → Bool) (id id' : CommandID) (commandType : String) (r : ρ)

theorem beginSendCommand_of_none (h : l.find? id = none) :
    l.beginSendCommand id commandType r = (true, l.put id ⟨commandType, r, false⟩) := by
  simp [beginSendCommand, h]

theorem beginSendCommand_of_some {row : ProcessedCommand ρ} (h : l.find? id = some row) :
    l.beginSendCommand id commandType r = (false, l) := by
  simp [beginSendCommand, h]

theorem find?_saveProcessedCommand_self :
    ∃ row, (l.saveProcessedCommand inFlight id commandType r).find? id = some row ∧
      (row.result = r ∨ l.find? id = some row) := by
  unfold saveProcessedCommand
  cases h : l.find? id with
  | none => exact ⟨_, Table.find?_put_self _ _ _, Or.inl rfl⟩
  | some row =>
    dsimp only
    split_ifs with hopen
    · exact ⟨_, Table.find?_put_self _ _ _, Or.inl rfl⟩
    · exact ⟨row, h, Or.inr rfl⟩

theorem find?_saveProcessedCommand_ne (h : id' ≠ id) :
    (l.saveProcessedCommand inFlight id commandType r).find? id' = l.find? id' := by
  unfold saveProcessedCommand
  cases hr : l.find? id with
  | none => exact Table.find?_put_ne _ _ h
  | some row =>
    dsimp only
    split_ifs with hopen
    · exact Table.find?_put_ne _ _ h
    · rfl

theorem find?_markCommandEventPublished :
    ((l.markCommandEventPublished id).find? id').map (·.result) = (l.find? id').map (·.result) := by
  rw [markCommandEventPublished, Table.find?_updateWhere]
  split_ifs with h
  · rw [h, Option.map_map]
    congr 1
  · rfl

end Statements

end Ledger

end TeamInbox.Worker
