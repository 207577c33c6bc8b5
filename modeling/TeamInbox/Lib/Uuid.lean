import Mathlib.Data.Char
import Mathlib.Data.List.Lex
import TeamInbox.Lib.Json

/-!
# TeamInbox.Lib.Uuid — identifiers of sixteen bytes

A database compares identifiers byte by byte and writes them with lower-case hexadecimal digits, in five groups.
The order of the texts is the order of the identifiers (`UuidBytes.text_strictMono`), and the text says which one it is
(`UuidBytes.ofText_text`).
-/

namespace TeamInbox.Lib

structure UuidBytes where
  bytes : List (Fin 256)
  size : bytes.length = 16
deriving DecidableEq

/-- One byte sixteen times. -/
def UuidBytes.repeated (n : ℕ) : UuidBytes := ⟨List.replicate 16 (Fin.ofNat 256 n), List.length_replicate⟩

theorem UuidBytes.bytes_injective : Function.Injective UuidBytes.bytes := fun u v h => by
  cases u
  cases v
  cases h
  rfl

instance : LinearOrder UuidBytes := LinearOrder.lift' UuidBytes.bytes UuidBytes.bytes_injective

/-! ### Texts -/

def hexByte (b : Fin 256) : List Char := [hexDigit (b / 16), hexDigit (b % 16)]

/-- The byte at place `i`; a hyphen stands before the bytes that open a group. -/
def placedByte (i : ℕ) (b : Fin 256) : List Char := (if i ∈ [4, 6, 8, 10] then ['-'] else []) ++ hexByte b

def writeBytes : ℕ → List (Fin 256) → List Char
  | _, [] => []
  | i, b :: rest => placedByte i b ++ writeBytes (i + 1) rest

def UuidBytes.text (u : UuidBytes) : List Char := writeBytes 0 u.bytes

def readBytes : List Char → List (Fin 256)
  | high :: low :: rest => Fin.ofNat 256 (unhex high * 16 + unhex low) :: readBytes rest
  | _ => []

/-- The identifier of a text as `UuidBytes.text` writes it. -/
def UuidBytes.ofText (t : List Char) : Option UuidBytes :=
  if h : (readBytes (t.filter (· ≠ '-'))).length = 16 then
    if UuidBytes.text ⟨readBytes (t.filter (· ≠ '-')), h⟩ = t then some ⟨readBytes (t.filter (· ≠ '-')), h⟩ else none
  else none

theorem hexDigit_ne_hyphen : ∀ n < 16, hexDigit n ≠ '-' := by decide

theorem hexDigit_lt : ∀ n < 16, ∀ m < n, hexDigit m < hexDigit n := by decide

/-! ### Order -/

theorem hexByte_append_lt {b c : Fin 256} (h : b < c) (s t : List Char) : hexByte b ++ s < hexByte c ++ t := by
  have hlt : b.val < c.val := h
  have hc := c.isLt
  simp only [hexByte, List.cons_append, List.nil_append]
  by_cases hhigh : b.val / 16 < c.val / 16
  · exact List.Lex.rel (hexDigit_lt _ (by omega) _ hhigh)
  · rw [show b.val / 16 = c.val / 16 by omega]
    exact List.Lex.cons (List.Lex.rel (hexDigit_lt _ (by omega) _ (by omega)))

theorem placedByte_append_lt (i : ℕ) {b c : Fin 256} (h : b < c) (s t : List Char) :
    placedByte i b ++ s < placedByte i c ++ t := by
  simp only [placedByte, List.append_assoc]
  exact List.Lex.append_left _ (hexByte_append_lt h s t) _

theorem writeBytes_lt {l l' : List (Fin 256)} (i : ℕ) (hlen : l.length = l'.length) (h : l < l') :
    writeBytes i l < writeBytes i l' := by
  induction l generalizing i l' with
  | nil =>
    rw [List.eq_nil_of_length_eq_zero hlen.symm] at h
    exact absurd h (lt_irrefl _)
  | cons b l ih =>
    cases l' with
    | nil => exact absurd hlen (Nat.succ_ne_zero _)
    | cons c l' =>
      cases h with
      | rel hlt => exact placedByte_append_lt i hlt _ _
      | cons hlt => exact List.Lex.append_left _ (ih (i + 1) (Nat.succ.inj hlen) hlt) _

/-- **The order of the texts** is the order of the identifiers. -/
theorem UuidBytes.text_strictMono : StrictMono UuidBytes.text := fun u v h =>
  writeBytes_lt 0 (u.size.trans v.size.symm) h

/-! ### Reading -/

theorem filter_writeBytes (i : ℕ) (l : List (Fin 256)) : (writeBytes i l).filter (· ≠ '-') = l.flatMap hexByte := by
  have hhex : ∀ b : Fin 256, (hexByte b).filter (· ≠ '-') = hexByte b := fun b => by
    refine List.filter_eq_self.mpr (fun c hc => ?_)
    have hb := b.isLt
    simp only [hexByte, List.mem_cons, List.not_mem_nil, or_false] at hc
    rcases hc with rfl | rfl
    · exact decide_eq_true (hexDigit_ne_hyphen _ (by omega))
    · exact decide_eq_true (hexDigit_ne_hyphen _ (by omega))
  induction l generalizing i with
  | nil => rfl
  | cons b l ih =>
    rw [writeBytes, List.filter_append, ih, List.flatMap_cons, placedByte, List.filter_append, hhex]
    split <;> simp

theorem readBytes_hex (l : List (Fin 256)) : readBytes (l.flatMap hexByte) = l := by
  induction l with
  | nil => rfl
  | cons b l ih =>
    have hb := b.isLt
    rw [List.flatMap_cons, hexByte, List.cons_append, List.cons_append, List.nil_append, readBytes, ih,
      unhex_hexDigit _ (by omega), unhex_hexDigit _ (by omega)]
    congr 1
    apply Fin.ext
    show (b.val / 16 * 16 + b.val % 16) % 256 = b.val
    omega

/-- **An identifier is read back from its text.** -/
theorem UuidBytes.ofText_text (u : UuidBytes) : UuidBytes.ofText u.text = some u := by
  have hread : readBytes (u.text.filter (· ≠ '-')) = u.bytes := by
    rw [UuidBytes.text, filter_writeBytes, readBytes_hex]
  simp only [UuidBytes.ofText, hread, dif_pos u.size, if_true]

theorem UuidBytes.text_ne_nil (u : UuidBytes) : u.text ≠ [] := by
  intro h
  have hsome := UuidBytes.ofText_text u
  rw [h] at hsome
  exact absurd hsome (by simp [UuidBytes.ofText, readBytes])

end TeamInbox.Lib
