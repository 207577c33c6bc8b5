import Mathlib.Data.List.Basic

/-!
# TeamInbox.Lib.Base64 — bytes as text and text as bytes

Three bytes are four sextets, and a sextet is a character of the alphabet for URLs; there is no padding.  Reading a
written text gives the bytes back (`ofBase64url_toBase64url`), and so does reading the bytes of a text
(`ofUtf8_toUtf8`).
-/

namespace TeamInbox.Lib

/-! ### Sextets -/

def sextetChar (n : ℕ) : Char :=
  if n < 26 then Char.ofNat (65 + n)
  else if n < 52 then Char.ofNat (71 + n)
  else if n < 62 then Char.ofNat (n - 4)
  else if n = 62 then '-'
  else '_'

def charSextet (c : Char) : Option ℕ :=
  if 'A' ≤ c ∧ c ≤ 'Z' then some (c.toNat - 65)
  else if 'a' ≤ c ∧ c ≤ 'z' then some (c.toNat - 71)
  else if '0' ≤ c ∧ c ≤ '9' then some (c.toNat + 4)
  else if c = '-' then some 62
  else if c = '_' then some 63
  else none

theorem charSextet_sextetChar : ∀ n < 64, charSextet (sextetChar n) = some n := by decide

def sextets : List UInt8 → List ℕ
  | a :: b :: c :: rest =>
    a.toNat / 4 :: (a.toNat % 4 * 16 + b.toNat / 16) :: (b.toNat % 16 * 4 + c.toNat / 64) :: c.toNat % 64 :: sextets rest
  | [a, b] => [a.toNat / 4, a.toNat % 4 * 16 + b.toNat / 16, b.toNat % 16 * 4]
  | [a] => [a.toNat / 4, a.toNat % 4 * 16]
  | [] => []

/-- The bits of a last group that make no byte are dropped. -/
def unsextets : List ℕ → List UInt8
  | s :: t :: u :: v :: rest =>
    UInt8.ofNat (s * 4 + t / 16) :: UInt8.ofNat (t % 16 * 16 + u / 4) :: UInt8.ofNat (u % 4 * 64 + v) :: unsextets rest
  | [s, t, u] => [UInt8.ofNat (s * 4 + t / 16), UInt8.ofNat (t % 16 * 16 + u / 4)]
  | [s, t] => [UInt8.ofNat (s * 4 + t / 16)]
  | _ => []

theorem byte_of {b : UInt8} {n : ℕ} (h : n = b.toNat) : UInt8.ofNat n = b := by
  rw [h]
  exact UInt8.ofNat_toNat

theorem unsextets_sextets (bytes : List UInt8) : unsextets (sextets bytes) = bytes := by
  induction bytes using sextets.induct with
  | case1 a b c rest ih =>
    have ha := a.toNat_lt
    have hb := b.toNat_lt
    have hc := c.toNat_lt
    simp only [sextets, unsextets]
    rw [byte_of (b := a) (by omega), byte_of (b := b) (by omega), byte_of (b := c) (by omega), ih]
  | case2 a b =>
    have ha := a.toNat_lt
    have hb := b.toNat_lt
    simp only [sextets, unsextets]
    rw [byte_of (b := a) (by omega), byte_of (b := b) (by omega)]
  | case3 a =>
    have ha := a.toNat_lt
    simp only [sextets, unsextets]
    rw [byte_of (b := a) (by omega)]
  | case4 => rfl

theorem sextets_lt (bytes : List UInt8) : ∀ n ∈ sextets bytes, n < 64 := by
  induction bytes using sextets.induct with
  | case1 a b c rest ih =>
    have ha := a.toNat_lt
    have hb := b.toNat_lt
    have hc := c.toNat_lt
    simp only [sextets, List.forall_mem_cons]
    exact ⟨by omega, by omega, by omega, by omega, ih⟩
  | case2 a b =>
    have ha := a.toNat_lt
    have hb := b.toNat_lt
    simp only [sextets, List.forall_mem_cons]
    exact ⟨by omega, by omega, by omega, List.forall_mem_nil _⟩
  | case3 a =>
    have ha := a.toNat_lt
    simp only [sextets, List.forall_mem_cons]
    exact ⟨by omega, by omega, List.forall_mem_nil _⟩
  | case4 => simp [sextets]

/-! ### Texts of bytes -/

def toBase64url (bytes : List UInt8) : List Char := (sextets bytes).map sextetChar

/-- None if a character is not of the alphabet. -/
def ofBase64url (text : List Char) : Option (List UInt8) := (text.mapM charSextet).map unsextets

theorem mapM_charSextet {l : List ℕ} (h : ∀ n ∈ l, n < 64) : (l.map sextetChar).mapM charSextet = some l := by
  induction l with
  | nil => rfl
  | cons n l ih =>
    obtain ⟨hn, hl⟩ := List.forall_mem_cons.mp h
    rw [List.map_cons, List.mapM_cons, charSextet_sextetChar n hn, ih hl]
    rfl

theorem ofBase64url_toBase64url (bytes : List UInt8) : ofBase64url (toBase64url bytes) = some bytes := by
  rw [ofBase64url, toBase64url, mapM_charSextet (sextets_lt bytes), Option.map_some, unsextets_sextets]

/-! ### Bytes of texts -/

def toUtf8 (text : List Char) : List UInt8 := text.flatMap String.utf8EncodeChar

/-- None if the bytes are no text. -/
def ofUtf8 (bytes : List UInt8) : Option (List Char) := (bytes.toByteArray.utf8Decode?).map Array.toList

theorem ofUtf8_toUtf8 (text : List Char) : ofUtf8 (toUtf8 text) = some text := by
  have hdecode : (toUtf8 text).toByteArray.utf8Decode? = some text.toArray := List.utf8Decode?_utf8Encode
  rw [ofUtf8, hdecode, Option.map_some]

end TeamInbox.Lib
