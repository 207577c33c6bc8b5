import Mathlib.Data.List.Pairwise
import Mathlib.Data.List.Sort

/-!
# TeamInbox.Lib.Json — data values and their texts

A JavaScript data value is a tree of three kinds of parts: values, the elements of an array and the entries of an
object, in the order the program enumerates them.  `Js.print` writes a value the way `JSON.stringify` writes what it
has a text for, and `Js.read` reads the text back.  `Reordered` says that two values differ in the order of their
keys only.
-/

namespace TeamInbox.Lib

inductive JsPart
  | value
  | array
  | object

def numberChar (c : Char) : Bool := c.isDigit || c = '-' || c = '+' || c = '.' || c = 'e'

/-- A finite number, by the text it is printed as. -/
structure JsNumber where
  text : List Char
  shape : text ≠ [] ∧ ∀ c ∈ text, numberChar c = true

def JsNumber.ofNat (n : ℕ) : JsNumber where
  text := Nat.toDigits 10 n
  shape := by
    refine ⟨Nat.toDigits_ne_nil, fun c hc => ?_⟩
    have hdigit : c.isDigit = true := Nat.isDigit_of_mem_toDigits (by decide) (by decide) hc
    simp [numberChar, hdigit]

inductive Js : JsPart → Type
  | undefined : Js .value
  | null : Js .value
  | bool (b : Bool) : Js .value
  /-- `NaN` and the infinities -/
  | notFinite : Js .value
  | number (x : JsNumber) : Js .value
  | string (s : String) : Js .value
  | arr (es : Js .array) : Js .value
  | obj (es : Js .object) : Js .value
  | nil : Js .array
  | cons (v : Js .value) (es : Js .array) : Js .array
  | empty : Js .object
  | entry (k : String) (v : Js .value) (es : Js .object) : Js .object

/-! ### Texts -/

def hexDigit (n : ℕ) : Char := if n < 10 then Char.ofNat (48 + n) else Char.ofNat (87 + n)

def unhex (c : Char) : ℕ := if c.toNat < 58 then c.toNat - 48 else c.toNat - 87

theorem unhex_hexDigit : ∀ n < 16, unhex (hexDigit n) = n := by decide

/-- A character inside quotes. -/
def escape (c : Char) : List Char :=
  if c = '"' then ['\\', '"']
  else if c = '\\' then ['\\', '\\']
  else if c = '\n' then ['\\', 'n']
  else if c = '\r' then ['\\', 'r']
  else if c = '\t' then ['\\', 't']
  else if c = Char.ofNat 8 then ['\\', 'b']
  else if c = Char.ofNat 12 then ['\\', 'f']
  else if c.toNat < 32 then ['\\', 'u', '0', '0', hexDigit (c.toNat / 16), hexDigit (c.toNat % 16)]
  else [c]

def quote (s : String) : List Char := '"' :: s.toList.flatMap escape ++ ['"']

/-- The characters up to the closing quote. -/
def readChars : List Char → Option (List Char × List Char)
  | [] => none
  | '"' :: r => some ([], r)
  | '\\' :: 'u' :: _ :: _ :: h :: l :: r =>
    (readChars r).map fun p => (Char.ofNat (16 * unhex h + unhex l) :: p.1, p.2)
  | '\\' :: c :: r =>
    (readChars r).map fun p =>
      ((if c = 'n' then '\n' else if c = 'r' then '\r' else if c = 't' then '\t' else if c = 'b' then Char.ofNat 8
        else if c = 'f' then Char.ofNat 12 else c) :: p.1, p.2)
  | c :: r => (readChars r).map fun p => (c :: p.1, p.2)

attribute [local simp] readChars

theorem readChars_escape (c : Char) (r : List Char) :
    readChars (escape c ++ r) = (readChars r).map fun p => (c :: p.1, p.2) := by
  unfold escape
  split_ifs with hquote hback hn hr ht hb hf hlow
  · subst hquote
    rfl
  · subst hback
    rfl
  · subst hn
    rfl
  · subst hr
    rfl
  · subst ht
    rfl
  · subst hb
    rfl
  · subst hf
    rfl
  · have hcode : 16 * (c.toNat / 16) + c.toNat % 16 = c.toNat := by omega
    have hhigh := unhex_hexDigit (c.toNat / 16) (by omega)
    have hrest := unhex_hexDigit (c.toNat % 16) (by omega)
    simp only [List.cons_append, List.nil_append, readChars, hhigh, hrest, hcode, Char.ofNat_toNat]
  · rw [List.singleton_append, readChars.eq_def]
    split <;> simp_all

theorem readChars_quoted (cs r : List Char) : readChars (cs.flatMap escape ++ '"' :: r) = some (cs, r) := by
  induction cs with
  | nil => rfl
  | cons c cs ih => rw [List.flatMap_cons, List.append_assoc, readChars_escape, ih, Option.map_some]

/-- What is printed of a part: the text of a value, the texts of the elements, the keys and the texts of the
entries. -/
@[reducible] def Printed : JsPart → Type
  | .value => List Char
  | .array => List (List Char)
  | .object => List (String × List Char)

def commas (ts : List (List Char)) : List Char := List.intercalate [','] ts

def brackets (ts : List (List Char)) : List Char := '[' :: commas ts ++ [']']

def member (p : String × List Char) : List Char := quote p.1 ++ ':' :: p.2

def braces (ts : List (String × List Char)) : List Char := '{' :: commas (ts.map member) ++ ['}']

/-- What has no text is printed as `null`. -/
def Js.print : {i : JsPart} → Js i → Printed i
  | _, .undefined | _, .null | _, .notFinite => ['n', 'u', 'l', 'l']
  | _, .bool true => ['t', 'r', 'u', 'e']
  | _, .bool false => ['f', 'a', 'l', 's', 'e']
  | _, .number x => x.text
  | _, .string s => quote s
  | _, .arr es => brackets es.print
  | _, .obj es => braces es.print
  | _, .nil => []
  | _, .cons v es => v.print :: es.print
  | _, .empty => []
  | _, .entry k v es => (k, v.print) :: es.print

attribute [local simp] Js.print

theorem commas_single (t : List Char) : commas [t] = t := by simp [commas]

theorem commas_cons (t u : List Char) (ts : List (List Char)) : commas (t :: u :: ts) = t ++ ',' :: commas (u :: ts) := by
  simp [commas, List.intercalate]

/-! ### Reading a text back -/

def readNumber (cs : List Char) : Option (Js .value × List Char) :=
  if h : cs.takeWhile numberChar ≠ [] then
    some (.number ⟨cs.takeWhile numberChar, h, List.all_eq_true.mp List.all_takeWhile⟩, cs.dropWhile numberChar)
  else none

/-- The part a text begins with, and what is left; arrays and objects without the opening bracket. -/
def Js.read : (i : JsPart) → ℕ → List Char → Option (Js i × List Char)
  | _, 0, _ => none
  | .value, n + 1, cs =>
    match cs with
    | '"' :: r => (readChars r).map fun p => (.string (String.ofList p.1), p.2)
    | '[' :: r => (read .array n r).map fun p => (.arr p.1, p.2)
    | '{' :: r => (read .object n r).map fun p => (.obj p.1, p.2)
    | 'n' :: 'u' :: 'l' :: 'l' :: r => some (.null, r)
    | 't' :: 'r' :: 'u' :: 'e' :: r => some (.bool true, r)
    | 'f' :: 'a' :: 'l' :: 's' :: 'e' :: r => some (.bool false, r)
    | cs => readNumber cs
  | .array, n + 1, cs =>
    match cs with
    | ']' :: r => some (.nil, r)
    | cs =>
      match read .value n cs with
      | some (v, ',' :: r) => (read .array n r).map fun p => (.cons v p.1, p.2)
      | some (v, ']' :: r) => some (.cons v .nil, r)
      | _ => none
  | .object, n + 1, cs =>
    match cs with
    | '}' :: r => some (.empty, r)
    | '"' :: cs =>
      match readChars cs with
      | some (k, ':' :: cs) =>
        match read .value n cs with
        | some (v, ',' :: r) => (read .object n r).map fun p => (.entry (String.ofList k) v p.1, p.2)
        | some (v, '}' :: r) => some (.entry (String.ofList k) v .empty, r)
        | _ => none
      | _ => none
    | _ => none

attribute [local simp] Js.read

/-- Everything in it has a text of its own. -/
def Js.Plain : {i : JsPart} → Js i → Prop
  | _, .undefined | _, .notFinite => False
  | _, .null | _, .bool _ | _, .number _ | _, .string _ | _, .nil | _, .empty => True
  | _, .arr es | _, .obj es => es.Plain
  | _, .cons v es => v.Plain ∧ es.Plain
  | _, .entry _ v es => v.Plain ∧ es.Plain

attribute [local simp] Js.Plain

def Js.size : {i : JsPart} → Js i → ℕ
  | _, .arr es | _, .obj es => es.size + 1
  | _, .cons v es => v.size + es.size + 1
  | _, .entry _ v es => v.size + es.size + 1
  | _, _ => 1

attribute [local simp] Js.size

/-- A number ends where `r` begins. -/
def Ends (r : List Char) : Prop := ∀ c u, r = c :: u → numberChar c = false

theorem Ends.cons {c : Char} {r : List Char} (h : numberChar c = false) : Ends (c :: r) := by
  intro c' u heq
  cases heq
  exact h

theorem ends_nil : Ends [] := fun _ _ h => nomatch h

theorem takeWhile_number {t r : List Char} (ht : ∀ c ∈ t, numberChar c = true) (hr : Ends r) :
    (t ++ r).takeWhile numberChar = t ∧ (t ++ r).dropWhile numberChar = r := by
  induction t with
  | nil =>
    cases r with
    | nil => exact ⟨rfl, rfl⟩
    | cons c u => simp [hr c u rfl]
  | cons c t ih =>
    obtain ⟨htake, hdrop⟩ := ih fun c' hc' => ht c' (List.mem_cons_of_mem _ hc')
    simp [ht c List.mem_cons_self, htake, hdrop]

theorem readNumber_text (x : JsNumber) {r : List Char} (hr : Ends r) :
    readNumber (x.text ++ r) = some (.number x, r) := by
  obtain ⟨htake, hdrop⟩ := takeWhile_number x.shape.2 hr
  unfold readNumber
  simp only [htake, hdrop]
  rw [dif_pos x.shape.1]

/-- What reading gives back of a printed part. -/
def Js.Readable : {i : JsPart} → Js i → Prop
  | .value, v => ∀ n r, v.size ≤ n → Ends r → read .value n (v.print ++ r) = some (v, r)
  | .array, es => ∀ n r, es.size ≤ n → read .array n (commas es.print ++ ']' :: r) = some (es, r)
  | .object, es => ∀ n r, es.size ≤ n → read .object n (commas (es.print.map member) ++ '}' :: r) = some (es, r)

theorem number_starts {c : Char} (h : numberChar c = true) : c ≠ '"' ∧ c ≠ '[' ∧ c ≠ '{' ∧ c ≠ 'n' ∧ c ≠ 't' ∧ c ≠ 'f' := by
  refine ⟨?_, ?_, ?_, ?_, ?_, ?_⟩ <;> (rintro rfl; revert h; decide)

theorem readable_number (x : JsNumber) : (Js.number x).Readable := by
  intro n r hn hr
  obtain ⟨n, rfl⟩ := Nat.exists_eq_succ_of_ne_zero (Nat.pos_iff_ne_zero.mp hn)
  have hread := readNumber_text x hr
  obtain ⟨c, t, htext⟩ := List.exists_cons_of_ne_nil x.shape.1
  obtain ⟨hquote, harr, hobj, hnull, htrue, hfalse⟩ :=
    number_starts (x.shape.2 c (by rw [htext]; exact List.mem_cons_self))
  simp only [Js.print, htext, List.cons_append] at hread ⊢
  unfold Js.read
  split <;> simp_all

theorem read_ne_close {n : ℕ} {t r : List Char} {p : Js .value × List Char} (h : Js.read .value n t = some p) :
    t ≠ ']' :: r := by
  rintro rfl
  cases n with
  | zero => exact nomatch h
  | succ n => simp [Js.read, readNumber, numberChar] at h

theorem readable_cons {v : Js .value} {es : Js .array} (hv : v.Readable) (hes : es.Readable) : (Js.cons v es).Readable := by
  intro n r hn
  simp only [Js.size] at hn
  obtain ⟨n, rfl⟩ := Nat.exists_eq_succ_of_ne_zero (n := n) (by omega)
  cases es with
  | nil =>
    have hread := hv n (']' :: r) (by omega) (.cons (by decide))
    rw [Js.print, Js.print, commas_single]
    unfold Js.read
    split
    · exact absurd ‹_› (read_ne_close hread)
    · simp only [hread]
  | cons u es =>
    have hread := hv n (',' :: (commas (Js.cons u es).print ++ ']' :: r)) (by omega) (.cons (by decide))
    have hrest := hes n r (by omega)
    simp only [Js.print] at hread hrest ⊢
    rw [commas_cons, List.append_assoc, List.cons_append]
    unfold Js.read
    split
    · exact absurd ‹_› (read_ne_close hread)
    · simp only [hread, hrest, Option.map_some]

theorem member_append (k : String) (t r : List Char) :
    member (k, t) ++ r = '"' :: (k.toList.flatMap escape ++ '"' :: ':' :: (t ++ r)) := by
  simp [member, quote]

theorem readable_entry (k : String) {v : Js .value} {es : Js .object} (hv : v.Readable) (hes : es.Readable) :
    (Js.entry k v es).Readable := by
  intro n r hn
  simp only [Js.size] at hn
  obtain ⟨n, rfl⟩ := Nat.exists_eq_succ_of_ne_zero (n := n) (by omega)
  cases es with
  | empty =>
    have hread := hv n ('}' :: r) (by omega) (.cons (by decide))
    simp only [Js.print, List.map_cons, List.map_nil]
    rw [commas_single, member_append]
    unfold Js.read
    simp only [readChars_quoted, hread, String.ofList_toList]
  | entry k' u es =>
    have hread := hv n (',' :: (commas ((Js.entry k' u es).print.map member) ++ '}' :: r)) (by omega) (.cons (by decide))
    have hrest := hes n r (by omega)
    simp only [Js.print, List.map_cons] at hread hrest ⊢
    rw [commas_cons, List.append_assoc, List.cons_append, member_append]
    unfold Js.read
    simp only [readChars_quoted, hread, hrest, String.ofList_toList, Option.map_some]

/-- **Reading gives back what was printed.** -/
theorem Js.readable {i : JsPart} (v : Js i) (h : v.Plain) : v.Readable := by
  induction v with
  | undefined => exact h.elim
  | notFinite => exact h.elim
  | null =>
    intro n r hn _
    obtain ⟨n, rfl⟩ := Nat.exists_eq_succ_of_ne_zero (Nat.pos_iff_ne_zero.mp hn)
    rfl
  | bool b =>
    intro n r hn _
    obtain ⟨n, rfl⟩ := Nat.exists_eq_succ_of_ne_zero (Nat.pos_iff_ne_zero.mp hn)
    cases b <;> rfl
  | number x => exact readable_number x
  | string s =>
    intro n r hn _
    obtain ⟨n, rfl⟩ := Nat.exists_eq_succ_of_ne_zero (Nat.pos_iff_ne_zero.mp hn)
    have hread : quote s ++ r = '"' :: (s.toList.flatMap escape ++ '"' :: r) := by simp [quote]
    rw [Js.print, hread, Js.read, readChars_quoted, Option.map_some, String.ofList_toList]
  | arr es ih =>
    intro n r hn _
    simp only [Js.size] at hn
    obtain ⟨n, rfl⟩ := Nat.exists_eq_succ_of_ne_zero (n := n) (by omega)
    have hread : brackets es.print ++ r = '[' :: (commas es.print ++ ']' :: r) := by simp [brackets]
    rw [Js.print, hread, Js.read, ih h n r (by omega), Option.map_some]
  | obj es ih =>
    intro n r hn _
    simp only [Js.size] at hn
    obtain ⟨n, rfl⟩ := Nat.exists_eq_succ_of_ne_zero (n := n) (by omega)
    have hread : braces es.print ++ r = '{' :: (commas (es.print.map member) ++ '}' :: r) := by simp [braces]
    rw [Js.print, hread, Js.read, ih h n r (by omega), Option.map_some]
  | nil =>
    intro n r hn
    obtain ⟨n, rfl⟩ := Nat.exists_eq_succ_of_ne_zero (Nat.pos_iff_ne_zero.mp hn)
    rfl
  | empty =>
    intro n r hn
    obtain ⟨n, rfl⟩ := Nat.exists_eq_succ_of_ne_zero (Nat.pos_iff_ne_zero.mp hn)
    rfl
  | cons v es ihv ihes => exact readable_cons (ihv h.1) (ihes h.2)
  | entry k v es ihv ihes => exact readable_entry k (ihv h.1) (ihes h.2)

theorem Js.print_injective {v w : Js .value} (hv : v.Plain) (hw : w.Plain) (h : v.print = w.print) : v = w := by
  have hreadv := v.readable hv (v.size + w.size) [] (Nat.le_add_right _ _) ends_nil
  have hreadw := w.readable hw (v.size + w.size) [] (Nat.le_add_left _ _) ends_nil
  rw [h, hreadw] at hreadv
  exact (Prod.mk.inj (Option.some.inj hreadv)).1.symm

/-! ### Entries -/

/-- The entries of an object. -/
def Js.entries : {i : JsPart} → Js i → List (String × Js .value)
  | _, .entry k v es => (k, v) :: es.entries
  | _, _ => []

def Js.ofEntries : List (String × Js .value) → Js .object
  | [] => .empty
  | (k, v) :: ps => .entry k v (ofEntries ps)

def Js.elements : {i : JsPart} → Js i → List (Js .value)
  | _, .cons v es => v :: es.elements
  | _, _ => []

def Js.ofElements : List (Js .value) → Js .array
  | [] => .nil
  | v :: vs => .cons v (Js.ofElements vs)

theorem Js.elements_ofElements (vs : List (Js .value)) : (Js.ofElements vs).elements = vs := by
  induction vs with
  | nil => rfl
  | cons v vs ih => exact congrArg (v :: ·) ih

@[elab_as_elim]
theorem Js.object_induction {motive : Js .object → Prop} (empty : motive .empty)
    (entry : ∀ k v es, motive es → motive (.entry k v es)) : ∀ es, motive es
  | .empty => empty
  | .entry k v es => entry k v es (object_induction empty entry es)

@[simp] theorem Js.entries_ofEntries (ps : List (String × Js .value)) : (ofEntries ps).entries = ps := by
  induction ps with
  | nil => rfl
  | cons p ps ih => rw [ofEntries, entries, ih]

@[simp] theorem Js.ofEntries_entries (es : Js .object) : ofEntries es.entries = es := by
  induction es using Js.object_induction with
  | empty => rfl
  | entry k v es ih => rw [entries, ofEntries, ih]

theorem Js.print_entries (es : Js .object) : es.print = es.entries.map fun p => (p.1, p.2.print) := by
  induction es using Js.object_induction with
  | empty => rfl
  | entry k v es ih => rw [print, entries, ih, List.map_cons]

theorem Js.plain_entries (es : Js .object) : es.Plain ↔ ∀ p ∈ es.entries, p.2.Plain := by
  induction es using Js.object_induction with
  | empty => exact ⟨fun _ _ hp => absurd hp List.not_mem_nil, fun _ => trivial⟩
  | entry k v es ih => rw [Plain, entries, List.forall_mem_cons, ih]

def Js.keys {i : JsPart} (v : Js i) : List String := v.entries.map Prod.fst

/-- `R` holds of any two keys of an object, wherever it stands. -/
def Js.KeysApart (R : String → String → Prop) : {i : JsPart} → Js i → Prop
  | _, .arr es => es.KeysApart R
  | _, .obj es => es.keys.Pairwise R ∧ es.KeysApart R
  | _, .cons v es => v.KeysApart R ∧ es.KeysApart R
  | _, .entry _ v es => v.KeysApart R ∧ es.KeysApart R
  | _, _ => True

attribute [local simp] Js.KeysApart

theorem Js.KeysApart.mono {R S : String → String → Prop} (hRS : ∀ {k l}, R k l → S k l) {i : JsPart} {v : Js i}
    (h : v.KeysApart R) : v.KeysApart S := by
  induction v with
  | undefined | null | bool | notFinite | number | string | nil | empty => trivial
  | arr es ih => exact ih h
  | cons v es ihv ihes => exact ⟨ihv h.1, ihes h.2⟩
  | entry k v es ihv ihes => exact ⟨ihv h.1, ihes h.2⟩
  | obj es ih => exact ⟨h.1.imp hRS, ih h.2⟩

/-! ### The order of the keys -/

/-- The two values differ in the order of keys. -/
inductive Reordered : {i : JsPart} → Js i → Js i → Prop
  | refl {i : JsPart} (v : Js i) : Reordered v v
  | arr {es fs : Js .array} (h : Reordered es fs) : Reordered (.arr es) (.arr fs)
  | obj {es fs : Js .object} (h : Reordered es fs) : Reordered (.obj es) (.obj fs)
  | cons {v w : Js .value} {es fs : Js .array} (hv : Reordered v w) (hes : Reordered es fs) :
    Reordered (.cons v es) (.cons w fs)
  | entry {k : String} {v w : Js .value} {es fs : Js .object} (hv : Reordered v w) (hes : Reordered es fs) :
    Reordered (.entry k v es) (.entry k w fs)
  | swap {k l : String} {v w : Js .value} {es : Js .object} :
    Reordered (.entry k v (.entry l w es)) (.entry l w (.entry k v es))
  | trans {i : JsPart} {u v w : Js i} (h : Reordered u v) (h' : Reordered v w) : Reordered u w

theorem Reordered.symm {i : JsPart} {v w : Js i} (h : Reordered v w) : Reordered w v := by
  induction h with
  | refl v => exact .refl v
  | arr _ ih => exact .arr ih
  | obj _ ih => exact .obj ih
  | cons _ _ ihv ihes => exact .cons ihv ihes
  | entry _ _ ihv ihes => exact .entry ihv ihes
  | swap => exact .swap
  | trans _ _ ih ih' => exact .trans ih' ih

theorem Reordered.of_perm {ps qs : List (String × Js .value)} (h : ps.Perm qs) :
    Reordered (Js.ofEntries ps) (Js.ofEntries qs) := by
  induction h with
  | nil => exact .refl _
  | cons p _ ih => exact .entry (.refl _) ih
  | swap p q ps => exact .swap
  | trans _ _ ih ih' => exact .trans ih ih'

theorem Reordered.keys_perm {i : JsPart} {v w : Js i} (h : Reordered v w) : v.keys.Perm w.keys := by
  induction h with
  | refl _ => exact .refl _
  | arr | obj | cons => exact .refl _
  | entry _ _ _ ihes => exact List.Perm.cons _ ihes
  | swap => exact List.Perm.swap ..
  | trans _ _ ih ih' => exact ih.trans ih'

theorem Reordered.keysApart {R : String → String → Prop} (hR : ∀ {k l}, R k l → R l k) {i : JsPart} {v w : Js i}
    (h : Reordered v w) (hv : v.KeysApart R) : w.KeysApart R := by
  induction h with
  | refl _ => exact hv
  | arr _ ih => exact ih hv
  | obj h ih => exact ⟨(h.keys_perm.pairwise_iff hR).mp hv.1, ih hv.2⟩
  | cons _ _ ihv ihes => exact ⟨ihv hv.1, ihes hv.2⟩
  | entry _ _ ihv ihes => exact ⟨ihv hv.1, ihes hv.2⟩
  | swap => exact ⟨hv.2.1, hv.1, hv.2.2⟩
  | trans _ _ ih ih' => exact ih' (ih hv)

/-- The entries in a given order of the keys. -/
def KeyLE (cmp : String → String → Ordering) {β : Type} (p q : String × β) : Prop := (cmp p.1 q.1).isLE = true

instance (cmp : String → String → Ordering) {β : Type} : DecidableRel (KeyLE cmp (β := β)) :=
  fun p q => inferInstanceAs (Decidable ((cmp p.1 q.1).isLE = true))

def sortKeys (cmp : String → String → Ordering) {β : Type} (ps : List (String × β)) : List (String × β) :=
  ps.insertionSort (KeyLE cmp)

theorem sortKeys_perm (cmp : String → String → Ordering) {β : Type} (ps : List (String × β)) :
    (sortKeys cmp ps).Perm ps := List.perm_insertionSort _ ps

theorem sortKeys_map (cmp : String → String → Ordering) {β γ : Type} (f : β → γ) (ps : List (String × β)) :
    (sortKeys cmp ps).map (fun p => (p.1, f p.2)) = sortKeys cmp (ps.map fun p => (p.1, f p.2)) :=
  List.map_insertionSort _ _ _ ps fun _ _ _ _ => Iff.rfl

theorem sortKeys_ties {cmp : String → String → Ordering} {β : Type} {p q : String × β} {ps : List (String × β)}
    (htie : cmp p.1 q.1 = .eq) (h : [p, q].Sublist ps) : [p, q].Sublist (sortKeys cmp ps) :=
  List.pair_sublist_insertionSort (by rw [KeyLE, htie]; rfl) h

section Sorted

variable {cmp : String → String → Ordering} [Std.TransCmp cmp]

instance {β : Type} : Std.Total (KeyLE cmp (β := β)) where
  total p q := by
    have hswap : cmp q.1 p.1 = (cmp p.1 q.1).swap := Std.OrientedCmp.eq_swap
    unfold KeyLE
    rw [hswap]
    cases cmp p.1 q.1 <;> simp

instance {β : Type} : IsTrans (String × β) (KeyLE cmp) where
  trans _ _ _ h h' := Std.TransCmp.isLE_trans h h'

theorem sortKeys_eq_of_perm {β : Type} {ps qs : List (String × β)} (h : ps.Perm qs)
    (hps : ps.Pairwise fun p q => cmp p.1 q.1 ≠ .eq) : sortKeys cmp ps = sortKeys cmp qs := by
  refine List.Perm.eq_of_pairwise (fun p q hp hq hle hge => ?_) (List.pairwise_insertionSort (KeyLE cmp) ps)
    (List.pairwise_insertionSort (KeyLE cmp) qs) (((sortKeys_perm cmp ps).trans h).trans (sortKeys_perm cmp qs).symm)
  have hp : p ∈ ps := (sortKeys_perm cmp ps).mem_iff.mp hp
  have hq : q ∈ ps := h.mem_iff.mpr ((sortKeys_perm cmp qs).mem_iff.mp hq)
  have : Std.Symm fun p q : String × β => cmp p.1 q.1 ≠ .eq := ⟨fun _ _ hne htie => hne (Std.OrientedCmp.eq_comm.mp htie)⟩
  by_contra hne
  exact hps.forall hp hq hne (Std.OrientedCmp.isLE_antisymm hle hge)

end Sorted

/-! ### A canonical representative -/

/-- What has no text is `null`, as in the text. -/
def Js.nulled : {i : JsPart} → Js i → Js i
  | _, .undefined | _, .null | _, .notFinite => .null
  | _, .bool b => .bool b
  | _, .number x => .number x
  | _, .string s => .string s
  | _, .arr es => .arr es.nulled
  | _, .obj es => .obj es.nulled
  | _, .nil => .nil
  | _, .cons v es => .cons v.nulled es.nulled
  | _, .empty => .empty
  | _, .entry k v es => .entry k v.nulled es.nulled

attribute [local simp] Js.nulled

/-- Besides, the entries of every object are sorted. -/
def Js.canon (cmp : String → String → Ordering) : {i : JsPart} → Js i → Js i
  | _, .undefined | _, .null | _, .notFinite => .null
  | _, .bool b => .bool b
  | _, .number x => .number x
  | _, .string s => .string s
  | _, .arr es => .arr (es.canon cmp)
  | _, .obj es => .obj (ofEntries (sortKeys cmp (es.canon cmp).entries))
  | _, .nil => .nil
  | _, .cons v es => .cons (v.canon cmp) (es.canon cmp)
  | _, .empty => .empty
  | _, .entry k v es => .entry k (v.canon cmp) (es.canon cmp)

attribute [local simp] Js.canon

/-- The entries of every object from the last to the first. -/
def Js.flipped : {i : JsPart} → Js i → Js i
  | _, .undefined => .undefined
  | _, .null => .null
  | _, .notFinite => .notFinite
  | _, .bool b => .bool b
  | _, .number x => .number x
  | _, .string s => .string s
  | _, .arr es => .arr es.flipped
  | _, .obj es => .obj (ofEntries es.flipped.entries.reverse)
  | _, .nil => .nil
  | _, .cons v es => .cons v.flipped es.flipped
  | _, .empty => .empty
  | _, .entry k v es => .entry k v.flipped es.flipped

/-- The number of entries of all objects. -/
def Js.count : {i : JsPart} → Js i → ℕ
  | _, .arr es | _, .obj es => es.count
  | _, .cons v es => v.count + es.count
  | _, .entry _ v es => v.count + es.count + 1
  | _, _ => 0

attribute [local simp] Js.count

theorem Reordered.flipped {i : JsPart} (v : Js i) : Reordered v v.flipped := by
  induction v with
  | undefined | null | bool | notFinite | number | string | nil | empty => exact .refl _
  | arr es ih => exact .arr ih
  | cons v es ihv ihes => exact .cons ihv ihes
  | entry k v es ihv ihes => exact .entry ihv ihes
  | obj es ih =>
    have hreverse : Reordered es.flipped (Js.ofEntries es.flipped.entries.reverse) := by
      conv_lhs => rw [← Js.ofEntries_entries es.flipped]
      exact .of_perm (List.reverse_perm _).symm
    exact .obj (ih.trans hreverse)

theorem Reordered.count_eq {i : JsPart} {v w : Js i} (h : Reordered v w) : v.count = w.count := by
  induction h with
  | refl _ => rfl
  | arr _ ih | obj _ ih => exact ih
  | cons _ _ ihv ihes | entry _ _ ihv ihes => simp only [Js.count, ihv, ihes]
  | swap =>
    simp only [Js.count]
    omega
  | trans _ _ ih ih' => exact ih.trans ih'

theorem Js.count_nulled {i : JsPart} (v : Js i) : v.nulled.count = v.count := by
  induction v with
  | undefined | null | bool | notFinite | number | string | nil | empty => rfl
  | arr _ ih | obj _ ih => exact ih
  | cons _ _ ihv ihes | entry _ _ _ ihv ihes => simp only [nulled, count, ihv, ihes]

section Canon

variable (cmp : String → String → Ordering)

theorem Js.canon_plain {i : JsPart} (v : Js i) : (v.canon cmp).Plain := by
  induction v with
  | undefined | null | bool | notFinite | number | string | nil | empty => trivial
  | arr es ih => exact ih
  | cons v es ihv ihes => exact ⟨ihv, ihes⟩
  | entry k v es ihv ihes => exact ⟨ihv, ihes⟩
  | obj es ih =>
    refine (plain_entries _).mpr fun p hp => ?_
    rw [entries_ofEntries, (sortKeys_perm cmp _).mem_iff] at hp
    exact (plain_entries _).mp ih p hp

theorem Reordered.canon {i : JsPart} (v : Js i) : Reordered v.nulled (v.canon cmp) := by
  induction v with
  | undefined | null | bool | notFinite | number | string | nil | empty => exact .refl _
  | arr es ih => exact .arr ih
  | cons v es ihv ihes => exact .cons ihv ihes
  | entry k v es ihv ihes => exact .entry ihv ihes
  | obj es ih =>
    have hsort : Reordered (es.canon cmp) (Js.ofEntries (sortKeys cmp (es.canon cmp).entries)) := by
      conv_lhs => rw [← Js.ofEntries_entries (es.canon cmp)]
      exact .of_perm (sortKeys_perm cmp _).symm
    exact .obj (ih.trans hsort)

theorem Js.count_canon {i : JsPart} (v : Js i) : (v.canon cmp).count = v.count := by
  rw [← (Reordered.canon cmp v).count_eq, count_nulled]

theorem Js.keys_canon {i : JsPart} (v : Js i) : (v.canon cmp).keys = v.keys := by
  induction v with
  | entry k v es _ ih => exact congrArg (k :: ·) ih
  | _ => rfl

theorem Js.keys_flipped {i : JsPart} (v : Js i) : v.flipped.keys = v.keys := by
  induction v with
  | entry k v es _ ih => exact congrArg (k :: ·) ih
  | _ => rfl

theorem Js.entries_canon (es : Js .object) :
    (es.canon cmp).entries = es.entries.map fun p => (p.1, p.2.canon cmp) := by
  induction es using Js.object_induction with
  | empty => rfl
  | entry k v es ih => rw [canon, entries, entries, ih, List.map_cons]

/-- One canonical representative; of an object without its braces, up to the order of its entries. -/
def Js.SameCanon : {i : JsPart} → Js i → Js i → Prop
  | .value, v, w => v.canon cmp = w.canon cmp
  | .array, es, fs => es.canon cmp = fs.canon cmp
  | .object, es, fs => (es.canon cmp).entries.Perm (fs.canon cmp).entries

variable {cmp}

theorem Js.pairwise_canon {R : String → String → Prop} {es : Js .object} (h : es.keys.Pairwise R) :
    (es.canon cmp).entries.Pairwise fun p q => R p.1 q.1 := by
  rw [← keys_canon cmp es] at h
  exact List.pairwise_map.mp h

/-- **Without ties the order of the keys does not matter.** -/
theorem Reordered.sameCanon [Std.TransCmp cmp] {i : JsPart} {v w : Js i} (h : Reordered v w)
    (hv : v.KeysApart fun k l => cmp k l ≠ .eq) : v.SameCanon cmp w := by
  have hsymm {k l : String} (hne : cmp k l ≠ .eq) : cmp l k ≠ .eq := fun htie => hne (Std.OrientedCmp.eq_comm.mp htie)
  induction h with
  | @refl i v =>
    cases i with
    | value | array => rfl
    | object => exact .refl _
  | arr _ ih => exact congrArg Js.arr (ih hv)
  | obj _ ih =>
    have hsort := sortKeys_eq_of_perm (ih hv.2) (Js.pairwise_canon hv.1)
    exact congrArg (fun ps => Js.obj (Js.ofEntries ps)) hsort
  | cons _ _ ihv ihes => exact congrArg₂ Js.cons (ihv hv.1) (ihes hv.2)
  | @entry k v w es fs _ _ ihv ihes =>
    have hhead : v.canon cmp = w.canon cmp := ihv hv.1
    show ((k, v.canon cmp) :: (es.canon cmp).entries).Perm ((k, w.canon cmp) :: (fs.canon cmp).entries)
    rw [hhead]
    exact .cons _ (ihes hv.2)
  | swap => exact List.Perm.swap ..
  | @trans i u v w h h' ih ih' =>
    have hleft := ih hv
    have hright := ih' (h.keysApart hsymm hv)
    cases i with
    | value | array => exact Eq.trans hleft hright
    | object => exact List.Perm.trans hleft hright

/-! ### Ties -/

theorem eq_of_perm_of_keys {β : Type} {ps qs : List (String × β)} (h : ps.Perm qs)
    (hkeys : ps.map Prod.fst = qs.map Prod.fst) (hnodup : (ps.map Prod.fst).Nodup) : ps = qs := by
  induction ps generalizing qs with
  | nil => exact h.nil_eq
  | cons p ps ih =>
    cases qs with
    | nil => exact nomatch hkeys
    | cons q qs =>
      simp only [List.map_cons, List.cons.injEq, List.nodup_cons] at hkeys hnodup
      have hp : p = q := by
        rcases List.mem_cons.mp (h.mem_iff.mp List.mem_cons_self) with hp | hp
        · exact hp
        · exact absurd (hkeys.2 ▸ List.mem_map_of_mem hp) hnodup.1
      subst hp
      rw [ih ((List.perm_cons _).mp h) hkeys.2 hnodup.2]

theorem not_sublist_both {β : Type} {a b : β} {l : List β} (hl : l.Nodup) (h : [a, b].Sublist l)
    (h' : [b, a].Sublist l) : False := by
  induction l with
  | nil => exact nomatch h
  | cons c l ih =>
    obtain ⟨hc, hl⟩ := List.nodup_cons.mp hl
    rcases List.cons_sublist_cons'.mp h with hab | ⟨rfl, hb⟩
    · rcases List.cons_sublist_cons'.mp h' with hba | ⟨rfl, -⟩
      · exact ih hl hab hba
      · exact hc (hab.subset (List.mem_cons_of_mem _ List.mem_cons_self))
    · rcases List.cons_sublist_cons'.mp h' with hba | ⟨rfl, -⟩
      · exact hc (hba.subset (List.mem_cons_of_mem _ List.mem_cons_self))
      · exact hc (List.singleton_sublist.mp hb)

/-- Which one of two keys that tie is first depends on the order they stand in. -/
theorem no_ties {β : Type} {ps : List (String × β)} (hnodup : (ps.map Prod.fst).Nodup)
    (h : sortKeys cmp ps = sortKeys cmp ps.reverse) (htie : ∀ {k l}, cmp k l = .eq → cmp l k = .eq) :
    (ps.map Prod.fst).Pairwise fun k l => cmp k l ≠ .eq := by
  refine List.pairwise_iff_forall_sublist.mpr fun {k l} hsub hkl => ?_
  obtain ⟨pq, hpq, hkeys⟩ := List.sublist_map_iff.mp hsub
  obtain ⟨p, q, rfl, rfl, rfl⟩ : ∃ p q, pq = [p, q] ∧ k = p.1 ∧ l = q.1 := by
    match pq, hkeys with
    | [p, q], hkeys => exact ⟨p, q, rfl, by simpa using hkeys⟩
  have hfirst := sortKeys_ties hkl hpq
  have hlast := sortKeys_ties (htie hkl) (List.reverse_sublist.mpr hpq)
  rw [← h] at hlast
  exact not_sublist_both (((sortKeys_perm cmp ps).map Prod.fst).nodup_iff.mpr hnodup) (hfirst.map Prod.fst)
    (hlast.map Prod.fst)

/-- **Where the order of the keys does not matter there are no ties.** -/
theorem Js.keysApart_of_flipped [Std.TransCmp cmp] {i : JsPart} {v : Js i} (hv : v.KeysApart (· ≠ ·))
    (h : v.canon cmp = v.flipped.canon cmp) : v.KeysApart fun k l => cmp k l ≠ .eq := by
  induction v with
  | undefined | null | bool | notFinite | number | string | nil | empty => trivial
  | arr es ih => exact ih hv (Js.arr.inj h)
  | cons v es ihv ihes =>
    obtain ⟨hhead, htail⟩ := Js.cons.inj h
    exact ⟨ihv hv.1 hhead, ihes hv.2 htail⟩
  | entry k v es ihv ihes =>
    obtain ⟨-, hhead, htail⟩ := Js.entry.inj h
    exact ⟨ihv hv.1 hhead, ihes hv.2 htail⟩
  | obj es ih =>
    obtain ⟨hunique, hdeep⟩ := hv
    have hsort := congrArg Js.entries (Js.obj.inj h)
    rw [entries_ofEntries, entries_ofEntries, entries_canon cmp (ofEntries _), entries_ofEntries, List.map_reverse,
      ← entries_canon] at hsort
    have hkeys : (es.canon cmp).keys = (es.flipped.canon cmp).keys := by
      rw [keys_canon, keys_canon, keys_flipped]
    have hnodup : ((es.canon cmp).entries.map Prod.fst).Nodup := by
      rw [← keys, keys_canon]
      exact hunique
    have hperm : (es.canon cmp).entries.Perm (es.flipped.canon cmp).entries :=
      ((sortKeys_perm cmp _).symm.trans (hsort ▸ sortKeys_perm cmp _)).trans (List.reverse_perm _)
    have hsame := eq_of_perm_of_keys hperm hkeys hnodup
    have hes : es.canon cmp = es.flipped.canon cmp := by
      rw [← ofEntries_entries (es.canon cmp), hsame, ofEntries_entries]
    rw [← hsame] at hsort
    have hapart := no_ties hnodup hsort fun htie => Std.OrientedCmp.eq_comm.mp htie
    rw [← keys, keys_canon] at hapart
    exact ⟨hapart, ih hdeep hes⟩

end Canon

end TeamInbox.Lib
