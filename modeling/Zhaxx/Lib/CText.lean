import Mathlib.Algebra.Group.Nat.Defs
import Mathlib.Data.List.Basic
import Mathlib.Data.List.TakeWhile
import Mathlib.Data.List.Infix
import Zhaxx.Lib.Decimal

/-!
# C strings

The functions of `<string.h>`, `<stdlib.h>` and `<stdio.h>` a C program uses to
read a line-oriented text file. A byte is written as the character with its
code, and a C string as the list of its bytes without the terminating NUL.

Main results:

* `after_joinEq`: searching for `word=` goes from one equals sign to the next.
* `strtoull_digits`: `strtoull` with base 0 reads a number in decimal.
* `fgetsLines_append`: a line that fits into the buffer is read whole.
-/

namespace CText

open Decimal (digits isDigit_of_mem_digits)

/-- The bytes of the UTF-8 encoding of `s`. -/
def utf8 (s : String) : List Char :=
  s.toList.flatMap fun c => (String.utf8EncodeChar c).map fun b => Char.ofNat b.toNat

/-- What stands before the first NUL. -/
def cstr (s : List Char) : List Char := s.takeWhile (· != '\x00')

/-! ## Searching -/

/-- `strstr(s, pat)`: `s` from the first occurrence of `pat` on. -/
def strstr (pat : List Char) : List Char → Option (List Char)
  | [] => if pat = [] then some [] else none
  | c :: cs => if pat.isPrefixOf (c :: cs) then some (c :: cs) else strstr pat cs

/-- `strstr(s, pat) + strlen(pat)`. -/
def after (pat s : List Char) : Option (List Char) := (strstr pat s).map (·.drop pat.length)

/-- `strchr(s, c)`: `s` split before the first `c`. -/
def strchr (c : Char) (s : List Char) : Option (List Char × List Char) :=
  if c ∈ s then some (s.takeWhile (· != c), s.dropWhile (· != c)) else none

/-! ## Numbers -/

/-- `isspace` in the C locale. -/
def isSpace (c : Char) : Bool := c == ' ' || (9 ≤ c.toNat && c.toNat ≤ 13)

/-- The value of a digit or letter in a base up to 36. -/
def digitValue (c : Char) : Option ℕ :=
  if '0'.toNat ≤ c.toNat ∧ c.toNat ≤ '9'.toNat then some (c.toNat - '0'.toNat)
  else if 'a'.toNat ≤ c.toNat ∧ c.toNat ≤ 'z'.toNat then some (c.toNat - 'a'.toNat + 10)
  else if 'A'.toNat ≤ c.toNat ∧ c.toNat ≤ 'Z'.toNat then some (c.toNat - 'A'.toNat + 10)
  else none

/-- `c` is a digit in `base`. -/
def isDigit (base : ℕ) (c : Char) : Bool := (digitValue c).any fun d => d < base

/-- The base and the digits `strtoull` finds behind the sign when called with
    base 0. -/
def detectBase (s : List Char) : ℕ × List Char :=
  match s with
  | '0' :: x :: d :: cs =>
    if (x = 'x' ∨ x = 'X') ∧ isDigit 16 d then (16, d :: cs) else (8, s)
  | '0' :: _ => (8, s)
  | _ => (10, s)

/-- The number written by digits. -/
def numeral (base : ℕ) (ds : List Char) : ℕ :=
  ds.foldl (fun n c => base * n + (digitValue c).getD 0) 0

/-- A leading minus sign, and what follows the sign. -/
def sign : List Char → Bool × List Char
  | '-' :: cs => (true, cs)
  | '+' :: cs => (false, cs)
  | s => (false, s)

/-- `strtoull(s, &end, 0)`; `none` when it reads no digit or sets `errno`. -/
def strtoull (s : List Char) : Option ℕ :=
  let (negative, s) := sign (s.dropWhile isSpace)
  let (base, s) := detectBase s
  let ds := s.takeWhile (isDigit base)
  if ds = [] then none
  else
    let v := numeral base ds
    if 2 ^ 64 ≤ v then none
    else some (if negative then (2 ^ 64 - v) % 2 ^ 64 else v)

/-! ## Comparing -/

/-- `tolower` in the C locale. -/
def toLower (c : Char) : Char :=
  if 'A'.toNat ≤ c.toNat ∧ c.toNat ≤ 'Z'.toNat then Char.ofNat (c.toNat + 32) else c

/-- `strcasecmp(a, b) == 0`. -/
def strcasecmpEq (a b : List Char) : Bool := a.map toLower == b.map toLower

/-! ## Reading lines -/

/-- The successive results of `fgets` into a buffer for `size` bytes and a NUL,
    with `line` read so far: each ends with a newline, at the end of the file or
    where the buffer is full. -/
def fgetsAux (size : ℕ) (line : List Char) : List Char → List (List Char)
  | [] => if line = [] then [] else [line]
  | c :: cs =>
    let line := line ++ [c]
    if c = '\n' ∨ size ≤ line.length then line :: fgetsAux size [] cs else fgetsAux size line cs

/-- The lines of a file as `fgets(line, size + 1, f)` returns them. -/
def fgetsLines (size : ℕ) (s : List Char) : List (List Char) := fgetsAux size [] s

/-! ## Bytes of a string -/

@[simp] theorem utf8_append (s t : String) : utf8 (s ++ t) = utf8 s ++ utf8 t := by
  simp [utf8]

theorem toNat_byteChar (b : UInt8) : (Char.ofNat b.toNat).toNat = b.toNat := by
  have hv : b.toNat.isValidChar := .inl (by have := b.toNat_lt; omega)
  rw [Char.ofNat, dif_pos hv]
  rfl

theorem byteChar_injective : Function.Injective fun b : UInt8 => Char.ofNat b.toNat := by
  intro a b h
  have := congrArg Char.toNat h
  simp only [toNat_byteChar] at this
  exact UInt8.toNat_inj.mp this

theorem utf8_eq_map (s : String) :
    utf8 s = (s.toList.flatMap String.utf8EncodeChar).map fun b => Char.ofNat b.toNat := by
  rw [utf8, List.map_flatMap]

/-- The bytes determine the string. -/
theorem utf8_injective : Function.Injective utf8 := by
  intro s t h
  rw [utf8_eq_map, utf8_eq_map] at h
  have hb := List.map_injective_iff.mpr byteChar_injective h
  rw [← String.toByteArray_inj, ← String.utf8Encode_toList, ← String.utf8Encode_toList]
  exact congrArg List.toByteArray hb

theorem utf8EncodeChar_ascii {c : Char} (h : c.toNat < 128) :
    (String.utf8EncodeChar c).map (fun b => Char.ofNat b.toNat) = [c] := by
  have hv : c.val.toNat < 128 := h
  have hb : (UInt8.ofNat c.val.toNat).toNat = c.toNat := by
    rw [UInt8.toNat_ofNat']
    exact Nat.mod_eq_of_lt (by omega)
  unfold String.utf8EncodeChar
  rw [if_pos (by omega), List.map_singleton, hb, Char.ofNat_toNat]

theorem le_utf8EncodeChar {c : Char} (h : 128 ≤ c.toNat) :
    ∀ b ∈ String.utf8EncodeChar c, 128 ≤ b.toNat := by
  have hv : ¬ c.val.toNat ≤ 0x7f := by
    have : 128 ≤ c.val.toNat := h
    omega
  have hi : ∀ n, 128 ≤ n → n < 256 → 128 ≤ (UInt8.ofNat n).toNat := by
    intro n h1 h2
    rw [UInt8.toNat_ofNat', Nat.mod_eq_of_lt h2]
    exact h1
  unfold String.utf8EncodeChar
  rw [if_neg hv]
  split_ifs <;> simp only [List.forall_mem_cons, List.not_mem_nil, false_implies, implies_true,
    and_true]
  · exact ⟨hi _ (by omega) (by omega), hi _ (by omega) (by omega)⟩
  · exact ⟨hi _ (by omega) (by omega), hi _ (by omega) (by omega), hi _ (by omega) (by omega)⟩
  · exact ⟨hi _ (by omega) (by omega), hi _ (by omega) (by omega), hi _ (by omega) (by omega),
      hi _ (by omega) (by omega)⟩

/-- The ASCII bytes are the ASCII characters. -/
theorem mem_utf8 {s : String} {c : Char} (hc : c.toNat < 128) : c ∈ utf8 s ↔ c ∈ s.toList := by
  rw [utf8, List.mem_flatMap]
  constructor
  · rintro ⟨a, ha, h⟩
    by_cases hlt : a.toNat < 128
    · rw [utf8EncodeChar_ascii hlt, List.mem_singleton] at h
      exact h ▸ ha
    · obtain ⟨b, hb, rfl⟩ := List.mem_map.mp h
      have := le_utf8EncodeChar (by omega) b hb
      rw [toNat_byteChar] at hc
      omega
  · exact fun h => ⟨c, h, by rw [utf8EncodeChar_ascii hc]; exact List.mem_singleton_self c⟩

/-- An ASCII string is its own encoding. -/
theorem utf8_ascii {s : String} (h : ∀ c ∈ s.toList, c.toNat < 128) : utf8 s = s.toList := by
  unfold utf8
  revert h
  induction s.toList with
  | nil => exact fun _ => rfl
  | cons c cs ih =>
    intro h
    rw [List.forall_mem_cons] at h
    rw [List.flatMap_cons, utf8EncodeChar_ascii h.1, ih h.2]
    rfl

/-! ## Reading decimal numbers -/

/-- What follows a number: its first character is no digit, letter or sign that
    would prolong it. -/
def Stops (rest : List Char) : Prop :=
  ∀ c ∈ rest.head?, isDigit 16 c = false ∧ c ≠ 'x' ∧ c ≠ 'X'

theorem digitValue_digit {c : Char} (h : c.isDigit = true) :
    digitValue c = some (c.toNat - '0'.toNat) ∧ c.toNat - '0'.toNat < 10 := by
  have h' := Char.isDigit_iff_toNat.mp h
  have h9 : '9'.toNat = '0'.toNat + 9 := rfl
  exact ⟨if_pos h', by omega⟩

theorem isDigit_digit {c : Char} {b : ℕ} (h : c.isDigit = true) (hb : 10 ≤ b) :
    isDigit b c = true := by
  obtain ⟨hv, hlt⟩ := digitValue_digit h
  simp only [isDigit, hv, Option.any_some, decide_eq_true_eq]
  omega

theorem isDigit_mono {c : Char} {b b' : ℕ} (hb : b ≤ b') (h : isDigit b c = true) :
    isDigit b' c = true := by
  unfold isDigit at h ⊢
  cases hv : digitValue c with
  | none => simp [hv] at h
  | some d =>
    simp only [hv, Option.any_some, decide_eq_true_eq] at h ⊢
    omega

theorem numeral_digits (n : ℕ) : numeral 10 (digits n) = n := by
  have h : numeral 10 (digits n) = Nat.ofDigitChars 10 (digits n) 0 := by
    unfold numeral Nat.ofDigitChars
    refine List.foldl_ext _ _ _ fun v c hc => ?_
    rw [(digitValue_digit (isDigit_of_mem_digits hc)).1]
    rfl
  rw [h]
  simp

theorem takeWhile_isDigit {b : ℕ} (hb : b ≤ 16) {ds rest : List Char}
    (hds : ∀ c ∈ ds, isDigit b c = true) (hr : Stops rest) :
    (ds ++ rest).takeWhile (isDigit b) = ds := by
  rw [List.takeWhile_append_of_pos hds]
  cases rest with
  | nil => simp
  | cons c rest =>
    have hc : isDigit b c ≠ true := fun h => by
      have := isDigit_mono hb h
      rw [(hr c rfl).1] at this
      cases this
    rw [List.takeWhile_cons_of_neg hc, List.append_nil]

/-- Decimal digits do not start with a zero. -/
theorem digits_cons {n : ℕ} (hn : n ≠ 0) : ∃ c cs, digits n = c :: cs ∧ c ≠ '0' := by
  induction n using Nat.strongRecOn with
  | ind n ih =>
    by_cases hlt : n < 10
    · refine ⟨n.digitChar, [], Nat.toDigits_of_lt_base hlt, ?_⟩
      simpa using hn
    · obtain ⟨c, cs, h, hc⟩ := ih (n / 10) (by omega) (by omega)
      refine ⟨c, cs ++ [(n % 10).digitChar], ?_, hc⟩
      rw [digits, Nat.toDigits_of_base_le (by omega) (by omega)]
      unfold digits at h
      rw [h]
      rfl

/-- The base of a decimal number and its digits. -/
theorem detectBase_digits {n : ℕ} {rest : List Char} (hr : Stops rest) :
    ∃ b, detectBase (digits n ++ rest) = (b, digits n ++ rest) ∧
      (digits n ++ rest).takeWhile (isDigit b) = digits n ∧ numeral b (digits n) = n := by
  by_cases hn : n = 0
  · subst hn
    refine ⟨8, ?_, takeWhile_isDigit (by decide) (by decide) hr, by decide⟩
    rw [digits, Nat.toDigits_zero]
    cases rest with
    | nil => rfl
    | cons x rest =>
      cases rest with
      | nil => rfl
      | cons d rest =>
        have hx := (hr x rfl).2
        simp [detectBase, hx.1, hx.2]
  · refine ⟨10, ?_, takeWhile_isDigit (by decide) (fun c hc => ?_) hr, numeral_digits n⟩
    · obtain ⟨c, cs, h, hc⟩ := digits_cons hn
      rw [h]
      unfold detectBase
      split
      · rename_i heq; exact absurd (List.cons.inj heq).1 hc
      · rename_i heq; exact absurd (List.cons.inj heq).1 hc
      · rfl
    · exact isDigit_digit (isDigit_of_mem_digits hc) le_rfl

theorem digit_not_space {c : Char} (h : c.isDigit = true) :
    isSpace c = false ∧ c ≠ '-' ∧ c ≠ '+' := by
  have h0 : 48 ≤ c.toNat := (Char.isDigit_iff_toNat.mp h).1
  refine ⟨?_, ?_, ?_⟩
  · have hs : c ≠ ' ' := by rintro rfl; exact absurd h0 (by decide)
    simp only [isSpace, beq_eq_false_iff_ne.mpr hs, Bool.false_or, Bool.and_eq_false_iff,
      decide_eq_false_iff_not]
    right
    omega
  · rintro rfl
    exact absurd h0 (by decide)
  · rintro rfl
    exact absurd h0 (by decide)

/-- **Reading a decimal number.** -/
theorem strtoull_digits_append (n : ℕ) {rest : List Char} (hr : Stops rest) :
    strtoull (digits n ++ rest) = if n < 2 ^ 64 then some n else none := by
  obtain ⟨b, hb, ht, hv⟩ := detectBase_digits (n := n) hr
  obtain ⟨c, cs, hcs⟩ := List.exists_cons_of_ne_nil (Nat.toDigits_ne_nil (n := n) (b := 10))
  obtain ⟨hsp, hminus, hplus⟩ := digit_not_space
    (isDigit_of_mem_digits (n := n) (show c ∈ digits n by rw [digits, hcs]; simp))
  have hne : digits n ≠ [] := Nat.toDigits_ne_nil
  have hdrop : (digits n ++ rest).dropWhile isSpace = digits n ++ rest := by
    rw [digits, hcs, List.cons_append, List.dropWhile_cons_of_neg (by simp [hsp])]
  have hsign : sign (digits n ++ rest) = (false, digits n ++ rest) := by
    rw [digits, hcs]
    unfold sign
    split
    · rename_i heq; exact absurd (List.cons.inj heq).1 hminus
    · rename_i heq; exact absurd (List.cons.inj heq).1 hplus
    · rfl
  unfold strtoull
  simp only [hdrop, hsign, hb, ht, if_neg hne, hv, Bool.false_eq_true, if_false]
  by_cases hn : n < 2 ^ 64
  · rw [if_pos hn, if_neg (Nat.not_le.mpr hn)]
  · rw [if_neg hn, if_pos (Nat.not_lt.mp hn)]

theorem strtoull_digits {n : ℕ} (hn : n < 2 ^ 64) {rest : List Char} (hr : Stops rest) :
    strtoull (digits n ++ rest) = some n := by
  rw [strtoull_digits_append n hr, if_pos hn]

/-- A negative number wraps. -/
theorem strtoull_neg_digits {n : ℕ} (hn : n < 2 ^ 64) {rest : List Char} (hr : Stops rest) :
    strtoull ('-' :: (digits n ++ rest)) = some ((2 ^ 64 - n) % 2 ^ 64) := by
  obtain ⟨b, hb, ht, hv⟩ := detectBase_digits (n := n) hr
  have hne : digits n ≠ [] := Nat.toDigits_ne_nil
  have hsign : sign ('-' :: (digits n ++ rest)) = (true, digits n ++ rest) := rfl
  unfold strtoull
  rw [List.dropWhile_cons_of_neg (by decide)]
  simp only [hsign, hb, ht, if_neg hne, hv, if_neg (Nat.not_le.mpr hn)]
  rfl

/-! ## Reading lines by newlines -/

theorem fgetsAux_line {size : ℕ} {acc line rest : List Char} (h : '\n' ∉ line)
    (hl : acc.length + line.length < size) :
    fgetsAux size acc (line ++ '\n' :: rest) =
      (acc ++ line ++ ['\n']) :: fgetsAux size [] rest := by
  induction line generalizing acc with
  | nil => simp [fgetsAux]
  | cons c line ih =>
    rw [List.mem_cons, not_or] at h
    rw [List.length_cons] at hl
    rw [List.cons_append, fgetsAux, if_neg, ih h.2]
    · simp
    · simp; omega
    · rw [List.length_append, List.length_singleton]
      rintro (hc | hc)
      · exact h.1 hc.symm
      · omega

/-- **A line that fits is read whole.** -/
theorem fgetsLines_append {size : ℕ} {line rest : List Char} (h : '\n' ∉ line)
    (hl : line.length < size) :
    fgetsLines size (line ++ '\n' :: rest) = (line ++ ['\n']) :: fgetsLines size rest :=
  fgetsAux_line h (by simpa using hl)

/-- A file of lines that fit is read line by line. -/
theorem fgetsLines_flatMap {size : ℕ} {lines : List (List Char)}
    (h : ∀ l ∈ lines, '\n' ∉ l ∧ l.length < size) (rest : List Char) :
    fgetsLines size (lines.flatMap (· ++ ['\n']) ++ rest) =
      lines.map (· ++ ['\n']) ++ fgetsLines size rest := by
  induction lines with
  | nil => rfl
  | cons l lines ih =>
    rw [List.forall_mem_cons] at h
    rw [List.flatMap_cons, List.append_assoc, List.append_assoc, List.singleton_append,
      fgetsLines_append h.1.1 h.1.2, ih h.2, List.map_cons, List.cons_append]

theorem fgetsAux_newline {size : ℕ} (acc s rest : List Char) :
    ∃ lines, fgetsAux size acc (s ++ '\n' :: rest) = lines ++ fgetsAux size [] rest := by
  induction s generalizing acc with
  | nil => exact ⟨[acc ++ ['\n']], by simp [fgetsAux]⟩
  | cons c s ih =>
    rw [List.cons_append, fgetsAux]
    split_ifs
    · obtain ⟨lines, h⟩ := ih []
      exact ⟨(acc ++ [c]) :: lines, by rw [h]; rfl⟩
    · exact ih _

/-- Reading starts afresh behind every newline. -/
theorem fgetsLines_newline {size : ℕ} (s rest : List Char) :
    ∃ lines, fgetsLines size (s ++ '\n' :: rest) = lines ++ fgetsLines size rest :=
  fgetsAux_newline [] s rest

/-- A line has no newline, and nothing that the file does not have. -/
theorem mem_of_mem_splitOn {s l : List Char} (h : l ∈ s.splitOn '\n') :
    ∀ c ∈ l, c ≠ '\n' ∧ c ∈ s := by
  induction s generalizing l with
  | nil =>
    rw [List.splitOn_nil, List.mem_singleton] at h
    subst h
    exact List.forall_mem_nil _
  | cons a s ih =>
    rw [List.splitOn_cons_eq_if_modifyHead] at h
    obtain ⟨l', ls, hs⟩ := List.exists_cons_of_ne_nil (List.splitOn_ne_nil '\n' s)
    rw [hs] at h ih
    have hrest : ∀ l ∈ l' :: ls, ∀ c ∈ l, c ≠ '\n' ∧ c ∈ a :: s := fun l hl c hc =>
      ⟨(ih hl c hc).1, List.mem_cons_of_mem _ (ih hl c hc).2⟩
    by_cases ha : a = '\n'
    · rw [if_pos (by simp [ha])] at h
      rcases List.mem_cons.mp h with rfl | h
      · exact List.forall_mem_nil _
      · exact hrest l h
    · rw [if_neg (by simp [ha]), List.modifyHead_cons] at h
      rcases List.mem_cons.mp h with rfl | h
      · rw [List.forall_mem_cons]
        exact ⟨⟨ha, List.mem_cons_self⟩, hrest l' List.mem_cons_self⟩
      · exact hrest l (List.mem_cons_of_mem _ h)

theorem fgetsAux_cons (size : ℕ) (acc : List Char) (c : Char) (cs : List Char) :
    fgetsAux size acc (c :: cs) =
      if c = '\n' ∨ size ≤ (acc ++ [c]).length then (acc ++ [c]) :: fgetsAux size [] cs
      else fgetsAux size (acc ++ [c]) cs := rfl

section

variable {β : Type*} {f : List Char → Option β} (hnil : f [] = none)
  (hline : ∀ l, '\n' ∉ l → f (l ++ ['\n']) = f l)

include hnil hline

theorem fgetsAux_splitOn {size : ℕ} {acc s l : List Char} {ls : List (List Char)}
    (hacc : '\n' ∉ acc) (hs : s.splitOn '\n' = l :: ls) :
    (fgetsAux size acc s).filterMap f = (fgetsAux size acc l).filterMap f ++
      ls.flatMap fun l => (fgetsLines size l).filterMap f := by
  induction s generalizing acc l ls with
  | nil =>
    cases hs
    simp
  | cons c s ih =>
    obtain ⟨l', ls', hs'⟩ := List.exists_cons_of_ne_nil (List.splitOn_ne_nil '\n' s)
    rw [List.splitOn_cons_eq_if_modifyHead, hs'] at hs
    by_cases hc : c = '\n'
    · subst hc
      rw [if_pos (by simp)] at hs
      cases hs
      rw [fgetsAux_cons, if_pos (Or.inl rfl), List.filterMap_cons, hline acc hacc,
        ih List.not_mem_nil hs', List.flatMap_cons, fgetsLines]
      by_cases ha : acc = []
      · subst ha
        simp [fgetsAux, hnil]
      · cases hf : f acc <;> simp [fgetsAux, ha, hf]
    · rw [if_neg (by simpa using hc)] at hs
      cases hs
      have hacc' : '\n' ∉ acc ++ [c] := by
        simpa [hacc] using fun h => hc h.symm
      rw [fgetsAux_cons, fgetsAux_cons]
      split_ifs
      · rw [List.filterMap_cons, ih List.not_mem_nil hs', List.filterMap_cons]
        cases f (acc ++ [c]) <;> rfl
      · exact ih hacc' hs'

/-- **The lines of a file and the results of `fgets`**, for a reader that does not
    look at newlines. -/
theorem fgetsLines_splitOn (size : ℕ) (s : List Char) :
    (fgetsLines size s).filterMap f =
      (s.splitOn '\n').flatMap fun l => (fgetsLines size l).filterMap f := by
  obtain ⟨l, ls, hs⟩ := List.exists_cons_of_ne_nil (List.splitOn_ne_nil '\n' s)
  rw [hs, List.flatMap_cons]
  exact fgetsAux_splitOn hnil hline List.not_mem_nil hs

end

theorem fgetsAux_of_le {size : ℕ} {acc l : List Char} (hne : acc ++ l ≠ [])
    (hl : (acc ++ l).length ≤ size) (hnl : '\n' ∉ l) : fgetsAux size acc l = [acc ++ l] := by
  induction l generalizing acc with
  | nil =>
    rw [List.append_nil] at hne ⊢
    exact if_neg hne
  | cons c l ih =>
    rw [List.mem_cons, not_or] at hnl
    have hsplit : acc ++ c :: l = acc ++ [c] ++ l := by simp
    rw [hsplit] at hne hl ⊢
    rw [fgetsAux_cons]
    split_ifs with h
    · have hlast : l = [] := by
        rw [List.length_append] at hl
        refine List.length_eq_zero_iff.mp ?_
        have := h.resolve_left fun h => hnl.1 h.symm
        omega
      rw [hlast, List.append_nil]
      rfl
    · exact ih hne hl hnl.2

theorem fgetsAux_ne_nil {size : ℕ} {acc l : List Char} (h : acc ++ l ≠ []) :
    fgetsAux size acc l ≠ [] := by
  induction l generalizing acc with
  | nil =>
    rw [List.append_nil] at h
    simp [fgetsAux, h]
  | cons c l ih =>
    rw [fgetsAux_cons]
    split_ifs
    · exact List.cons_ne_nil _ _
    · exact ih (by simp)

theorem one_lt_length_fgetsAux {size : ℕ} {acc l : List Char} (hacc : acc.length < size)
    (hl : size < (acc ++ l).length) : 1 < (fgetsAux size acc l).length := by
  induction l generalizing acc with
  | nil =>
    rw [List.append_nil] at hl
    omega
  | cons c l ih =>
    rw [fgetsAux_cons]
    split_ifs with h
    · have hne : l ≠ [] := by
        rintro rfl
        rw [List.length_append, List.length_singleton] at hl
        omega
      have hrest : fgetsAux size [] l ≠ [] := fgetsAux_ne_nil (by simpa using hne)
      have := List.length_pos_iff.mpr hrest
      rw [List.length_cons]
      omega
    · exact ih (by omega) (by simpa using hl)

theorem fgetsLines_of_le {size : ℕ} {l : List Char} (hne : l ≠ []) (hl : l.length ≤ size)
    (hnl : '\n' ∉ l) : fgetsLines size l = [l] := fgetsAux_of_le hne hl hnl

/-- The last piece of a line, and how short it is when there are others. -/
theorem fgetsAux_last {size : ℕ} {acc l : List Char} (hacc : acc.length < size)
    (hne : acc ++ l ≠ []) (hnl : '\n' ∉ l) :
    ∃ init s, fgetsAux size acc l = init ++ [s] ∧ s ≠ [] ∧ s <:+ acc ++ l ∧
      (size < (acc ++ l).length → s.length + size ≤ (acc ++ l).length) := by
  induction l generalizing acc with
  | nil =>
    rw [List.append_nil] at hne ⊢
    exact ⟨[], acc, if_neg hne, hne, List.suffix_rfl, fun h => absurd h (by omega)⟩
  | cons c l ih =>
    rw [List.mem_cons, not_or] at hnl
    have hsplit : acc ++ c :: l = acc ++ [c] ++ l := by simp
    have hlen : (acc ++ [c]).length = acc.length + 1 := by simp
    rw [hsplit] at hne ⊢
    rw [fgetsAux_cons]
    by_cases hfull : c = '\n' ∨ size ≤ (acc ++ [c]).length
    · have hsize : (acc ++ [c]).length = size := by
        have := hfull.resolve_left fun h => hnl.1 h.symm
        omega
      rw [if_pos hfull]
      by_cases hl : l = []
      · subst hl
        refine ⟨[], acc ++ [c], rfl, by simp, by simp, fun h => ?_⟩
        rw [List.append_nil] at h
        omega
      · have hnil : ([] : List Char).length < size := by
          rw [List.length_nil]
          omega
        obtain ⟨init, s, hs, hs0, hsuf, -⟩ := ih hnil (by simpa using hl) hnl.2
        rw [List.nil_append] at hsuf
        refine ⟨(acc ++ [c]) :: init, s, by rw [hs]; rfl, hs0,
          hsuf.trans (List.suffix_append _ _), fun _ => ?_⟩
        have := hsuf.length_le
        rw [List.length_append, hsize]
        omega
    · rw [if_neg hfull]
      exact ih (by omega) hne hnl.2

/-- **A line is read whole exactly when it fits.** -/
theorem fgetsLines_whole_iff {size : ℕ} {l : List Char} (hs : 0 < size) (hnl : '\n' ∉ l) :
    (fgetsLines size l).length ≤ 1 ↔ l.length ≤ size := by
  constructor
  · intro h
    by_contra hlt
    have hcut : 1 < (fgetsLines size l).length :=
      one_lt_length_fgetsAux hs (by simpa using hlt)
    omega
  · intro h
    by_cases hl : l = []
    · subst hl
      exact Nat.zero_le 1
    · rw [fgetsLines_of_le hl h hnl, List.length_singleton]

/-! ## Searching by segments -/

theorem strstr_at_start {pat s : List Char} (h : pat <+: s) (hp : pat ≠ []) :
    strstr pat s = some s := by
  cases s with
  | nil => exact absurd (List.prefix_nil.mp h) hp
  | cons c cs => rw [strstr, if_pos (List.isPrefixOf_iff_prefix.mpr h)]

theorem strstr_cons {pat s : List Char} {c : Char} (h : ¬ pat <+: c :: s) :
    strstr pat (c :: s) = strstr pat s := by
  rw [strstr, if_neg (by simpa [List.isPrefixOf_iff_prefix] using h)]

theorem strstr_suffix {pat s t : List Char} (h : strstr pat s = some t) : t <:+ s := by
  induction s with
  | nil =>
    rw [strstr] at h
    split_ifs at h
    cases h
    exact List.suffix_rfl
  | cons c cs ih =>
    rw [strstr] at h
    split_ifs at h
    · cases h
      exact List.suffix_rfl
    · exact (ih h).trans (List.suffix_cons c cs)

/-- What is found stands at the end of the text. -/
theorem suffix_of_after {pat s t : List Char} (h : after pat s = some t) : t <:+ s := by
  obtain ⟨u, hu, rfl⟩ := Option.map_eq_some_iff.mp h
  exact (List.drop_suffix _ u).trans (strstr_suffix hu)

/-- What is not found in a text is not found in the end of it. -/
theorem after_suffix {pat s t : List Char} (h : after pat t = none) (hs : s <:+ t) :
    after pat s = none := by
  obtain ⟨u, rfl⟩ := hs
  unfold after at h ⊢
  rw [Option.map_eq_none_iff] at h ⊢
  induction u with
  | nil => exact h
  | cons c u ih =>
    rw [List.cons_append, strstr] at h
    split_ifs at h
    exact ih h

/-- An occurrence of `w=` before the first equals sign of `u=…` is at its end. -/
theorem prefix_segment {w u rest : List Char} (hw : '=' ∉ w) (hu : '=' ∉ u) :
    w ++ ['='] <+: u ++ '=' :: rest ↔ w = u := by
  constructor
  · rintro ⟨t, ht⟩
    rw [List.append_assoc] at ht
    induction w generalizing u with
    | nil =>
      cases u with
      | nil => rfl
      | cons c u =>
        simp only [List.nil_append, List.cons_append, List.cons.injEq] at ht
        exact absurd (List.mem_cons.mpr (.inl ht.1)) hu
    | cons a w ih =>
      cases u with
      | nil =>
        simp only [List.cons_append, List.nil_append, List.cons.injEq] at ht
        exact absurd (List.mem_cons.mpr (.inl ht.1.symm)) hw
      | cons c u =>
        simp only [List.cons_append, List.cons.injEq] at ht
        rw [ht.1, ih (fun h => hw (by simp [h])) (fun h => hu (by simp [h])) ht.2]
  · rintro rfl
    exact ⟨rest, by simp⟩

/-- **Searching by segments.** -/
theorem after_segment {w u rest : List Char} (hw : '=' ∉ w) (hu : '=' ∉ u) :
    after (w ++ ['=']) (u ++ '=' :: rest) =
      if w <:+ u then some rest else after (w ++ ['=']) rest := by
  unfold after
  induction u with
  | nil =>
    cases w with
    | nil =>
      rw [strstr_at_start (by simp) (by simp)]
      simp
    | cons a w =>
      have hne : ¬ a :: w ++ ['='] <+: [] ++ '=' :: rest := by
        rw [prefix_segment hw (by simp)]
        simp
      rw [List.nil_append] at hne ⊢
      rw [strstr_cons hne, if_neg (by simp)]
  | cons c u ih =>
    have hu' : '=' ∉ u := fun h => hu (by simp [h])
    by_cases hwu : w = c :: u
    · rw [if_pos (by rw [hwu]), strstr_at_start ((prefix_segment hw hu).mpr hwu) (by simp), hwu]
      simp
    · have hne : ¬ w ++ ['='] <+: c :: (u ++ '=' :: rest) := by
        rw [← List.cons_append, prefix_segment hw hu]
        exact hwu
      rw [List.cons_append, strstr_cons hne, ih hu']
      have : w <:+ c :: u ↔ w <:+ u := by
        rw [List.suffix_cons_iff]
        simp [hwu]
      simp only [this]

/-- Without an equals sign nothing is found. -/
theorem after_none {w u : List Char} (hu : '=' ∉ u) : after (w ++ ['=']) u = none := by
  unfold after
  induction u with
  | nil => simp [strstr]
  | cons c u ih =>
    have hne : ¬ w ++ ['='] <+: c :: u := by
      rintro ⟨t, ht⟩
      apply hu
      rw [← ht]
      simp
    rw [strstr_cons hne]
    exact ih fun h => hu (by simp [h])

/-- Segments separated by equals signs. -/
def joinEq : List (List Char) → List Char
  | [] => []
  | [u] => u
  | u :: v :: us => u ++ '=' :: joinEq (v :: us)

/-- What follows the first segment that ends in `w`. -/
def seek (w : List Char) : List (List Char) → Option (List Char)
  | [] => none
  | [_] => none
  | u :: v :: us => if w <:+ u then some (joinEq (v :: us)) else seek w (v :: us)

/-- **Searching for `w=` in a line of fields.** -/
theorem after_joinEq {w : List Char} (hw : '=' ∉ w) {us : List (List Char)}
    (hus : ∀ u ∈ us, '=' ∉ u) : after (w ++ ['=']) (joinEq us) = seek w us := by
  induction us with
  | nil => exact after_none List.not_mem_nil
  | cons u us ih =>
    rw [List.forall_mem_cons] at hus
    cases us with
    | nil => exact after_none hus.1
    | cons v us => rw [joinEq, after_segment hw hus.1, ih hus.2, seek]

/-- A word is no suffix of a longer text that ends differently. -/
theorem not_suffix_append {w a b : List Char} (h1 : ¬ b <:+ w) (h2 : ¬ w <:+ b) :
    ¬ w <:+ a ++ b := by
  intro h
  rcases List.suffix_or_suffix_of_suffix h (List.suffix_append a b) with h | h
  · exact h2 h
  · exact h1 h

theorem seek_hit {w a b v : List Char} {us : List (List Char)} (h : w <:+ b) :
    seek w ((a ++ b) :: v :: us) = some (joinEq (v :: us)) :=
  if_pos (h.trans (List.suffix_append a b))

theorem seek_skip {w a b v : List Char} {us : List (List Char)} (h1 : ¬ b <:+ w)
    (h2 : ¬ w <:+ b) : seek w ((a ++ b) :: v :: us) = seek w (v :: us) :=
  if_neg (not_suffix_append h1 h2)

theorem joinEq_append (a u : List Char) (us : List (List Char)) :
    joinEq ((a ++ u) :: us) = a ++ joinEq (u :: us) := by
  cases us with
  | nil => rfl
  | cons v us => rw [joinEq, joinEq, List.append_assoc]

theorem mem_joinEq {us : List (List Char)} {c : Char} (h : c ∈ joinEq us) :
    c = '=' ∨ ∃ u ∈ us, c ∈ u := by
  induction us with
  | nil => cases h
  | cons u us ih =>
    cases us with
    | nil => exact .inr ⟨u, List.mem_singleton_self u, h⟩
    | cons v us =>
      rw [joinEq, List.mem_append, List.mem_cons] at h
      rcases h with h | h | h
      · exact .inr ⟨u, List.mem_cons_self, h⟩
      · exact .inl h
      · exact (ih h).imp_right fun ⟨w, hw, hc⟩ => ⟨w, List.mem_cons_of_mem _ hw, hc⟩

theorem not_mem_joinEq {us : List (List Char)} {c : Char} (hc : c ≠ '=') (h : ∀ u ∈ us, c ∉ u) :
    c ∉ joinEq us := fun hm => (mem_joinEq hm).elim hc fun ⟨u, hu, hcu⟩ => h u hu hcu

theorem head?_joinEq {u : List Char} {us : List (List Char)} (hu : u ≠ []) :
    (joinEq (u :: us)).head? = u.head? := by
  obtain ⟨c, u, rfl⟩ := List.exists_cons_of_ne_nil hu
  cases us with
  | nil => rfl
  | cons v us => rfl

theorem strchr_append {c : Char} {s rest : List Char} (h : c ∉ s) :
    strchr c (s ++ c :: rest) = some (s, c :: rest) := by
  have hs : ∀ a ∈ s, (a != c) = true := fun a ha => by
    simpa using fun hac : a = c => h (hac ▸ ha)
  unfold strchr
  rw [if_pos (by simp), List.takeWhile_append_of_pos hs, List.dropWhile_append_of_pos hs]
  simp

end CText
