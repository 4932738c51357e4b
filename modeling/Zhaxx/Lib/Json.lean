import Mathlib.Data.Nat.Basic
import Zhaxx.Lib.Decimal

/-!
# JSON

The values of JSON with natural numbers, the text that `json.dump` of Python writes for one,
indented by two, and `json.load`, which reads any such text. A text with another number, with
`true`, `false` or `null`, or with half of a surrogate pair is refused.

Main results:

* `readString_quote`: a string is read as it was written, whatever characters it has.
* `load_dump`: a value is read as it was written.
-/

namespace Json

open Decimal (digits isDigit_of_mem_digits)

/-- A JSON value. An object has its members in order. -/
inductive Value where
  | str (s : String)
  | num (n : ℕ)
  | arr (vs : List Value)
  | obj (members : List (String × Value))

/-! ## Writing -/

/-- `\uXXXX`. -/
def unicode (n : ℕ) : List Char :=
  ['\\', 'u', (n / 0x1000 % 16).digitChar, (n / 0x100 % 16).digitChar, (n / 0x10 % 16).digitChar,
    (n % 16).digitChar]

/-- The letter of a short escape. -/
def letter (c : Char) : Option Char :=
  if c = '"' then some '"' else if c = '\\' then some '\\' else if c = '\n' then some 'n'
  else if c = '\r' then some 'r' else if c = '\t' then some 't' else if c = '\x08' then some 'b'
  else if c = '\x0c' then some 'f' else none

/-- A character of a string; beyond the basic plane it is a surrogate pair. -/
def escape (c : Char) : List Char :=
  match letter c with
  | some l => ['\\', l]
  | none =>
    if 0x20 ≤ c.toNat ∧ c.toNat ≤ 0x7e then [c]
    else if c.toNat < 0x10000 then unicode c.toNat
    else unicode (0xd800 + (c.toNat - 0x10000) / 0x400) ++
      unicode (0xdc00 + (c.toNat - 0x10000) % 0x400)

/-- A string in quotes. -/
def quote (s : String) : List Char := '"' :: (s.toList.flatMap escape ++ ['"'])

/-- A line break, and the indentation of the next line. -/
def newline (level : ℕ) : List Char := '\n' :: List.replicate (2 * level) ' '

mutual

/-- The text of a value inside of `level` brackets. -/
def dump (level : ℕ) : Value → List Char
  | .str s => quote s
  | .num n => digits n
  | .arr [] => ['[', ']']
  | .arr (v :: vs) =>
    '[' :: (newline (level + 1) ++ (dump (level + 1) v ++ dumpItems (level + 1) vs)) ++
      newline level ++ [']']
  | .obj [] => ['{', '}']
  | .obj ((k, v) :: ms) =>
    '{' :: (newline (level + 1) ++ (quote k ++ ':' :: ' ' :: (dump (level + 1) v ++
      dumpMembers (level + 1) ms))) ++ newline level ++ ['}']

/-- The further items of an array. -/
def dumpItems (level : ℕ) : List Value → List Char
  | [] => []
  | v :: vs => ',' :: (newline level ++ (dump level v ++ dumpItems level vs))

/-- The further members of an object. -/
def dumpMembers (level : ℕ) : List (String × Value) → List Char
  | [] => []
  | (k, v) :: ms =>
    ',' :: (newline level ++ (quote k ++ ':' :: ' ' :: (dump level v ++ dumpMembers level ms)))

end

/-! ## Reading -/

/-- A hexadecimal digit. -/
def hexDigit (c : Char) : Option ℕ :=
  if c.isDigit then some (c.toNat - 48)
  else if 97 ≤ c.toNat ∧ c.toNat ≤ 102 then some (c.toNat - 87)
  else if 65 ≤ c.toNat ∧ c.toNat ≤ 70 then some (c.toNat - 55)
  else none

/-- The four digits of `\uXXXX`. -/
def readUnicode : List Char → Option (ℕ × List Char)
  | a :: b :: c :: d :: cs => do
    let a ← hexDigit a
    let b ← hexDigit b
    let c ← hexDigit c
    let d ← hexDigit d
    some (((a * 16 + b) * 16 + c) * 16 + d, cs)
  | _ => none

/-- The character of a code point that is no surrogate. -/
def scalar (n : ℕ) : Option Char := if n.isValidChar then some (Char.ofNat n) else none

/-- The character of a short escape. -/
def ofLetter : Char → Option Char
  | '"' => some '"'
  | '\\' => some '\\'
  | '/' => some '/'
  | 'b' => some '\x08'
  | 'f' => some '\x0c'
  | 'n' => some '\n'
  | 'r' => some '\r'
  | 't' => some '\t'
  | _ => none

/-- What stands behind a backslash. -/
def readEscape : List Char → Option (Char × List Char)
  | 'u' :: cs => do
    let (n, cs) ← readUnicode cs
    if 0xd800 ≤ n ∧ n ≤ 0xdbff then
      match cs with
      | '\\' :: 'u' :: cs => do
        let (n', cs) ← readUnicode cs
        if 0xdc00 ≤ n' ∧ n' ≤ 0xdfff then
          (scalar (0x10000 + (n - 0xd800) * 0x400 + (n' - 0xdc00))).map (·, cs)
        else none
      | _ => none
    else (scalar n).map (·, cs)
  | l :: cs => (ofLetter l).map (·, cs)
  | [] => none

/-- A string behind its opening quote. -/
def readString : ℕ → List Char → Option (List Char × List Char)
  | 0, _ => none
  | _, [] => none
  | _ + 1, '"' :: cs => some ([], cs)
  | fuel + 1, '\\' :: cs =>
    (readEscape cs).bind fun e => (readString fuel e.2).map fun p => (e.1 :: p.1, p.2)
  | fuel + 1, c :: cs =>
    if c.toNat < 0x20 then none else (readString fuel cs).map fun p => (c :: p.1, p.2)

/-- A number without sign, fraction and exponent. -/
def readNumber (cs : List Char) : Option (ℕ × List Char) :=
  match cs.takeWhile Char.isDigit with
  | [] => none
  | '0' :: _ :: _ => none
  | ds => some (Nat.ofDigitChars 10 ds 0, cs.dropWhile Char.isDigit)

/-- White space. -/
def skip (cs : List Char) : List Char := cs.dropWhile fun c => c ∈ [' ', '\t', '\n', '\r']

mutual

/-- A value, and what stands behind it. -/
def readValue : ℕ → List Char → Option (Value × List Char)
  | 0, _ => none
  | fuel + 1, cs =>
    match cs with
    | '"' :: cs => (readString fuel cs).map fun p => (.str (String.ofList p.1), p.2)
    | '[' :: cs =>
      match skip cs with
      | ']' :: cs => some (.arr [], cs)
      | cs => (readItems fuel cs).map fun p => (.arr p.1, p.2)
    | '{' :: cs =>
      match skip cs with
      | '}' :: cs => some (.obj [], cs)
      | cs => (readMembers fuel cs).map fun p => (.obj p.1, p.2)
    | cs => (readNumber cs).map fun p => (.num p.1, p.2)

/-- The items of an array and its closing bracket. -/
def readItems : ℕ → List Char → Option (List Value × List Char)
  | 0, _ => none
  | fuel + 1, cs => do
    let (v, cs) ← readValue fuel cs
    match skip cs with
    | ']' :: cs => some ([v], cs)
    | ',' :: cs =>
      let (vs, cs) ← readItems fuel (skip cs)
      some (v :: vs, cs)
    | _ => none

/-- The members of an object and its closing bracket. -/
def readMembers : ℕ → List Char → Option (List (String × Value) × List Char)
  | 0, _ => none
  | fuel + 1, cs =>
    match cs with
    | '"' :: cs => do
      let (k, cs) ← readString fuel cs
      match skip cs with
      | ':' :: cs =>
        let (v, cs) ← readValue fuel (skip cs)
        match skip cs with
        | '}' :: cs => some ([(String.ofList k, v)], cs)
        | ',' :: cs =>
          let (ms, cs) ← readMembers fuel (skip cs)
          some ((String.ofList k, v) :: ms, cs)
        | _ => none
      | _ => none
    | _ => none

end

/-- `json.load`: one value with white space around it. -/
def load (cs : List Char) : Option Value := do
  let (v, cs) ← readValue (cs.length + 1) (skip cs)
  if skip cs = [] then some v else none

/-! ## Parts of a value -/

namespace Value

/-- The text of a string. -/
def str? : Value → Option String
  | .str s => some s
  | _ => none

/-- The items of an array. -/
def arr? : Value → Option (List Value)
  | .arr vs => some vs
  | _ => none

/-- The member of an object with this name, the last one if there are several. -/
def member? (v : Value) (key : String) : Option Value :=
  match v with
  | .obj ms => (ms.reverse.find? fun m => m.1 = key).map Prod.snd
  | _ => none

end Value

/-! ## Strings -/

theorem hexDigit_digitChar {d : ℕ} (h : d < 16) : hexDigit d.digitChar = some d := by
  revert d
  decide

theorem readUnicode_digits {n : ℕ} (h : n < 0x10000) (cs : List Char) :
    readUnicode ((n / 0x1000 % 16).digitChar :: (n / 0x100 % 16).digitChar ::
      (n / 0x10 % 16).digitChar :: (n % 16).digitChar :: cs) = some (n, cs) := by
  have hn : ((n / 0x1000 % 16 * 16 + n / 0x100 % 16) * 16 + n / 0x10 % 16) * 16 + n % 16 = n := by
    omega
  have hlt : ∀ k, k % 16 < 16 := fun k => Nat.mod_lt _ (by decide)
  simp only [readUnicode, hexDigit_digitChar (hlt _), Option.bind_eq_bind, Option.bind_some, hn]

theorem scalar_toNat (c : Char) : scalar c.toNat = some c := by
  rw [scalar, if_pos (show c.toNat.isValidChar from c.valid), Char.ofNat_toNat]

theorem ofLetter_letter {c l : Char} (h : letter c = some l) : ofLetter l = some c ∧ l ≠ 'u' := by
  unfold letter at h
  split_ifs at h with h1 h2 h3 h4 h5 h6 h7
  all_goals
    cases h
    subst_vars
    exact ⟨rfl, by decide⟩

theorem readEscape_letter {c l : Char} (h : letter c = some l) (cs : List Char) :
    readEscape (l :: cs) = some (c, cs) := by
  obtain ⟨hl, hu⟩ := ofLetter_letter h
  rw [readEscape, hl, Option.map_some]
  exact hu

/-- A character outside of ASCII, behind its first backslash. -/
theorem readEscape_unicode {c : Char} {n : ℕ} {pair : List Char} (cs : List Char)
    (h : (n = c.toNat ∧ c.toNat < 0x10000 ∧ pair = []) ∨
      (0x10000 ≤ c.toNat ∧ n = 0xd800 + (c.toNat - 0x10000) / 0x400 ∧
        pair = unicode (0xdc00 + (c.toNat - 0x10000) % 0x400))) :
    readEscape ('u' :: (n / 0x1000 % 16).digitChar :: (n / 0x100 % 16).digitChar ::
      (n / 0x10 % 16).digitChar :: (n % 16).digitChar :: (pair ++ cs)) = some (c, cs) := by
  rcases h with ⟨rfl, hlt, rfl⟩ | ⟨hge, hn, rfl⟩
  · have hno : ¬ (0xd800 ≤ c.toNat ∧ c.toNat ≤ 0xdbff) := by
      have hv : c.toNat < 0xd800 ∨ 0xdfff < c.toNat ∧ c.toNat < 0x110000 := c.valid
      omega
    rw [List.nil_append, readEscape, readUnicode_digits hlt]
    simp only [Option.bind_eq_bind, Option.bind_some, if_neg hno, scalar_toNat, Option.map_some]
  · have hv : c.toNat < 0xd800 ∨ 0xdfff < c.toNat ∧ c.toNat < 0x110000 := c.valid
    have hhigh : 0xd800 ≤ n ∧ n ≤ 0xdbff := by omega
    obtain ⟨n', hn'⟩ : ∃ n', n' = 0xdc00 + (c.toNat - 0x10000) % 0x400 := ⟨_, rfl⟩
    have hlow : 0xdc00 ≤ n' ∧ n' ≤ 0xdfff := by omega
    have hsum : 0x10000 + (n - 0xd800) * 0x400 + (n' - 0xdc00) = c.toNat := by omega
    rw [← hn', readEscape, readUnicode_digits (by omega)]
    simp only [Option.bind_eq_bind, Option.bind_some, if_pos hhigh, unicode, List.cons_append,
      List.nil_append, readUnicode_digits (show n' < 0x10000 by omega), if_pos hlow, hsum,
      scalar_toNat, Option.map_some]

/-- **One character.** -/
theorem readString_escape (fuel : ℕ) (c : Char) (cs : List Char) :
    readString (fuel + 1) (escape c ++ cs) =
      (readString fuel cs).map fun p => (c :: p.1, p.2) := by
  have hback : ∀ es, readEscape es = some (c, cs) → readString (fuel + 1) ('\\' :: es) =
      (readString fuel cs).map fun p => (c :: p.1, p.2) := by
    intro es hes
    rw [readString, hes, Option.bind_some]
  unfold escape
  cases hl : letter c with
  | some l => exact hback _ (readEscape_letter hl cs)
  | none =>
    dsimp only
    split_ifs with hascii hbmp
    · have hq : c ≠ '"' := by
        rintro rfl
        cases hl
      have hb : c ≠ '\\' := by
        rintro rfl
        cases hl
      rw [List.singleton_append, readString, if_neg (by omega)]
      · exact hq
      · exact hb
    · exact hback _ (@readEscape_unicode c _ [] cs (.inl ⟨rfl, hbmp, rfl⟩))
    · rw [List.append_assoc]
      exact hback _ (readEscape_unicode cs (.inr ⟨by omega, rfl, rfl⟩))

theorem escape_ne_nil (c : Char) : escape c ≠ [] := by
  unfold escape
  cases letter c with
  | some l => exact List.cons_ne_nil _ _
  | none =>
    dsimp only
    split_ifs <;> exact List.cons_ne_nil _ _

/-- **Strings are read as they were written.** -/
theorem readString_quote {fuel : ℕ} {s : List Char} (h : (s.flatMap escape).length < fuel)
    (cs : List Char) : readString fuel (s.flatMap escape ++ '"' :: cs) = some (s, cs) := by
  induction s generalizing fuel with
  | nil =>
    cases fuel with
    | zero => omega
    | succ fuel => rfl
  | cons c s ih =>
    rw [List.flatMap_cons, List.length_append] at h
    have hpos := List.length_pos_of_ne_nil (escape_ne_nil c)
    cases fuel with
    | zero => omega
    | succ fuel =>
      rw [List.flatMap_cons, List.append_assoc, readString_escape, ih (by omega), Option.map_some]

/-! ## Numbers and white space -/

/-- What stands behind a number. -/
def NoDigit (cs : List Char) : Prop := cs.head?.map Char.isDigit ≠ some true

theorem takeWhile_digits {cs : List Char} (h : NoDigit cs) (n : ℕ) :
    (digits n ++ cs).takeWhile Char.isDigit = digits n ∧
      (digits n ++ cs).dropWhile Char.isDigit = cs := by
  have hall : ∀ c ∈ digits n, c.isDigit = true := fun _ => isDigit_of_mem_digits
  rw [List.takeWhile_append_of_pos hall, List.dropWhile_append_of_pos hall]
  cases cs with
  | nil => simp
  | cons c cs =>
    have hc : ¬ c.isDigit = true := fun hc => h (by simp [hc])
    rw [List.takeWhile_cons_of_neg hc, List.dropWhile_cons_of_neg hc, List.append_nil]
    exact ⟨rfl, rfl⟩

/-- A number of two or more digits does not begin with `0`. -/
theorem digits_ne_zero_cons (n : ℕ) (d : Char) (ds : List Char) : digits n ≠ '0' :: d :: ds := by
  induction n using Nat.strong_induction_on generalizing d ds with
  | _ n ih =>
    by_cases hn : n < 10
    · rw [digits, Nat.toDigits_of_lt_base hn]
      simp
    · rw [digits, Nat.toDigits_of_base_le (by decide) (by omega)]
      intro h
      change digits (n / 10) ++ _ = _ at h
      cases hd : digits (n / 10) with
      | nil => exact Nat.toDigits_ne_nil hd
      | cons e es =>
        rw [hd, List.cons_append] at h
        obtain ⟨rfl, htail⟩ := List.cons.inj h
        cases es with
        | nil =>
          have hzero : n / 10 = 0 := Decimal.digits_injective (hd.trans (by decide))
          omega
        | cons e' es => exact ih (n / 10) (by omega) e' es hd

theorem readNumber_digits {cs : List Char} (h : NoDigit cs) (n : ℕ) :
    readNumber (digits n ++ cs) = some (n, cs) := by
  obtain ⟨htake, hdrop⟩ := takeWhile_digits h n
  unfold readNumber
  rw [htake, hdrop]
  split
  · rename_i hnil
    exact absurd hnil Nat.toDigits_ne_nil
  · rename_i hzero
    exact absurd hzero (digits_ne_zero_cons n _ _)
  · simp [digits]

theorem skip_cons {c : Char} (h : c ∉ [' ', '\t', '\n', '\r']) (cs : List Char) :
    skip (c :: cs) = c :: cs := List.dropWhile_cons_of_neg (by simpa using h)

theorem skip_newline (level : ℕ) (cs : List Char) : skip (newline level ++ cs) = skip cs := by
  refine List.dropWhile_append_of_pos fun c hc => ?_
  rcases List.mem_cons.mp hc with rfl | hc
  · rfl
  · rw [List.eq_of_mem_replicate hc]
    rfl

/-- A value begins with a character that is neither white space nor a closing bracket. -/
theorem dump_head (level : ℕ) (v : Value) :
    ∃ c cs, dump level v = c :: cs ∧ c ∉ [' ', '\t', '\n', '\r', ']'] := by
  cases v with
  | str s => exact ⟨_, _, by rw [dump, quote], by decide⟩
  | num n =>
    rw [dump]
    cases hd : digits n with
    | nil => exact absurd hd Nat.toDigits_ne_nil
    | cons d ds =>
      have hdig : d.isDigit = true := isDigit_of_mem_digits (n := n) (by rw [hd]; simp)
      have hno : ∀ c ∈ [' ', '\t', '\n', '\r', ']'], c.isDigit = false := by decide
      refine ⟨d, ds, rfl, fun hmem => ?_⟩
      rw [hno d hmem] at hdig
      cases hdig
  | arr vs =>
    cases vs with
    | nil => exact ⟨_, _, by rw [dump], by decide⟩
    | cons v vs => exact ⟨_, _, by rw [dump, List.cons_append, List.cons_append], by decide⟩
  | obj ms =>
    cases ms with
    | nil => exact ⟨_, _, by rw [dump], by decide⟩
    | cons m ms => exact ⟨_, _, by rw [dump, List.cons_append, List.cons_append], by decide⟩

theorem skip_dump (level : ℕ) (v : Value) (cs : List Char) :
    skip (dump level v ++ cs) = dump level v ++ cs := by
  obtain ⟨c, ds, hd, hc⟩ := dump_head level v
  rw [hd, List.cons_append, skip_cons fun h => hc (List.mem_append_left [']'] h)]

/-! ## Values -/

/-- Values with fewer than `fuel` characters are read as they were written. -/
def ReadsValues (fuel : ℕ) : Prop :=
  ∀ (v : Value) (level : ℕ) (cs : List Char), (dump level v).length < fuel → NoDigit cs →
    readValue fuel (dump level v ++ cs) = some (v, cs)

/-- So are the items of arrays. -/
def ReadsItems (fuel : ℕ) : Prop :=
  ∀ (v : Value) (vs : List Value) (level level' : ℕ) (cs : List Char),
    (dump level v ++ dumpItems level vs).length + 1 < fuel →
    readItems fuel (dump level v ++ (dumpItems level vs ++ (newline level' ++ ']' :: cs))) =
      some (v :: vs, cs)

/-- So are the members of objects. -/
def ReadsMembers (fuel : ℕ) : Prop :=
  ∀ (k : String) (v : Value) (ms : List (String × Value)) (level level' : ℕ) (cs : List Char),
    (quote k ++ ':' :: ' ' :: (dump level v ++ dumpMembers level ms)).length < fuel →
    readMembers fuel (quote k ++ ':' :: ' ' :: (dump level v ++
      (dumpMembers level ms ++ (newline level' ++ '}' :: cs)))) = some ((k, v) :: ms, cs)

theorem length_newline (level : ℕ) : (newline level).length = 2 * level + 1 := by
  simp [newline]

theorem noDigit_newline (level : ℕ) (cs : List Char) : NoDigit (newline level ++ cs) := by
  simp [NoDigit, newline]

section

variable {fuel : ℕ}

theorem readString_dump {s : String} (h : (quote s).length < fuel + 1) (cs : List Char) :
    readString fuel (s.toList.flatMap escape ++ '"' :: cs) = some (s.toList, cs) := by
  refine readString_quote ?_ cs
  simp only [quote, List.length_cons, List.length_append, List.length_nil] at h
  omega

theorem readsValues_succ (hitems : ReadsItems fuel) (hmembers : ReadsMembers fuel) :
    ReadsValues (fuel + 1) := by
  intro v level cs hlen hcs
  cases v with
  | str s =>
    rw [dump] at hlen ⊢
    rw [quote, List.cons_append, List.append_assoc, List.singleton_append, readValue,
      readString_dump hlen]
    simp
  | num n =>
    rw [dump]
    have hnum := readNumber_digits hcs n
    cases hd : digits n with
    | nil => exact absurd hd Nat.toDigits_ne_nil
    | cons d ds =>
      have hdig : d.isDigit = true := isDigit_of_mem_digits (n := n) (by rw [hd]; simp)
      rw [hd] at hnum
      rw [List.cons_append, readValue, ← List.cons_append, hnum]
      · rfl
      all_goals
        rintro _ h
        obtain ⟨rfl, -⟩ := List.cons.inj h
        cases hdig
  | arr vs =>
    cases vs with
    | nil =>
      rw [dump, List.cons_append, readValue, List.singleton_append, skip_cons (by decide)]
      rfl
    | cons v vs =>
      rw [dump] at hlen ⊢
      simp only [List.length_append, List.length_cons, length_newline] at hlen
      have hread := hitems v vs (level + 1) level cs (by rw [List.length_append]; omega)
      simp only [List.append_assoc, List.cons_append, List.nil_append]
      rw [readValue, skip_newline, skip_dump]
      obtain ⟨c, ds, hd, hc⟩ := dump_head (level + 1) v
      rw [hd, List.cons_append] at hread ⊢
      split
      · rename_i heq
        cases heq
        exact absurd (by simp) hc
      · rw [hread]
        rfl
  | obj ms =>
    cases ms with
    | nil =>
      rw [dump, List.cons_append, readValue, List.singleton_append, skip_cons (by decide)]
      rfl
    | cons m ms =>
      obtain ⟨k, v⟩ := m
      rw [dump] at hlen ⊢
      simp only [List.length_append, List.length_cons, length_newline] at hlen
      have hread := hmembers k v ms (level + 1) level cs
        (by simp only [List.length_append, List.length_cons]; omega)
      simp only [List.append_assoc, List.cons_append, List.nil_append]
      rw [readValue, skip_newline]
      rw [quote, List.cons_append] at hread ⊢
      rw [skip_cons (by decide)]
      split
      · rename_i heq
        cases heq
      · rw [hread]
        rfl

theorem readsItems_succ (hvalues : ReadsValues fuel) (hitems : ReadsItems fuel) :
    ReadsItems (fuel + 1) := by
  intro v vs level level' cs hlen
  rw [List.length_append] at hlen
  have hv : ∀ rest, NoDigit rest → readValue fuel (dump level v ++ rest) = some (v, rest) :=
    fun rest => hvalues v level rest (by omega)
  cases vs with
  | nil =>
    rw [dumpItems, List.nil_append, readItems, hv _ (noDigit_newline _ _)]
    simp only [Option.bind_eq_bind, Option.bind_some, skip_newline]
    rw [skip_cons (by decide)]
    rfl
  | cons w vs =>
    have hcomma : NoDigit (dumpItems level (w :: vs) ++ (newline level' ++ ']' :: cs)) := by
      simp [NoDigit, dumpItems]
    rw [readItems, hv _ hcomma]
    simp only [dumpItems, List.length_cons, List.length_append, length_newline] at hlen
    have hread := hitems w vs level level' cs (by rw [List.length_append]; omega)
    simp only [Option.bind_eq_bind, Option.bind_some, dumpItems, List.cons_append,
      List.append_assoc]
    rw [skip_cons (by decide)]
    simp only [skip_newline, skip_dump, hread, Option.bind_some]

theorem readsMembers_succ (hvalues : ReadsValues fuel) (hmembers : ReadsMembers fuel) :
    ReadsMembers (fuel + 1) := by
  intro k v ms level level' cs hlen
  simp only [List.length_append, List.length_cons] at hlen
  have hv : ∀ rest, NoDigit rest → readValue fuel (dump level v ++ rest) = some (v, rest) :=
    fun rest => hvalues v level rest (by omega)
  have hk : ∀ rest, readString fuel (k.toList.flatMap escape ++ '"' :: rest) =
      some (k.toList, rest) := readString_dump (by omega)
  have hblank : ∀ rest, skip (' ' :: (dump level v ++ rest)) = dump level v ++ rest :=
    fun rest => skip_dump level v rest
  rw [quote, List.cons_append, List.append_assoc, List.singleton_append, readMembers, hk]
  simp only [Option.bind_eq_bind, Option.bind_some]
  rw [skip_cons (by decide)]
  simp only [hblank]
  cases ms with
  | nil =>
    rw [dumpMembers, List.nil_append, hv _ (noDigit_newline _ _)]
    simp only [Option.bind_some, skip_newline]
    rw [skip_cons (by decide)]
    simp
  | cons m ms =>
    obtain ⟨k', w⟩ := m
    have hcomma : NoDigit (dumpMembers level ((k', w) :: ms) ++ (newline level' ++ '}' :: cs)) := by
      simp [NoDigit, dumpMembers]
    rw [hv _ hcomma]
    simp only [dumpMembers, List.length_cons, List.length_append, length_newline] at hlen
    have hread := hmembers k' w ms level level' cs
      (by simp only [List.length_append, List.length_cons]; omega)
    have hquote : ∀ rest, skip (quote k' ++ rest) = quote k' ++ rest := fun rest => by
      rw [quote, List.cons_append, skip_cons (by decide)]
    simp only [Option.bind_some, dumpMembers, List.cons_append, List.append_assoc]
    rw [skip_cons (by decide)]
    simp only [skip_newline, hquote, hread, Option.bind_some, String.ofList_toList]

end

/-- What is nested deeper has fewer characters. -/
theorem reads (fuel : ℕ) : ReadsValues fuel ∧ ReadsItems fuel ∧ ReadsMembers fuel := by
  induction fuel with
  | zero =>
    refine ⟨fun v level cs h => ?_, fun v vs level level' cs h => ?_,
      fun k v ms level level' cs h => ?_⟩ <;> omega
  | succ fuel ih =>
    obtain ⟨hvalues, hitems, hmembers⟩ := ih
    exact ⟨readsValues_succ hitems hmembers, readsItems_succ hvalues hitems,
      readsMembers_succ hvalues hmembers⟩

/-- **Values are read as they were written.** -/
theorem load_dump (v : Value) : load (dump 0 v) = some v := by
  have hread := (reads ((dump 0 v).length + 1)).1 v 0 [] (Nat.lt_succ_self _) (by simp [NoDigit])
  have hskip := skip_dump 0 v []
  rw [List.append_nil] at hread hskip
  unfold load
  rw [hskip, hread]
  rfl

end Json
