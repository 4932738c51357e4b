import Mathlib.Data.List.Infix
import Mathlib.Data.List.Sort
import Mathlib.Data.List.TakeWhile
import Mathlib.Data.String.Basic
import Zhaxx.Lib.Decimal
import Zhaxx.Lib.Dict

/-!
# Python string operations

The `str` methods and built-ins a Python 3 program uses on text, on `String`
where the text is only compared and on `List Char` where it is taken apart.
Whitespace and decimal digits are those of the Unicode database, not only the
ASCII ones.
-/

namespace PyStr

/-- `pat in s`. -/
def contains (pat s : String) : Bool := decide (pat.toList <:+: s.toList)

theorem contains_iff {pat s : String} : contains pat s = true ↔ pat.toList <:+: s.toList := by
  simp [contains]

/-- The items of a `dict` in the order of `sorted(d.items())`: by key, since
    keys are distinct. -/
def sortedItems {ν : Type*} (d : Dict String ν) : List (String × ν) :=
  d.entries.insertionSort fun a b => a.1 ≤ b.1

@[simp] theorem mem_sortedItems {ν : Type*} {d : Dict String ν} {e : String × ν} :
    e ∈ sortedItems d ↔ e ∈ d.entries :=
  (List.perm_insertionSort _ _).mem_iff

theorem length_filter_sortedItems {ν : Type*} (d : Dict String ν) (p : String × ν → Bool) :
    ((sortedItems d).filter p).length = (d.entries.filter p).length :=
  ((List.perm_insertionSort _ _).filter p).length_eq

/-- Sorting forgets the order of insertion. -/
theorem sortedItems_eq_of_perm {ν : Type*} {d d' : Dict String ν}
    (h : d.entries.Perm d'.entries) : sortedItems d = sortedItems d' := by
  have hsorted : ∀ d : Dict String ν, (sortedItems d).Pairwise fun a b => a.1 ≤ b.1 := by
    intro d
    have : Std.Total fun a b : String × ν => a.1 ≤ b.1 := ⟨fun a b => le_total a.1 b.1⟩
    have : IsTrans (String × ν) fun a b => a.1 ≤ b.1 := ⟨fun _ _ _ => le_trans⟩
    exact List.pairwise_insertionSort _ _
  have hperm : (sortedItems d).Perm (sortedItems d') :=
    (List.perm_insertionSort _ _).trans (h.trans (List.perm_insertionSort _ _).symm)
  refine hperm.eq_of_pairwise (fun a b ha hb hab hba => ?_) (hsorted d) (hsorted d')
  -- keys are distinct, so that two entries at the same place in the order are one
  have ha := mem_sortedItems.mp ha
  have hb := h.symm.subset (mem_sortedItems.mp hb)
  exact List.inj_on_of_nodup_map d.nodup ha hb (le_antisymm hab hba)

/-! ## Character classes -/

/-- The first and last code points of the runs of whitespace. -/
def spaceRanges : List (ℕ × ℕ) :=
  [(9, 13), (0x1c, 0x20), (0x85, 0x85), (0xa0, 0xa0), (0x1680, 0x1680), (0x2000, 0x200a),
    (0x2028, 0x2029), (0x202f, 0x202f), (0x205f, 0x205f), (0x3000, 0x3000)]

/-- `c.isspace()`, which is also `\s` and the separator set of `str.split()`. -/
def isSpace (c : Char) : Bool := spaceRanges.any fun r => r.1 ≤ c.toNat && c.toNat ≤ r.2

/-- The code points of the digit zero in every script (general category `Nd`);
    the nine that follow each are the digits one to nine. -/
def decimalZeros : List ℕ :=
  [0x30, 0x660, 0x6f0, 0x7c0, 0x966, 0x9e6, 0xa66, 0xae6, 0xb66, 0xbe6, 0xc66, 0xce6, 0xd66,
    0xde6, 0xe50, 0xed0, 0xf20, 0x1040, 0x1090, 0x17e0, 0x1810, 0x1946, 0x19d0, 0x1a80, 0x1a90,
    0x1b50, 0x1bb0, 0x1c40, 0x1c50, 0xa620, 0xa8d0, 0xa900, 0xa9d0, 0xa9f0, 0xaa50, 0xabf0,
    0xff10, 0x104a0, 0x10d30, 0x11066, 0x110f0, 0x11136, 0x111d0, 0x112f0, 0x11450, 0x114d0,
    0x11650, 0x116c0, 0x11730, 0x118e0, 0x11950, 0x11c50, 0x11d50, 0x11da0, 0x16a60, 0x16ac0,
    0x16b50, 0x1d7ce, 0x1d7d8, 0x1d7e2, 0x1d7ec, 0x1d7f6, 0x1e140, 0x1e2f0, 0x1e950, 0x1fbf0]

/-- The value of a decimal digit: `\d`. The ASCII ones need no table. -/
def decimal (c : Char) : Option ℕ :=
  if c.toNat < 128 then
    if '0'.toNat ≤ c.toNat ∧ c.toNat ≤ '9'.toNat then some (c.toNat - '0'.toNat) else none
  else
    (decimalZeros.find? fun z => z ≤ c.toNat && c.toNat < z + 10).map fun z => c.toNat - z

/-- `c` matches `\d`. -/
def isDecimal (c : Char) : Bool := (decimal c).isSome

/-- The first and last code points of the runs of digits that are not decimal, such as
    superscripts and circled numbers. -/
def digitRanges : List (ℕ × ℕ) :=
  [(0xb2, 0xb3), (0xb9, 0xb9), (0x1369, 0x1371), (0x19da, 0x19da), (0x2070, 0x2070),
    (0x2074, 0x2079), (0x2080, 0x2089), (0x2460, 0x2468), (0x2474, 0x247c), (0x2488, 0x2490),
    (0x24ea, 0x24ea), (0x24f5, 0x24fd), (0x24ff, 0x24ff), (0x2776, 0x277e), (0x2780, 0x2788),
    (0x278a, 0x2792), (0x10a40, 0x10a43), (0x10e60, 0x10e68), (0x11052, 0x1105a),
    (0x1f100, 0x1f10a)]

/-- `c.isdigit()`. -/
def isDigit (c : Char) : Bool :=
  isDecimal c || digitRanges.any fun r => r.1 ≤ c.toNat && c.toNat ≤ r.2

/-- `int(s)` of a string of decimal digits. -/
def intDecimal (s : List Char) : ℕ := s.foldl (fun n c => 10 * n + (decimal c).getD 0) 0

/-! ## Splitting -/

/-- `s.strip()`. -/
def strip (s : List Char) : List Char :=
  ((s.dropWhile isSpace).reverse.dropWhile isSpace).reverse

/-- `s.rstrip()`. -/
def rstrip (s : List Char) : List Char := (s.reverse.dropWhile isSpace).reverse

/-- Cut at every character that satisfies `p`; between two neighbouring
    separators lies an empty piece. -/
def splitOn (p : Char → Bool) : List Char → List (List Char)
  | [] => [[]]
  | c :: cs =>
    match splitOn p cs with
    | [] => [[c]]
    | w :: ws => if p c then [] :: w :: ws else (c :: w) :: ws

/-- `s.split()`: the maximal runs without whitespace. -/
def split (s : List Char) : List (List Char) := (splitOn isSpace s).filter fun w => w ≠ []

/-- A line boundary of `str.splitlines()` other than the pair `\r\n`. -/
def isLineBreak (c : Char) : Bool :=
  [(10, 13), (0x1c, 0x1e), (0x85, 0x85), (0x2028, 0x2029)].any fun r =>
    r.1 ≤ c.toNat && c.toNat ≤ r.2

/-- `s.splitlines()`, with the line read so far in `line`. -/
def splitlinesAux (line : List Char) : List Char → List (List Char)
  | [] => if line = [] then [] else [line]
  | '\r' :: '\n' :: cs => line :: splitlinesAux [] cs
  | c :: cs => if isLineBreak c then line :: splitlinesAux [] cs else splitlinesAux (line ++ [c]) cs

/-- `s.splitlines()`. -/
def splitlines (s : List Char) : List (List Char) := splitlinesAux [] s

/-! ## `int(s, 16)` -/

/-- The value of a base 16 digit. -/
def hexDigit (c : Char) : Option ℕ :=
  match decimal c with
  | some n => some n
  | none =>
    if 'a' ≤ c ∧ c ≤ 'f' then some (c.toNat - 'a'.toNat + 10)
    else if 'A' ≤ c ∧ c ≤ 'F' then some (c.toNat - 'A'.toNat + 10)
    else none

/-- Digits with single underscores between them; `gap` says that an underscore
    may not come next. -/
def hexDigits (acc : ℕ) (gap : Bool) : List Char → Option ℕ
  | [] => if gap then none else some acc
  | c :: cs =>
    if c = '_' then if gap then none else hexDigits acc true cs
    else
      match hexDigit c with
      | none => none
      | some d => hexDigits (16 * acc + d) false cs

/-- The part after the sign: an optional `0x`, after which one underscore may
    stand, and at least one digit. -/
def hexBody : List Char → Option ℕ
  | '0' :: 'x' :: '_' :: cs => hexDigits 0 true cs
  | '0' :: 'X' :: '_' :: cs => hexDigits 0 true cs
  | '0' :: 'x' :: cs => hexDigits 0 true cs
  | '0' :: 'X' :: cs => hexDigits 0 true cs
  | cs => hexDigits 0 true cs

/-- `int(s, 16)`; `none` is `ValueError`. -/
def intHex (s : String) : Option ℤ :=
  match strip s.toList with
  | '-' :: cs => (hexBody cs).map fun n => -(n : ℤ)
  | '+' :: cs => (hexBody cs).map fun n => (n : ℤ)
  | cs => (hexBody cs).map fun n => (n : ℤ)

example : intHex "2a1" = some 673 ∧ intHex "0:ffffffffffffffff:0" = none := by decide +kernel

/-- A digit of base 16 in ASCII. -/
def isHexDigit (c : Char) : Bool := "0123456789abcdefABCDEF".toList.contains c

/-- The number written by digits of base 16 and nothing else. -/
def hexNumber (s : List Char) : Option ℕ :=
  if s ≠ [] ∧ s.all isHexDigit = true then
    some (s.foldl (fun n c => 16 * n + (hexDigit c).getD 0) 0)
  else none

/-- What else `int(s, 16)` looks for is no such digit. -/
theorem hexDigit_spec {c : Char} (h : isHexDigit c = true) :
    (hexDigit c).isSome = true ∧ isSpace c = false ∧ c ∉ ['_', '-', '+', 'x', 'X'] := by
  have hall : ∀ c ∈ "0123456789abcdefABCDEF".toList,
      (hexDigit c).isSome = true ∧ isSpace c = false ∧ c ∉ ['_', '-', '+', 'x', 'X'] := by
    decide +kernel
  exact hall c (List.contains_iff_mem.mp h)

theorem hexDigits_eq {cs : List Char} (h : cs.all isHexDigit = true) {gap : Bool}
    (hgap : gap = true → cs ≠ []) (acc : ℕ) :
    hexDigits acc gap cs = some (cs.foldl (fun n c => 16 * n + (hexDigit c).getD 0) acc) := by
  induction cs generalizing acc gap with
  | nil =>
    cases gap with
    | false => rfl
    | true => exact absurd rfl (hgap rfl)
  | cons c cs ih =>
    rw [List.all_cons, Bool.and_eq_true] at h
    obtain ⟨hsome, -, hother⟩ := hexDigit_spec h.1
    obtain ⟨d, hd⟩ := Option.isSome_iff_exists.mp hsome
    rw [hexDigits, if_neg fun h => hother (by simp [h]), List.foldl_cons, hd]
    exact ih h.2 (fun h => absurd h Bool.false_ne_true) _

/-- Digits have no prefix. -/
theorem hexBody_eq {cs : List Char} (h : cs.all isHexDigit = true) (hne : cs ≠ []) :
    hexBody cs = some (cs.foldl (fun n c => 16 * n + (hexDigit c).getD 0) 0) := by
  have hno : ∀ x ∈ ['x', 'X'], x ∉ cs := by
    intro x hx hm
    obtain ⟨-, -, hother⟩ := hexDigit_spec (List.all_eq_true.mp h x hm)
    exact hother (by simp only [List.mem_cons] at hx ⊢; tauto)
  unfold hexBody
  split
  · exact absurd (by simp) (hno 'x' (by simp))
  · exact absurd (by simp) (hno 'X' (by simp))
  · exact absurd (by simp) (hno 'x' (by simp))
  · exact absurd (by simp) (hno 'X' (by simp))
  · exact hexDigits_eq h (fun _ => hne) 0

/-- **Plain digits are read.** -/
theorem intHex_hexNumber {s : String} {n : ℕ} (h : hexNumber s.toList = some n) :
    intHex s = some (n : ℤ) := by
  unfold hexNumber at h
  split_ifs at h with hs
  obtain ⟨hne, hall⟩ := hs
  have hspec := fun c hc => hexDigit_spec (List.all_eq_true.mp hall c hc)
  have hstrip : strip s.toList = s.toList := by
    have hdrop : ∀ {cs : List Char}, (∀ c ∈ cs, isSpace c = false) → cs.dropWhile isSpace = cs := by
      intro cs hcs
      cases cs with
      | nil => rfl
      | cons c cs => exact List.dropWhile_cons_of_neg (by simp [hcs c List.mem_cons_self])
    rw [strip, hdrop fun c hc => (hspec c hc).2.1,
      hdrop fun c hc => (hspec c (List.mem_reverse.mp hc)).2.1, List.reverse_reverse]
  have hbody := (hexBody_eq hall hne).trans h
  unfold intHex
  rw [hstrip]
  split
  · rename_i heq
    exact absurd (by simp) (hspec '-' (by simp [heq])).2.2
  · rename_i heq
    exact absurd (by simp) (hspec '+' (by simp [heq])).2.2
  · rw [hbody]
    rfl

/-- A character `int(s, 16)` reads behind the white space. -/
def InHex (c : Char) : Prop := c ∈ ['-', '+', '_', 'x', 'X'] ∨ (hexDigit c).isSome = true

instance (c : Char) : Decidable (InHex c) := by unfold InHex; infer_instance

theorem hexDigits_mem {cs : List Char} {acc n : ℕ} {gap : Bool}
    (h : hexDigits acc gap cs = some n) : ∀ c ∈ cs, InHex c := by
  induction cs generalizing acc gap with
  | nil => exact fun c hc => absurd hc List.not_mem_nil
  | cons c cs ih =>
    rw [hexDigits] at h
    refine List.forall_mem_cons.mpr ?_
    split_ifs at h with hc hgap
    · exact ⟨.inl (by simp [hc]), ih h⟩
    · cases hd : hexDigit c with
      | none => rw [hd] at h; cases h
      | some d =>
        rw [hd] at h
        exact ⟨.inr (by rw [hd]; rfl), ih h⟩

theorem hexBody_mem {cs : List Char} {n : ℕ} (h : hexBody cs = some n) : ∀ c ∈ cs, InHex c := by
  have hlit : InHex '0' ∧ InHex 'x' ∧ InHex 'X' ∧ InHex '_' := by decide
  obtain ⟨h0, hx, hX, hu⟩ := hlit
  unfold hexBody at h
  split at h
  · simp only [List.forall_mem_cons]
    exact ⟨h0, hx, hu, hexDigits_mem h⟩
  · simp only [List.forall_mem_cons]
    exact ⟨h0, hX, hu, hexDigits_mem h⟩
  · simp only [List.forall_mem_cons]
    exact ⟨h0, hx, hexDigits_mem h⟩
  · simp only [List.forall_mem_cons]
    exact ⟨h0, hX, hexDigits_mem h⟩
  · exact hexDigits_mem h

theorem mem_strip {s : List Char} {c : Char} (h : c ∈ s) : isSpace c = true ∨ c ∈ strip s := by
  have hdrop : ∀ {s : List Char}, c ∈ s → isSpace c = true ∨ c ∈ s.dropWhile isSpace := by
    intro s hs
    rw [← List.takeWhile_append_dropWhile (p := isSpace) (l := s), List.mem_append] at hs
    exact hs.imp_left List.mem_takeWhile_imp
  rcases hdrop h with h | h
  · exact .inl h
  · exact (hdrop (List.mem_reverse.mpr h)).imp_right List.mem_reverse.mpr

/-- **What is read as a number has no foreign characters.** -/
theorem intHex_mem {s : String} {z : ℤ} (h : intHex s = some z) {c : Char} (hc : c ∈ s.toList) :
    isSpace c = true ∨ InHex c := by
  refine (mem_strip hc).imp_right fun hc => ?_
  have hsign : InHex '-' ∧ InHex '+' := by decide
  unfold intHex at h
  split at h
  · rename_i heq
    obtain ⟨_, hmap, -⟩ := Option.map_eq_some_iff.mp h
    obtain ⟨n, hn, -⟩ := Option.bind_eq_some_iff.mp hmap
    rw [heq] at hc
    exact List.forall_mem_cons.mpr ⟨hsign.1, hexBody_mem hn⟩ c hc
  · rename_i heq
    obtain ⟨_, hmap, -⟩ := Option.map_eq_some_iff.mp h
    obtain ⟨n, hn, -⟩ := Option.bind_eq_some_iff.mp hmap
    rw [heq] at hc
    exact List.forall_mem_cons.mpr ⟨hsign.2, hexBody_mem hn⟩ c hc
  · obtain ⟨_, hmap, -⟩ := Option.map_eq_some_iff.mp h
    obtain ⟨n, hn, -⟩ := Option.bind_eq_some_iff.mp hmap
    exact hexBody_mem hn c hc

/-! ## Lines and words read back -/

open Decimal (digits isDigit_of_mem_digits)

theorem splitlinesAux_cons {line cs : List Char} {c : Char} (h : isLineBreak c = false) :
    splitlinesAux line (c :: cs) = splitlinesAux (line ++ [c]) cs := by
  have hr : c ≠ '\r' := by
    rintro rfl
    exact absurd h (by decide)
  cases cs with
  | nil => simp [splitlinesAux, h]
  | cons d cs => simp [splitlinesAux, hr, h]

theorem splitlinesAux_line {acc l rest : List Char} (h : ∀ c ∈ l, isLineBreak c = false) :
    splitlinesAux acc (l ++ '\n' :: rest) = (acc ++ l) :: splitlinesAux [] rest := by
  induction l generalizing acc with
  | nil =>
    have hn : isLineBreak '\n' = true := by decide
    simp [splitlinesAux, hn]
  | cons c l ih =>
    rw [List.forall_mem_cons] at h
    rw [List.cons_append, splitlinesAux_cons h.1, ih h.2]
    simp

/-- **Lines are read back.** -/
theorem splitlines_flatMap {ls : List (List Char)} (h : ∀ l ∈ ls, ∀ c ∈ l, isLineBreak c = false) :
    splitlines (ls.flatMap (· ++ ['\n'])) = ls := by
  unfold splitlines
  induction ls with
  | nil => rfl
  | cons l ls ih =>
    rw [List.forall_mem_cons] at h
    rw [List.flatMap_cons, List.append_assoc, List.singleton_append, splitlinesAux_line h.1, ih h.2,
      List.nil_append]

theorem splitOn_ne_nil (p : Char → Bool) (s : List Char) : splitOn p s ≠ [] := by
  cases s with
  | nil => exact List.cons_ne_nil _ _
  | cons c s =>
    rw [splitOn]
    split
    · exact List.cons_ne_nil _ _
    · split_ifs <;> exact List.cons_ne_nil _ _

theorem splitOn_append {p : Char → Bool} {w : List Char} (hw : ∀ c ∈ w, p c = false)
    {s v : List Char} {vs : List (List Char)} (hs : splitOn p s = v :: vs) :
    splitOn p (w ++ s) = (w ++ v) :: vs := by
  induction w with
  | nil => exact hs
  | cons c w ih =>
    rw [List.forall_mem_cons] at hw
    rw [List.cons_append, splitOn, ih hw.2]
    simp [hw.1]

/-- **Words are read back.** -/
theorem split_intercalate {ws : List (List Char)}
    (h : ∀ w ∈ ws, w ≠ [] ∧ ∀ c ∈ w, isSpace c = false) :
    split ([' '].intercalate ws) = ws := by
  unfold split
  induction ws with
  | nil => rfl
  | cons w ws ih =>
    rw [List.forall_mem_cons] at h
    cases ws with
    | nil =>
      have hw : splitOn isSpace (w ++ []) = [w ++ []] := splitOn_append h.1.2 rfl
      rw [List.append_nil] at hw
      rw [List.intercalate_singleton, hw]
      simp [h.1.1]
    | cons w' ws =>
      obtain ⟨v, vs, hv⟩ := List.exists_cons_of_ne_nil
        (splitOn_ne_nil isSpace ([' '].intercalate (w' :: ws)))
      have hblank : splitOn isSpace (' ' :: [' '].intercalate (w' :: ws)) = [] :: v :: vs := by
        rw [splitOn, hv]
        rfl
      have hcut := splitOn_append h.1.2 hblank
      have hrest := ih h.2
      rw [hv] at hrest
      rw [List.intercalate_cons_cons, List.append_assoc, List.singleton_append, hcut,
        List.append_nil, List.filter_cons_of_pos (by simpa using h.1.1), hrest]

/-- A text that `strip` leaves alone neither starts nor ends with white space. -/
theorem head_last_of_strip {s : List Char} (h : strip s = s) :
    (∀ c ∈ s.head?, isSpace c = false) ∧ ∀ c ∈ s.getLast?, isSpace c = false := by
  have hlen : (strip s).length ≤ (s.dropWhile isSpace).length := by
    rw [strip, List.length_reverse]
    exact (List.dropWhile_suffix _).length_le.trans_eq List.length_reverse
  have hfront : s.dropWhile isSpace = s :=
    (List.dropWhile_suffix _).eq_of_length_le (by rw [h] at hlen; exact hlen)
  have hback : s.reverse.dropWhile isSpace = s.reverse := by
    rw [strip, hfront] at h
    rw [← List.reverse_reverse (s.reverse.dropWhile isSpace), h]
  have hdrop : ∀ {s : List Char}, s.dropWhile isSpace = s → ∀ c ∈ s.head?, isSpace c = false := by
    intro s hs c hc
    obtain ⟨t, rfl⟩ := List.head?_eq_some_iff.mp hc
    by_contra hne
    rw [List.dropWhile_cons_of_pos (by simpa using hne)] at hs
    have := (List.dropWhile_suffix (p := isSpace) (l := t)).length_le
    rw [hs, List.length_cons] at this
    omega
  exact ⟨hdrop hfront, by rw [← List.head?_reverse]; exact hdrop hback⟩

theorem isSpace_of_isLineBreak {c : Char} (h : isLineBreak c = true) : isSpace c = true := by
  simp only [isLineBreak, List.any_cons, List.any_nil, Bool.or_false, Bool.or_eq_true,
    Bool.and_eq_true, decide_eq_true_eq] at h
  simp only [isSpace, spaceRanges, List.any_cons, List.any_nil, Bool.or_false, Bool.or_eq_true,
    Bool.and_eq_true, decide_eq_true_eq]
  omega

/-- White space is no digit. -/
theorem decimal_space {c : Char} (h : isSpace c = true) : decimal c = none := by
  obtain ⟨r, hr, hc⟩ := List.any_eq_true.mp h
  simp only [Bool.and_eq_true, decide_eq_true_eq] at hc
  have hfar : ∀ r ∈ spaceRanges, (r.2 < '0'.toNat ∨ '9'.toNat < r.1) ∧
      ∀ z ∈ decimalZeros, r.2 < z ∨ z + 10 ≤ r.1 := by decide +kernel
  obtain ⟨hascii, hzeros⟩ := hfar r hr
  unfold decimal
  split_ifs with h1 h2
  · omega
  · rfl
  · rw [Option.map_eq_none_iff, List.find?_eq_none]
    intro z hz
    have := hzeros z hz
    simp only [Bool.and_eq_true, decide_eq_true_eq]
    omega

theorem isDecimal_digit {c : Char} (h : c.isDigit = true) :
    decimal c = some (c.toNat - '0'.toNat) := by
  have hd := Char.isDigit_iff_toNat.mp h
  have h9 : '9'.toNat = 57 := rfl
  unfold decimal
  rw [if_pos (by omega), if_pos hd]

/-- **Numbers are read back.** -/
theorem intDecimal_digits (n : ℕ) : intDecimal (digits n) = n := by
  have h : intDecimal (digits n) = Nat.ofDigitChars 10 (digits n) 0 := by
    unfold intDecimal Nat.ofDigitChars
    refine List.foldl_ext _ _ _ fun v c hc => ?_
    rw [isDecimal_digit (isDigit_of_mem_digits hc)]
    rfl
  rw [h]
  simp

end PyStr
