import Zhaxx.Scan.Parse

/-!
# Rendered dumps

`Obj.render` (`tests/fixtures.py` lines 16–47) writes an object in the layout of
`zdb -dddd`: a banner, the column header, the data row and one line for each entry.

Results:
* `matchObjHeader_row`, `matchKv_entryLine`: what the patterns capture in a data row
  and in an entry.
* `parse_render`: parsing a rendered object gives the object back.
-/

namespace Zhaxx.Scan

open Regex
open Decimal (digits isDigit_of_mem_digits)

/-! ## `Obj.render` -/

/-- A value of a fixture: a number or a list of numbers. -/
inductive Value where
  | num (n : ℕ)
  | nums (ns : List ℕ)
  deriving DecidableEq

/-- `_fmt_val(v)` (lines 21–24). -/
def Value.text : Value → List Char
  | .num n => digits n
  | .nums ns => [' '].intercalate (ns.map digits)

/-- `class Obj` (lines 27–33). -/
structure Obj where
  obj : ℕ
  type : String
  kv : Dict String Value
  unreadable : Bool
  full : String := "100.00"

/-- The banner and the column header (lines 36–38). -/
def preamble : List (List Char) :=
  ["Dataset mos [META], ID 0, cr_txg 4, 1.00G, 1000 objects".toList, [],
    "    Object  lvl   iblk   dblk  dsize  dnsize  lsize   %full  type".toList]

/-- The columns of a data row between the object number and `%full`. -/
def middleColumns : List Char := "    1   128K    512    12K     512    512  ".toList

/-- The data row (line 17). -/
def Obj.row (o : Obj) : List Char :=
  "    ".toList ++ digits o.obj ++ middleColumns ++ o.full.toList ++ "  ".toList ++ o.type.toList

/-- A line `key = value`, with what zdb prints behind it. -/
def entryLine (key value tail : List Char) : List Char :=
  '\t' :: '\t' :: (key ++ ' ' :: '=' :: ' ' :: (value ++ tail))

/-- The lines behind the data row (lines 41–46). -/
def Obj.body (o : Obj) : List (List Char) :=
  if o.unreadable then
    ["zdb: can't open object ".toList ++ digits o.obj ++ ": Input/output error".toList]
  else o.kv.entries.map fun e => entryLine e.1.toList e.2.text [' ']

/-- `Obj.render()` (lines 35–47). -/
def Obj.render (o : Obj) : List Char :=
  ['\n'].intercalate (preamble ++ o.row :: o.body) ++ ['\n']

/-! ## Data rows -/

/-- A column of a data row, with the class its pattern asks for. -/
structure Column where
  gap : List Char
  cell : List Char
  cls : Char → Bool
  gap_ne : gap ≠ []
  gap_space : ∀ c ∈ gap, space c = true
  cell_ne : cell ≠ []
  cell_cls : ∀ c ∈ cell, cls c = true
  cls_space : ∀ c, cls c = true → space c = false

/-- The text of a column. -/
def Column.text (c : Column) : List Char := c.gap ++ c.cell

/-- The pattern of a column. -/
def Column.items (c : Column) : List Item := [.plus space, .plus c.cls]

theorem Column.head_text (c : Column) (rest : List Char) :
    ∀ a ∈ (c.text ++ rest).head?, space a = true := by
  obtain ⟨a, gap, hg⟩ := List.exists_cons_of_ne_nil c.gap_ne
  intro b hb
  rw [Column.text, hg] at hb
  cases hb
  exact c.gap_space _ (by rw [hg]; exact List.mem_cons_self)

theorem matchItems_columns {fin : List Char → Bool} {cs : List Column} {is : List Item}
    {rest : List Char} {ps : List (List Char)} (hrest : ∀ c ∈ rest.head?, space c = true)
    (h : matchItems fin is rest = some ps) :
    matchItems fin (cs.flatMap Column.items ++ is) (cs.flatMap Column.text ++ rest) =
      some (cs.flatMap (fun c => [c.gap, c.cell]) ++ ps) := by
  induction cs with
  | nil => exact h
  | cons c cs ih =>
    have hnext : ∀ a ∈ (cs.flatMap Column.text ++ rest).head?, space a = true := by
      cases cs with
      | nil => exact hrest
      | cons d cs =>
        rw [List.flatMap_cons, List.append_assoc]
        exact d.head_text _
    have hcell : ∀ a ∈ (c.cell ++ (cs.flatMap Column.text ++ rest)).head?, space a = false := by
      obtain ⟨a, cell, hc⟩ := List.exists_cons_of_ne_nil c.cell_ne
      intro b hb
      rw [hc] at hb
      cases hb
      exact c.cls_space _ (c.cell_cls _ (by rw [hc]; exact List.mem_cons_self))
    have hstop : ∀ a ∈ (cs.flatMap Column.text ++ rest).head?, c.cls a = false := by
      intro a ha
      by_contra hne
      have := c.cls_space a (by simpa using hne)
      rw [hnext a ha] at this
      cases this
    rw [List.flatMap_cons, List.flatMap_cons, List.flatMap_cons, Column.text, Column.items,
      List.append_assoc, List.append_assoc, List.append_assoc c.gap]
    exact matchItems_plus c.gap_ne c.gap_space hcell (matchItems_plus c.cell_ne c.cell_cls hstop ih)

theorem digit_space {c : Char} (h : digit c = true) : space c = false := by
  by_contra hs
  have hnone : PyStr.decimal c = none := PyStr.decimal_space (by simpa [space] using hs)
  rw [digit, PyStr.isDecimal, hnone] at h
  cases h

theorem digit_digits {n : ℕ} : ∀ c ∈ digits n, digit c = true := by
  intro c hc
  rw [digit, PyStr.isDecimal, PyStr.isDecimal_digit (isDigit_of_mem_digits hc)]
  rfl

/-- What `Obj.render` writes so that it can be read back. -/
structure Obj.Renderable (o : Obj) : Prop where
  type_ne : o.type ≠ ""
  type_trimmed : PyStr.strip o.type.toList = o.type.toList
  type_line : ∀ c ∈ o.type.toList, PyStr.isLineBreak c = false
  type_key : PyStr.contains " (K=" o.type = false
  full_ne : o.full ≠ ""
  full_cls : ∀ c ∈ o.full.toList, (digit c || c == '.') = true
  key : ∀ e ∈ o.kv.entries, e.1 ≠ "" ∧ ∀ c ∈ e.1.toList, space c = false ∧ c ≠ '='
  value : ∀ e ∈ o.kv.entries, ∀ ns, e.2 = .nums ns → 2 ≤ ns.length
  error : ∀ e ∈ o.kv.entries, searchError (entryLine e.1.toList e.2.text [' ']) = false

/-- A literal column. -/
def Column.literal (gap cell : List Char) (cls : Char → Bool)
    (cls_space : ∀ c, cls c = true → space c = false)
    (h : (gap ≠ [] ∧ gap.all space = true) ∧ cell ≠ [] ∧ cell.all cls = true) : Column where
  gap := gap
  cell := cell
  cls := cls
  gap_ne := h.1.1
  gap_space := List.all_eq_true.mp h.1.2
  cell_ne := h.2.1
  cell_cls := List.all_eq_true.mp h.2.2
  cls_space := cls_space

theorem nonSpace_space (c : Char) (h : nonSpace c = true) : space c = false := by
  simpa [nonSpace, space] using h

/-- The columns of a data row. -/
def Obj.columns (o : Obj) (h : o.Renderable) : List Column :=
  [ { gap := "    ".toList, cell := digits o.obj, cls := digit
      gap_ne := by decide, gap_space := List.all_eq_true.mp (by decide)
      cell_ne := Nat.toDigits_ne_nil, cell_cls := digit_digits, cls_space := fun _ => digit_space },
    .literal "    ".toList "1".toList digit (fun _ => digit_space) (by decide),
    .literal "   ".toList "128K".toList nonSpace nonSpace_space (by decide),
    .literal "    ".toList "512".toList nonSpace nonSpace_space (by decide),
    .literal "    ".toList "12K".toList nonSpace nonSpace_space (by decide),
    .literal "     ".toList "512".toList nonSpace nonSpace_space (by decide),
    .literal "    ".toList "512".toList nonSpace nonSpace_space (by decide),
    { gap := "  ".toList, cell := o.full.toList, cls := fun c => digit c || c == '.'
      gap_ne := by decide, gap_space := List.all_eq_true.mp (by decide)
      cell_ne := by simpa using h.full_ne, cell_cls := h.full_cls
      cls_space := fun c hc => by
        rcases Bool.or_eq_true_iff.mp hc with hc | hc
        · exact digit_space hc
        · rw [beq_iff_eq] at hc
          subst hc
          decide } ]

theorem row_eq {o : Obj} (h : o.Renderable) :
    o.row = (o.columns h).flatMap Column.text ++ ("  ".toList ++ o.type.toList) := by
  have hmiddle : middleColumns = "    ".toList ++ "1".toList ++ ("   ".toList ++ "128K".toList ++
      ("    ".toList ++ "512".toList ++ ("    ".toList ++ "12K".toList ++
      ("     ".toList ++ "512".toList ++ ("    ".toList ++ "512".toList ++ "  ".toList))))) := by
    decide
  delta Obj.row
  rw [hmiddle]
  unfold Obj.columns Column.text Column.literal
  simp only [List.flatMap_cons, List.flatMap_nil, List.append_assoc, List.append_nil]

/-- **What the header pattern captures in a data row.** -/
theorem matchObjHeader_row {o : Obj} (h : o.Renderable) :
    matchObjHeader o.row = some (digits o.obj, o.type.toList) := by
  obtain ⟨hhead, hlast⟩ := PyStr.head_last_of_strip h.type_trimmed
  have hne : o.type.toList ≠ [] := by simpa using h.type_ne
  have hlazy : matchItems atEnd [.lazyPlus dot, .star space] (o.type.toList ++ []) =
      some [o.type.toList, []] :=
    matchItems_trimmed rfl (fun _ _ => rfl) (allows_lazyPlus.mpr (List.length_pos_iff.mpr hne))
      hlast (List.forall_mem_nil _)
  rw [List.append_nil] at hlazy
  have htail : matchItems atEnd [.plus space, .lazyPlus dot, .star space]
      ("  ".toList ++ o.type.toList) = some ["  ".toList, o.type.toList, []] :=
    matchItems_plus (by decide) (List.all_eq_true.mp (by decide)) hhead hlazy
  have hblank : ∀ c ∈ ("  ".toList ++ o.type.toList).head?, space c = true := by
    rintro c ⟨⟩
    decide
  have hitems : objHeaderRe = (o.columns h).flatMap Column.items ++
      [.plus space, .lazyPlus dot, .star space] := rfl
  unfold matchObjHeader
  rw [hitems, row_eq h, matchItems_columns hblank htail]
  rfl

/-! ## Entries -/

/-- A key that `KV_RE` can capture. -/
structure EntryKey (key : List Char) : Prop where
  ne : key ≠ []
  chars : ∀ c ∈ key, space c = false ∧ c ≠ '='

/-- A value that `KV_RE` captures whole. -/
structure EntryValue (value : List Char) : Prop where
  ne : value ≠ []
  head : ∀ c ∈ value.head?, space c = false
  last : ∀ c ∈ value.getLast?, space c = false

section

variable {key value tail : List Char} (hk : EntryKey key)

include hk

theorem EntryKey.head_append (s : List Char) :
    ∀ c ∈ (key ++ s).head?, space c = false ∧ c ≠ '=' := by
  obtain ⟨a, key', h⟩ := List.exists_cons_of_ne_nil hk.ne
  rintro c hc
  rw [h] at hc
  cases hc
  exact hk.chars _ (by rw [h]; exact List.mem_cons_self)

/-- Behind a number at the beginning of an entry follows the equals sign. -/
theorem entryLine_second {fin : List Char → Bool} {j : Item} {is : List Item} (hj : 0 < j.least)
    (hcls : ∀ c, j.cls c = true → space c = false)
    (h : (matchItems fin (.plus space :: .plus digit :: .plus space :: j :: is)
      (entryLine key value tail)).isSome = true) : j.cls '=' = true := by
  have hline : entryLine key value tail =
      ['\t', '\t'] ++ (key ++ ' ' :: '=' :: ' ' :: (value ++ tail)) := rfl
  rw [hline, isSome_plus Nat.one_pos (fun _ => digit_space) (List.all_eq_true.mp (by decide))
    (fun c hc => (hk.head_append _ c hc).1)] at h
  obtain ⟨p, r, happ, hp, -, hr⟩ := isSome_cons.mp h.2
  obtain ⟨c, r, rfl, hc⟩ := head_of_isSome Nat.one_pos hr
  have hc : space c = true := hc
  obtain ⟨-, hrest⟩ := Decimal.append_cons_inj (p := fun c => !space c)
    (fun c hc => by rw [digit_space (hp c hc)]; rfl) (fun c hc => by rw [(hk.chars c hc).1]; rfl)
    (by rw [hc]; rfl) (by decide) happ
  have hblank : c :: r = [' '] ++ '=' :: ' ' :: (value ++ tail) := hrest
  rw [hblank, isSome_plus hj hcls (List.all_eq_true.mp (by decide))
    (by rintro c ⟨⟩; decide)] at hr
  obtain ⟨d, s, hs, hd⟩ := head_of_isSome hj hr.2
  cases hs
  exact hd

/-- An entry is no data row, not even one whose name is a number. -/
theorem matchObjHeader_entryLine : matchObjHeader (entryLine key value tail) = none := by
  unfold matchObjHeader
  rw [Option.map_eq_none_iff, ← Option.not_isSome_iff_eq_none]
  intro h
  have := entryLine_second hk (j := .plus digit) Nat.one_pos (fun _ => digit_space) h
  exact absurd this (by decide)

/-- An entry is no bonus line. -/
theorem matchBonus_entryLine :
    (matchItems atEnd bonusRe (entryLine key value tail)).isSome = false := by
  rw [← Bool.not_eq_true]
  intro h
  have hb : ∀ c, (c == 'b') = true → space c = false := by
    intro c hc
    rw [beq_iff_eq] at hc
    subst hc
    decide
  have := entryLine_second hk (j := .one (· == 'b')) Nat.one_pos hb h
  exact absurd this (by decide)

/-- **What the entry pattern captures.** -/
theorem matchKv_entryLine (hv : EntryValue value) (htail : ∀ c ∈ tail, space c = true) :
    matchKv (entryLine key value tail) = some (key, value) := by
  obtain ⟨a, key', hkey⟩ := List.exists_cons_of_ne_nil hk.ne
  have ha := hk.chars a (by rw [hkey]; exact List.mem_cons_self)
  have hkey' : ∀ c ∈ key', space c = false ∧ c ≠ '=' := fun c hc =>
    hk.chars c (by rw [hkey]; exact List.mem_cons_of_mem _ hc)
  have hvalue : matchItems atEnd [.lazyStar dot, .star space] (value ++ tail) =
      some [value, tail] :=
    matchItems_trimmed rfl (fun _ _ => rfl) allows_lazyStar hv.last htail
  have hhead : ∀ c ∈ (value ++ tail).head?, space c = false := by
    rw [List.head?_append_of_ne_nil _ hv.ne]
    exact hv.head
  have heq : matchItems atEnd [.plus space, .one (· == '='), .plus space, .lazyStar dot,
      .star space] ([' '] ++ ('=' :: ([' '] ++ (value ++ tail)))) =
        some [[' '], ['='], [' '], value, tail] :=
    matchItems_plus (by decide) (List.all_eq_true.mp (by decide)) (by rintro c ⟨⟩; decide)
      (matchItems_one (by decide) (matchItems_plus (by decide) (List.all_eq_true.mp (by decide))
        hhead hvalue))
  have hname : matchItems atEnd [.lazyStar fun c => c != '=', .plus space, .one (· == '='),
      .plus space, .lazyStar dot, .star space]
      (key' ++ ([' '] ++ ('=' :: ([' '] ++ (value ++ tail))))) =
        some [key', [' '], ['='], [' '], value, tail] := by
    refine matchItems_lazy rfl (fun c hc => by simpa [Item.lazyStar] using (hkey' c hc).2)
      allows_lazyStar ?_ heq
    intro p' r' happ hlt _
    rw [← Option.not_isSome_iff_eq_none]
    intro h
    -- the rest starts inside the key
    obtain ⟨c, r, rfl, hc⟩ := head_of_isSome Nat.one_pos h
    obtain ⟨u, hu, hur⟩ | ⟨u, hu, -⟩ := List.append_eq_append_iff.mp happ
    · cases u with
      | nil =>
        rw [hu, List.append_nil] at hlt
        omega
      | cons d u =>
        cases hur
        have hcs := (hkey' c (by rw [hu]; simp)).1
        have hc : space c = true := hc
        rw [hcs] at hc
        cases hc
    · rw [hu, List.length_append] at hlt
      omega
  have hline : entryLine key value tail =
      '\t' :: '\t' :: a :: (key' ++ ([' '] ++ ('=' :: ([' '] ++ (value ++ tail))))) := by
    rw [entryLine, hkey]
    rfl
  have hclass : (!(PyStr.isSpace a || a == '=')) = true := by
    have : PyStr.isSpace a = false := ha.1
    simp [this, ha.2]
  unfold matchKv kvRe
  rw [hline, matchItems_one (by decide) (matchItems_one (by decide) (matchItems_one hclass hname)),
    hkey]
  rfl

end

/-! ## Values -/

/-- The numbers of a value. -/
def Value.numbers : Value → List ℕ
  | .num n => [n]
  | .nums ns => ns

/-- The value as a single number. -/
def Value.num? : Value → Option ℕ
  | .num n => some n
  | .nums _ => none

/-- The value as a list of numbers. -/
def Value.nums? : Value → Option (List ℕ)
  | .num _ => none
  | .nums ns => some ns

theorem Value.text_eq (v : Value) : v.text = [' '].intercalate (v.numbers.map digits) := by
  cases v with
  | num n => rw [numbers, List.map_singleton, List.intercalate_singleton]; rfl
  | nums ns => rfl

theorem digits_clean (n : ℕ) : digits n ≠ [] ∧ ∀ c ∈ digits n, space c = false :=
  ⟨Nat.toDigits_ne_nil, fun c hc => digit_space (digit_digits c hc)⟩

theorem entryValue_words {w : List Char} {ws : List (List Char)}
    (h : ∀ u ∈ w :: ws, u ≠ [] ∧ ∀ c ∈ u, space c = false) :
    EntryValue ([' '].intercalate (w :: ws)) := by
  induction ws generalizing w with
  | nil =>
    obtain ⟨hne, hw⟩ := h w List.mem_cons_self
    rw [List.intercalate_singleton]
    exact ⟨hne, fun c hc => hw c (List.mem_of_mem_head? hc),
      fun c hc => hw c (List.mem_of_mem_getLast? hc)⟩
  | cons w' ws ih =>
    rw [List.forall_mem_cons] at h
    obtain ⟨hne, hw⟩ := h.1
    have hrest := ih h.2
    rw [List.intercalate_cons_cons, List.append_assoc]
    refine ⟨by simp [hne], ?_, ?_⟩
    · rw [List.head?_append_of_ne_nil _ hne]
      exact fun c hc => hw c (List.mem_of_mem_head? hc)
    · rw [List.getLast?_append_of_ne_nil _ (by simp), List.getLast?_append_of_ne_nil _ hrest.ne]
      exact hrest.last

theorem split_text (v : Value) : PyStr.split v.text = v.numbers.map digits := by
  rw [v.text_eq]
  refine PyStr.split_intercalate ?_
  rw [List.forall_mem_map]
  exact fun n _ => digits_clean n

/-- A number or at least two. -/
def Value.Plain (v : Value) : Prop := ∀ ns, v = .nums ns → 2 ≤ ns.length

theorem Value.Plain.entryValue {v : Value} (h : v.Plain) : EntryValue v.text := by
  have hcons : ∃ n ns, v.numbers = n :: ns := by
    cases v with
    | num n => exact ⟨n, [], rfl⟩
    | nums ns =>
      have := h ns rfl
      exact List.exists_cons_of_ne_nil (by rintro rfl; simp at this)
  obtain ⟨n, ns, hn⟩ := hcons
  rw [v.text_eq, hn, List.map_cons]
  refine entryValue_words ?_
  rw [← List.map_cons, List.forall_mem_map]
  exact fun n _ => digits_clean n

/-- What an entry with a number adds. -/
theorem addKv_num {d : ObjDump} (h : d.exists_ = true) (key : List Char) (n : ℕ) :
    (d.addKv h key (Value.num n).text).zap = d.zap.set (String.ofList key) n ∧
      (d.addKv h key (Value.num n).text).fields = d.fields.set (String.ofList key) (.int n) ∧
      (d.addKv h key (Value.num n).text).zapMulti = d.zapMulti := by
  have hsplit : PyStr.split (digits n) = [digits n] := split_text (.num n)
  have hall : (digits n).all digit = true := List.all_eq_true.mpr digit_digits
  unfold ObjDump.addKv Value.text
  simp [hsplit, hall, (digits_clean n).1, PyStr.intDecimal_digits]

/-- What an entry with several numbers adds. -/
theorem addKv_nums {d : ObjDump} (h : d.exists_ = true) (key : List Char) {ns : List ℕ}
    (hns : 2 ≤ ns.length) :
    (d.addKv h key (Value.nums ns).text).zapMulti = d.zapMulti.set (String.ofList key) ns ∧
      (d.addKv h key (Value.nums ns).text).fields = d.fields ∧
      (d.addKv h key (Value.nums ns).text).zap = d.zap := by
  have hsplit := split_text (.nums ns)
  have hall : (ns.map digits).all (fun w => w.all digit) = true := by
    simp only [List.all_map, List.all_eq_true]
    exact fun n _ => List.all_eq_true.mpr digit_digits
  have hwords : (ns.map digits).map PyStr.intDecimal = ns := by
    rw [List.map_map]
    exact List.map_id'' PyStr.intDecimal_digits ns
  unfold ObjDump.addKv
  simp only [hsplit, Value.numbers]
  rw [if_pos ⟨by rw [List.length_map]; omega, hall⟩]
  exact ⟨congrArg (d.zapMulti.set _) hwords, rfl, rfl⟩

/-- What an entry never changes. -/
theorem addKv_rest {d : ObjDump} (h : d.exists_ = true) (key val : List Char) :
    (d.addKv h key val).exists_ = true ∧ (d.addKv h key val).unreadable = d.unreadable ∧
      (d.addKv h key val).type = d.type := by
  unfold ObjDump.addKv
  dsimp only
  split_ifs <;> exact ⟨h, rfl, rfl⟩

/-- The step of the parser on an entry. -/
theorem parseLine_entryLine {obj : ℕ} {d : ObjDump} (h : d.exists_ = true)
    {key value tail : List Char} (hk : EntryKey key) (hv : EntryValue value)
    (htail : ∀ c ∈ tail, space c = true) (herr : searchError (entryLine key value tail) = false) :
    parseLine obj d (entryLine key value tail) = d.addKv h key value := by
  unfold parseLine
  simp only [matchObjHeader_entryLine hk, Option.filter_none, dif_pos h, matchBonus_entryLine hk,
    herr, matchKv_entryLine hk hv htail, Bool.false_eq_true, if_false]

/-! ## Parsing what was rendered -/

/-- The dump of an object whose data row was read and nothing behind it. -/
def ObjDump.header (type : String) : ObjDump :=
  { ObjDump.missing with exists_ := true, type := some type, absent := nofun }

/-- The entries with one number. -/
def singles (es : List (String × Value)) : List (String × ℕ) :=
  es.filterMap fun e => e.2.num?.map fun n => (e.1, n)

/-- The entries with several numbers. -/
def multis (es : List (String × Value)) : List (String × List ℕ) :=
  es.filterMap fun e => e.2.nums?.map fun ns => (e.1, ns)

theorem entries_set {κ ν : Type*} [DecidableEq κ] {d : Dict κ ν} {k : κ} (v : ν)
    (h : k ∉ d.entries.map Prod.fst) : (d.set k v).entries = d.entries ++ [(k, v)] := if_neg h

theorem parseLine_row {obj : ℕ} {d : ObjDump} {l g type : List Char}
    (hl : matchObjHeader l = some (g, type)) (hg : PyStr.intDecimal g = obj) :
    parseLine obj d l =
      { d with exists_ := true, type := some (headerType type), absent := nofun } := by
  have hfilter : (matchObjHeader l).filter (fun g => PyStr.intDecimal g.1 = obj) =
      some (g, type) := by
    rw [hl, Option.filter_some, if_pos (by simpa using hg)]
  unfold parseLine
  simp only [hfilter]

theorem foldl_preamble (obj : ℕ) (ls : List (List Char)) :
    (preamble ++ ls).foldl (parseLine obj) .missing = ls.foldl (parseLine obj) .missing := by
  have hrow : ∀ l ∈ preamble, matchObjHeader l = none := by decide +kernel
  rw [List.foldl_append, foldl_parseLine_missing fun l hl => not_headerOf_of_none (hrow l hl)]

theorem before_eq_self {pat s : List Char} (h : ¬ pat <:+: s) : before pat s = s := by
  induction s with
  | nil => rfl
  | cons c s ih =>
    have hpre : ¬ pat <+: c :: s := fun hp => h hp.isInfix
    rw [before, if_neg (by simpa [List.isPrefixOf_iff_prefix] using hpre),
      ih fun hp => h (hp.trans (List.suffix_cons c s).isInfix)]

theorem headerType_eq {o : Obj} (h : o.Renderable) : headerType o.type.toList = o.type := by
  have hkey : ¬ " (K=".toList <:+: o.type.toList := by
    rw [← PyStr.contains_iff, h.type_key]
    exact Bool.false_ne_true
  rw [headerType, before_eq_self hkey, h.type_trimmed, String.ofList_toList]

/-- The entries behind a data row, in any state with other keys. -/
theorem foldl_entries {obj : ℕ} {es : List (String × Value)} (hnodup : (es.map Prod.fst).Nodup)
    (hes : ∀ e ∈ es, EntryKey e.1.toList ∧ e.2.Plain ∧
      searchError (entryLine e.1.toList e.2.text [' ']) = false)
    {d : ObjDump} (hd : d.exists_ = true) (hu : d.unreadable = false)
    (hzap : ∀ k ∈ es.map Prod.fst, k ∉ d.zap.entries.map Prod.fst)
    (hmulti : ∀ k ∈ es.map Prod.fst, k ∉ d.zapMulti.entries.map Prod.fst)
    (hfields : d.fields.entries = d.zap.entries.map fun e => (e.1, .int e.2)) :
    let d' := (es.map fun e => entryLine e.1.toList e.2.text [' ']).foldl (parseLine obj) d
    d'.exists_ = true ∧ d'.unreadable = false ∧ d'.type = d.type ∧
      d'.zap.entries = d.zap.entries ++ singles es ∧
      d'.zapMulti.entries = d.zapMulti.entries ++ multis es ∧
      d'.fields.entries = d'.zap.entries.map fun e => (e.1, .int e.2) := by
  induction es generalizing d with
  | nil => simpa [singles, multis] using ⟨hd, hu, hfields⟩
  | cons e es ih =>
    obtain ⟨key, v⟩ := e
    rw [List.forall_mem_cons] at hes
    rw [List.map_cons, List.nodup_cons] at hnodup
    rw [List.map_cons, List.forall_mem_cons] at hzap hmulti
    obtain ⟨⟨hk, hplain, herr⟩, hes⟩ := hes
    have hstep : parseLine obj d (entryLine key.toList v.text [' ']) =
        d.addKv hd key.toList v.text :=
      parseLine_entryLine hd hk hplain.entryValue (by decide) herr
    obtain ⟨hd', hu', htype'⟩ := addKv_rest hd key.toList v.text
    have hnew : ∀ k ∈ es.map Prod.fst, k ≠ key := by
      rintro k hmem rfl
      exact hnodup.1 hmem
    rw [List.map_cons, List.foldl_cons, hstep]
    cases v with
    | num n =>
      obtain ⟨hz, hf, hm⟩ := addKv_num hd key.toList n
      rw [String.ofList_toList] at hz hf
      have hzes : (d.zap.set key n).entries = d.zap.entries ++ [(key, n)] := entries_set n hzap.1
      have hfes : (d.fields.set key (.int n)).entries = d.fields.entries ++ [(key, .int n)] := by
        refine entries_set _ ?_
        rw [hfields, List.map_map]
        exact hzap.1
      obtain ⟨h1, h2, h3, h4, h5, h6⟩ := ih hnodup.2 hes hd' (hu'.trans hu)
        (by
          rw [hz, hzes]
          intro k hmem
          simpa [hnew k hmem] using hzap.2 k hmem)
        (by rw [hm]; exact hmulti.2)
        (by rw [hz, hf, hzes, hfes, hfields]; simp)
      refine ⟨h1, h2, h3.trans htype', ?_, ?_, h6⟩
      · rw [h4, hz, hzes, List.append_assoc]
        rfl
      · rw [h5, hm]
        rfl
    | nums ns =>
      obtain ⟨hm, hf, hz⟩ := addKv_nums hd key.toList (hplain ns rfl)
      rw [String.ofList_toList] at hm
      have hmes : (d.zapMulti.set key ns).entries = d.zapMulti.entries ++ [(key, ns)] :=
        entries_set ns hmulti.1
      obtain ⟨h1, h2, h3, h4, h5, h6⟩ := ih hnodup.2 hes hd' (hu'.trans hu)
        (by rw [hz]; exact hzap.2)
        (by
          rw [hm, hmes]
          intro k hmem
          simpa [hnew k hmem] using hmulti.2 k hmem)
        (by rw [hz, hf, hfields])
      refine ⟨h1, h2, h3.trans htype', ?_, ?_, h6⟩
      · rw [h4, hz]
        rfl
      · rw [h5, hm, hmes, List.append_assoc]
        rfl

theorem intercalate_newline {ls : List (List Char)} (h : ls ≠ []) :
    ['\n'].intercalate ls ++ ['\n'] = ls.flatMap (· ++ ['\n']) := by
  induction ls with
  | nil => exact absurd rfl h
  | cons l ls ih =>
    cases ls with
    | nil => simp
    | cons l' ls =>
      rw [List.intercalate_cons_cons, List.append_assoc, ih (List.cons_ne_nil _ _)]
      simp

/-- A character that ends no line. -/
theorem not_isLineBreak {c : Char} (h : space c = false) : PyStr.isLineBreak c = false := by
  by_contra hb
  have hs : space c = true := PyStr.isSpace_of_isLineBreak (by simpa using hb)
  rw [h] at hs
  cases hs

/-- A line without a line break inside. -/
def Unbroken (l : List Char) : Prop := ∀ c ∈ l, PyStr.isLineBreak c = false

theorem unbroken_append {l l' : List Char} (h : Unbroken l) (h' : Unbroken l') :
    Unbroken (l ++ l') :=
  List.forall_mem_append.mpr ⟨h, h'⟩

theorem unbroken_literal {l : List Char} (h : l.all (fun c => !PyStr.isLineBreak c) = true) :
    Unbroken l := fun c hc => by simpa using List.all_eq_true.mp h c hc

theorem unbroken_digits (n : ℕ) : Unbroken (digits n) := fun c hc =>
  not_isLineBreak ((digits_clean n).2 c hc)

theorem unbroken_text (v : Value) : Unbroken v.text := by
  have hwords : ∀ ns : List ℕ, Unbroken ([' '].intercalate (ns.map digits)) := by
    intro ns
    induction ns with
    | nil => exact List.forall_mem_nil _
    | cons n ns ih =>
      cases ns with
      | nil =>
        rw [List.map_singleton, List.intercalate_singleton]
        exact unbroken_digits n
      | cons n' ns =>
        rw [List.map_cons] at ih ⊢
        rw [List.map_cons, List.intercalate_cons_cons]
        exact unbroken_append (unbroken_append (unbroken_digits n)
          (unbroken_literal (by decide))) ih
  rw [v.text_eq]
  exact hwords v.numbers

theorem unbroken_entryLine {key value tail : List Char} (hk : Unbroken key) (hv : Unbroken value)
    (ht : Unbroken tail) : Unbroken (entryLine key value tail) := by
  have hline : entryLine key value tail =
      ['\t', '\t'] ++ (key ++ ([' ', '=', ' '] ++ (value ++ tail))) := rfl
  rw [hline]
  exact unbroken_append (unbroken_literal (by decide)) (unbroken_append hk
    (unbroken_append (unbroken_literal (by decide)) (unbroken_append hv ht)))

theorem unbroken_preamble : ∀ l ∈ preamble, Unbroken l := by
  unfold Unbroken
  decide +kernel

theorem EntryKey.unbroken {key : List Char} (h : EntryKey key) : Unbroken key := fun c hc =>
  not_isLineBreak (h.chars c hc).1

namespace Obj.Renderable

variable {o : Obj} (h : o.Renderable)

include h

theorem entryKey {e : String × Value} (he : e ∈ o.kv.entries) : EntryKey e.1.toList where
  ne := by simpa using (h.key e he).1
  chars := (h.key e he).2

theorem unbroken_row : Unbroken o.row := by
  have hfull : Unbroken o.full.toList := by
    intro c hc
    rcases Bool.or_eq_true_iff.mp (h.full_cls c hc) with hd | hd
    · exact not_isLineBreak (digit_space hd)
    · rw [beq_iff_eq] at hd
      subst hd
      decide
  exact unbroken_append (unbroken_append (unbroken_append (unbroken_append (unbroken_append
    (unbroken_literal (by decide)) (unbroken_digits _)) (unbroken_literal (by decide))) hfull)
    (unbroken_literal (by decide))) h.type_line

/-- The lines of a rendered object are read back. -/
theorem splitlines_render : PyStr.splitlines o.render = preamble ++ o.row :: o.body := by
  unfold render
  rw [intercalate_newline (by simp)]
  refine PyStr.splitlines_flatMap
    (List.forall_mem_append.mpr ⟨unbroken_preamble, List.forall_mem_cons.mpr ⟨h.unbroken_row, ?_⟩⟩)
  unfold body
  split_ifs
  · rw [List.forall_mem_singleton]
    exact unbroken_append (unbroken_append (unbroken_literal (by decide +kernel))
      (unbroken_digits _))
      (unbroken_literal (by decide))
  · rw [List.forall_mem_map]
    intro e he
    exact unbroken_entryLine (h.entryKey he).unbroken (unbroken_text e.2)
      (unbroken_literal (by decide))

/-- Behind the data row the parser knows the type. -/
theorem parse_eq : parseObjDump o.obj o.render =
    o.body.foldl (parseLine o.obj) (ObjDump.header o.type) := by
  rw [parseObjDump, h.splitlines_render, foldl_preamble, List.foldl_cons,
    parseLine_row (matchObjHeader_row h) (PyStr.intDecimal_digits _), headerType_eq h]
  rfl

end Obj.Renderable

theorem searchError_iff {line : List Char} : searchError line = true ↔
    ∃ pre t, line = pre ++ t ∧ ∃ a ∈ errorRe, (matchItems a.2 a.1 t).isSome = true :=
  searchAny_iff

/-- A literal text of `ERROR_RE`. -/
theorem isSome_text {fin : List Char → Bool} {w : String} {is : List Item} {s : List Char} :
    (matchItems fin (text w ++ is) s).isSome = true ↔
      ∃ u r, s = u ++ r ∧ List.Forall₂ (fun l c => ignoreCase l c = true) w.toList u ∧
        (matchItems fin is r).isSome = true :=
  isSome_literal

/-- A line that starts with a literal text of `ERROR_RE` is an error. -/
theorem searchError_literal {w : String} (hw : (text w, anywhere) ∈ errorRe) (rest : List Char) :
    searchError (w.toList ++ rest) = true := by
  refine searchError_iff.mpr ⟨[], _, rfl, _, hw, ?_⟩
  have hself : List.Forall₂ (fun l c => ignoreCase l c = true) w.toList w.toList :=
    List.forall₂_same.mpr fun l _ => by simp [ignoreCase]
  have hend : (matchItems anywhere [] rest).isSome = true := isSome_nil.mpr rfl
  have hmatch := isSome_text.mpr ⟨w.toList, rest, rfl, hself, hend⟩
  rwa [List.append_nil] at hmatch

/-- A line that does not start with white space is neither a data row nor a bonus line. -/
theorem not_indented {c : Char} {l : List Char} (hc : space c = false) :
    matchObjHeader (c :: l) = none ∧ (matchItems atEnd bonusRe (c :: l)).isSome = false := by
  have hstart : ∀ {is}, (matchItems atEnd (.plus space :: is) (c :: l)).isSome = false := by
    intro is
    rw [← Bool.not_eq_true]
    intro h
    obtain ⟨d, r, hd, hs⟩ := head_of_isSome Nat.one_pos h
    cases hd
    have hs : space c = true := hs
    rw [hc] at hs
    cases hs
  refine ⟨?_, hstart⟩
  unfold matchObjHeader
  rw [Option.map_eq_none_iff, ← Option.not_isSome_iff_eq_none, objHeaderRe, hstart]
  exact Bool.false_ne_true

theorem ObjDump.fail_absent {d : ObjDump} (h : d.exists_ = true) : d.exists_ = false →
    true = false ∧ d.type = none ∧ d.fields = .empty ∧ d.zap = .empty ∧ d.zapMulti = .empty :=
  fun h' => absurd (h.symm.trans h') Bool.noConfusion

/-- The dump with an error in it. -/
def ObjDump.fail (d : ObjDump) (h : d.exists_ = true) : ObjDump :=
  { d with
    unreadable := true
    absent := fail_absent h }

/-- The step of the parser on an error behind the data row. -/
theorem parseLine_error {obj : ℕ} {d : ObjDump} {l : List Char} (hd : d.exists_ = true)
    (hheader : matchObjHeader l = none) (hbonus : (matchItems atEnd bonusRe l).isSome = false)
    (herr : searchError l = true) : parseLine obj d l = d.fail hd := by
  unfold parseLine ObjDump.fail
  simp only [hheader, Option.filter_none, dif_pos hd, hbonus, herr, Bool.false_eq_true, if_false,
    if_true]

/-- The line of an object that cannot be read. -/
theorem parseLine_failed {obj n : ℕ} {d : ObjDump} (hd : d.exists_ = true) :
    parseLine obj d
        ("zdb: can't open object ".toList ++ digits n ++ ": Input/output error".toList) =
      d.fail hd := by
  have hsplit : "zdb: can't open object ".toList =
      "zdb: can't".toList ++ " open object ".toList := by
    decide
  have herr : searchError
      ("zdb: can't open object ".toList ++ digits n ++ ": Input/output error".toList) = true := by
    rw [hsplit, List.append_assoc, List.append_assoc]
    exact searchError_literal (by simp [errorRe]) _
  obtain ⟨hheader, hbonus⟩ := not_indented (c := 'z')
    (l := "db: can't open object ".toList ++ digits n ++ ": Input/output error".toList) (by decide)
  have hline : "zdb: can't open object ".toList ++ digits n ++ ": Input/output error".toList =
      'z' :: ("db: can't open object ".toList ++ digits n ++ ": Input/output error".toList) := rfl
  rw [hline] at herr ⊢
  exact parseLine_error hd hheader hbonus herr

/-- **Parsing a rendered object.** -/
theorem parse_render {o : Obj} (h : o.Renderable) :
    let d := parseObjDump o.obj o.render
    d.exists_ = true ∧ d.unreadable = o.unreadable ∧ d.type = some o.type ∧
      d.zap.entries = (if o.unreadable then [] else singles o.kv.entries) ∧
      d.zapMulti.entries = (if o.unreadable then [] else multis o.kv.entries) ∧
      d.fields.entries = d.zap.entries.map fun e => (e.1, .int e.2) := by
  dsimp only
  rw [h.parse_eq]
  unfold Obj.body
  by_cases hu : o.unreadable = true
  · simp only [hu, if_true]
    rw [List.foldl_cons, parseLine_failed rfl]
    exact ⟨rfl, rfl, rfl, rfl, rfl, rfl⟩
  · have hu : o.unreadable = false := by simpa using hu
    simp only [hu, Bool.false_eq_true, if_false]
    exact foldl_entries (d := ObjDump.header o.type) o.kv.nodup
      (fun e he => ⟨h.entryKey he, h.value e he, h.error e he⟩) rfl rfl
      (fun _ _ => List.not_mem_nil) (fun _ _ => List.not_mem_nil) rfl

/-- The object directory of a pool in the middle of a scan. -/
def scannedRoot : Obj where
  obj := 1
  type := "object directory"
  kv := .ofList [("root_dataset", .num 32), ("scan", .nums [1, 2, 0]), ("48", .num 5)]
  unreadable := false

theorem scannedRoot_renderable : scannedRoot.Renderable where
  type_ne := by decide
  type_trimmed := by decide +kernel
  type_line := by decide +kernel
  type_key := by decide +kernel
  full_ne := by decide
  full_cls := by decide +kernel
  key := by decide +kernel
  value e he ns hns := by
    have hall : ∀ e ∈ scannedRoot.kv.entries,
        e.2.nums?.all (fun ns => decide (2 ≤ ns.length)) = true := by
      decide +kernel
    simpa [hns, Value.nums?] using hall e he
  error := by decide +kernel

/-- A rendered object with both kinds of entries. -/
theorem parse_render_scannedRoot :
    (parseObjDump 1 scannedRoot.render).zap.entries = [("root_dataset", 32), ("48", 5)] ∧
      (parseObjDump 1 scannedRoot.render).zapMulti.entries = [("scan", [1, 2, 0])] := by
  obtain ⟨-, -, -, hzap, hmulti, -⟩ := parse_render scannedRoot_renderable
  exact ⟨hzap.trans (by decide), hmulti.trans (by decide)⟩

end Zhaxx.Scan
