import Zhaxx.Lib.Regex
import Zhaxx.Scan.Dump

/-!
# Parsing a zdb dump

Models of the regular expressions and of `parse_obj_dump`
(`scan/zhaxx-scan` lines 73–120).

Two Unicode corners differ from Python's. `w.isdigit()` (line 110) also accepts
superscript and circled digits, on which `int(w)` then raises; here they are no
digits. And `\b` (line 78) asks whether a character is alphanumeric, for which
outside ASCII every non-whitespace character is taken.

Results:
* `parseObjDump_nil`: the empty text, which `DumpDirSource` parses for a file
  that does not exist, is a missing object.
* `foldl_parseLine_missing`: so is a text without a data row for the object.
-/

namespace Zhaxx.Scan

open Regex (Item matchItems)

/-! ## The patterns -/

/-- `\s`. -/
def space : Char → Bool := PyStr.isSpace

/-- `\S`. -/
def nonSpace (c : Char) : Bool := !PyStr.isSpace c

/-- `\d`. -/
def digit : Char → Bool := PyStr.isDecimal

/-- `.` within one line. -/
def dot (_ : Char) : Bool := true

/-- `OBJ_HEADER_RE` (lines 73–74). -/
def objHeaderRe : List Item :=
  [.plus space, .plus digit, .plus space, .plus digit, .plus space, .plus nonSpace, .plus space,
    .plus nonSpace, .plus space, .plus nonSpace, .plus space, .plus nonSpace, .plus space,
    .plus nonSpace, .plus space, .plus fun c => digit c || c == '.', .plus space, .lazyPlus dot,
    .star space]

/-- Groups 1 and 2 of `OBJ_HEADER_RE.match(line)`. -/
def matchObjHeader (line : List Char) : Option (List Char × List Char) :=
  (matchItems Regex.atEnd objHeaderRe line).map fun ps => (ps.getD 1 [], ps.getD 17 [])

/-- `BONUS_RE` (line 75). -/
def bonusRe : List Item :=
  .plus space :: .plus digit :: .plus space :: ("bonus".toList.map fun c => .one (· == c)) ++
    [.plus space, .lazyPlus dot, .star space]

/-- `KV_RE` (line 76). -/
def kvRe : List Item :=
  [.one (· == '\t'), .one (· == '\t'), .one fun c => !(PyStr.isSpace c || c == '='),
    .lazyStar fun c => c != '=', .plus space, .one (· == '='), .plus space, .lazyStar dot,
    .star space]

/-- Groups 1 and 2 of `KV_RE.match(line)`. -/
def matchKv (line : List Char) : Option (List Char × List Char) :=
  (matchItems Regex.atEnd kvRe line).map fun ps => (ps.getD 2 [] ++ ps.getD 3 [], ps.getD 7 [])

/-- A literal character under `re.IGNORECASE`, with the three characters outside
    ASCII that fold to ASCII letters. -/
def ignoreCase (l c : Char) : Bool :=
  c.toLower == l.toLower || (l.toLower == 'i' && (c == 'İ' || c == 'ı')) ||
    (l.toLower == 's' && c == 'ſ') || (l.toLower == 'k' && c.val == 0x212a)

/-- A literal text under `re.IGNORECASE`. -/
def text (s : String) : List Item := s.toList.map fun l => .one (ignoreCase l)

/-- `\b` behind a digit: no word character follows. -/
def wordEnd : List Char → Bool
  | [] => true
  | c :: _ => !(c.isAlphanum || c == '_' || (128 ≤ c.val && !PyStr.isSpace c))

/-- `ERROR_RE` (lines 77–80). -/
def errorRe : List (List Item × (List Char → Bool)) :=
  [(text "i/o error", Regex.anywhere),
    (text "input/output error", Regex.anywhere),
    (text "errno" ++ [.star space, .opt (· == '='), .star space, .one (· == '5')], wordEnd),
    (text "EIO", Regex.anywhere),
    (text "failed to read", Regex.anywhere),
    (text "error reading", Regex.anywhere),
    (text "zdb: can't", Regex.anywhere),
    (text "dmu_bonus_hold(" ++ .plus digit :: text ") failed", Regex.anywhere),
    (text "dmu_object_info(" ++ .opt (· == ')') :: text " failed", Regex.anywhere)]

/-- `ERROR_RE.search(line)`. -/
def searchError (line : List Char) : Bool := Regex.searchAny errorRe line

/-! ## `parse_obj_dump` -/

/-- `s.split(pat)[0]`. -/
def before (pat : List Char) : List Char → List Char
  | [] => []
  | c :: cs => if pat.isPrefixOf (c :: cs) then [] else c :: before pat cs

/-- The type in a header (line 92). -/
def headerType (group : List Char) : String :=
  String.ofList (PyStr.strip (before " (K=".toList group))

/-- What a `key = val` line adds (lines 106–119). -/
def ObjDump.addKv (d : ObjDump) (h : d.exists_ = true) (key val : List Char) : ObjDump :=
  let key := String.ofList key
  let words := PyStr.split val
  if 1 < words.length ∧ words.all (fun w => w.all digit) then
    { d with
      zapMulti := d.zapMulti.set key (words.map PyStr.intDecimal)
      absent := fun h' => absurd h (by rw [h']; exact Bool.false_ne_true) }
  else
    let v := words.headD []
    if v ≠ [] ∧ v.all digit then
      let iv := PyStr.intDecimal v
      { d with
        fields := d.fields.set key (.int iv)
        zap := d.zap.set key iv
        absent := fun h' => absurd h (by rw [h']; exact Bool.false_ne_true) }
    else
      { d with
        fields := d.fields.set key (.str (String.ofList val))
        absent := fun h' => absurd h (by rw [h']; exact Bool.false_ne_true) }

/-- The body of the loop over the lines (lines 88–119). The flag `in_object` is
    set together with `d.exists`, which stands for both. -/
def parseLine (obj : ℕ) (d : ObjDump) (line : List Char) : ObjDump :=
  match (matchObjHeader line).filter fun g => PyStr.intDecimal g.1 = obj with
  | some (_, type) =>
    { d with
      exists_ := true
      type := some (headerType type)
      absent := nofun }
  | none =>
    if h : d.exists_ = true then
      if (matchItems Regex.atEnd bonusRe line).isSome then d
      else if searchError line then
        { d with
          unreadable := true
          absent := fun h' => absurd h (by rw [h']; exact Bool.false_ne_true) }
      else
        match matchKv line with
        | some (key, val) => d.addKv h key val
        | none => d
    -- before the header an error sets `unreadable` to `d.exists`, which is false
    else d

/-- `parse_obj_dump(obj, text)` (lines 83–120). -/
def parseObjDump (obj : ℕ) (text : List Char) : ObjDump :=
  (PyStr.splitlines text).foldl (parseLine obj) .missing

@[simp] theorem parseObjDump_nil (obj : ℕ) : parseObjDump obj [] = .missing := rfl

/-- A data row for the object `N`. -/
def HeaderOf (N : ℕ) (line : List Char) : Prop :=
  ∃ g, matchObjHeader line = some g ∧ PyStr.intDecimal g.1 = N

theorem not_headerOf_of_none {N : ℕ} {line : List Char} (h : matchObjHeader line = none) :
    ¬ HeaderOf N line := by
  rintro ⟨g, hg, -⟩
  rw [h] at hg
  cases hg

/-- Before its data row nothing is parsed. -/
theorem parseLine_missing {N : ℕ} {line : List Char} (h : ¬ HeaderOf N line) :
    parseLine N .missing line = .missing := by
  have hnone : ((matchObjHeader line).filter fun g => PyStr.intDecimal g.1 = N) = none := by
    refine Option.filter_eq_none_iff.mpr fun g hg => ?_
    rw [decide_eq_true_eq]
    exact fun hN => h ⟨g, hg, hN⟩
  unfold parseLine
  rw [hnone]
  rfl

theorem foldl_parseLine_missing {N : ℕ} {lines : List (List Char)}
    (h : ∀ line ∈ lines, ¬ HeaderOf N line) : lines.foldl (parseLine N) .missing = .missing := by
  induction lines with
  | nil => rfl
  | cons line lines ih =>
    rw [List.forall_mem_cons] at h
    rw [List.foldl_cons, parseLine_missing h.1, ih h.2]

/-- A dump in the shape of the test fixtures. -/
example :
    (fun d : ObjDump => (d.type, d.zap.entries, d.zapMulti.entries))
      (parseObjDump 48 ("Dataset mos [META], ID 0, cr_txg 4\n\n" ++
        "    Object  lvl   iblk   dblk  dsize  dnsize  lsize   %full  type\n" ++
        "    48    1   128K    512    12K     512    512  100.00  DSL dataset (K=inherit)\n" ++
        "\t\tnum_children = 6 \n\t\tcreation_time = Mon Jan  5 \n\t\tscan = 2 1 999 \n").toList) =
      (some "DSL dataset", [("num_children", 6)], [("scan", [2, 1, 999])]) := by
  decide +kernel

end Zhaxx.Scan
