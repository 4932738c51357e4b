import Zhaxx.Lib.CText

/-!
# The plan parser of the surgeon

Models of `op_t`, `kv_u64`, `kv_str` and `parse_plan` (`surgeon/zhaxx.c` lines
59–86 and 113–267). Strings are C strings in the sense of `CText`; a number is
below `2^64`. Where parsing a line fails, the model also returns the slot of
`g_ops` as far as it had been filled.

Results:
* `accepts_of_parseOp`: what an accepted line says.
* `parsePlan_bounded`: the counted operations are at most `MAX_OPS`.
-/

namespace Zhaxx.Surgeon

/-- `MAX_OPS` (line 59). -/
def maxOps : ℕ := 64

/-- `MAX_KEY` (line 60). -/
def maxKey : ℕ := 256

/-- `MAX_TYPE` (line 61). -/
def maxType : ℕ := 128

/-- `SCAN_MAX_WORDS` (line 62). -/
def scanMaxWords : ℕ := 32

/-- `sizeof (line)` and `sizeof (op->raw)` (lines 82 and 168). -/
def lineSize : ℕ := 512

/-- `op_kind_t` (lines 64–70). -/
inductive OpKind where
  | zapSet
  | zapZero
  | zapRemove
  | bonusSet
  | free
  deriving DecidableEq, Repr

/-- `op_t` (lines 72–83). -/
structure OpT where
  kind : OpKind
  obj : ℕ
  key : List Char
  field : List Char
  type : List Char
  expect : ℕ
  hasExpect : Bool
  value : ℕ
  count : ℕ
  raw : List Char
  deriving DecidableEq

/-- The slot after `memset(op, 0, sizeof (*op))`. -/
def OpT.zero : OpT := ⟨.zapSet, 0, [], [], [], 0, false, 0, 0, []⟩

/-! ## Fields of a line -/

/-- `kv_u64(line, key, out)` (lines 113–129): the number behind `key=`. -/
def kvU64 (line : List Char) (key : String) : Option ℕ :=
  (CText.after (key.toList ++ ['=']) line).bind CText.strtoull

/-- `kv_str(line, key, out, n)` (lines 131–157): the text behind `key=`. -/
def kvStr (line : List Char) (key : String) (n : ℕ) : Option (List Char) :=
  match CText.after (key.toList ++ ['=']) line with
  | none => none
  | some ('"' :: p) => (CText.strchr '"' p).map fun e => e.1.take (n - 1)
  | some p => some ((p.takeWhile fun c => c != ' ' && c != '\t').take (n - 1))

/-! ## Lines -/

/-- The errors of `parse_plan`, each reported with its line. -/
inductive ParseError where
  | tooMany
  | missingObj
  | zapSetNeeds
  | zapZeroNeeds
  | badCount
  | zapRemoveNeeds
  | bonusSetNeeds
  | badField
  | freeNeeds
  | unknownOp (s : List Char)
  deriving DecidableEq

/-- `strncmp(s, word, strlen (word)) == 0`. -/
def startsWith (word : String) (s : List Char) : Bool := word.toList.isPrefixOf s

/-- The part of `parse_plan` for one operation (lines 184–262): the slot and the
    error, if there is one. -/
def parseOp (s : List Char) : OpT × Option ParseError :=
  let op := { OpT.zero with raw := s.take (lineSize - 1) }
  match kvU64 s "obj" with
  | none => (op, some .missingObj)
  | some obj =>
    let op := { op with
      obj := obj
      hasExpect := (kvU64 s "expect").isSome
      expect := (kvU64 s "expect").getD 0 }
    if startsWith "zap_set" s then
      let op := { op with kind := .zapSet }
      match kvStr s "key" maxKey with
      | none => (op, some .zapSetNeeds)
      | some key =>
        let op := { op with key := key }
        match kvU64 s "value" with
        | none => (op, some .zapSetNeeds)
        | some value =>
          let op := { op with value := value }
          if op.hasExpect then (op, none) else (op, some .zapSetNeeds)
    else if startsWith "zap_zero" s then
      let op := { op with kind := .zapZero }
      match kvStr s "key" maxKey with
      | none => (op, some .zapZeroNeeds)
      | some key =>
        let op := { op with key := key }
        match kvU64 s "count" with
        | none => (op, some .zapZeroNeeds)
        | some c =>
          if c = 0 ∨ scanMaxWords < c then (op, some .badCount)
          else ({ op with count := c }, none)
    else if startsWith "zap_remove" s then
      let op := { op with kind := .zapRemove }
      match kvStr s "key" maxKey with
      | none => (op, some .zapRemoveNeeds)
      | some key => ({ op with key := key }, none)
    else if startsWith "bonus_set" s then
      let op := { op with kind := .bonusSet }
      match kvStr s "field" maxKey with
      | none => (op, some .bonusSetNeeds)
      | some field =>
        let op := { op with field := field }
        match kvU64 s "value" with
        | none => (op, some .bonusSetNeeds)
        | some value =>
          let op := { op with value := value }
          if !op.hasExpect then (op, some .bonusSetNeeds)
          else if field ≠ "ds_num_children".toList then (op, some .badField)
          else (op, none)
    else if startsWith "free" s then
      let op := { op with kind := .free }
      match kvStr s "type" maxType with
      | none => (op, some .freeNeeds)
      | some type => ({ op with type := type }, none)
    else (op, some (.unknownOp s))

/-- The fields that every operation takes from its line (lines 184–194). -/
def commonFields (s : List Char) (obj : ℕ) : OpT :=
  { OpT.zero with
    obj := obj
    expect := (kvU64 s "expect").getD 0
    hasExpect := (kvU64 s "expect").isSome
    raw := s.take (lineSize - 1) }

/-- The operations that are accepted, one case for each kind. -/
inductive Accepts (s : List Char) : OpT → Prop
  | zapSet {obj value : ℕ} {key : List Char} : kvU64 s "obj" = some obj →
      startsWith "zap_set" s = true → kvStr s "key" maxKey = some key →
      kvU64 s "value" = some value → (kvU64 s "expect").isSome = true →
      Accepts s { commonFields s obj with kind := .zapSet, key := key, value := value }
  | zapZero {obj c : ℕ} {key : List Char} : kvU64 s "obj" = some obj →
      startsWith "zap_zero" s = true → kvStr s "key" maxKey = some key →
      kvU64 s "count" = some c → ¬ (c = 0 ∨ scanMaxWords < c) →
      Accepts s { commonFields s obj with kind := .zapZero, key := key, count := c }
  | zapRemove {obj : ℕ} {key : List Char} : kvU64 s "obj" = some obj →
      startsWith "zap_remove" s = true → kvStr s "key" maxKey = some key →
      Accepts s { commonFields s obj with kind := .zapRemove, key := key }
  | bonusSet {obj value : ℕ} {field : List Char} : kvU64 s "obj" = some obj →
      startsWith "bonus_set" s = true → kvStr s "field" maxKey = some field →
      kvU64 s "value" = some value → (kvU64 s "expect").isSome = true →
      field = "ds_num_children".toList →
      Accepts s { commonFields s obj with kind := .bonusSet, field := field, value := value }
  | free {obj : ℕ} {type : List Char} : kvU64 s "obj" = some obj →
      startsWith "free" s = true → kvStr s "type" maxType = some type →
      Accepts s { commonFields s obj with kind := .free, type := type }

/-- **An accepted line.** -/
theorem accepts_of_parseOp {s : List Char} {op : OpT} (h : parseOp s = (op, none)) :
    Accepts s op := by
  unfold parseOp at h
  cases hobj : kvU64 s "obj" with
  | none => simp [hobj] at h
  | some obj =>
    simp only [hobj] at h
    by_cases h1 : startsWith "zap_set" s = true
    · rw [if_pos h1] at h
      cases hkey : kvStr s "key" maxKey with
      | none => simp [hkey] at h
      | some key =>
        cases hv : kvU64 s "value" with
        | none => simp [hkey, hv] at h
        | some value =>
          simp only [hkey, hv] at h
          split_ifs at h with hexpect
          · cases h
            exact .zapSet hobj h1 hkey hv hexpect
          · cases h
    rw [if_neg h1] at h
    by_cases h2 : startsWith "zap_zero" s = true
    · rw [if_pos h2] at h
      cases hkey : kvStr s "key" maxKey with
      | none => simp [hkey] at h
      | some key =>
        cases hc : kvU64 s "count" with
        | none => simp [hkey, hc] at h
        | some c =>
          simp only [hkey, hc] at h
          split_ifs at h with hbad
          · cases h
          · cases h
            exact .zapZero hobj h2 hkey hc hbad
    rw [if_neg h2] at h
    by_cases h3 : startsWith "zap_remove" s = true
    · rw [if_pos h3] at h
      cases hkey : kvStr s "key" maxKey with
      | none => simp [hkey] at h
      | some key =>
        simp only [hkey] at h
        cases h
        exact .zapRemove hobj h3 hkey
    rw [if_neg h3] at h
    by_cases h4 : startsWith "bonus_set" s = true
    · rw [if_pos h4] at h
      cases hfield : kvStr s "field" maxKey with
      | none => simp [hfield] at h
      | some field =>
        cases hv : kvU64 s "value" with
        | none => simp [hfield, hv] at h
        | some value =>
          simp only [hfield, hv] at h
          split_ifs at h with hexpect hname
          · cases h
          · cases h
          · rw [Bool.not_eq_true', Bool.not_eq_false] at hexpect
            cases h
            exact .bonusSet hobj h4 hfield hv hexpect (not_not.mp hname)
    rw [if_neg h4] at h
    by_cases h5 : startsWith "free" s = true
    · rw [if_pos h5] at h
      cases htype : kvStr s "type" maxType with
      | none => simp [htype] at h
      | some type =>
        simp only [htype] at h
        cases h
        exact .free hobj h5 htype
    · rw [if_neg h5] at h
      cases h

/-- The line behind its leading blanks; `none` for a line that is skipped
    (lines 171–176). -/
def opText (line : List Char) : Option (List Char) :=
  match (CText.cstr line).dropWhile fun c => c == ' ' || c == '\t' with
  | [] => none
  | '#' :: _ => none
  | '\n' :: _ => none
  | s => some (s.takeWhile (· != '\n'))

/-! ## `parse_plan` -/

/-- What `parse_plan` leaves behind: `g_ops[0], …, g_ops[g_nops - 1]`, and for a
    rejected file the line, the error and the slot being filled. -/
structure Parsed where
  ops : List OpT
  rejected : Option (ℕ × ParseError × Option OpT)

/-- The loop of `parse_plan` (lines 170–264), with `lineno` lines and the
    operations `ops` behind it. -/
def parseLines (lineno : ℕ) (ops : List OpT) : List (List Char) → Parsed
  | [] => ⟨ops, none⟩
  | line :: lines =>
    match opText line with
    | none => parseLines (lineno + 1) ops lines
    | some s =>
      if maxOps ≤ ops.length then ⟨ops, some (lineno + 1, .tooMany, none)⟩
      else
        match parseOp s with
        | (op, none) => parseLines (lineno + 1) (ops ++ [op]) lines
        | (op, some e) => ⟨ops, some (lineno + 1, e, some op)⟩

/-- `parse_plan` on the content of a file (lines 159–267). -/
def parsePlan (content : List Char) : Parsed :=
  parseLines 0 [] (CText.fgetsLines (lineSize - 1) content)

/-- `parse_plan` returns 0. -/
def Parsed.accepted (p : Parsed) : Bool := p.rejected.isNone

theorem parseLines_bounded {lineno : ℕ} {ops : List OpT} {lines : List (List Char)}
    (h : ops.length ≤ maxOps) : (parseLines lineno ops lines).ops.length ≤ maxOps := by
  induction lines generalizing lineno ops with
  | nil => exact h
  | cons line lines ih =>
    rw [parseLines]
    split
    · exact ih h
    · split_ifs with hfull
      · exact h
      · split
        · apply ih
          rw [List.length_append, List.length_singleton]
          omega
        · exact h

/-- **The operation table never overflows.** -/
theorem parsePlan_bounded (content : List Char) :
    (parsePlan content).ops.length ≤ maxOps :=
  parseLines_bounded (Nat.zero_le _)

end Zhaxx.Surgeon
