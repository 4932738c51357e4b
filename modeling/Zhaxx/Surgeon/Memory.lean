import Mathlib.Data.List.Forall2
import Zhaxx.Lib.Buffer
import Zhaxx.Surgeon.ParsePlan

/-!
# The memory of the plan parser

`parse_plan` fills a static table of `MAX_OPS` slots whose strings are arrays of fixed
size (`surgeon/zhaxx.c` lines 59–86 and 131–267). `parseTable` is the parser over this
memory: every write is one into a list of fixed length, and one behind its end makes the
result `none`.

Results:
* `parseTable_bounds`: on any file no write leaves its array, every string is terminated
  within its buffer, and the counted slots meet what their kind needs.
* `parsePlan_meets`: so do the operations of `parsePlan`, which the table stores.
-/

namespace Zhaxx.Surgeon

open Buffer (Holds)

/-! ## Requirements -/

/-- What the later passes rely on: the word buffers hold `count` words, and a setting has
    a guard. -/
structure OpT.Meets (op : OpT) : Prop where
  zapSet : op.kind = .zapSet → op.hasExpect = true
  zapZero : op.kind = .zapZero → 1 ≤ op.count ∧ op.count ≤ scanMaxWords
  bonusSet : op.kind = .bonusSet →
    op.hasExpect = true ∧ op.field = "ds_num_children".toList

/-- **An accepted line meets the requirements of its kind.** -/
theorem parseOp_meets {s : List Char} (h : (parseOp s).2 = none) : (parseOp s).1.Meets := by
  have hparse : parseOp s = ((parseOp s).1, none) := Prod.ext rfl h
  generalize (parseOp s).1 = op at hparse
  cases accepts_of_parseOp hparse with
  | zapSet _ _ _ _ hexpect => exact ⟨fun _ => hexpect, by simp, by simp⟩
  | zapZero _ _ _ _ hcount =>
    rw [not_or] at hcount
    exact ⟨by simp, fun _ => ⟨Nat.pos_of_ne_zero hcount.1, not_lt.mp hcount.2⟩, by simp⟩
  | zapRemove => exact ⟨by simp, by simp, by simp⟩
  | bonusSet _ _ _ _ hexpect hfield => exact ⟨by simp, by simp, fun _ => ⟨hexpect, hfield⟩⟩
  | free => exact ⟨by simp, by simp, by simp⟩

/-! ## Strings -/

/-- The loop of `kv_str` over an unquoted value (lines 150–153), from `out[i]` on; the end
    of the text is its NUL. -/
def copyToken (out : List Char) (n i : ℕ) : List Char → Option (List Char)
  | [] => Buffer.write out i '\x00'
  | c :: p =>
    if c ≠ ' ' ∧ c ≠ '\t' ∧ i < n - 1 then
      (Buffer.write out i c).bind fun out => copyToken out n (i + 1) p
    else Buffer.write out i '\x00'

/-- `kv_str(line, key, out, n)` (lines 131–157): its result and the buffer. -/
def kvStrInto (line : List Char) (key : String) (out : List Char) (n : ℕ) :
    Option (Bool × List Char) :=
  match CText.after (key.toList ++ ['=']) line with
  | none => some (false, out)
  | some ('"' :: p) =>
    match CText.strchr '"' p with
    | none => some (false, out)
    | some e =>
      let len := if n ≤ e.1.length then n - 1 else e.1.length
      (Buffer.copyTerminated out (e.1.take len)).map fun out => (true, out)
  | some p => (copyToken out n 0 p).map fun out => (true, out)

/-- **The loop of `kv_str`.** -/
theorem copyToken_holds {pre rest p : List Char} {n : ℕ} (hn : (pre ++ rest).length = n)
    (hpre : pre.length < n) :
    ∃ out, copyToken (pre ++ rest) n pre.length p = some out ∧ out.length = n ∧
      Holds out
        (pre ++ (p.takeWhile fun c => c != ' ' && c != '\t').take (n - 1 - pre.length)) := by
  have hroom : ∀ {pre rest : List Char}, (pre ++ rest).length = n → pre.length < n →
      0 < rest.length := by
    intro pre rest hn hpre
    rw [List.length_append] at hn
    omega
  induction p generalizing pre rest with
  | nil =>
    obtain ⟨out, hw, hlen, hh⟩ := Buffer.write_nul_holds pre (hroom hn hpre)
    exact ⟨out, hw, hlen.trans hn, by simpa using hh⟩
  | cons c p ih =>
    rw [copyToken]
    split_ifs with hc
    · obtain ⟨hspace, htab, hi⟩ := hc
      obtain ⟨y, rest, rfl⟩ := List.exists_cons_of_length_pos (hroom hn hpre)
      obtain ⟨k, hk⟩ : ∃ k, n - 1 - pre.length = k + 1 := ⟨n - 1 - pre.length - 1, by omega⟩
      have hlen : (pre ++ [c]).length = pre.length + 1 := by simp
      obtain ⟨out, hout, holen, hh⟩ := @ih (pre ++ [c]) rest (by rw [← hn]; simp) (by omega)
      refine ⟨out, ?_, holen, ?_⟩
      · rw [Buffer.write_append, Option.bind_some, ← hlen, ← hout, List.append_assoc]
        rfl
      · rw [List.takeWhile_cons_of_pos (by simp [hspace, htab]), hk, List.take_succ_cons]
        have hk' : n - 1 - (pre ++ [c]).length = k := by omega
        rwa [hk', List.append_assoc] at hh
    · obtain ⟨out, hw, hlen, hh⟩ := Buffer.write_nul_holds pre (hroom hn hpre)
      have hnone : ((c :: p).takeWhile fun c => c != ' ' && c != '\t').take (n - 1 - pre.length)
          = [] := by
        by_cases hi : pre.length < n - 1
        · rw [List.takeWhile_cons_of_neg]
          · exact List.take_nil
          · simp only [Bool.and_eq_true, bne_iff_ne]
            exact fun h => hc ⟨h.1, h.2, hi⟩
        · rw [Nat.sub_eq_zero_of_le (not_lt.mp hi), List.take_zero]
      rw [hnone, List.append_nil]
      exact ⟨out, hw, hlen.trans hn, hh⟩

section

variable {line p : List Char} {key : String} {n : ℕ}

theorem kvStr_of_quote (h : CText.after (key.toList ++ ['=']) line = some ('"' :: p)) :
    kvStr line key n = (CText.strchr '"' p).map fun e => e.1.take (n - 1) := by
  unfold kvStr
  simp only [h]

theorem kvStr_of_word (h : CText.after (key.toList ++ ['=']) line = some p)
    (hp : ∀ q, p ≠ '"' :: q) :
    kvStr line key n = some ((p.takeWhile fun c => c != ' ' && c != '\t').take (n - 1)) := by
  unfold kvStr
  rw [h]
  split
  · rename_i heq
    cases heq
  · rename_i heq
    exact absurd (Option.some.inj heq) (hp _)
  · rename_i heq
    cases heq
    rfl

theorem kvStrInto_of_word {out : List Char}
    (h : CText.after (key.toList ++ ['=']) line = some p) (hp : ∀ q, p ≠ '"' :: q) :
    kvStrInto line key out n = (copyToken out n 0 p).map fun out => (true, out) := by
  unfold kvStrInto
  rw [h]
  split
  · rename_i heq
    cases heq
  · rename_i heq
    exact absurd (Option.some.inj heq) (hp _)
  · rename_i heq
    cases heq
    rfl

end

theorem kvStrInto_none {line : List Char} {key : String} {out : List Char} {n : ℕ}
    (h : kvStr line key n = none) : kvStrInto line key out n = some (false, out) := by
  cases hafter : CText.after (key.toList ++ ['=']) line with
  | none =>
    unfold kvStrInto
    rw [hafter]
  | some p =>
    by_cases hp : ∃ q, p = '"' :: q
    · obtain ⟨q, rfl⟩ := hp
      rw [kvStr_of_quote hafter, Option.map_eq_none_iff] at h
      unfold kvStrInto
      rw [hafter]
      simp only [h]
    · rw [kvStr_of_word hafter fun q hq => hp ⟨q, hq⟩] at h
      cases h

/-- **A string that is found** is stored with its NUL. -/
theorem kvStrInto_some {line v : List Char} {key : String} {out : List Char} {n : ℕ} (hn : 0 < n)
    (hout : out.length = n) (h : kvStr line key n = some v) :
    ∃ out', kvStrInto line key out n = some (true, out') ∧ out'.length = n ∧ Holds out' v := by
  cases hafter : CText.after (key.toList ++ ['=']) line with
  | none =>
    unfold kvStr at h
    rw [hafter] at h
    cases h
  | some p =>
    by_cases hp : ∃ q, p = '"' :: q
    · obtain ⟨q, rfl⟩ := hp
      rw [kvStr_of_quote hafter] at h
      obtain ⟨e, he, rfl⟩ := Option.map_eq_some_iff.mp h
      have htake : e.1.take (if n ≤ e.1.length then n - 1 else e.1.length) =
          e.1.take (n - 1) := by
        split_ifs with hlong
        · rfl
        · rw [List.take_of_length_le le_rfl, List.take_of_length_le (by omega)]
      have hfits : (e.1.take (n - 1)).length < out.length := by
        rw [List.length_take]
        omega
      obtain ⟨out', hcopy, hlen, hh⟩ := Buffer.copyTerminated_holds hfits
      refine ⟨out', ?_, hlen.trans hout, hh⟩
      unfold kvStrInto
      rw [hafter]
      simp only [he, htake, hcopy, Option.map_some]
    · have hword : ∀ q, p ≠ '"' :: q := fun q hq => hp ⟨q, hq⟩
      rw [kvStr_of_word hafter hword] at h
      cases h
      obtain ⟨out', htoken, hlen, hh⟩ := @copyToken_holds [] out p n hout hn
      refine ⟨out', ?_, hlen, by simpa using hh⟩
      rw [kvStrInto_of_word hafter hword]
      exact congrArg (Option.map fun out => (true, out)) htoken

/-- A string of a zeroed buffer, found or not. -/
theorem kvStrInto_zeroed (line : List Char) (key : String) {n : ℕ} (hn : 0 < n) :
    ∃ out, kvStrInto line key (List.replicate n '\x00') n =
        some ((kvStr line key n).isSome, out) ∧
      out.length = n ∧ Holds out ((kvStr line key n).getD []) := by
  cases h : kvStr line key n with
  | none =>
    exact ⟨_, kvStrInto_none h, List.length_replicate, Buffer.holds_replicate hn⟩
  | some v => exact kvStrInto_some hn List.length_replicate h

/-! ## Slots -/

/-- `op_t` in memory (lines 72–83). -/
structure Slot where
  kind : OpKind
  obj : ℕ
  key : List Char
  field : List Char
  type : List Char
  expect : ℕ
  hasExpect : Bool
  value : ℕ
  count : ℤ
  raw : List Char

/-- `memset(op, 0, sizeof (*op))`. -/
def Slot.zero : Slot where
  kind := .zapSet
  obj := 0
  key := List.replicate maxKey '\x00'
  field := List.replicate maxKey '\x00'
  type := List.replicate maxType '\x00'
  expect := 0
  hasExpect := false
  value := 0
  count := 0
  raw := List.replicate lineSize '\x00'

/-- `(int)c` for a `uint64_t`. -/
def intOfU64 (c : ℕ) : ℤ := ((c + 2 ^ 31) % 2 ^ 32 : ℕ) - 2 ^ 31

/-- The part of `parse_plan` for one operation (lines 184–262) on the memory of its slot. -/
def fillSlot (s : List Char) : Option (Slot × Option ParseError) :=
  (Buffer.strncpy Slot.zero.raw s (lineSize - 1)).bind fun raw =>
  let op := { Slot.zero with raw := raw }
  match kvU64 s "obj" with
  | none => some (op, some .missingObj)
  | some obj =>
    let op := { op with
      obj := obj
      hasExpect := (kvU64 s "expect").isSome
      expect := (kvU64 s "expect").getD 0 }
    if startsWith "zap_set" s then
      let op := { op with kind := .zapSet }
      (kvStrInto s "key" op.key maxKey).bind fun r =>
      let op := { op with key := r.2 }
      if !r.1 then some (op, some .zapSetNeeds)
      else
        match kvU64 s "value" with
        | none => some (op, some .zapSetNeeds)
        | some value =>
          let op := { op with value := value }
          some (op, if op.hasExpect then none else some .zapSetNeeds)
    else if startsWith "zap_zero" s then
      let op := { op with kind := .zapZero }
      (kvStrInto s "key" op.key maxKey).bind fun r =>
      let op := { op with key := r.2 }
      if !r.1 then some (op, some .zapZeroNeeds)
      else
        match kvU64 s "count" with
        | none => some (op, some .zapZeroNeeds)
        | some c =>
          if c = 0 ∨ scanMaxWords < c then some (op, some .badCount)
          else some ({ op with count := intOfU64 c }, none)
    else if startsWith "zap_remove" s then
      let op := { op with kind := .zapRemove }
      (kvStrInto s "key" op.key maxKey).bind fun r =>
      some ({ op with key := r.2 }, if r.1 then none else some .zapRemoveNeeds)
    else if startsWith "bonus_set" s then
      let op := { op with kind := .bonusSet }
      (kvStrInto s "field" op.field maxKey).bind fun r =>
      let op := { op with field := r.2 }
      if !r.1 then some (op, some .bonusSetNeeds)
      else
        match kvU64 s "value" with
        | none => some (op, some .bonusSetNeeds)
        | some value =>
          let op := { op with value := value }
          if !op.hasExpect then some (op, some .bonusSetNeeds)
          else if CText.cstr op.field ≠ "ds_num_children".toList then some (op, some .badField)
          else some (op, none)
    else if startsWith "free" s then
      let op := { op with kind := .free }
      (kvStrInto s "type" op.type maxType).bind fun r =>
      some ({ op with type := r.2 }, if r.1 then none else some .freeNeeds)
    else some (op, some (.unknownOp s))

/-- The slot stores the operation, each string with its NUL inside its buffer. -/
structure Slot.Stores (slot : Slot) (op : OpT) : Prop where
  kind : slot.kind = op.kind
  obj : slot.obj = op.obj
  key : slot.key.length = maxKey ∧ Holds slot.key op.key
  field : slot.field.length = maxKey ∧ Holds slot.field op.field
  type : slot.type.length = maxType ∧ Holds slot.type op.type
  expect : slot.expect = op.expect
  hasExpect : slot.hasExpect = op.hasExpect
  value : slot.value = op.value
  count : slot.count = op.count
  raw : slot.raw.length = lineSize ∧ Holds slot.raw op.raw

theorem intOfU64_of_le {c : ℕ} (h : c ≤ scanMaxWords) : intOfU64 c = c := by
  unfold intOfU64
  unfold scanMaxWords at h
  omega

theorem Slot.zero_stores : Slot.zero.Stores OpT.zero where
  kind := rfl
  obj := rfl
  key := ⟨List.length_replicate, Buffer.holds_replicate (by decide)⟩
  field := ⟨List.length_replicate, Buffer.holds_replicate (by decide)⟩
  type := ⟨List.length_replicate, Buffer.holds_replicate (by decide)⟩
  expect := rfl
  hasExpect := rfl
  value := rfl
  count := rfl
  raw := ⟨List.length_replicate, Buffer.holds_replicate (by decide)⟩

/-- A string of a line has no character that the line does not have. -/
theorem mem_of_mem_kvStr {line v : List Char} {key : String} {n : ℕ} {c : Char}
    (h : kvStr line key n = some v) (hc : c ∈ v) : c ∈ line := by
  unfold kvStr at h
  split at h
  · cases h
  · rename_i p hp
    obtain ⟨e, he, rfl⟩ := Option.map_eq_some_iff.mp h
    unfold CText.strchr at he
    split_ifs at he
    cases he
    exact (CText.suffix_of_after hp).subset (List.mem_cons_of_mem _
      ((List.takeWhile_prefix _).subset (List.mem_of_mem_take hc)))
  · rename_i p _ hp
    cases h
    exact (CText.suffix_of_after hp).subset
      ((List.takeWhile_prefix _).subset (List.mem_of_mem_take hc))

/-- **One line.** No write leaves its buffer, and the slot stores what `parseOp` returns. -/
theorem fillSlot_stores {s : List Char} (hs : '\x00' ∉ s) :
    ∃ slot, fillSlot s = some (slot, (parseOp s).2) ∧ slot.Stores (parseOp s).1 := by
  obtain ⟨raw, hraw, hlen, hh⟩ :=
    Buffer.strncpy_holds (s := s) (show lineSize - 1 < lineSize by decide)
  unfold fillSlot parseOp
  rw [show Slot.zero.raw = List.replicate lineSize '\x00' from rfl, hraw, Option.bind_some]
  cases hobj : kvU64 s "obj" with
  | none => exact ⟨_, rfl, { Slot.zero_stores with raw := ⟨hlen, hh⟩ }⟩
  | some obj =>
    have hbase : ∀ kind, Slot.Stores
        ⟨kind, obj, Slot.zero.key, Slot.zero.field, Slot.zero.type, (kvU64 s "expect").getD 0,
          (kvU64 s "expect").isSome, Slot.zero.value, Slot.zero.count, raw⟩
        ⟨kind, obj, [], [], [], (kvU64 s "expect").getD 0, (kvU64 s "expect").isSome, 0, 0,
          s.take (lineSize - 1)⟩ := fun kind =>
      { Slot.zero_stores with
        raw := ⟨hlen, hh⟩, obj := rfl, expect := rfl, hasExpect := rfl, kind := rfl }
    obtain ⟨key, hkeyOut, hkey⟩ := kvStrInto_zeroed s "key" (show 0 < maxKey by decide)
    obtain ⟨field, hfieldOut, hfield⟩ := kvStrInto_zeroed s "field" (show 0 < maxKey by decide)
    obtain ⟨type, htypeOut, htype⟩ := kvStrInto_zeroed s "type" (show 0 < maxType by decide)
    have hkeyZero : Slot.zero.key = List.replicate maxKey '\x00' := rfl
    have hfieldZero : Slot.zero.field = List.replicate maxKey '\x00' := rfl
    have htypeZero : Slot.zero.type = List.replicate maxType '\x00' := rfl
    dsimp only
    by_cases h1 : startsWith "zap_set" s = true
    · rw [if_pos h1, if_pos h1, hkeyZero, hkeyOut, Option.bind_some]
      cases hstr : kvStr s "key" maxKey with
      | none => exact ⟨_, rfl, { hbase .zapSet with key := by rwa [hstr] at hkey }⟩
      | some k =>
        rw [hstr] at hkey
        simp only [Option.isSome_some, Bool.not_true, Bool.false_eq_true, if_false]
        cases kvU64 s "value" with
        | none => exact ⟨_, rfl, { hbase .zapSet with key := hkey }⟩
        | some value =>
          dsimp only
          split_ifs
          · exact ⟨_, rfl, { hbase .zapSet with key := hkey, value := rfl }⟩
          · exact ⟨_, rfl, { hbase .zapSet with key := hkey, value := rfl }⟩
    rw [if_neg h1, if_neg h1]
    by_cases h2 : startsWith "zap_zero" s = true
    · rw [if_pos h2, if_pos h2, hkeyZero, hkeyOut, Option.bind_some]
      cases hstr : kvStr s "key" maxKey with
      | none => exact ⟨_, rfl, { hbase .zapZero with key := by rwa [hstr] at hkey }⟩
      | some k =>
        rw [hstr] at hkey
        simp only [Option.isSome_some, Bool.not_true, Bool.false_eq_true, if_false]
        cases kvU64 s "count" with
        | none => exact ⟨_, rfl, { hbase .zapZero with key := hkey }⟩
        | some c =>
          dsimp only
          split_ifs with hc
          · exact ⟨_, rfl, { hbase .zapZero with key := hkey }⟩
          · rw [not_or, not_lt] at hc
            exact ⟨_, rfl, { hbase .zapZero with key := hkey, count := intOfU64_of_le hc.2 }⟩
    rw [if_neg h2, if_neg h2]
    by_cases h3 : startsWith "zap_remove" s = true
    · rw [if_pos h3, if_pos h3, hkeyZero, hkeyOut, Option.bind_some]
      cases hstr : kvStr s "key" maxKey with
      | none => exact ⟨_, rfl, { hbase .zapRemove with key := by rwa [hstr] at hkey }⟩
      | some k => exact ⟨_, rfl, { hbase .zapRemove with key := by rwa [hstr] at hkey }⟩
    rw [if_neg h3, if_neg h3]
    by_cases h4 : startsWith "bonus_set" s = true
    · rw [if_pos h4, if_pos h4, hfieldZero, hfieldOut, Option.bind_some]
      cases hstr : kvStr s "field" maxKey with
      | none => exact ⟨_, rfl, { hbase .bonusSet with field := by rwa [hstr] at hfield }⟩
      | some f =>
        rw [hstr] at hfield
        have hcstr : CText.cstr field = f :=
          hfield.2.takeWhile fun hc => hs (mem_of_mem_kvStr hstr hc)
        simp only [Option.isSome_some, Bool.not_true, Bool.false_eq_true, if_false]
        cases kvU64 s "value" with
        | none => exact ⟨_, rfl, { hbase .bonusSet with field := hfield }⟩
        | some value =>
          dsimp only
          rw [hcstr]
          split_ifs
          · exact ⟨_, rfl, { hbase .bonusSet with field := hfield, value := rfl }⟩
          · exact ⟨_, rfl, { hbase .bonusSet with field := hfield, value := rfl }⟩
          · exact ⟨_, rfl, { hbase .bonusSet with field := hfield, value := rfl }⟩
    rw [if_neg h4, if_neg h4]
    by_cases h5 : startsWith "free" s = true
    · rw [if_pos h5, if_pos h5, htypeZero, htypeOut, Option.bind_some]
      cases hstr : kvStr s "type" maxType with
      | none => exact ⟨_, rfl, { hbase .free with type := by rwa [hstr] at htype }⟩
      | some t => exact ⟨_, rfl, { hbase .free with type := by rwa [hstr] at htype }⟩
    · rw [if_neg h5, if_neg h5]
      exact ⟨_, rfl, hbase .zapSet⟩

/-! ## The table -/

/-- `g_ops` and `g_nops`. -/
structure Table where
  ops : List Slot
  nops : ℕ

/-- The static table before `parse_plan`. -/
def Table.init : Table := ⟨List.replicate maxOps Slot.zero, 0⟩

/-- The loop of `parse_plan` (lines 170–264) over the memory: the table, and for a rejected
    file the line and the error; `none` if a write leaves its array. -/
def parseTable (t : Table) (lineno : ℕ) :
    List (List Char) → Option (Table × Option (ℕ × ParseError))
  | [] => some (t, none)
  | line :: lines =>
    match opText line with
    | none => parseTable t (lineno + 1) lines
    | some s =>
      if maxOps ≤ t.nops then some (t, some (lineno + 1, .tooMany))
      else
        (fillSlot s).bind fun r => (Buffer.write t.ops t.nops r.1).bind fun ops =>
        match r.2 with
        | none => parseTable ⟨ops, t.nops + 1⟩ (lineno + 1) lines
        | some e => some (⟨ops, t.nops⟩, some (lineno + 1, e))

/-- Every string ends with a NUL inside its buffer. -/
structure Slot.Terminated (slot : Slot) : Prop where
  key : slot.key.length = maxKey ∧ '\x00' ∈ slot.key
  field : slot.field.length = maxKey ∧ '\x00' ∈ slot.field
  type : slot.type.length = maxType ∧ '\x00' ∈ slot.type
  raw : slot.raw.length = lineSize ∧ '\x00' ∈ slot.raw

/-- `OpT.Meets` for the memory of an operation. -/
structure Slot.Meets (slot : Slot) : Prop where
  zapSet : slot.kind = .zapSet → slot.hasExpect = true
  zapZero : slot.kind = .zapZero → 1 ≤ slot.count ∧ slot.count ≤ scanMaxWords
  bonusSet : slot.kind = .bonusSet →
    slot.hasExpect = true ∧ CText.cstr slot.field = "ds_num_children".toList

/-- The table lies within its bounds, with whatever its slots store. -/
structure Table.InBounds (t : Table) : Prop where
  length : t.ops.length = maxOps
  nops : t.nops ≤ maxOps
  terminated : ∀ slot ∈ t.ops, slot.Terminated
  meets : ∀ slot ∈ t.ops.take t.nops, slot.Meets

/-- The counted slots store the operations `ops`. -/
def Table.Counts (t : Table) (ops : List OpT) : Prop :=
  List.Forall₂ Slot.Stores (t.ops.take t.nops) ops

namespace Slot.Stores

variable {slot : Slot} {op : OpT} (h : slot.Stores op)

include h

theorem terminated : slot.Terminated where
  key := ⟨h.key.1, h.key.2.nul_mem⟩
  field := ⟨h.field.1, h.field.2.nul_mem⟩
  type := ⟨h.type.1, h.type.2.nul_mem⟩
  raw := ⟨h.raw.1, h.raw.2.nul_mem⟩

theorem meets (hop : op.Meets) : slot.Meets where
  zapSet hk := h.hasExpect.trans (hop.zapSet (h.kind.symm.trans hk))
  zapZero hk := by
    have := hop.zapZero (h.kind.symm.trans hk)
    rw [h.count]
    omega
  bonusSet hk := by
    obtain ⟨hexpect, hfield⟩ := hop.bonusSet (h.kind.symm.trans hk)
    exact ⟨h.hasExpect.trans hexpect, (hfield ▸ h.field.2).takeWhile (by decide)⟩

end Slot.Stores

/-- The text of a line is a C string. -/
theorem nul_not_mem_opText {line s : List Char} (h : opText line = some s) : '\x00' ∉ s := by
  have hcstr : ∀ c ∈ CText.cstr line, c ≠ '\x00' := fun c hc =>
    bne_iff_ne.mp (List.mem_takeWhile_imp (p := (· != '\x00')) hc)
  have hsub : ∀ c ∈ s, c ∈ CText.cstr line := by
    intro c hc
    unfold opText at h
    split at h
    · cases h
    · cases h
    · cases h
    · cases h
      exact (List.dropWhile_suffix _).subset ((List.takeWhile_prefix _).subset hc)
  exact fun hc => hcstr _ (hsub _ hc) rfl

namespace Table

variable {t : Table} {ops : List OpT} {slot : Slot} {op : OpT}

theorem InBounds.set (h : t.InBounds) (hs : slot.Stores op) :
    (Table.mk (t.ops.set t.nops slot) t.nops).InBounds where
  length := List.length_set.trans h.length
  nops := h.nops
  terminated s hs' :=
    (List.mem_or_eq_of_mem_set hs').elim (h.terminated s) fun he => he ▸ hs.terminated
  meets := by
    dsimp only
    rw [List.take_set_of_le le_rfl]
    exact h.meets

theorem Counts.set (h : t.Counts ops) :
    (Table.mk (t.ops.set t.nops slot) t.nops).Counts ops := by
  unfold Counts
  dsimp only
  rwa [List.take_set_of_le le_rfl]

theorem take_set_succ (hn : t.nops < t.ops.length) :
    (t.ops.set t.nops slot).take (t.nops + 1) = t.ops.take t.nops ++ [slot] := by
  rw [List.take_add_one, List.take_set_of_le le_rfl, List.getElem?_set_self hn]
  rfl

theorem InBounds.push (h : t.InBounds) (hn : t.nops < maxOps) (hs : slot.Stores op)
    (hop : op.Meets) : (Table.mk (t.ops.set t.nops slot) (t.nops + 1)).InBounds where
  length := (h.set hs).length
  nops := hn
  terminated := (h.set hs).terminated
  meets := by
    dsimp only
    rw [take_set_succ (by rw [h.length]; exact hn)]
    intro s hs'
    rcases List.mem_append.mp hs' with hs' | hs'
    · exact h.meets s hs'
    · rw [List.mem_singleton.mp hs']
      exact hs.meets hop

theorem Counts.push (h : t.Counts ops) (hn : t.nops < t.ops.length) (hs : slot.Stores op) :
    (Table.mk (t.ops.set t.nops slot) (t.nops + 1)).Counts (ops ++ [op]) := by
  unfold Counts
  dsimp only
  rw [take_set_succ hn]
  exact List.rel_append h (.cons hs .nil)

theorem Counts.length (h : t.Counts ops) (hb : t.InBounds) : ops.length = t.nops := by
  rw [← List.Forall₂.length_eq h, List.length_take, hb.length]
  exact min_eq_left hb.nops

theorem init_inBounds : Table.init.InBounds where
  length := List.length_replicate
  nops := Nat.zero_le _
  terminated s hs := by
    rw [List.eq_of_mem_replicate hs]
    exact Slot.zero_stores.terminated
  meets s hs := absurd hs List.not_mem_nil

end Table

/-- **The loop of `parse_plan`** keeps the table within its bounds, and stores what
    `parseLines` returns. -/
theorem parseTable_stores {t : Table} {lineno : ℕ} {ops : List OpT} {lines : List (List Char)}
    (hb : t.InBounds) (hc : t.Counts ops) :
    ∃ t', parseTable t lineno lines =
        some (t', (parseLines lineno ops lines).rejected.map fun r => (r.1, r.2.1)) ∧
      t'.InBounds ∧ t'.Counts (parseLines lineno ops lines).ops := by
  induction lines generalizing t lineno ops with
  | nil => exact ⟨t, rfl, hb, hc⟩
  | cons line lines ih =>
    rw [parseTable, parseLines]
    cases hs : opText line with
    | none => exact ih hb hc
    | some s =>
      dsimp only
      rw [hc.length hb]
      split_ifs with hfull
      · exact ⟨t, rfl, hb, hc⟩
      · have hn : t.nops < t.ops.length := by rw [hb.length]; exact not_le.mp hfull
        obtain ⟨slot, hslot, hstores⟩ := fillSlot_stores (nul_not_mem_opText hs)
        rw [hslot, Option.bind_some, Buffer.write_of_lt hn, Option.bind_some]
        cases hp : parseOp s with
        | mk op e =>
          rw [hp] at hstores
          cases e with
          | some e => exact ⟨_, rfl, hb.set hstores, hc.set⟩
          | none =>
            have hmeets : op.Meets := by
              have := parseOp_meets (s := s) (by rw [hp])
              rwa [hp] at this
            exact ih (hb.push (not_le.mp hfull) hstores hmeets) (hc.push hn hstores)

/-- **The memory of `parse_plan`.** On any file no write leaves its array, and the table
    stores what `parsePlan` returns. -/
theorem parseTable_bounds (content : List Char) :
    ∃ t, parseTable Table.init 0 (CText.fgetsLines (lineSize - 1) content) =
        some (t, (parsePlan content).rejected.map fun r => (r.1, r.2.1)) ∧
      t.InBounds ∧ t.Counts (parsePlan content).ops :=
  parseTable_stores Table.init_inBounds List.Forall₂.nil

theorem parseLines_meets {lineno : ℕ} {ops : List OpT} {lines : List (List Char)}
    (h : ∀ op ∈ ops, op.Meets) : ∀ op ∈ (parseLines lineno ops lines).ops, op.Meets := by
  induction lines generalizing lineno ops with
  | nil => exact h
  | cons line lines ih =>
    rw [parseLines]
    cases hs : opText line with
    | none => exact ih h
    | some s =>
      dsimp only
      split_ifs with hfull
      · exact h
      · cases hp : parseOp s with
        | mk op e =>
          cases e with
          | some e => exact h
          | none =>
            have hop : op.Meets := by
              have := parseOp_meets (s := s) (by rw [hp])
              rwa [hp] at this
            refine ih fun op' hop' => ?_
            rcases List.mem_append.mp hop' with hop' | hop'
            · exact h op' hop'
            · rw [List.mem_singleton.mp hop']
              exact hop

/-- **Every counted operation meets the requirements of its kind.** -/
theorem parsePlan_meets (content : List Char) : ∀ op ∈ (parsePlan content).ops, op.Meets :=
  parseLines_meets fun _ h => absurd h List.not_mem_nil

end Zhaxx.Surgeon
