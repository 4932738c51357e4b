import Mathlib.Data.Nat.Digits.Defs
import Zhaxx.Surgeon.ParsePlan

/-!
# Plan lines

`Order` is an operation as a plan line writes it, and `Order.line` its line: the five
shapes that `scan/zhaxx-scan` prints and `parse_plan` reads. A string is the list of
its bytes. The parser finds a field by the first occurrence of `name=` anywhere in the
line, so no key or type may bring in an equals sign of its own.

Results:
* `parseOp_line`: a line is read as its operation.
* `parsePlan_lines`: so is a file of such lines with comments between them.
-/

namespace Zhaxx

/-- A number as `strtoull` returns it: a negative one wraps. -/
def toU64 (z : ℤ) : ℕ := (z % 2 ^ 64).toNat

namespace Surgeon

open CText
open Decimal (digits isDigit_of_mem_digits)

/-! ## Orders -/

/-- An operation with the data of its plan line. -/
inductive Order where
  | zapSet (obj : ℕ) (key : List Char) (expect value : ℕ)
  | zapZero (obj : ℕ) (key : List Char) (count : ℕ)
  | zapRemove (obj : ℕ) (key : List Char) (expect : ℕ)
  | bonusSet (obj expect : ℕ) (value : ℤ)
  | free (obj : ℕ) (type : List Char)

namespace Order

/-- `obj=`. -/
def obj : Order → ℕ
  | .zapSet obj .. => obj
  | .zapZero obj .. => obj
  | .zapRemove obj .. => obj
  | .bonusSet obj .. => obj
  | .free obj .. => obj

/-- `expect=`, for the operations that carry it. -/
def expect : Order → Option ℕ
  | .zapSet _ _ e _ => some e
  | .zapZero .. => none
  | .zapRemove _ _ e => some e
  | .bonusSet _ e _ => some e
  | .free .. => none

/-- The line of an operation, without its newline. -/
def line : Order → List Char
  | .zapSet obj key e v => "zap_set obj=".toList ++ digits obj ++ " key=".toList ++ key ++
      " expect=".toList ++ digits e ++ " value=".toList ++ digits v
  | .zapZero obj key c => "zap_zero obj=".toList ++ digits obj ++ " key=".toList ++ key ++
      " count=".toList ++ digits c
  | .zapRemove obj key e => "zap_remove obj=".toList ++ digits obj ++ " key=".toList ++ key ++
      " expect=".toList ++ digits e
  | .bonusSet obj e v => "bonus_set obj=".toList ++ digits obj ++
      " field=ds_num_children expect=".toList ++ digits e ++ " value=".toList ++
      (toString v).toList
  | .free obj t => "free obj=".toList ++ digits obj ++ " type=\"".toList ++ t ++ "\"".toList

/-- The slot of `g_ops` that an operation is to fill. -/
def toOpT (o : Order) : OpT :=
  let slot := { OpT.zero with
    raw := o.line.take (lineSize - 1), obj := o.obj, hasExpect := o.expect.isSome
    expect := o.expect.getD 0 }
  match o with
  | .zapSet _ key _ value => { slot with kind := .zapSet, key := key, value := value }
  | .zapZero _ key count => { slot with kind := .zapZero, key := key, count := count }
  | .zapRemove _ key _ => { slot with kind := .zapRemove, key := key }
  | .bonusSet _ _ value => { slot with
      kind := .bonusSet, field := "ds_num_children".toList, value := toU64 value }
  | .free _ type => { slot with kind := .free, type := type }

end Order

/-- A key that `kv_str` reads back without quotes. -/
structure BareKey (key : List Char) : Prop where
  length : key.length < maxKey
  chars : ∀ c ∈ key, c ∉ [' ', '\t', '\n', '\x00', '=']
  head : key.head? ≠ some '"'

/-- A type that `kv_str` reads back between quotes. -/
structure QuotedType (type : List Char) : Prop where
  length : type.length < maxType
  chars : ∀ c ∈ type, c ∉ ['\n', '\x00', '=', '"']

/-- An operation whose line the parser can read. -/
def Order.Fits : Order → Prop
  | .zapSet obj key e v => obj < 2 ^ 64 ∧ BareKey key ∧ e < 2 ^ 64 ∧ v < 2 ^ 64
  | .zapZero obj key c => obj < 2 ^ 64 ∧ BareKey key ∧ 0 < c ∧ c ≤ scanMaxWords
  | .zapRemove obj key e => obj < 2 ^ 64 ∧ BareKey key ∧ e < 2 ^ 64
  | .bonusSet obj e v => obj < 2 ^ 64 ∧ e < 2 ^ 64 ∧ -2 ^ 64 < v ∧ v < 2 ^ 64
  | .free obj t => obj < 2 ^ 64 ∧ QuotedType t

/-! ## The line as segments -/

/-- The line of an operation, cut at its equals signs. -/
def segments : Order → List (List Char)
  | .zapSet obj key e v => ["zap_set".toList ++ " obj".toList, digits obj ++ " key".toList,
      key ++ " expect".toList, digits e ++ " value".toList, digits v]
  | .zapZero obj key c => ["zap_zero".toList ++ " obj".toList, digits obj ++ " key".toList,
      key ++ " count".toList, digits c]
  | .zapRemove obj key e => ["zap_remove".toList ++ " obj".toList, digits obj ++ " key".toList,
      key ++ " expect".toList, digits e]
  | .bonusSet obj e v => ["bonus_set".toList ++ " obj".toList, digits obj ++ " field".toList,
      "ds_num_children".toList ++ " expect".toList, digits e ++ " value".toList,
      (toString v).toList]
  | .free obj t => ["free".toList ++ " obj".toList, digits obj ++ " type".toList,
      '"' :: (t ++ ['"'])]

theorem line_eq (o : Order) : o.line = joinEq (segments o) := by
  unfold Order.line segments
  cases o <;>
    simp [joinEq, List.append_assoc]

theorem toNat_lt_of_isDigit {c : Char} (h : c.isDigit = true) : c.toNat < 128 := by
  have : c.toNat ≤ 57 := (Char.isDigit_iff_toNat.mp h).2
  omega

/-- The characters of an integer. -/
theorem mem_toString_int {v : ℤ} {c : Char} (hc : c ∈ (toString v).toList) :
    c = '-' ∨ c.isDigit = true := by
  rw [Decimal.toList_toString_int] at hc
  split_ifs at hc
  · exact .inr (isDigit_of_mem_digits hc)
  · rcases List.mem_cons.mp hc with rfl | hc
    · exact .inl rfl
    · exact .inr (isDigit_of_mem_digits hc)

/-! ## Reading a field -/

section

variable {us : List (List Char)} {u : List Char} {line : List Char} {n : ℕ}

theorem stops_blank (hu : u.head? = some ' ') : Stops (joinEq (u :: us)) := by
  intro c hc
  rw [head?_joinEq (by rintro rfl; cases hu), hu] at hc
  cases hc
  decide

theorem strtoull_field (hn : n < 2 ^ 64) (hu : u.head? = some ' ') :
    strtoull (joinEq ((digits n ++ u) :: us)) = some n := by
  rw [joinEq_append]
  exact strtoull_digits hn (stops_blank hu)

theorem strtoull_last (hn : n < 2 ^ 64) : strtoull (joinEq [digits n]) = some n := by
  have := strtoull_digits hn (show Stops [] from nofun)
  rwa [List.append_nil] at this

theorem strtoull_last_int {v : ℤ} (h1 : -2 ^ 64 < v) (h2 : v < 2 ^ 64) :
    strtoull (joinEq [(toString v).toList]) = some (toU64 v) := by
  rw [Decimal.toList_toString_int]
  split_ifs with h0
  · rw [strtoull_last (by omega), toU64, Int.emod_eq_of_lt h0 h2]
  · have := strtoull_neg_digits (n := (-v).toNat) (by omega) (show Stops [] from nofun)
    rw [List.append_nil] at this
    refine this.trans (congrArg some ?_)
    unfold toU64
    omega

theorem kvStr_bare {key : List Char} {name : String} (hkey : BareKey key)
    (ha : after (name.toList ++ ['=']) line = some (joinEq ((key ++ u) :: us)))
    (hu : u.head? = some ' ') :
    kvStr line name maxKey = some key := by
  obtain ⟨rest, hrest⟩ : ∃ rest, joinEq (u :: us) = ' ' :: rest := by
    have hhead : (joinEq (u :: us)).head? = u.head? := head?_joinEq (by rintro rfl; cases hu)
    rw [hu] at hhead
    exact List.head?_eq_some_iff.mp hhead
  have hchars : ∀ c ∈ key, (c != ' ' && c != '\t') = true := by
    intro c hc
    have h1 : c ≠ ' ' := by rintro rfl; exact hkey.chars _ hc (by decide)
    have h2 : c ≠ '\t' := by rintro rfl; exact hkey.chars _ hc (by decide)
    simp [h1, h2]
  have hquote : ∀ p, key ++ ' ' :: rest ≠ '"' :: p := by
    intro p hp
    have hhead := congrArg List.head? hp
    cases hl : key with
    | nil => rw [hl] at hhead; cases hhead
    | cons c cs =>
      rw [hl] at hhead
      exact hkey.head (by rw [hl]; exact hhead)
  rw [joinEq_append, hrest] at ha
  unfold kvStr
  rw [ha]
  split
  · rename_i heq; cases heq
  · rename_i heq
    exact absurd (Option.some.inj heq) (hquote _)
  · rename_i heq
    rw [← Option.some.inj heq, List.takeWhile_append_of_pos hchars,
      List.takeWhile_cons_of_neg (by decide), List.append_nil,
      List.take_of_length_le (Nat.le_sub_one_of_lt hkey.length)]

theorem kvStr_quoted {t : List Char} {name : String} (ht : QuotedType t)
    (ha : after (name.toList ++ ['=']) line = some ('"' :: (t ++ ['"']))) :
    kvStr line name maxType = some t := by
  have hq : '"' ∉ t := fun h => ht.chars _ h (by decide)
  unfold kvStr
  rw [ha]
  have hsplit : strchr '"' (t ++ ['"']) = some (t, ['"']) := strchr_append hq
  simp only [hsplit, Option.map_some, List.take_of_length_le (Nat.le_sub_one_of_lt ht.length)]

end

/-! ## Reading a line -/

/-- The word a plan line starts with. -/
def word : Order → String
  | .zapSet .. => "zap_set"
  | .zapZero .. => "zap_zero"
  | .zapRemove .. => "zap_remove"
  | .bonusSet .. => "bonus_set"
  | .free .. => "free"

/-- The words `parse_plan` knows. -/
def words : List String := ["zap_set", "zap_zero", "zap_remove", "bonus_set", "free"]

/-- What may not stand inside a plan line, the equals sign inside a segment. -/
def separators : List Char := ['\n', '\x00', '=']

theorem separator_not_digit {c : Char} (hc : c ∈ separators) : c.isDigit = false := by
  have hall : ∀ c ∈ separators, c.isDigit = false := by decide
  exact hall c hc

theorem not_mem_digits {c : Char} (hc : c ∈ separators) (n : ℕ) : c ∉ digits n := fun h => by
  have := isDigit_of_mem_digits h
  rw [separator_not_digit hc] at this
  cases this

theorem BareKey.not_mem {key : List Char} (h : BareKey key) {c : Char} (hc : c ∈ separators) :
    c ∉ key := by
  have hsub : ∀ c ∈ separators, c ∈ [' ', '\t', '\n', '\x00', '='] := by decide
  exact fun hm => h.chars c hm (hsub c hc)

theorem QuotedType.not_mem {t : List Char} (h : QuotedType t) {c : Char} (hc : c ∈ separators) :
    c ∉ t := by
  have hsub : ∀ c ∈ separators, c ∈ ['\n', '\x00', '=', '"'] := by decide
  exact fun hm => h.chars c hm (hsub c hc)

/-- The line of a child count holds neither a separator nor a comment sign. -/
theorem segments_bonusSet_clean {obj e : ℕ} {v : ℤ} {c : Char} (hc : c ∈ '#' :: separators) :
    ∀ u ∈ segments (.bonusSet obj e v), c ∉ u := by
  have hother : ∀ c ∈ '#' :: separators, c ≠ '-' ∧ c.isDigit = false ∧
      ∀ w ∈ ["bonus_set obj", " field", "ds_num_children expect", " value"], c ∉ w.toList := by
    decide +kernel
  obtain ⟨hminus, hdigit, hlit⟩ := hother c hc
  have hdigits : ∀ n, c ∉ digits n := fun n hm => by
    have := isDigit_of_mem_digits hm
    rw [hdigit] at this
    cases this
  simp only [segments, List.forall_mem_cons, ← String.toList_append]
  refine ⟨hlit _ (by decide), ?_, hlit _ (by decide), ?_, fun hm => ?_, List.forall_mem_nil _⟩
  · rw [List.mem_append, not_or]
    exact ⟨hdigits obj, hlit _ (by decide)⟩
  · rw [List.mem_append, not_or]
    exact ⟨hdigits e, hlit _ (by decide)⟩
  · rcases mem_toString_int hm with h | h
    · exact hminus h
    · rw [hdigit] at h
      cases h

/-- The segments of a line hold no separator. -/
theorem segments_clean {o : Order} (h : o.Fits) {c : Char} (hc : c ∈ separators) :
    ∀ u ∈ segments o, c ∉ u := by
  have happ : ∀ {a b : List Char}, c ∉ a → c ∉ b → c ∉ a ++ b := by
    intro a b ha hb hm
    exact (List.mem_append.mp hm).elim ha hb
  have hd := not_mem_digits hc
  have hlit : ∀ c ∈ separators, ∀ w ∈ words ++ [" obj", " key", " expect", " value", " count",
      " field", " type", "ds_num_children"], c ∉ w.toList :=
    by decide +kernel
  have hl : ∀ w ∈ words ++ [" obj", " key", " expect", " value", " count", " field", " type",
      "ds_num_children"], c ∉ w.toList := hlit c hc
  have hword : ∀ o, c ∉ (word o).toList := by
    intro o
    refine hl _ ?_
    cases o <;> simp [word, words]
  cases o with
  | zapSet obj key e v =>
    simp only [segments, List.forall_mem_cons]
    exact ⟨happ (hword (.zapSet obj key e v)) (hl _ (by simp)), happ (hd _) (hl _ (by simp)),
      happ (h.2.1.not_mem hc) (hl _ (by simp)), happ (hd _) (hl _ (by simp)), hd v,
      List.forall_mem_nil _⟩
  | zapZero obj key n =>
    simp only [segments, List.forall_mem_cons]
    exact ⟨happ (hword (.zapZero obj key n)) (hl _ (by simp)), happ (hd _) (hl _ (by simp)),
      happ (h.2.1.not_mem hc) (hl _ (by simp)), hd n, List.forall_mem_nil _⟩
  | zapRemove obj key e =>
    simp only [segments, List.forall_mem_cons]
    exact ⟨happ (hword (.zapRemove obj key e)) (hl _ (by simp)), happ (hd _) (hl _ (by simp)),
      happ (h.2.1.not_mem hc) (hl _ (by simp)), hd e, List.forall_mem_nil _⟩
  | bonusSet obj e v => exact segments_bonusSet_clean (List.mem_cons_of_mem _ hc)
  | free obj t =>
    simp only [segments, List.forall_mem_cons]
    refine ⟨happ (hword (.free obj t)) (hl _ (by simp)), happ (hd _) (hl _ (by simp)), ?_,
      List.forall_mem_nil _⟩
    have hq : c ∉ ['"'] := by
      rw [List.mem_singleton]
      rintro rfl
      exact absurd hc (by decide)
    rw [List.mem_cons, not_or]
    exact ⟨fun hcq => hq (by simp [hcq]), happ (h.2.not_mem hc) hq⟩

theorem line_clean {o : Order} (h : o.Fits) : '\n' ∉ o.line ∧ '\x00' ∉ o.line := by
  have hclean : ∀ c ∈ separators, c ≠ '=' → c ∉ o.line := by
    intro c hc hne
    rw [line_eq]
    exact not_mem_joinEq hne (segments_clean h hc)
  exact ⟨hclean _ (by decide) (by decide), hclean _ (by decide) (by decide)⟩

theorem length_digits {n : ℕ} (hn : n < 2 ^ 64) : (digits n).length ≤ 20 :=
  Nat.toDigits_length _ _ _ (by omega) (by omega)

theorem length_int {v : ℤ} (h1 : -2 ^ 64 < v) (h2 : v < 2 ^ 64) :
    (toString v).toList.length ≤ 21 := by
  rw [Decimal.toList_toString_int]
  split_ifs
  · exact (length_digits (by omega)).trans (by omega)
  · rw [List.length_cons]
    exact Nat.succ_le_succ (length_digits (by omega))

/-- A plan line fits into the buffer of `parse_plan`. -/
theorem line_length {o : Order} (h : o.Fits) : (o.line).length < lineSize - 1 := by
  have hbare : ∀ {k}, BareKey k → k.length < 256 := fun h => h.length
  have htype : ∀ {t}, QuotedType t → t.length < 128 := fun h => h.length
  rw [line_eq]
  cases o with
  | zapSet obj key e v =>
    have h1 := length_digits h.1
    have h2 := hbare h.2.1
    have h3 := length_digits h.2.2.1
    have h4 := length_digits h.2.2.2
    simp [segments, joinEq, lineSize]
    omega
  | zapZero obj key c =>
    have h1 := length_digits h.1
    have h2 := hbare h.2.1
    have h3 := length_digits (lt_of_le_of_lt h.2.2.2 (by decide))
    simp [segments, joinEq, lineSize]
    omega
  | zapRemove obj key e =>
    have h1 := length_digits h.1
    have h2 := hbare h.2.1
    have h3 := length_digits h.2.2
    simp [segments, joinEq, lineSize]
    omega
  | bonusSet obj e v =>
    have h1 := length_digits h.1
    have h2 := length_digits h.2.1
    have h3 := length_int h.2.2.1 h.2.2.2
    rw [segments]
    generalize (toString v).toList = value at h3 ⊢
    simp [joinEq, lineSize]
    omega
  | free obj t =>
    have h1 := length_digits h.1
    have h2 := htype h.2
    simp [segments, joinEq, lineSize]
    omega

theorem after_line {o : Order} (h : o.Fits) {w : String} (hw : '=' ∉ w.toList) :
    after (w.toList ++ ['=']) (o.line) = seek w.toList (segments o) := by
  rw [line_eq, after_joinEq hw (segments_clean h (by decide))]

theorem kvU64_line {o : Order} (h : o.Fits) {w : String} (hw : '=' ∉ w.toList) :
    kvU64 (o.line) w = (seek w.toList (segments o)).bind strtoull := by
  rw [kvU64, after_line h hw]

theorem kvU64_obj {o : Order} (h : o.Fits) : kvU64 (o.line) "obj" = some o.obj := by
  rw [kvU64_line h (by decide)]
  cases o <;> rw [segments, seek_hit (by decide)] <;> exact strtoull_field h.1 rfl

theorem word_at_start (o : Order) : (word o).toList <+: o.line := by
  rw [line_eq]
  cases o <;> rw [segments, joinEq, List.append_assoc] <;> exact List.prefix_append _ _

theorem startsWith_word (o : Order) : startsWith (word o) (o.line) = true :=
  List.isPrefixOf_iff_prefix.mpr (word_at_start o)

/-- No word is the beginning of another. -/
theorem startsWith_other (o : Order) {w : String} (hw : w ∈ words) (hne : w ≠ word o) :
    startsWith w (o.line) = false := by
  have hop : word o ∈ words := by cases o <;> simp [word, words]
  have hdistinct : ∀ a ∈ words, ∀ b ∈ words, a.toList <+: b.toList → a = b := by decide +kernel
  rw [startsWith, Bool.eq_false_iff, ne_eq, List.isPrefixOf_iff_prefix]
  intro h
  rcases List.prefix_or_prefix_of_prefix h (word_at_start o) with h | h
  · exact hne (hdistinct _ hw _ hop h)
  · exact hne (hdistinct _ hop _ hw h).symm

theorem parseOp_zapSet {obj e v : ℕ} {key : List Char} (h : (Order.zapSet obj key e v).Fits) :
    parseOp (Order.zapSet obj key e v).line = ((Order.zapSet obj key e v).toOpT, none) := by
  have hobj := kvU64_obj h
  have hword : startsWith "zap_set" _ = true := startsWith_word (.zapSet obj key e v)
  have hexpect := kvU64_line h (w := "expect") (by decide)
  rw [segments, seek_skip (by decide) (by decide), seek_skip (by decide) (by decide),
    seek_hit (by decide), Option.bind_some, strtoull_field h.2.2.1 rfl] at hexpect
  have hkey := after_line h (w := "key") (by decide)
  rw [segments, seek_skip (by decide) (by decide), seek_hit (by decide)] at hkey
  have hvalue := kvU64_line h (w := "value") (by decide)
  rw [segments, seek_skip (by decide) (by decide), seek_skip (by decide) (by decide),
    seek_skip (by decide) (by decide), seek_hit (by decide), Option.bind_some,
    strtoull_last h.2.2.2] at hvalue
  unfold parseOp
  simp only [hobj, hexpect, kvStr_bare h.2.1 hkey rfl, hvalue, hword, if_true, Option.isSome_some,
    Option.getD_some, Order.toOpT, Order.obj, Order.expect]

theorem parseOp_zapZero {obj c : ℕ} {key : List Char} (h : (Order.zapZero obj key c).Fits) :
    parseOp (Order.zapZero obj key c).line = ((Order.zapZero obj key c).toOpT, none) := by
  have hobj := kvU64_obj h
  have hset := startsWith_other (.zapZero obj key c) (w := "zap_set") (by decide) (by simp [word])
  have hword : startsWith "zap_zero" _ = true := startsWith_word (.zapZero obj key c)
  have hexpect := kvU64_line h (w := "expect") (by decide)
  rw [segments, seek_skip (by decide) (by decide), seek_skip (by decide) (by decide),
    seek_skip (by decide) (by decide), seek, Option.bind_none] at hexpect
  have hkey := after_line h (w := "key") (by decide)
  rw [segments, seek_skip (by decide) (by decide), seek_hit (by decide)] at hkey
  have hc : c < 2 ^ 64 := lt_of_le_of_lt h.2.2.2 (by decide)
  have hcount := kvU64_line h (w := "count") (by decide)
  rw [segments, seek_skip (by decide) (by decide), seek_skip (by decide) (by decide),
    seek_hit (by decide), Option.bind_some, strtoull_last hc] at hcount
  have hbound : ¬ (c = 0 ∨ scanMaxWords < c) := by
    have := h.2.2
    omega
  unfold parseOp
  simp only [hobj, hexpect, kvStr_bare h.2.1 hkey rfl, hcount, hset, hword, if_neg hbound,
    Bool.false_eq_true, if_false, if_true, Option.isSome_none, Option.getD_none, Order.toOpT,
    Order.obj, Order.expect, OpT.zero]

theorem parseOp_zapRemove {obj e : ℕ} {key : List Char} (h : (Order.zapRemove obj key e).Fits) :
    parseOp (Order.zapRemove obj key e).line = ((Order.zapRemove obj key e).toOpT, none) := by
  have hobj := kvU64_obj h
  have hset := startsWith_other (.zapRemove obj key e) (w := "zap_set") (by decide) (by simp [word])
  have hzero := startsWith_other (.zapRemove obj key e) (w := "zap_zero") (by decide)
    (by simp [word])
  have hword : startsWith "zap_remove" _ = true := startsWith_word (.zapRemove obj key e)
  have hexpect := kvU64_line h (w := "expect") (by decide)
  rw [segments, seek_skip (by decide) (by decide), seek_skip (by decide) (by decide),
    seek_hit (by decide), Option.bind_some, strtoull_last h.2.2] at hexpect
  have hkey := after_line h (w := "key") (by decide)
  rw [segments, seek_skip (by decide) (by decide), seek_hit (by decide)] at hkey
  unfold parseOp
  simp only [hobj, hexpect, kvStr_bare h.2.1 hkey rfl, hset, hzero, hword, Bool.false_eq_true,
    if_false, if_true, Option.isSome_some, Option.getD_some, Order.toOpT, Order.obj, Order.expect]

/-- The only field a `bonus_set` names is bare. -/
theorem bareKey_field : BareKey "ds_num_children".toList :=
  ⟨by decide +kernel, by decide +kernel, by decide +kernel⟩

theorem parseOp_bonusSet {obj e : ℕ} {v : ℤ} (h : (Order.bonusSet obj e v).Fits) :
    parseOp (Order.bonusSet obj e v).line = ((Order.bonusSet obj e v).toOpT, none) := by
  have hobj := kvU64_obj h
  have hset := startsWith_other (.bonusSet obj e v) (w := "zap_set") (by decide) (by simp [word])
  have hzero := startsWith_other (.bonusSet obj e v) (w := "zap_zero") (by decide) (by simp [word])
  have hremove := startsWith_other (.bonusSet obj e v) (w := "zap_remove") (by decide)
    (by simp [word])
  have hword : startsWith "bonus_set" _ = true := startsWith_word (.bonusSet obj e v)
  have hexpect := kvU64_line h (w := "expect") (by decide)
  rw [segments, seek_skip (by decide) (by decide), seek_skip (by decide) (by decide),
    seek_hit (by decide), Option.bind_some, strtoull_field h.2.1 rfl] at hexpect
  have hfield := after_line h (w := "field") (by decide)
  rw [segments, seek_skip (by decide) (by decide), seek_hit (by decide)] at hfield
  have hvalue := kvU64_line h (w := "value") (by decide)
  rw [segments, seek_skip (by decide) (by decide), seek_skip (by decide) (by decide),
    seek_skip (by decide) (by decide), seek_hit (by decide), Option.bind_some,
    strtoull_last_int h.2.2.1 h.2.2.2] at hvalue
  have hkv := kvStr_bare bareKey_field hfield rfl
  unfold parseOp
  simp only [hobj, hexpect, hkv, hvalue, hset, hzero, hremove, hword, Bool.false_eq_true,
    if_false, if_true, Option.isSome_some, Option.getD_some, Bool.not_true, ne_eq,
    not_true_eq_false, Order.toOpT, Order.obj, Order.expect]

theorem parseOp_free {obj : ℕ} {t : List Char} (h : (Order.free obj t).Fits) :
    parseOp (Order.free obj t).line = ((Order.free obj t).toOpT, none) := by
  have hobj := kvU64_obj h
  have hset := startsWith_other (.free obj t) (w := "zap_set") (by decide) (by simp [word])
  have hzero := startsWith_other (.free obj t) (w := "zap_zero") (by decide) (by simp [word])
  have hremove := startsWith_other (.free obj t) (w := "zap_remove") (by decide) (by simp [word])
  have hbonus := startsWith_other (.free obj t) (w := "bonus_set") (by decide) (by simp [word])
  have hword : startsWith "free" _ = true := startsWith_word (.free obj t)
  have hexpect := kvU64_line h (w := "expect") (by decide)
  rw [segments, seek_skip (by decide) (by decide), seek_skip (by decide) (by decide), seek,
    Option.bind_none] at hexpect
  have htype := after_line h (w := "type") (by decide)
  rw [segments, seek_skip (by decide) (by decide), seek_hit (by decide), joinEq] at htype
  unfold parseOp
  simp only [hobj, hexpect, kvStr_quoted h.2 htype, hset, hzero, hremove, hbonus, hword,
    Bool.false_eq_true, if_false, if_true, Option.isSome_none, Option.getD_none, Order.toOpT,
    Order.obj, Order.expect, OpT.zero]

/-- **A plan line is read as the operation it stands for.** -/
theorem parseOp_line {o : Order} (h : o.Fits) : parseOp (o.line) = (o.toOpT, none) := by
  cases o with
  | zapSet => exact parseOp_zapSet h
  | zapZero => exact parseOp_zapZero h
  | zapRemove => exact parseOp_zapRemove h
  | bonusSet => exact parseOp_bonusSet h
  | free => exact parseOp_free h

/-- **A plan line is read whole.** -/
theorem opText_line {o : Order} (h : o.Fits) :
    opText (o.line ++ ['\n']) = some (o.line) := by
  obtain ⟨hnl, hnul⟩ := line_clean h
  obtain ⟨rest, hrest⟩ := word_at_start o
  have hcstr : cstr (o.line ++ ['\n']) = o.line ++ ['\n'] := by
    refine List.takeWhile_eq_self_iff.mpr fun c hc => ?_
    rw [bne_iff_ne]
    rintro rfl
    rcases List.mem_append.mp hc with hc | hc
    · exact hnul hc
    · exact absurd hc (by decide)
  have htake : (o.line ++ ['\n']).takeWhile (· != '\n') = o.line := by
    rw [List.takeWhile_append_of_pos fun c hc => ?_]
    · simp
    · rw [bne_iff_ne]
      rintro rfl
      exact hnl hc
  obtain ⟨c, cs, hc, hcb⟩ : ∃ c cs, o.line = c :: cs ∧ c ∈ ['z', 'b', 'f'] := by
    rw [← hrest]
    cases o <;> simp [word]
  have hstart : ∀ c ∈ ['z', 'b', 'f'], (c == ' ' || c == '\t') = false ∧ c ≠ '#' ∧ c ≠ '\n' :=
    by decide
  have hblank := hstart c hcb
  unfold opText
  rw [hcstr, hc, List.cons_append, List.dropWhile_cons_of_neg (by simp [hblank.1])]
  split
  · rename_i heq; cases heq
  · rename_i heq; exact absurd (List.cons.inj heq).1 hblank.2.1
  · rename_i heq; exact absurd (List.cons.inj heq).1 hblank.2.2
  · rw [← List.cons_append, ← hc, htake]

/-! ## Reading a file -/

/-- A line of a plan file. -/
inductive FileLine where
  | comment (text : List Char)
  | order (o : Order)

/-- The bytes of a line, without its newline. -/
def FileLine.text : FileLine → List Char
  | .comment text => '#' :: ' ' :: text
  | .order o => o.line

/-- The operation on a line. -/
def FileLine.order? : FileLine → Option Order
  | .comment _ => none
  | .order o => some o

/-- A file of lines. -/
def fileText (ls : List FileLine) : List Char := ls.flatMap fun l => l.text ++ ['\n']

/-- A comment that `fgets` reads whole, or an operation that can be read. -/
def FileLine.Fits : FileLine → Prop
  | .comment text => '\n' ∉ text ∧ ('#' :: ' ' :: text ++ ['\n']).length ≤ lineSize - 1
  | .order o => o.Fits

theorem opText_comment (l : List Char) : opText ('#' :: l) = none := by
  unfold opText cstr
  rw [List.takeWhile_cons_of_pos (by decide), List.dropWhile_cons_of_neg (by decide)]
  rfl

theorem parseLines_lines {ls : List FileLine} (h : ∀ l ∈ ls, ∀ o, l.order? = some o → o.Fits)
    (n : ℕ) {acc : List OpT} (hroom : acc.length + (ls.filterMap FileLine.order?).length ≤ maxOps) :
    parseLines n acc (ls.map fun l => l.text ++ ['\n']) =
      ⟨acc ++ (ls.filterMap FileLine.order?).map Order.toOpT, none⟩ := by
  induction ls generalizing n acc with
  | nil => simp [parseLines]
  | cons l ls ih =>
    rw [List.forall_mem_cons] at h
    rw [List.map_cons, parseLines]
    cases l with
    | comment text =>
      rw [show opText ((FileLine.comment text).text ++ ['\n']) = none from opText_comment _]
      exact ih h.2 _ hroom
    | order o =>
      have ho : o.Fits := h.1 o rfl
      have hcons : ((FileLine.order o) :: ls).filterMap FileLine.order? =
          o :: ls.filterMap FileLine.order? := rfl
      rw [hcons, List.length_cons] at hroom
      rw [show opText ((FileLine.order o).text ++ ['\n']) = some o.line from opText_line ho]
      dsimp only
      rw [if_neg (by omega), parseOp_line ho]
      dsimp only
      have hroom' : (acc ++ [o.toOpT]).length + (ls.filterMap FileLine.order?).length ≤ maxOps := by
        rw [List.length_append, List.length_singleton]
        omega
      rw [ih h.2 _ hroom', hcons, List.map_cons, List.append_assoc]
      rfl

/-- **A plan file is read as it is written.** -/
theorem parsePlan_lines {ls : List FileLine} (h : ∀ l ∈ ls, l.Fits)
    (hroom : (ls.filterMap FileLine.order?).length ≤ maxOps) :
    (parsePlan (fileText ls)).accepted = true ∧
      (parsePlan (fileText ls)).ops = (ls.filterMap FileLine.order?).map Order.toOpT ∧
      ∀ o : Order, o.toOpT.hasExpect = true ↔ o.expect.isSome = true := by
  have hlines : ∀ l ∈ ls.map FileLine.text, '\n' ∉ l ∧ l.length < lineSize - 1 := by
    rw [List.forall_mem_map]
    intro l hl
    have hf := h l hl
    cases l with
    | comment text =>
      refine ⟨fun hnl => hf.1 (by simpa [FileLine.text] using hnl), ?_⟩
      have := hf.2
      simp only [FileLine.text, List.cons_append, List.length_cons, List.length_append,
        List.length_nil] at this ⊢
      omega
    | order o => exact ⟨(line_clean hf).1, line_length hf⟩
  have hread : fgetsLines (lineSize - 1) (fileText ls) = ls.map fun l => l.text ++ ['\n'] := by
    have hfgets := fgetsLines_flatMap hlines []
    rw [List.append_nil, show fgetsLines (lineSize - 1) [] = [] from rfl, List.append_nil,
      List.flatMap_map, List.map_map] at hfgets
    exact hfgets
  have horders : ∀ l ∈ ls, ∀ o, l.order? = some o → o.Fits := by
    intro l hl o ho
    cases l with
    | comment text => cases ho
    | order o' =>
      cases ho
      exact h _ hl
  have hparse : parsePlan (fileText ls) =
      ⟨(ls.filterMap FileLine.order?).map Order.toOpT, none⟩ := by
    rw [parsePlan, hread, parseLines_lines horders 0 (by simpa using hroom), List.nil_append]
  refine ⟨by rw [hparse]; rfl, by rw [hparse], fun o => ?_⟩
  cases o <;> simp [Order.toOpT, Order.expect]

/-- A comment and an operation whose key has a quote inside. -/
theorem parsePlan_lines_quote :
    (parsePlan (fileText [.comment "drop".toList,
      .order (.zapRemove 34 "a\"b".toList 5)])).ops =
        [(Order.zapRemove 34 "a\"b".toList 5).toOpT] := by
  refine (parsePlan_lines ?_ (by decide)).2.1
  rw [List.forall_mem_cons, List.forall_mem_singleton]
  exact ⟨⟨by decide, by decide⟩, by decide, ⟨by decide, by decide, by decide⟩,
    by decide⟩

end Surgeon

end Zhaxx
