import Zhaxx.Repair.Handover

/-!
# Plan lines of the scanner

A plan line is written by the f-strings of the scanner and read by the `strstr`
of the surgeon: it is the line of an `Order` in UTF-8.

Results:
* `parseOp_opLine`: the line of an operation is read as the operation it stands for,
  when its key is bare, its type can be quoted and its numbers fit in 64 bits.
* `opText_opLine`: behind its newline the line is read whole.
-/

namespace Zhaxx.Repair

open Scan Surgeon CText
open Decimal (digits isDigit_of_mem_digits)

/-! ## What a plan line can carry -/

/-- A name that an unquoted `key=` carries to the surgeon. -/
structure BareName (s : String) : Prop where
  length : (utf8 s).length < maxKey
  chars : ∀ c ∈ s.toList, c ∉ [' ', '\t', '\n', '\x00', '=', '"']

/-- A type that a quoted `type=` carries to the surgeon. -/
structure QuotableType (s : String) : Prop where
  length : (utf8 s).length < maxType
  chars : ∀ c ∈ s.toList, c ∉ ['\n', '\x00', '=', '"']

/-- An operation whose line the surgeon can read. -/
def Fits : Op → Prop
  | .zapSet obj key e v => obj < 2 ^ 64 ∧ BareName key ∧ e < 2 ^ 64 ∧ v < 2 ^ 64
  | .zapZero obj key c => obj < 2 ^ 64 ∧ BareName key ∧ 0 < c ∧ c ≤ scanMaxWords
  | .zapRemove obj key e => obj < 2 ^ 64 ∧ BareName key ∧ e < 2 ^ 64
  | .bonusSet obj e v => obj < 2 ^ 64 ∧ e < 2 ^ 64 ∧ -2 ^ 64 < v ∧ v < 2 ^ 64
  | .free obj t => obj < 2 ^ 64 ∧ QuotableType t

/-! ## Lines as orders -/

/-- The operation with its strings in UTF-8. -/
def toOrder : Op → Order
  | .zapSet obj key e v => .zapSet obj (utf8 key) e v
  | .zapZero obj key c => .zapZero obj (utf8 key) c
  | .zapRemove obj key e => .zapRemove obj (utf8 key) e
  | .bonusSet obj e v => .bonusSet obj e v
  | .free obj t => .free obj (utf8 t)

theorem utf8_nat (n : ℕ) : utf8 (toString n) = digits n := by
  rw [utf8_ascii, Decimal.toList_toString_nat]
  intro c hc
  rw [Decimal.toList_toString_nat] at hc
  exact toNat_lt_of_isDigit (isDigit_of_mem_digits hc)

theorem utf8_int (v : ℤ) : utf8 (toString v) = (toString v).toList := by
  refine utf8_ascii fun c hc => ?_
  rcases mem_toString_int hc with rfl | h
  · decide
  · exact toNat_lt_of_isDigit h

theorem utf8_line (op : Op) : utf8 op.line = (toOrder op).line := by
  have h1 : utf8 "zap_set obj=" = "zap_set obj=".toList := by decide +kernel
  have h2 : utf8 "zap_zero obj=" = "zap_zero obj=".toList := by decide +kernel
  have h3 : utf8 "zap_remove obj=" = "zap_remove obj=".toList := by decide +kernel
  have h4 : utf8 "bonus_set obj=" = "bonus_set obj=".toList := by decide +kernel
  have h5 : utf8 "free obj=" = "free obj=".toList := by decide +kernel
  have h6 : utf8 " key=" = " key=".toList := by decide +kernel
  have h7 : utf8 " expect=" = " expect=".toList := by decide +kernel
  have h8 : utf8 " value=" = " value=".toList := by decide +kernel
  have h9 : utf8 " count=" = " count=".toList := by decide +kernel
  have h10 : utf8 " field=ds_num_children expect=" =
      " field=ds_num_children expect=".toList := utf8_ascii (by simp)
  have h11 : utf8 " type=\"" = " type=\"".toList := by decide +kernel
  have h12 : utf8 "\"" = "\"".toList := by decide +kernel
  unfold Op.line toOrder Order.line
  cases op <;>
    simp only [utf8_append, utf8_nat, utf8_int, h1, h2, h3, h4, h5, h6, h7, h8, h9, h10, h11, h12]

theorem toOpT_toOrder (op : Op) : (toOrder op).toOpT = op.toOpT := by
  have hline := utf8_line op
  unfold Order.toOpT Op.toOpT
  rw [← hline]
  cases op <;> rfl

/-- An ASCII character that a string avoids is none of its bytes. -/
theorem not_mem_utf8 {s : String} {cs : List Char} (h : ∀ c ∈ s.toList, c ∉ cs) {c : Char}
    (hc : c ∈ cs) (hlt : c.toNat < 128) : c ∉ utf8 s :=
  fun hm => h c ((mem_utf8 hlt).mp hm) hc

theorem BareName.bareKey {s : String} (h : BareName s) : BareKey (utf8 s) where
  length := h.length
  chars c hc hbad := by
    have hsub : ∀ c ∈ [' ', '\t', '\n', '\x00', '='],
        c ∈ [' ', '\t', '\n', '\x00', '=', '"'] ∧ c.toNat < 128 := by decide
    exact not_mem_utf8 h.chars (hsub c hbad).1 (hsub c hbad).2 hc
  head hq := not_mem_utf8 h.chars (by decide) (by decide) (List.mem_of_mem_head? hq)

theorem QuotableType.quotedType {s : String} (h : QuotableType s) : QuotedType (utf8 s) where
  length := h.length
  chars c hc hbad := by
    have hlt : ∀ c ∈ ['\n', '\x00', '=', '"'], c.toNat < 128 := by decide
    exact not_mem_utf8 h.chars hbad (hlt c hbad) hc

theorem fits_toOrder {op : Op} (h : Fits op) : (toOrder op).Fits := by
  cases op with
  | zapSet => exact ⟨h.1, h.2.1.bareKey, h.2.2⟩
  | zapZero => exact ⟨h.1, h.2.1.bareKey, h.2.2⟩
  | zapRemove => exact ⟨h.1, h.2.1.bareKey, h.2.2⟩
  | bonusSet => exact h
  | free => exact ⟨h.1, h.2.quotedType⟩

/-! ## Reading a line -/

theorem opLine_clean {op : Op} (h : Fits op) : '\n' ∉ utf8 op.line ∧ '\x00' ∉ utf8 op.line := by
  rw [utf8_line]
  exact line_clean (fits_toOrder h)

/-- A plan line fits into the buffer of `parse_plan`. -/
theorem opLine_length {op : Op} (h : Fits op) : (utf8 op.line).length < lineSize - 1 := by
  rw [utf8_line]
  exact line_length (fits_toOrder h)

/-- **A plan line is read as the operation it stands for.** -/
theorem parseOp_opLine {op : Op} (h : Fits op) : parseOp (utf8 op.line) = (op.toOpT, none) := by
  rw [utf8_line, parseOp_line (fits_toOrder h), toOpT_toOrder]

/-- **A plan line is read whole.** -/
theorem opText_opLine {op : Op} (h : Fits op) :
    opText (utf8 op.line ++ ['\n']) = some (utf8 op.line) := by
  rw [utf8_line]
  exact opText_line (fits_toOrder h)

end Zhaxx.Repair
