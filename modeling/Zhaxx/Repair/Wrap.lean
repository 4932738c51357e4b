import Zhaxx.Repair.Lines
import Zhaxx.Scan.Accounts
import Zhaxx.Surgeon.Grammar

/-!
# Child counts that wrap

The scanner subtracts what it accounts for from the observed child count in Python
integers and prints the difference (`scan/zhaxx-scan` lines 391–400 and 470–481). The
surgeon reads it with `strtoull`, which takes a minus sign and wraps
(`surgeon/zhaxx.c` lines 113–129).

Results:
* `storesCount_of_nonneg`: a line with a natural number, when `parse_plan` takes it, sets
  the child count to that number.
* `countsNatural_iff`: no planned count wraps exactly when no account exceeds the count.
* `smallCount_wraps`: two dangling clones and a child count of 1.
-/

namespace Zhaxx.Repair

open Scan Surgeon CText
open Decimal (digits)

/-! ## Reading a line of any length -/

section

variable {S e : ℕ} {v : ℤ}

/-- What stands in the line of a child count behind `obj=`. -/
def countFields (S e : ℕ) (v : ℤ) : List (List Char) :=
  [digits S ++ " field".toList, "ds_num_children".toList ++ " expect".toList,
    digits e ++ " value".toList, (toString v).toList]

theorem countLine_eq : utf8 (Op.bonusSet S e v).line =
    "bonus_set obj=".toList ++ joinEq (countFields S e v) := by
  rw [utf8_line, toOrder, line_eq, segments, ← List.append_nil ("bonus_set".toList ++ _),
    joinEq_append]
  rfl

/-- A negative count is printed with its sign. -/
example : utf8 (Op.bonusSet 34 5 (-1)).line =
    "bonus_set obj=34 field=ds_num_children expect=5 value=-1".toList := by decide +kernel

theorem countFields_clean {c : Char} (hc : c ∈ '#' :: separators) :
    ∀ u ∈ countFields S e v, c ∉ u :=
  fun u hu => segments_bonusSet_clean hc u (List.mem_cons_of_mem _ hu)

theorem countLine_clean {c : Char} (hc : c ∈ ['#', '\n', '\x00']) :
    c ∉ utf8 (Op.bonusSet S e v).line := by
  have hsub : ∀ c ∈ ['#', '\n', '\x00'], c ∈ '#' :: separators ∧ c ≠ '=' := by decide
  rw [utf8_line, toOrder, line_eq]
  exact not_mem_joinEq (hsub c hc).2 (segments_bonusSet_clean (hsub c hc).1)

/-- A natural number ends its line. -/
theorem countLine_digits (S e n : ℕ) :
    ∃ l, utf8 (Op.bonusSet S e n).line = l ++ digits n := by
  refine ⟨"bonus_set obj=".toList ++ joinEq [digits S ++ " field".toList,
    "ds_num_children".toList ++ " expect".toList, digits e ++ " value".toList, []], ?_⟩
  rw [countLine_eq, countFields, Decimal.toList_toString_natCast]
  simp [joinEq]

/-- Only the beginning of the line names an object. -/
theorem kvU64_obj_end {s : List Char} (hs : s <:+ joinEq (countFields S e v)) :
    kvU64 s "obj" = none := by
  have hnone : after ("obj".toList ++ ['=']) (joinEq (countFields S e v)) = none := by
    rw [after_joinEq (by decide) (countFields_clean (by decide)), countFields,
      seek_skip (by decide) (by decide), seek_skip (by decide) (by decide),
      seek_skip (by decide) (by decide), seek]
  rw [kvU64, after_suffix hnone hs, Option.bind_none]

/-- **A line that does not fit into the buffer is refused.** -/
theorem countLine_refused {n : ℕ} (hlong : lineSize - 1 < (utf8 (Op.bonusSet S e n).line).length) :
    ∃ s ∈ pieces (utf8 (Op.bonusSet S e n).line), (parseOp s).2 ≠ none := by
  have hlast : ∀ c ∈ (utf8 (Op.bonusSet S e n).line).getLast?, c ≠ ' ' ∧ c ≠ '\t' := by
    obtain ⟨l, hl⟩ := countLine_digits S e n
    rw [hl, List.getLast?_append_of_ne_nil _ Nat.toDigits_ne_nil]
    intro c hc
    have hdigit := Decimal.isDigit_of_mem_digits (List.mem_of_getLast? hc)
    constructor <;> rintro rfl <;> exact absurd hdigit (by decide)
  obtain ⟨s, hs, hsuf, hlen⟩ := exists_late_piece (fun c hc => countLine_clean hc) hlast hlong
  refine ⟨s, hs, ?_⟩
  rw [countLine_eq] at hsuf hlen
  have hend : s <:+ joinEq (countFields S e n) := by
    refine List.suffix_of_suffix_length_le hsuf (List.suffix_append _ _) ?_
    have hhead : "bonus_set obj=".toList.length ≤ lineSize - 1 := by decide
    rw [List.length_append] at hlen
    omega
  unfold parseOp
  rw [kvU64_obj_end hend]
  exact Option.some_ne_none _

theorem startsWith_countLine : startsWith (mnemonic .bonusSet) (utf8 (Op.bonusSet S e v).line) := by
  rw [utf8_line]
  exact startsWith_word (.bonusSet S e v)

/-- The object of an accepted line. -/
theorem obj_countLine {x : ℕ} (h : kvU64 (utf8 (Op.bonusSet S e v).line) "obj" = some x) :
    x = S := by
  rw [utf8_line, toOrder, line_eq, kvU64,
    after_joinEq (by decide) (segments_bonusSet_clean (by decide)), segments,
    seek_hit (by decide), Option.bind_some, joinEq_append,
    strtoull_digits_append S (stops_blank rfl)] at h
  split_ifs at h
  exact (Option.some.inj h).symm

/-- The value of an accepted line. -/
theorem value_countLine {n x : ℕ} (h : kvU64 (utf8 (Op.bonusSet S e n).line) "value" = some x) :
    x = n := by
  have hstop : Stops [] := nofun
  rw [utf8_line, toOrder, line_eq, kvU64,
    after_joinEq (by decide) (segments_bonusSet_clean (by decide)), segments,
    seek_skip (by decide) (by decide), seek_skip (by decide) (by decide),
    seek_skip (by decide) (by decide), seek_hit (by decide), Option.bind_some, joinEq,
    Decimal.toList_toString_natCast, ← List.append_nil (digits n),
    strtoull_digits_append n hstop] at h
  split_ifs at h
  exact (Option.some.inj h).symm

/-- A line that fits is read in one piece. -/
theorem pieces_countLine (hshort : (utf8 (Op.bonusSet S e v).line).length ≤ lineSize - 1) :
    pieces (utf8 (Op.bonusSet S e v).line) = [utf8 (Op.bonusSet S e v).line] := by
  have hnl : '\n' ∉ utf8 (Op.bonusSet S e v).line := countLine_clean (by decide)
  have hnul : '\x00' ∉ utf8 (Op.bonusSet S e v).line := countLine_clean (by decide)
  obtain ⟨t, ht⟩ : ∃ t, utf8 (Op.bonusSet S e v).line = 'b' :: t := ⟨_, countLine_eq⟩
  have hblank : behindBlanks (utf8 (Op.bonusSet S e v).line) = 'b' :: t := by
    rw [ht]
    rfl
  have htext : opText (utf8 (Op.bonusSet S e v).line) = some (utf8 (Op.bonusSet S e v).line) := by
    rw [opText_eq_lineText hnl hnul, lineText_of_cons hblank, if_neg (by decide), ht]
  have hne : utf8 (Op.bonusSet S e v).line ≠ [] := ht ▸ List.cons_ne_nil _ _
  rw [pieces, fgetsLines_of_le hne hshort hnl, List.filterMap_cons_some htext, List.filterMap_nil]

/-- **What a line with a natural number stores**, when `parse_plan` takes it. -/
theorem parsePlan_countLine {n : ℕ}
    (hacc : (parsePlan (utf8 (Op.bonusSet S e n).line ++ ['\n'])).accepted = true) :
    ∃ q, (parsePlan (utf8 (Op.bonusSet S e n).line ++ ['\n'])).ops = [q] ∧
      q.kind = .bonusSet ∧ q.obj = S ∧ q.value = n := by
  have hnl : '\n' ∉ utf8 (Op.bonusSet S e n).line := countLine_clean (by decide)
  have hlong := countLine_refused (S := S) (e := e) (n := n)
  have hwhole := pieces_countLine (S := S) (e := e) (v := n)
  have hword := startsWith_countLine (S := S) (e := e) (v := n)
  have hobj := fun x => obj_countLine (S := S) (e := e) (v := n) (x := x)
  have hvalue := fun x => value_countLine (S := S) (e := e) (n := n) (x := x)
  generalize utf8 (Op.bonusSet S e n).line = l at *
  have hlines : Surgeon.fileLines (l ++ ['\n']) = [l, []] :=
    List.splitOn_append_cons_self_of_not_mem hnl []
  have hparse : ∀ s ∈ pieces l, (parseOp s).2 = none :=
    (parsePlan_accepted_iff.mp hacc).1 l (by rw [hlines]; exact List.mem_cons_self)
  have hpieces : pieces l = [l] := by
    refine hwhole (not_lt.mp fun h => ?_)
    obtain ⟨s, hs, herr⟩ := hlong h
    exact herr (hparse s hs)
  have hops : (parsePlan (l ++ ['\n'])).ops = [(parseOp l).1] := by
    rw [parsePlan_ops hacc, hlines, List.flatMap_cons, List.flatMap_singleton, storedOps, hpieces]
    rfl
  obtain ⟨hstart, hnumbers, -⟩ :=
    parseOp_stores (Prod.ext rfl (hparse l (by rw [hpieces]; exact List.mem_singleton_self l)))
  have hkind := mnemonic_unique hstart hword
  rw [hkind] at hnumbers
  exact ⟨_, hops, hkind, hobj _ (hnumbers "obj" (by decide)),
    hvalue _ (hnumbers "value" (by decide))⟩

end

/-! ## The planned counts -/

section

variable {M T : Type*}

/-- What the surgeon makes of the line of a child count, if it takes it: the number. -/
def StoresCount (L : Libzpool M T) (view : M → Store T) (S e : ℕ) (v : ℤ) : Prop :=
  (parsePlan (utf8 (Op.bonusSet S e v).line ++ ['\n'])).accepted = true →
    ∃ q, (parsePlan (utf8 (Op.bonusSet S e v).line ++ ['\n'])).ops = [q] ∧ (q.value : ℤ) = v ∧
      ∀ mos mos', L.applySync mos [q] = .done mos' → (view mos').numChildren S = some q.value

variable {L : Libzpool M T} {view : M → Store T}

theorem storesCount_of_nonneg (hL : Lawful L view) (S e n : ℕ) : StoresCount L view S e n := by
  intro hacc
  obtain ⟨q, hops, hkind, hobj, hvalue⟩ := parsePlan_countLine hacc
  refine ⟨q, hops, by rw [hvalue], fun mos mos' hdone => ?_⟩
  have happ : L.applyAll mos ([] ++ q :: []) = .ok mos' := (L.applySync_done_iff.mp hdone).2
  have hfrees : ∀ op' ∈ [] ++ q :: [], ¬ op'.Frees S := by
    intro op' hop' hf
    obtain rfl := List.mem_singleton.mp hop'
    rw [OpT.Frees, hkind] at hf
    cases hf.1
  exact hL.applyAll_numChildren_last happ hfrees (if_pos ⟨hkind, hobj⟩)
    fun _ h => absurd h List.not_mem_nil

/-- **Planned child counts do not wrap** exactly when no account exceeds the observed
    count. -/
theorem countsNatural_iff {m : Mos} (hL : Lawful L view) :
    (∀ S e v, Op.bonusSet S e v ∈ ops m → 0 ≤ v ∧ v < e ∧ StoresCount L view S e v) ↔
      ∀ D S nc, Reached m D → (m.get S).numChildren = some nc →
        (HeadAccount m S D → danglingNext m S ≤ nc) ∧ (OrphanAccount m S D → nc ≠ 0) := by
  have hplan : ∀ {D S nc a}, Reached m D → (m.get S).numChildren = some nc →
      amount m S D = some a → Op.bonusSet S nc ((nc : ℤ) - a) ∈ ops m := by
    intro D S nc a hD hnc ha
    exact mem_ops.mpr ⟨none, .dir hD ((dirPlanned_bonusSet_iff (isDirectory_of_amount ha)).mpr
      ⟨rfl, hnc, a, ha, rfl⟩)⟩
  constructor
  · intro h D S nc hD hnc
    constructor
    · intro hh
      have := (h _ _ _ (hplan hD hnc (amount_eq_some_iff.mpr (.inl ⟨hh, rfl⟩)))).1
      omega
    · intro ho
      have := (h _ _ _ (hplan hD hnc (amount_eq_some_iff.mpr (.inr ⟨ho, rfl⟩)))).1
      omega
  · intro h S e v hv
    obtain ⟨role, hp⟩ := mem_ops.mp hv
    cases hp with
    | errlog he => cases he
    | dir hD hd =>
      have hdir := (reached_iff_walked.mp hD).2
      obtain ⟨-, hnc, a, ha, rfl⟩ := (dirPlanned_bonusSet_iff hdir).mp hd
      obtain ⟨hhead, horphan⟩ := h _ S e hD hnc
      have hbound : 0 < a ∧ a ≤ e := by
        rcases amount_eq_some_iff.mp ha with ⟨hh, rfl⟩ | ⟨ho, rfl⟩
        · obtain ⟨Z, hZ, -, hn⟩ := hh.zap
          exact ⟨Nat.pos_of_ne_zero (danglingNext_eq hZ ▸ hn), hhead hh⟩
        · exact ⟨Nat.one_pos, Nat.one_le_iff_ne_zero.mpr (horphan ho)⟩
      have hnat : (e : ℤ) - a = (e - a : ℕ) := by omega
      rw [hnat]
      exact ⟨by omega, by omega, storesCount_of_nonneg hL S e (e - a)⟩

end

/-- A pool whose head dataset `33` has the child count `nc` and `clones` in its
    `next_clones` ZAP. -/
def clonedHead (nc : ℕ) (clones : List (String × ℕ)) : Mos := .ofList
  [(1, .ofLines "object directory" [("root_dataset", 32)] false),
    (32, .ofLines "DSL directory" [("head_dataset_obj", 33)] false),
    (33, .ofLines "DSL dataset" [("num_children", nc), ("next_clones_obj", 41)] false),
    (41, .ofLines "DSL dataset next clones" clones false)]

/-- One dangling clone of two children. -/
theorem countsNatural_oneOfTwo :
    Op.bonusSet 33 2 1 ∈ ops (clonedHead 2 [("2a1", 673)]) ∧
      StoresCount (storeLib String fun t => some t.toList) id 33 2 1 := by
  have hop : Op.bonusSet 33 2 1 ∈ ops (clonedHead 2 [("2a1", 673)]) := by decide +kernel
  refine ⟨hop, ((countsNatural_iff (storeLib_lawful String fun t => some t.toList)).mpr ?_
    33 2 1 hop).2.2⟩
  intro D S nc _ hnc
  have hall : ∀ S ∈ (clonedHead 2 [("2a1", 673)]).objs.entries.map Prod.fst,
      ∀ nc ∈ ((clonedHead 2 [("2a1", 673)]).get S).numChildren,
        danglingNext (clonedHead 2 [("2a1", 673)]) S ≤ nc ∧ nc ≠ 0 := by
    decide +kernel
  have hex : ((clonedHead 2 [("2a1", 673)]).get S).exists_ = true := by
    refine ObjDump.exists_of_ne_missing fun h => ?_
    rw [h] at hnc
    cases hnc
  obtain ⟨hle, hne⟩ := hall S (Mos.get_mem hex) nc hnc
  exact ⟨fun _ => hle, fun _ => hne⟩

/-- **Two dangling clones of one child.** The planned count is −1, and the surgeon stores
    `2^64 - 1`. -/
theorem smallCount_wraps :
    Op.bonusSet 33 1 (-1) ∈ ops (clonedHead 1 [("2a1", 673), ("2ab", 683)]) ∧
      (parsePlan (utf8 (Op.bonusSet 33 1 (-1)).line ++ ['\n'])).accepted = true ∧
      (parsePlan (utf8 (Op.bonusSet 33 1 (-1)).line ++ ['\n'])).ops.map OpT.value =
        [2 ^ 64 - 1] ∧
      ¬ ∀ S e v, Op.bonusSet S e v ∈ ops (clonedHead 1 [("2a1", 673), ("2ab", 683)]) →
        0 ≤ v ∧ v < e ∧ StoresCount (storeLib String fun t => some t.toList) id S e v := by
  have hop : Op.bonusSet 33 1 (-1) ∈ ops (clonedHead 1 [("2a1", 673), ("2ab", 683)]) := by
    decide +kernel
  refine ⟨hop, by decide +kernel, by decide +kernel, fun h => ?_⟩
  exact absurd (h 33 1 (-1) hop).1 (by decide)

end Zhaxx.Repair
