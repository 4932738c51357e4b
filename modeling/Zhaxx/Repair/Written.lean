import Zhaxx.Repair.Lines
import Zhaxx.Scan.Comments
import Zhaxx.Surgeon.PlanFile

/-!
# The plan file

`planText` is the file that `main` of the scanner writes (`scan/zhaxx-scan` lines
600–608): three header lines, and a comment line and a plan line for every
operation. `parse_plan` reads it in lines of at most 511 bytes and keeps at most
`MAX_OPS` operations.

Results:
* `parsePlan_planText`: the file is accepted exactly when it has at most `MAX_OPS`
  operations, and then they are read as they are meant.
* `crowded_rejected`: a plan that drops 65 namespace entries is rejected.
-/

namespace Zhaxx.Repair

open Scan Surgeon CText

/-- The header lines (lines 602–605). -/
def planHeader : List String :=
  ["# zhaxx repair plan — generated by zhaxx-scan",
    "# REVIEW EVERY LINE against the report before use.",
    "# Every op re-verifies its expect= precondition atomically before any write."]

/-- The two lines of an operation (line 607). -/
def opLines (p : PlanOp) : List (List Char) := [utf8 ("# " ++ p.comment), utf8 p.line]

/-- The lines of the file in UTF-8. -/
def planLines (ps : List PlanOp) : List (List Char) :=
  planHeader.map utf8 ++ ps.flatMap opLines

/-- The file `main` writes (lines 600–608). -/
def planText (m : Mos) : List Char := (planLines (plan m)).flatMap (· ++ ['\n'])

/-! ## Reading the lines -/

theorem opText_commentLine (c : String) : opText (utf8 ("# " ++ c) ++ ['\n']) = none := by
  rw [utf8_append, show utf8 "# " = ['#', ' '] by decide +kernel]
  exact opText_comment _

theorem opText_header {l : String} (h : l ∈ planHeader) : opText (utf8 l ++ ['\n']) = none := by
  have hstart : ∀ l ∈ planHeader, ∃ t, l = "# " ++ t := by
    simp only [planHeader, List.forall_mem_cons]
    exact ⟨⟨"zhaxx repair plan — generated by zhaxx-scan", by decide +kernel⟩,
      ⟨"REVIEW EVERY LINE against the report before use.", by decide +kernel⟩,
      ⟨"Every op re-verifies its expect= precondition atomically before any write.",
        by decide +kernel⟩, List.forall_mem_nil _⟩
  obtain ⟨t, rfl⟩ := hstart l h
  exact opText_commentLine t

theorem header_fits {l : List Char} (h : l ∈ planHeader.map utf8) :
    '\n' ∉ l ∧ l.length < lineSize - 1 := by
  revert l
  decide +kernel

theorem parseLines_skip {ls ls' : List (List Char)} (h : ∀ l ∈ ls, opText l = none) (n : ℕ)
    (acc : List OpT) : parseLines n acc (ls ++ ls') = parseLines (n + ls.length) acc ls' := by
  induction ls generalizing n with
  | nil => rfl
  | cons l ls ih =>
    rw [List.forall_mem_cons] at h
    rw [List.cons_append, parseLines, h.1]
    dsimp only
    rw [ih h.2, List.length_cons, Nat.add_right_comm, Nat.add_assoc]

/-- The two lines of each operation, as lines of a plan file. -/
def fileLines (ps : List PlanOp) : List FileLine :=
  ps.flatMap fun p => [.comment (utf8 p.comment), .order (toOrder p.op)]

theorem text_fileLines (ps : List PlanOp) :
    (fileLines ps).map FileLine.text = ps.flatMap opLines := by
  have hcomment : ∀ c, utf8 ("# " ++ c) = '#' :: ' ' :: utf8 c := by
    intro c
    rw [utf8_append, show utf8 "# " = ['#', ' '] by decide +kernel]
    rfl
  unfold fileLines opLines PlanOp.line
  simp only [List.map_flatMap, List.map_cons, List.map_nil, FileLine.text, hcomment, utf8_line]

theorem orders_fileLines (ps : List PlanOp) :
    (fileLines ps).filterMap FileLine.order? = ps.map fun p => toOrder p.op := by
  unfold fileLines
  rw [List.filterMap_flatMap, List.map_eq_flatMap]
  rfl

/-- The operations of a plan, with `acc` behind them and room for all. -/
theorem parseLines_ops {ps : List PlanOp} (h : ∀ p ∈ ps, Fits p.op) (n : ℕ) {acc : List OpT}
    (hroom : acc.length + ps.length ≤ maxOps) :
    parseLines n acc ((ps.flatMap opLines).map (· ++ ['\n'])) =
      ⟨acc ++ ps.map fun p => p.op.toOpT, none⟩ := by
  have horders : ∀ l ∈ fileLines ps, ∀ o, l.order? = some o → o.Fits := by
    intro l hl o ho
    have hmem : o ∈ (fileLines ps).filterMap FileLine.order? :=
      List.mem_filterMap.mpr ⟨l, hl, ho⟩
    rw [orders_fileLines] at hmem
    obtain ⟨p, hp, rfl⟩ := List.mem_map.mp hmem
    exact fits_toOrder (h p hp)
  have hlen : acc.length + ((fileLines ps).filterMap FileLine.order?).length ≤ maxOps := by
    rwa [orders_fileLines, List.length_map]
  have hread := parseLines_lines horders n hlen
  rw [orders_fileLines, List.map_map] at hread
  rw [← text_fileLines, List.map_map]
  refine hread.trans ?_
  simp only [Function.comp_def, toOpT_toOrder]

/-- Every plan line is read as a line, however long the comments are. -/
theorem length_le_opTexts {ps : List PlanOp} (h : ∀ p ∈ ps, Fits p.op) :
    ps.length ≤ ((fgetsLines (lineSize - 1) ((ps.flatMap opLines).flatMap (· ++ ['\n']))).filterMap
      opText).length := by
  induction ps with
  | nil => exact Nat.zero_le _
  | cons p ps ih =>
    rw [List.forall_mem_cons] at h
    have htext : ((p :: ps).flatMap opLines).flatMap (· ++ ['\n']) =
        utf8 ("# " ++ p.comment) ++ '\n' :: (utf8 p.op.line ++ '\n' ::
          (ps.flatMap opLines).flatMap (· ++ ['\n'])) := by
      simp [opLines, PlanOp.line]
    have hcomment : ∃ ls, fgetsLines (lineSize - 1) (utf8 ("# " ++ p.comment) ++ '\n' ::
        (utf8 p.op.line ++ '\n' :: (ps.flatMap opLines).flatMap (· ++ ['\n']))) =
        ls ++ fgetsLines (lineSize - 1)
          (utf8 p.op.line ++ '\n' :: (ps.flatMap opLines).flatMap (· ++ ['\n'])) :=
      fgetsLines_newline _ _
    obtain ⟨ls, hls⟩ := hcomment
    rw [htext, hls, fgetsLines_append (opLine_clean h.1).1 (opLine_length h.1),
      List.filterMap_append, List.filterMap_cons, opText_opLine h.1, List.length_append,
      List.length_cons, List.length_cons]
    have := ih h.2
    omega

/-! ## Plans the format can carry -/

/-- The names, types and numbers of the MOS fit into plan lines. -/
structure Writable (m : Mos) : Prop where
  name : ∀ Z k v, Entry m Z k v → BareName k
  word : ∀ Z k v, Entry m Z k v → v < 2 ^ 64
  field : ∀ n f r, (m.get n).fields.get? f = some (.int r) → r < 2 ^ 64
  size : ∀ n, (m.get n).zap.entries.length < 2 ^ 64
  type : ∀ n t, (m.get n).type = some t → QuotableType t

namespace Writable

variable {m : Mos} (h : Writable m)

include h

theorem ref {n r : ℕ} {f : String} (hr : Ref m n f r) : r < 2 ^ 64 := by
  obtain ⟨hget, h0⟩ := hr
  unfold ObjDump.ref Dict.getD at hget
  cases hf : (m.get n).fields.get? f with
  | none =>
    rw [hf] at hget
    exact absurd (FieldVal.int.inj hget).symm h0
  | some v =>
    rw [hf] at hget
    exact h.field n f r (by rw [hf]; exact congrArg some hget)

theorem numChildren {n nc : ℕ} (hn : (m.get n).numChildren = some nc) : nc < 2 ^ 64 := by
  unfold ObjDump.numChildren at hn
  split at hn
  · rename_i k hk
    cases hn
    exact h.field n _ _ hk
  · cases hn

theorem danglingCount (Z : ℕ) : danglingCount m Z < 2 ^ 64 := by
  unfold Scan.danglingCount danglingClones
  rw [PyStr.length_filter_sortedItems]
  exact lt_of_le_of_lt (List.length_filter_le _ _) (h.size Z)

theorem reached {D : ℕ} (hD : Reached m D) : D < 2 ^ 64 := by
  cases hD with
  | root h1 h2 =>
    unfold rootDataset at h2 ⊢
    rw [Dict.getD] at h2 ⊢
    cases hg : (m.get mosDirObj).zap.get? "root_dataset" with
    | none => rw [hg] at h2; exact absurd rfl h2
    | some r => exact h.word _ _ _ (Dict.mem_entries_iff.mpr hg)
  | child _ _ _ he => exact h.word _ _ _ he

theorem dirPlanned_ref {D Z v : ℕ} {k : String} {role : Option FreeRole}
    (hd : DirPlanned m D (.zapRemove Z k v) role) : Z < 2 ^ 64 := by
  cases hd with
  | staleChild hM _ => exact h.ref hM
  | clone hZ _ => exact h.ref hZ
  | nextClone _ _ hZ _ => exact h.ref hZ
  | orphanName _ _ _ hM _ => exact h.ref hM
  | orphanNextClone _ _ _ hZ _ => exact h.ref hZ
  | orphanClone _ _ _ _ _ hZ _ => exact h.ref hZ

theorem subtreeRef {D H x : ℕ} {role : FreeRole} (hD : Reached m D) (hO : Orphan m D H)
    (hx : SubtreeRef m D H role x) : x < 2 ^ 64 := by
  cases role with
  | orphanDir => exact hx.1 ▸ h.reached hD
  | orphanDataset => exact hx.1 ▸ h.ref hO.1
  | orphanProps => exact h.ref hx
  | orphanChildMap => exact h.ref hx
  | orphanSnapnames => exact h.ref hx
  | orphanDeadlist => exact h.ref hx
  | errlogHead => exact hx.elim
  | objsetErrlog => exact hx.elim

theorem free_obj {x : ℕ} {t : String} {role : Option FreeRole} (hp : Planned m (.free x t) role) :
    x < 2 ^ 64 := by
  cases hp with
  | errlog hp =>
    cases hp with
    | head he _ => exact h.word _ _ _ he.entry
    | @objset _ hd s _ _ hs _ =>
      obtain ⟨e, he, hse⟩ := List.mem_filterMap.mp hs
      have hper : s.perObj = e.2 := by
        unfold staleEntry at hse
        split at hse
        · cases hse
        · rename_i objset _
          dsimp only at hse
          by_cases hr : (m.getInt objset).readable = true
          · rw [if_pos hr] at hse; cases hse
          · rw [if_neg hr] at hse; cases hse; rfl
      exact hper ▸ h.word hd e.1 e.2 he
  | dir hD hp =>
    cases hp with
    | orphanFree hO hx _ _ => exact h.subtreeRef hD hO hx

/-- **Every operation of the plan fits into a plan line.** -/
theorem fits {op : Op} (hop : op ∈ ops m) : Fits op := by
  have h1 : mosDirObj < 2 ^ 64 := by decide
  cases op with
  | zapSet obj name e v =>
    obtain ⟨rfl, rfl, he, -⟩ := zapSet_mem_ops.mp hop
    exact ⟨h1, h.name _ _ _ he.entry, h.word _ _ _ he.entry, by decide⟩
  | zapZero obj key c =>
    obtain ⟨rfl, rfl, rfl, -⟩ := zapZero_mem_ops.mp hop
    exact ⟨h1, ⟨by decide +kernel, by decide +kernel⟩, by decide, by decide⟩
  | zapRemove Z k v =>
    have he := planned_entry hop
    obtain ⟨p, hp, hpo⟩ := List.mem_map.mp hop
    obtain ⟨D, -, hd⟩ := zapRemove_mem_plan.mp ⟨p, hp, hpo⟩
    exact ⟨h.dirPlanned_ref hd, h.name _ _ _ he, h.word _ _ _ he⟩
  | bonusSet S nc v =>
    have hnc := h.numChildren (bonusSet_numChildren hop)
    obtain ⟨role, hp⟩ := mem_ops.mp hop
    cases hp with
    | errlog hp => cases hp
    | dir _ hp =>
      cases hp with
      | @childCount _ Z _ hH _ _ _ _ _ =>
        have := h.danglingCount Z
        exact ⟨h.ref hH, hnc, by omega, by omega⟩
      | orphanCount _ hO _ _ _ _ => exact ⟨h.ref hO, hnc, by omega, by omega⟩
  | free x t =>
    obtain ⟨role, hp⟩ := mem_ops.mp hop
    exact ⟨h.free_obj hp, h.type _ _ (free_observed hop).2⟩

theorem printable : Printable m where
  name Z k v he hnl := by
    have := (h.name Z k v he).chars _ hnl
    exact this (by decide)
  type n hnl := by
    unfold ObjDump.typeStr at hnl
    cases ht : (m.get n).type with
    | none => rw [ht] at hnl; exact absurd hnl (by simp)
    | some t =>
      rw [ht] at hnl
      exact (h.type n t ht).chars _ hnl (by decide)

end Writable

/-- The file behind its header. -/
theorem parsePlan_eq (m : Mos) : parsePlan (planText m) =
    parseLines 3 []
      (fgetsLines (lineSize - 1) (((plan m).flatMap opLines).flatMap (· ++ ['\n']))) := by
  rw [parsePlan, planText, planLines, List.flatMap_append, fgetsLines_flatMap fun l => header_fits,
    parseLines_skip fun l hl => ?_]
  · simp [planHeader]
  · rw [List.map_map] at hl
    obtain ⟨l', hl', rfl⟩ := List.mem_map.mp hl
    exact opText_header hl'

/-- A longer plan than the table of the surgeon is not accepted. -/
theorem length_le_of_accepted {m : Mos} (h : Writable m)
    (hacc : (parsePlan (planText m)).accepted = true) : (plan m).length ≤ maxOps := by
  rw [parsePlan_eq] at hacc
  have hlen := ((parseLines_pieces (Nat.zero_le _)).1.mp hacc).2
  have hle := length_le_opTexts fun p hp => h.fits (List.mem_map_of_mem hp)
  rw [List.length_nil, Nat.zero_add] at hlen
  exact hle.trans hlen

/-- **The surgeon reads the plan the scanner meant.** -/
theorem parsePlan_planText {m : Mos} (h : Writable m)
    (hc : ∀ p ∈ plan m, (utf8 ("# " ++ p.comment)).length < lineSize - 1) :
    ((parsePlan (planText m)).accepted = true ↔ (plan m).length ≤ maxOps) ∧
      ((plan m).length ≤ maxOps → (parsePlan (planText m)).ops = orders m) := by
  have hfits : ∀ p ∈ plan m, Fits p.op := fun p hp => h.fits (List.mem_map_of_mem hp)
  have hlines : ∀ l ∈ (plan m).flatMap opLines, '\n' ∉ l ∧ l.length < lineSize - 1 := by
    intro l hl
    obtain ⟨p, hp, hl⟩ := List.mem_flatMap.mp hl
    rcases List.mem_cons.mp hl with rfl | hl
    · refine ⟨fun hnl => ?_, hc p hp⟩
      have hone := comment_oneLine h.printable hp
      rw [mem_utf8 (by decide), String.toList_append, List.mem_append] at hnl
      exact hnl.elim (by simp) hone
    · rw [List.mem_singleton.mp hl]
      exact ⟨(opLine_clean (hfits p hp)).1, opLine_length (hfits p hp)⟩
  have hread : (plan m).length ≤ maxOps → parsePlan (planText m) = ⟨orders m, none⟩ := by
    intro hlen
    have hfgets := fgetsLines_flatMap hlines []
    rw [List.append_nil, show fgetsLines (lineSize - 1) [] = [] from rfl, List.append_nil] at hfgets
    rw [parsePlan_eq, hfgets, parseLines_ops hfits 3 (by simpa using hlen)]
    simp [orders, ops]
  exact ⟨⟨length_le_of_accepted h, fun hlen => by rw [hread hlen]; rfl⟩,
    fun hlen => by rw [hread hlen]⟩

/-! ## Component names -/

/-- A legal ZFS component name. -/
structure ComponentName (s : String) : Prop where
  length : s.toList.length ≤ 255
  chars : ∀ c ∈ s.toList, c.isAlphanum = true ∨ c ∈ ['_', '-', '.', ':', ' ']
  inner : s.toList.head? ≠ some ' ' ∧ s.toList.getLast? ≠ some ' '

/-- A component name without spaces is bare. -/
theorem ComponentName.bare {s : String} (h : ComponentName s) (hs : ' ' ∉ s.toList) :
    BareName s := by
  have hother : ∀ c ∈ [' ', '\t', '\n', '\x00', '=', '"'], c ≠ ' ' →
      ¬ (c.isAlphanum = true ∨ c ∈ ['_', '-', '.', ':', ' ']) := by decide
  have hascii : ∀ c : Char, c.isAlphanum = true ∨ c ∈ ['_', '-', '.', ':', ' '] →
      c.toNat < 128 := by
    rintro c (h | h)
    · have hle : ((decide (65 ≤ c.val ∧ c.val ≤ 90) ||
          decide (97 ≤ c.val) && decide (c.val ≤ 122)) ||
          decide (48 ≤ c.val) && decide (c.val ≤ 57)) = true := h
      simp only [Bool.or_eq_true, Bool.and_eq_true, decide_eq_true_eq, UInt32.le_iff_toNat_le,
        UInt32.reduceToNat, Char.toNat_val] at hle
      omega
    · have hpunct : ∀ c ∈ ['_', '-', '.', ':', ' '], c.toNat < 128 := by decide
      exact hpunct c h
  refine ⟨?_, fun c hc hbad => ?_⟩
  · rw [utf8_ascii fun c hc => hascii c (h.chars c hc)]
    exact Nat.lt_succ_of_le h.length
  · exact hother c hbad (fun he => hs (he ▸ hc)) (h.chars c hc)

/-! ## A plan that is too long -/

theorem nodup_crowd (n : ℕ) :
    (((List.range n).map fun i => (toString i, 1000 + i)).map Prod.fst).Nodup := by
  rw [List.map_map]
  refine List.nodup_range.map fun i j h => ?_
  have := congrArg String.toList h
  simp only [Function.comp_apply, Decimal.toList_toString_nat] at this
  exact Decimal.digits_injective this

/-- A child map with the entries `0`, …, `n - 1`, which lead nowhere. -/
def crowdedMap (n : ℕ) : ObjDump where
  exists_ := true
  unreadable := false
  type := some "DSL directory child map"
  fields := .empty
  zap := ⟨(List.range n).map fun i => (toString i, 1000 + i), nodup_crowd n⟩
  zapMulti := .empty
  absent := nofun

/-- A pool in which `n` directories are gone. -/
def crowded (n : ℕ) : Mos := .ofList
  [(1, .ofLines "object directory" [("root_dataset", 32)] false),
    (32, .ofLines "DSL directory" [("child_dir_zapobj", 34)] false),
    (34, crowdedMap n)]

theorem get_crowded (n o : ℕ) : (crowded n).get o =
    if o = 34 then crowdedMap n
    else if o = 32 then .ofLines "DSL directory" [("child_dir_zapobj", 34)] false
    else if o = 1 then .ofLines "object directory" [("root_dataset", 32)] false
    else .missing := by
  simp only [crowded, Mos.ofList, Dict.ofList, List.foldl_cons, List.foldl_nil, Mos.get, Dict.getD,
    Dict.get?_set, Dict.get?_empty]
  split_ifs <;> rfl

theorem componentName_nat {i : ℕ} (hi : i < 2 ^ 64) :
    ComponentName (toString i) ∧ ' ' ∉ (toString i).toList := by
  have hspace : ' ' ∉ Decimal.digits i := fun h => by
    have := Decimal.isDigit_of_mem_digits h
    simp at this
  rw [Decimal.toList_toString_nat]
  refine ⟨⟨?_, fun c hc => .inl ?_, fun h => ?_, fun h => ?_⟩, hspace⟩
  · rw [Decimal.toList_toString_nat]
    exact (length_digits hi).trans (by omega)
  · rw [Decimal.toList_toString_nat] at hc
    simp [Char.isAlphanum, Decimal.isDigit_of_mem_digits hc]
  · rw [Decimal.toList_toString_nat] at h
    exact hspace (List.mem_of_mem_head? h)
  · rw [Decimal.toList_toString_nat] at h
    exact hspace (List.mem_of_getLast? h)

theorem crowded_entry {n Z v : ℕ} {k : String} (hn : n ≤ 100) (h : Entry (crowded n) Z k v) :
    ComponentName k ∧ ' ' ∉ k.toList ∧ v < 2 ^ 64 := by
  unfold Entry at h
  rw [get_crowded] at h
  split_ifs at h
  · obtain ⟨i, hi, hkv⟩ := List.mem_map.mp h
    have hlt := List.mem_range.mp hi
    cases hkv
    obtain ⟨h1, h2⟩ := componentName_nat (show i < 2 ^ 64 by omega)
    exact ⟨h1, h2, by omega⟩
  · have hentries : (ObjDump.ofLines "DSL directory" [("child_dir_zapobj", 34)] false).zap.entries =
        [("child_dir_zapobj", 34)] := by decide +kernel
    rw [hentries, List.mem_singleton] at h
    cases h
    exact ⟨⟨by decide +kernel, by decide +kernel, by decide +kernel⟩,
      by decide +kernel, by decide⟩
  · have hentries : (ObjDump.ofLines "object directory" [("root_dataset", 32)] false).zap.entries =
        [("root_dataset", 32)] := by decide +kernel
    rw [hentries, List.mem_singleton] at h
    cases h
    exact ⟨⟨by decide +kernel, by decide +kernel, by decide +kernel⟩,
      by decide +kernel, by decide⟩
  · cases h

theorem crowded_field {n o r : ℕ} {f : String}
    (h : ((crowded n).get o).fields.get? f = some (.int r)) : r < 2 ^ 64 := by
  rw [get_crowded, ← Dict.mem_entries_iff] at h
  split_ifs at h
  · cases h
  · have hentries :
        (ObjDump.ofLines "DSL directory" [("child_dir_zapobj", 34)] false).fields.entries =
          [("child_dir_zapobj", .int 34)] := by decide +kernel
    rw [hentries, List.mem_singleton] at h
    cases h
    decide
  · have hentries :
        (ObjDump.ofLines "object directory" [("root_dataset", 32)] false).fields.entries =
          [("root_dataset", .int 32)] := by decide +kernel
    rw [hentries, List.mem_singleton] at h
    cases h
    decide
  · cases h

theorem writable_crowded {n : ℕ} (hn : n ≤ 100) : Writable (crowded n) where
  name _ _ _ h := (crowded_entry hn h).1.bare (crowded_entry hn h).2.1
  word _ _ _ h := (crowded_entry hn h).2.2
  field _ _ _ h := crowded_field h
  size o := by
    rw [get_crowded]
    split_ifs
    · simp only [crowdedMap, List.length_map, List.length_range]
      omega
    all_goals decide +kernel
  type o t h := by
    rw [get_crowded] at h
    split_ifs at h <;> cases h
    all_goals exact ⟨by decide +kernel, by decide +kernel⟩

/-- Every entry of the child map is dropped. -/
theorem crowded_drops {n i : ℕ} (hi : i < n) :
    Op.zapRemove 34 (toString i) (1000 + i) ∈ ops (crowded n) := by
  have hmos : (crowded n).get mosDirObj =
      .ofLines "object directory" [("root_dataset", 32)] false := get_crowded n 1
  have hroot : rootDataset (crowded n) = 32 := by
    unfold rootDataset
    rw [hmos]
    decide +kernel
  have hdir : (crowded n).get 32 =
      .ofLines "DSL directory" [("child_dir_zapobj", 34)] false := get_crowded n 32
  have hmap : (crowded n).get 34 = crowdedMap n := get_crowded n 34
  have hreached : Reached (crowded n) 32 := by
    have h := Reached.root (m := crowded n) (by rw [hmos]; rfl) (by rw [hroot]; decide)
      (by rw [hroot, hdir]; decide +kernel)
    rwa [hroot] at h
  have hM : Ref (crowded n) 32 "child_dir_zapobj" 34 := by
    unfold Ref
    rw [hdir]
    decide +kernel
  have hname : toString i ∉ specialNames := by
    intro h
    have hstart : ∀ w ∈ specialNames, w.toList.head? = some '$' := by decide +kernel
    have hd := hstart _ h
    rw [Decimal.toList_toString_nat] at hd
    have := Decimal.isDigit_of_mem_digits (List.mem_of_mem_head? hd)
    simp at this
  have hgone : (crowded n).get (1000 + i) = .missing := by
    rw [get_crowded, if_neg (by omega), if_neg (by omega), if_neg (by omega)]
  have hs : StaleChild (crowded n) 34 (toString i) (1000 + i) := by
    refine ⟨by rw [hmap]; rfl, ?_, hname, ?_⟩
    · unfold Entry
      rw [hmap]
      exact List.mem_map.mpr ⟨i, List.mem_range.mpr hi, rfl⟩
    · rw [hgone]
      decide +kernel
  obtain ⟨p, hp, hpo⟩ := zapRemove_mem_plan.mpr ⟨32, hreached, .staleChild hM hs⟩
  exact hpo ▸ List.mem_map_of_mem hp

theorem length_crowded (n : ℕ) : n ≤ (plan (crowded n)).length := by
  have hnodup : ((List.range n).map fun i => Op.zapRemove 34 (toString i) (1000 + i)).Nodup := by
    refine List.nodup_range.map fun i j h => ?_
    simp only [Op.zapRemove.injEq] at h
    omega
  have hsub : ((List.range n).map fun i => Op.zapRemove 34 (toString i) (1000 + i)) ⊆
      ops (crowded n) := by
    intro op hop
    obtain ⟨i, hi, rfl⟩ := List.mem_map.mp hop
    exact crowded_drops (List.mem_range.mp hi)
  have := (List.subperm_of_subset hnodup hsub).length_le
  rwa [List.length_map, List.length_range, ops, List.length_map] at this

/-- The plan of a small pool is read as it is meant. -/
theorem parsePlan_crowded :
    ((parsePlan (planText (crowded 2))).accepted = true ↔ (plan (crowded 2)).length ≤ maxOps) ∧
      ((plan (crowded 2)).length ≤ maxOps →
        (parsePlan (planText (crowded 2))).ops = orders (crowded 2)) :=
  parsePlan_planText (writable_crowded (n := 2) (by decide)) (by decide +kernel)

/-- With 65 namespace entries to drop the plan is rejected. -/
theorem crowded_rejected :
    (∀ Z k v, Entry (crowded 65) Z k v → ComponentName k ∧ v < 2 ^ 64) ∧
      (∀ o f r, ((crowded 65).get o).fields.get? f = some (.int r) → r < 2 ^ 64) ∧
      (parsePlan (planText (crowded 65))).accepted = false := by
  have hn : 65 ≤ 100 := by decide
  refine ⟨fun Z k v h => ?_, fun o f r h => crowded_field h, ?_⟩
  · exact ⟨(crowded_entry hn h).1, (crowded_entry hn h).2.2⟩
  · by_contra hacc
    have h1 := length_le_of_accepted (writable_crowded hn) (by simpa using hacc)
    have h2 := length_crowded 65
    exact absurd (h2.trans h1) (by decide)

end Zhaxx.Repair
