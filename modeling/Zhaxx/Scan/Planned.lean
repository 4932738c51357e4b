import Zhaxx.Scan.Reach

/-!
# What a scan plans

`Planned m op role` lists, site by site, the operations the checks append for the
observed MOS `m`.

Main results:

* `plans_run`: a scan plans exactly the operations that are `Planned`.
* `mem_plan`: so does the deduplicated plan.
-/

namespace Zhaxx.Scan

open Traverse (Step State emits)

/-- The events `es` contain the operation `op`, with this role. -/
def Plans (es : List Event) (op : Op) (role : Option FreeRole) : Prop :=
  ∃ comment, Event.op ⟨op, comment, role⟩ ∈ es

section Plans

variable {es es' : List Event} {op : Op} {role : Option FreeRole}

@[simp] theorem not_plans_nil : ¬ Plans [] op role := by
  simp [Plans]

@[simp] theorem plans_append :
    Plans (es ++ es') op role ↔ Plans es op role ∨ Plans es' op role := by
  simp [Plans, exists_or]

@[simp] theorem plans_cons_add {s : Severity} {obj : FieldVal} {t : String} :
    Plans (add s obj t :: es) op role ↔ Plans es op role := by
  simp [Plans, add]

@[simp] theorem plans_cons_addOp {op' : Op} {c : String} {role' : Option FreeRole} :
    Plans (addOp op' c role' :: es) op role ↔ (op = op' ∧ role = role') ∨ Plans es op role := by
  simp only [Plans, addOp, List.mem_cons, Event.op.injEq, PlanOp.mk.injEq, exists_or]
  refine or_congr_left ⟨?_, ?_⟩
  · rintro ⟨_, rfl, rfl, rfl⟩; exact ⟨rfl, rfl⟩
  · rintro ⟨rfl, rfl⟩; exact ⟨c, rfl, rfl, rfl⟩

@[simp] theorem plans_flatMap {α : Type*} {l : List α} {f : α → List Event} :
    Plans (l.flatMap f) op role ↔ ∃ a ∈ l, Plans (f a) op role := by
  simp only [Plans, List.mem_flatMap]
  constructor
  · rintro ⟨c, a, ha, h⟩; exact ⟨a, ha, c, h⟩
  · rintro ⟨a, ha, c, h⟩; exact ⟨c, a, ha, h⟩

theorem plans_map {α : Type*} {l : List α} {f : α → Event} :
    Plans (l.map f) op role ↔ ∃ a ∈ l, Plans [f a] op role := by
  rw [← plans_flatMap, List.map_eq_flatMap]

@[simp] theorem plans_map_add {α : Type*} {l : List α} {s : α → Severity} {obj : α → FieldVal}
    {t : α → String} : ¬ Plans (l.map fun a => add (s a) (obj a) (t a)) op role := by
  simp [plans_map]

@[simp] theorem plans_map_addOp {α : Type*} {l : List α} {op' : α → Op} {c : α → String}
    {role' : α → Option FreeRole} :
    Plans (l.map fun a => addOp (op' a) (c a) (role' a)) op role ↔
      ∃ a ∈ l, op = op' a ∧ role = role' a := by
  simp [plans_map]

theorem plans_iff_opsOf : Plans es op role ↔ ∃ p ∈ opsOf es, p.op = op ∧ p.role = role := by
  simp only [Plans, mem_opsOf]
  constructor
  · rintro ⟨c, h⟩; exact ⟨_, h, rfl, rfl⟩
  · rintro ⟨⟨op', c, role'⟩, h, rfl, rfl⟩; exact ⟨c, h⟩

end Plans

/-! ## Error log and scan cursor -/

/-- The MOS directory names the nonzero error log `h` as `name`. -/
def ErrlogEntry (m : Mos) (name : String) (h : ℕ) : Prop :=
  (m.get mosDirObj).readable = true ∧ name ∈ errlogNames ∧
    (m.get mosDirObj).zap.getD name 0 = h ∧ h ≠ 0

/-- `h` is an error log that names an unreadable objset. -/
def StaleHead (m : Mos) (h : ℕ) : Prop :=
  (m.get h).hasType "error log" = true ∧ staleEntries m (m.get h) ≠ []

theorem staleEntries_ne_nil {m : Mos} {head : ObjDump} :
    staleEntries m head ≠ [] ↔ ∃ e ∈ head.zap.entries, staleEntry m e.1 e.2 ≠ none := by
  unfold staleEntries
  rw [ne_eq, List.filterMap_eq_nil_iff]
  push Not
  rfl

theorem staleEntry_ne_none {m : Mos} {key : String} {per : ℕ} :
    staleEntry m key per ≠ none ↔
      ∃ o, PyStr.intHex key = some o ∧ (m.getInt o).readable = false := by
  unfold staleEntry
  cases PyStr.intHex key with
  | none => simp
  | some o => cases hr : (m.getInt o).readable <;> simp [hr]

/-- What the list `stale` holds. -/
theorem mem_staleEntries {m : Mos} {head : ObjDump} {s : Stale} :
    s ∈ staleEntries m head ↔ (s.key, s.perObj) ∈ head.zap.entries ∧
      PyStr.intHex s.key = some s.objset ∧ (m.getInt s.objset).readable = false ∧
      s.why = if (m.getInt s.objset).exists_ then "is unreadable (EIO)" else "does not exist" := by
  unfold staleEntries
  rw [List.mem_filterMap]
  constructor
  · rintro ⟨⟨key, per⟩, he, hs⟩
    unfold staleEntry at hs
    dsimp only at hs
    cases ho : PyStr.intHex key with
    | none => rw [ho] at hs; cases hs
    | some o =>
      rw [ho] at hs
      dsimp only at hs
      cases hr : (m.getInt o).readable with
      | true => rw [if_pos hr] at hs; cases hs
      | false =>
        rw [if_neg (by simp [hr])] at hs
        cases hs
        exact ⟨he, ho, hr, rfl⟩
  · obtain ⟨key, o, per, why⟩ := s
    rintro ⟨he, ho, hr, hwhy⟩
    dsimp only at he ho hr hwhy
    refine ⟨(key, per), he, ?_⟩
    unfold staleEntry
    dsimp only
    rw [ho]
    dsimp only
    rw [if_neg (by simp [hr]), ← hwhy]

/-- `check_errlog` clears the reference to `h`. -/
def Resets (m : Mos) (h : ℕ) : Prop :=
  (m.get h).hasType "error log" = false ∨ StaleHead m h

/-- `check_scan` finds the in-progress scan without its queue. -/
def StaleScan (m : Mos) : Prop :=
  (m.get mosDirObj).readable = true ∧ ∃ scan, scanEntry (m.get mosDirObj) = some scan ∧
    scan.getD 1 0 = dssScanning ∧ scan.getD 2 0 ≠ 0 ∧ (m.get (scan.getD 2 0)).readable = false

/-- What `check_errlog` plans. -/
inductive ErrlogPlanned (m : Mos) : Op → Option FreeRole → Prop
  | reset {name : String} {h : ℕ} : ErrlogEntry m name h → Resets m h →
      ErrlogPlanned m (.zapSet mosDirObj name h 0) none
  | head {name : String} {h : ℕ} : ErrlogEntry m name h → StaleHead m h →
      ErrlogPlanned m (.free h (m.get h).typeStr) (some .errlogHead)
  | objset {name : String} {h : ℕ} {s : Stale} : ErrlogEntry m name h → StaleHead m h →
      s ∈ staleEntries m (m.get h) → (m.get s.perObj).hasType "error log" = true →
      ErrlogPlanned m (.free s.perObj (m.get s.perObj).typeStr) (some .objsetErrlog)

theorem hasType_exists {d : ObjDump} {pat : String} (hp : pat ≠ "") :
    d.hasType pat = true ↔ d.exists_ = true ∧ d.hasType pat = true :=
  ⟨fun h => ⟨ObjDump.exists_of_hasType hp h, h⟩, And.right⟩

theorem plans_freeObjsetErrlog {m : Mos} {s : Stale} {op : Op} {role : Option FreeRole} :
    Plans (freeObjsetErrlog m s) op role ↔ (m.get s.perObj).hasType "error log" = true ∧
      op = .free s.perObj (m.get s.perObj).typeStr ∧ role = some .objsetErrlog := by
  unfold freeObjsetErrlog
  dsimp only
  rw [hasType_exists (by decide)]
  split_ifs with h1 h2
  · rw [Bool.and_eq_true] at h1
    simp [h1]
  · have : (m.get s.perObj).hasType "error log" = false := by simpa [h2] using h1
    simp [this]
  · simp [h2]

theorem plans_checkErrlogHead {m : Mos} {name : String} {h : ℕ} {op : Op}
    {role : Option FreeRole} :
    Plans (checkErrlogHead m name h) op role ↔ h ≠ 0 ∧
      ((Resets m h ∧ op = .zapSet mosDirObj name h 0 ∧ role = none) ∨
        (StaleHead m h ∧ ((op = .free h (m.get h).typeStr ∧ role = some .errlogHead) ∨
          ∃ s ∈ staleEntries m (m.get h), (m.get s.perObj).hasType "error log" = true ∧
            op = .free s.perObj (m.get s.perObj).typeStr ∧ role = some .objsetErrlog))) := by
  unfold checkErrlogHead Resets StaleHead
  dsimp only
  split_ifs with h0 he ht hs
  · simp [h0]
  · have hty : (m.get h).hasType "error log" = false :=
      ObjDump.hasType_of_not_exists (by decide) (by simpa using he)
    simp [h0, hty]
  · have hty : (m.get h).hasType "error log" = false := by simpa using ht
    simp [h0, hty]
  · have hty : (m.get h).hasType "error log" = true := by simpa using ht
    have hst : staleEntries m (m.get h) = [] := by simpa using hs
    simp [hty, hst]
  · have hty : (m.get h).hasType "error log" = true := by simpa using ht
    have hst : staleEntries m (m.get h) ≠ [] := by simpa using hs
    simp only [plans_append, plans_map_add, plans_cons_addOp, not_plans_nil, or_false, false_or,
      plans_flatMap, plans_freeObjsetErrlog, hty, hst, ne_eq, not_false_eq_true, and_self, h0,
      true_and, or_true]
    rw [or_assoc]

theorem plans_checkErrlog {m : Mos} {op : Op} {role : Option FreeRole}
    (h1 : (m.get mosDirObj).readable = true) :
    Plans (checkErrlog m (m.get mosDirObj)) op role ↔ ErrlogPlanned m op role := by
  unfold checkErrlog
  simp only [plans_flatMap, plans_checkErrlogHead]
  constructor
  · rintro ⟨name, hn, h0, ⟨hr, rfl, rfl⟩ | ⟨hs, ⟨rfl, rfl⟩ | ⟨s, hse, ht, rfl, rfl⟩⟩⟩
    · exact .reset ⟨h1, hn, rfl, h0⟩ hr
    · exact .head ⟨h1, hn, rfl, h0⟩ hs
    · exact .objset ⟨h1, hn, rfl, h0⟩ hs hse ht
  · intro h
    cases h with
    | reset he hr =>
      obtain ⟨-, hn, rfl, h0⟩ := he
      exact ⟨_, hn, h0, .inl ⟨hr, rfl, rfl⟩⟩
    | head he hs =>
      obtain ⟨-, hn, rfl, h0⟩ := he
      exact ⟨_, hn, h0, .inr ⟨hs, .inl ⟨rfl, rfl⟩⟩⟩
    | objset he hs hse ht =>
      obtain ⟨-, hn, rfl, h0⟩ := he
      exact ⟨_, hn, h0, .inr ⟨hs, .inr ⟨_, hse, ht, rfl, rfl⟩⟩⟩

theorem plans_checkScan {m : Mos} {op : Op} {role : Option FreeRole}
    (h1 : (m.get mosDirObj).readable = true) :
    Plans (checkScan m (m.get mosDirObj)) op role ↔
      StaleScan m ∧ op = .zapZero mosDirObj "scan" scanWords ∧ role = none := by
  unfold checkScan StaleScan
  cases hscan : scanEntry (m.get mosDirObj) with
  | none => simp
  | some scan =>
    dsimp only
    simp only [Option.some.injEq, exists_eq_left', h1, true_and]
    generalize scan.getD 1 0 = state, scan.getD 2 0 = queue
    split_ifs with hst hq hp hp
    · simp [hst]
    · simp only [ne_eq, not_not] at hst
      simp [hst, hq]
    · exact absurd (List.cons_ne_nil _ _) hp
    · exact absurd rfl hp
    · simp only [plans_cons_add, not_plans_nil, false_iff]
      rintro ⟨⟨-, hne, hre⟩, -⟩
      exact hq ⟨hne, hre⟩

/-! ## Directories -/

/-- `c` is a non-special entry of the readable child map `M` that does not lead
    to a DSL directory. -/
def StaleChild (m : Mos) (M : ℕ) (name : String) (c : ℕ) : Prop :=
  (m.get M).readable = true ∧ Entry m M name c ∧ name ∉ specialNames ∧
    (m.get c).hasType "DSL directory" = false

/-- `k → v` is an entry of the readable clones ZAP `Z` that does not lead to a
    readable DSL dataset. -/
def DanglingClone (m : Mos) (Z : ℕ) (k : String) (v : ℕ) : Prop :=
  (m.get Z).readable = true ∧ Entry m Z k v ∧ isDataset (m.get v) = false

/-- The number of dangling entries of a clones ZAP. -/
def danglingCount (m : Mos) (Z : ℕ) : ℕ := (danglingClones m (m.get Z)).length

/-- `H`, the head dataset of the directory `D`, exists and is unreadable. -/
def Orphan (m : Mos) (D H : ℕ) : Prop :=
  Ref m D "head_dataset_obj" H ∧ (m.get H).unreadable = true

/-- The object `x` is part of the orphan `D` with head `H`, in this role. -/
def SubtreeRef (m : Mos) (D H : ℕ) : FreeRole → ℕ → Prop
  | .orphanDir, x => x = D ∧ D ≠ 0
  | .orphanProps, x => Ref m D "props_zapobj" x
  | .orphanChildMap, x => Ref m D "child_dir_zapobj" x
  | .orphanDataset, x => x = H ∧ H ≠ 0
  | .orphanSnapnames, x => Ref m H "snapnames_zapobj" x
  | .orphanDeadlist, x => Ref m H "deadlist_obj" x
  | .errlogHead, _ => False
  | .objsetErrlog, _ => False

/-- What the walk plans for the directory `D`. -/
inductive DirPlanned (m : Mos) (D : ℕ) : Op → Option FreeRole → Prop
  | staleChild {M c : ℕ} {name : String} : Ref m D "child_dir_zapobj" M →
      StaleChild m M name c → DirPlanned m D (.zapRemove M name c) none
  | clone {Z v : ℕ} {k : String} : Ref m D "clones" Z → DanglingClone m Z k v →
      DirPlanned m D (.zapRemove Z k v) none
  | nextClone {H Z v : ℕ} {k : String} : Ref m D "head_dataset_obj" H →
      isDataset (m.get H) = true → Ref m H "next_clones_obj" Z → DanglingClone m Z k v →
      DirPlanned m D (.zapRemove Z k v) none
  | childCount {H Z nc : ℕ} : Ref m D "head_dataset_obj" H → isDataset (m.get H) = true →
      Ref m H "next_clones_obj" Z → (m.get Z).readable = true → danglingCount m Z ≠ 0 →
      (m.get H).numChildren = some nc →
      DirPlanned m D (.bonusSet H nc ((nc : ℤ) - danglingCount m Z)) none
  | orphanName {H P M : ℕ} {name : String} : Orphan m D H → Ref m D "parent_dir_obj" P →
      (m.get P).readable = true → Ref m P "child_dir_zapobj" M → Entry m M name D →
      DirPlanned m D (.zapRemove M name D) none
  | orphanNextClone {H O Z : ℕ} {k : String} : Orphan m D H → Ref m D "origin_obj" O →
      (m.get O).readable = true → Ref m O "next_clones_obj" Z → Entry m Z k H →
      DirPlanned m D (.zapRemove Z k H) none
  | orphanCount {H O Z nc : ℕ} {k : String} : Orphan m D H → Ref m D "origin_obj" O →
      (m.get O).readable = true → Ref m O "next_clones_obj" Z → Entry m Z k H →
      (m.get O).numChildren = some nc → DirPlanned m D (.bonusSet O nc ((nc : ℤ) - 1)) none
  | orphanClone {H O OD Z : ℕ} {k : String} : Orphan m D H → Ref m D "origin_obj" O →
      (m.get O).readable = true → Ref m O "dir_obj" OD → (m.get OD).readable = true →
      Ref m OD "clones" Z → Entry m Z k H → DirPlanned m D (.zapRemove Z k H) none
  | orphanFree {H x : ℕ} {role : FreeRole} : Orphan m D H → SubtreeRef m D H role x →
      (m.get x).readable = true → (m.get x).typeOr ≠ "" →
      DirPlanned m D (.free x (m.get x).typeStr) (some role)

/-- What the check of the head dataset of `D` plans. -/
inductive HeadPlanned (m : Mos) (D : ℕ) : Op → Option FreeRole → Prop
  | nextClone {H Z v : ℕ} {k : String} : Ref m D "head_dataset_obj" H →
      isDataset (m.get H) = true → Ref m H "next_clones_obj" Z → DanglingClone m Z k v →
      HeadPlanned m D (.zapRemove Z k v) none
  | childCount {H Z nc : ℕ} : Ref m D "head_dataset_obj" H → isDataset (m.get H) = true →
      Ref m H "next_clones_obj" Z → (m.get Z).readable = true → danglingCount m Z ≠ 0 →
      (m.get H).numChildren = some nc →
      HeadPlanned m D (.bonusSet H nc ((nc : ℤ) - danglingCount m Z)) none
  | orphanName {H P M : ℕ} {name : String} : Orphan m D H → Ref m D "parent_dir_obj" P →
      (m.get P).readable = true → Ref m P "child_dir_zapobj" M → Entry m M name D →
      HeadPlanned m D (.zapRemove M name D) none
  | orphanNextClone {H O Z : ℕ} {k : String} : Orphan m D H → Ref m D "origin_obj" O →
      (m.get O).readable = true → Ref m O "next_clones_obj" Z → Entry m Z k H →
      HeadPlanned m D (.zapRemove Z k H) none
  | orphanCount {H O Z nc : ℕ} {k : String} : Orphan m D H → Ref m D "origin_obj" O →
      (m.get O).readable = true → Ref m O "next_clones_obj" Z → Entry m Z k H →
      (m.get O).numChildren = some nc → HeadPlanned m D (.bonusSet O nc ((nc : ℤ) - 1)) none
  | orphanClone {H O OD Z : ℕ} {k : String} : Orphan m D H → Ref m D "origin_obj" O →
      (m.get O).readable = true → Ref m O "dir_obj" OD → (m.get OD).readable = true →
      Ref m OD "clones" Z → Entry m Z k H → HeadPlanned m D (.zapRemove Z k H) none
  | orphanFree {H x : ℕ} {role : FreeRole} : Orphan m D H → SubtreeRef m D H role x →
      (m.get x).readable = true → (m.get x).typeOr ≠ "" →
      HeadPlanned m D (.free x (m.get x).typeStr) (some role)

/-- The walk plans for a directory what its head, its child map and its clones ZAP ask for. -/
theorem dirPlanned_iff {m : Mos} {D : ℕ} {op : Op} {role : Option FreeRole} :
    DirPlanned m D op role ↔ HeadPlanned m D op role ∨
      (∃ M, Ref m D "child_dir_zapobj" M ∧
        ∃ name c, StaleChild m M name c ∧ op = .zapRemove M name c ∧ role = none) ∨
      ∃ Z, Ref m D "clones" Z ∧
        ∃ k v, DanglingClone m Z k v ∧ op = .zapRemove Z k v ∧ role = none := by
  constructor
  · intro h
    cases h with
    | staleChild hM hs => exact .inr (.inl ⟨_, hM, _, _, hs, rfl, rfl⟩)
    | clone hZ hd => exact .inr (.inr ⟨_, hZ, _, _, hd, rfl, rfl⟩)
    | nextClone hH hds hZ hd => exact .inl (.nextClone hH hds hZ hd)
    | childCount hH hds hZ hrZ hn hnc => exact .inl (.childCount hH hds hZ hrZ hn hnc)
    | orphanName hO hP hrP hM he => exact .inl (.orphanName hO hP hrP hM he)
    | orphanNextClone hO hOr hrO hZ he => exact .inl (.orphanNextClone hO hOr hrO hZ he)
    | orphanCount hO hOr hrO hZ he hnc => exact .inl (.orphanCount hO hOr hrO hZ he hnc)
    | orphanClone hO hOr hrO hOD hrOD hZ he =>
      exact .inl (.orphanClone hO hOr hrO hOD hrOD hZ he)
    | orphanFree hO hx hrx htx => exact .inl (.orphanFree hO hx hrx htx)
  · rintro (h | ⟨M, hM, name, c, hs, rfl, rfl⟩ | ⟨Z, hZ, k, v, hd, rfl, rfl⟩)
    · cases h with
      | nextClone hH hds hZ hd => exact .nextClone hH hds hZ hd
      | childCount hH hds hZ hrZ hn hnc => exact .childCount hH hds hZ hrZ hn hnc
      | orphanName hO hP hrP hM he => exact .orphanName hO hP hrP hM he
      | orphanNextClone hO hOr hrO hZ he => exact .orphanNextClone hO hOr hrO hZ he
      | orphanCount hO hOr hrO hZ he hnc => exact .orphanCount hO hOr hrO hZ he hnc
      | orphanClone hO hOr hrO hOD hrOD hZ he => exact .orphanClone hO hOr hrO hOD hrOD hZ he
      | orphanFree hO hx hrx htx => exact .orphanFree hO hx hrx htx
    · exact .staleChild hM hs
    · exact .clone hZ hd

/-- An optional reference, by the kind of its field. -/
theorem exists_ref_iff {m : Mos} {n : ℕ} {f : String} {p : ℕ → Prop} :
    (∃ r, Ref m n f r ∧ p r) ↔ match (m.get n).ref f with
      | .int r => r ≠ 0 ∧ p r
      | .str _ => False := by
  unfold Ref
  cases (m.get n).ref f <;> simp

@[simp] theorem truthy_int_eq (r : ℕ) : (FieldVal.int r).truthy = decide (r ≠ 0) := by
  by_cases h : r = 0 <;> simp [FieldVal.truthy, h]

section Directory

variable {m : Mos} {D H : ℕ} {path : String} {op : Op} {role : Option FreeRole}

@[simp] theorem entriesOf_missing (v : FieldVal) : entriesOf .missing v = [] := rfl

@[simp] theorem mem_entriesOf {z v : ℕ} {e : String × ℕ} :
    e ∈ entriesOf (m.get z) (.int v) ↔ Entry m z e.1 v ∧ e.2 = v := by
  obtain ⟨k, w⟩ := e
  simp only [entriesOf, List.mem_filter, FieldVal.int.injEq, decide_eq_true_eq, Entry]
  constructor
  · rintro ⟨h, rfl⟩; exact ⟨h, rfl⟩
  · rintro ⟨h, rfl⟩; exact ⟨h, rfl⟩

theorem not_plans_checkClonesZap_str {s : String} :
    ¬ Plans (checkClonesZap m (.str s) path).2 op role := by
  simp [checkClonesZap]

theorem plans_checkClonesZap {Z : ℕ} :
    Plans (checkClonesZap m (.int Z) path).2 op role ↔
      ∃ k v, DanglingClone m Z k v ∧ op = .zapRemove Z k v ∧ role = none := by
  unfold checkClonesZap DanglingClone
  dsimp only [Mos.fetch_int]
  cases hr : (m.get Z).readable with
  | false => simp
  | true =>
    simp only [Bool.not_true, Bool.false_eq_true, if_false, plans_flatMap, plans_cons_add,
      plans_cons_addOp, not_plans_nil, or_false, true_and, danglingClones, List.mem_filter,
      PyStr.mem_sortedItems, FieldVal.num_int, Bool.not_eq_true', Prod.exists, Entry]

theorem exists_danglingClone {Z : ℕ} (hr : (m.get Z).readable = true)
    (hn : danglingCount m Z ≠ 0) : ∃ k v, DanglingClone m Z k v := by
  obtain ⟨⟨k, v⟩, es, he⟩ := List.exists_cons_of_length_pos (Nat.pos_of_ne_zero hn)
  have hmem : (k, v) ∈ danglingClones m (m.get Z) := he ▸ List.mem_cons_self
  simp only [danglingClones, List.mem_filter, PyStr.mem_sortedItems, Bool.not_eq_true'] at hmem
  exact ⟨k, v, hr, hmem.1, hmem.2⟩

theorem plans_orphanNamespace :
    Plans (orphanNamespace m D (m.get D)) op role ↔ ∃ P, Ref m D "parent_dir_obj" P ∧
      (m.get P).readable = true ∧ ∃ M, Ref m P "child_dir_zapobj" M ∧
        ∃ name, Entry m M name D ∧ op = .zapRemove M name D ∧ role = none := by
  unfold orphanNamespace
  dsimp only
  rw [exists_ref_iff]
  cases (m.get D).ref "parent_dir_obj" with
  | str s => simp
  | int P =>
    dsimp only [Mos.fetch_int]
    rw [exists_ref_iff]
    by_cases hr : (m.get P).readable = true
    · simp only [hr, if_true, true_and]
      cases (m.get P).ref "child_dir_zapobj" with
      | str s => simp
      | int M => by_cases hP : P = 0 <;> by_cases hM : M = 0 <;> simp [hP, hM]
    · simp [hr]

theorem plans_orphanNextClones {O : ℕ} :
    Plans (orphanNextClones m (.int H) (.int O) (m.get O)) op role ↔
      ∃ Z, Ref m O "next_clones_obj" Z ∧ ∃ k, Entry m Z k H ∧
        ((op = .zapRemove Z k H ∧ role = none) ∨ ∃ nc, (m.get O).numChildren = some nc ∧
          op = .bonusSet O nc ((nc : ℤ) - 1) ∧ role = none) := by
  unfold orphanNextClones
  dsimp only
  rw [exists_ref_iff]
  cases (m.get O).ref "next_clones_obj" with
  | str s => simp
  | int Z => cases (m.get O).numChildren <;> by_cases hZ : Z = 0 <;> simp [hZ]

theorem plans_orphanDirClones {O : ℕ} :
    Plans (orphanDirClones m (.int H) (m.get O)) op role ↔ ∃ OD, Ref m O "dir_obj" OD ∧
      (m.get OD).readable = true ∧ ∃ Z, Ref m OD "clones" Z ∧
        ∃ k, Entry m Z k H ∧ op = .zapRemove Z k H ∧ role = none := by
  unfold orphanDirClones
  dsimp only
  rw [exists_ref_iff]
  cases (m.get O).ref "dir_obj" with
  | str s => simp
  | int OD =>
    dsimp only [Mos.fetch_int]
    rw [exists_ref_iff]
    by_cases hr : (m.get OD).readable = true
    · simp only [hr, if_true, true_and]
      cases (m.get OD).ref "clones" with
      | str s => simp
      | int Z => by_cases hO : OD = 0 <;> by_cases hZ : Z = 0 <;> simp [hO, hZ]
    · simp [hr]

theorem plans_orphanCloneRefs :
    Plans (orphanCloneRefs m (.int H) (m.get D)) op role ↔ ∃ O, Ref m D "origin_obj" O ∧
      (m.get O).readable = true ∧
        (Plans (orphanNextClones m (.int H) (.int O) (m.get O)) op role ∨
          Plans (orphanDirClones m (.int H) (m.get O)) op role) := by
  unfold orphanCloneRefs
  dsimp only
  rw [exists_ref_iff]
  cases (m.get D).ref "origin_obj" with
  | str s => simp
  | int O =>
    dsimp only [Mos.fetch_int]
    by_cases hr : (m.get O).readable = true <;> by_cases hO : O = 0 <;> simp [hr, hO]

theorem plans_freeStructure {r : FreeRole} {v : FieldVal} :
    Plans (freeStructure m path r v) op role ↔ ∃ x, v = .int x ∧ x ≠ 0 ∧
      (m.get x).readable = true ∧ (m.get x).typeOr ≠ "" ∧
        op = .free x (m.get x).typeStr ∧ role = some r := by
  unfold freeStructure ObjDump.readable
  dsimp only
  cases v with
  | str s => simp
  | int x =>
    dsimp only [Mos.fetch_int]
    simp only [FieldVal.int.injEq, exists_eq_left', FieldVal.num_int]
    by_cases hx : x = 0
    · simp [hx]
    · by_cases he : (m.get x).exists_ = true
      · by_cases hu : (m.get x).unreadable = true
        · simp [hx, he, hu]
        · by_cases ht : (m.get x).typeOr = "" <;> simp [hx, he, hu, ht]
      · simp [hx, he]

theorem subtreeRef_iff {r : FreeRole} {x : ℕ} :
    (r, FieldVal.int x) ∈ orphanSubtree m (.int H) D (m.get D) ∧ x ≠ 0 ↔
      SubtreeRef m D H r x := by
  unfold orphanSubtree SubtreeRef Ref
  cases r <;> simp [eq_comm] <;> omega

theorem plans_planOrphanRemoval (hD : (m.get D).readable = true) :
    Plans (planOrphanRemoval m (.int H) (some D) path) op role ↔
      Plans (orphanNamespace m D (m.get D)) op role ∨
      Plans (orphanCloneRefs m (.int H) (m.get D)) op role ∨
      ∃ r x, SubtreeRef m D H r x ∧ (m.get x).readable = true ∧ (m.get x).typeOr ≠ "" ∧
        op = .free x (m.get x).typeStr ∧ role = some r := by
  unfold planOrphanRemoval
  dsimp only
  rw [if_neg (by simp [hD]), plans_append, plans_append, plans_flatMap, or_assoc]
  refine or_congr_right (or_congr_right ?_)
  simp only [plans_freeStructure]
  constructor
  · rintro ⟨⟨r, v⟩, he, x, rfl, hx, hr, ht, rfl, rfl⟩
    exact ⟨r, x, subtreeRef_iff.mp ⟨he, hx⟩, hr, ht, rfl, rfl⟩
  · rintro ⟨r, x, hs, hr, ht, rfl, rfl⟩
    obtain ⟨he, hx⟩ := subtreeRef_iff.mpr hs
    exact ⟨⟨r, .int x⟩, he, x, rfl, hx, hr, ht, rfl, rfl⟩

theorem plans_checkNextClones :
    Plans (checkNextClones m (.int H) (m.get H) path) op role ↔
      ∃ Z, Ref m H "next_clones_obj" Z ∧
        ((∃ k v, DanglingClone m Z k v ∧ op = .zapRemove Z k v ∧ role = none) ∨
          ((m.get Z).readable = true ∧ danglingCount m Z ≠ 0 ∧
            ∃ nc, (m.get H).numChildren = some nc ∧
              op = .bonusSet H nc ((nc : ℤ) - danglingCount m Z) ∧ role = none)) := by
  unfold checkNextClones
  dsimp only
  rw [exists_ref_iff]
  cases (m.get H).ref "next_clones_obj" with
  | str s => cases (m.get H).numChildren <;> cases (FieldVal.str s).truthy <;> simp [checkClonesZap]
  | int Z =>
    have hcount : (checkClonesZap m (.int Z) s!"{path} next_clones").1 =
        if (m.get Z).readable then danglingCount m Z else 0 := by
      unfold checkClonesZap danglingCount
      dsimp only [Mos.fetch_int]
      cases (m.get Z).readable <;> rfl
    by_cases hZ : Z = 0
    · simp [hZ]
    · rw [if_neg (by simpa using hZ), plans_append, plans_checkClonesZap, hcount]
      simp only [ne_eq, hZ, not_false_eq_true, true_and]
      refine or_congr_right ?_
      cases (m.get Z).readable <;> cases (m.get H).numChildren <;>
        by_cases hd : danglingCount m Z = 0 <;> simp [hd]

theorem not_plans_checkDatasetRefs {v : FieldVal} {ds : ObjDump} :
    ¬ Plans (checkDatasetRefs m v ds path) op role := by
  unfold checkDatasetRefs
  dsimp only
  rw [plans_append, plans_flatMap]
  rintro (h | ⟨f, -, h⟩) <;> split_ifs at h <;> simp at h

theorem isDataset_iff {d : ObjDump} :
    isDataset d = true ↔ d.readable = true ∧ d.hasType "DSL dataset" = true := by
  simp [isDataset]

theorem plans_checkDataset :
    Plans (checkDataset m (.int H) path (some D)) op role ↔
      ((m.get H).unreadable = true ∧
        Plans (planOrphanRemoval m (.int H) (some D) path) op role) ∨
      (isDataset (m.get H) = true ∧ Plans (checkNextClones m (.int H) (m.get H) path) op role) := by
  unfold checkDataset isDataset ObjDump.readable
  dsimp only [Mos.fetch_int]
  cases he : (m.get H).exists_ with
  | false => simp [((m.get H).absent he).1]
  | true =>
    cases (m.get H).unreadable with
    | true => simp
    | false =>
      cases (m.get H).hasType "DSL dataset" with
      | false => simp
      | true => simp [not_plans_checkDatasetRefs]

theorem plans_childSteps {v : FieldVal} {name : String} {c : ℕ} :
    Plans (emits (childSteps m v path name c)) op role ↔ name ∉ specialNames ∧
      (m.get c).hasType "DSL directory" = false ∧ op = .zapRemove v.num name c ∧ role = none := by
  unfold childSteps danglingEntry recycledEntry
  split_ifs with hs he ht
  · simp [hs, emits]
  · have : (m.get c).hasType "DSL directory" = false :=
      ObjDump.hasType_of_not_exists (by decide) (by simpa using he)
    rw [Traverse.emits_map_emit]
    simp [hs, this]
  · rw [Traverse.emits_map_emit]
    simp [hs, show (m.get c).hasType "DSL directory" = false by simpa using ht]
  · simp [emits, show (m.get c).hasType "DSL directory" = true by simpa using ht]

theorem plans_emits_flatMap {α : Type*} {l : List α} {f : α → List (Step (ℕ × String) Event)} :
    Plans (emits (l.flatMap f)) op role ↔ ∃ a ∈ l, Plans (emits (f a)) op role := by
  rw [← plans_flatMap]
  induction l with
  | nil => rfl
  | cons a l ih => simp only [List.flatMap_cons, Traverse.emits_append, plans_append, ih]

theorem plans_childrenSteps :
    Plans (emits (childrenSteps m D path)) op role ↔ ∃ M, Ref m D "child_dir_zapobj" M ∧
      ∃ name c, StaleChild m M name c ∧ op = .zapRemove M name c ∧ role = none := by
  unfold childrenSteps childmapSteps StaleChild
  dsimp only
  rw [exists_ref_iff]
  cases (m.get D).ref "child_dir_zapobj" with
  | str s => cases (FieldVal.str s).truthy <;> simp [emits, childmapUnreadable]
  | int M =>
    dsimp only
    rw [Mos.fetch_int]
    by_cases hM : M = 0
    · simp [hM, emits]
    · rw [if_pos (by simpa using hM)]
      by_cases hr : (m.get M).readable = true
      · rw [if_neg (by simpa using hr), plans_emits_flatMap]
        simp only [PyStr.mem_sortedItems, plans_childSteps, FieldVal.num_int, Prod.exists, Entry,
          ne_eq, hM, not_false_eq_true, hr, true_and, and_assoc]
      · simp [hr, emits, childmapUnreadable]

theorem plans_headEvents :
    Plans (headEvents m D path) op role ↔ ∃ H, Ref m D "head_dataset_obj" H ∧
      Plans (checkDataset m (.int H) s!"{path}@head" (some D)) op role := by
  unfold headEvents
  dsimp only
  rw [exists_ref_iff]
  cases (m.get D).ref "head_dataset_obj" with
  | str s => cases (FieldVal.str s).truthy <;> simp [checkDataset]
  | int H => by_cases hH : H = 0 <;> simp [hH]

theorem plans_clonesEvents :
    Plans (clonesEvents m D path) op role ↔ ∃ Z, Ref m D "clones" Z ∧
      ∃ k v, DanglingClone m Z k v ∧ op = .zapRemove Z k v ∧ role = none := by
  unfold clonesEvents
  dsimp only
  rw [exists_ref_iff]
  cases (m.get D).ref "clones" with
  | str s => cases (FieldVal.str s).truthy <;> simp [not_plans_checkClonesZap_str]
  | int Z => by_cases hZ : Z = 0 <;> simp [hZ, plans_checkClonesZap]

theorem plans_dirEvents :
    Plans (dirEvents m (D, path)) op role ↔
      isDirectory (m.get D) = true ∧ (Plans (headEvents m D path) op role ∨
        Plans (emits (childrenSteps m D path)) op role ∨
        Plans (clonesEvents m D path) op role) := by
  unfold dirEvents dirSteps isDirectory
  dsimp only
  split_ifs with hr ht
  · simp [emits, dirUnreadable, show (m.get D).readable = false by simpa using hr]
  · simp [emits, dirRecycled, show (m.get D).hasType "DSL directory" = false by simpa using ht]
  · simp [show (m.get D).readable = true by simpa using hr,
      show (m.get D).hasType "DSL directory" = true by simpa using ht]

/-- What the check of the head dataset plans. -/
theorem plans_headEvents_iff (hr : (m.get D).readable = true) :
    Plans (headEvents m D path) op role ↔ HeadPlanned m D op role := by
  simp only [plans_headEvents, plans_checkDataset, plans_planOrphanRemoval hr,
    plans_orphanNamespace, plans_orphanCloneRefs, plans_orphanNextClones, plans_orphanDirClones,
    plans_checkNextClones]
  constructor
  · rintro ⟨H, hH, ⟨hu, horph⟩ | ⟨hds, Z, hZ, hcl⟩⟩
    · have hO : Orphan m D H := ⟨hH, hu⟩
      rcases horph with ⟨P, hP, hrP, M, hM, name, he, rfl, rfl⟩ | ⟨O, hOr, hrO, hnext | hdir⟩ |
        ⟨r, x, hx, hrx, htx, rfl, rfl⟩
      · exact .orphanName hO hP hrP hM he
      · obtain ⟨Z, hZ, k, he, ⟨rfl, rfl⟩ | ⟨nc, hnc, rfl, rfl⟩⟩ := hnext
        · exact .orphanNextClone hO hOr hrO hZ he
        · exact .orphanCount hO hOr hrO hZ he hnc
      · obtain ⟨OD, hOD, hrOD, Z, hZ, k, he, rfl, rfl⟩ := hdir
        exact .orphanClone hO hOr hrO hOD hrOD hZ he
      · exact .orphanFree hO hx hrx htx
    · rcases hcl with ⟨k, v, hd, rfl, rfl⟩ | ⟨hrZ, hn, nc, hnc, rfl, rfl⟩
      · exact .nextClone hH hds hZ hd
      · exact .childCount hH hds hZ hrZ hn hnc
  · intro h
    cases h with
    | nextClone hH hds hZ hd => exact ⟨_, hH, .inr ⟨hds, _, hZ, .inl ⟨_, _, hd, rfl, rfl⟩⟩⟩
    | childCount hH hds hZ hrZ hn hnc =>
      exact ⟨_, hH, .inr ⟨hds, _, hZ, .inr ⟨hrZ, hn, _, hnc, rfl, rfl⟩⟩⟩
    | orphanName hO hP hrP hM he =>
      exact ⟨_, hO.1, .inl ⟨hO.2, .inl ⟨_, hP, hrP, _, hM, _, he, rfl, rfl⟩⟩⟩
    | orphanNextClone hO hOr hrO hZ he =>
      exact ⟨_, hO.1, .inl ⟨hO.2, .inr (.inl ⟨_, hOr, hrO,
        .inl ⟨_, hZ, _, he, .inl ⟨rfl, rfl⟩⟩⟩)⟩⟩
    | orphanCount hO hOr hrO hZ he hnc =>
      exact ⟨_, hO.1, .inl ⟨hO.2, .inr (.inl ⟨_, hOr, hrO,
        .inl ⟨_, hZ, _, he, .inr ⟨_, hnc, rfl, rfl⟩⟩⟩)⟩⟩
    | orphanClone hO hOr hrO hOD hrOD hZ he =>
      exact ⟨_, hO.1, .inl ⟨hO.2, .inr (.inl ⟨_, hOr, hrO,
        .inr ⟨_, hOD, hrOD, _, hZ, _, he, rfl, rfl⟩⟩)⟩⟩
    | orphanFree hO hx hrx htx =>
      exact ⟨_, hO.1, .inl ⟨hO.2, .inr (.inr ⟨_, _, hx, hrx, htx, rfl, rfl⟩)⟩⟩

/-- **What the walk plans for a directory.** -/
theorem plans_dirEvents_iff (hD : isDirectory (m.get D) = true) :
    Plans (dirEvents m (D, path)) op role ↔ DirPlanned m D op role := by
  rw [plans_dirEvents, and_iff_right hD, plans_headEvents_iff (isDirectory_iff.mp hD).1,
    plans_childrenSteps, plans_clonesEvents, dirPlanned_iff]

end Directory

/-! ## The whole scan -/

/-- What a scan plans. -/
inductive Planned (m : Mos) : Op → Option FreeRole → Prop
  | errlog {op : Op} {role : Option FreeRole} : ErrlogPlanned m op role → Planned m op role
  | scan : StaleScan m → Planned m (.zapZero mosDirObj "scan" scanWords) none
  | dir {D : ℕ} {op : Op} {role : Option FreeRole} : Reached m D → DirPlanned m D op role →
      Planned m op role

theorem ErrlogPlanned.readable_mos {m : Mos} {op : Op} {role : Option FreeRole}
    (h : ErrlogPlanned m op role) : (m.get mosDirObj).readable = true := by
  cases h with
  | reset he => exact he.1
  | head he => exact he.1
  | objset he => exact he.1

theorem Planned.readable_mos {m : Mos} {op : Op} {role : Option FreeRole}
    (h : Planned m op role) : (m.get mosDirObj).readable = true := by
  cases h with
  | errlog h => exact h.readable_mos
  | scan h => exact h.1
  | dir h _ => exact h.readable_mos

theorem Walks.plans_log {m : Mos} {nodes : List (ℕ × String)} {log : List Event}
    (h : Walks m nodes log) {op : Op} {role : Option FreeRole} :
    Plans log op role ↔ ∃ n ∈ nodes, Plans (dirEvents m n) op role := by
  simp only [Plans, h.mem_log]
  constructor
  · rintro ⟨c, n, hn, he⟩; exact ⟨n, hn, c, he⟩
  · rintro ⟨n, hn, c, he⟩; exact ⟨c, n, hn, he⟩

/-- **What a scan plans.** -/
theorem plans_run {m : Mos} {op : Op} {role : Option FreeRole} :
    Plans (run m) op role ↔ Planned m op role := by
  by_cases h1 : (m.get mosDirObj).readable = true
  · obtain ⟨nodes, log, hw, hrun⟩ := run_walks h1
    have hroot : ¬ Plans (if rootDataset m = 0 then [noRoot] else []) op role := by
      split_ifs <;> simp [noRoot]
    rw [hrun, plans_append, plans_append, plans_append, plans_checkErrlog h1, plans_checkScan h1,
      hw.plans_log, or_iff_left hroot]
    constructor
    · rintro ((h | ⟨hs, rfl, rfl⟩) | ⟨⟨D, path⟩, hn, hp⟩)
      · exact .errlog h
      · exact .scan hs
      · have hD := (plans_dirEvents.mp hp).1
        exact .dir (reached_iff_walked.mpr ⟨(hw.mem_nodes D).mp (List.mem_map_of_mem hn), hD⟩)
          ((plans_dirEvents_iff hD).mp hp)
    · intro h
      cases h with
      | errlog h => exact .inl (.inl h)
      | scan hs => exact .inl (.inr ⟨hs, rfl, rfl⟩)
      | dir hD hp =>
        obtain ⟨hwD, hdir⟩ := reached_iff_walked.mp hD
        obtain ⟨⟨D, path⟩, hn, rfl⟩ := List.mem_map.mp ((hw.mem_nodes _).mpr hwD)
        exact .inr ⟨_, hn, (plans_dirEvents_iff hdir).mpr hp⟩
  · have hno : ¬ Plans (run m) op role := by
      rw [plans_iff_opsOf, (run_unreadable (by simpa using h1)).1]
      simp
    exact iff_of_false hno fun h => h1 h.readable_mos

theorem ObjDump.type_of_typeOr {d : ObjDump} (h : d.typeOr ≠ "") : d.type = some d.typeStr := by
  cases ht : d.type with
  | none => exact absurd (by simp [ObjDump.typeOr, ht]) h
  | some t => simp [ObjDump.typeStr, ht]

theorem ObjDump.type_of_errorLog {d : ObjDump} (h : d.hasType "error log" = true) :
    d.type = some d.typeStr := by
  refine type_of_typeOr fun he => ?_
  simp [ObjDump.hasType, he, PyStr.contains_iff] at h

/-- A freed object was observed, with the type the plan prints. -/
theorem Planned.free_observed {m : Mos} {N : ℕ} {T : String} {role : Option FreeRole}
    (h : Planned m (.free N T) role) : (m.get N).exists_ = true ∧ (m.get N).type = some T := by
  cases h with
  | errlog h =>
    cases h with
    | head _ hs =>
      exact ⟨ObjDump.exists_of_hasType (by decide) hs.1, ObjDump.type_of_errorLog hs.1⟩
    | objset _ _ _ ht =>
      exact ⟨ObjDump.exists_of_hasType (by decide) ht, ObjDump.type_of_errorLog ht⟩
  | dir _ h =>
    cases h with
    | orphanFree _ _ hr ht => exact ⟨ObjDump.exists_of_readable hr, ObjDump.type_of_typeOr ht⟩

/-- **What the plan contains.** -/
theorem mem_plan {m : Mos} {op : Op} :
    (∃ p ∈ plan m, p.op = op) ↔ ∃ role, Planned m op role := by
  unfold plan
  rw [mem_dedupeOps]
  simp only [← plans_run, plans_iff_opsOf]
  constructor
  · rintro ⟨p, hp, h⟩; exact ⟨p.role, p, hp, h, rfl⟩
  · rintro ⟨_, p, hp, h, -⟩; exact ⟨p, hp, h⟩

/-- References are removed by the walk only. -/
theorem zapRemove_mem_plan {m : Mos} {Z v : ℕ} {k : String} :
    (∃ p ∈ plan m, p.op = .zapRemove Z k v) ↔
      ∃ D, Reached m D ∧ DirPlanned m D (.zapRemove Z k v) none := by
  rw [mem_plan]
  constructor
  · rintro ⟨role, h⟩
    cases h with
    | errlog h => cases h
    | dir hD h =>
      have : role = none := by cases h <;> rfl
      exact ⟨_, hD, this ▸ h⟩
  · rintro ⟨D, hD, h⟩
    exact ⟨none, .dir hD h⟩

/-- References are cleared by the error-log check only. -/
theorem zapSet_mem_plan {m : Mos} {obj h v : ℕ} {name : String} :
    (∃ p ∈ plan m, p.op = .zapSet obj name h v) ↔
      obj = mosDirObj ∧ v = 0 ∧ ErrlogEntry m name h ∧ Resets m h := by
  rw [mem_plan]
  constructor
  · rintro ⟨role, hp⟩
    cases hp with
    | errlog hp => cases hp with | reset he hr => exact ⟨rfl, rfl, he, hr⟩
    | dir _ hp => cases hp
  · rintro ⟨rfl, rfl, he, hr⟩
    exact ⟨none, .errlog (.reset he hr)⟩

end Zhaxx.Scan
