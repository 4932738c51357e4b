import Zhaxx.Scan.Planned

/-!
# Scans without findings

Result:
* `findings_eq_nil_iff`: a scan reports nothing exactly when the MOS directory
  is readable, names no error log, no in-progress scan and a root, and every
  directory below the root is intact; and then it plans nothing.
-/

namespace Zhaxx.Scan

open Traverse (Step State emits)

/-! ## Intact structures -/

/-- A readable clones ZAP all of whose targets are readable DSL datasets. -/
def CleanClones (m : Mos) (z : ObjDump) : Prop :=
  z.readable = true ∧ ∀ e ∈ z.zap.entries, isDataset (m.get e.2) = true

/-- A readable child map all of whose non-special targets are DSL directories. -/
def CleanChildMap (m : Mos) (z : ObjDump) : Prop :=
  z.readable = true ∧ ∀ e ∈ z.zap.entries, e.1 ∉ specialNames →
    (m.get e.2).exists_ = true ∧ (m.get e.2).hasType "DSL directory" = true

/-- A readable DSL dataset whose nonzero references lead somewhere. -/
structure CleanDataset (m : Mos) (ds : ObjDump) : Prop where
  dataset : isDataset ds = true
  nextClones : (ds.ref "next_clones_obj").truthy = true →
    CleanClones m (m.fetch (ds.ref "next_clones_obj"))
  refs : ∀ f ∈ ["prev_snap_obj", "deadlist_obj", "snapnames_zapobj"],
    (ds.ref f).truthy = true → (m.fetch (ds.ref f)).exists_ = true

/-- A readable DSL directory with an intact child map, clones ZAP and head. -/
structure CleanDir (m : Mos) (d : ObjDump) : Prop where
  directory : isDirectory d = true
  childMap : (d.ref "child_dir_zapobj").truthy = true →
    CleanChildMap m (m.fetch (d.ref "child_dir_zapobj"))
  clones : (d.ref "clones").truthy = true → CleanClones m (m.fetch (d.ref "clones"))
  head : (d.ref "head_dataset_obj").truthy = true →
    CleanDataset m (m.fetch (d.ref "head_dataset_obj"))

/-- What the non-special child-map entries lead to from the root. -/
inductive Below (m : Mos) : ℕ → Prop
  | root : Below m (rootDataset m)
  | child {D : ℕ} {e : String × ℕ} : Below m D →
      ((m.get D).ref "child_dir_zapobj").truthy = true →
      e ∈ (m.fetch ((m.get D).ref "child_dir_zapobj")).zap.entries → e.1 ∉ specialNames →
      Below m e.2

/-- A consistent namespace. -/
structure Consistent (m : Mos) : Prop where
  mos : (m.get mosDirObj).readable = true
  errlog : ∀ name ∈ errlogNames,
    (m.get mosDirObj).zap.get? name = none ∨ (m.get mosDirObj).zap.get? name = some 0
  scan : scanEntry (m.get mosDirObj) = none ∨
    ∃ ws, scanEntry (m.get mosDirObj) = some ws ∧ ws.getD 1 0 ≠ dssScanning
  root : rootDataset m ≠ 0
  dirs : ∀ D, Below m D → CleanDir m (m.get D)

/-! ## Checks that report nothing -/

/-- `es` contains no finding. -/
def Silent (es : List Event) : Prop := findingsOf es = []

section Silent

variable {es es' : List Event}

@[simp] theorem silent_nil : Silent [] := rfl

@[simp] theorem silent_append : Silent (es ++ es') ↔ Silent es ∧ Silent es' := by
  simp [Silent]

@[simp] theorem silent_cons_add {s : Severity} {obj : FieldVal} {t : String} :
    ¬ Silent (add s obj t :: es) := by
  simp [Silent, add, findingsOf]

@[simp] theorem silent_cons_addOp {op : Op} {c : String} {role : Option FreeRole} :
    Silent (addOp op c role :: es) ↔ Silent es := by
  simp [Silent, addOp, findingsOf]

theorem silent_iff_forall : Silent es ↔ ∀ e ∈ es, Silent [e] := by
  induction es with
  | nil => simp
  | cons e es ih =>
    have : Silent (e :: es) ↔ Silent [e] ∧ Silent es := @silent_append [e] es
    rw [this, ih, List.forall_mem_cons]

@[simp] theorem silent_flatMap {α : Type*} {l : List α} {f : α → List Event} :
    Silent (l.flatMap f) ↔ ∀ a ∈ l, Silent (f a) := by
  induction l with
  | nil => simp
  | cons a l ih => simp [ih]

theorem silent_emits_flatMap {α : Type*} {l : List α} {f : α → List (Step (ℕ × String) Event)} :
    Silent (emits (l.flatMap f)) ↔ ∀ a ∈ l, Silent (emits (f a)) := by
  induction l with
  | nil => simp [emits]
  | cons a l ih => simp [ih]

end Silent

section Checks

variable {m : Mos}

theorem silent_checkErrlogHead {name : String} {h : ℕ} :
    Silent (checkErrlogHead m name h) ↔ h = 0 := by
  unfold checkErrlogHead
  dsimp only
  split_ifs with h0 he ht hs
  · simp [h0]
  · simp [h0]
  · simp [h0]
  · simp [h0]
  · obtain ⟨s, ss, hss⟩ : ∃ s ss, staleEntries m (m.get h) = s :: ss :=
      List.exists_cons_of_ne_nil (by simpa using hs)
    simp [hss, h0]

theorem silent_checkErrlog {mos : ObjDump} :
    Silent (checkErrlog m mos) ↔
      ∀ name ∈ errlogNames, mos.zap.get? name = none ∨ mos.zap.get? name = some 0 := by
  unfold checkErrlog
  simp only [silent_flatMap, silent_checkErrlogHead, Dict.getD]
  refine forall₂_congr fun name _ => ?_
  cases mos.zap.get? name <;> simp

theorem silent_checkScan {mos : ObjDump} :
    Silent (checkScan m mos) ↔
      scanEntry mos = none ∨ ∃ ws, scanEntry mos = some ws ∧ ws.getD 1 0 ≠ dssScanning := by
  unfold checkScan
  cases scanEntry mos with
  | none => simp
  | some scan =>
    dsimp only
    simp only [reduceCtorEq, Option.some.injEq, exists_eq_left', false_or]
    generalize scan.getD 1 0 = state
    split_ifs with hst hq hp hp
    · simp [hst]
    · simp [hst]
    · exact absurd (List.cons_ne_nil _ _) hp
    · exact absurd rfl hp
    · simp [hst]

theorem silent_checkClonesZap {v : FieldVal} {path : String} :
    Silent (checkClonesZap m v path).2 ↔ CleanClones m (m.fetch v) := by
  unfold checkClonesZap CleanClones
  dsimp only
  split_ifs with hr
  · simp [show (m.fetch v).readable = false by simpa using hr]
  · have hr' : (m.fetch v).readable = true := by simpa using hr
    simp only [silent_flatMap, silent_cons_add, hr', true_and, danglingClones, List.mem_filter,
      PyStr.mem_sortedItems, Bool.not_eq_true', imp_false, not_and, Bool.not_eq_false]

theorem silent_checkNextClones {v : FieldVal} {ds : ObjDump} {path : String} :
    Silent (checkNextClones m v ds path) ↔
      ((ds.ref "next_clones_obj").truthy = true →
        CleanClones m (m.fetch (ds.ref "next_clones_obj"))) := by
  unfold checkNextClones
  dsimp only
  by_cases ht : (ds.ref "next_clones_obj").truthy = true
  · rw [if_neg (by simpa using ht), silent_append, silent_checkClonesZap]
    generalize (checkClonesZap m (ds.ref "next_clones_obj") s!"{path} next_clones").1 = nDangling
    cases ds.numChildren <;> by_cases hn : nDangling = 0 <;> simp [ht, hn]
  · simp [ht]

theorem silent_checkDatasetRefs {v : FieldVal} {ds : ObjDump} {path : String} :
    Silent (checkDatasetRefs m v ds path) ↔
      ∀ f ∈ ["prev_snap_obj", "deadlist_obj", "snapnames_zapobj"],
        (ds.ref f).truthy = true → (m.fetch (ds.ref f)).exists_ = true := by
  have href : ∀ (f : String) (e : Event), ¬ Silent [e] →
      (Silent (if (ds.ref f).truthy && !(m.fetch (ds.ref f)).exists_ then [e] else []) ↔
        ((ds.ref f).truthy = true → (m.fetch (ds.ref f)).exists_ = true)) := by
    intro f e he
    cases (ds.ref f).truthy <;> cases (m.fetch (ds.ref f)).exists_ <;> simp [he]
  unfold checkDatasetRefs
  dsimp only
  rw [silent_append, silent_flatMap, List.forall_mem_cons, href _ _ silent_cons_add]
  simp only [href _ _ silent_cons_add]
  simp only [List.forall_mem_cons]

theorem silent_checkDataset {v : FieldVal} {path : String} {dir : Option ℕ} :
    Silent (checkDataset m v path dir) ↔ CleanDataset m (m.fetch v) := by
  have hds : CleanDataset m (m.fetch v) ↔ isDataset (m.fetch v) = true ∧
      Silent (checkNextClones m v (m.fetch v) path ++ checkDatasetRefs m v (m.fetch v) path) := by
    rw [silent_append, silent_checkNextClones, silent_checkDatasetRefs]
    exact ⟨fun h => ⟨h.1, h.2, h.3⟩, fun h => ⟨h.1, h.2.1, h.2.2⟩⟩
  rw [hds]
  unfold checkDataset isDataset ObjDump.readable
  dsimp only
  split_ifs with he hu ht
  · simp [show (m.fetch v).exists_ = false by simpa using he]
  · simp [hu]
  · simp [show (m.fetch v).hasType "DSL dataset" = false by simpa using ht]
  · simp only [Bool.not_eq_true', Bool.not_eq_true, Bool.not_eq_false] at he hu ht
    simp [he, hu, ht]

theorem silent_childSteps {v : FieldVal} {path name : String} {c : ℕ} :
    Silent (emits (childSteps m v path name c)) ↔ (name ∉ specialNames →
      (m.get c).exists_ = true ∧ (m.get c).hasType "DSL directory" = true) := by
  unfold childSteps danglingEntry recycledEntry
  split_ifs with hs he ht
  · simp [hs, emits]
  · rw [Traverse.emits_map_emit]
    simp [hs, show (m.get c).exists_ = false by simpa using he]
  · rw [Traverse.emits_map_emit]
    simp [hs, show (m.get c).hasType "DSL directory" = false by simpa using ht]
  · simp only [Bool.not_eq_true', Bool.not_eq_false] at he ht
    simp [emits, he, ht]

theorem silent_childrenSteps {D : ℕ} {path : String} :
    Silent (emits (childrenSteps m D path)) ↔
      (((m.get D).ref "child_dir_zapobj").truthy = true →
        CleanChildMap m (m.fetch ((m.get D).ref "child_dir_zapobj"))) := by
  unfold childrenSteps childmapSteps CleanChildMap
  dsimp only
  generalize (m.get D).ref "child_dir_zapobj" = v
  split_ifs with hc hr
  · simp [hc, emits, childmapUnreadable, show (m.fetch v).readable = false by simpa using hr]
  · rw [silent_emits_flatMap]
    simp only [PyStr.mem_sortedItems, silent_childSteps, hc, true_imp_iff,
      show (m.fetch v).readable = true by simpa using hr, true_and]
  · simp [hc, emits]

/-- **What the walk reports for a directory.** -/
theorem silent_dirEvents {n : ℕ × String} :
    Silent (dirEvents m n) ↔ CleanDir m (m.get n.1) := by
  have hdir : CleanDir m (m.get n.1) ↔ isDirectory (m.get n.1) = true ∧
      Silent (headEvents m n.1 n.2) ∧ Silent (emits (childrenSteps m n.1 n.2)) ∧
        Silent (clonesEvents m n.1 n.2) := by
    have hhead : Silent (headEvents m n.1 n.2) ↔
        (((m.get n.1).ref "head_dataset_obj").truthy = true →
          CleanDataset m (m.fetch ((m.get n.1).ref "head_dataset_obj"))) := by
      unfold headEvents
      dsimp only
      split_ifs with h <;> simp [h, silent_checkDataset]
    have hclones : Silent (clonesEvents m n.1 n.2) ↔ (((m.get n.1).ref "clones").truthy = true →
        CleanClones m (m.fetch ((m.get n.1).ref "clones"))) := by
      unfold clonesEvents
      dsimp only
      split_ifs with h <;> simp [h, silent_checkClonesZap]
    rw [hhead, hclones, silent_childrenSteps]
    exact ⟨fun h => ⟨h.1, h.4, h.2, h.3⟩, fun h => ⟨h.1, h.2.2.1, h.2.2.2, h.2.1⟩⟩
  rw [hdir]
  unfold dirEvents dirSteps isDirectory
  split_ifs with hr ht
  · simp [emits, dirUnreadable, show (m.get n.1).readable = false by simpa using hr]
  · simp [emits, dirRecycled, show (m.get n.1).hasType "DSL directory" = false by simpa using ht]
  · simp [show (m.get n.1).readable = true by simpa using hr,
      show (m.get n.1).hasType "DSL directory" = true by simpa using ht]

end Checks

/-! ## The whole scan -/

theorem Walked.isBelow {m : Mos} {D : ℕ} (h : Walked m D) : Below m D := by
  induction h with
  | root => exact .root
  | @child D M c name _ _ hM _ he hn _ ih =>
    refine Below.child (e := (name, c)) ih ?_ ?_ hn
    · rw [hM.1]; simpa using hM.2
    · rw [hM.1]; exact he

/-- If every walked directory is intact, the walk meets everything below the
    root. -/
theorem Below.isWalked {m : Mos} (h1 : (m.get mosDirObj).readable = true)
    (hr : rootDataset m ≠ 0) (hclean : ∀ D, Walked m D → CleanDir m (m.get D)) {D : ℕ}
    (h : Below m D) : Walked m D := by
  induction h with
  | root => exact .root h1 hr
  | @child D e _ ht he hn ih =>
    have hD := hclean D ih
    obtain ⟨hrz, hall⟩ := hD.childMap ht
    obtain ⟨M, hM, hrM, heM⟩ := (ref_iff (m := m) (n := D) (f := "child_dir_zapobj")
      (p := fun d => d.readable = true ∧ e ∈ d.zap.entries)
      fun d hd => ObjDump.exists_of_readable hd.1).mp ⟨ht, hrz, he⟩
    exact .child ih hD.directory hM hrM heM hn (hall e he hn).2

theorem silent_run_iff {m : Mos} : Silent (run m) ↔ Consistent m := by
  by_cases h1 : (m.get mosDirObj).readable = true
  · obtain ⟨nodes, log, hw, hrun⟩ := run_walks h1
    have hlog : Silent log ↔ ∀ D, Walked m D → CleanDir m (m.get D) := by
      rw [silent_iff_forall]
      constructor
      · intro h D hD
        obtain ⟨n, hn, rfl⟩ := List.mem_map.mp ((hw.mem_nodes D).mpr hD)
        rw [← silent_dirEvents (n := n), silent_iff_forall]
        exact fun e he => h e ((hw.mem_log e).mpr ⟨n, hn, he⟩)
      · intro h e he
        obtain ⟨n, hn, hne⟩ := (hw.mem_log e).mp he
        have hD := h n.1 ((hw.mem_nodes _).mp (List.mem_map_of_mem hn))
        exact silent_iff_forall.mp (silent_dirEvents.mpr hD) e hne
    have hroot : Silent (if rootDataset m = 0 then [noRoot] else []) ↔ rootDataset m ≠ 0 := by
      split_ifs with h <;> simp [h, noRoot]
    rw [hrun, silent_append, silent_append, silent_append, silent_checkErrlog, silent_checkScan,
      hlog, hroot]
    constructor
    · rintro ⟨⟨he, hs⟩, hd, hr⟩
      exact ⟨h1, he, hs, hr, fun D hD => hd D (hD.isWalked h1 hr hd)⟩
    · rintro ⟨-, he, hs, hr, hd⟩
      exact ⟨⟨he, hs⟩, fun D hD => hd D hD.isBelow, hr⟩
  · have hf := (run_unreadable (m := m) (by simpa using h1)).2
    exact iff_of_false hf fun h => h1 h.mos

theorem CleanDir.not_dirPlanned {m : Mos} {D : ℕ} (h : CleanDir m (m.get D)) {op : Op}
    {role : Option FreeRole} : ¬ DirPlanned m D op role := by
  have hclones : ∀ {n f Z}, Ref m n f Z → (((m.get n).ref f).truthy = true →
      CleanClones m (m.fetch ((m.get n).ref f))) → CleanClones m (m.get Z) := by
    intro n f Z hZ hc
    have := hc (by rw [hZ.1]; simpa using hZ.2)
    rwa [hZ.1] at this
  have hhead : ∀ {H}, Ref m D "head_dataset_obj" H → CleanDataset m (m.get H) := by
    intro H hH
    have := h.head (by rw [hH.1]; simpa using hH.2)
    rwa [hH.1] at this
  have horph : ∀ {H}, ¬ Orphan m D H := by
    rintro H ⟨hH, hu⟩
    have hr := (ObjDump.readable_iff.mp (isDataset_iff.mp (hhead hH).dataset).1).2
    rw [hr] at hu
    cases hu
  have hclone : ∀ {Z k v}, CleanClones m (m.get Z) → ¬ DanglingClone m Z k v := by
    rintro Z k v ⟨-, hall⟩ ⟨-, he, hd⟩
    rw [hall (k, v) he] at hd
    cases hd
  intro hp
  cases hp with
  | @staleChild M c name hM hs =>
    have hc := h.childMap (by rw [hM.1]; simpa using hM.2)
    rw [hM.1] at hc
    have := (hc.2 (name, c) hs.2.1 hs.2.2.1).2
    rw [hs.2.2.2] at this
    cases this
  | clone hZ hd => exact hclone (hclones hZ h.clones) hd
  | nextClone hH hds hZ hd => exact hclone (hclones hZ (hhead hH).nextClones) hd
  | childCount hH hds hZ hr hn hnc =>
    obtain ⟨k, v, hd⟩ := exists_danglingClone hr hn
    exact hclone (hclones hZ (hhead hH).nextClones) hd
  | orphanName hO => exact horph hO
  | orphanNextClone hO => exact horph hO
  | orphanCount hO => exact horph hO
  | orphanClone hO => exact horph hO
  | orphanFree hO => exact horph hO

/-- A consistent namespace needs no repair. -/
theorem Consistent.not_planned {m : Mos} (h : Consistent m) {op : Op} {role : Option FreeRole} :
    ¬ Planned m op role := by
  have herr : ∀ {name n}, ¬ ErrlogEntry m name n := by
    rintro name n ⟨-, hn, hv, h0⟩
    rcases h.errlog name hn with h' | h' <;> simp [Dict.getD, h'] at hv <;> exact h0 hv.symm
  intro hp
  cases hp with
  | errlog he =>
    cases he with
    | reset he => exact herr he
    | head he => exact herr he
    | objset he => exact herr he
  | scan hs =>
    obtain ⟨-, ws, hws, hst, -⟩ := hs
    rcases h.scan with h' | ⟨ws', h', hne⟩
    · rw [h'] at hws; cases hws
    · rw [h'] at hws; cases hws; exact hne hst
  | dir hD hdir =>
    exact (h.dirs _ (reached_iff_walked.mp hD).1.isBelow).not_dirPlanned hdir

/-- **A clean report.** -/
theorem findings_eq_nil_iff (m : Mos) :
    (findings m = [] ↔ Consistent m) ∧ (findings m = [] → plan m = []) := by
  refine ⟨silent_run_iff, fun h => ?_⟩
  have hc : Consistent m := silent_run_iff.mp h
  rw [List.eq_nil_iff_forall_not_mem]
  intro p hp
  obtain ⟨role, hpl⟩ := mem_plan.mp ⟨p, hp, rfl⟩
  exact hc.not_planned hpl

end Zhaxx.Scan
