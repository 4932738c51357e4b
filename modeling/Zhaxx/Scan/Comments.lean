import Zhaxx.Scan.Planned

/-!
# Comments of a plan

The scanner writes a comment line above every operation. A comment is built from
entry names, type names and numbers, and stays on its line when those do.

Result:
* `comment_oneLine`: no comment of a plan contains a newline.
-/

namespace Zhaxx.Scan

open Traverse (emits)

/-- The text contains no newline. -/
def OneLine (s : String) : Prop := '\n' ∉ s.toList

/-- Names and types of the MOS contain no newline. -/
structure Printable (m : Mos) : Prop where
  name : ∀ Z k v, Entry m Z k v → OneLine k
  type : ∀ n, OneLine (m.get n).typeStr

/-- No comment in `es` contains a newline. -/
def OneLiners (es : List Event) : Prop := ∀ p ∈ opsOf es, OneLine p.comment

section

variable {es es' : List Event}

@[simp] theorem oneLiners_nil : OneLiners [] := by
  simp [OneLiners, opsOf]

@[simp] theorem oneLiners_append : OneLiners (es ++ es') ↔ OneLiners es ∧ OneLiners es' := by
  simp [OneLiners, or_imp, forall_and]

@[simp] theorem oneLiners_cons_add {s : Severity} {obj : FieldVal} {t : String} :
    OneLiners (add s obj t :: es) ↔ OneLiners es := by
  simp [OneLiners, add]

@[simp] theorem oneLiners_cons_addOp {op : Op} {c : String} {role : Option FreeRole} :
    OneLiners (addOp op c role :: es) ↔ OneLine c ∧ OneLiners es := by
  simp [OneLiners, addOp]

@[simp] theorem oneLiners_flatMap {α : Type*} {l : List α} {f : α → List Event} :
    OneLiners (l.flatMap f) ↔ ∀ a ∈ l, OneLiners (f a) := by
  simp only [OneLiners, mem_opsOf, List.mem_flatMap]
  constructor
  · exact fun h a ha p hp => h p ⟨a, ha, hp⟩
  · rintro h p ⟨a, ha, hp⟩
    exact h a ha p hp

theorem oneLiners_map {α : Type*} {l : List α} {f : α → Event} :
    OneLiners (l.map f) ↔ ∀ a ∈ l, OneLiners [f a] := by
  rw [← oneLiners_flatMap, List.map_eq_flatMap]

end

theorem newline_not_mem_digits (n : ℕ) : '\n' ∉ Nat.toDigits 10 n := fun h => by
  have := Decimal.isDigit_of_mem_digits h
  simp at this

theorem oneLine_int (z : ℤ) : OneLine (toString z) := by
  intro h
  rw [Decimal.toList_toString_int] at h
  split_ifs at h
  · exact newline_not_mem_digits _ h
  · rcases List.mem_cons.mp h with h | h
    · cases h
    · exact newline_not_mem_digits _ h

/-! ## Check by check -/

theorem oneLiners_freeObjsetErrlog (m : Mos) (s : Stale) : OneLiners (freeObjsetErrlog m s) := by
  have hobjset : OneLine (s!"free per-objset error log for objset {s.objset}") := by
    have := oneLine_int s.objset
    generalize toString s.objset = t at this ⊢
    simpa [OneLine, toString_string] using this
  unfold freeObjsetErrlog
  dsimp only
  split_ifs
  · exact oneLiners_cons_addOp.mpr ⟨hobjset, oneLiners_nil⟩
  · exact oneLiners_cons_add.mpr oneLiners_nil
  · exact oneLiners_nil

theorem oneLiners_checkErrlogHead {m : Mos} {name : String} (hn : OneLine name) (h : ℕ) :
    OneLiners (checkErrlogHead m name h) := by
  have hclear : OneLine (s!"clear dangling {name} reference") := by
    simpa [OneLine, toString_string] using hn
  have hdetach : OneLine
      (s!"detach {name} from recycled object (leave the object itself alone)") := by
    simpa [OneLine, toString_string] using hn
  have hbreak : OneLine (s!"break the {name} error-log chain") := by
    simpa [OneLine, toString_string] using hn
  have hfree : OneLine (s!"free stale {name} head") := by
    simpa [OneLine, toString_string] using hn
  unfold checkErrlogHead
  dsimp only
  split_ifs
  · exact oneLiners_nil
  · rw [oneLiners_cons_add, oneLiners_cons_addOp]
    exact ⟨hclear, oneLiners_nil⟩
  · rw [oneLiners_cons_add, oneLiners_cons_addOp]
    exact ⟨hdetach, oneLiners_nil⟩
  · exact oneLiners_cons_add.mpr oneLiners_nil
  · rw [oneLiners_append, oneLiners_append, oneLiners_cons_addOp, oneLiners_cons_addOp,
      oneLiners_flatMap, oneLiners_map]
    exact ⟨⟨fun s _ => oneLiners_cons_add.mpr oneLiners_nil, hbreak, hfree, oneLiners_nil⟩,
      fun s _ => oneLiners_freeObjsetErrlog m s⟩

theorem oneLiners_checkErrlog (m : Mos) (mos : ObjDump) : OneLiners (checkErrlog m mos) := by
  unfold checkErrlog
  rw [oneLiners_flatMap]
  intro name hname
  refine oneLiners_checkErrlogHead ?_ _
  unfold errlogNames at hname
  simp only [List.mem_cons, List.not_mem_nil, or_false] at hname
  rcases hname with rfl | rfl <;> simp [OneLine]

theorem oneLiners_checkScan (m : Mos) (mos : ObjDump) : OneLiners (checkScan m mos) := by
  unfold checkScan
  cases scanEntry mos with
  | none => exact oneLiners_nil
  | some scan =>
    dsimp only
    split_ifs <;> simp [OneLine]

section

variable {m : Mos} (hm : Printable m) {path : String} (hpath : OneLine path)

include hm hpath

theorem oneLiners_checkClonesZap (zapObj : FieldVal) :
    OneLiners (checkClonesZap m zapObj path).2 := by
  unfold checkClonesZap
  dsimp only
  split_ifs
  · exact oneLiners_cons_add.mpr oneLiners_nil
  · rw [oneLiners_flatMap]
    intro e _
    have ht := hm.type e.2
    unfold cloneWhy
    rw [oneLiners_cons_add, oneLiners_cons_addOp]
    refine ⟨?_, oneLiners_nil⟩
    split_ifs
    · simpa [OneLine, toString_string] using hpath
    · simpa [OneLine, toString_string] using hpath
    · simpa [OneLine, toString_string] using ⟨ht, hpath⟩

omit hpath in
theorem oneLine_entry {v : FieldVal} {e : String × ℕ} (he : e ∈ (m.fetch v).zap.entries) :
    OneLine e.1 := by
  cases v with
  | int n => exact hm.name n e.1 e.2 he
  | str s => cases he

omit hm hpath in
theorem oneLiners_orphanNextClones (dsObj origin : FieldVal) (o : ObjDump) :
    OneLiners (orphanNextClones m dsObj origin o) := by
  unfold orphanNextClones
  dsimp only
  split_ifs
  · exact oneLiners_nil
  · rw [oneLiners_flatMap]
    intro e _
    cases o.numChildren <;> simp [OneLine]

omit hm hpath in
theorem oneLiners_orphanDirClones (dsObj : FieldVal) (o : ObjDump) :
    OneLiners (orphanDirClones m dsObj o) := by
  unfold orphanDirClones
  dsimp only
  generalize (if (m.fetch (o.ref "dir_obj")).readable = true then
    (m.fetch (o.ref "dir_obj")).ref "clones" else .int 0) = ocl
  split_ifs
  · exact oneLiners_nil
  · exact oneLiners_nil
  · rw [oneLiners_map]
    intro e _
    simp [OneLine]

omit hpath in
theorem oneLiners_orphanNamespace (dirObj : ℕ) (d : ObjDump) :
    OneLiners (orphanNamespace m dirObj d) := by
  unfold orphanNamespace
  dsimp only
  generalize (if (m.fetch (d.ref "parent_dir_obj")).readable = true then
    (m.fetch (d.ref "parent_dir_obj")).ref "child_dir_zapobj" else .int 0) = pm
  split_ifs
  · exact oneLiners_nil
  · exact oneLiners_nil
  · rw [oneLiners_map]
    intro e he
    have hname := oneLine_entry hm (List.mem_filter.mp he).1
    refine oneLiners_cons_addOp.mpr ⟨?_, oneLiners_nil⟩
    simpa [OneLine, toString_string] using hname

theorem oneLiners_freeStructure (role : FreeRole) (obj : FieldVal) :
    OneLiners (freeStructure m path role obj) := by
  have ht : OneLine (m.fetch obj).typeStr := by
    cases obj with
    | int n => exact hm.type n
    | str s => simp [OneLine, ObjDump.typeStr, ObjDump.missing]
  unfold freeStructure
  dsimp only
  split_ifs
  · exact oneLiners_nil
  · exact oneLiners_cons_add.mpr oneLiners_nil
  · refine oneLiners_cons_addOp.mpr ⟨?_, oneLiners_nil⟩
    simpa [OneLine, toString_string] using ⟨ht, hpath⟩
  · exact oneLiners_cons_add.mpr oneLiners_nil
  · exact oneLiners_nil

theorem oneLiners_planOrphanRemoval (dsObj : FieldVal) (dirObj : Option ℕ) :
    OneLiners (planOrphanRemoval m dsObj dirObj path) := by
  unfold planOrphanRemoval orphanCloneRefs
  cases dirObj with
  | none => exact oneLiners_nil
  | some dirObj =>
    dsimp only
    split_ifs
    · exact oneLiners_nil
    all_goals
      rw [oneLiners_append, oneLiners_append, oneLiners_flatMap]
      refine ⟨⟨oneLiners_orphanNamespace hm _ _, ?_⟩,
        fun e _ => oneLiners_freeStructure hm hpath _ _⟩
    · exact oneLiners_nil
    · exact oneLiners_nil
    · exact oneLiners_append.mpr ⟨oneLiners_orphanNextClones _ _ _, oneLiners_orphanDirClones _ _⟩

theorem oneLiners_checkNextClones (dsObj : FieldVal) (ds : ObjDump) :
    OneLiners (checkNextClones m dsObj ds path) := by
  have hcount : ∀ n : ℕ, OneLine (s!"account for {n} removed clone ref(s)") := by
    intro n
    simpa [OneLine, toString_string] using newline_not_mem_digits n
  have hnext : OneLine (s!"{path} next_clones") := by
    simpa [OneLine, toString_string] using hpath
  unfold checkNextClones
  dsimp only
  cases (ds.ref "next_clones_obj").truthy with
  | false => exact oneLiners_nil
  | true =>
    refine oneLiners_append.mpr ⟨oneLiners_checkClonesZap hm hnext _, ?_⟩
    cases ds.numChildren with
    | none => exact oneLiners_nil
    | some nc =>
      dsimp only
      split_ifs
      · exact oneLiners_cons_addOp.mpr ⟨hcount _, oneLiners_nil⟩
      · exact oneLiners_nil

theorem oneLiners_checkDataset (dsObj : FieldVal) (dirObj : Option ℕ) :
    OneLiners (checkDataset m dsObj path dirObj) := by
  have hrefs : OneLiners (checkDatasetRefs m dsObj (m.fetch dsObj) path) := by
    unfold checkDatasetRefs
    dsimp only
    rw [oneLiners_append, oneLiners_flatMap]
    refine ⟨?_, fun f _ => ?_⟩ <;> split_ifs <;> simp
  unfold checkDataset
  dsimp only
  split_ifs
  · exact oneLiners_cons_add.mpr oneLiners_nil
  · exact oneLiners_cons_add.mpr (oneLiners_planOrphanRemoval hm hpath _ _)
  · exact oneLiners_cons_add.mpr oneLiners_nil
  · exact oneLiners_append.mpr ⟨oneLiners_checkNextClones hm hpath _ _, hrefs⟩

omit hm hpath in
theorem oneLiners_childSteps (zapObj : FieldVal) {name : String} (hname : OneLine name)
    (child : ℕ) : OneLiners (emits (childSteps m zapObj path name child)) := by
  unfold childSteps danglingEntry recycledEntry
  split_ifs
  · exact oneLiners_nil
  · rw [Traverse.emits_map_emit, oneLiners_cons_add, oneLiners_cons_addOp]
    refine ⟨?_, oneLiners_nil⟩
    simpa [OneLine, toString_string] using hname
  · rw [Traverse.emits_map_emit, oneLiners_cons_add, oneLiners_cons_addOp]
    refine ⟨?_, oneLiners_nil⟩
    simpa [OneLine, toString_string] using hname
  · exact oneLiners_nil

omit hpath in
theorem oneLiners_childmapSteps (zapObj : FieldVal) :
    OneLiners (emits (childmapSteps m zapObj path)) := by
  unfold childmapSteps
  split_ifs
  · simp [emits, childmapUnreadable]
  · have hnames : ∀ e ∈ PyStr.sortedItems (m.fetch zapObj).zap, OneLine e.1 :=
      fun e he => oneLine_entry hm (PyStr.mem_sortedItems.mp he)
    generalize PyStr.sortedItems (m.fetch zapObj).zap = items at hnames
    induction items with
    | nil => exact oneLiners_nil
    | cons e items ih =>
      rw [List.forall_mem_cons] at hnames
      rw [List.flatMap_cons, Traverse.emits_append, oneLiners_append]
      exact ⟨oneLiners_childSteps _ hnames.1 _, ih hnames.2⟩

theorem oneLiners_dirEvents (D : ℕ) : OneLiners (dirEvents m (D, path)) := by
  have hat : OneLine (s!"{path}@head") := by
    simpa [OneLine, toString_string] using hpath
  have hdd : OneLine (s!"{path} dd_clones") := by
    simpa [OneLine, toString_string] using hpath
  have hhead : OneLiners (headEvents m D path) := by
    unfold headEvents
    dsimp only
    split_ifs
    · exact oneLiners_checkDataset hm hat _ _
    · exact oneLiners_nil
  have hchildren : OneLiners (emits (childrenSteps m D path)) := by
    unfold childrenSteps
    dsimp only
    split_ifs
    · exact oneLiners_childmapSteps hm _
    · exact oneLiners_nil
  have hclones : OneLiners (clonesEvents m D path) := by
    unfold clonesEvents
    dsimp only
    split_ifs
    · exact oneLiners_checkClonesZap hm hdd _
    · exact oneLiners_nil
  unfold dirEvents dirSteps
  dsimp only
  split_ifs
  · simp [emits, dirUnreadable]
  · simp [emits, dirRecycled]
  · rw [Traverse.emits_append, Traverse.emits_append, Traverse.emits_map_emit,
      Traverse.emits_map_emit, oneLiners_append, oneLiners_append]
    exact ⟨hhead, hchildren, hclones⟩

end

/-- The paths of the walk are built from entry names. -/
theorem oneLine_path {m : Mos} (hm : Printable m) {n : ℕ × String}
    (h : Relation.ReflTransGen (Traverse.Visits (dirSteps m)) (rootDataset m, "<root>") n) :
    OneLine n.2 := by
  induction h with
  | refl => simp [OneLine]
  | tail _ hv ih =>
    obtain ⟨-, -, -, e, he, -, -, rfl⟩ := visits_iff.mp hv
    simpa [OneLine, toString_string] using ⟨ih, oneLine_entry hm he⟩

/-- **Comments stay on their line.** -/
theorem comment_oneLine {m : Mos} (hm : Printable m) {p : PlanOp} (hp : p ∈ plan m) :
    OneLine p.comment := by
  suffices h : OneLiners (run m) from h p (dedupeLoop_sublist.subset hp)
  by_cases h1 : (m.get mosDirObj).readable = true
  · obtain ⟨nodes, log, hw, hrun⟩ := run_walks h1
    have hlog : OneLiners log := by
      intro p hp
      obtain ⟨n, hn, hpn⟩ := (hw.mem_log _).mp (mem_opsOf.mp hp)
      exact oneLiners_dirEvents hm (oneLine_path hm (hw.paths n hn)) n.1 p (mem_opsOf.mpr hpn)
    rw [hrun, oneLiners_append, oneLiners_append, oneLiners_append]
    refine ⟨⟨oneLiners_checkErrlog m _, oneLiners_checkScan m _⟩, hlog, ?_⟩
    split_ifs <;> simp [noRoot]
  · intro p hp
    rw [(run_unreadable (by simpa using h1)).1] at hp
    cases hp

end Zhaxx.Scan
