import Zhaxx.Lib.Traverse
import Zhaxx.Scan.Checks

/-!
# The walk over the DSL namespace

Models of `walk_dsl_dir`, `check_childmap` and `run` (`scan/zhaxx-scan` lines
319–370 and 525–540). The mutual recursion is bounded by fuel; `walkDslDir_eq`
shows that it is a depth-first traversal in the sense of `Traverse`, and
`runFuel_isSome` that fuel for the objects of the MOS always suffices, so that
`run` is total.
-/

namespace Zhaxx.Scan

open Traverse (Step State runSteps)

/-- `self.visited_dirs` and what was appended so far. -/
abbrev Walk := State ℕ Event

/-- The entry names `check_childmap` skips (line 351). -/
def specialNames : List String := ["$MOS", "$FREE", "$LEAKED"]

/-- An entry whose directory object is gone (lines 354–360). -/
def danglingEntry (zapObj : FieldVal) (path name : String) (child : ℕ) : List Event :=
  [add .critical zapObj
      s!"child map entry '{name}' = {child} in {path} is dangling (directory object freed)",
    addOp (.zapRemove zapObj.num name child) s!"drop dangling namespace entry '{name}'"]

/-- An entry whose object is no DSL directory (lines 361–369). -/
def recycledEntry (zapObj : FieldVal) (path name : String) (child : ℕ) (c : ObjDump) :
    List Event :=
  [add .critical zapObj
      (s!"child map entry '{name}' = {child} in {path} points at type '{c.typeStr}', not a DSL " ++
        "directory (recycled ID); remove the entry, do NOT free the object"),
    addOp (.zapRemove zapObj.num name child)
      s!"drop stale namespace entry '{name}' (recycled ID)"]

/-- The body of the loop of `check_childmap` (lines 351–370); `walk` is the
    recursive call of `walk_dsl_dir`. -/
def checkChild (m : Mos) (walk : Walk → ℕ × String → Option Walk) (zapObj : FieldVal)
    (path : String) (st : Walk) (name : String) (child : ℕ) : Option Walk :=
  if name ∈ specialNames then some st
  else if !(m.get child).exists_ then some (st.log (danglingEntry zapObj path name child))
  else if !(m.get child).hasType "DSL directory" then
    some (st.log (recycledEntry zapObj path name child (m.get child)))
  else walk st (child, s!"{path}/{name}")

/-- The finding for an unreadable child map (lines 346–348). -/
def childmapUnreadable (zapObj : FieldVal) (path : String) : Event :=
  add .critical zapObj s!"child map {zapObj} of {path} missing or unreadable"

/-- `check_childmap` (lines 344–370). -/
def checkChildmap (m : Mos) (walk : Walk → ℕ × String → Option Walk) (zapObj : FieldVal)
    (path : String) (st : Walk) : Option Walk :=
  let z := m.fetch zapObj
  if !z.readable then some (st.log [childmapUnreadable zapObj path])
  else
    (PyStr.sortedItems z.zap).foldlM (fun st e => checkChild m walk zapObj path st e.1 e.2) st

/-- The finding for an unreadable directory (lines 324–327). -/
def dirUnreadable (dirObj : ℕ) (path : String) : Event :=
  add .critical (.int dirObj) s!"DSL directory {dirObj} ({path}) missing or unreadable"

/-- The finding for a directory of the wrong type (lines 329–332). -/
def dirRecycled (dirObj : ℕ) (path : String) (d : ObjDump) : Event :=
  add .critical (.int dirObj)
    s!"object {dirObj} ({path}) expected DSL directory, found '{d.typeStr}' (recycled ID?)"

/-- `walk_dsl_dir` (lines 319–342) on the pair `(dir_obj, path)`; `none` when
    directories nest deeper than `fuel`. -/
def walkDslDir (m : Mos) : ℕ → Walk → ℕ × String → Option Walk
  | 0, st, (dirObj, _) => if dirObj ∈ st.visited then some st else none
  | fuel + 1, st, (dirObj, path) =>
    if dirObj ∈ st.visited then some st
    else
      let st := st.mark dirObj
      let d := m.get dirObj
      if !d.readable then some (st.log [dirUnreadable dirObj path])
      else if !d.hasType "DSL directory" then some (st.log [dirRecycled dirObj path d])
      else
        let head := d.ref "head_dataset_obj"
        let childmap := d.ref "child_dir_zapobj"
        let clones := d.ref "clones"
        let st := if head.truthy then st.log (checkDataset m head s!"{path}@head" (some dirObj))
          else st
        let st' := if childmap.truthy then checkChildmap m (walkDslDir m fuel) childmap path st
          else some st
        st'.map fun st =>
          if clones.truthy then st.log (checkClonesZap m clones s!"{path} dd_clones").2 else st

/-- `run` (lines 525–540) with a bound on the nesting of directories. -/
def runFuel (m : Mos) (fuel : ℕ) : Option (List Event) :=
  let mos := m.get mosDirObj
  if !mos.readable then
    some [add .critical (.int mosDirObj)
      ("MOS directory (object 1) missing or unreadable — beyond this tool; " ++
        "label/uberblock-level recovery needed")]
  else
    let es := checkErrlog m mos ++ checkScan m mos
    let root := mos.zap.getD "root_dataset" 0
    if root ≠ 0 then (walkDslDir m fuel ⟨[], es⟩ (root, "<root>")).map State.out
    else some (es ++ [add .critical (.int mosDirObj) "MOS directory has no root_dataset entry"])

/-! ## The walk as a traversal -/

/-- What `check_childmap` does with one entry, as traversal steps. -/
def childSteps (m : Mos) (zapObj : FieldVal) (path name : String) (child : ℕ) :
    List (Step (ℕ × String) Event) :=
  if name ∈ specialNames then []
  else if !(m.get child).exists_ then (danglingEntry zapObj path name child).map .emit
  else if !(m.get child).hasType "DSL directory" then
    (recycledEntry zapObj path name child (m.get child)).map .emit
  else [.visit (child, s!"{path}/{name}")]

/-- The steps of `check_childmap`. -/
def childmapSteps (m : Mos) (zapObj : FieldVal) (path : String) :
    List (Step (ℕ × String) Event) :=
  if !(m.fetch zapObj).readable then [.emit (childmapUnreadable zapObj path)]
  else (PyStr.sortedItems (m.fetch zapObj).zap).flatMap fun e => childSteps m zapObj path e.1 e.2

/-- What the walk of a directory logs before it looks at the child map. -/
def headEvents (m : Mos) (dirObj : ℕ) (path : String) : List Event :=
  let head := (m.get dirObj).ref "head_dataset_obj"
  if head.truthy then checkDataset m head s!"{path}@head" (some dirObj) else []

/-- What the walk of a directory logs after the child map. -/
def clonesEvents (m : Mos) (dirObj : ℕ) (path : String) : List Event :=
  let clones := (m.get dirObj).ref "clones"
  if clones.truthy then (checkClonesZap m clones s!"{path} dd_clones").2 else []

/-- The steps of the child map of a directory, if it has one. -/
def childrenSteps (m : Mos) (dirObj : ℕ) (path : String) : List (Step (ℕ × String) Event) :=
  let childmap := (m.get dirObj).ref "child_dir_zapobj"
  if childmap.truthy then childmapSteps m childmap path else []

/-- The body of `walk_dsl_dir` past the visited check, as traversal steps. -/
def dirSteps (m : Mos) (n : ℕ × String) : List (Step (ℕ × String) Event) :=
  if !(m.get n.1).readable then [.emit (dirUnreadable n.1 n.2)]
  else if !(m.get n.1).hasType "DSL directory" then [.emit (dirRecycled n.1 n.2 (m.get n.1))]
  else
    (headEvents m n.1 n.2).map .emit ++
      (childrenSteps m n.1 n.2 ++ (clonesEvents m n.1 n.2).map .emit)

theorem checkChild_eq (m : Mos) (walk : Walk → ℕ × String → Option Walk) (zapObj : FieldVal)
    (path : String) (st : Walk) (name : String) (child : ℕ) :
    checkChild m walk zapObj path st name child =
      runSteps walk (childSteps m zapObj path name child) st := by
  unfold checkChild childSteps
  split_ifs
  · rfl
  · rw [Traverse.runSteps_emit]
  · rw [Traverse.runSteps_emit]
  · simp [runSteps]

theorem checkChildmap_eq (m : Mos) (walk : Walk → ℕ × String → Option Walk) (zapObj : FieldVal)
    (path : String) (st : Walk) :
    checkChildmap m walk zapObj path st = runSteps walk (childmapSteps m zapObj path) st := by
  unfold checkChildmap childmapSteps
  dsimp only
  split_ifs with hz
  · rfl
  · generalize PyStr.sortedItems (m.fetch zapObj).zap = items
    induction items generalizing st with
    | nil => rfl
    | cons e items ih =>
      rw [List.foldlM_cons, List.flatMap_cons, Traverse.runSteps_append, checkChild_eq]
      exact congrArg _ (funext fun st' => ih st')

/-- Logging the events of an optional reference. -/
theorem log_ite (st : Walk) (b : Bool) (es : List Event) :
    (if b then st.log es else st) = st.log (if b then es else []) := by
  cases b <;> simp

/-- Running the steps of an optional reference. -/
theorem runSteps_ite (visit : Walk → ℕ × String → Option Walk) (b : Bool)
    (ss : List (Step (ℕ × String) Event)) (st : Walk) :
    (if b then runSteps visit ss st else some st) = runSteps visit (if b then ss else []) st := by
  cases b <;> rfl

/-- **The walk is a depth-first traversal.** -/
theorem walkDslDir_eq (m : Mos) : ∀ fuel (st : Walk) (n : ℕ × String),
    walkDslDir m fuel st n = Traverse.run Prod.fst (dirSteps m) fuel st n := by
  intro fuel
  induction fuel with
  | zero => intro st n; rfl
  | succ fuel ih =>
    intro st n
    obtain ⟨dirObj, path⟩ := n
    have hwalk : walkDslDir m fuel = Traverse.run Prod.fst (dirSteps m) fuel :=
      funext fun st => funext fun n => ih st n
    rw [walkDslDir, Traverse.run]
    by_cases hv : dirObj ∈ st.visited
    · rw [if_pos hv, if_pos hv]
    rw [if_neg hv, if_neg hv]
    dsimp only
    by_cases hr : (m.get dirObj).readable = true
    swap
    · have hb : dirSteps m (dirObj, path) = [.emit (dirUnreadable dirObj path)] := by
        unfold dirSteps
        rw [if_pos (by simpa using hr)]
      rw [if_pos (by simpa using hr), hb]
      rfl
    by_cases ht : (m.get dirObj).hasType "DSL directory" = true
    swap
    · have hb : dirSteps m (dirObj, path) = [.emit (dirRecycled dirObj path (m.get dirObj))] := by
        unfold dirSteps
        rw [if_neg (by simpa using hr), if_pos (by simpa using ht)]
      rw [if_neg (by simpa using hr), if_pos (by simpa using ht), hb]
      rfl
    have hb : dirSteps m (dirObj, path) = (headEvents m dirObj path).map .emit ++
        (childrenSteps m dirObj path ++ (clonesEvents m dirObj path).map .emit) := by
      unfold dirSteps
      rw [if_neg (by simpa using hr), if_neg (by simpa using ht)]
    rw [if_neg (by simpa using hr), if_neg (by simpa using ht), hb, hwalk,
      Traverse.runSteps_append, Traverse.runSteps_emit, Option.bind_some,
      Traverse.runSteps_append, Option.map_eq_bind]
    simp only [Traverse.runSteps_emit, Function.comp_def, log_ite, checkChildmap_eq,
      runSteps_ite]
    rfl

/-! ## The edges of the walk -/

@[simp] theorem visit_not_mem_emit {es : List Event} {c : ℕ × String} :
    Step.visit c ∉ es.map (Step.emit (ν := ℕ × String)) := by
  simp

theorem visit_mem_childSteps {m : Mos} {zapObj : FieldVal} {path name : String} {child : ℕ}
    {c : ℕ × String} :
    .visit c ∈ childSteps m zapObj path name child ↔ name ∉ specialNames ∧
      (m.get child).hasType "DSL directory" = true ∧ c = (child, s!"{path}/{name}") := by
  unfold childSteps
  split_ifs with hs he ht
  · simp [hs]
  · have hno : (m.get child).hasType "DSL directory" ≠ true := fun h => by
      simp [ObjDump.exists_of_hasType (by decide) h] at he
    simp [hno]
  · have hno : (m.get child).hasType "DSL directory" = false := by simpa using ht
    simp [hno]
  · simp_all

/-- The nodes visited from a directory are the entries of its child map. -/
theorem visits_iff {m : Mos} {n c : ℕ × String} :
    Traverse.Visits (dirSteps m) n c ↔ isDirectory (m.get n.1) = true ∧
      ((m.get n.1).ref "child_dir_zapobj").truthy = true ∧
      (m.fetch ((m.get n.1).ref "child_dir_zapobj")).readable = true ∧
      ∃ e ∈ (m.fetch ((m.get n.1).ref "child_dir_zapobj")).zap.entries,
        e.1 ∉ specialNames ∧ (m.get e.2).hasType "DSL directory" = true ∧
        c = (e.2, s!"{n.2}/{e.1}") := by
  unfold Traverse.Visits dirSteps isDirectory
  split_ifs with hr ht
  · simp [show (m.get n.1).readable = false by simpa using hr]
  · simp [show (m.get n.1).hasType "DSL directory" = false by simpa using ht]
  · have hr' : (m.get n.1).readable = true := by simpa using hr
    have ht' : (m.get n.1).hasType "DSL directory" = true := by simpa using ht
    simp only [List.mem_append, visit_not_mem_emit, false_or, or_false, hr', ht', Bool.and_self,
      true_and]
    unfold childrenSteps childmapSteps
    dsimp only
    split_ifs with hc hz
    · simp [show (m.fetch ((m.get n.1).ref "child_dir_zapobj")).readable = false by simpa using hz]
    · have hz' : (m.fetch ((m.get n.1).ref "child_dir_zapobj")).readable = true := by
        simpa using hz
      simp only [List.mem_flatMap, PyStr.mem_sortedItems, visit_mem_childSteps, hc, hz', true_and]
    · simp [hc]

/-! ## The scan -/

/-- `root_dataset` as `run` reads it (line 535). -/
def rootDataset (m : Mos) : ℕ := (m.get mosDirObj).zap.getD "root_dataset" 0

/-- Everything the walk can visit: the root and every object of the MOS. -/
def walkUniverse (m : Mos) : Finset ℕ :=
  insert (rootDataset m) (m.objs.entries.map Prod.fst).toFinset

theorem visits_walkUniverse {m : Mos} {n c : ℕ × String}
    (h : Traverse.Visits (dirSteps m) n c) : c.1 ∈ walkUniverse m := by
  obtain ⟨-, -, -, e, -, -, ht, rfl⟩ := visits_iff.mp h
  have := Mos.get_mem (ObjDump.exists_of_hasType (by decide) ht)
  simp [walkUniverse, this]

theorem card_walkUniverse (m : Mos) : (walkUniverse m).card ≤ m.objs.entries.length + 1 := by
  refine le_trans (Finset.card_insert_le _ _) ?_
  have := List.toFinset_card_le (m.objs.entries.map Prod.fst)
  rw [List.length_map] at this
  omega

theorem walk_isSome (m : Mos) {fuel : ℕ} (hf : m.objs.entries.length + 1 ≤ fuel)
    (es : List Event) :
    (walkDslDir m fuel ⟨[], es⟩ (rootDataset m, "<root>")).isSome = true := by
  rw [walkDslDir_eq]
  refine Traverse.run_isSome Prod.fst (dirSteps m) (U := walkUniverse m)
    (fun n c h => visits_walkUniverse h) fuel _ _ (by simp [walkUniverse]) ?_
  refine le_trans (Finset.card_filter_le _ _) (le_trans (card_walkUniverse m) hf)

/-- **The scan terminates.** Fuel for every object and the root suffices. -/
theorem runFuel_isSome (m : Mos) {fuel : ℕ} (hf : m.objs.entries.length + 1 ≤ fuel) :
    (runFuel m fuel).isSome = true := by
  unfold runFuel
  dsimp only
  split_ifs
  · rfl
  · rw [Option.isSome_map]; exact walk_isSome m hf _
  · rfl

/-- `run` (lines 525–540): everything the scan appends, in order. -/
def run (m : Mos) : List Event :=
  (runFuel m (m.objs.entries.length + 1)).get (runFuel_isSome m le_rfl)

/-- The findings of a scan. -/
def findings (m : Mos) : List Finding := findingsOf (run m)

/-- The operations a scan writes into its plan (`main`, line 580). -/
def plan (m : Mos) : List PlanOp := dedupeOps (opsOf (run m))

/-- The bound on the nesting is immaterial: whenever the walk finishes within
    one, its result is that of `run`. -/
theorem runFuel_eq (m : Mos) {fuel : ℕ} {es : List Event} (h : runFuel m fuel = some es) :
    run m = es := by
  have hmono : ∀ fuel fuel', fuel ≤ fuel' → ∀ es, runFuel m fuel = some es →
      runFuel m fuel' = some es := by
    intro fuel fuel' hle es h
    unfold runFuel at h ⊢
    dsimp only at h ⊢
    split_ifs at h ⊢ with h1 h2
    · exact h
    · obtain ⟨t, ht, rfl⟩ := Option.map_eq_some_iff.mp h
      rw [walkDslDir_eq] at ht ⊢
      rw [Traverse.run_mono _ _ hle ht]
      rfl
    · exact h
  have hrun : runFuel m (m.objs.entries.length + 1) = some (run m) := by simp [run]
  rcases le_total fuel (m.objs.entries.length + 1) with hle | hle
  · rw [hmono _ _ hle _ h] at hrun
    exact (Option.some.inj hrun).symm
  · rw [hmono _ _ hle _ hrun] at h
    exact Option.some.inj h

end Zhaxx.Scan
