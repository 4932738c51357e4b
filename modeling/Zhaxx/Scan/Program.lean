import Zhaxx.Lib.Query
import Zhaxx.Scan.Walk

/-!
# The scanner over a source

The scanner reads the MOS through `self.src.get`. Here it is a program in the sense of
`Query`, which says when and in which order it asks for which object
(`scan/zhaxx-scan` lines 214–540).

Result:
* `eval_run`: over a MOS the program is the scan of that MOS.
-/

namespace Zhaxx.Scan

/-- The argument of `src.get`: an `int` or a `str`. -/
inductive ObjArg where
  | int (z : ℤ)
  | str (s : String)
  deriving DecidableEq

/-- A field value as the argument of `src.get`. -/
def FieldVal.arg : FieldVal → ObjArg
  | .int n => .int n
  | .str s => .str s

/-- `src.get(a)` over an observed MOS. -/
def Mos.source (m : Mos) : ObjArg → ObjDump
  | .int z => m.getInt z
  | .str _ => .missing

@[simp] theorem Mos.source_arg (m : Mos) (v : FieldVal) : m.source v.arg = m.fetch v := by
  cases v with
  | int n => simp [FieldVal.arg, source, getInt]
  | str s => rfl

@[simp] theorem Mos.source_int (m : Mos) (z : ℤ) : m.source (.int z) = m.getInt z := rfl

theorem Mos.getInt_natCast (m : Mos) (n : ℕ) : m.getInt n = m.get n := by
  simp [getInt]

namespace Program

/-- A part of the scanner. -/
abbrev Scanner (α : Type) := Query ObjArg ObjDump α

/-- `self.src.get(n)` for an object number. -/
def getObj (n : ℕ) : Scanner ObjDump := Query.get (.int n)

/-- `self.src.get(v)` for a field value. -/
def getRef (v : FieldVal) : Scanner ObjDump := Query.get v.arg

section

variable {m : Mos}

@[simp] theorem eval_getObj (n : ℕ) : (getObj n).eval m.source = m.get n := by
  simp [getObj, Mos.getInt_natCast]

@[simp] theorem eval_getRef (v : FieldVal) : (getRef v).eval m.source = m.fetch v := by
  simp [getRef]

end

/-! ## Error log and scan cursor -/

/-- The body of the loop over `head.zap.items()` (lines 244–252). -/
def staleEntry (key : String) (perObj : ℕ) : Scanner (List Stale) :=
  match PyStr.intHex key with
  | none => pure []
  | some objset => do
    let ds ← Query.get (.int objset)
    pure (if ds.readable then []
      else [⟨key, objset, perObj,
        if ds.exists_ then "is unreadable (EIO)" else "does not exist"⟩])

/-- The last loop of `check_errlog` (lines 269–277). -/
def freeObjsetErrlog (s : Stale) : Scanner (List Event) := do
  let per ← getObj s.perObj
  pure (if per.exists_ && per.hasType "error log" then
      [addOp (.free s.perObj per.typeStr) s!"free per-objset error log for objset {s.objset}"
        (some .objsetErrlog)]
    else if per.exists_ then
      [add .warning (.int s.perObj)
        s!"per-objset errlog {s.perObj} has type '{per.typeStr}' (recycled) — not freeing"]
    else [])

/-- The body of the loop of `check_errlog` (lines 219–277) for one entry. -/
def checkErrlogHead (name : String) (headObj : ℕ) : Scanner (List Event) :=
  if headObj = 0 then pure []
  else do
    let head ← getObj headObj
    if !head.exists_ then
      pure [add .critical (.int mosDirObj)
          (s!"{name} = {headObj} but that object does not exist " ++
            "(dangling error-log reference; import will attempt to process it)"),
        addOp (.zapSet mosDirObj name headObj 0) s!"clear dangling {name} reference"]
    else if !head.hasType "error log" then
      pure [add .critical (.int headObj)
          (s!"{name} = {headObj} but object type is '{head.typeStr}', not a persistent error " ++
            "log — the ID was recycled; do NOT free it"),
        addOp (.zapSet mosDirObj name headObj 0)
          s!"detach {name} from recycled object (leave the object itself alone)"]
    else do
      let stale ← Query.collect (fun e => staleEntry e.1 e.2) head.zap.entries
      if stale.isEmpty then
        pure [add .info (.int headObj)
          (s!"{name} = {headObj}: entries present but all referenced objsets are readable " ++
            "(a normal error log; no action)")]
      else do
        let frees ← Query.collect freeObjsetErrlog stale
        pure ((stale.map fun s => add .critical (.int headObj)
            (s!"{name} entry {s.key} references objset {s.objset} which {s.why}; " ++
              "spa_errlog_sync will deadlock txg_sync processing it")) ++
          [addOp (.zapSet mosDirObj name headObj 0) s!"break the {name} error-log chain",
            addOp (.free headObj head.typeStr) s!"free stale {name} head" (some .errlogHead)] ++
          frees)

/-- `check_errlog` (lines 214–277). -/
def checkErrlog (mos : ObjDump) : Scanner (List Event) :=
  Query.collect (fun name => checkErrlogHead name (mos.zap.getD name 0)) errlogNames

/-- The list `problems` of `check_scan` (lines 294–299). -/
def scanProblems (queueObj : ℕ) : Scanner (List String) :=
  if queueObj ≠ 0 then do
    let q ← getObj queueObj
    pure (if q.readable = false then [s!"scan queue object {queueObj} missing or unreadable"]
      else [])
  else pure []

/-- `check_scan` (lines 279–317). -/
def checkScan (mos : ObjDump) : Scanner (List Event) :=
  match scanEntry mos with
  | none => pure []
  | some scan =>
    let func := scan.getD 0 0
    let state := scan.getD 1 0
    let fname := scanFuncName func
    let sname := scanStateName state
    if state ≠ dssScanning then pure []
    else do
      let problems ← scanProblems (scan.getD 2 0)
      pure (if problems ≠ [] then
          (problems.map fun p => add .critical (.int mosDirObj) s!"in-progress {fname}: {p}") ++
          [add .critical (.int mosDirObj)
              (s!"stale in-progress scan cursor (func={fname}); on import the scan resumes and " ++
                "can VERIFY3-panic on freed objects"),
            addOp (.zapZero mosDirObj "scan" scanWords)
              ("zero the stale scan cursor (a fresh scrub/resilver restarts from DTLs after " ++
                "import)")]
        else
          [add .info (.int mosDirObj)
            (s!"scan in progress (func={fname}, state={sname}); queue readable — normal unless " ++
              "the pool also has freed-object findings. If surgery frees objects, re-run the " ++
              "scan check afterwards.")])

section

variable {m : Mos}

theorem eval_staleEntry (key : String) (perObj : ℕ) :
    (staleEntry key perObj).eval m.source = (Scan.staleEntry m key perObj).toList := by
  unfold staleEntry Scan.staleEntry
  cases PyStr.intHex key with
  | none => rfl
  | some objset =>
    dsimp only
    rw [Query.eval_bind, Query.eval_get, Query.eval_pure, Mos.source_int]
    cases hr : (m.getInt objset).readable <;> simp

theorem eval_freeObjsetErrlog (s : Stale) :
    (freeObjsetErrlog s).eval m.source = Scan.freeObjsetErrlog m s := by
  simp [freeObjsetErrlog, Scan.freeObjsetErrlog]

theorem eval_checkErrlogHead (name : String) (headObj : ℕ) :
    (checkErrlogHead name headObj).eval m.source = Scan.checkErrlogHead m name headObj := by
  have hstale : ∀ head : ObjDump,
      (head.zap.entries.flatMap fun e => (Scan.staleEntry m e.1 e.2).toList) =
        staleEntries m head := by
    intro head
    unfold staleEntries
    rw [List.filterMap_eq_flatMap_toList]
  unfold checkErrlogHead Scan.checkErrlogHead
  simp only [Query.eval_ite, Query.eval_bind, Query.eval_pure, eval_getObj, Query.eval_collect,
    eval_staleEntry, hstale, eval_freeObjsetErrlog]

theorem eval_checkErrlog (mos : ObjDump) :
    (checkErrlog mos).eval m.source = Scan.checkErrlog m mos := by
  simp only [checkErrlog, Query.eval_collect, eval_checkErrlogHead, Scan.checkErrlog]

theorem eval_checkScan (mos : ObjDump) : (checkScan mos).eval m.source = Scan.checkScan m mos := by
  unfold checkScan Scan.checkScan
  cases scanEntry mos with
  | none => rfl
  | some scan =>
    have hproblems : (scanProblems (scan.getD 2 0)).eval m.source =
        if scan.getD 2 0 ≠ 0 ∧ (m.get (scan.getD 2 0)).readable = false then
          [s!"scan queue object {scan.getD 2 0} missing or unreadable"]
        else [] := by
      unfold scanProblems
      simp only [Query.eval_ite, Query.eval_bind, Query.eval_pure, eval_getObj]
      rw [← ite_and]
    dsimp only
    simp only [Query.eval_ite, Query.eval_bind, Query.eval_pure, hproblems]

end

/-! ## Clones ZAPs and orphans -/

/-- What `check_clones_zap` appends for a dangling entry whose object reads as `c`
    (lines 427–438). -/
def danglingClone (zapObj : FieldVal) (path : String) (e : String × ℕ) (c : ObjDump) :
    List Event :=
  let why := cloneWhy c
  [add .critical zapObj
      (s!"clones ZAP {zapObj} ({path}) entry '{e.1}' -> {e.2} is {why}; clone enumeration " ++
        "on import will fail on it"),
    addOp (.zapRemove zapObj.num e.1 e.2) s!"drop {why} clone reference from {path}"]

/-- The body of the loop of `check_clones_zap` (lines 422–438). -/
def cloneEntry (zapObj : FieldVal) (path : String) (e : String × ℕ) :
    Scanner (List (List Event)) := do
  let c ← getObj e.2
  pure (if isDataset c then [] else [danglingClone zapObj path e c])

/-- `check_clones_zap` (lines 413–439). -/
def checkClonesZap (zapObj : FieldVal) (path : String) : Scanner (ℕ × List Event) := do
  let z ← getRef zapObj
  if !z.readable then
    pure (0, [add .critical zapObj s!"clones ZAP {zapObj} ({path}) missing or unreadable"])
  else do
    let dangling ← Query.collect (cloneEntry zapObj path) (PyStr.sortedItems z.zap)
    pure (dangling.length, dangling.flatten)

/-- The namespace entry (lines 449–460). -/
def orphanNamespace (dirObj : ℕ) (d : ObjDump) : Scanner (List Event) :=
  let parent := d.ref "parent_dir_obj"
  if !parent.truthy then pure []
  else do
    let p ← getRef parent
    let pm := if p.readable then p.ref "child_dir_zapobj" else .int 0
    if !pm.truthy then pure []
    else do
      let pmz ← getRef pm
      pure ((entriesOf pmz (.int dirObj)).map fun e =>
        addOp (.zapRemove pm.num e.1 dirObj) s!"remove orphan '{e.1}' from namespace")

/-- The child count of the origin snapshot `o` (lines 475–480). -/
def decrementChildren (origin : FieldVal) (o : ObjDump) : List Event :=
  match o.numChildren with
  | some nc =>
    [addOp (.bonusSet origin.num nc ((nc : ℤ) - 1)) "decrement origin snapshot child count"]
  | none => []

/-- The origin snapshot's `next_clones` ZAP and child count (lines 466–481). -/
def orphanNextClones (dsObj origin : FieldVal) (o : ObjDump) : Scanner (List Event) :=
  let nco := o.ref "next_clones_obj"
  if !nco.truthy then pure []
  else do
    let oz ← getRef nco
    pure ((entriesOf oz dsObj).flatMap fun e =>
      addOp (.zapRemove nco.num e.1 dsObj.num) "remove orphan from origin's next_clones ZAP" ::
        decrementChildren origin o)

/-- The origin directory's `dd_clones` ZAP (lines 482–493). -/
def orphanDirClones (dsObj : FieldVal) (o : ObjDump) : Scanner (List Event) :=
  let odir := o.ref "dir_obj"
  if !odir.truthy then pure []
  else do
    let od ← getRef odir
    let ocl := if od.readable then od.ref "clones" else .int 0
    if !ocl.truthy then pure []
    else do
      let oclz ← getRef ocl
      pure ((entriesOf oclz dsObj).map fun e =>
        addOp (.zapRemove ocl.num e.1 dsObj.num) "remove orphan from origin dir's dd_clones ZAP")

/-- The clone references (lines 461–493). -/
def orphanCloneRefs (dsObj : FieldVal) (d : ObjDump) : Scanner (List Event) :=
  let origin := d.ref "origin_obj"
  if !origin.truthy then pure []
  else do
    let o ← getRef origin
    if !o.readable then pure []
    else do
      let es ← orphanNextClones dsObj origin o
      let es' ← orphanDirClones dsObj o
      pure (es ++ es')

/-- The body of the loop over `subtree` (lines 502–521). -/
def freeStructure (path : String) (e : FreeRole × FieldVal) : Scanner (List Event) :=
  if !e.2.truthy then pure []
  else do
    let o ← getRef e.2
    pure (if o.exists_ && o.unreadable then
        [add .warning e.2
          (s!"orphan structure {e.2} is unreadable; leaving it allocated (harmless leak). All " ++
            "references to it are removed above, so no import path reaches it.")]
      else if o.exists_ && o.typeOr != "" then
        [addOp (.free e.2.num o.typeStr) s!"free orphan structure ({o.typeStr}) of {path}"
          (some e.1)]
      else if o.exists_ then
        [add .warning e.2 s!"orphan structure {e.2} has no readable type; not freeing"]
      else [])

/-- `plan_orphan_removal` (lines 441–521). -/
def planOrphanRemoval (dsObj : FieldVal) (dirObj : Option ℕ) (path : String) :
    Scanner (List Event) :=
  match dirObj with
  | none => pure []
  | some dirObj => do
    let d ← getObj dirObj
    if !d.readable then pure []
    else do
      let es ← orphanNamespace dirObj d
      let es' ← orphanCloneRefs dsObj d
      let ds ← getRef dsObj
      let frees ← Query.collect (freeStructure path)
        [(.orphanDir, .int dirObj), (.orphanProps, d.ref "props_zapobj"),
          (.orphanChildMap, d.ref "child_dir_zapobj"), (.orphanDataset, dsObj),
          (.orphanSnapnames, ds.ref "snapnames_zapobj"), (.orphanDeadlist, ds.ref "deadlist_obj")]
      pure (es ++ es' ++ frees)

section

variable {m : Mos}

/-- The groups of the dangling entries of a clones ZAP. -/
theorem flatMap_dangling {α β : Type} (p : α → Bool) (f : α → β) (as : List α) :
    (as.flatMap fun a => if p a then [] else [f a]) = (as.filter fun a => !p a).map f := by
  induction as with
  | nil => rfl
  | cons a as ih => cases hp : p a <;> simp [hp, ih]

theorem eval_cloneEntry (zapObj : FieldVal) (path : String) (e : String × ℕ) :
    (cloneEntry zapObj path e).eval m.source =
      if isDataset (m.get e.2) then [] else [danglingClone zapObj path e (m.get e.2)] := by
  rw [cloneEntry, Query.eval_bind, Query.eval_pure, eval_getObj]

theorem eval_checkClonesZap (zapObj : FieldVal) (path : String) :
    (checkClonesZap zapObj path).eval m.source = Scan.checkClonesZap m zapObj path := by
  unfold checkClonesZap Scan.checkClonesZap
  simp only [Query.eval_ite, Query.eval_bind, Query.eval_pure, eval_getRef, Query.eval_collect,
    eval_cloneEntry, flatMap_dangling, List.length_map]
  rfl

theorem eval_orphanNamespace (dirObj : ℕ) (d : ObjDump) :
    (orphanNamespace dirObj d).eval m.source = Scan.orphanNamespace m dirObj d := by
  unfold orphanNamespace Scan.orphanNamespace
  simp only [Query.eval_ite, Query.eval_bind, Query.eval_pure, eval_getRef]

theorem eval_orphanNextClones (dsObj origin : FieldVal) (o : ObjDump) :
    (orphanNextClones dsObj origin o).eval m.source = Scan.orphanNextClones m dsObj origin o := by
  unfold orphanNextClones Scan.orphanNextClones
  simp only [Query.eval_ite, Query.eval_bind, Query.eval_pure, eval_getRef]
  rfl

theorem eval_orphanDirClones (dsObj : FieldVal) (o : ObjDump) :
    (orphanDirClones dsObj o).eval m.source = Scan.orphanDirClones m dsObj o := by
  unfold orphanDirClones Scan.orphanDirClones
  simp only [Query.eval_ite, Query.eval_bind, Query.eval_pure, eval_getRef]

theorem eval_orphanCloneRefs (dsObj : FieldVal) (d : ObjDump) :
    (orphanCloneRefs dsObj d).eval m.source = Scan.orphanCloneRefs m dsObj d := by
  unfold orphanCloneRefs Scan.orphanCloneRefs
  simp only [Query.eval_ite, Query.eval_bind, Query.eval_pure, eval_getRef, eval_orphanNextClones,
    eval_orphanDirClones]

theorem eval_freeStructure (path : String) (e : FreeRole × FieldVal) :
    (freeStructure path e).eval m.source = Scan.freeStructure m path e.1 e.2 := by
  unfold freeStructure Scan.freeStructure
  simp only [Query.eval_ite, Query.eval_bind, Query.eval_pure, eval_getRef]

theorem eval_planOrphanRemoval (dsObj : FieldVal) (dirObj : Option ℕ) (path : String) :
    (planOrphanRemoval dsObj dirObj path).eval m.source =
      Scan.planOrphanRemoval m dsObj dirObj path := by
  unfold planOrphanRemoval Scan.planOrphanRemoval
  cases dirObj with
  | none => rfl
  | some dirObj =>
    dsimp only
    simp only [Query.eval_ite, Query.eval_bind, Query.eval_pure, eval_getObj, eval_getRef,
      eval_orphanNamespace, eval_orphanCloneRefs, Query.eval_collect, eval_freeStructure,
      orphanSubtree]

end

/-! ## Datasets -/

/-- The child count of a dataset with `nDangling` dangling clones (lines 395–400). -/
def accountChildren (dsObj : FieldVal) (ds : ObjDump) (nDangling : ℕ) : List Event :=
  match ds.numChildren with
  | some nc =>
    if nDangling ≠ 0 then
      [addOp (.bonusSet dsObj.num nc ((nc : ℤ) - nDangling))
        s!"account for {nDangling} removed clone ref(s)"]
    else []
  | none => []

/-- The `next_clones` ZAP of a dataset and its child count (lines 391–400). -/
def checkNextClones (dsObj : FieldVal) (ds : ObjDump) (path : String) : Scanner (List Event) :=
  let nco := ds.ref "next_clones_obj"
  if !nco.truthy then pure []
  else do
    let r ← checkClonesZap nco s!"{path} next_clones"
    pure (r.2 ++ accountChildren dsObj ds r.1)

/-- A reference of a dataset whose target has to exist (lines 401–411). -/
def checkRef (sev : Severity) (dsObj ref : FieldVal) (message : String) :
    Scanner (List Event) :=
  if ref.truthy then do
    let p ← getRef ref
    pure (if !p.exists_ then [add sev dsObj message] else [])
  else pure []

/-- The `prev_snap_obj`, `deadlist_obj` and `snapnames_zapobj` references
    (lines 401–411). -/
def checkDatasetRefs (dsObj : FieldVal) (ds : ObjDump) (path : String) :
    Scanner (List Event) := do
  let prev := ds.ref "prev_snap_obj"
  let es ← checkRef .critical dsObj prev s!"{path}: prev_snap_obj = {prev} is dangling"
  let es' ← Query.collect
    (fun f => checkRef .warning dsObj (ds.ref f) s!"{path}: {f} = {ds.ref f} is dangling")
    ["deadlist_obj", "snapnames_zapobj"]
  pure (es ++ es')

/-- `check_dataset` (lines 372–411). -/
def checkDataset (dsObj : FieldVal) (path : String) (expectDir : Option ℕ) :
    Scanner (List Event) := do
  let ds ← getRef dsObj
  if !ds.exists_ then
    pure [add .critical dsObj s!"dataset object {dsObj} ({path}) does not exist"]
  else if ds.unreadable then do
    let es ← planOrphanRemoval dsObj expectDir path
    pure (add .critical dsObj
        (s!"dataset {dsObj} ({path}) is UNREADABLE (EIO) — this is the objset-corruption " ++
          "signature; any code path that opens it (errlog sync, clone enumeration, destroy) " ++
          "will fail or deadlock") :: es)
  else if !ds.hasType "DSL dataset" then
    pure [add .warning dsObj
      s!"dataset object {dsObj} ({path}) has type '{ds.typeStr}', expected DSL dataset"]
  else do
    let es ← checkNextClones dsObj ds path
    let es' ← checkDatasetRefs dsObj ds path
    pure (es ++ es')

section

variable {m : Mos}

theorem eval_checkNextClones (dsObj : FieldVal) (ds : ObjDump) (path : String) :
    (checkNextClones dsObj ds path).eval m.source = Scan.checkNextClones m dsObj ds path := by
  unfold checkNextClones Scan.checkNextClones
  simp only [Query.eval_ite, Query.eval_bind, Query.eval_pure, eval_checkClonesZap]
  rfl

theorem eval_checkRef (sev : Severity) (dsObj ref : FieldVal) (message : String) :
    (checkRef sev dsObj ref message).eval m.source =
      if ref.truthy && !(m.fetch ref).exists_ then [add sev dsObj message] else [] := by
  unfold checkRef
  simp only [Query.eval_ite, Query.eval_bind, Query.eval_pure, eval_getRef]
  cases ref.truthy <;> simp

theorem eval_checkDatasetRefs (dsObj : FieldVal) (ds : ObjDump) (path : String) :
    (checkDatasetRefs dsObj ds path).eval m.source = Scan.checkDatasetRefs m dsObj ds path := by
  unfold checkDatasetRefs Scan.checkDatasetRefs
  simp only [Query.eval_bind, Query.eval_pure, eval_checkRef, Query.eval_collect]

theorem eval_checkDataset (dsObj : FieldVal) (path : String) (expectDir : Option ℕ) :
    (checkDataset dsObj path expectDir).eval m.source =
      Scan.checkDataset m dsObj path expectDir := by
  unfold checkDataset Scan.checkDataset
  simp only [Query.eval_ite, Query.eval_bind, Query.eval_pure, eval_getRef,
    eval_planOrphanRemoval, eval_checkNextClones, eval_checkDatasetRefs]

end

/-! ## The walk -/

/-- The body of the loop of `check_childmap` (lines 351–370). -/
def checkChild (walk : Walk → ℕ × String → Scanner (Option Walk)) (zapObj : FieldVal)
    (path : String) (st : Walk) (name : String) (child : ℕ) : Scanner (Option Walk) :=
  if name ∈ specialNames then pure (some st)
  else do
    let c ← getObj child
    if !c.exists_ then pure (some (st.log (danglingEntry zapObj path name child)))
    else if !c.hasType "DSL directory" then
      pure (some (st.log (recycledEntry zapObj path name child c)))
    else walk st (child, s!"{path}/{name}")

/-- The loop of `check_childmap` (line 350). -/
def checkChildren (walk : Walk → ℕ × String → Scanner (Option Walk)) (zapObj : FieldVal)
    (path : String) : Walk → List (String × ℕ) → Scanner (Option Walk)
  | st, [] => pure (some st)
  | st, e :: es => do
    match ← checkChild walk zapObj path st e.1 e.2 with
    | none => pure none
    | some st' => checkChildren walk zapObj path st' es

/-- `check_childmap` (lines 344–370). -/
def checkChildmap (walk : Walk → ℕ × String → Scanner (Option Walk)) (zapObj : FieldVal)
    (path : String) (st : Walk) : Scanner (Option Walk) := do
  let z ← getRef zapObj
  if !z.readable then pure (some (st.log [childmapUnreadable zapObj path]))
  else checkChildren walk zapObj path st (PyStr.sortedItems z.zap)

/-- The head of a directory (lines 337–338). -/
def walkHead (dirObj : ℕ) (path : String) (head : FieldVal) : Scanner (List Event) :=
  if head.truthy then checkDataset head s!"{path}@head" (some dirObj) else pure []

/-- The child map of a directory (lines 339–340). -/
def walkChildmap (walk : Walk → ℕ × String → Scanner (Option Walk)) (path : String)
    (childmap : FieldVal) (st : Walk) : Scanner (Option Walk) :=
  if childmap.truthy then checkChildmap walk childmap path st else pure (some st)

/-- The `dd_clones` ZAP of a directory (lines 341–342), after a walk that ended. -/
def walkClones (path : String) (clones : FieldVal) : Option Walk → Scanner (Option Walk)
  | none => pure none
  | some st =>
    if clones.truthy then do
      let r ← checkClonesZap clones s!"{path} dd_clones"
      pure (some (st.log r.2))
    else pure (some st)

/-- `walk_dsl_dir` (lines 319–342) on the pair `(dir_obj, path)`. -/
def walkDslDir : ℕ → Walk → ℕ × String → Scanner (Option Walk)
  | 0, st, (dirObj, _) => pure (if dirObj ∈ st.visited then some st else none)
  | fuel + 1, st, (dirObj, path) =>
    if dirObj ∈ st.visited then pure (some st)
    else do
      let st := st.mark dirObj
      let d ← getObj dirObj
      if !d.readable then pure (some (st.log [dirUnreadable dirObj path]))
      else if !d.hasType "DSL directory" then pure (some (st.log [dirRecycled dirObj path d]))
      else do
        let head := d.ref "head_dataset_obj"
        let childmap := d.ref "child_dir_zapobj"
        let clones := d.ref "clones"
        let es ← walkHead dirObj path head
        let st ← walkChildmap (walkDslDir fuel) path childmap (st.log es)
        walkClones path clones st

/-- `run` (lines 525–540) with a bound on the nesting of directories. -/
def run (fuel : ℕ) : Scanner (Option (List Event)) := do
  let mos ← getObj mosDirObj
  if !mos.readable then
    pure (some [add .critical (.int mosDirObj)
      ("MOS directory (object 1) missing or unreadable — beyond this tool; " ++
        "label/uberblock-level recovery needed")])
  else do
    let errlog ← checkErrlog mos
    let scan ← checkScan mos
    let es := errlog ++ scan
    let root := mos.zap.getD "root_dataset" 0
    if root ≠ 0 then do
      let st ← walkDslDir fuel ⟨[], es⟩ (root, "<root>")
      pure (st.map Traverse.State.out)
    else
      pure (some (es ++ [add .critical (.int mosDirObj)
        "MOS directory has no root_dataset entry"]))

section

variable {m : Mos} {walk : Walk → ℕ × String → Scanner (Option Walk)}

theorem eval_checkChild (zapObj : FieldVal) (path : String) (st : Walk) (name : String)
    (child : ℕ) :
    (checkChild walk zapObj path st name child).eval m.source =
      Scan.checkChild m (fun st n => (walk st n).eval m.source) zapObj path st name child := by
  unfold checkChild Scan.checkChild
  simp only [Query.eval_ite, Query.eval_bind, Query.eval_pure, eval_getObj]

theorem eval_checkChildren (zapObj : FieldVal) (path : String) (st : Walk)
    (es : List (String × ℕ)) :
    (checkChildren walk zapObj path st es).eval m.source = es.foldlM (fun st e =>
      Scan.checkChild m (fun st n => (walk st n).eval m.source) zapObj path st e.1 e.2) st := by
  induction es generalizing st with
  | nil => rfl
  | cons e es ih =>
    rw [checkChildren, Query.eval_bind, eval_checkChild, List.foldlM_cons]
    generalize Scan.checkChild m _ zapObj path st e.1 e.2 = r
    cases r with
    | none => rfl
    | some st' => exact ih st'

theorem eval_checkChildmap (zapObj : FieldVal) (path : String) (st : Walk) :
    (checkChildmap walk zapObj path st).eval m.source =
      Scan.checkChildmap m (fun st n => (walk st n).eval m.source) zapObj path st := by
  unfold checkChildmap Scan.checkChildmap
  simp only [Query.eval_ite, Query.eval_bind, Query.eval_pure, eval_getRef, eval_checkChildren]

theorem eval_walkHead (dirObj : ℕ) (path : String) (head : FieldVal) :
    (walkHead dirObj path head).eval m.source =
      if head.truthy then Scan.checkDataset m head s!"{path}@head" (some dirObj) else [] := by
  simp only [walkHead, Query.eval_ite, eval_checkDataset, Query.eval_pure]

theorem eval_walkChildmap (path : String) (childmap : FieldVal) (st : Walk) :
    (walkChildmap walk path childmap st).eval m.source =
      if childmap.truthy then
        Scan.checkChildmap m (fun st n => (walk st n).eval m.source) childmap path st
      else some st := by
  simp only [walkChildmap, Query.eval_ite, eval_checkChildmap, Query.eval_pure]

theorem eval_walkClones (path : String) (clones : FieldVal) (st : Option Walk) :
    (walkClones path clones st).eval m.source = st.map fun st =>
      if clones.truthy then st.log (Scan.checkClonesZap m clones s!"{path} dd_clones").2
      else st := by
  cases st with
  | none => rfl
  | some st =>
    rw [walkClones, Option.map_some]
    cases clones.truthy <;> simp [eval_checkClonesZap]

theorem eval_walkDslDir (fuel : ℕ) (st : Walk) (n : ℕ × String) :
    (walkDslDir fuel st n).eval m.source = Scan.walkDslDir m fuel st n := by
  induction fuel generalizing st n with
  | zero => rfl
  | succ fuel ih =>
    obtain ⟨dirObj, path⟩ := n
    rw [walkDslDir, Scan.walkDslDir]
    simp only [Query.eval_ite, Query.eval_bind, Query.eval_pure, eval_getObj, eval_walkHead,
      eval_walkChildmap, eval_walkClones, ih, log_ite]

/-- **The program is the scanner.** -/
theorem eval_run (fuel : ℕ) : (run fuel).eval m.source = runFuel m fuel := by
  unfold run runFuel
  simp only [Query.eval_ite, Query.eval_bind, Query.eval_pure, eval_getObj, eval_checkErrlog,
    eval_checkScan, eval_walkDslDir]

end

end Program

end Zhaxx.Scan
