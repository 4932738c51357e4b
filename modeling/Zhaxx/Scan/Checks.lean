import Zhaxx.Scan.Plan

/-!
# The checks of the scanner

Models of the `check_*` methods and of `plan_orphan_removal`
(`scan/zhaxx-scan` lines 214–521). Each returns what it appends to
`self.findings` and `self.ops`, in order; `self.note`, which only writes to
stderr, and the dictionary `num_children_fix`, which nothing reads, are left
out.
-/

namespace Zhaxx.Scan

/-- `MOS_DIR_OBJ` (line 38). -/
def mosDirObj : ℕ := 1

/-- `SCAN_WORDS` (line 33). -/
def scanWords : ℕ := 24

/-- `DSS_SCANNING` (line 34). -/
def dssScanning : ℕ := 1

/-! ## Error log -/

/-- The two error-log entries of the MOS directory (lines 217–218). -/
def errlogNames : List String := ["errlog_last", "errlog_scrub"]

/-- An entry of an error-log head whose objset cannot be read:
    `(key, objset, per_obj, why)`. -/
structure Stale where
  key : String
  objset : ℤ
  perObj : ℕ
  why : String

/-- The body of the loop over `head.zap.items()` (lines 244–252). -/
def staleEntry (m : Mos) (key : String) (perObj : ℕ) : Option Stale :=
  match PyStr.intHex key with
  | none => none
  | some objset =>
    let ds := m.getInt objset
    if ds.readable then none
    else some ⟨key, objset, perObj,
      if ds.exists_ then "is unreadable (EIO)" else "does not exist"⟩

/-- The list `stale` (lines 242–252). -/
def staleEntries (m : Mos) (head : ObjDump) : List Stale :=
  head.zap.entries.filterMap fun e => staleEntry m e.1 e.2

/-- The last loop of `check_errlog` (lines 269–277). -/
def freeObjsetErrlog (m : Mos) (s : Stale) : List Event :=
  let per := m.get s.perObj
  if per.exists_ && per.hasType "error log" then
    [addOp (.free s.perObj per.typeStr) s!"free per-objset error log for objset {s.objset}"
      (some .objsetErrlog)]
  else if per.exists_ then
    [add .warning (.int s.perObj)
      s!"per-objset errlog {s.perObj} has type '{per.typeStr}' (recycled) — not freeing"]
  else []

/-- The body of the loop of `check_errlog` (lines 219–277) for one entry. -/
def checkErrlogHead (m : Mos) (name : String) (headObj : ℕ) : List Event :=
  if headObj = 0 then []
  else
    let head := m.get headObj
    if !head.exists_ then
      [add .critical (.int mosDirObj)
          (s!"{name} = {headObj} but that object does not exist " ++
            "(dangling error-log reference; import will attempt to process it)"),
        addOp (.zapSet mosDirObj name headObj 0) s!"clear dangling {name} reference"]
    else if !head.hasType "error log" then
      [add .critical (.int headObj)
          (s!"{name} = {headObj} but object type is '{head.typeStr}', not a persistent error " ++
            "log — the ID was recycled; do NOT free it"),
        addOp (.zapSet mosDirObj name headObj 0)
          s!"detach {name} from recycled object (leave the object itself alone)"]
    else
      let stale := staleEntries m head
      if stale.isEmpty then
        [add .info (.int headObj)
          (s!"{name} = {headObj}: entries present but all referenced objsets are readable " ++
            "(a normal error log; no action)")]
      else
        (stale.map fun s => add .critical (.int headObj)
          (s!"{name} entry {s.key} references objset {s.objset} which {s.why}; " ++
            "spa_errlog_sync will deadlock txg_sync processing it")) ++
        [addOp (.zapSet mosDirObj name headObj 0) s!"break the {name} error-log chain",
          addOp (.free headObj head.typeStr) s!"free stale {name} head" (some .errlogHead)] ++
        stale.flatMap (freeObjsetErrlog m)

/-- `check_errlog` (lines 214–277). -/
def checkErrlog (m : Mos) (mos : ObjDump) : List Event :=
  errlogNames.flatMap fun name => checkErrlogHead m name (mos.zap.getD name 0)

/-! ## Scan cursor -/

/-- The words of the `scan` entry (lines 280–285). -/
def scanEntry (mos : ObjDump) : Option (List ℕ) :=
  match mos.zapMulti.get? "scan" with
  | some ws => some ws
  | none => (mos.zap.get? "scan").map fun w => [w]

/-- `SCAN_FUNC_NAMES.get(func, str(func))` (line 289). -/
def scanFuncName (func : ℕ) : String :=
  match func with
  | 0 => "none"
  | 1 => "scrub"
  | 2 => "resilver"
  | n => toString n

/-- `SCAN_STATE_NAMES.get(state, str(state))` (line 290). -/
def scanStateName (state : ℕ) : String :=
  match state with
  | 0 => "none"
  | 1 => "SCANNING"
  | 2 => "finished"
  | 3 => "canceled"
  | n => toString n

/-- `check_scan` (lines 279–317). -/
def checkScan (m : Mos) (mos : ObjDump) : List Event :=
  match scanEntry mos with
  | none => []
  | some scan =>
    let func := scan.getD 0 0
    let state := scan.getD 1 0
    let queueObj := scan.getD 2 0
    let fname := scanFuncName func
    let sname := scanStateName state
    if state ≠ dssScanning then []
    else
      let problems :=
        if queueObj ≠ 0 ∧ (m.get queueObj).readable = false then
          [s!"scan queue object {queueObj} missing or unreadable"]
        else []
      if problems ≠ [] then
        (problems.map fun p => add .critical (.int mosDirObj) s!"in-progress {fname}: {p}") ++
        [add .critical (.int mosDirObj)
            (s!"stale in-progress scan cursor (func={fname}); on import the scan resumes and " ++
              "can VERIFY3-panic on freed objects"),
          addOp (.zapZero mosDirObj "scan" scanWords)
            ("zero the stale scan cursor (a fresh scrub/resilver restarts from DTLs after " ++
              "import)")]
      else
        [add .info (.int mosDirObj)
          (s!"scan in progress (func={fname}, state={sname}); queue readable — normal unless " ++
            "the pool also has freed-object findings. If surgery frees objects, re-run the " ++
            "scan check afterwards.")]

/-! ## Clones ZAPs -/

/-- A readable object whose type contains `'DSL dataset'` (line 424). -/
def isDataset (d : ObjDump) : Bool := d.readable && d.hasType "DSL dataset"

/-- A readable object whose type contains `'DSL directory'` (lines 324, 329). -/
def isDirectory (d : ObjDump) : Bool := d.readable && d.hasType "DSL directory"

/-- Why a clone reference is dropped (lines 427–432). -/
def cloneWhy (c : ObjDump) : String :=
  if !c.exists_ then "freed"
  else if c.unreadable then "unreadable (EIO)"
  else s!"recycled (type '{c.typeStr}')"

/-- The entries of a clones ZAP that `check_clones_zap` counts as dangling
    (lines 422–426). -/
def danglingClones (m : Mos) (z : ObjDump) : List (String × ℕ) :=
  (PyStr.sortedItems z.zap).filter fun e => !isDataset (m.get e.2)

/-- `check_clones_zap` (lines 413–439): the number of dangling entries and what
    is appended. -/
def checkClonesZap (m : Mos) (zapObj : FieldVal) (path : String) : ℕ × List Event :=
  let z := m.fetch zapObj
  if !z.readable then
    (0, [add .critical zapObj s!"clones ZAP {zapObj} ({path}) missing or unreadable"])
  else
    ((danglingClones m z).length, (danglingClones m z).flatMap fun e =>
      let why := cloneWhy (m.get e.2)
      [add .critical zapObj
          (s!"clones ZAP {zapObj} ({path}) entry '{e.1}' -> {e.2} is {why}; clone enumeration " ++
            "on import will fail on it"),
        addOp (.zapRemove zapObj.num e.1 e.2) s!"drop {why} clone reference from {path}"])

/-! ## Orphan removal -/

/-- The entries of a ZAP whose value is the object `v`, in dump order. -/
def entriesOf (z : ObjDump) (v : FieldVal) : List (String × ℕ) :=
  z.zap.entries.filter fun e => FieldVal.int e.2 = v

/-- The namespace entry (lines 449–460). -/
def orphanNamespace (m : Mos) (dirObj : ℕ) (d : ObjDump) : List Event :=
  let parent := d.ref "parent_dir_obj"
  if !parent.truthy then []
  else
    let p := m.fetch parent
    let pm := if p.readable then p.ref "child_dir_zapobj" else .int 0
    if !pm.truthy then []
    else (entriesOf (m.fetch pm) (.int dirObj)).map fun e =>
      addOp (.zapRemove pm.num e.1 dirObj) s!"remove orphan '{e.1}' from namespace"

/-- The origin snapshot's `next_clones` ZAP and child count (lines 466–481). -/
def orphanNextClones (m : Mos) (dsObj origin : FieldVal) (o : ObjDump) : List Event :=
  let nco := o.ref "next_clones_obj"
  if !nco.truthy then []
  else (entriesOf (m.fetch nco) dsObj).flatMap fun e =>
    addOp (.zapRemove nco.num e.1 dsObj.num) "remove orphan from origin's next_clones ZAP" ::
      match o.numChildren with
      | some nc =>
        [addOp (.bonusSet origin.num nc ((nc : ℤ) - 1)) "decrement origin snapshot child count"]
      | none => []

/-- The origin directory's `dd_clones` ZAP (lines 482–493). -/
def orphanDirClones (m : Mos) (dsObj : FieldVal) (o : ObjDump) : List Event :=
  let odir := o.ref "dir_obj"
  if !odir.truthy then []
  else
    let od := m.fetch odir
    let ocl := if od.readable then od.ref "clones" else .int 0
    if !ocl.truthy then []
    else (entriesOf (m.fetch ocl) dsObj).map fun e =>
      addOp (.zapRemove ocl.num e.1 dsObj.num) "remove orphan from origin dir's dd_clones ZAP"

/-- The clone references (lines 461–493). -/
def orphanCloneRefs (m : Mos) (dsObj : FieldVal) (d : ObjDump) : List Event :=
  let origin := d.ref "origin_obj"
  if !origin.truthy then []
  else
    let o := m.fetch origin
    if !o.readable then []
    else orphanNextClones m dsObj origin o ++ orphanDirClones m dsObj o

/-- The list `subtree` (lines 495–501) with the role of each member. -/
def orphanSubtree (m : Mos) (dsObj : FieldVal) (dirObj : ℕ) (d : ObjDump) :
    List (FreeRole × FieldVal) :=
  let ds := m.fetch dsObj
  [(.orphanDir, .int dirObj),
    (.orphanProps, d.ref "props_zapobj"),
    (.orphanChildMap, d.ref "child_dir_zapobj"),
    (.orphanDataset, dsObj),
    (.orphanSnapnames, ds.ref "snapnames_zapobj"),
    (.orphanDeadlist, ds.ref "deadlist_obj")]

/-- The body of the loop over `subtree` (lines 502–521). -/
def freeStructure (m : Mos) (path : String) (role : FreeRole) (obj : FieldVal) : List Event :=
  if !obj.truthy then []
  else
    let o := m.fetch obj
    if o.exists_ && o.unreadable then
      [add .warning obj
        (s!"orphan structure {obj} is unreadable; leaving it allocated (harmless leak). All " ++
          "references to it are removed above, so no import path reaches it.")]
    else if o.exists_ && o.typeOr != "" then
      [addOp (.free obj.num o.typeStr) s!"free orphan structure ({o.typeStr}) of {path}"
        (some role)]
    else if o.exists_ then
      [add .warning obj s!"orphan structure {obj} has no readable type; not freeing"]
    else []

/-- `plan_orphan_removal` (lines 441–521). -/
def planOrphanRemoval (m : Mos) (dsObj : FieldVal) (dirObj : Option ℕ) (path : String) :
    List Event :=
  match dirObj with
  | none => []
  | some dirObj =>
    let d := m.get dirObj
    if !d.readable then []
    else orphanNamespace m dirObj d ++ orphanCloneRefs m dsObj d ++
      (orphanSubtree m dsObj dirObj d).flatMap fun e => freeStructure m path e.1 e.2

/-! ## Datasets -/

/-- The `next_clones` ZAP of a dataset and its child count (lines 391–400). -/
def checkNextClones (m : Mos) (dsObj : FieldVal) (ds : ObjDump) (path : String) : List Event :=
  let nco := ds.ref "next_clones_obj"
  if !nco.truthy then []
  else
    let (nDangling, es) := checkClonesZap m nco s!"{path} next_clones"
    es ++
      match ds.numChildren with
      | some nc =>
        if nDangling ≠ 0 then
          [addOp (.bonusSet dsObj.num nc ((nc : ℤ) - nDangling))
            s!"account for {nDangling} removed clone ref(s)"]
        else []
      | none => []

/-- The `prev_snap_obj`, `deadlist_obj` and `snapnames_zapobj` references
    (lines 401–411). -/
def checkDatasetRefs (m : Mos) (dsObj : FieldVal) (ds : ObjDump) (path : String) : List Event :=
  let prev := ds.ref "prev_snap_obj"
  (if prev.truthy && !(m.fetch prev).exists_ then
    [add .critical dsObj s!"{path}: prev_snap_obj = {prev} is dangling"] else []) ++
  ["deadlist_obj", "snapnames_zapobj"].flatMap fun f =>
    let ref := ds.ref f
    if ref.truthy && !(m.fetch ref).exists_ then
      [add .warning dsObj s!"{path}: {f} = {ref} is dangling"] else []

/-- `check_dataset` (lines 372–411). -/
def checkDataset (m : Mos) (dsObj : FieldVal) (path : String) (expectDir : Option ℕ) :
    List Event :=
  let ds := m.fetch dsObj
  if !ds.exists_ then
    [add .critical dsObj s!"dataset object {dsObj} ({path}) does not exist"]
  else if ds.unreadable then
    add .critical dsObj
        (s!"dataset {dsObj} ({path}) is UNREADABLE (EIO) — this is the objset-corruption " ++
          "signature; any code path that opens it (errlog sync, clone enumeration, destroy) " ++
          "will fail or deadlock") ::
      planOrphanRemoval m dsObj expectDir path
  else if !ds.hasType "DSL dataset" then
    [add .warning dsObj
      s!"dataset object {dsObj} ({path}) has type '{ds.typeStr}', expected DSL dataset"]
  else checkNextClones m dsObj ds path ++ checkDatasetRefs m dsObj ds path

end Zhaxx.Scan
