import Zhaxx.Scan.Grounds
import Zhaxx.Scan.Source

/-!
# The report

`main` sorts the findings by severity and object before it writes the report and the plan
(`scan/zhaxx-scan` lines 577–613). A bonus field is an `int` or a `str` (lines 106–119), and
`self.add` takes whatever reference a check holds; between an `int` and a `str` Python has no
order.

Results:
* `sortFindings_perm`: findings whose keys can be compared are sorted.
* `intObjs_run_iff`: when every finding names an object by its number.
* `reportSound_iff`: the report is written, with object numbers only, exactly when no file
  of the scan stops the parser and no reference that a check follows is text.
* `textHead_crashes`: a dump whose `head_dataset_obj` is text.
-/

namespace Zhaxx.Scan

open Traverse (Step State emits)

/-! ## Sorting the findings -/

/-- `SEV_ORDER` (line 40). -/
def Severity.rank : Severity → ℕ
  | .critical => 0
  | .warning => 1
  | .info => 2

/-- `isinstance(v, int)`. -/
def FieldVal.isInt : FieldVal → Bool
  | .int _ => true
  | .str _ => false

/-- `a < b` on the keys `(SEV_ORDER[f.severity], f.obj)` (lines 581–582); `none` is the
    `TypeError` of comparing an `int` with a `str`. -/
def Finding.keyLt (a b : Finding) : Option Bool :=
  if a.severity.rank ≠ b.severity.rank then some (a.severity.rank < b.severity.rank)
  else
    match a.obj, b.obj with
    | .int x, .int y => some (x < y)
    | .str x, .str y => some (x < y)
    | .int _, .str _ => none
    | .str _, .int _ => none

/-- Insert a finding behind those that are not greater. -/
def insertFinding (f : Finding) : List Finding → Option (List Finding)
  | [] => some [f]
  | g :: gs => (f.keyLt g).bind fun lt =>
    if lt then some (f :: g :: gs) else (insertFinding f gs).map (g :: ·)

/-- `sorted(findings, key=…)`, which is stable. -/
def sortFindings (fs : List Finding) : Option (List Finding) :=
  fs.foldlM (fun sorted f => insertFinding f sorted) []

/-- The keys of the findings can be compared. -/
def Comparable (f g : Finding) : Prop := f.severity = g.severity → f.obj.isInt = g.obj.isInt

theorem keyLt_isSome_iff {f g : Finding} : (f.keyLt g).isSome = true ↔ Comparable f g := by
  have hrank : f.severity.rank ≠ g.severity.rank ↔ f.severity ≠ g.severity := by
    cases f.severity <;> cases g.severity <;> decide
  unfold Finding.keyLt Comparable
  by_cases hs : f.severity = g.severity
  · rw [if_neg (mt hrank.mp (not_not.mpr hs))]
    cases f.obj <;> cases g.obj <;> simp [hs, FieldVal.isInt]
  · rw [if_pos (hrank.mpr hs)]
    simp [hs]

/-- A finding that can be compared with those in a list has a place there. -/
theorem insertFinding_perm {f : Finding} {gs : List Finding} (h : ∀ g ∈ gs, Comparable f g) :
    ∃ gs', insertFinding f gs = some gs' ∧ gs'.Perm (f :: gs) := by
  induction gs with
  | nil => exact ⟨[f], rfl, .refl _⟩
  | cons g gs ih =>
    rw [List.forall_mem_cons] at h
    obtain ⟨lt, hlt⟩ := Option.isSome_iff_exists.mp (keyLt_isSome_iff.mpr h.1)
    rw [insertFinding, hlt, Option.bind_some]
    cases lt with
    | true => exact ⟨_, rfl, .refl _⟩
    | false =>
      obtain ⟨gs', hgs', hperm⟩ := ih h.2
      refine ⟨g :: gs', ?_, (hperm.cons g).trans (.swap f g gs)⟩
      rw [if_neg Bool.false_ne_true, hgs', Option.map_some]

/-- **The sort.** Findings whose keys can all be compared are sorted. -/
theorem sortFindings_perm {fs : List Finding} (h : ∀ f ∈ fs, ∀ g ∈ fs, Comparable f g) :
    ∃ fs', sortFindings fs = some fs' ∧ fs'.Perm fs := by
  have hfold : ∀ (rest sorted : List Finding),
      (∀ f ∈ rest, ∀ g ∈ sorted ++ rest, Comparable f g) →
      ∃ fs', rest.foldlM (fun sorted f => insertFinding f sorted) sorted = some fs' ∧
        fs'.Perm (sorted ++ rest) := by
    intro rest
    induction rest with
    | nil => exact fun sorted _ => ⟨sorted, rfl, by simp⟩
    | cons f rest ih =>
      intro sorted hc
      obtain ⟨sorted', hsorted, hperm⟩ := insertFinding_perm fun g hg =>
        hc f List.mem_cons_self g (List.mem_append_left _ hg)
      have hall : (sorted' ++ rest).Perm (sorted ++ f :: rest) :=
        (hperm.append_right rest).trans List.perm_middle.symm
      obtain ⟨fs', hfs', hperm'⟩ := ih sorted' fun f' hf' g hg =>
        hc f' (List.mem_cons_of_mem _ hf') g (hall.subset hg)
      refine ⟨fs', ?_, hperm'.trans hall⟩
      rw [List.foldlM_cons, hsorted]
      exact hfs'
  exact hfold fs [] (by simpa using h)

/-! ## Dumps that stop the parser -/

/-- `int(w)` raises in this line (lines 106–112): there are several words, all digits to
    `isdigit`, and not all decimal numbers. -/
def raisesAt (obj : ℕ) (d : ObjDump) (line : List Char) : Bool :=
  ((matchObjHeader line).filter fun g => PyStr.intDecimal g.1 = obj).isNone && d.exists_ &&
    !(Regex.matchItems Regex.atEnd bonusRe line).isSome && !searchError line &&
    match matchKv line with
    | some (_, val) =>
      let words := PyStr.split val
      decide (1 < words.length) && words.all (fun w => w.all PyStr.isDigit) &&
        !words.all (fun w => w.all digit)
    | none => false

/-- `parse_obj_dump(obj, text)`; `none` is the `ValueError`. -/
def parseOrRaise (obj : ℕ) (text : List Char) : Option ObjDump :=
  (PyStr.splitlines text).foldlM
    (fun d line => if raisesAt obj d line then none else some (parseLine obj d line)) .missing

theorem parseOrRaise_eq {obj : ℕ} {text : List Char} {d : ObjDump}
    (h : parseOrRaise obj text = some d) : parseObjDump obj text = d := by
  unfold parseOrRaise at h
  unfold parseObjDump
  generalize ObjDump.missing = start at h
  generalize PyStr.splitlines text = lines at h
  induction lines generalizing start with
  | nil => exact Option.some.inj h
  | cons line lines ih =>
    rw [List.foldlM_cons] at h
    split_ifs at h
    · cases h
    · exact ih _ h

/-- `DumpDirSource.get` (lines 169–182) over the files, without its cache. -/
def DumpDir.answer (c : DumpDir) : ObjArg → Option ObjDump
  | .int z =>
    if 0 ≤ z then parseOrRaise z.toNat ((c.files.get? z.toNat).getD []) else some .missing
  | .str _ => some .missing

theorem DumpDir.answer_eq {c : DumpDir} {obj : ObjArg} {d : ObjDump}
    (h : c.answer obj = some d) : c.source.source obj = d := by
  cases obj with
  | str s => exact Option.some.inj h
  | int z =>
    simp only [answer] at h
    rw [Mos.source_int, Mos.getInt]
    split_ifs at h ⊢
    · rw [DumpDir.get_source]
      exact parseOrRaise_eq h
    · exact Option.some.inj h

/-- The fuel a scan of the directory needs. -/
def DumpDir.fuel (c : DumpDir) : ℕ := c.files.entries.length + 1

/-- `Scanner.run` over a dump directory. -/
def scanDumps (c : DumpDir) : Option (List Event) :=
  ((Program.run c.fuel).evalOr c.answer).join

/-- What `main` writes (lines 577–613): the sorted findings and the plan. -/
def report (c : DumpDir) : Option (List Finding × List PlanOp) :=
  (scanDumps c).bind fun es => (sortFindings (findingsOf es)).map fun fs =>
    (fs, dedupeOps (opsOf es))

/-- Every finding names its object by an object number, and the report is written. -/
def ReportSound (c : DumpDir) : Prop :=
  (∃ es, scanDumps c = some es ∧ ∀ f ∈ findingsOf es, f.obj.isInt = true) ∧
    (report c).isSome = true

/-- Nothing that the scan opens stops the parser. -/
def DumpDir.Parses (c : DumpDir) : Prop :=
  ∀ obj ∈ (Program.run c.fuel).asked c.source.source, (c.answer obj).isSome = true

theorem scanDumps_eq_some_iff {c : DumpDir} {es : List Event} :
    scanDumps c = some es ↔ c.Parses ∧ run c.source = es := by
  have hfuel : c.fuel = c.source.objs.entries.length + 1 := by
    simp [DumpDir.fuel, DumpDir.source]
  have hrun : runFuel c.source c.fuel = some (run c.source) := by
    rw [hfuel]
    simp [run]
  unfold scanDumps
  rw [Option.join_eq_some_iff, Query.evalOr_eq_some_iff fun _ _ => DumpDir.answer_eq,
    Program.eval_run, hrun, Option.some.injEq]
  rfl

/-! ## Object numbers in findings -/

/-- Every finding among the events names an object number. -/
def IntObjs (es : List Event) : Prop := ∀ f ∈ findingsOf es, f.obj.isInt = true

/-- The field `f` of the object `n` is text, and not empty. -/
def TextRef (m : Mos) (n : ℕ) (f : String) : Prop := ∃ s, (m.get n).ref f = .str s ∧ s ≠ ""

/-- No directory of the walk follows a reference that is text, nor does the head dataset of
    one. -/
structure NoTextRefs (m : Mos) : Prop where
  dir : ∀ D, Reached m D → ∀ f ∈ ["head_dataset_obj", "child_dir_zapobj", "clones"],
    ¬ TextRef m D f
  head : ∀ D H, Reached m D → Ref m D "head_dataset_obj" H → isDataset (m.get H) = true →
    ¬ TextRef m H "next_clones_obj"

theorem not_textRef_iff {m : Mos} {n : ℕ} {f : String} :
    ¬ TextRef m n f ↔ (((m.get n).ref f).truthy = true → ((m.get n).ref f).isInt = true) := by
  unfold TextRef
  cases (m.get n).ref f <;> simp [FieldVal.isInt, FieldVal.truthy]

section IntObjs

variable {es es' : List Event}

@[simp] theorem intObjs_nil : IntObjs [] := by
  simp [IntObjs, findingsOf]

@[simp] theorem intObjs_append : IntObjs (es ++ es') ↔ IntObjs es ∧ IntObjs es' := by
  simp [IntObjs, or_imp, forall_and]

@[simp] theorem intObjs_cons_add {s : Severity} {obj : FieldVal} {t : String} :
    IntObjs (add s obj t :: es) ↔ obj.isInt = true ∧ IntObjs es := by
  simp [IntObjs, add, findingsOf]

@[simp] theorem intObjs_cons_addOp {op : Op} {c : String} {role : Option FreeRole} :
    IntObjs (addOp op c role :: es) ↔ IntObjs es := by
  simp [IntObjs, addOp, findingsOf]

@[simp] theorem intObjs_flatMap {α : Type*} {l : List α} {f : α → List Event} :
    IntObjs (l.flatMap f) ↔ ∀ a ∈ l, IntObjs (f a) := by
  induction l with
  | nil => simp
  | cons a l ih => simp [ih]

theorem intObjs_map {α : Type*} {l : List α} {f : α → Event} :
    IntObjs (l.map f) ↔ ∀ a ∈ l, IntObjs [f a] := by
  rw [← intObjs_flatMap, List.map_eq_flatMap]

theorem intObjs_emits_flatMap {α : Type*} {l : List α} {f : α → List (Step (ℕ × String) Event)} :
    IntObjs (emits (l.flatMap f)) ↔ ∀ a ∈ l, IntObjs (emits (f a)) := by
  induction l with
  | nil => simp [emits]
  | cons a l ih => simp [ih]

theorem intObjs_iff_forall : IntObjs es ↔ ∀ e ∈ es, IntObjs [e] := by
  rw [← intObjs_flatMap, List.flatMap_singleton']

end IntObjs

section Checks

variable {m : Mos} {D H : ℕ} {path : String}

@[simp] theorem isInt_int (n : ℕ) : (FieldVal.int n).isInt = true := rfl

theorem intObjs_checkErrlogHead (name : String) (h : ℕ) : IntObjs (checkErrlogHead m name h) := by
  unfold checkErrlogHead
  dsimp only
  split_ifs
  · simp
  · simp
  · simp
  · simp
  · simp only [intObjs_append, intObjs_map, intObjs_cons_add, intObjs_cons_addOp, intObjs_nil,
      intObjs_flatMap, isInt_int, and_self, implies_true, true_and]
    intro s _
    unfold freeObjsetErrlog
    dsimp only
    split_ifs <;> simp

theorem intObjs_checkScan (mos : ObjDump) : IntObjs (checkScan m mos) := by
  unfold checkScan
  cases scanEntry mos with
  | none => simp
  | some scan =>
    dsimp only
    split_ifs <;> simp

/-- A clones ZAP is named by its reference. -/
theorem intObjs_checkClonesZap {v : FieldVal} :
    IntObjs (checkClonesZap m v path).2 ↔ v.isInt = true := by
  unfold checkClonesZap
  cases v with
  | str s => simp
  | int Z =>
    dsimp only
    split_ifs <;> simp

theorem intObjs_checkNextClones {ds : ObjDump} :
    IntObjs (checkNextClones m (.int H) ds path) ↔
      ((ds.ref "next_clones_obj").truthy = true → (ds.ref "next_clones_obj").isInt = true) := by
  unfold checkNextClones
  dsimp only
  by_cases ht : (ds.ref "next_clones_obj").truthy = true
  · rw [if_neg (by simpa using ht), intObjs_append, intObjs_checkClonesZap]
    generalize (checkClonesZap m (ds.ref "next_clones_obj") s!"{path} next_clones").1 = nDangling
    cases ds.numChildren <;> by_cases hn : nDangling = 0 <;> simp [ht, hn]
  · simp [ht]

theorem intObjs_checkDatasetRefs {ds : ObjDump} :
    IntObjs (checkDatasetRefs m (.int H) ds path) := by
  unfold checkDatasetRefs
  dsimp only
  rw [intObjs_append, intObjs_flatMap]
  refine ⟨?_, fun f _ => ?_⟩ <;> split_ifs <;> simp

/-- The structures of an orphan that are reported were dumped. -/
theorem intObjs_freeStructure (role : FreeRole) (v : FieldVal) :
    IntObjs (freeStructure m path role v) := by
  unfold freeStructure
  cases v with
  | str s => simp
  | int x =>
    dsimp only
    split_ifs <;> simp

theorem intObjs_planOrphanRemoval : IntObjs (planOrphanRemoval m (.int H) (some D) path) := by
  unfold planOrphanRemoval orphanNamespace orphanCloneRefs orphanNextClones orphanDirClones
  dsimp only
  split_ifs <;> simp only [intObjs_append, intObjs_flatMap, intObjs_map, intObjs_cons_addOp,
    intObjs_nil, intObjs_freeStructure, implies_true, and_self]
  all_goals cases (m.fetch ((m.get D).ref "origin_obj")).numChildren <;> simp

theorem intObjs_checkDataset :
    IntObjs (checkDataset m (.int H) path (some D)) ↔
      (isDataset (m.get H) = true → ¬ TextRef m H "next_clones_obj") := by
  rw [not_textRef_iff]
  unfold checkDataset isDataset ObjDump.readable
  dsimp only
  rw [Mos.fetch_int]
  split_ifs with he hu ht
  · simp [show (m.get H).exists_ = false by simpa using he]
  · simp [hu, intObjs_planOrphanRemoval]
  · simp [show (m.get H).hasType "DSL dataset" = false by simpa using ht]
  · rw [intObjs_append, and_iff_left intObjs_checkDatasetRefs, intObjs_checkNextClones]
    simp only [Bool.not_eq_true', Bool.not_eq_true, Bool.not_eq_false] at he hu ht
    simp [he, hu, ht]

theorem intObjs_headEvents :
    IntObjs (headEvents m D path) ↔ ¬ TextRef m D "head_dataset_obj" ∧
      ∀ H, Ref m D "head_dataset_obj" H → isDataset (m.get H) = true →
        ¬ TextRef m H "next_clones_obj" := by
  rw [not_textRef_iff]
  unfold headEvents Ref
  dsimp only
  cases (m.get D).ref "head_dataset_obj" with
  | str s =>
    by_cases hs : s = ""
    · simp [hs, FieldVal.truthy]
    · simp [hs, FieldVal.truthy, FieldVal.isInt, checkDataset]
  | int H =>
    by_cases hH : H = 0
    · simp [hH]
    · simp [hH, intObjs_checkDataset]

theorem intObjs_childSteps {M c : ℕ} {name : String} :
    IntObjs (emits (childSteps m (.int M) path name c)) := by
  unfold childSteps danglingEntry recycledEntry
  split_ifs
  · simp [emits]
  · rw [Traverse.emits_map_emit]
    simp
  · rw [Traverse.emits_map_emit]
    simp
  · simp [emits]

theorem intObjs_childrenSteps :
    IntObjs (emits (childrenSteps m D path)) ↔ ¬ TextRef m D "child_dir_zapobj" := by
  rw [not_textRef_iff]
  unfold childrenSteps childmapSteps
  dsimp only
  cases (m.get D).ref "child_dir_zapobj" with
  | str s =>
    by_cases hs : s = ""
    · simp [hs, FieldVal.truthy, emits]
    · simp [hs, FieldVal.truthy, emits, childmapUnreadable]
  | int M =>
    split_ifs
    · simp [emits, childmapUnreadable]
    · simp [intObjs_emits_flatMap, intObjs_childSteps]
    · simp [emits]

theorem intObjs_clonesEvents : IntObjs (clonesEvents m D path) ↔ ¬ TextRef m D "clones" := by
  rw [not_textRef_iff]
  unfold clonesEvents
  dsimp only
  split_ifs with h
  · rw [intObjs_checkClonesZap]
    simp [h]
  · simp [h]

/-- What the walk appends for a directory. -/
theorem intObjs_dirEvents (hD : isDirectory (m.get D) = true) :
    IntObjs (dirEvents m (D, path)) ↔
      (∀ f ∈ ["head_dataset_obj", "child_dir_zapobj", "clones"], ¬ TextRef m D f) ∧
        ∀ H, Ref m D "head_dataset_obj" H → isDataset (m.get H) = true →
          ¬ TextRef m H "next_clones_obj" := by
  obtain ⟨hr, ht⟩ := isDirectory_iff.mp hD
  unfold dirEvents dirSteps
  rw [if_neg (by simp [hr]), if_neg (by simp [ht]), Traverse.emits_append,
    Traverse.emits_map_emit, Traverse.emits_append, Traverse.emits_map_emit, intObjs_append,
    intObjs_append, intObjs_headEvents, intObjs_childrenSteps, intObjs_clonesEvents]
  simp only [List.forall_mem_cons]
  tauto

theorem intObjs_dirEvents_of_not (hD : isDirectory (m.get D) = false) :
    IntObjs (dirEvents m (D, path)) := by
  unfold isDirectory at hD
  unfold dirEvents dirSteps
  split_ifs with hr ht
  · simp [emits, dirUnreadable]
  · simp [emits, dirRecycled]
  · simp_all

end Checks

/-- **Every finding names an object number** exactly when no reference that a check follows
    is text. -/
theorem intObjs_run_iff {m : Mos} : IntObjs (run m) ↔ NoTextRefs m := by
  by_cases h1 : (m.get mosDirObj).readable = true
  swap
  · have hno : ∀ D, ¬ Reached m D := fun D hD => h1 hD.readable_mos
    obtain ⟨t, hrun⟩ := run_of_unreadable (m := m) (by simpa using h1)
    rw [hrun]
    refine iff_of_true (by simp) ⟨fun D hD => absurd hD (hno D), fun D H hD => absurd hD (hno D)⟩
  obtain ⟨nodes, log, hw, hrun⟩ := run_walks h1
  have herrlog : IntObjs (checkErrlog m (m.get mosDirObj)) := by
    unfold checkErrlog
    exact intObjs_flatMap.mpr fun name _ => intObjs_checkErrlogHead name _
  have hroot : IntObjs (if rootDataset m = 0 then [noRoot] else []) := by
    split_ifs <;> simp [noRoot]
  have hlog : IntObjs log ↔ ∀ n ∈ nodes, IntObjs (dirEvents m n) := by
    rw [intObjs_iff_forall]
    constructor
    · intro h n hn
      exact intObjs_iff_forall.mpr fun e he => h e ((hw.mem_log e).mpr ⟨n, hn, he⟩)
    · intro h e he
      obtain ⟨n, hn, hne⟩ := (hw.mem_log e).mp he
      exact intObjs_iff_forall.mp (h n hn) e hne
  rw [hrun, intObjs_append, intObjs_append, intObjs_append,
    and_iff_right ⟨herrlog, intObjs_checkScan _⟩, and_iff_left hroot, hlog]
  constructor
  · intro h
    have hdir : ∀ D, Reached m D → ∃ path, IntObjs (dirEvents m (D, path)) := by
      intro D hD
      obtain ⟨⟨D, path⟩, hn, rfl⟩ :=
        List.mem_map.mp ((hw.mem_nodes D).mpr (reached_iff_walked.mp hD).1)
      exact ⟨path, h _ hn⟩
    refine ⟨fun D hD => ?_, fun D H hD => ?_⟩
    · obtain ⟨path, hpath⟩ := hdir D hD
      exact ((intObjs_dirEvents hD.isDirectory).mp hpath).1
    · obtain ⟨path, hpath⟩ := hdir D hD
      exact ((intObjs_dirEvents hD.isDirectory).mp hpath).2 H
  · intro h n hn
    cases hdir : isDirectory (m.get n.1) with
    | false => exact intObjs_dirEvents_of_not hdir
    | true =>
      have hD : Reached m n.1 :=
        reached_iff_walked.mpr ⟨(hw.mem_nodes _).mp (List.mem_map_of_mem hn), hdir⟩
      exact (intObjs_dirEvents hdir).mpr ⟨h.dir _ hD, fun H => h.head _ H hD⟩

/-- **The report.** It is written, with object numbers only, exactly when nothing that the
    scan opens stops the parser and no reference that a check follows is text. -/
theorem reportSound_iff (c : DumpDir) : ReportSound c ↔ c.Parses ∧ NoTextRefs c.source := by
  have hsort : ∀ es, IntObjs es → (sortFindings (findingsOf es)).isSome = true := by
    intro es h
    have hcomp : ∀ f ∈ findingsOf es, ∀ g ∈ findingsOf es, Comparable f g :=
      fun f hf g hg _ => (h f hf).trans (h g hg).symm
    obtain ⟨fs, hfs, -⟩ := sortFindings_perm hcomp
    rw [hfs]
    rfl
  rw [← intObjs_run_iff]
  unfold ReportSound report
  constructor
  · rintro ⟨⟨es, hes, hint⟩, -⟩
    obtain ⟨hparses, rfl⟩ := scanDumps_eq_some_iff.mp hes
    exact ⟨hparses, hint⟩
  · rintro ⟨hparses, hint⟩
    have hes := scanDumps_eq_some_iff.mpr ⟨hparses, rfl⟩
    refine ⟨⟨_, hes, hint⟩, ?_⟩
    rw [hes, Option.bind_some, Option.isSome_map]
    exact hsort _ hint

/-- A pool whose root directory has a text in place of its head dataset and a child map that
    is not there. -/
def textHead : DumpDir := ⟨.ofList
  [(1, ("    1    1   128K    512    12K     512    512  100.00  object directory\n" ++
      "\t\troot_dataset = 32 \n").toList),
    (32, ("    32    1   128K    512    12K     512    512  100.00  DSL directory\n" ++
      "\t\thead_dataset_obj = abc\n\t\tchild_dir_zapobj = 34\n").toList)]⟩

/-- **The sort raises.** One finding names the object `'abc'` and another one the object
    `34`. -/
theorem textHead_crashes :
    (scanDumps textHead).map (fun es => (findingsOf es).map Finding.obj) =
        some [.str "abc", .int 34] ∧
      report textHead = none ∧ ¬ ReportSound textHead := by
  have hscan : (scanDumps textHead).map (fun es => (findingsOf es).map Finding.obj) =
      some [.str "abc", .int 34] := by
    decide +kernel
  have hreport : report textHead = none := by
    decide +kernel
  refine ⟨hscan, hreport, fun h => ?_⟩
  rw [ReportSound, hreport] at h
  exact Bool.false_ne_true h.2

end Zhaxx.Scan
