import Zhaxx.Lib.Json
import Zhaxx.Scan.Clean
import Zhaxx.Scan.Report

/-!
# The JSON report

Behind the sort `main` writes the findings and the plan lines into a JSON file when it is
asked to, and exits with a status that says whether there are findings
(`scan/zhaxx-scan` lines 610–616). Messages and plan lines hold the types and the entry
names of the pool as zdb printed them. `tests/test_scan.py` reads the file with `json.load`.

Results:
* `sortFindings_before`: the findings are in order.
* `written_read`: the report is read back as the scan found it.
-/

namespace Zhaxx.Scan

/-! ## Writing -/

/-- The name of a severity. -/
def Severity.name : Severity → String
  | .critical => "CRITICAL"
  | .warning => "WARNING"
  | .info => "INFO"

/-- An `int` or a `str` in JSON. -/
def FieldVal.json : FieldVal → Json.Value
  | .int n => .num n
  | .str s => .str s

/-- `Finding.as_dict` (lines 49–51). -/
def Finding.asDict (f : Finding) : Json.Value :=
  .obj [("severity", .str f.severity.name), ("object", f.obj.json), ("message", .str f.message)]

/-- What `main` dumps (lines 612–613). -/
def reportJson (fs : List Finding) (ops : List PlanOp) : Json.Value :=
  .obj [("findings", .arr (fs.map Finding.asDict)), ("plan", .arr (ops.map fun p => .str p.line))]

/-- What the scanner leaves behind. -/
structure Written where
  /-- The file of `--json`. -/
  json : List Char
  /-- The argument of `sys.exit`. -/
  status : ℕ

/-- The end of `main` (lines 610–616) for a scan of a dump directory. -/
def written (c : DumpDir) : Option Written :=
  (report c).map fun r =>
    ⟨Json.dump 0 (reportJson r.1 r.2), if r.1.isEmpty then 0 else 1⟩

/-! ## Reading -/

/-- An object number, or the text in the place of one. -/
def readObj : Json.Value → Option FieldVal
  | .num n => some (.int n)
  | .str s => some (.str s)
  | _ => none

/-- A severity by its name. -/
def readSeverity : String → Option Severity
  | "CRITICAL" => some .critical
  | "WARNING" => some .warning
  | "INFO" => some .info
  | _ => none

/-- `f["severity"]`, `f["object"]` and `f["message"]`. -/
def readFinding (v : Json.Value) : Option Finding := do
  let severity ← ((v.member? "severity").bind Json.Value.str?).bind readSeverity
  let obj ← (v.member? "object").bind readObj
  let message ← (v.member? "message").bind Json.Value.str?
  some ⟨severity, obj, message⟩

/-- `report["findings"]` and `report["plan"]` (`tests/test_scan.py` lines 41–60). -/
def readReport (text : List Char) : Option (List Finding × List String) := do
  let r ← Json.load text
  let fs ← ((r.member? "findings").bind Json.Value.arr?).bind fun vs => vs.mapM readFinding
  let ops ← ((r.member? "plan").bind Json.Value.arr?).bind fun vs => vs.mapM Json.Value.str?
  some (fs, ops)

theorem readFinding_asDict (f : Finding) : readFinding f.asDict = some f := by
  obtain ⟨s, v, t⟩ := f
  cases s <;> cases v <;> rfl

theorem readReport_reportJson (fs : List Finding) (ops : List PlanOp) :
    readReport (Json.dump 0 (reportJson fs ops)) = some (fs, ops.map PlanOp.line) := by
  have hfs : (fs.map Finding.asDict).mapM readFinding = some fs := by
    induction fs with
    | nil => rfl
    | cons f fs ih => rw [List.map_cons, List.mapM_cons, readFinding_asDict, ih]; rfl
  have hops : (ops.map fun p => Json.Value.str p.line).mapM Json.Value.str? =
      some (ops.map PlanOp.line) := by
    induction ops with
    | nil => rfl
    | cons p ops ih => rw [List.map_cons, List.mapM_cons, ih]; rfl
  have hfindings : (reportJson fs ops).member? "findings" =
      some (.arr (fs.map Finding.asDict)) := rfl
  have hplan : (reportJson fs ops).member? "plan" =
      some (.arr (ops.map fun p => .str p.line)) := rfl
  unfold readReport
  rw [Json.load_dump]
  simp only [Option.bind_eq_bind, Option.bind_some, hfindings, hplan, Json.Value.arr?, hfs, hops]

/-! ## The order of the findings -/

/-- `a` may stand before `b`: the key of `b` is not less. -/
def Before (a b : Finding) : Prop := b.keyLt a = some false

theorem keyLt_eq_true {f g : Finding} : f.keyLt g = some true ↔
    f.severity.rank < g.severity.rank ∨ f.severity.rank = g.severity.rank ∧
      ((∃ x y, f.obj = .int x ∧ g.obj = .int y ∧ x < y) ∨
        ∃ x y, f.obj = .str x ∧ g.obj = .str y ∧ x < y) := by
  unfold Finding.keyLt
  split_ifs with hr
  · simp [hr]
  · have hr : f.severity.rank = g.severity.rank := not_not.mp hr
    cases f.obj <;> cases g.obj <;> simp [hr]

theorem before_iff {f g : Finding} : Before f g ↔
    f.severity.rank < g.severity.rank ∨ f.severity.rank = g.severity.rank ∧
      ((∃ x y, f.obj = .int x ∧ g.obj = .int y ∧ x ≤ y) ∨
        ∃ x y, f.obj = .str x ∧ g.obj = .str y ∧ x ≤ y) := by
  unfold Before Finding.keyLt
  split_ifs with hr
  · simp only [Option.some.injEq, decide_eq_false_iff_not]
    omega
  · have hr : g.severity.rank = f.severity.rank := not_not.mp hr
    have hle : ∀ {x y : String}, some (decide (y < x)) = some false ↔ x ≤ y := by
      intro x y
      rw [Option.some.injEq, decide_eq_false_iff_not, not_lt]
    cases f.obj with
    | int x => cases g.obj <;> simp [hr]
    | str x =>
      cases g.obj with
      | int y => simp [hr]
      | str y =>
        simp only [hr, lt_irrefl, false_or, true_and, hle]
        simp

theorem Before.trans {f g h : Finding} (hfg : Before f g) (hgh : Before g h) : Before f h := by
  rw [before_iff] at *
  rcases hfg with hlt | ⟨heq, hobj⟩
  · rcases hgh with hlt' | ⟨heq', -⟩ <;> omega
  · rcases hgh with hlt' | ⟨heq', hobj'⟩
    · omega
    · refine .inr ⟨heq.trans heq', ?_⟩
      rcases hobj with ⟨x, y, hx, hy, hxy⟩ | ⟨x, y, hx, hy, hxy⟩
      · rcases hobj' with ⟨y', z, hy', hz, hyz⟩ | ⟨y', z, hy', hz, hyz⟩
        · cases hy.symm.trans hy'
          exact .inl ⟨x, z, hx, hz, hxy.trans hyz⟩
        · cases hy.symm.trans hy'
      · rcases hobj' with ⟨y', z, hy', hz, hyz⟩ | ⟨y', z, hy', hz, hyz⟩
        · cases hy.symm.trans hy'
        · cases hy.symm.trans hy'
          exact .inr ⟨x, z, hx, hz, hxy.trans hyz⟩

theorem before_of_keyLt {f g : Finding} (h : f.keyLt g = some true) : Before f g := by
  rw [keyLt_eq_true] at h
  rw [before_iff]
  refine h.imp_right fun ⟨hr, hobj⟩ => ⟨hr, hobj.imp ?_ ?_⟩
  · rintro ⟨x, y, hx, hy, hxy⟩
    exact ⟨x, y, hx, hy, hxy.le⟩
  · rintro ⟨x, y, hx, hy, hxy⟩
    exact ⟨x, y, hx, hy, hxy.le⟩

theorem insertFinding_before {f : Finding} {gs gs' : List Finding}
    (h : insertFinding f gs = some gs') (hgs : gs.Pairwise Before) :
    gs'.Pairwise Before ∧ gs'.Perm (f :: gs) := by
  induction gs generalizing gs' with
  | nil =>
    cases h
    exact ⟨List.pairwise_singleton _ _, .refl _⟩
  | cons g gs ih =>
    rw [insertFinding, Option.bind_eq_some_iff] at h
    obtain ⟨lt, hlt, h⟩ := h
    obtain ⟨hg, hgs⟩ := List.pairwise_cons.mp hgs
    cases lt with
    | true =>
      rw [if_pos rfl] at h
      cases h
      have hfg := before_of_keyLt hlt
      refine ⟨List.pairwise_cons.mpr ⟨fun x hx => ?_, List.pairwise_cons.mpr ⟨hg, hgs⟩⟩, .refl _⟩
      rcases List.mem_cons.mp hx with rfl | hx
      · exact hfg
      · exact hfg.trans (hg x hx)
    | false =>
      rw [if_neg Bool.false_ne_true, Option.map_eq_some_iff] at h
      obtain ⟨rest, hrest, rfl⟩ := h
      obtain ⟨hsorted, hperm⟩ := ih hrest hgs
      refine ⟨List.pairwise_cons.mpr ⟨fun x hx => ?_, hsorted⟩,
        (hperm.cons g).trans (List.Perm.swap f g gs)⟩
      rcases List.mem_cons.mp (hperm.mem_iff.mp hx) with rfl | hx
      · exact hlt
      · exact hg x hx

/-- The findings are in order, when they can be sorted. -/
theorem sortFindings_before {fs fs' : List Finding} (h : sortFindings fs = some fs') :
    fs'.Pairwise Before ∧ fs'.Perm fs := by
  have hfold : ∀ (rest sorted fs' : List Finding),
      rest.foldlM (fun sorted f => insertFinding f sorted) sorted = some fs' →
      sorted.Pairwise Before → fs'.Pairwise Before ∧ fs'.Perm (sorted ++ rest) := by
    intro rest
    induction rest with
    | nil =>
      intro sorted fs' h hs
      cases h
      exact ⟨hs, by simp⟩
    | cons f rest ih =>
      intro sorted fs' h hs
      rw [List.foldlM_cons, Option.bind_eq_bind, Option.bind_eq_some_iff] at h
      obtain ⟨sorted', hinsert, h⟩ := h
      obtain ⟨hs', hperm⟩ := insertFinding_before hinsert hs
      obtain ⟨hfs, hperm'⟩ := ih sorted' fs' h hs'
      exact ⟨hfs, hperm'.trans ((hperm.append_right rest).trans List.perm_middle.symm)⟩
  exact hfold fs [] fs' h List.Pairwise.nil

/-! ## The report file -/

/-- **The report is read back** as the scan found it: all findings, by severity and object,
    with their messages, and the lines of the plan in order. The exit status says whether the
    namespace is consistent. -/
theorem written_read {c : DumpDir} {w : Written} (h : written c = some w) :
    (∃ fs, readReport w.json = some (fs, (plan c.source).map PlanOp.line) ∧
        fs.Perm (findings c.source) ∧ fs.Pairwise Before) ∧
      (w.status = 0 ↔ Consistent c.source) := by
  unfold written report at h
  obtain ⟨⟨fs, ops⟩, hreport, rfl⟩ := Option.map_eq_some_iff.mp h
  obtain ⟨es, hes, hsort⟩ := Option.bind_eq_some_iff.mp hreport
  obtain ⟨fs', hfs, heq⟩ := Option.map_eq_some_iff.mp hsort
  cases heq
  obtain ⟨-, rfl⟩ := scanDumps_eq_some_iff.mp hes
  obtain ⟨hbefore, hperm⟩ := sortFindings_before hfs
  refine ⟨⟨fs, readReport_reportJson fs _, hperm, hbefore⟩, ?_⟩
  have hsilent : fs = [] ↔ Silent (run c.source) := by
    rw [Silent, ← List.perm_nil, ← List.perm_nil]
    exact ⟨fun h => hperm.symm.trans h, fun h => hperm.trans h⟩
  rw [← silent_run_iff, ← hsilent]
  cases fs <;> simp

/-- A dump directory with one file, whose error log and root are not there. -/
def bareDump : DumpDir := ⟨.ofList
  [(1, ("    1    1   128K    512    12K     512    512  100.00  object directory\n" ++
    "\t\terrlog_last = 38 \n").toList)]⟩

/-- Both findings are about the object `1`. -/
theorem written_read_bareDump :
    ∃ w, written bareDump = some w ∧
      (∃ fs, readReport w.json =
          some (fs, ["zap_set obj=1 key=errlog_last expect=38 value=0"]) ∧
        fs.Perm (findings bareDump.source) ∧ fs.Pairwise Before) ∧
      (w.status = 0 ↔ Consistent bareDump.source) := by
  have hplan : (plan bareDump.source).map PlanOp.line =
      ["zap_set obj=1 key=errlog_last expect=38 value=0"] := by decide +kernel
  have hsome : (written bareDump).isSome = true := by decide +kernel
  obtain ⟨w, hw⟩ := Option.isSome_iff_exists.mp hsome
  have hread := written_read hw
  rw [hplan] at hread
  exact ⟨w, hw, hread⟩

end Zhaxx.Scan
