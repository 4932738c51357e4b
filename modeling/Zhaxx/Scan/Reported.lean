import Zhaxx.Scan.Alarms
import Zhaxx.Scan.Clean

/-!
# The report

What a scan reports, said without the scan: which severities it gives to which objects, for
every MOS, whatever the order of the walk, the paths to a directory and the cycles among the
child maps.

Results:
* `reported_iff`: the report has a finding of a severity about an object exactly when the
  specification `Reported` says so.
* `alarm_answered`: a critical finding comes with an operation, or is of one of the kinds
  `Residue` that no plan deals with.
* `residue_iff`: when nothing is planned, these kinds are what is critical.
-/

namespace Zhaxx.Scan

open Traverse (Step emits)

/-! ## Findings of a check -/

/-- The events have a finding of severity `s` about the object `v`. -/
def Reports (es : List Event) (s : Severity) (v : FieldVal) : Prop := ∃ t, add s v t ∈ es

section Reports

variable {es es' : List Event} {s s' : Severity} {v v' : FieldVal}

@[simp] theorem not_reports_nil : ¬ Reports [] s v := by
  simp [Reports]

@[simp] theorem reports_append : Reports (es ++ es') s v ↔ Reports es s v ∨ Reports es' s v := by
  simp [Reports, exists_or]

@[simp] theorem reports_cons_add {t : String} :
    Reports (add s' v' t :: es) s v ↔ (s = s' ∧ v = v') ∨ Reports es s v := by
  simp only [Reports, add, List.mem_cons, Event.finding.injEq, Finding.mk.injEq, exists_or]
  refine or_congr_left ⟨?_, ?_⟩
  · rintro ⟨_, rfl, rfl, rfl⟩
    exact ⟨rfl, rfl⟩
  · rintro ⟨rfl, rfl⟩
    exact ⟨t, rfl, rfl, rfl⟩

@[simp] theorem reports_cons_addOp {op : Op} {c : String} {role : Option FreeRole} :
    Reports (addOp op c role :: es) s v ↔ Reports es s v := by
  simp [Reports, addOp, add]

@[simp] theorem reports_flatMap {α : Type*} {l : List α} {f : α → List Event} :
    Reports (l.flatMap f) s v ↔ ∃ a ∈ l, Reports (f a) s v := by
  simp only [Reports, List.mem_flatMap]
  constructor
  · rintro ⟨t, a, ha, h⟩
    exact ⟨a, ha, t, h⟩
  · rintro ⟨a, ha, t, h⟩
    exact ⟨t, a, ha, h⟩

theorem reports_map {α : Type*} {l : List α} {f : α → Event} :
    Reports (l.map f) s v ↔ ∃ a ∈ l, Reports [f a] s v := by
  rw [← reports_flatMap, List.map_eq_flatMap]

@[simp] theorem not_reports_map_addOp {α : Type*} {l : List α} {op : α → Op} {c : α → String}
    {role : α → Option FreeRole} : ¬ Reports (l.map fun a => addOp (op a) (c a) (role a)) s v := by
  simp [reports_map]

theorem reports_emits_flatMap {α : Type*} {l : List α} {f : α → List (Step (ℕ × String) Event)} :
    Reports (emits (l.flatMap f)) s v ↔ ∃ a ∈ l, Reports (emits (f a)) s v := by
  induction l with
  | nil => simp [emits]
  | cons a l ih => simp [ih]

theorem reports_iff_findingsOf :
    Reports es s v ↔ ∃ f ∈ findingsOf es, f.severity = s ∧ f.obj = v := by
  constructor
  · rintro ⟨t, ht⟩
    exact ⟨_, mem_findingsOf.mpr ht, rfl, rfl⟩
  · rintro ⟨⟨s, v, t⟩, hf, rfl, rfl⟩
    exact ⟨t, mem_findingsOf.mp hf⟩

/-- A check whose findings are alike reports them unless it is silent. -/
theorem reports_iff_not_silent (h : ∀ s' v', Reports es s' v' → s' = s ∧ v' = v) :
    Reports es s' v' ↔ s' = s ∧ v' = v ∧ ¬ Silent es := by
  constructor
  · intro hr
    obtain ⟨f, hf, -⟩ := reports_iff_findingsOf.mp hr
    exact ⟨(h _ _ hr).1, (h _ _ hr).2, List.ne_nil_of_mem hf⟩
  · rintro ⟨rfl, rfl, hs⟩
    obtain ⟨f, hf⟩ := List.exists_mem_of_ne_nil _ hs
    have hr : Reports es f.severity f.obj := reports_iff_findingsOf.mpr ⟨f, hf, rfl, rfl⟩
    obtain ⟨h1, h2⟩ := h _ _ hr
    exact h1 ▸ h2 ▸ hr

end Reports

/-! ## The specification -/

/-- The field `f` of the dump leads to `v`. -/
def Leads (d : ObjDump) (f : String) (v : FieldVal) : Prop := d.ref f = v ∧ v.truthy = true

/-- What is reported about the error log that an entry of the MOS directory names. -/
inductive ErrlogReported (m : Mos) (h : ℕ) : Severity → FieldVal → Prop
  | gone : (m.get h).exists_ = false → ErrlogReported m h .critical (.int mosDirObj)
  | recycled : (m.get h).exists_ = true → (m.get h).hasType "error log" = false →
      ErrlogReported m h .critical (.int h)
  | stale : StaleHead m h → ErrlogReported m h .critical (.int h)
  | recycledObjset {k : String} {per : ℕ} : StaleHead m h → LostEntry m h k per →
      (m.get per).exists_ = true → (m.get per).hasType "error log" = false →
      ErrlogReported m h .warning (.int per)
  | normal : (m.get h).hasType "error log" = true → ¬ StaleHead m h →
      ErrlogReported m h .info (.int h)

/-- A scan is in progress. -/
def Scanning (m : Mos) : Prop :=
  ∃ scan, scanEntry (m.get mosDirObj) = some scan ∧ scan.getD 1 0 = dssScanning

/-- What is reported about the dataset `H` and on its behalf, when it is the head of `D`. -/
inductive DatasetReported (m : Mos) (D : ℕ) (H : FieldVal) : Severity → FieldVal → Prop
  | missing : (m.fetch H).exists_ = false → DatasetReported m D H .critical H
  | unreadable : (m.fetch H).unreadable = true → DatasetReported m D H .critical H
  /-- A part of the orphan that is not freed. -/
  | kept {r : FreeRole} {x : FieldVal} : (m.fetch H).unreadable = true →
      (r, x) ∈ orphanSubtree m H D (m.get D) → x.truthy = true → (m.fetch x).exists_ = true →
      (m.fetch x).unreadable = true ∨ (m.fetch x).typeOr = "" → DatasetReported m D H .warning x
  | recycled : (m.fetch H).readable = true → (m.fetch H).hasType "DSL dataset" = false →
      DatasetReported m D H .warning H
  | nextClones {Z : FieldVal} : isDataset (m.fetch H) = true →
      Leads (m.fetch H) "next_clones_obj" Z → ¬ CleanClones m (m.fetch Z) →
      DatasetReported m D H .critical Z
  | prevSnap {P : FieldVal} : isDataset (m.fetch H) = true →
      Leads (m.fetch H) "prev_snap_obj" P → (m.fetch P).exists_ = false →
      DatasetReported m D H .critical H
  | structure_ {f : String} {x : FieldVal} : isDataset (m.fetch H) = true →
      f ∈ ["deadlist_obj", "snapnames_zapobj"] → Leads (m.fetch H) f x →
      (m.fetch x).exists_ = false → DatasetReported m D H .warning H

/-- What is reported for a directory that the walk visits. -/
inductive DirReported (m : Mos) (D : ℕ) : Severity → FieldVal → Prop
  | directory : isDirectory (m.get D) = false → DirReported m D .critical (.int D)
  | head {H v : FieldVal} {s : Severity} : isDirectory (m.get D) = true →
      Leads (m.get D) "head_dataset_obj" H → DatasetReported m D H s v → DirReported m D s v
  | childMap {M : FieldVal} : isDirectory (m.get D) = true →
      Leads (m.get D) "child_dir_zapobj" M → ¬ CleanChildMap m (m.fetch M) →
      DirReported m D .critical M
  | clones {Z : FieldVal} : isDirectory (m.get D) = true → Leads (m.get D) "clones" Z →
      ¬ CleanClones m (m.fetch Z) → DirReported m D .critical Z

/-- What a scan reports. -/
inductive Reported (m : Mos) : Severity → FieldVal → Prop
  | mos : (m.get mosDirObj).readable = false → Reported m .critical (.int mosDirObj)
  | errlog {name : String} {h : ℕ} {s : Severity} {v : FieldVal} : ErrlogEntry m name h →
      ErrlogReported m h s v → Reported m s v
  | staleScan : StaleScan m → Reported m .critical (.int mosDirObj)
  | scan : (m.get mosDirObj).readable = true → Scanning m → ¬ StaleScan m →
      Reported m .info (.int mosDirObj)
  | noRoot : (m.get mosDirObj).readable = true → rootDataset m = 0 →
      Reported m .critical (.int mosDirObj)
  | dir {D : ℕ} {s : Severity} {v : FieldVal} : Walked m D → DirReported m D s v → Reported m s v

/-! ## The checks -/

section

variable {m : Mos} {s : Severity} {v : FieldVal}

theorem reports_freeObjsetErrlog {st : Stale} :
    Reports (freeObjsetErrlog m st) s v ↔ (m.get st.perObj).exists_ = true ∧
      (m.get st.perObj).hasType "error log" = false ∧ s = .warning ∧ v = .int st.perObj := by
  unfold freeObjsetErrlog
  dsimp only
  cases hex : (m.get st.perObj).exists_ <;> cases ht : (m.get st.perObj).hasType "error log" <;>
    simp

theorem staleHead_eq {h : ℕ} (ht : (m.get h).hasType "error log" = true) :
    StaleHead m h ↔ staleEntries m (m.get h) ≠ [] := and_iff_right ht

theorem errlogReported_of_gone {h : ℕ} (he : (m.get h).exists_ = false) :
    ErrlogReported m h s v ↔ s = .critical ∧ v = .int mosDirObj := by
  have hno : (m.get h).hasType "error log" = false :=
    ObjDump.hasType_of_not_exists (by decide) he
  constructor
  · intro hr
    cases hr with
    | gone => exact ⟨rfl, rfl⟩
    | recycled hex => exact absurd (hex.symm.trans he) (by decide)
    | stale hs => exact absurd (hs.1.symm.trans hno) (by decide)
    | recycledObjset hs => exact absurd (hs.1.symm.trans hno) (by decide)
    | normal ht => exact absurd (ht.symm.trans hno) (by decide)
  · rintro ⟨rfl, rfl⟩
    exact .gone he

theorem errlogReported_of_recycled {h : ℕ} (he : (m.get h).exists_ = true)
    (ht : (m.get h).hasType "error log" = false) :
    ErrlogReported m h s v ↔ s = .critical ∧ v = .int h := by
  constructor
  · intro hr
    cases hr with
    | gone hex => exact absurd (hex.symm.trans he) (by decide)
    | recycled => exact ⟨rfl, rfl⟩
    | stale hs => exact absurd (hs.1.symm.trans ht) (by decide)
    | recycledObjset hs => exact absurd (hs.1.symm.trans ht) (by decide)
    | normal ht' => exact absurd (ht'.symm.trans ht) (by decide)
  · rintro ⟨rfl, rfl⟩
    exact .recycled he ht

/-- What is reported about a head that is an error log. -/
theorem errlogReported_of_head {h : ℕ} (ht : (m.get h).hasType "error log" = true) :
    ErrlogReported m h s v ↔
      (StaleHead m h ∧ ((s = .critical ∧ v = .int h) ∨ ∃ k per, LostEntry m h k per ∧
        (m.get per).exists_ = true ∧ (m.get per).hasType "error log" = false ∧ s = .warning ∧
          v = .int per)) ∨
      (¬ StaleHead m h ∧ s = .info ∧ v = .int h) := by
  constructor
  · intro hr
    cases hr with
    | gone hex =>
      exact absurd (ht.symm.trans (ObjDump.hasType_of_not_exists (by decide) hex)) (by decide)
    | recycled _ ht' => exact absurd (ht.symm.trans ht') (by decide)
    | stale hs => exact .inl ⟨hs, .inl ⟨rfl, rfl⟩⟩
    | recycledObjset hs hl hex hty => exact .inl ⟨hs, .inr ⟨_, _, hl, hex, hty, rfl, rfl⟩⟩
    | normal _ hs => exact .inr ⟨hs, rfl, rfl⟩
  · rintro (⟨hs, ⟨rfl, rfl⟩ | ⟨k, per, hl, hex, hty, rfl, rfl⟩⟩ | ⟨hs, rfl, rfl⟩)
    · exact .stale hs
    · exact .recycledObjset hs hl hex hty
    · exact .normal ht hs

theorem reports_checkErrlogHead {name : String} {h : ℕ} :
    Reports (checkErrlogHead m name h) s v ↔ h ≠ 0 ∧ ErrlogReported m h s v := by
  unfold checkErrlogHead
  dsimp only
  split_ifs with h0 he ht hs
  · exact iff_of_false not_reports_nil fun h => h.1 h0
  · rw [errlogReported_of_gone (by simpa using he)]
    simp [h0]
  · rw [errlogReported_of_recycled (by simpa using he) (by simpa using ht)]
    simp [h0]
  · have ht : (m.get h).hasType "error log" = true := by simpa using ht
    have hs : ¬ StaleHead m h := by
      rw [staleHead_eq ht, not_not]
      exact List.isEmpty_iff.mp hs
    rw [errlogReported_of_head ht]
    simp [h0, hs]
  · have ht : (m.get h).hasType "error log" = true := by simpa using ht
    have hs : StaleHead m h := by
      rw [staleHead_eq ht]
      exact fun hnil => hs (List.isEmpty_iff.mpr hnil)
    obtain ⟨st, sts, hsts⟩ := List.exists_cons_of_ne_nil hs.2
    have hcritical : (∃ a ∈ staleEntries m (m.get h), s = Severity.critical ∧ v = .int h) ↔
        s = .critical ∧ v = .int h :=
      ⟨fun ⟨_, _, h⟩ => h, fun h => ⟨st, hsts ▸ List.mem_cons_self, h⟩⟩
    simp only [reports_append, reports_map, reports_cons_add, reports_cons_addOp, not_reports_nil,
      or_false, reports_flatMap, reports_freeObjsetErrlog, hcritical, errlogReported_of_head ht,
      hs, true_and, not_true_eq_false, false_and, ne_eq, h0, not_false_eq_true]
    refine or_congr_right ⟨?_, ?_⟩
    · rintro ⟨st, hst, hex⟩
      exact ⟨_, _, lostEntry_of_mem hst, hex⟩
    · rintro ⟨k, per, hl, hex⟩
      obtain ⟨st, hst, rfl⟩ := exists_staleEntry hl
      exact ⟨st, hst, hex⟩

theorem reports_checkErrlog (h1 : (m.get mosDirObj).readable = true) :
    Reports (checkErrlog m (m.get mosDirObj)) s v ↔
      ∃ name h, ErrlogEntry m name h ∧ ErrlogReported m h s v := by
  unfold checkErrlog
  rw [reports_flatMap]
  simp only [reports_checkErrlogHead]
  constructor
  · rintro ⟨name, hn, h0, hr⟩
    exact ⟨name, _, ⟨h1, hn, rfl, h0⟩, hr⟩
  · rintro ⟨name, h, ⟨-, hn, rfl, h0⟩, hr⟩
    exact ⟨name, hn, h0, hr⟩

theorem reports_checkScan (h1 : (m.get mosDirObj).readable = true) :
    Reports (checkScan m (m.get mosDirObj)) s v ↔ v = .int mosDirObj ∧
      ((StaleScan m ∧ s = .critical) ∨ (Scanning m ∧ ¬ StaleScan m ∧ s = .info)) := by
  have hstale : StaleScan m → Scanning m := fun ⟨_, scan, hscan, hst, _⟩ => ⟨scan, hscan, hst⟩
  unfold checkScan
  cases hscan : scanEntry (m.get mosDirObj) with
  | none =>
    have hno : ¬ Scanning m := fun ⟨scan, h, _⟩ => by
      rw [hscan] at h
      cases h
    refine iff_of_false not_reports_nil ?_
    rintro ⟨-, ⟨h, -⟩ | ⟨h, -⟩⟩
    · exact hno (hstale h)
    · exact hno h
  | some scan =>
    have hscanning : Scanning m ↔ scan.getD 1 0 = dssScanning := by
      unfold Scanning
      simp only [hscan, Option.some.injEq, exists_eq_left']
    have hqueue : StaleScan m ↔ scan.getD 1 0 = dssScanning ∧
        scan.getD 2 0 ≠ 0 ∧ (m.get (scan.getD 2 0)).readable = false := by
      unfold StaleScan
      simp only [h1, hscan, Option.some.injEq, exists_eq_left', true_and]
    rw [hscanning, hqueue]
    dsimp only
    generalize scan.getD 1 0 = state
    generalize scan.getD 2 0 = queue
    by_cases hst : state = dssScanning
    · rw [if_neg (not_not.mpr hst)]
      by_cases hq : queue ≠ 0 ∧ (m.get queue).readable = false
      · rw [if_pos hq, if_pos (List.cons_ne_nil _ _)]
        simp [hst, hq, and_comm]
      · rw [if_neg hq, if_neg (not_not.mpr rfl)]
        simp only [reports_cons_add, not_reports_nil, or_false, hst, hq, not_false_eq_true,
          true_and, false_and, false_or, and_comm]
    · rw [if_pos hst]
      simp [hst]

theorem reports_checkClonesZap {w : FieldVal} {path : String} :
    Reports (checkClonesZap m w path).2 s v ↔
      s = .critical ∧ v = w ∧ ¬ CleanClones m (m.fetch w) := by
  have hsilent : Silent (checkClonesZap m w path).2 ↔ CleanClones m (m.fetch w) :=
    silent_checkClonesZap
  rw [← hsilent]
  refine reports_iff_not_silent fun s' v' h => ?_
  unfold checkClonesZap at h
  dsimp only at h
  split_ifs at h
  · simpa using h
  · rw [reports_flatMap] at h
    obtain ⟨e, -, h⟩ := h
    simpa using h

theorem reports_childSteps {w : FieldVal} {path name : String} {c : ℕ}
    (h : Reports (emits (childSteps m w path name c)) s v) : s = .critical ∧ v = w := by
  unfold childSteps danglingEntry recycledEntry at h
  split_ifs at h
  · exact absurd h not_reports_nil
  · rw [Traverse.emits_map_emit] at h
    simpa using h
  · rw [Traverse.emits_map_emit] at h
    simpa using h
  · exact absurd h not_reports_nil

theorem reports_childrenSteps {D : ℕ} {path : String} :
    Reports (emits (childrenSteps m D path)) s v ↔ ∃ M, Leads (m.get D) "child_dir_zapobj" M ∧
      ¬ CleanChildMap m (m.fetch M) ∧ s = .critical ∧ v = M := by
  have honly : ∀ s' v', Reports (emits (childrenSteps m D path)) s' v' →
      s' = .critical ∧ v' = (m.get D).ref "child_dir_zapobj" := by
    intro s' v' h
    unfold childrenSteps childmapSteps at h
    dsimp only at h
    split_ifs at h
    · simpa [emits, childmapUnreadable] using h
    · rw [reports_emits_flatMap] at h
      obtain ⟨e, -, h⟩ := h
      exact reports_childSteps h
    · exact absurd h not_reports_nil
  rw [reports_iff_not_silent honly, silent_childrenSteps, Classical.not_imp]
  constructor
  · rintro ⟨rfl, rfl, ht, hM⟩
    exact ⟨_, ⟨rfl, ht⟩, hM, rfl, rfl⟩
  · rintro ⟨M, ⟨rfl, ht⟩, hM, rfl, rfl⟩
    exact ⟨rfl, rfl, ht, hM⟩

theorem reports_clonesEvents {D : ℕ} {path : String} :
    Reports (clonesEvents m D path) s v ↔ ∃ Z, Leads (m.get D) "clones" Z ∧
      ¬ CleanClones m (m.fetch Z) ∧ s = .critical ∧ v = Z := by
  unfold clonesEvents Leads
  dsimp only
  split_ifs with ht
  · rw [reports_checkClonesZap]
    constructor
    · rintro ⟨rfl, rfl, hZ⟩
      exact ⟨_, ⟨rfl, ht⟩, hZ, rfl, rfl⟩
    · rintro ⟨Z, ⟨rfl, -⟩, hZ, rfl, rfl⟩
      exact ⟨rfl, rfl, hZ⟩
  · refine iff_of_false not_reports_nil ?_
    rintro ⟨Z, ⟨rfl, ht'⟩, -⟩
    exact ht ht'

/-! ## Heads -/

theorem reports_freeStructure {path : String} {r : FreeRole} {x : FieldVal} :
    Reports (freeStructure m path r x) s v ↔ x.truthy = true ∧ (m.fetch x).exists_ = true ∧
      ((m.fetch x).unreadable = true ∨ (m.fetch x).typeOr = "") ∧ s = .warning ∧ v = x := by
  unfold freeStructure
  dsimp only
  cases ht : x.truthy with
  | false => simp
  | true =>
    cases hex : (m.fetch x).exists_ <;> cases hu : (m.fetch x).unreadable <;>
      by_cases hty : (m.fetch x).typeOr = "" <;> simp [hty]

theorem not_reports_orphanNamespace {D : ℕ} {d : ObjDump} :
    ¬ Reports (orphanNamespace m D d) s v := by
  unfold orphanNamespace
  dsimp only
  split_ifs <;> simp

theorem not_reports_orphanCloneRefs {w : FieldVal} {d : ObjDump} :
    ¬ Reports (orphanCloneRefs m w d) s v := by
  have hnext : ∀ origin o, ¬ Reports (orphanNextClones m w origin o) s v := by
    intro origin o
    unfold orphanNextClones
    dsimp only
    split_ifs
    · exact not_reports_nil
    · cases o.numChildren <;> simp
  have hdir : ∀ o, ¬ Reports (orphanDirClones m w o) s v := by
    intro o
    unfold orphanDirClones
    dsimp only
    split_ifs <;> simp
  unfold orphanCloneRefs
  dsimp only
  split_ifs
  · exact not_reports_nil
  · exact not_reports_nil
  · rw [reports_append]
    exact not_or.mpr ⟨hnext _ _, hdir _⟩

theorem reports_planOrphanRemoval {D : ℕ} {w : FieldVal} {path : String}
    (hD : (m.get D).readable = true) :
    Reports (planOrphanRemoval m w (some D) path) s v ↔ ∃ r x,
      (r, x) ∈ orphanSubtree m w D (m.get D) ∧ x.truthy = true ∧ (m.fetch x).exists_ = true ∧
        ((m.fetch x).unreadable = true ∨ (m.fetch x).typeOr = "") ∧ s = .warning ∧ v = x := by
  unfold planOrphanRemoval
  dsimp only
  rw [if_neg (by simp [hD]), reports_append, reports_append,
    or_iff_right (not_or.mpr ⟨not_reports_orphanNamespace, not_reports_orphanCloneRefs⟩),
    reports_flatMap]
  simp only [reports_freeStructure, Prod.exists]

theorem reports_checkNextClones {w : FieldVal} {ds : ObjDump} {path : String} :
    Reports (checkNextClones m w ds path) s v ↔ ∃ Z, Leads ds "next_clones_obj" Z ∧
      ¬ CleanClones m (m.fetch Z) ∧ s = .critical ∧ v = Z := by
  unfold checkNextClones Leads
  dsimp only
  by_cases ht : (ds.ref "next_clones_obj").truthy = true
  · rw [if_neg (by simpa using ht), reports_append, or_iff_left, reports_checkClonesZap]
    · constructor
      · rintro ⟨rfl, rfl, hZ⟩
        exact ⟨_, ⟨rfl, ht⟩, hZ, rfl, rfl⟩
      · rintro ⟨Z, ⟨rfl, -⟩, hZ, rfl, rfl⟩
        exact ⟨rfl, rfl, hZ⟩
    · cases ds.numChildren with
      | none => exact not_reports_nil
      | some nc =>
        dsimp only
        split_ifs <;> simp
  · rw [if_pos (by simpa using ht)]
    refine iff_of_false not_reports_nil ?_
    rintro ⟨Z, ⟨rfl, ht'⟩, -⟩
    exact ht ht'

theorem reports_checkDatasetRefs {w : FieldVal} {ds : ObjDump} {path : String} :
    Reports (checkDatasetRefs m w ds path) s v ↔ v = w ∧
      ((s = .critical ∧ ∃ P, Leads ds "prev_snap_obj" P ∧ (m.fetch P).exists_ = false) ∨
        (s = .warning ∧ ∃ f ∈ ["deadlist_obj", "snapnames_zapobj"],
          ∃ x, Leads ds f x ∧ (m.fetch x).exists_ = false)) := by
  have href : ∀ (f : String) (s' : Severity) (t : String),
      (Reports (if (ds.ref f).truthy && !(m.fetch (ds.ref f)).exists_ then [add s' w t] else [])
        s v ↔ (s = s' ∧ v = w) ∧ ∃ x, Leads ds f x ∧ (m.fetch x).exists_ = false) := by
    intro f s' t
    unfold Leads
    cases ht : (ds.ref f).truthy <;> cases hex : (m.fetch (ds.ref f)).exists_ <;> simp [ht, hex]
  unfold checkDatasetRefs
  dsimp only
  rw [reports_append, href, reports_flatMap]
  simp only [href]
  constructor
  · rintro (⟨⟨hs, hv⟩, hP⟩ | ⟨f, hf, ⟨hs, hv⟩, hx⟩)
    · exact ⟨hv, .inl ⟨hs, hP⟩⟩
    · exact ⟨hv, .inr ⟨hs, f, hf, hx⟩⟩
  · rintro ⟨hv, ⟨hs, hP⟩ | ⟨hs, f, hf, hx⟩⟩
    · exact .inl ⟨⟨hs, hv⟩, hP⟩
    · exact .inr ⟨f, hf, ⟨hs, hv⟩, hx⟩

section

variable {D : ℕ} {H : FieldVal}

theorem datasetReported_of_missing (he : (m.fetch H).exists_ = false) :
    DatasetReported m D H s v ↔ s = .critical ∧ v = H := by
  have hr : ¬ (m.fetch H).readable = true := fun h =>
    absurd ((ObjDump.exists_of_readable h).symm.trans he) (by decide)
  have hu : ¬ (m.fetch H).unreadable = true := fun h =>
    absurd ((ObjDump.exists_of_unreadable h).symm.trans he) (by decide)
  constructor
  · intro hrep
    cases hrep with
    | missing => exact ⟨rfl, rfl⟩
    | unreadable hu' => exact absurd hu' hu
    | kept hu' => exact absurd hu' hu
    | recycled hr' => exact absurd hr' hr
    | nextClones hds => exact absurd (isDataset_iff.mp hds).1 hr
    | prevSnap hds => exact absurd (isDataset_iff.mp hds).1 hr
    | structure_ hds => exact absurd (isDataset_iff.mp hds).1 hr
  · rintro ⟨rfl, rfl⟩
    exact .missing he

theorem datasetReported_of_unreadable (hu : (m.fetch H).unreadable = true) :
    DatasetReported m D H s v ↔ (s = .critical ∧ v = H) ∨
      ∃ r x, (r, x) ∈ orphanSubtree m H D (m.get D) ∧ x.truthy = true ∧
        (m.fetch x).exists_ = true ∧ ((m.fetch x).unreadable = true ∨ (m.fetch x).typeOr = "") ∧
          s = .warning ∧ v = x := by
  have he : (m.fetch H).exists_ = true := ObjDump.exists_of_unreadable hu
  have hr : ¬ (m.fetch H).readable = true := fun h =>
    absurd ((ObjDump.readable_iff.mp h).2.symm.trans hu) (by decide)
  constructor
  · intro hrep
    cases hrep with
    | missing he' => exact absurd (he.symm.trans he') (by decide)
    | unreadable => exact .inl ⟨rfl, rfl⟩
    | kept _ hx ht hex hkeep => exact .inr ⟨_, _, hx, ht, hex, hkeep, rfl, rfl⟩
    | recycled hr' => exact absurd hr' hr
    | nextClones hds => exact absurd (isDataset_iff.mp hds).1 hr
    | prevSnap hds => exact absurd (isDataset_iff.mp hds).1 hr
    | structure_ hds => exact absurd (isDataset_iff.mp hds).1 hr
  · rintro (⟨rfl, rfl⟩ | ⟨r, x, hx, ht, hex, hkeep, rfl, rfl⟩)
    · exact .unreadable hu
    · exact .kept hu hx ht hex hkeep

theorem datasetReported_of_recycled (hr : (m.fetch H).readable = true)
    (ht : (m.fetch H).hasType "DSL dataset" = false) :
    DatasetReported m D H s v ↔ s = .warning ∧ v = H := by
  obtain ⟨he, hu⟩ := ObjDump.readable_iff.mp hr
  have hds : ¬ isDataset (m.fetch H) = true := fun h =>
    absurd ((isDataset_iff.mp h).2.symm.trans ht) (by decide)
  constructor
  · intro hrep
    cases hrep with
    | missing he' => exact absurd (he.symm.trans he') (by decide)
    | unreadable hu' => exact absurd (hu'.symm.trans hu) (by decide)
    | kept hu' => exact absurd (hu'.symm.trans hu) (by decide)
    | recycled => exact ⟨rfl, rfl⟩
    | nextClones hds' => exact absurd hds' hds
    | prevSnap hds' => exact absurd hds' hds
    | structure_ hds' => exact absurd hds' hds
  · rintro ⟨rfl, rfl⟩
    exact .recycled hr ht

theorem datasetReported_of_dataset (hds : isDataset (m.fetch H) = true) :
    DatasetReported m D H s v ↔
      (∃ Z, Leads (m.fetch H) "next_clones_obj" Z ∧ ¬ CleanClones m (m.fetch Z) ∧
        s = .critical ∧ v = Z) ∨
      v = H ∧
        ((s = .critical ∧ ∃ P, Leads (m.fetch H) "prev_snap_obj" P ∧
            (m.fetch P).exists_ = false) ∨
          (s = .warning ∧ ∃ f ∈ ["deadlist_obj", "snapnames_zapobj"],
            ∃ x, Leads (m.fetch H) f x ∧ (m.fetch x).exists_ = false)) := by
  obtain ⟨hr, ht⟩ := isDataset_iff.mp hds
  obtain ⟨he, hu⟩ := ObjDump.readable_iff.mp hr
  constructor
  · intro hrep
    cases hrep with
    | missing he' => exact absurd (he.symm.trans he') (by decide)
    | unreadable hu' => exact absurd (hu'.symm.trans hu) (by decide)
    | kept hu' => exact absurd (hu'.symm.trans hu) (by decide)
    | recycled _ ht' => exact absurd (ht.symm.trans ht') (by decide)
    | nextClones _ hZ hc => exact .inl ⟨_, hZ, hc, rfl, rfl⟩
    | prevSnap _ hP hgone => exact .inr ⟨rfl, .inl ⟨rfl, _, hP, hgone⟩⟩
    | structure_ _ hf hx hgone => exact .inr ⟨rfl, .inr ⟨rfl, _, hf, _, hx, hgone⟩⟩
  · rintro (⟨Z, hZ, hc, rfl, rfl⟩ | ⟨rfl, ⟨rfl, P, hP, hgone⟩ | ⟨rfl, f, hf, x, hx, hgone⟩⟩)
    · exact .nextClones hds hZ hc
    · exact .prevSnap hds hP hgone
    · exact .structure_ hds hf hx hgone

theorem reports_checkDataset (hD : (m.get D).readable = true) {path : String} :
    Reports (checkDataset m H path (some D)) s v ↔ DatasetReported m D H s v := by
  unfold checkDataset
  dsimp only
  split_ifs with he hu ht
  · rw [datasetReported_of_missing (by simpa using he)]
    simp
  · rw [datasetReported_of_unreadable hu, reports_cons_add, reports_planOrphanRemoval hD]
  · have hr : (m.fetch H).readable = true :=
      ObjDump.readable_iff.mpr ⟨by simpa using he, by simpa using hu⟩
    rw [datasetReported_of_recycled hr (by simpa using ht)]
    simp
  · have hr : (m.fetch H).readable = true :=
      ObjDump.readable_iff.mpr ⟨by simpa using he, by simpa using hu⟩
    rw [datasetReported_of_dataset (isDataset_iff.mpr ⟨hr, by simpa using ht⟩), reports_append,
      reports_checkNextClones, reports_checkDatasetRefs]

end

theorem reports_headEvents {D : ℕ} (hD : (m.get D).readable = true) {path : String} :
    Reports (headEvents m D path) s v ↔
      ∃ H, Leads (m.get D) "head_dataset_obj" H ∧ DatasetReported m D H s v := by
  unfold headEvents Leads
  dsimp only
  split_ifs with ht
  · rw [reports_checkDataset hD]
    constructor
    · exact fun h => ⟨_, ⟨rfl, ht⟩, h⟩
    · rintro ⟨H, ⟨rfl, -⟩, h⟩
      exact h
  · refine iff_of_false not_reports_nil ?_
    rintro ⟨H, ⟨rfl, ht'⟩, -⟩
    exact ht ht'

/-! ## The scan -/

/-- What the walk reports for a directory. -/
theorem reports_dirEvents {n : ℕ × String} :
    Reports (dirEvents m n) s v ↔ DirReported m n.1 s v := by
  obtain ⟨D, path⟩ := n
  have hother : isDirectory (m.get D) = false →
      (DirReported m D s v ↔ s = .critical ∧ v = .int D) := by
    intro hno
    constructor
    · intro hrep
      cases hrep with
      | directory => exact ⟨rfl, rfl⟩
      | head hdir => exact absurd (hdir.symm.trans hno) (by decide)
      | childMap hdir => exact absurd (hdir.symm.trans hno) (by decide)
      | clones hdir => exact absurd (hdir.symm.trans hno) (by decide)
    · rintro ⟨rfl, rfl⟩
      exact .directory hno
  unfold dirEvents dirSteps
  dsimp only
  split_ifs with hr ht
  · rw [hother (by simp [isDirectory, show (m.get D).readable = false by simpa using hr])]
    simp [emits, dirUnreadable]
  · rw [hother (by simp [isDirectory, show (m.get D).hasType "DSL directory" = false by
      simpa using ht])]
    simp [emits, dirRecycled]
  · have hD : (m.get D).readable = true := by simpa using hr
    have hdir : isDirectory (m.get D) = true := isDirectory_iff.mpr ⟨hD, by simpa using ht⟩
    rw [Traverse.emits_append, Traverse.emits_append, Traverse.emits_map_emit,
      Traverse.emits_map_emit, reports_append, reports_append, reports_headEvents hD,
      reports_childrenSteps, reports_clonesEvents]
    constructor
    · rintro (⟨H, hH, hrep⟩ | ⟨M, hM, hc, rfl, rfl⟩ | ⟨Z, hZ, hc, rfl, rfl⟩)
      · exact .head hdir hH hrep
      · exact .childMap hdir hM hc
      · exact .clones hdir hZ hc
    · intro hrep
      cases hrep with
      | directory hno => exact absurd (hdir.symm.trans hno) (by decide)
      | head _ hH hrep => exact .inl ⟨_, hH, hrep⟩
      | childMap _ hM hc => exact .inr (.inl ⟨_, hM, hc, rfl, rfl⟩)
      | clones _ hZ hc => exact .inr (.inr ⟨_, hZ, hc, rfl, rfl⟩)

theorem Walks.reports_log {nodes : List (ℕ × String)} {log : List Event} (h : Walks m nodes log) :
    Reports log s v ↔ ∃ D, Walked m D ∧ DirReported m D s v := by
  constructor
  · rintro ⟨t, ht⟩
    obtain ⟨n, hn, he⟩ := (h.mem_log _).mp ht
    exact ⟨n.1, (h.mem_nodes _).mp (List.mem_map_of_mem hn), reports_dirEvents.mp ⟨t, he⟩⟩
  · rintro ⟨D, hD, hrep⟩
    obtain ⟨n, hn, rfl⟩ := List.mem_map.mp ((h.mem_nodes D).mpr hD)
    obtain ⟨t, ht⟩ := reports_dirEvents.mpr hrep
    exact ⟨t, (h.mem_log _).mpr ⟨n, hn, ht⟩⟩

theorem reports_run : Reports (run m) s v ↔ Reported m s v := by
  by_cases h1 : (m.get mosDirObj).readable = true
  · obtain ⟨nodes, log, hw, hrun⟩ := run_walks h1
    have hroot : Reports (if rootDataset m = 0 then [noRoot] else []) s v ↔
        rootDataset m = 0 ∧ s = .critical ∧ v = .int mosDirObj := by
      split_ifs with h <;> simp [h, noRoot]
    rw [hrun, reports_append, reports_append, reports_append, reports_checkErrlog h1,
      reports_checkScan h1, hw.reports_log, hroot]
    constructor
    · rintro ((⟨name, h, he, hrep⟩ | ⟨rfl, ⟨hs, rfl⟩ | ⟨hs, hns, rfl⟩⟩) | ⟨D, hD, hrep⟩ |
        ⟨hr, rfl, rfl⟩)
      · exact .errlog he hrep
      · exact .staleScan hs
      · exact .scan h1 hs hns
      · exact .dir hD hrep
      · exact .noRoot h1 hr
    · intro hrep
      cases hrep with
      | mos hno => exact absurd (h1.symm.trans hno) (by decide)
      | errlog he hrep => exact .inl (.inl ⟨_, _, he, hrep⟩)
      | staleScan hs => exact .inl (.inr ⟨rfl, .inl ⟨hs, rfl⟩⟩)
      | scan _ hs hns => exact .inl (.inr ⟨rfl, .inr ⟨hs, hns, rfl⟩⟩)
      | noRoot _ hr => exact .inr (.inr ⟨hr, rfl, rfl⟩)
      | dir hD hrep => exact .inr (.inl ⟨_, hD, hrep⟩)
  · have h1 : (m.get mosDirObj).readable = false := by simpa using h1
    have hno : ¬ (m.get mosDirObj).readable = true := by simp [h1]
    obtain ⟨t, ht⟩ := run_of_unreadable h1
    rw [ht, reports_cons_add, or_iff_left not_reports_nil]
    constructor
    · rintro ⟨rfl, rfl⟩
      exact .mos h1
    · intro hrep
      cases hrep with
      | mos => exact ⟨rfl, rfl⟩
      | errlog he => exact absurd he.1 hno
      | staleScan hs => exact absurd hs.1 hno
      | scan h => exact absurd h hno
      | noRoot h => exact absurd h hno
      | dir hD => exact absurd hD.readable_mos hno

/-- **The report.** A scan has a finding of a severity about an object exactly when the
    specification has one. -/
theorem reported_iff :
    (∃ f ∈ findings m, f.severity = s ∧ f.obj = v) ↔ Reported m s v :=
  reports_iff_findingsOf.symm.trans reports_run

end

/-! ## Critical findings that no plan deals with -/

/-- What is reported as critical without an operation against it. -/
inductive Residue (m : Mos) : FieldVal → Prop
  | mos : (m.get mosDirObj).readable = false → Residue m (.int mosDirObj)
  | noRoot : (m.get mosDirObj).readable = true → rootDataset m = 0 → Residue m (.int mosDirObj)
  /-- The root, or an unreadable directory. -/
  | directory {D : ℕ} : Walked m D → isDirectory (m.get D) = false → Residue m (.int D)
  /-- A child map, or the clones ZAP of a directory, that cannot be read. -/
  | zap {D : ℕ} {f : String} {Z : FieldVal} : Reached m D → f ∈ ["child_dir_zapobj", "clones"] →
      Leads (m.get D) f Z → (m.fetch Z).readable = false → Residue m Z
  | missingHead {D : ℕ} {H : FieldVal} : Reached m D → Leads (m.get D) "head_dataset_obj" H →
      (m.fetch H).exists_ = false → Residue m H
  | nextClones {D H : ℕ} {Z : FieldVal} : Reached m D → Ref m D "head_dataset_obj" H →
      isDataset (m.get H) = true → Leads (m.get H) "next_clones_obj" Z →
      (m.fetch Z).readable = false → Residue m Z
  | prevSnap {D H : ℕ} {P : FieldVal} : Reached m D → Ref m D "head_dataset_obj" H →
      isDataset (m.get H) = true → Leads (m.get H) "prev_snap_obj" P →
      (m.fetch P).exists_ = false → Residue m (.int H)
  /-- The head of the directory `0`, which `if not obj` passes over (line 503). -/
  | nullDirectory {H : ℕ} : Reached m 0 → Orphan m 0 H → Residue m (.int H)

section

variable {m : Mos} {v : FieldVal}

theorem leads_int {n r : ℕ} {f : String} : Leads (m.get n) f (.int r) ↔ Ref m n f r := by
  unfold Leads Ref
  rw [FieldVal.truthy_int]

/-- An object that was read is no text. -/
theorem exists_int {w : FieldVal} (h : (m.fetch w).exists_ = true) : ∃ n, w = .int n := by
  cases w with
  | int n => exact ⟨n, rfl⟩
  | str t => cases h

theorem not_cleanClones {Z : FieldVal} (h : ¬ CleanClones m (m.fetch Z)) :
    (m.fetch Z).readable = false ∨ ∃ z k c, Z = .int z ∧ DanglingClone m z k c := by
  cases hr : (m.fetch Z).readable with
  | false => exact .inl rfl
  | true =>
    obtain ⟨z, rfl⟩ := exists_int (ObjDump.exists_of_readable hr)
    have hno : ¬ ∀ e ∈ (m.get z).zap.entries, isDataset (m.get e.2) = true :=
      fun hall => h ⟨hr, hall⟩
    push Not at hno
    obtain ⟨⟨k, c⟩, he, hc⟩ := hno
    exact .inr ⟨z, k, c, rfl, hr, he, by simpa using hc⟩

theorem not_cleanChildMap {M : FieldVal} (h : ¬ CleanChildMap m (m.fetch M)) :
    (m.fetch M).readable = false ∨ ∃ z name c, M = .int z ∧ StaleChild m z name c := by
  cases hr : (m.fetch M).readable with
  | false => exact .inl rfl
  | true =>
    obtain ⟨z, rfl⟩ := exists_int (ObjDump.exists_of_readable hr)
    have hno : ¬ ∀ e ∈ (m.get z).zap.entries, e.1 ∉ specialNames →
        (m.get e.2).hasType "DSL directory" = true := fun hall =>
      h ⟨hr, fun e he hn => (hasType_exists (by decide)).mp (hall e he hn)⟩
    push Not at hno
    obtain ⟨⟨name, c⟩, he, hn, hc⟩ := hno
    exact .inr ⟨z, name, c, rfl, hr, he, hn, by simpa using hc⟩

theorem Residue.reported (h : Residue m v) : Reported m .critical v := by
  cases h with
  | mos h1 => exact .mos h1
  | noRoot h1 hr => exact .noRoot h1 hr
  | directory hD hno => exact .dir hD (.directory hno)
  | zap hD hf hZ hr =>
    have hdir := hD.isDirectory
    refine .dir (reached_iff_walked.mp hD).1 ?_
    have hclean : ¬ (m.fetch v).readable = true := by simp [hr]
    rcases List.mem_pair.mp hf with rfl | rfl
    · exact .childMap hdir hZ fun hc => hclean hc.1
    · exact .clones hdir hZ fun hc => hclean hc.1
  | missingHead hD hH hgone =>
    exact .dir (reached_iff_walked.mp hD).1 (.head hD.isDirectory hH (.missing hgone))
  | nextClones hD hH hds hZ hr =>
    have hclean : ¬ (m.fetch v).readable = true := by simp [hr]
    exact .dir (reached_iff_walked.mp hD).1 (.head hD.isDirectory (leads_int.mpr hH)
      (.nextClones hds hZ fun hc => hclean hc.1))
  | prevSnap hD hH hds hP hgone =>
    exact .dir (reached_iff_walked.mp hD).1 (.head hD.isDirectory (leads_int.mpr hH)
      (.prevSnap hds hP hgone))
  | nullDirectory hD hO =>
    exact .dir (reached_iff_walked.mp hD).1 (.head hD.isDirectory (leads_int.mpr hO.1)
      (.unreadable hO.2))

/-- The plan has an operation that concerns the object. -/
def Answered (m : Mos) (v : FieldVal) : Prop :=
  ∃ x, v = .int x ∧ ∃ p ∈ plan m, ∃ role, Concerns m x p.op role

theorem Planned.answers {x : ℕ} {op : Op} {role : Option FreeRole} (hp : Planned m op role)
    (hc : Concerns m x op role) : Answered m (.int x) := by
  obtain ⟨p, hmem, rfl⟩ := mem_plan.mpr ⟨role, hp⟩
  exact ⟨x, rfl, p, hmem, role, hc⟩

theorem ErrlogReported.answered {name : String} {h : ℕ} (he : ErrlogEntry m name h)
    (hrep : ErrlogReported m h .critical v) : Answered m v := by
  cases hrep with
  | gone hgone =>
    have ht : (m.get h).hasType "error log" = false :=
      ObjDump.hasType_of_not_exists (by decide) hgone
    exact Planned.answers (.errlog (.reset he (.inl ht))) (.target rfl)
  | recycled _ ht => exact Planned.answers (.errlog (.reset he (.inl ht))) (.reference rfl)
  | stale hs => exact Planned.answers (.errlog (.head he hs)) (.target rfl)

theorem answered_orphan {D H : ℕ} (hD : Reached m D) (hO : Orphan m D H) (h0 : D ≠ 0) :
    Answered m (.int H) := by
  have hdir := isDirectory_iff.mp hD.isDirectory
  have hx : SubtreeRef m D H .orphanDir D := ⟨rfl, h0⟩
  have hty : (m.get D).typeOr ≠ "" := fun hnil => by
    have ht := hdir.2
    rw [ObjDump.hasType, hnil] at ht
    exact absurd ht (by decide)
  refine Planned.answers (.dir hD (.orphanFree hO hx hdir.1 hty)) ?_
  exact concerns_orphan hdir.1 hO (.inr (.inr ⟨_, _, hx, hdir.1, hty, rfl, rfl⟩))

theorem DatasetReported.answered {D : ℕ} {H : FieldVal} (hD : Reached m D)
    (hH : Leads (m.get D) "head_dataset_obj" H) (hrep : DatasetReported m D H .critical v) :
    Residue m v ∨ Answered m v := by
  have hint : isDataset (m.fetch H) = true → ∃ n, H = .int n := fun hds =>
    exists_int (ObjDump.exists_of_readable (isDataset_iff.mp hds).1)
  cases hrep with
  | missing hgone => exact .inl (.missingHead hD hH hgone)
  | unreadable hu =>
    obtain ⟨H, rfl⟩ := exists_int (ObjDump.exists_of_unreadable hu)
    have hO : Orphan m D H := ⟨leads_int.mp hH, hu⟩
    by_cases h0 : D = 0
    · subst h0
      exact .inl (.nullDirectory hD hO)
    · exact .inr (answered_orphan hD hO h0)
  | nextClones hds hZ hc =>
    obtain ⟨H, rfl⟩ := hint hds
    rcases not_cleanClones hc with hr | ⟨z, k, c, rfl, hd⟩
    · exact .inl (.nextClones hD (leads_int.mp hH) hds hZ hr)
    · exact .inr (Planned.answers (.dir hD (.nextClone (leads_int.mp hH) hds (leads_int.mp hZ) hd))
        (.target rfl))
  | prevSnap hds hP hgone =>
    obtain ⟨H, rfl⟩ := hint hds
    exact .inl (.prevSnap hD (leads_int.mp hH) hds hP hgone)

theorem DirReported.answered {D : ℕ} (hD : Walked m D) (hrep : DirReported m D .critical v) :
    Residue m v ∨ Answered m v := by
  cases hrep with
  | directory hno => exact .inl (.directory hD hno)
  | head hdir hH hrep => exact hrep.answered (reached_iff_walked.mpr ⟨hD, hdir⟩) hH
  | childMap hdir hM hc =>
    have hD := reached_iff_walked.mpr ⟨hD, hdir⟩
    rcases not_cleanChildMap hc with hr | ⟨z, name, c, rfl, hs⟩
    · exact .inl (.zap hD (by simp) hM hr)
    · exact .inr (Planned.answers (.dir hD (.staleChild (leads_int.mp hM) hs)) (.target rfl))
  | clones hdir hZ hc =>
    have hD := reached_iff_walked.mpr ⟨hD, hdir⟩
    rcases not_cleanClones hc with hr | ⟨z, k, c, rfl, hd⟩
    · exact .inl (.zap hD (by simp) hZ hr)
    · exact .inr (Planned.answers (.dir hD (.clone (leads_int.mp hZ) hd)) (.target rfl))

theorem Reported.answered (hrep : Reported m .critical v) : Residue m v ∨ Answered m v := by
  cases hrep with
  | mos h1 => exact .inl (.mos h1)
  | errlog he hrep => exact .inr (hrep.answered he)
  | staleScan hs => exact .inr (Planned.answers (.scan hs) (.target rfl))
  | noRoot h1 hr => exact .inl (.noRoot h1 hr)
  | dir hD hrep => exact hrep.answered hD

/-- **No idle alarm.** A critical finding is of one of the kinds that no plan deals with, or
    the plan has an operation that concerns the object of the finding. -/
theorem alarm_answered {f : Finding} (hf : f ∈ findings m) (hc : f.severity = .critical) :
    Residue m f.obj ∨ Answered m f.obj := by
  have hrep : Reports (run m) f.severity f.obj := reports_iff_findingsOf.mpr ⟨f, hf, rfl, rfl⟩
  rw [hc] at hrep
  exact (reports_run.mp hrep).answered

/-- What is critical when nothing is planned. -/
theorem residue_iff (h : plan m = []) :
    (∃ f ∈ findings m, f.severity = .critical ∧ f.obj = v) ↔ Residue m v := by
  have hreports := reports_iff_findingsOf.symm.trans (@reports_run m .critical v)
  refine hreports.trans ⟨fun hrep => hrep.answered.resolve_right ?_, Residue.reported⟩
  rintro ⟨x, -, p, hp, -⟩
  rw [h] at hp
  cases hp

end

/-- A pool with an entry for a filesystem that is gone. The last snapshot of the root is gone
    as well. -/
def lostSnapshot : Mos := .ofList
  [(1, .ofLines "object directory" [("root_dataset", 2)] false),
    (2, .ofLines "DSL directory" [("head_dataset_obj", 4), ("child_dir_zapobj", 3)] false),
    (3, .ofLines "DSL directory child map" [("gone", 9)] false),
    (4, .ofLines "DSL dataset" [("prev_snap_obj", 8)] false)]

/-- The entry is removed. The head of the root is reported, and nothing is done about it. -/
theorem alarm_answered_lostSnapshot :
    Residue lostSnapshot (.int 4) ∨ Answered lostSnapshot (.int 4) := by
  have hf : (⟨.critical, .int 4, "<root>@head: prev_snap_obj = 8 is dangling"⟩ : Finding) ∈
      findings lostSnapshot := by decide +kernel
  exact alarm_answered hf rfl

end Zhaxx.Scan
