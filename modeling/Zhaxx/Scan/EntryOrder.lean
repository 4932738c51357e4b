import Zhaxx.Scan.Shuffled
import Zhaxx.Scan.Stages

/-!
# The order of the entries of a ZAP

The walk goes through a child map and a clones ZAP in sorted order, `check_errlog` and
`plan_orphan_removal` through theirs in the order of the dump (`scan/zhaxx-scan`
lines 243, 350, 422, 456, 470 and 488). Two scans of objects that say the same make the
same checks one after another; each check appends the same events, and those two append
them in another order.

Results:
* `stages_eq`: the scans make the same checks in the same order.
* `events_perm`: each check appends the same events.
* `scan_shuffled`: the report does not depend on the order of the lines of the dumps.
-/

namespace Zhaxx.Scan

open Traverse (Step State)

/-! ## What is read from an object -/

namespace ObjDump.Same

variable {d d' : ObjDump} (h : d.Same d')

include h

theorem readable : d.readable = d'.readable := by
  unfold ObjDump.readable
  rw [h.exists_, h.unreadable]

theorem typeOr : d.typeOr = d'.typeOr := by
  unfold ObjDump.typeOr
  rw [h.type]

theorem hasType (pat : String) : d.hasType pat = d'.hasType pat := by
  unfold ObjDump.hasType
  rw [h.typeOr]

theorem typeStr : d.typeStr = d'.typeStr := by
  unfold ObjDump.typeStr
  rw [h.type]

theorem ref (f : String) : d.ref f = d'.ref f := by
  unfold ObjDump.ref Dict.getD
  rw [h.get?_fields]

theorem numChildren : d.numChildren = d'.numChildren := by
  unfold ObjDump.numChildren
  rw [h.get?_fields]

theorem getD_zap (k : String) (v : ℕ) : d.zap.getD k v = d'.zap.getD k v := by
  unfold Dict.getD
  rw [h.get?_zap]

theorem zap_perm : d.zap.entries.Perm d'.zap.entries := Dict.entries_perm h.get?_zap

theorem sortedItems : PyStr.sortedItems d.zap = PyStr.sortedItems d'.zap :=
  PyStr.sortedItems_eq_of_perm h.zap_perm

theorem isDataset : isDataset d = Scan.isDataset d' := by
  unfold Scan.isDataset
  rw [h.readable, h.hasType]

theorem isDirectory : isDirectory d = Scan.isDirectory d' := by
  unfold Scan.isDirectory
  rw [h.readable, h.hasType]

theorem cloneWhy : cloneWhy d = Scan.cloneWhy d' := by
  unfold Scan.cloneWhy
  rw [h.exists_, h.unreadable, h.typeStr]

theorem scanEntry : scanEntry d = Scan.scanEntry d' := by
  unfold Scan.scanEntry
  rw [h.get?_zapMulti, h.get?_zap]

theorem entriesOf_perm (v : FieldVal) : (entriesOf d v).Perm (entriesOf d' v) :=
  h.zap_perm.filter _

end ObjDump.Same

/-! ## The checks -/

/-- A check that is made behind a test. -/
theorem skip_perm {c : Prop} [Decidable c] {es es' : List Event} (h : es.Perm es') :
    (if c then [] else es).Perm (if c then [] else es') := by
  split_ifs
  · exact .refl _
  · exact h

/-- The dumps of every object say the same. -/
def Mos.Same (m m' : Mos) : Prop := ∀ n, (m.get n).Same (m'.get n)

namespace Mos.Same

variable {m m' : Mos} (h : m.Same m')

include h

theorem fetch (v : FieldVal) : (m.fetch v).Same (m'.fetch v) := by
  cases v with
  | int n => exact h n
  | str s => exact .refl _

theorem getInt (z : ℤ) : (m.getInt z).Same (m'.getInt z) := by
  unfold Mos.getInt
  split_ifs
  · exact h _
  · exact .refl _

/-! ### Error log and cursor -/

theorem staleEntries_perm {d d' : ObjDump} (hd : d.Same d') :
    (staleEntries m d).Perm (staleEntries m' d') := by
  have hentry : ∀ key perObj, staleEntry m key perObj = staleEntry m' key perObj := by
    intro key perObj
    unfold staleEntry
    cases PyStr.intHex key with
    | none => rfl
    | some z => simp only [(h.getInt z).readable, (h.getInt z).exists_]
  unfold staleEntries
  simp only [hentry]
  exact hd.zap_perm.filterMap _

theorem freeObjsetErrlog : freeObjsetErrlog m = Scan.freeObjsetErrlog m' := by
  funext s
  unfold Scan.freeObjsetErrlog
  simp only [(h s.perObj).exists_, (h s.perObj).hasType, (h s.perObj).typeStr]

theorem checkErrlogHead_perm (name : String) (headObj : ℕ) :
    (checkErrlogHead m name headObj).Perm (checkErrlogHead m' name headObj) := by
  have hstale := h.staleEntries_perm (h headObj)
  unfold checkErrlogHead
  simp only [(h headObj).exists_, (h headObj).hasType, (h headObj).typeStr, hstale.isEmpty_eq,
    h.freeObjsetErrlog]
  split_ifs
  · exact .refl _
  · exact .refl _
  · exact .refl _
  · exact .refl _
  · exact ((hstale.map _).append_right _).append (hstale.flatMap_right _)

theorem checkScan : checkScan m (m.get mosDirObj) = Scan.checkScan m' (m'.get mosDirObj) := by
  unfold Scan.checkScan
  simp only [(h mosDirObj).scanEntry, fun n => (h n).readable]

/-! ### Clones -/

theorem checkClonesZap (v : FieldVal) (path : String) :
    checkClonesZap m v path = Scan.checkClonesZap m' v path := by
  have hdangling : danglingClones m (m.fetch v) = danglingClones m' (m'.fetch v) := by
    unfold danglingClones
    simp only [(h.fetch v).sortedItems, fun n => (h n).isDataset]
  unfold Scan.checkClonesZap
  simp only [(h.fetch v).readable, hdangling, fun n => (h n).cloneWhy]

theorem clonesEvents (D : ℕ) (path : String) :
    clonesEvents m D path = Scan.clonesEvents m' D path := by
  unfold Scan.clonesEvents
  simp only [(h D).ref, h.checkClonesZap]

/-! ### Orphans -/

theorem orphanNamespace_perm (D : ℕ) :
    (orphanNamespace m D (m.get D)).Perm (orphanNamespace m' D (m'.get D)) := by
  unfold orphanNamespace
  simp only [(h D).ref, fun v => (h.fetch v).readable, fun v => (h.fetch v).ref]
  exact skip_perm (skip_perm (((h.fetch _).entriesOf_perm _).map _))

theorem orphanNextClones_perm (dsObj origin : FieldVal) :
    (orphanNextClones m dsObj origin (m.fetch origin)).Perm
      (orphanNextClones m' dsObj origin (m'.fetch origin)) := by
  unfold orphanNextClones
  simp only [(h.fetch origin).ref, (h.fetch origin).numChildren]
  exact skip_perm (((h.fetch _).entriesOf_perm _).flatMap_right _)

theorem orphanDirClones_perm (dsObj origin : FieldVal) :
    (orphanDirClones m dsObj (m.fetch origin)).Perm
      (orphanDirClones m' dsObj (m'.fetch origin)) := by
  unfold orphanDirClones
  simp only [fun v => (h.fetch v).ref, fun v => (h.fetch v).readable]
  exact skip_perm (skip_perm (((h.fetch _).entriesOf_perm _).map _))

theorem orphanCloneRefs_perm (dsObj : FieldVal) (D : ℕ) :
    (orphanCloneRefs m dsObj (m.get D)).Perm (orphanCloneRefs m' dsObj (m'.get D)) := by
  unfold orphanCloneRefs
  simp only [(h D).ref, fun v => (h.fetch v).readable]
  exact skip_perm (skip_perm ((h.orphanNextClones_perm _ _).append (h.orphanDirClones_perm _ _)))

theorem freeStructure (path : String) (role : FreeRole) (v : FieldVal) :
    freeStructure m path role v = Scan.freeStructure m' path role v := by
  unfold Scan.freeStructure
  simp only [(h.fetch v).exists_, (h.fetch v).unreadable, (h.fetch v).typeOr,
    (h.fetch v).typeStr]

theorem orphanSubtree (dsObj : FieldVal) (D : ℕ) :
    orphanSubtree m dsObj D (m.get D) = Scan.orphanSubtree m' dsObj D (m'.get D) := by
  unfold Scan.orphanSubtree
  simp only [(h D).ref, (h.fetch dsObj).ref]

theorem planOrphanRemoval_perm (dsObj : FieldVal) (dirObj : Option ℕ) (path : String) :
    (planOrphanRemoval m dsObj dirObj path).Perm (planOrphanRemoval m' dsObj dirObj path) := by
  cases dirObj with
  | none => exact .refl _
  | some D =>
    unfold planOrphanRemoval
    simp only [(h D).readable, h.orphanSubtree, h.freeStructure]
    exact skip_perm
      (((h.orphanNamespace_perm D).append (h.orphanCloneRefs_perm dsObj D)).append_right _)

/-! ### Datasets -/

theorem checkDataset_perm (dsObj : FieldVal) (path : String) (dirObj : Option ℕ) :
    (checkDataset m dsObj path dirObj).Perm (checkDataset m' dsObj path dirObj) := by
  have hnext : checkNextClones m dsObj (m.fetch dsObj) path =
      checkNextClones m' dsObj (m'.fetch dsObj) path := by
    unfold checkNextClones
    simp only [(h.fetch dsObj).ref, (h.fetch dsObj).numChildren, h.checkClonesZap]
  have hrefs : checkDatasetRefs m dsObj (m.fetch dsObj) path =
      checkDatasetRefs m' dsObj (m'.fetch dsObj) path := by
    unfold checkDatasetRefs
    simp only [(h.fetch dsObj).ref, fun v => (h.fetch v).exists_]
  unfold checkDataset
  simp only [(h.fetch dsObj).exists_, (h.fetch dsObj).unreadable, (h.fetch dsObj).hasType,
    (h.fetch dsObj).typeStr, hnext, hrefs]
  split_ifs
  · exact .refl _
  · exact (h.planOrphanRemoval_perm dsObj dirObj path).cons _
  · exact .refl _
  · exact .refl _

theorem headEvents_perm (D : ℕ) (path : String) :
    (headEvents m D path).Perm (headEvents m' D path) := by
  unfold headEvents
  simp only [(h D).ref]
  split_ifs
  · exact h.checkDataset_perm _ _ _
  · exact .refl _

/-! ## The scans -/

/-- **A check.** It appends the same events. -/
theorem events_perm (s : Stage) : (s.events m).Perm (s.events m') := by
  cases s with
  | noMos => exact .refl _
  | errlog name =>
    simp only [Stage.events, (h mosDirObj).getD_zap]
    exact h.checkErrlogHead_perm _ _
  | cursor =>
    simp only [Stage.events, h.checkScan]
    exact .refl _
  | noRoot => exact .refl _
  | head D path =>
    simp only [Stage.events, (h D).readable, (h D).hasType, dirRecycled, (h D).typeStr]
    split_ifs
    · exact .refl _
    · exact .refl _
    · exact h.headEvents_perm D path
  | childmap D path =>
    simp only [Stage.events, (h D).ref]
    exact .refl _
  | entry D path name c =>
    simp only [Stage.events, (h D).ref, (h c).exists_, recycledEntry, (h c).typeStr]
    exact .refl _
  | clones D path =>
    simp only [Stage.events, h.clonesEvents]
    exact .refl _

theorem dirStages (n : ℕ × String) : dirStages m n = Scan.dirStages m' n := by
  unfold Scan.dirStages childrenStages entryStages
  simp only [fun n => (h n).isDirectory, fun n => (h n).ref, fun v => (h.fetch v).readable,
    fun v => (h.fetch v).sortedItems, fun n => (h n).hasType]

/-- **The checks.** They are made in the same order. -/
theorem stages_eq : stages m = stages m' := by
  have hroot : rootDataset m = rootDataset m' := (h mosDirObj).getD_zap _ _
  have hdir : Scan.dirStages m = Scan.dirStages m' := funext h.dirStages
  unfold stages
  rw [(h mosDirObj).readable, hroot, hdir]
  -- the fuel differs, and for both suffices
  obtain ⟨t, ht⟩ := Option.isSome_iff_exists.mp (walkStages_isSome (m := m) le_rfl)
  obtain ⟨t', ht'⟩ := Option.isSome_iff_exists.mp (walkStages_isSome (m := m') le_rfl)
  rw [hroot, hdir] at ht
  have hmax := Traverse.run_mono _ _ (le_max_left _ (m'.objs.entries.length + 1)) ht
  rw [Traverse.run_mono _ _ (le_max_right (m.objs.entries.length + 1) _) ht'] at hmax
  rw [ht, ht', Option.some.inj hmax]

/-- Two scans append the same events. -/
theorem run_perm : (run m).Perm (run m') := by
  rw [run_eq_stages, run_eq_stages, h.stages_eq]
  exact List.Perm.flatMap_left _ fun s _ => h.events_perm s

end Mos.Same

/-- The same events lead to the same findings. -/
theorem findingsOf_perm {es es' : List Event} (h : es.Perm es') :
    (findingsOf es).Perm (findingsOf es') :=
  h.filterMap _

/-- The same events lead to the same plan lines. -/
theorem mem_dedupeOps_perm {es es' : List Event} (h : es.Perm es') (line : String) :
    line ∈ (dedupeOps (opsOf es)).map PlanOp.line ↔
      line ∈ (dedupeOps (opsOf es')).map PlanOp.line := by
  have hops : (opsOf es).Perm (opsOf es') := h.filterMap _
  have hline : ∀ ops : List PlanOp, line ∈ (dedupeOps ops).map PlanOp.line ↔
      ∃ o, (∃ p ∈ ops, p.op = o) ∧ o.line = line := by
    intro ops
    rw [List.mem_map]
    constructor
    · rintro ⟨p, hp, hl⟩
      exact ⟨p.op, mem_dedupeOps.mp ⟨p, hp, rfl⟩, hl⟩
    · rintro ⟨o, ho, hl⟩
      obtain ⟨p, hp, rfl⟩ := mem_dedupeOps.mpr ho
      exact ⟨p, hp, hl⟩
  rw [hline, hline]
  simp only [hops.mem_iff]

/-- **The report does not depend on the order of the entries.** Two scans of dumps that
    differ in the order of their `key = val` lines plan the same lines and find the same. -/
theorem scan_shuffled {c c' : DumpDir} (h : c.Shuffled c') :
    (∀ line, line ∈ (plan c.source).map PlanOp.line ↔ line ∈ (plan c'.source).map PlanOp.line) ∧
      (findings c.source).Perm (findings c'.source) := by
  have hsame : c.source.Same c'.source := h.same_source
  exact ⟨fun line => mem_dedupeOps_perm hsame.run_perm line, findingsOf_perm hsame.run_perm⟩

/-- The dump of an error-log head with the entries `kv`. -/
def errlogDump (kv : List (String × String)) : List Char := zdbText "50" "persistent error log" kv

/-- The capture of a pool with this error-log head. -/
def errlogCapture (kv : List (String × String)) : DumpDir where
  files := .ofList
    [(1, zdbText "1" "object directory" [("errlog_last", "50"), ("root_dataset", "32")]),
      (32, zdbText "32" "DSL directory" []), (50, errlogDump kv)]

/-- The capture when the lines of the head are shuffled. -/
theorem errlogCapture_shuffled {kv kv' : List (String × String)}
    (h : ShuffledLines 50 (PyStr.splitlines (errlogDump kv))
      (PyStr.splitlines (errlogDump kv'))) :
    (errlogCapture kv).Shuffled (errlogCapture kv') := by
  intro obj
  have hget : ∀ kv, (errlogCapture kv).files.get? obj =
      if obj = 50 then some (errlogDump kv) else (errlogCapture []).files.get? obj := by
    intro kv
    simp only [errlogCapture, Dict.ofList, List.foldl_cons, List.foldl_nil, Dict.get?_set]
    split_ifs <;> rfl
  rw [hget kv, hget kv']
  split_ifs with hobj
  · exact .some (hobj ▸ h)
  · generalize (errlogCapture []).files.get? obj = file
    cases file with
    | none => exact .none
    | some t => exact .some (.inl rfl)

/-- The stale entries of a head are found in the order in which the dump lists them. -/
theorem scan_shuffled_errlog :
    findings (errlogCapture [("2a", "60"), ("2b", "61")]).source ≠
        findings (errlogCapture [("2b", "61"), ("2a", "60")]).source ∧
      (findings (errlogCapture [("2a", "60"), ("2b", "61")]).source).Perm
        (findings (errlogCapture [("2b", "61"), ("2a", "60")]).source) := by
  have hrow : HeaderOf 50 (errlogDump []).dropLast := by
    have hgroup : (matchObjHeader (errlogDump []).dropLast).map Prod.fst = some "50".toList := by
      decide +kernel
    obtain ⟨g, hg, hobj⟩ := Option.map_eq_some_iff.mp hgroup
    exact ⟨g, hg, by rw [hobj]; decide +kernel⟩
  have hlines : ShuffledLines 50
      (PyStr.splitlines (errlogDump [("2a", "60"), ("2b", "61")]))
      (PyStr.splitlines (errlogDump [("2b", "61"), ("2a", "60")])) := by
    refine .inr ⟨[], (errlogDump []).dropLast, ["\t\t2a = 60 ".toList, "\t\t2b = 61 ".toList],
      ["\t\t2b = 61 ".toList, "\t\t2a = 60 ".toList], ?_, ?_, hrow, .swap _ _ _, ?_, ?_⟩
    · decide +kernel
    · decide +kernel
    · decide +kernel
    · decide +kernel
  exact ⟨by decide +kernel, (scan_shuffled (errlogCapture_shuffled hlines)).2⟩

end Zhaxx.Scan
