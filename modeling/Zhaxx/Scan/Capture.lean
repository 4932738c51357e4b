import Zhaxx.Scan.Parse
import Zhaxx.Scan.Removals

/-!
# Scans of a dump directory

`DumpDirSource` reads the object `N` from the file `obj_N.txt` and takes an
object without file for a missing one. The comment there wants such an object to
be flagged, `so an incomplete capture is not mistaken for a free slot`, but the
flag `d.raw` is never read.

Results:
* `keepsRemovals_iff`: the plan computed after some dumps are lost removes and
  clears only what the full plan does, exactly when every reference to a lost
  object that the scan examines is already due in the full capture.
* `lostDump_removes`: the loss of one dump makes the scan drop the namespace
  entry of a healthy directory.
-/

namespace Zhaxx.Scan

/-- A directory of files `obj_N.txt`: the texts by object number. -/
structure DumpDir where
  files : Dict ℕ (List Char)

namespace DumpDir

/-- What `DumpDirSource(dir).get` returns for every object (lines 169–182). -/
def source (c : DumpDir) : Mos where
  objs :=
    { entries := c.files.entries.map fun e => (e.1, parseObjDump e.1 e.2)
      nodup := by
        rw [List.map_map]
        exact c.files.nodup }

/-- The directory without the files of `gone`; `obj_1.txt` stays. -/
def delete (c : DumpDir) (gone : List ℕ) : DumpDir where
  files :=
    { entries := c.files.entries.filter fun e => e.1 = mosDirObj ∨ e.1 ∉ gone
      nodup := c.files.nodup.sublist (List.filter_sublist.map Prod.fst) }

theorem get_source (c : DumpDir) (n : ℕ) :
    c.source.get n = parseObjDump n ((c.files.get? n).getD []) := by
  have hget : c.source.objs.get? n = (c.files.get? n).map (parseObjDump n) := by
    apply Option.ext
    intro d
    rw [← Dict.mem_entries_iff]
    simp only [source, List.mem_map, Option.map_eq_some_iff, Prod.mk.injEq]
    constructor
    · rintro ⟨⟨k, t⟩, hm, rfl, rfl⟩
      exact ⟨t, Dict.mem_entries_iff.mp hm, rfl⟩
    · rintro ⟨t, ht, rfl⟩
      exact ⟨(n, t), Dict.mem_entries_iff.mpr ht, rfl, rfl⟩
  unfold Mos.get Dict.getD
  rw [hget]
  cases c.files.get? n <;> simp

theorem get?_delete (c : DumpDir) (gone : List ℕ) (n : ℕ) :
    (c.delete gone).files.get? n =
      if n = mosDirObj ∨ n ∉ gone then c.files.get? n else none := by
  apply Option.ext
  intro t
  rw [← Dict.mem_entries_iff]
  simp only [delete, List.mem_filter, Dict.mem_entries_iff, decide_eq_true_eq]
  split_ifs with h <;> simp [h]

end DumpDir

/-! ## Losing objects -/

/-- `m'` is `m` with some objects missing, the MOS directory not among them. -/
structure Sub (m m' : Mos) : Prop where
  get : ∀ n, m'.get n = m.get n ∨ m'.get n = .missing
  mos : m'.get mosDirObj = m.get mosDirObj

/-- The object `n` is observed in `m` and lost in `m'`. -/
def Lost (m m' : Mos) (n : ℕ) : Prop := (m.get n).exists_ = true ∧ (m'.get n).exists_ = false

theorem DumpDir.sub_delete (c : DumpDir) (gone : List ℕ) :
    Sub c.source (c.delete gone).source where
  get n := by
    rw [get_source, get_source, get?_delete]
    split_ifs
    · exact .inl rfl
    · exact .inr (parseObjDump_nil n)
  mos := by rw [get_source, get_source, get?_delete, if_pos (.inl rfl)]

namespace Sub

variable {m m' : Mos} (hs : Sub m m')

include hs

theorem get_eq {n : ℕ} (h : (m'.get n).exists_ = true) : m'.get n = m.get n := by
  rcases hs.get n with h' | h'
  · exact h'
  · rw [h'] at h; simp at h

theorem get_eq_of_not_lost {n : ℕ} (h : ¬ Lost m m' n) : m'.get n = m.get n := by
  by_cases he : (m'.get n).exists_ = true
  · exact hs.get_eq he
  · have he' : (m.get n).exists_ = false := by
      by_contra hne
      exact h ⟨by simpa using hne, by simpa using he⟩
    have he'' : (m'.get n).exists_ = false := by simpa using he
    rw [ObjDump.eq_missing_iff.mpr he', ObjDump.eq_missing_iff.mpr he'']

theorem readable {n : ℕ} (h : (m'.get n).readable = true) : (m.get n).readable = true := by
  rwa [← hs.get_eq (ObjDump.exists_of_readable h)]

theorem ref {n r : ℕ} {f : String} (h : Ref m' n f r) : Ref m n f r := by
  unfold Ref
  rw [← hs.get_eq h.exists_]
  exact h

theorem entry {z v : ℕ} {k : String} (h : Entry m' z k v) : Entry m z k v := by
  unfold Entry
  rw [← hs.get_eq (ObjDump.exists_of_mem_zap h)]
  exact h

theorem isDirectory {n : ℕ} (h : isDirectory (m'.get n) = true) :
    Scan.isDirectory (m.get n) = true := by
  rwa [← hs.get_eq (ObjDump.exists_of_readable (isDirectory_iff.mp h).1)]

theorem isDataset {n : ℕ} (h : isDataset (m'.get n) = true) :
    Scan.isDataset (m.get n) = true := by
  rwa [← hs.get_eq (ObjDump.exists_of_readable (isDataset_iff.mp h).1)]

theorem orphan {D H : ℕ} (h : Orphan m' D H) : Orphan m D H :=
  ⟨hs.ref h.1, by rw [← hs.get_eq (ObjDump.exists_of_unreadable h.2)]; exact h.2⟩

theorem reached {D : ℕ} (h : Reached m' D) : Reached m D := by
  have hroot : rootDataset m' = rootDataset m := by unfold rootDataset; rw [hs.mos]
  induction h with
  | root h1 h2 h3 =>
    rw [hroot] at h2 h3 ⊢
    exact .root (hs.readable h1) h2 (hs.isDirectory h3)
  | child _ hM hr he hn hc ih =>
    exact .child ih (hs.ref hM) (hs.readable hr) (hs.entry he) hn (hs.isDirectory hc)

theorem errlogEntry_iff {name : String} {h : ℕ} : ErrlogEntry m' name h ↔ ErrlogEntry m name h := by
  unfold ErrlogEntry
  rw [hs.mos]

end Sub

/-! ## The operations that depend on a lost object -/

/-- `Z` is a clones ZAP the walk of the directory `D` checks. -/
def ClonesOf (m : Mos) (D Z : ℕ) : Prop :=
  Ref m D "clones" Z ∨ ∃ H, Ref m D "head_dataset_obj" H ∧ isDataset (m.get H) = true ∧
    Ref m H "next_clones_obj" Z

/-- Every reference that the scan of `m'` examines and whose target is lost is
    due to be removed or cleared in `m` as well. -/
structure Harmless (m m' : Mos) : Prop where
  errlogHead : ∀ name h, ErrlogEntry m name h → Lost m m' h → Resets m h
  errlogObjset : ∀ name h key per (o : ℕ), ErrlogEntry m name h → ¬ Lost m m' h →
    (m.get h).hasType "error log" = true → Entry m h key per → PyStr.intHex key = some (o : ℤ) →
    Lost m m' o → Resets m h
  child : ∀ D M name c, Reached m' D → Ref m' D "child_dir_zapobj" M →
    (m'.get M).readable = true → Entry m' M name c → name ∉ specialNames → Lost m m' c →
    Due m M name c
  clone : ∀ D Z k v, Reached m' D → ClonesOf m' D Z → (m'.get Z).readable = true →
    Entry m' Z k v → Lost m m' v → Due m Z k v

/-- A `zap_remove` or `zap_set`. -/
def Op.dropsReference : Op → Bool
  | .zapSet .. => true
  | .zapRemove .. => true
  | _ => false

/-- Every `zap_remove` and `zap_set` of the plan for `m'` is in the plan for `m`. -/
def KeepsRemovals (m m' : Mos) : Prop :=
  ∀ p ∈ plan m', p.op.dropsReference = true → ∃ q ∈ plan m, q.op = p.op

section

variable {m m' : Mos} (hs : Sub m m')

include hs

theorem Sub.not_readable {n : ℕ} (h : (m'.get n).readable = false) :
    (m.get n).readable = false ∨ Lost m m' n := by
  by_cases hl : Lost m m' n
  · exact .inr hl
  · rw [hs.get_eq_of_not_lost hl] at h; exact .inl h

/-- An objset that is stale after the loss was stale before, or was lost. -/
theorem Sub.staleEntry {key : String} {per : ℕ} (h : staleEntry m' key per ≠ none) :
    staleEntry m key per ≠ none ∨
      ∃ o : ℕ, PyStr.intHex key = some (o : ℤ) ∧ Lost m m' o := by
  obtain ⟨z, hk, hr⟩ := staleEntry_ne_none.mp h
  by_cases hz : 0 ≤ z
  · rw [Mos.getInt, if_pos hz] at hr
    rcases hs.not_readable hr with hr | hl
    · exact .inl (staleEntry_ne_none.mpr ⟨z, hk, by rw [Mos.getInt, if_pos hz]; exact hr⟩)
    · exact .inr ⟨z.toNat, by rw [hk, Int.toNat_of_nonneg hz], hl⟩
  · exact .inl (staleEntry_ne_none.mpr ⟨z, hk, by rw [Mos.getInt, if_neg hz]; rfl⟩)

/-- The error-log entries cleared after a harmless loss. -/
theorem Harmless.resets (hh : Harmless m m') {name : String} {h : ℕ} (he : ErrlogEntry m name h)
    (hr : Resets m' h) : Resets m h := by
  by_cases hl : Lost m m' h
  · exact hh.errlogHead name h he hl
  · have hget := hs.get_eq_of_not_lost hl
    rcases hr with ht | ⟨ht, hst⟩
    · exact .inl (hget ▸ ht)
    · rw [hget] at ht hst
      obtain ⟨⟨key, per⟩, hm, hse⟩ := staleEntries_ne_nil.mp hst
      rcases hs.staleEntry hse with hse | ⟨o, ho, hlo⟩
      · exact .inr ⟨ht, staleEntries_ne_nil.mpr ⟨_, hm, hse⟩⟩
      · exact hh.errlogObjset name h key per o he hl ht hm ho hlo

/-- The entries removed after a harmless loss. -/
theorem Harmless.due (hh : Harmless m m') {Z v : ℕ} {k : String} (h : Due m' Z k v) :
    Due m Z k v := by
  obtain ⟨D, hD, hp⟩ := h
  have hD' := hs.reached hD
  have hclone : ClonesOf m' D Z → DanglingClone m' Z k v → Due m Z k v := by
    rintro hZ ⟨hr, he, hd⟩
    by_cases hl : Lost m m' v
    · exact hh.clone D Z k v hD hZ hr he hl
    · rw [hs.get_eq_of_not_lost hl] at hd
      have hdz : DanglingClone m Z k v := ⟨hs.readable hr, hs.entry he, hd⟩
      rcases hZ with hZ | ⟨H, hH, hds, hZ⟩
      · exact ⟨D, hD', .clone (hs.ref hZ) hdz⟩
      · exact ⟨D, hD', .nextClone (hs.ref hH) (hs.isDataset hds) (hs.ref hZ) hdz⟩
  cases hp with
  | staleChild hM hst =>
    obtain ⟨hr, he, hn, ht⟩ := hst
    by_cases hl : Lost m m' v
    · exact hh.child D Z k v hD hM hr he hn hl
    · rw [hs.get_eq_of_not_lost hl] at ht
      exact ⟨D, hD', .staleChild (hs.ref hM) ⟨hs.readable hr, hs.entry he, hn, ht⟩⟩
  | clone hZ hd => exact hclone (.inl hZ) hd
  | nextClone hH hds hZ hd => exact hclone (.inr ⟨_, hH, hds, hZ⟩) hd
  | orphanName hO hP hr hM he =>
    exact ⟨_, hD', .orphanName (hs.orphan hO) (hs.ref hP) (hs.readable hr) (hs.ref hM)
      (hs.entry he)⟩
  | orphanNextClone hO hOr hr hZ he =>
    exact ⟨_, hD', .orphanNextClone (hs.orphan hO) (hs.ref hOr) (hs.readable hr) (hs.ref hZ)
      (hs.entry he)⟩
  | orphanClone hO hOr hr hOD hrOD hZ he =>
    exact ⟨_, hD', .orphanClone (hs.orphan hO) (hs.ref hOr) (hs.readable hr) (hs.ref hOD)
      (hs.readable hrOD) (hs.ref hZ) (hs.entry he)⟩

theorem Harmless.keepsRemovals (hh : Harmless m m') : KeepsRemovals m m' := by
  rintro ⟨op, c, role⟩ hp hop
  cases op with
  | zapSet obj name h v =>
    obtain ⟨rfl, rfl, he, hr⟩ := zapSet_mem_plan.mp ⟨_, hp, rfl⟩
    have he' := hs.errlogEntry_iff.mp he
    exact zapSet_mem_plan.mpr ⟨rfl, rfl, he', hh.resets hs he' hr⟩
  | zapRemove Z k v =>
    exact zapRemove_mem_plan.mpr (hh.due hs (zapRemove_mem_plan.mp ⟨_, hp, rfl⟩))
  | zapZero => cases hop
  | bonusSet => cases hop
  | free => cases hop

theorem KeepsRemovals.harmless (hk : KeepsRemovals m m') : Harmless m m' := by
  have hset : ∀ {name h}, ErrlogEntry m name h → Resets m' h → Resets m h := by
    intro name h he hr
    obtain ⟨p, hp, hpo⟩ := zapSet_mem_plan.mpr ⟨rfl, rfl, hs.errlogEntry_iff.mpr he, hr⟩
    obtain ⟨q, hq, hqo⟩ := hk p hp (by rw [hpo]; rfl)
    exact (zapSet_mem_plan.mp ⟨q, hq, hqo.trans hpo⟩).2.2.2
  have hdue : ∀ {Z k v}, Due m' Z k v → Due m Z k v := by
    intro Z k v hd
    obtain ⟨p, hp, hpo⟩ := zapRemove_mem_plan.mpr hd
    obtain ⟨q, hq, hqo⟩ := hk p hp (by rw [hpo]; rfl)
    exact zapRemove_mem_plan.mp ⟨q, hq, hqo.trans hpo⟩
  constructor
  · intro name h he hl
    exact hset he (.inl (ObjDump.hasType_of_not_exists (by decide) hl.2))
  · intro name h key per o he hl ht hm ho hlo
    have hget := hs.get_eq_of_not_lost hl
    refine hset he (.inr ⟨by rw [hget]; exact ht, ?_⟩)
    rw [hget]
    refine staleEntries_ne_nil.mpr ⟨(key, per), hm, ?_⟩
    have hr : (m'.getInt o).readable = false := by
      simp [Mos.getInt, ObjDump.readable, hlo.2]
    simp [staleEntry, ho, hr]
  · intro D M name c hD hM hr he hn hl
    exact hdue ⟨D, hD, .staleChild hM ⟨hr, he, hn,
      ObjDump.hasType_of_not_exists (by decide) hl.2⟩⟩
  · intro D Z k v hD hZ hr he hl
    have hd : DanglingClone m' Z k v :=
      ⟨hr, he, by simp [isDataset, ObjDump.readable, hl.2]⟩
    rcases hZ with hZ | ⟨H, hH, hds, hZ⟩
    · exact hdue ⟨D, hD, .clone hZ hd⟩
    · exact hdue ⟨D, hD, .nextClone hH hds hZ hd⟩

end

/-- **Losing dumps.** -/
theorem keepsRemovals_iff (c : DumpDir) (gone : List ℕ) :
    KeepsRemovals c.source (c.delete gone).source ↔ Harmless c.source (c.delete gone).source :=
  ⟨fun h => h.harmless (c.sub_delete gone), fun h => h.keepsRemovals (c.sub_delete gone)⟩

/-- The text zdb prints for an object: its header row and its `key = value` lines. -/
def zdbText (obj type : String) (kv : List (String × String)) : List Char :=
  ("    " ++ obj ++ "    1   128K    512    12K     512    512  100.00  " ++ type ++ "\n" ++
    String.join (kv.map fun e => "\t\t" ++ e.1 ++ " = " ++ e.2 ++ " \n")).toList

/-- The capture of a pool with one dataset besides the root. -/
def healthyCapture : DumpDir where
  files := .ofList
    [(1, zdbText "1" "object directory" [("root_dataset", "32")]),
      (32, zdbText "32" "DSL directory" [("child_dir_zapobj", "34")]),
      (34, zdbText "34" "DSL directory child map" [("data", "1792")]),
      (1792, zdbText "1792" "DSL directory" [])]

/-- Without `obj_1792.txt` the namespace entry of the directory is dropped. -/
theorem lostDump_removes :
    ¬ KeepsRemovals healthyCapture.source (healthyCapture.delete [1792]).source := by
  have hfull : (plan healthyCapture.source).map PlanOp.op = [] := by decide +kernel
  have hlost : (plan (healthyCapture.delete [1792]).source).map PlanOp.op =
      [.zapRemove 34 "data" 1792] := by
    decide +kernel
  intro h
  obtain ⟨p, hp, hpo⟩ := List.mem_map.mp
    (show Op.zapRemove 34 "data" 1792 ∈ _ from hlost ▸ List.mem_cons_self)
  obtain ⟨q, hq, -⟩ := h p hp (by rw [hpo]; rfl)
  have := List.mem_map_of_mem (f := PlanOp.op) hq
  rw [hfull] at this
  simp at this

end Zhaxx.Scan
