import Zhaxx.Scan.ErrorLogs

/-!
# Alarms

A plan is for the operator to review `against the report` (`scan/zhaxx-scan` line 603). Here
is what the report has for each operation: a finding of severity `CRITICAL` about the object
that the operation repairs.

Result:
* `plan_reported`: no operation is planned without a critical finding about an object that
  it concerns.
-/

namespace Zhaxx.Scan

open Traverse (emits)

/-- The report has a critical finding about the object `x`. -/
def Alarmed (m : Mos) (x : ℕ) : Prop :=
  ∃ f ∈ findings m, f.severity = .critical ∧ f.obj = .int x

/-- What an operation has to do with the object `x` of a finding. -/
inductive Concerns (m : Mos) (x : ℕ) (op : Op) (role : Option FreeRole) : Prop
  /-- It edits or frees `x`. -/
  | target : op.obj = x → Concerns m x op role
  /-- It clears the reference to the error log `x`. -/
  | reference {name : String} : op = .zapSet mosDirObj name x 0 → Concerns m x op role
  /-- It frees an error log that the error log `x` names. -/
  | listed {k : String} {y : ℕ} {t : String} :
    op = .free y t → Entry m x k y → Concerns m x op role
  /-- It corrects the child count of a dataset for the clones ZAP `x`. -/
  | count {H nc : ℕ} {v : ℤ} :
    op = .bonusSet H nc v → Ref m H "next_clones_obj" x → Concerns m x op role
  /-- It removes the orphan whose head is the dataset `x`. -/
  | orphan {D : ℕ} {path : String} : Orphan m D x →
    Plans (planOrphanRemoval m (.int x) (some D) path) op role → Concerns m x op role

section

variable {m : Mos} {op : Op} {role : Option FreeRole}

theorem alarmed_of_mem {x : ℕ} {es : List Event} (h : ∃ t, add .critical (.int x) t ∈ es)
    (hes : ∀ e ∈ es, e ∈ run m) : Alarmed m x := by
  obtain ⟨t, ht⟩ := h
  exact ⟨_, mem_findingsOf.mpr (hes _ ht), rfl, rfl⟩

/-! ## The checks -/

theorem alarmed_staleHead {name : String} {h : ℕ} (he : ErrlogEntry m name h)
    (hs : StaleHead m h) : Alarmed m h := by
  refine alarmed_of_mem ?_ (checkErrlogHead_subset_run he)
  have hex := ObjDump.exists_of_hasType (by decide) hs.1
  obtain ⟨s, ss, hss⟩ := List.exists_cons_of_ne_nil hs.2
  unfold checkErrlogHead
  dsimp only
  rw [if_neg he.2.2.2, if_neg (by simp [hex]), if_neg (by simp [hs.1]), hss, if_neg (by simp),
    List.map_cons]
  exact ⟨_, List.mem_cons_self⟩

/-- A reference that is cleared is reported at the MOS directory when its object is gone, and
    at the object otherwise. -/
theorem alarmed_reset {name : String} {h : ℕ} (he : ErrlogEntry m name h) (hr : Resets m h) :
    Alarmed m mosDirObj ∨ Alarmed m h := by
  rcases hr with ht | hs
  · cases hex : (m.get h).exists_ with
    | false =>
      refine .inl (alarmed_of_mem ?_ (checkErrlogHead_subset_run he))
      unfold checkErrlogHead
      dsimp only
      rw [if_neg he.2.2.2, if_pos (by simp [hex])]
      exact ⟨_, List.mem_cons_self⟩
    | true =>
      refine .inr (alarmed_of_mem ?_ (checkErrlogHead_subset_run he))
      unfold checkErrlogHead
      dsimp only
      rw [if_neg he.2.2.2, if_neg (by simp [hex]), if_pos (by simp [ht])]
      exact ⟨_, List.mem_cons_self⟩
  · exact .inr (alarmed_staleHead he hs)

theorem alarmed_scan (h : StaleScan m) : Alarmed m mosDirObj := by
  obtain ⟨h1, scan, hscan, hstate, hqueue, hr⟩ := h
  obtain ⟨nodes, log, -, hrun⟩ := run_walks h1
  have hsub : ∀ e ∈ checkScan m (m.get mosDirObj), e ∈ run m := fun e he => by
    rw [hrun]
    exact List.mem_append_left _ (List.mem_append_right _ he)
  refine alarmed_of_mem ?_ hsub
  have hproblems : (if scan.getD 2 0 ≠ 0 ∧ (m.get (scan.getD 2 0)).readable = false then
      [s!"scan queue object {scan.getD 2 0} missing or unreadable"] else []) =
      [s!"scan queue object {scan.getD 2 0} missing or unreadable"] := if_pos ⟨hqueue, hr⟩
  unfold checkScan
  rw [hscan]
  dsimp only
  rw [if_neg (not_not.mpr hstate), hproblems, if_pos (List.cons_ne_nil _ _)]
  exact ⟨_, List.mem_cons_self⟩

section

variable {D : ℕ} (hD : Reached m D)

include hD

theorem alarmed_child {M c : ℕ} {name : String} (hM : Ref m D "child_dir_zapobj" M)
    (h : StaleChild m M name c) : Alarmed m M := by
  obtain ⟨hr, he, hname, ht⟩ := h
  obtain ⟨path, hsub⟩ := childSteps_subset_run hD hM hr he
  refine alarmed_of_mem ?_ hsub
  unfold childSteps
  rw [if_neg hname]
  cases hex : (m.get c).exists_ with
  | false =>
    rw [if_pos (by simp), Traverse.emits_map_emit]
    exact ⟨_, List.mem_cons_self⟩
  | true =>
    rw [if_neg (by simp), if_pos (by simp [ht]), Traverse.emits_map_emit]
    exact ⟨_, List.mem_cons_self⟩

theorem alarmed_clone {Z v : ℕ} {k : String} (hZ : ClonesOf m D Z) (h : DanglingClone m Z k v) :
    Alarmed m Z := by
  obtain ⟨path, hsub⟩ := checkClonesZap_subset_run hD hZ
  obtain ⟨hr, he, hv⟩ := h
  have hmem : (k, v) ∈ danglingClones m (m.get Z) :=
    List.mem_filter.mpr ⟨PyStr.mem_sortedItems.mpr he, by simp [hv]⟩
  refine alarmed_of_mem ?_ hsub
  unfold checkClonesZap
  dsimp only [Mos.fetch_int]
  rw [if_neg (by simp [hr])]
  exact ⟨_, List.mem_flatMap.mpr ⟨(k, v), hmem, List.mem_cons_self⟩⟩

theorem alarmed_orphan {H : ℕ} (h : Orphan m D H) : Alarmed m H := by
  obtain ⟨path, hsub⟩ := checkDataset_subset_run hD h.1
  refine alarmed_of_mem ?_ hsub
  unfold checkDataset
  dsimp only [Mos.fetch_int]
  rw [if_neg (by simp [ObjDump.exists_of_unreadable h.2]), if_pos h.2]
  exact ⟨_, List.mem_cons_self⟩

end

/-! ## The operations -/

/-- What the removal of an orphan plans. -/
theorem concerns_orphan {D H : ℕ} (hr : (m.get D).readable = true) (hO : Orphan m D H)
    (h : Plans (orphanNamespace m D (m.get D)) op role ∨
      Plans (orphanCloneRefs m (.int H) (m.get D)) op role ∨
      ∃ r x, SubtreeRef m D H r x ∧ (m.get x).readable = true ∧ (m.get x).typeOr ≠ "" ∧
        op = .free x (m.get x).typeStr ∧ role = some r) : Concerns m H op role := by
  have hplans : Plans (planOrphanRemoval m (.int H) (some D) "") op role :=
    (plans_planOrphanRemoval hr).mpr h
  exact .orphan hO hplans

theorem DirPlanned.alarmed {D : ℕ} (hD : Reached m D) (h : DirPlanned m D op role) :
    ∃ x, Alarmed m x ∧ Concerns m x op role := by
  have hr := (isDirectory_iff.mp hD.isDirectory).1
  cases h with
  | staleChild hM hs => exact ⟨_, alarmed_child hD hM hs, .target rfl⟩
  | clone hZ hs => exact ⟨_, alarmed_clone hD (.inl hZ) hs, .target rfl⟩
  | nextClone hH hds hZ hs =>
    exact ⟨_, alarmed_clone hD (.inr ⟨_, hH, hds, hZ⟩) hs, .target rfl⟩
  | childCount hH hds hZ hrZ hn hnc =>
    obtain ⟨k, v, hs⟩ := exists_danglingClone hrZ hn
    exact ⟨_, alarmed_clone hD (.inr ⟨_, hH, hds, hZ⟩) hs, .count rfl hZ⟩
  | orphanName hO hP hrP hM he =>
    refine ⟨_, alarmed_orphan hD hO, concerns_orphan hr hO (.inl ?_)⟩
    exact plans_orphanNamespace.mpr ⟨_, hP, hrP, _, hM, _, he, rfl, rfl⟩
  | orphanNextClone hO hOr hrO hZ he =>
    refine ⟨_, alarmed_orphan hD hO, concerns_orphan hr hO (.inr (.inl ?_))⟩
    exact plans_orphanCloneRefs.mpr ⟨_, hOr, hrO,
      .inl (plans_orphanNextClones.mpr ⟨_, hZ, _, he, .inl ⟨rfl, rfl⟩⟩)⟩
  | orphanCount hO hOr hrO hZ he hnc =>
    refine ⟨_, alarmed_orphan hD hO, concerns_orphan hr hO (.inr (.inl ?_))⟩
    exact plans_orphanCloneRefs.mpr ⟨_, hOr, hrO,
      .inl (plans_orphanNextClones.mpr ⟨_, hZ, _, he, .inr ⟨_, hnc, rfl, rfl⟩⟩)⟩
  | orphanClone hO hOr hrO hOD hrOD hZ he =>
    refine ⟨_, alarmed_orphan hD hO, concerns_orphan hr hO (.inr (.inl ?_))⟩
    exact plans_orphanCloneRefs.mpr ⟨_, hOr, hrO,
      .inr (plans_orphanDirClones.mpr ⟨_, hOD, hrOD, _, hZ, _, he, rfl, rfl⟩)⟩
  | orphanFree hO hx hrx htx =>
    exact ⟨_, alarmed_orphan hD hO,
      concerns_orphan hr hO (.inr (.inr ⟨_, _, hx, hrx, htx, rfl, rfl⟩))⟩

/-- What is planned is reported. -/
theorem Planned.alarmed (h : Planned m op role) : ∃ x, Alarmed m x ∧ Concerns m x op role := by
  cases h with
  | errlog h =>
    cases h with
    | reset he hr =>
      rcases alarmed_reset he hr with h1 | hh
      · exact ⟨_, h1, .target rfl⟩
      · exact ⟨_, hh, .reference rfl⟩
    | head he hs => exact ⟨_, alarmed_staleHead he hs, .target rfl⟩
    | objset he hs hmem ht =>
      exact ⟨_, alarmed_staleHead he hs, .listed rfl (mem_staleEntries.mp hmem).1⟩
  | scan hs => exact ⟨_, alarmed_scan hs, .target rfl⟩
  | dir hD h => exact h.alarmed hD

end

/-- **No silent repair.** Every operation of a plan comes with a critical finding about an
    object that it edits or frees, to which it clears the reference, whose entries or clones it
    deals with, or which is the head of the orphan it belongs to. -/
theorem plan_reported {m : Mos} {p : PlanOp} (hp : p ∈ plan m) :
    ∃ x, Alarmed m x ∧ Concerns m x p.op p.role := by
  have hplans : Plans (run m) p.op p.role :=
    plans_iff_opsOf.mpr ⟨p, dedupeLoop_sublist.subset hp, rfl, rfl⟩
  exact (plans_run.mp hplans).alarmed

/-- A pool with an entry for a filesystem that is gone. -/
def goneChild : Mos := .ofList
  [(1, .ofLines "object directory" [("root_dataset", 2)] false),
    (2, .ofLines "DSL directory" [("child_dir_zapobj", 3)] false),
    (3, .ofLines "DSL directory child map" [("gone", 9)] false)]

/-- The finding about the child map stands for the removal. -/
theorem plan_reported_goneChild :
    ∃ x, Alarmed goneChild x ∧ Concerns goneChild x (.zapRemove 3 "gone" 9) none := by
  have hp : (⟨.zapRemove 3 "gone" 9, "drop dangling namespace entry 'gone'", none⟩ : PlanOp) ∈
      plan goneChild := by decide +kernel
  exact plan_reported hp

end Zhaxx.Scan
