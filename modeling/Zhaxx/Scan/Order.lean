import Zhaxx.Scan.Planned

/-!
# The order of a plan

The checks of the head dataset of a directory come before its child map is walked
(`walk_dsl_dir`, `scan/zhaxx-scan` lines 326–342), so what they plan stands in the order of
the walk. The references to an orphan are planned before its frees (lines 446–510).

Results:
* `Walks.filter_opsOf`: the operations of one kind, directory by directory.
* `find?_orphanName`: the entry of an orphan that its parent link leads to is dropped
  before the orphan is freed.
-/

namespace Zhaxx.Scan

open Traverse (emits)

section

variable {m : Mos}

/-- An operation that neither the child map nor the clones ZAP of a directory plans is
    planned for its head. -/
theorem leading_plansOf {f : PlanOp → Bool} {n : ℕ × String}
    (h : ∀ p ∈ opsOf (emits (childrenSteps m n.1 n.2) ++ clonesEvents m n.1 n.2), f p = false) :
    Traverse.Leading (Event.plansOf f) (dirSteps m n) := by
  unfold dirSteps
  split_ifs
  · trivial
  · trivial
  · refine Traverse.leading_append (Traverse.leading_of_silent fun e he => ?_)
    rw [Traverse.emits_append, Traverse.emits_map_emit] at he
    cases e with
    | finding g => rfl
    | op p => exact h p (mem_opsOf.mpr he)

/-- **The operations of one kind.** They stand in the order of the walk. -/
theorem Walks.filter_opsOf {nodes : List (ℕ × String)} {log : List Event} (h : Walks m nodes log)
    {f : PlanOp → Bool} (hlead : ∀ n, Traverse.Leading (Event.plansOf f) (dirSteps m n)) :
    (opsOf log).filter f = nodes.flatMap fun n => (opsOf (dirEvents m n)).filter f := by
  rw [← opsOf_filter, h.filter_log _ hlead, opsOf_flatMap]
  simp only [opsOf_filter]

/-- The operations of a kind that only the walk plans. -/
theorem filter_opsOf_run (h1 : (m.get mosDirObj).readable = true) {f : PlanOp → Bool}
    (hlead : ∀ n, Traverse.Leading (Event.plansOf f) (dirSteps m n))
    (hmos : ∀ p ∈ opsOf (checkErrlog m (m.get mosDirObj) ++ checkScan m (m.get mosDirObj)),
      f p = false) :
    ∃ nodes log, Walks m nodes log ∧
      (opsOf (run m)).filter f = nodes.flatMap fun n => (opsOf (dirEvents m n)).filter f := by
  obtain ⟨nodes, log, hw, hrun⟩ := run_walks h1
  have hnone : (opsOf (checkErrlog m (m.get mosDirObj) ++ checkScan m (m.get mosDirObj))).filter f
      = [] := List.filter_eq_nil_iff.mpr fun p hp => by simp [hmos p hp]
  have hroot : opsOf (if rootDataset m = 0 then [noRoot] else []) = [] := by
    split_ifs <;> rfl
  refine ⟨nodes, log, hw, ?_⟩
  rw [hrun, opsOf_append, List.filter_append, hnone, List.nil_append, opsOf_append, hroot,
    List.append_nil, hw.filter_opsOf hlead]

end

/-! ## The entry of an orphan -/

/-- `Z` is the child map that the parent link of `v` leads to. -/
def ParentMap (m : Mos) (v Z : ℕ) : Prop :=
  ∃ P, Ref m v "parent_dir_obj" P ∧ (m.get P).readable = true ∧ Ref m P "child_dir_zapobj" Z

/-- The removal of an entry as `plan_orphan_removal` plans it. -/
def orphanName (Z : ℕ) (k : String) (v : ℕ) : PlanOp :=
  ⟨.zapRemove Z k v, s!"remove orphan '{k}' from namespace", none⟩

/-- The removal of the entry, or a free of `v`. -/
def namesOrFrees (Z : ℕ) (k : String) (v : ℕ) (t : String) (p : PlanOp) : Bool :=
  p = orphanName Z k v ∨ p.op = .free v t

section

variable {m : Mos} {v H Z : ℕ} {k t path : String}

/-- What a clones ZAP gives rise to reads differently. -/
theorem not_mem_checkClonesZap {w : FieldVal} :
    orphanName Z k v ∉ opsOf (checkClonesZap m w path).2 := by
  intro h
  rw [mem_opsOf] at h
  unfold checkClonesZap at h
  dsimp only at h
  split_ifs at h
  · simp [add] at h
  · obtain ⟨e, -, he⟩ := List.mem_flatMap.mp h
    have hcomment : (orphanName Z k v).comment =
        s!"drop {cloneWhy (m.get e.2)} clone reference from {path}" := by
      simp only [add, addOp, List.mem_cons, reduceCtorEq, false_or, List.not_mem_nil, or_false,
        Event.op.injEq] at he
      rw [he]
    have hhead := congrArg (fun s => s.toList.head?) hcomment
    have hr : (toString "remove orphan '").toList.head? = some 'r' := by decide
    have hd : (toString "drop ").toList.head? = some 'd' := by decide
    simp only [orphanName, String.toList_append, List.head?_append, hr, hd, Option.some_or] at hhead
    exact absurd (Option.some.inj hhead) (by decide)

theorem leading_namesOrFrees (ht : (m.get v).hasType "DSL directory" = true) (n : ℕ × String) :
    Traverse.Leading (Event.plansOf (namesOrFrees Z k v t)) (dirSteps m n) := by
  refine leading_plansOf fun p hp => ?_
  rw [opsOf_append, List.mem_append] at hp
  rw [namesOrFrees, decide_eq_false_iff_not]
  rcases hp with hp | hp
  · obtain ⟨M, -, name, c, hs, hop, -⟩ :=
      plans_childrenSteps.mp (plans_iff_opsOf.mpr ⟨p, hp, rfl, rfl⟩)
    rintro (rfl | hfree)
    · cases hop
      exact absurd (ht.symm.trans hs.2.2.2) (by decide)
    · cases hfree.symm.trans hop
  · obtain ⟨Z', -, k', v', -, hop, -⟩ :=
      plans_clonesEvents.mp (plans_iff_opsOf.mpr ⟨p, hp, rfl, rfl⟩)
    rintro (rfl | hfree)
    · unfold clonesEvents at hp
      dsimp only at hp
      split_ifs at hp
      · exact not_mem_checkClonesZap hp
      · cases hp
    · cases hfree.symm.trans hop

/-- The head of an orphan is reported, and its removal planned. -/
theorem headEvents_orphan (hO : Orphan m v H) (path : String) : ∃ s obj text,
    headEvents m v path =
      add s obj text :: planOrphanRemoval m (.int H) (some v) s!"{path}@head" := by
  have hhead : ((m.get v).ref "head_dataset_obj").truthy = true := by
    rw [hO.1.1]
    exact (FieldVal.truthy_int H).mpr hO.1.2
  unfold headEvents checkDataset
  dsimp only
  rw [if_pos hhead, hO.1.1, Mos.fetch_int, if_neg (by simp [ObjDump.exists_of_unreadable hO.2]),
    if_pos hO.2]
  exact ⟨_, _, _, rfl⟩

/-- An orphan begins with its entries in the namespace. -/
theorem opsOf_dirEvents_orphan (hD : isDirectory (m.get v) = true) (hO : Orphan m v H)
    (path : String) :
    ∃ rest, opsOf (dirEvents m (v, path)) = opsOf (orphanNamespace m v (m.get v)) ++ rest := by
  obtain ⟨hr, ht⟩ := isDirectory_iff.mp hD
  obtain ⟨s, obj, text, hhead⟩ := headEvents_orphan hO path
  have hsteps : dirEvents m (v, path) = headEvents m v path ++
      emits (childrenSteps m v path ++ (clonesEvents m v path).map .emit) := by
    unfold dirEvents dirSteps
    rw [if_neg (by simp [hr]), if_neg (by simp [ht]), Traverse.emits_append,
      Traverse.emits_map_emit]
  rw [hsteps, hhead]
  unfold planOrphanRemoval
  dsimp only
  rw [if_neg (by simp [hr]), ← List.singleton_append, List.append_assoc, List.append_assoc,
    List.append_assoc, opsOf_append, opsOf_append]
  exact ⟨_, rfl⟩

theorem mem_orphanNamespace (hZ : ParentMap m v Z) (he : Entry m Z k v) :
    orphanName Z k v ∈ opsOf (orphanNamespace m v (m.get v)) := by
  obtain ⟨P, hP, hr, hZ⟩ := hZ
  have htP : ((m.get v).ref "parent_dir_obj").truthy = true := by
    rw [hP.1]
    exact (FieldVal.truthy_int P).mpr hP.2
  have htZ : ((m.get P).ref "child_dir_zapobj").truthy = true := by
    rw [hZ.1]
    exact (FieldVal.truthy_int Z).mpr hZ.2
  rw [mem_opsOf]
  unfold orphanNamespace
  dsimp only
  rw [if_neg (by simp [htP]), hP.1, Mos.fetch_int, if_pos hr, if_neg (by simp [htZ]), hZ.1]
  exact List.mem_map.mpr ⟨(k, v), mem_entriesOf.mpr ⟨he, rfl⟩, rfl⟩

/-- The entry of an orphan is dropped first among what its directory plans. -/
theorem head?_dirEvents_orphan (hD : isDirectory (m.get v) = true) (hO : Orphan m v H)
    (hZ : ParentMap m v Z) (he : Entry m Z k v) :
    ((opsOf (dirEvents m (v, path))).filter (namesOrFrees Z k v t)).head? =
      some (orphanName Z k v) := by
  obtain ⟨rest, hrest⟩ := opsOf_dirEvents_orphan hD hO path
  have hmem : orphanName Z k v ∈
      (opsOf (orphanNamespace m v (m.get v))).filter (namesOrFrees Z k v t) :=
    List.mem_filter.mpr ⟨mem_orphanNamespace hZ he, decide_eq_true (.inl rfl)⟩
  rw [hrest, List.filter_append, List.head?_append]
  cases hl : (opsOf (orphanNamespace m v (m.get v))).filter (namesOrFrees Z k v t) with
  | nil => rw [hl] at hmem; cases hmem
  | cons p ps =>
    have hp := List.mem_filter.mp (hl ▸ List.mem_cons_self : p ∈ List.filter _ _)
    rcases of_decide_eq_true hp.2 with rfl | hfree
    · rfl
    · obtain ⟨P, -, -, M, -, name, -, hop, -⟩ :=
        plans_orphanNamespace.mp (plans_iff_opsOf.mpr ⟨p, hp.1, rfl, rfl⟩)
      cases hfree.symm.trans hop

/-- The first free or removal is no free. -/
theorem ne_free_of_head? (hv : Reached m v) (hO : Orphan m v H) (hZ : ParentMap m v Z)
    (he : Entry m Z k v) (herr : ∀ role, ¬ ErrlogPlanned m (.free v t) role)
    (hown : ∀ D role, Reached m D → DirPlanned m D (.free v t) role → D = v) {p : PlanOp}
    (hp : ((opsOf (run m)).filter (namesOrFrees Z k v t)).head? = some p) :
    p.op ≠ .free v t := by
  intro hfree
  have h1 := hv.readable_mos
  have ht := (isDirectory_iff.mp hv.isDirectory).2
  have hmos : ∀ q ∈ opsOf (checkErrlog m (m.get mosDirObj) ++ checkScan m (m.get mosDirObj)),
      namesOrFrees Z k v t q = false := by
    intro q hq
    have hpl := plans_iff_opsOf.mpr ⟨q, hq, rfl, rfl⟩
    rw [plans_append, plans_checkErrlog h1, plans_checkScan h1] at hpl
    rw [namesOrFrees, decide_eq_false_iff_not]
    rintro (rfl | hq)
    · rcases hpl with hpl | ⟨-, hpl, -⟩ <;> cases hpl
    · rw [hq] at hpl
      rcases hpl with hpl | ⟨-, hpl, -⟩
      · exact herr _ hpl
      · cases hpl
  obtain ⟨nodes, log, hw, hrun⟩ := filter_opsOf_run h1 (leading_namesOrFrees ht) hmos
  rw [hrun, List.head?_flatMap] at hp
  obtain ⟨⟨D, path⟩, hn, hp⟩ := List.exists_of_findSome?_eq_some hp
  obtain ⟨hmem, -⟩ := List.mem_filter.mp (List.mem_of_head? hp)
  have hpl := plans_iff_opsOf.mpr ⟨p, hmem, hfree, rfl⟩
  have hD := (plans_dirEvents.mp hpl).1
  have hreach : Reached m D :=
    reached_iff_walked.mpr ⟨(hw.mem_nodes D).mp (List.mem_map_of_mem hn), hD⟩
  obtain rfl := hown D _ hreach ((plans_dirEvents_iff hD).mp hpl)
  rw [head?_dirEvents_orphan hD hO hZ he] at hp
  cases hp
  cases hfree

/-- **The entry of an orphan.** If nothing but the orphan itself leads to a free of its
    directory, then the entry its parent link leads to is dropped first. -/
theorem find?_orphanName (hv : Reached m v) (hO : Orphan m v H) (hZ : ParentMap m v Z)
    (he : Entry m Z k v) (herr : ∀ role, ¬ ErrlogPlanned m (.free v t) role)
    (hown : ∀ D role, Reached m D → DirPlanned m D (.free v t) role → D = v) :
    ((plan m).find? fun p => decide (p.op = .zapRemove Z k v ∨ p.op = .free v t)).map PlanOp.op =
      some (.zapRemove Z k v) := by
  have hplanned : Plans (run m) (.zapRemove Z k v) none := by
    obtain ⟨P, hP, hr, hZ⟩ := hZ
    exact plans_run.mpr (.dir hv (.orphanName hO hP hr hZ he))
  rw [plan, find?_dedupeOps _ fun op => decide (op = .zapRemove Z k v ∨ op = .free v t)]
  cases hf : (opsOf (run m)).find? fun p => decide (p.op = .zapRemove Z k v ∨ p.op = .free v t) with
  | none =>
    obtain ⟨p, hp, hop, -⟩ := plans_iff_opsOf.mp hplanned
    have hno := List.find?_eq_none.mp hf p hp
    simp [hop] at hno
  | some p =>
    have hfound : p.op = .zapRemove Z k v ∨ p.op = .free v t := by
      simpa using List.find?_some hf
    rcases hfound with hop | hop
    · exact congrArg some hop
    · -- nothing is removed from the namespace before this free
      obtain ⟨-, pre, post, hsplit, hpre⟩ := List.find?_eq_some_iff_append.mp hf
      have hnone : pre.filter (namesOrFrees Z k v t) = [] := by
        rw [List.filter_eq_nil_iff]
        intro q hq hname
        have hq := hpre q hq
        rcases of_decide_eq_true hname with rfl | hfree
        · simp [orphanName] at hq
        · simp [hfree] at hq
      have hhead : ((opsOf (run m)).filter (namesOrFrees Z k v t)).head? = some p := by
        have hkept : namesOrFrees Z k v t p = true := decide_eq_true (.inr hop)
        rw [hsplit, List.filter_append, hnone, List.nil_append, List.filter_cons_of_pos hkept]
        rfl
      exact absurd hop (ne_free_of_head? hv hO hZ he herr hown hhead)

end

end Zhaxx.Scan
