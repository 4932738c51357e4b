import Zhaxx.Scan.Order

/-!
# Accounts of removed clones

A `bonus_set` of the child count is planned from two places: `check_dataset` accounts
for the dangling entries in the `next_clones` ZAP of a head dataset, and
`plan_orphan_removal` for each orphan in the `next_clones` ZAP of its origin
(`scan/zhaxx-scan` lines 391–400 and 466–481). Both subtract from the observed count.

Results:
* `mem_amounts`: the child counts a scan plans are the observed one less an amount of the
  directories it meets.
* `find?_setsCount`: the first of them is that of the first amount in the order of the
  walk.
-/

namespace Zhaxx.Scan

open Traverse (emits)

/-! ## Amounts -/

/-- `check_dataset` accounts for the dangling clones of `S`, the head of `D`. -/
structure HeadAccount (m : Mos) (S D : ℕ) : Prop where
  dir : isDirectory (m.get D) = true
  head : Ref m D "head_dataset_obj" S
  dataset : isDataset (m.get S) = true
  zap : ∃ Z, Ref m S "next_clones_obj" Z ∧ (m.get Z).readable = true ∧ danglingCount m Z ≠ 0

/-- `plan_orphan_removal` accounts for the orphan `D`, a clone of `S`. -/
structure OrphanAccount (m : Mos) (S D : ℕ) : Prop where
  dir : isDirectory (m.get D) = true
  origin : Ref m D "origin_obj" S
  readable : (m.get S).readable = true
  zap : ∃ H Z k, Orphan m D H ∧ Ref m S "next_clones_obj" Z ∧ Entry m Z k H

/-- The number of dangling entries in the `next_clones` ZAP of `S`. -/
def danglingNext (m : Mos) (S : ℕ) : ℕ :=
  match (m.get S).ref "next_clones_obj" with
  | .int Z => danglingCount m Z
  | .str _ => 0

open Classical in
/-- What the walk of `D` subtracts from the child count of `S`. -/
noncomputable def amount (m : Mos) (S D : ℕ) : Option ℕ :=
  if HeadAccount m S D then some (danglingNext m S)
  else if OrphanAccount m S D then some 1
  else none

/-- The amounts for `S`, in the order of the walk. -/
noncomputable def amounts (m : Mos) (S : ℕ) : List ℕ := (walkOrder m).filterMap (amount m S)

section

variable {m : Mos} {S D : ℕ}

theorem danglingNext_eq {Z : ℕ} (hZ : Ref m S "next_clones_obj" Z) :
    danglingNext m S = danglingCount m Z := by
  rw [danglingNext, hZ.1]

/-- The head of an orphan is no readable dataset. -/
theorem HeadAccount.not_orphanAccount (h : HeadAccount m S D) : ¬ OrphanAccount m S D := by
  rintro ⟨-, -, -, H, -, -, hO, -⟩
  have hr := (ObjDump.readable_iff.mp (isDataset_iff.mp h.dataset).1).2
  rw [h.head.unique hO.1, hO.2] at hr
  cases hr

theorem amount_eq_some_iff {a : ℕ} : amount m S D = some a ↔
    (HeadAccount m S D ∧ a = danglingNext m S) ∨ (OrphanAccount m S D ∧ a = 1) := by
  unfold amount
  by_cases hh : HeadAccount m S D
  · simp [hh, hh.not_orphanAccount, eq_comm]
  · by_cases ho : OrphanAccount m S D <;> simp [hh, ho, eq_comm]

theorem isDirectory_of_amount {a : ℕ} (h : amount m S D = some a) :
    isDirectory (m.get D) = true := by
  rcases amount_eq_some_iff.mp h with ⟨hh, -⟩ | ⟨ho, -⟩
  · exact hh.dir
  · exact ho.dir

/-- The amounts for one dataset have at most two values. -/
theorem amount_cases {a : ℕ} (h : amount m S D = some a) : a = danglingNext m S ∨ a = 1 :=
  (amount_eq_some_iff.mp h).imp And.right And.right

/-- **The child counts one directory plans.** -/
theorem dirPlanned_bonusSet_iff (hD : isDirectory (m.get D) = true) {e : ℕ} {v : ℤ}
    {role : Option FreeRole} : DirPlanned m D (.bonusSet S e v) role ↔
      role = none ∧ (m.get S).numChildren = some e ∧
        ∃ a, amount m S D = some a ∧ v = (e : ℤ) - a := by
  constructor
  · intro h
    cases h with
    | childCount hH hds hZ hr hn hnc =>
      refine ⟨rfl, hnc, _, amount_eq_some_iff.mpr (.inl ⟨⟨hD, hH, hds, _, hZ, hr, hn⟩, rfl⟩), ?_⟩
      rw [danglingNext_eq hZ]
    | orphanCount hO hOr hr hZ he hnc =>
      refine ⟨rfl, hnc, 1, amount_eq_some_iff.mpr (.inr ⟨⟨hD, hOr, hr, _, _, _, hO, hZ, he⟩, rfl⟩),
        ?_⟩
      rw [Int.natCast_one]
  · rintro ⟨rfl, hnc, a, ha, rfl⟩
    rcases amount_eq_some_iff.mp ha with ⟨hh, rfl⟩ | ⟨ho, rfl⟩
    · obtain ⟨Z, hZ, hr, hn⟩ := hh.zap
      rw [danglingNext_eq hZ]
      exact .childCount hh.head hh.dataset hZ hr hn hnc
    · obtain ⟨H, Z, k, hO, hZ, he⟩ := ho.zap
      rw [Int.natCast_one]
      exact .orphanCount hO ho.origin ho.readable hZ he hnc

end

/-! ## The planned child counts -/

/-- The operation sets the child count of `S`. -/
def Op.setsCount (S : ℕ) : Op → Bool
  | .bonusSet obj _ _ => obj = S
  | _ => false

theorem setsCount_iff {S : ℕ} {op : Op} :
    op.setsCount S = true ↔ ∃ e v, op = .bonusSet S e v := by
  cases op <;> simp [Op.setsCount]

section

variable {m : Mos} {S nc : ℕ}

theorem mem_walkOrder (h1 : (m.get mosDirObj).readable = true) (D : ℕ) :
    D ∈ walkOrder m ↔ Walked m D := by
  obtain ⟨nodes, log, hw, -⟩ := run_walks h1
  rw [← hw.order, hw.mem_nodes]

/-- **The child counts a scan plans.** -/
theorem mem_amounts (hnc : (m.get S).numChildren = some nc) {e : ℕ} {v : ℤ} :
    (∃ role, Planned m (.bonusSet S e v) role) ↔
      (m.get mosDirObj).readable = true ∧ e = nc ∧ ∃ a ∈ amounts m S, v = (nc : ℤ) - a := by
  constructor
  · rintro ⟨role, h⟩
    have h1 := h.readable_mos
    cases h with
    | errlog h => cases h
    | dir hD hp =>
      obtain ⟨hw, hdir⟩ := reached_iff_walked.mp hD
      obtain ⟨-, he, a, ha, hv⟩ := (dirPlanned_bonusSet_iff hdir).mp hp
      cases he.symm.trans hnc
      exact ⟨h1, rfl, a, List.mem_filterMap.mpr ⟨_, (mem_walkOrder h1 _).mpr hw, ha⟩, hv⟩
  · rintro ⟨h1, rfl, a, ha, hv⟩
    obtain ⟨D, hw, ha⟩ := List.mem_filterMap.mp ha
    have hdir := isDirectory_of_amount ha
    exact ⟨none, .dir (reached_iff_walked.mpr ⟨(mem_walkOrder h1 D).mp hw, hdir⟩)
      ((dirPlanned_bonusSet_iff hdir).mpr ⟨rfl, hnc, a, ha, hv⟩)⟩

/-! ## The order of the planned child counts -/

/-- Child counts are planned for the head of a directory. -/
theorem leading_setsCount (S : ℕ) (n : ℕ × String) :
    Traverse.Leading (Event.plansOf fun p => p.op.setsCount S) (dirSteps m n) := by
  refine leading_plansOf fun p hp => ?_
  have hpl := plans_iff_opsOf.mpr ⟨p, hp, rfl, rfl⟩
  rw [plans_append, plans_childrenSteps, plans_clonesEvents] at hpl
  rcases hpl with ⟨M, -, name, c, -, hop, -⟩ | ⟨Z, -, k, v, -, hop, -⟩
  · rw [hop]
    rfl
  · rw [hop]
    rfl

/-- The first child count that one directory plans for `S`. -/
theorem head?_dirEvents (hnc : (m.get S).numChildren = some nc) (n : ℕ × String) :
    (((opsOf (dirEvents m n)).filter fun p => p.op.setsCount S).head?).map PlanOp.op =
      (amount m S n.1).map fun a => .bonusSet S nc ((nc : ℤ) - a) := by
  obtain ⟨D, path⟩ := n
  have hplans : ∀ p, p ∈ (opsOf (dirEvents m (D, path))).filter (fun p => p.op.setsCount S) →
      ∃ a, amount m S D = some a ∧ p.op = .bonusSet S nc ((nc : ℤ) - a) := by
    intro p hp
    obtain ⟨hmem, hset⟩ := List.mem_filter.mp hp
    obtain ⟨e, v, hop⟩ := setsCount_iff.mp hset
    have hpl : Plans (dirEvents m (D, path)) (.bonusSet S e v) p.role :=
      plans_iff_opsOf.mpr ⟨p, hmem, hop, rfl⟩
    have hD := (plans_dirEvents.mp hpl).1
    obtain ⟨-, he, a, ha, rfl⟩ := (dirPlanned_bonusSet_iff hD).mp
      ((plans_dirEvents_iff hD).mp hpl)
    cases he.symm.trans hnc
    exact ⟨a, ha, hop⟩
  cases hl : (opsOf (dirEvents m (D, path))).filter (fun p => p.op.setsCount S) with
  | nil =>
    have hnone : amount m S D = none := by
      rw [Option.eq_none_iff_forall_ne_some]
      intro a ha
      have hD := isDirectory_of_amount ha
      have hpl : Plans (dirEvents m (D, path)) (.bonusSet S nc ((nc : ℤ) - a)) none :=
        (plans_dirEvents_iff hD).mpr ((dirPlanned_bonusSet_iff hD).mpr ⟨rfl, hnc, a, ha, rfl⟩)
      obtain ⟨p, hp, hop, -⟩ := plans_iff_opsOf.mp hpl
      exact List.filter_eq_nil_iff.mp hl p hp (setsCount_iff.mpr ⟨_, _, hop⟩)
    rw [hnone]
    rfl
  | cons p ps =>
    obtain ⟨a, ha, hop⟩ := hplans p (hl ▸ List.mem_cons_self)
    rw [ha, List.head?_cons, Option.map_some, hop]
    rfl

theorem setsCount_checkErrlog (h1 : (m.get mosDirObj).readable = true) (S : ℕ) :
    ∀ p ∈ opsOf (checkErrlog m (m.get mosDirObj) ++ checkScan m (m.get mosDirObj)),
      p.op.setsCount S = false := by
  intro p hp
  have hpl := plans_iff_opsOf.mpr ⟨p, hp, rfl, rfl⟩
  rw [plans_append, plans_checkErrlog h1, plans_checkScan h1] at hpl
  rcases hpl with hpl | ⟨-, hpl, -⟩
  · cases hop : p.op with
    | bonusSet => rw [hop] at hpl; cases hpl
    | _ => rfl
  · rw [hpl]
    rfl

/-- **The first child count of a plan.** It is that of the first amount. -/
theorem find?_setsCount (hnc : (m.get S).numChildren = some nc) :
    ((plan m).find? fun p => p.op.setsCount S).map PlanOp.op =
      (amounts m S).head?.map fun a => .bonusSet S nc ((nc : ℤ) - a) := by
  rw [plan, find?_dedupeOps]
  by_cases h1 : (m.get mosDirObj).readable = true
  · obtain ⟨nodes, log, hw, hrun⟩ :=
      filter_opsOf_run h1 (leading_setsCount S) (setsCount_checkErrlog h1 S)
    rw [← List.head?_filter, hrun, List.head?_flatMap, List.map_findSome?, amounts,
      List.head?_filterMap, List.map_findSome?, ← hw.order, List.findSome?_map]
    refine congrArg (fun g => nodes.findSome? g) (funext fun n => ?_)
    exact head?_dirEvents hnc n
  · have hwalk : walkOrder m = [] := by
      unfold walkOrder
      dsimp only
      rw [if_neg fun h => h1 h.1]
    rw [(run_unreadable (by simpa using h1)).1, amounts, hwalk]
    rfl

end

end Zhaxx.Scan
