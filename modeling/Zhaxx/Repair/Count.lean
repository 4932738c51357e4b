import Mathlib.Data.Int.ModEq
import Mathlib.Data.Set.Card
import Zhaxx.Repair.Outcome
import Zhaxx.Scan.Accounts
import Zhaxx.Scan.Roles

/-!
# Child counts after a repair

Every removal from a `next_clones` ZAP is to be paid for in `ds_num_children` of its
dataset. A `bonus_set` names the count to be written, computed from the observed one, and
`dedupe_ops` keeps the first of equal lines (`scan/zhaxx-scan` lines 391–400, 466–481 and
543–549), so the last amount that is new decides the count.

Results:
* `numChildren_repaired`: the count after the plan is the observed one less `lastAmount`.
* `countsKept_iff`: the counts are right exactly when that is the number of entries the
  walk drops.
* `twoOrphans_miscounted`: two orphans of one origin are paid for once.
-/

namespace Zhaxx.Repair

open Scan Surgeon CText

/-! ## The property -/

/-- The keys the plan removes from the `next_clones` ZAP of `S`, each once. -/
def removedNext (m : Mos) (S : ℕ) : List String :=
  ((ops m).filterMap fun op => match op with
    | .zapRemove obj key _ => if Ref m S "next_clones_obj" obj then some key else none
    | _ => none).dedup

/-- Every DSL dataset that stays has its old child count less the number of entries removed
    from its `next_clones` ZAP. The field is a `uint64_t`; `whole` is how the type is read. -/
def CountsKept (whole : Bool) (m : Mos) : Prop :=
  ∀ S nc, Named whole "DSL dataset" (m.get S) → Allocated m S →
    (m.get S).numChildren = some nc → ∃ n, (repaired m).numChildren S = some n ∧
      (n : ℤ) ≡ nc - (removedNext m S).length [ZMOD 2 ^ 64]

/-! ## What is accounted for -/

/-- The entries of the `next_clones` ZAP of `S` the walk has a reason to drop. -/
def dueNext (m : Mos) (S : ℕ) : Set String :=
  {k | ∃ Z v, Ref m S "next_clones_obj" Z ∧ Due m Z k v}

/-- The amount that stays when each amount is subtracted once, from the same count: the
    first one that differs from the first. -/
def lastAmount : List ℕ → ℕ
  | [] => 0
  | a :: as => (as.find? (· ≠ a)).getD a

/-- The walk accounts for the entries it drops from `next_clones` ZAPs. -/
def DropsAccounted (whole : Bool) (m : Mos) : Prop :=
  ∀ S nc, Named whole "DSL dataset" (m.get S) → ¬ Condemned m S →
    (m.get S).numChildren = some nc → lastAmount (amounts m S) ≡ (dueNext m S).ncard [MOD 2 ^ 64]

section

variable {m : Mos} {S nc : ℕ}

theorem mem_removedNext {k : String} : k ∈ removedNext m S ↔ k ∈ dueNext m S := by
  simp only [removedNext, List.mem_dedup, List.mem_filterMap, dueNext, Set.mem_ofPred_eq]
  constructor
  · rintro ⟨op, hop, hk⟩
    cases op with
    | zapRemove obj key v =>
      dsimp only at hk
      split_ifs at hk with hZ
      cases hk
      exact ⟨obj, v, hZ, zapRemove_mem_ops.mp hop⟩
    | _ => cases hk
  · rintro ⟨Z, v, hZ, hdue⟩
    exact ⟨_, zapRemove_mem_ops.mpr hdue, if_pos hZ⟩

/-- What is removed is what was due. -/
theorem removedNext_length : (removedNext m S).length = (dueNext m S).ncard := by
  have hset : dueNext m S = ((removedNext m S).toFinset : Set String) := by
    ext k
    rw [Finset.mem_coe, List.mem_toFinset, mem_removedNext]
  have hnd : (removedNext m S).Nodup := List.nodup_dedup _
  rw [hset, Set.ncard_coe_finset, List.toFinset_card_of_nodup hnd]

/-! ## The count after the plan -/

theorem toU64_modEq (z : ℤ) : (toU64 z : ℤ) ≡ z [ZMOD 2 ^ 64] := by
  rw [toU64, Int.toNat_of_nonneg (Int.emod_nonneg _ (by decide))]
  exact Int.mod_modEq z _

/-- Only an object that was dumped has a child count. -/
theorem exists_of_numChildren (hnc : (m.get S).numChildren = some nc) :
    (m.get S).exists_ = true := by
  refine ObjDump.exists_of_ne_missing fun hmiss => ?_
  rw [hmiss] at hnc
  cases hnc

/-- What an operation of the scanner writes into `ds_num_children`. -/
theorem countWrite_eq_none {op : Op} (h : op.setsCount S = false) :
    (op.toOpT.countWrite S).map some = none := by
  have hno : ¬ (op.toOpT.kind = .bonusSet ∧ op.toOpT.obj = S) := by
    rintro ⟨hk, rfl⟩
    cases op with
    | bonusSet => simp [Op.setsCount, Op.toOpT] at h
    | _ => cases hk
  rw [OpT.countWrite, if_neg hno]
  rfl

theorem countWrite_bonusSet (e : ℕ) (v : ℤ) :
    ((Op.bonusSet S e v).toOpT.countWrite S).map some = some (some (toU64 v)) := by
  rw [OpT.countWrite, if_pos ⟨rfl, rfl⟩]
  rfl

/-- The child counts the plan sets for `S`. -/
theorem mem_setsCount (hnc : (m.get S).numChildren = some nc) {op : Op} :
    op ∈ (ops m).filter (Op.setsCount S) ↔ (m.get mosDirObj).readable = true ∧
      ∃ a ∈ amounts m S, op = .bonusSet S nc ((nc : ℤ) - a) := by
  rw [List.mem_filter, setsCount_iff]
  constructor
  · rintro ⟨hop, e, v, rfl⟩
    obtain ⟨h1, rfl, a, ha, rfl⟩ := (mem_amounts hnc).mp (mem_ops.mp hop)
    exact ⟨h1, a, ha, rfl⟩
  · rintro ⟨h1, a, ha, rfl⟩
    exact ⟨mem_ops.mpr ((mem_amounts hnc).mpr ⟨h1, rfl, a, ha, rfl⟩), _, _, rfl⟩

theorem head?_setsCount (hnc : (m.get S).numChildren = some nc) :
    ((ops m).filter (Op.setsCount S)).head? =
      (amounts m S).head?.map fun a => .bonusSet S nc ((nc : ℤ) - a) := by
  rw [List.head?_filter, ops, List.find?_map]
  exact find?_setsCount hnc

/-- The child counts the plan sets for `S`, in order: the first amount, then those that
    are new. -/
theorem setsCount_cons (hnc : (m.get S).numChildren = some nc) {a : ℕ} {as : List ℕ}
    (has : amounts m S = a :: as) : ∃ rest,
      (ops m).filter (Op.setsCount S) = .bonusSet S nc ((nc : ℤ) - a) :: rest ∧
      ∀ op, op ∈ rest ↔ ∃ c ∈ as, c ≠ a ∧ op = .bonusSet S nc ((nc : ℤ) - c) := by
  have hhead := head?_setsCount hnc
  have hnd := (ops_nodup m).filter (Op.setsCount S)
  rw [has] at hhead
  cases hl : (ops m).filter (Op.setsCount S) with
  | nil => rw [hl] at hhead; cases hhead
  | cons op rest =>
    rw [hl] at hhead hnd
    obtain rfl : op = .bonusSet S nc ((nc : ℤ) - a) := Option.some.inj hhead
    have hmem := fun op => @mem_setsCount m S nc hnc op
    rw [hl, has] at hmem
    have h1 := ((hmem _).mp List.mem_cons_self).1
    refine ⟨rest, rfl, fun op => ⟨fun hop => ?_, ?_⟩⟩
    · obtain ⟨-, c, hc, rfl⟩ := (hmem op).mp (List.mem_cons_of_mem _ hop)
      have hca : c ≠ a := fun h => (List.nodup_cons.mp hnd).1 (h ▸ hop)
      exact ⟨c, List.mem_of_ne_of_mem hca hc, hca, rfl⟩
    · rintro ⟨c, hc, hca, rfl⟩
      refine List.mem_of_ne_of_mem (fun he => ?_)
        ((hmem _).mpr ⟨h1, c, List.mem_cons_of_mem _ hc, rfl⟩)
      injection he
      omega

/-- The amounts but the first that differ from it are equal. -/
theorem amounts_eq {a b c : ℕ} (ha : a ∈ amounts m S) (hb : b ∈ amounts m S)
    (hc : c ∈ amounts m S) (hba : b ≠ a) (hca : c ≠ a) : c = b := by
  obtain ⟨_, -, ha⟩ := List.mem_filterMap.mp ha
  obtain ⟨_, -, hb⟩ := List.mem_filterMap.mp hb
  obtain ⟨_, -, hc⟩ := List.mem_filterMap.mp hc
  rcases amount_cases ha with ha | ha <;> rcases amount_cases hb with hb | hb <;>
    rcases amount_cases hc with hc | hc <;> omega

/-- The last child count the plan sets for `S`. -/
theorem last_setsCount (hnc : (m.get S).numChildren = some nc) (hne : amounts m S ≠ []) :
    LastWrite.last (fun op : Op => (op.toOpT.countWrite S).map some) (some nc)
      ((ops m).filter (Op.setsCount S)) =
      some (toU64 ((nc : ℤ) - lastAmount (amounts m S))) := by
  obtain ⟨a, as, has⟩ := List.exists_cons_of_ne_nil hne
  obtain ⟨rest, hl, hrest⟩ := setsCount_cons hnc has
  rw [hl, has, lastAmount, LastWrite.last_cons, countWrite_bonusSet, Option.getD_some]
  cases hf : as.find? (· ≠ a) with
  | none =>
    have hnil : rest = [] := by
      rw [List.eq_nil_iff_forall_not_mem]
      intro op hop
      obtain ⟨c, hc, hca, -⟩ := (hrest op).mp hop
      exact absurd hca (by simpa using List.find?_eq_none.mp hf c hc)
    rw [hnil]
    rfl
  | some b =>
    have hb := List.mem_of_find?_eq_some hf
    have hba : b ≠ a := by simpa using List.find?_some hf
    have hmem : ∀ {c}, c ∈ as → c ∈ amounts m S := fun hc => has ▸ List.mem_cons_of_mem _ hc
    refine LastWrite.last_of_forall_eq
      (List.ne_nil_of_mem ((hrest _).mpr ⟨b, hb, hba, rfl⟩)) fun op hop => ?_
    obtain ⟨c, hc, hca, rfl⟩ := (hrest op).mp hop
    rw [amounts_eq (has ▸ List.mem_cons_self) (hmem hb) (hmem hc) hba hca, countWrite_bonusSet]
    rfl

/-- **The child count after the plan.** -/
theorem numChildren_repaired (hS : ¬ Condemned m S) (hnc : (m.get S).numChildren = some nc) :
    ∃ n, (repaired m).numChildren S = some n ∧
      (n : ℤ) ≡ nc - lastAmount (amounts m S) [ZMOD 2 ^ 64] := by
  have hstays : (repaired m).numChildren S ≠ none := by
    rw [repaired, Store.foldl_numChildren_ne_none]
    · exact fun h => Option.some_ne_none nc (hnc.symm.trans h)
    · rw [forall_orders]
      rintro op hop hf
      obtain ⟨t, rfl⟩ := frees_iff.mp hf
      exact hS (condemned_iff.mpr ⟨t, hop⟩)
  have hlast : (repaired m).numChildren S =
      LastWrite.last (fun op : Op => (op.toOpT.countWrite S).map some) (some nc)
        ((ops m).filter (Op.setsCount S)) := by
    rw [LastWrite.last_filter fun op h => countWrite_eq_none h, ← hnc]
    rw [repaired] at hstays ⊢
    rw [Store.foldl_numChildren_last hstays, orders, LastWrite.last_map]
    rfl
  by_cases hne : amounts m S = []
  · have hnil : (ops m).filter (Op.setsCount S) = [] := by
      rw [List.eq_nil_iff_forall_not_mem]
      intro op hop
      obtain ⟨-, a, ha, -⟩ := (mem_setsCount hnc).mp hop
      rw [hne] at ha
      cases ha
    refine ⟨nc, by rw [hlast, hnil]; rfl, ?_⟩
    rw [hne, lastAmount, Int.natCast_zero, Int.sub_zero]
  · exact ⟨_, by rw [hlast, last_setsCount hnc hne], toU64_modEq _⟩

end

/-- **Child counts after a repair.** -/
theorem countsKept_iff (whole : Bool) (m : Mos) : CountsKept whole m ↔ DropsAccounted whole m := by
  have hstays : ∀ {S nc}, (m.get S).numChildren = some nc →
      (Allocated m S ↔ ¬ Condemned m S) := by
    intro S nc hnc
    rw [allocated_iff, and_iff_right (exists_of_numChildren hnc)]
  have hcount : ∀ {S nc}, ¬ Condemned m S → (m.get S).numChildren = some nc →
      ((∃ n, (repaired m).numChildren S = some n ∧
        (n : ℤ) ≡ nc - (removedNext m S).length [ZMOD 2 ^ 64]) ↔
      lastAmount (amounts m S) ≡ (dueNext m S).ncard [MOD 2 ^ 64]) := by
    intro S nc hS hnc
    obtain ⟨n, hn, hmod⟩ := numChildren_repaired hS hnc
    rw [← Int.natCast_modEq_iff, removedNext_length]
    constructor
    · rintro ⟨n', hn', h⟩
      cases hn.symm.trans hn'
      simpa using (hmod.symm.trans h).sub_left nc
    · intro h
      exact ⟨n, hn, hmod.trans (h.sub_left nc)⟩
  constructor
  · intro h S nc ht hS hnc
    exact (hcount hS hnc).mp (h S nc ht ((hstays hnc).mpr hS) hnc)
  · intro h S nc ht hS hnc
    have hcon := (hstays hnc).mp hS
    exact (hcount hcon hnc).mpr (h S nc ht hcon hnc)

/-- A pool whose snapshot `512` is the origin of the orphans `670` and `680`. -/
def twoOrphans : Mos := .ofList
  [(1, .ofLines "object directory" [("root_dataset", 32)] false),
    (32, .ofLines "DSL directory" [("child_dir_zapobj", 34)] false),
    (34, .ofLines "DSL directory child map" [("vm", 670), ("web", 680)] false),
    (512, .ofLines "DSL dataset" [("next_clones_obj", 515), ("num_children", 3)] false),
    (515, .ofLines "DSL dataset next clones" [("2a1", 673), ("2ab", 683)] false),
    (670, .ofLines "DSL directory"
      [("head_dataset_obj", 673), ("parent_dir_obj", 32), ("origin_obj", 512)] false),
    (673, .ofLines "DSL dataset" [("num_children", 0)] true),
    (680, .ofLines "DSL directory"
      [("head_dataset_obj", 683), ("parent_dir_obj", 32), ("origin_obj", 512)] false),
    (683, .ofLines "DSL dataset" [("num_children", 0)] true)]

/-- Every dataset has a child count, two entries are removed, and one is subtracted. -/
theorem twoOrphans_miscounted :
    (∀ S, Named true "DSL dataset" (twoOrphans.get S) → (twoOrphans.get S).numChildren ≠ none) ∧
      ∀ whole, ¬ CountsKept whole twoOrphans := by
  have hcounts : ∀ S ∈ twoOrphans.objs.entries.map Prod.fst,
      (twoOrphans.get S).type = some "DSL dataset" →
        (twoOrphans.get S).numChildren ≠ none := by decide +kernel
  refine ⟨fun S ht => hcounts S (Mos.get_mem ?_) ht, fun whole h => ?_⟩
  · refine ObjDump.exists_of_ne_missing fun hmiss => ?_
    rw [hmiss] at ht
    cases ht
  have hnamed : Named whole "DSL dataset" (twoOrphans.get 512) := by
    cases whole <;> decide +kernel
  obtain ⟨n, hn, hmod⟩ := h 512 3 hnamed (by decide +kernel) (by decide +kernel)
  have hleft : (repaired twoOrphans).numChildren 512 = some 2 := by decide +kernel
  have hremoved : (removedNext twoOrphans 512).length = 2 := by decide +kernel
  cases hleft.symm.trans hn
  rw [hremoved] at hmod
  exact absurd hmod (by decide)

end Zhaxx.Repair
