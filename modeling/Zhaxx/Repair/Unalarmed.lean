import Zhaxx.Repair.Written
import Zhaxx.Scan.Alarms
import Zhaxx.Surgeon.Lifecycle

/-!
# Pools without alarms

What the two programs do together on a pool that needs no repair: the scanner writes a plan
file all the same (`scan/zhaxx-scan` lines 600–608), and the surgeon stops at `Plan is empty`
(`surgeon/zhaxx.c` lines 577–580).

Result:
* `unalarmed_run`: the plan of a scan without critical findings makes the surgeon do
  nothing, in either mode.
-/

namespace Zhaxx.Repair

open Scan Surgeon

theorem plan_eq_nil_of_unalarmed {m : Mos} (h : ∀ f ∈ findings m, f.severity ≠ .critical) :
    plan m = [] := by
  rw [List.eq_nil_iff_forall_not_mem]
  intro p hp
  have hplans : Plans (run m) p.op p.role :=
    plans_iff_opsOf.mpr ⟨p, dedupeLoop_sublist.subset hp, rfl, rfl⟩
  obtain ⟨x, ⟨f, hf, hcritical, -⟩, -⟩ := (plans_run.mp hplans).alarmed
  exact h f hf hcritical

/-- A plan file with its header lines only. -/
theorem parsePlan_header :
    (parsePlan ((planLines []).flatMap (· ++ ['\n']))).accepted = true ∧
      (parsePlan ((planLines []).flatMap (· ++ ['\n']))).ops = [] := by
  decide +kernel

/-- **No alarm, no call.** When a scan reports nothing critical, a run of the surgeon with its
    plan file makes no call of `libzpool`, exits with success and leaves the pool alone, with
    `--commit` or without. -/
theorem unalarmed_run {M T : Type*} (L : Libzpool M T) {env : Env M} (imp : Import) {m : Mos}
    {name path : String} {commit : Bool} (hno : ∀ f ∈ findings m, f.severity ≠ .critical)
    (hargs : parseArgs {} env.argv = some ⟨some name, some path, commit⟩)
    (hfile : env.readFile path = some (planText m)) :
    L.calls env imp = [] ∧ L.main env = env.leave 0 none := by
  obtain ⟨hacc, hops⟩ : (parsePlan (planText m)).accepted = true ∧
      (parsePlan (planText m)).ops = [] := by
    rw [planText, plan_eq_nil_of_unalarmed hno]
    exact parsePlan_header
  unfold Libzpool.calls Libzpool.main
  rw [hargs]
  dsimp only
  rw [hfile]
  dsimp only
  rw [hacc, hops]
  exact ⟨rfl, rfl⟩

/-- A pool with a root directory without anything in it. -/
def bareRoot : Mos := .ofList
  [(1, .ofLines "object directory" [("root_dataset", 2)] false),
    (2, .ofLines "DSL directory" [] false)]

/-- A commit with the plan file of that pool. -/
def bareRootCommit : Env (Store String) :=
  { session ["--commit", "--plan", "repair.plan", "tank"] "" with
    readFile := fun _ => some (planText bareRoot) }

theorem unalarmed_run_bareRoot :
    (storeLib String fun t => some t.toList).calls bareRootCommit
        ⟨fun _ => none, fun _ => none⟩ = [] ∧
      (storeLib String fun t => some t.toList).main bareRootCommit =
        bareRootCommit.leave 0 none := by
  have hargs :
      parseArgs {} bareRootCommit.argv = some ⟨some "tank", some "repair.plan", true⟩ := rfl
  exact unalarmed_run _ _ (by decide +kernel) hargs rfl

end Zhaxx.Repair
