import Zhaxx.Scan.Planned

/-!
# Types of freed objects

The scanner frees an object because of the reference that led to it, and each
kind of reference demands a type. Guardrail 5 of the triage guide says that the
scanner never frees an object of another type. The error-log checks test the
type before they free; `plan_orphan_removal` frees whatever it observes.

Results:
* `freesTyped_iff`: every freed object has the type its role demands exactly
  when the structures of every reached orphan do.
* `recycledProps_frees`: a space map recycled from a props ZAP is freed.
-/

namespace Zhaxx.Scan

/-- The observed type is the name `t`, or merely contains it. -/
def Named (whole : Bool) (t : String) (d : ObjDump) : Prop :=
  if whole then d.type = some t else d.hasType t = true

instance (whole : Bool) (t : String) (d : ObjDump) : Decidable (Named whole t d) := by
  unfold Named; infer_instance

/-- The type a role demands. `others` stands for the demands of the roles that
    have none of their own here: the dataset, its `snapnames` ZAP and its deadlist. -/
def Demanded (whole : Bool) (others : FreeRole → ObjDump → Prop) : FreeRole → ObjDump → Prop
  | .errlogHead, d => d.hasType "error log" = true
  | .objsetErrlog, d => d.hasType "error log" = true
  | .orphanDir, d => Named whole "DSL directory" d
  | .orphanProps, d => Named whole "DSL props" d
  | .orphanChildMap, d => Named whole "DSL directory child map" d
  | .orphanDataset, d => others .orphanDataset d
  | .orphanSnapnames, d => others .orphanSnapnames d
  | .orphanDeadlist, d => others .orphanDeadlist d

section

variable (whole : Bool) (others : FreeRole → ObjDump → Prop) (m : Mos)

/-- Every `free` of the plan prints the observed type, and that type is the one
    demanded by every role for which the object is freed. -/
def FreesTyped : Prop :=
  ∀ q ∈ plan m, ∀ N T, q.op = .free N T → (m.get N).typeStr = T ∧
    ∀ p ∈ opsOf (run m), p.op = .free N T → ∀ role, p.role = some role →
      Demanded whole others role (m.get N)

/-- Every structure of the orphan `D` that is observed readable and with a type
    has the type its place demands. -/
def OrphanTyped (D H : ℕ) : Prop :=
  ∀ role x, SubtreeRef m D H role x → (m.get x).readable = true → (m.get x).typeOr ≠ "" →
    Demanded whole others role (m.get x)

/-- The error-log checks free nothing but error logs. -/
theorem ErrlogPlanned.demanded {m : Mos} {N : ℕ} {T : String} {role : FreeRole}
    (h : ErrlogPlanned m (.free N T) (some role)) : Demanded whole others role (m.get N) := by
  cases h with
  | head _ hs => exact hs.1
  | objset _ _ _ ht => exact ht

theorem Planned.free_typeStr {m : Mos} {N : ℕ} {T : String} {role : Option FreeRole}
    (h : Planned m (.free N T) role) : (m.get N).typeStr = T := by
  rw [ObjDump.typeStr, h.free_observed.2, Option.getD_some]

/-- **Types of freed objects.** -/
theorem freesTyped_iff :
    FreesTyped whole others m ↔
      ∀ D H, Reached m D → Orphan m D H → OrphanTyped whole others m D H := by
  constructor
  · intro h D H hD hO role x hx hr ht
    have hp : Planned m (.free x (m.get x).typeStr) (some role) :=
      .dir hD (.orphanFree hO hx hr ht)
    obtain ⟨q, hq, hqo⟩ := mem_plan.mpr ⟨_, hp⟩
    obtain ⟨p, hp', hpo, hpr⟩ := plans_iff_opsOf.mp (plans_run.mpr hp)
    exact (h q hq x _ hqo).2 p hp' hpo role hpr
  · intro h q hq N T hqo
    obtain ⟨r, hr⟩ := mem_plan.mp ⟨q, hq, hqo⟩
    refine ⟨hr.free_typeStr, fun p hp hpo role hrole => ?_⟩
    have hpl : Planned m (.free N T) (some role) :=
      plans_run.mp (plans_iff_opsOf.mpr ⟨p, hp, hpo, hrole⟩)
    cases hpl with
    | errlog he => exact he.demanded whole others
    | dir hD hdir =>
      cases hdir with
      | orphanFree hO hx hrx htx => exact h _ _ hD hO role _ hx hrx htx

end

/-- A pool whose orphan `670` names as its `props_zapobj` an object that was
    recycled as a space map. -/
def recycledProps : Mos := .ofList
  [(1, .ofLines "object directory" [("root_dataset", 32)] false),
    (32, .ofLines "DSL directory" [("child_dir_zapobj", 34)] false),
    (34, .ofLines "DSL directory child map" [("orphan-9f3c1d", 670)] false),
    (670, .ofLines "DSL directory"
      [("head_dataset_obj", 673), ("parent_dir_obj", 32), ("props_zapobj", 671)] false),
    (671, .ofLines "SPA space map" [] false),
    (673, .ofLines "DSL dataset" [] true)]

/-- The space map is freed, whichever way the demanded type is read. -/
theorem recycledProps_frees :
    ¬ FreesTyped true (fun _ _ => True) recycledProps ∧
      ¬ FreesTyped false (fun _ _ => True) recycledProps := by
  have hfree : (⟨.free 671 "SPA space map",
      "free orphan structure (SPA space map) of <root>/orphan-9f3c1d@head",
      some .orphanProps⟩ : PlanOp) ∈ opsOf (run recycledProps) := by
    decide +kernel
  obtain ⟨q, hq, hqo⟩ := mem_dedupeOps.mpr ⟨_, hfree, rfl⟩
  constructor
  · intro h
    have := (h q hq _ _ hqo).2 _ hfree rfl _ rfl
    exact absurd this (by unfold Demanded Named; decide +kernel)
  · intro h
    have := (h q hq _ _ hqo).2 _ hfree rfl _ rfl
    exact absurd this (by unfold Demanded Named; decide +kernel)

end Zhaxx.Scan
