import Zhaxx.Repair.Outcome
import Zhaxx.Scan.Order

/-!
# The namespace after a repair

`plan_orphan_removal` frees the directory of an orphan with its child map, and finds the
entry that names the orphan through its `parent_dir_obj` (`scan/zhaxx-scan` lines
449–460). The entry that led the walk to the orphan is another one when the
back-reference is wrong or missing, and the `root_dataset` entry is never removed. What
lies below the orphan is not looked at.

Results:
* `noNewDangling_iff`: no entry that stays is left dangling exactly when every entry of a
  condemned directory goes; the entry of an orphan is dropped before its directory is freed.
* `orphanedRoot_dangles`: the entry of an orphaned root directory is left dangling.
* `healthyKept_iff`: no healthy dataset is lost exactly when each has a path that the
  plan spares.
* `nestedHealthy_lost`: a healthy dataset below an orphan is lost.
-/

namespace Zhaxx.Repair

open Scan CText

/-! ## Dangling entries -/

/-- The entry names an existing DSL directory: it is the `root_dataset` entry, or one of
    the child map of a directory below the root. -/
inductive NamespaceEntry (m : Mos) : ℕ → String → ℕ → Prop
  | root {c : ℕ} : Entry m mosDirObj "root_dataset" c → (m.get c).hasType "DSL directory" = true →
      NamespaceEntry m mosDirObj "root_dataset" c
  | child {D M c : ℕ} {name : String} : Linked m D → (m.get D).hasType "DSL directory" = true →
      Ref m D "child_dir_zapobj" M → Entry m M name c →
      (m.get c).hasType "DSL directory" = true → NamespaceEntry m M name c

/-- Every namespace entry that is left names an object that is left. -/
def NoNewDangling (m : Mos) : Prop :=
  ∀ Z k v, NamespaceEntry m Z k v → Remains m Z k v → Allocated m v

/-- Every namespace entry of a condemned directory goes. -/
def CondemnedUnlinked (m : Mos) : Prop :=
  ∀ Z k v, NamespaceEntry m Z k v → Condemned m v → Goes m Z k v

/-- Every planned free of a directory stands behind the removals of the namespace entries
    that name it. -/
def RemovedFirst (m : Mos) : Prop :=
  ∀ Z k v t, NamespaceEntry m Z k v → Op.free v t ∈ ops m →
    ∃ pre post, ops m = pre ++ .free v t :: post ∧ .zapRemove Z k v ∈ pre

/-- The directory `v` is condemned as an orphan and as nothing else, and its parent link
    leads to the child map `Z`. -/
structure OwnOrphan (m : Mos) (Z v : ℕ) : Prop where
  orphan : Reached m v ∧ ∃ H, Orphan m v H
  map : ParentMap m v Z
  notLog : (m.get v).hasType "error log" = false
  own : ∀ D H role, Reached m D → Orphan m D H → SubtreeRef m D H role v → D = v

/-- Every namespace entry of a condemned directory is the one its parent link leads to. -/
def OrphansUnlinked (m : Mos) : Prop :=
  ∀ Z k v, NamespaceEntry m Z k v → Condemned m v → OwnOrphan m Z v

section

variable {m : Mos}

/-- The first operation of two is in front of the other. -/
theorem mem_pre_of_find? {a b : Op} (hne : a ≠ b) (hb : b ∈ ops m)
    (h : ((plan m).find? fun p => decide (p.op = a ∨ p.op = b)).map PlanOp.op = some a) :
    ∃ pre post, ops m = pre ++ b :: post ∧ a ∈ pre := by
  have hfind : (ops m).find? (fun op => decide (op = a ∨ op = b)) = some a := by
    rw [ops, List.find?_map]
    exact h
  obtain ⟨-, pre, post, hsplit, hpre⟩ := List.find?_eq_some_iff_append.mp hfind
  rw [hsplit, List.mem_append, List.mem_cons] at hb
  rcases hb with hb | rfl | hb
  · have := hpre b hb
    simp at this
  · exact absurd rfl hne
  · obtain ⟨mid, post', rfl⟩ := List.append_of_mem hb
    exact ⟨pre ++ a :: mid, post', by rw [hsplit, List.append_assoc, List.cons_append],
      List.mem_append_right _ List.mem_cons_self⟩

theorem OwnOrphan.removed_first {Z v : ℕ} {k t : String} (h : OwnOrphan m Z v)
    (he : Entry m Z k v) (hfree : Op.free v t ∈ ops m) :
    ∃ pre post, ops m = pre ++ .free v t :: post ∧ .zapRemove Z k v ∈ pre := by
  obtain ⟨hv, H, hO⟩ := h.orphan
  refine mem_pre_of_find? (fun h => by cases h) hfree (find?_orphanName hv hO h.map he ?_ ?_)
  · intro role herr
    cases herr with
    | head _ hs => exact absurd (h.notLog.symm.trans hs.1) (by decide)
    | objset _ _ _ ht => exact absurd (h.notLog.symm.trans ht) (by decide)
  · intro D role hD hp
    cases hp with
    | orphanFree hO hx => exact h.own D _ _ hD hO hx

theorem NamespaceEntry.entry {Z v : ℕ} {k : String} (h : NamespaceEntry m Z k v) :
    Entry m Z k v := by
  cases h <;> assumption

theorem NamespaceEntry.exists_ {Z v : ℕ} {k : String} (h : NamespaceEntry m Z k v) :
    (m.get v).exists_ = true := by
  cases h with
  | root _ ht => exact ObjDump.exists_of_hasType (by decide) ht
  | child _ _ _ _ ht => exact ObjDump.exists_of_hasType (by decide) ht

end

/-- **Dangling entries after a repair.** They are those of condemned directories that the
    plan keeps; where every condemned directory is an orphan that only its parent names,
    the entries are dropped before the frees. -/
theorem noNewDangling_iff (m : Mos) : (NoNewDangling m ↔ CondemnedUnlinked m) ∧
    (OrphansUnlinked m → RemovedFirst m) := by
  refine ⟨⟨fun h Z k v he hv => ?_, fun h Z k v he hr => ?_⟩, fun h Z k v t he hfree => ?_⟩
  · by_contra hstay
    exact (allocated_iff.mp (h Z k v he (remains_iff.mpr ⟨he.entry, hstay⟩))).2 hv
  · exact allocated_iff.mpr ⟨he.exists_, fun hv => (remains_iff.mp hr).2 (h Z k v he hv)⟩
  · exact (h Z k v he (condemned_iff.mpr ⟨t, hfree⟩)).removed_first he.entry hfree

/-- A pool whose root directory has an unreadable head. -/
def orphanedRoot : Mos := .ofList
  [(1, .ofLines "object directory" [("root_dataset", 32)] false),
    (32, .ofLines "DSL directory" [("head_dataset_obj", 33)] false),
    (33, .ofLines "DSL dataset" [] true)]

/-- The root directory is freed and its entry stays. -/
theorem orphanedRoot_dangles : ¬ NoNewDangling orphanedRoot ∧ ¬ RemovedFirst orphanedRoot := by
  have hentry : NamespaceEntry orphanedRoot mosDirObj "root_dataset" 32 :=
    .root (by decide +kernel) (by decide +kernel)
  have hstays : Remains orphanedRoot mosDirObj "root_dataset" 32 :=
    ⟨hentry.entry, by decide +kernel⟩
  have hops : ops orphanedRoot = [.free 32 "DSL directory"] := by decide +kernel
  refine ⟨fun h => h _ _ _ hentry hstays (by decide +kernel), fun h => ?_⟩
  obtain ⟨pre, post, hsplit, hmem⟩ := h _ _ _ "DSL directory" hentry (hops ▸ List.mem_cons_self)
  have hremoved := hsplit ▸ List.mem_append_left (_ :: post) hmem
  rw [hops, List.mem_singleton] at hremoved
  cases hremoved

/-! ## Healthy datasets -/

/-- A readable object whose type is `t`. -/
def Whole (m : Mos) (t : String) (x : ℕ) : Prop :=
  (m.get x).readable = true ∧ (m.get x).type = some t

instance (m : Mos) (t : String) (x : ℕ) : Decidable (Whole m t x) := by
  unfold Whole; infer_instance

/-- Directories on a path from the root on which everything is readable. -/
inductive HealthyDir (m : Mos) : ℕ → Prop
  | root : rootDataset m ≠ 0 → Whole m "DSL directory" (rootDataset m) →
      HealthyDir m (rootDataset m)
  | child {D M c : ℕ} {name : String} : HealthyDir m D → Ref m D "child_dir_zapobj" M →
      (m.get M).readable = true → Entry m M name c → name ∉ specialNames →
      Whole m "DSL directory" c → HealthyDir m c

/-- The directory `D` is healthy, with the head `H`. -/
structure Healthy (m : Mos) (D H : ℕ) : Prop where
  dir : HealthyDir m D
  ref : Ref m D "head_dataset_obj" H
  head : Whole m "DSL dataset" H

/-- The directories that can be reached after the repair, through entries that are left
    in objects that are left. -/
inductive StillReached (m : Mos) : ℕ → Prop
  | root : Remains m mosDirObj "root_dataset" (rootDataset m) → Allocated m (rootDataset m) →
      (m.get (rootDataset m)).hasType "DSL directory" = true → StillReached m (rootDataset m)
  | child {D M c : ℕ} {name : String} : StillReached m D → Ref m D "child_dir_zapobj" M →
      Allocated m M → Remains m M name c → Allocated m c →
      (m.get c).hasType "DSL directory" = true → StillReached m c

/-- Every healthy directory and its head are left, and the directory can be reached. -/
def HealthyKept (m : Mos) : Prop :=
  ∀ D H, Healthy m D H → Allocated m D ∧ Allocated m H ∧ StillReached m D

/-- Directories on a path from the root that the plan spares: none of its directories is
    condemned and none of its entries goes. -/
inductive SparedDir (m : Mos) : ℕ → Prop
  | root : Entry m mosDirObj "root_dataset" (rootDataset m) →
      ¬ Goes m mosDirObj "root_dataset" (rootDataset m) → ¬ Condemned m (rootDataset m) →
      (m.get (rootDataset m)).hasType "DSL directory" = true → SparedDir m (rootDataset m)
  | child {D M c : ℕ} {name : String} : SparedDir m D → Ref m D "child_dir_zapobj" M →
      Entry m M name c → ¬ Goes m M name c → ¬ Condemned m c →
      (m.get c).hasType "DSL directory" = true → SparedDir m c

section

variable {m : Mos}

theorem HealthyDir.whole {D : ℕ} (h : HealthyDir m D) : Whole m "DSL directory" D := by
  cases h <;> assumption

theorem Whole.exists_ {t : String} {x : ℕ} (h : Whole m t x) : (m.get x).exists_ = true :=
  ObjDump.exists_of_readable h.1

/-- What can be reached after the repair is what has a spared path. -/
theorem stillReached_iff {D : ℕ} : StillReached m D ↔ SparedDir m D := by
  constructor
  · intro h
    induction h with
    | root he hr ht =>
      obtain ⟨hentry, hstays⟩ := remains_iff.mp he
      exact .root hentry hstays (allocated_iff.mp hr).2 ht
    | child _ hM _ he hc ht ih =>
      obtain ⟨hentry, hstays⟩ := remains_iff.mp he
      exact .child ih hM hentry hstays (allocated_iff.mp hc).2 ht
  · intro h
    induction h with
    | root he hstays hr ht =>
      exact .root (remains_iff.mpr ⟨he, hstays⟩)
        (allocated_iff.mpr ⟨ObjDump.exists_of_hasType (by decide) ht, hr⟩) ht
    | child _ hM he hstays hc ht ih =>
      have hmap := allocated_iff.mpr
        ⟨ObjDump.exists_of_mem_zap he, fun h => hstays (.condemned h)⟩
      exact .child ih hM hmap (remains_iff.mpr ⟨he, hstays⟩)
        (allocated_iff.mpr ⟨ObjDump.exists_of_hasType (by decide) ht, hc⟩) ht

end

/-- **Healthy datasets after a repair.** -/
theorem healthyKept_iff (m : Mos) : HealthyKept m ↔
    ∀ D H, Healthy m D H → ¬ Condemned m H ∧ SparedDir m D := by
  have hspared : ∀ {D}, SparedDir m D → ¬ Condemned m D := fun h => by cases h <;> assumption
  unfold HealthyKept
  refine forall_congr' fun D => forall_congr' fun H => forall_congr' fun hh => ?_
  rw [allocated_iff, allocated_iff, stillReached_iff]
  constructor
  · rintro ⟨-, ⟨-, hH⟩, hs⟩
    exact ⟨hH, hs⟩
  · rintro ⟨hH, hs⟩
    exact ⟨⟨hh.dir.whole.exists_, hspared hs⟩, ⟨hh.head.exists_, hH⟩, hs⟩

/-- A pool whose orphan `670` has the healthy directory `700` in its child map. -/
def nestedHealthy : Mos := .ofList
  [(1, .ofLines "object directory" [("root_dataset", 32)] false),
    (32, .ofLines "DSL directory" [("child_dir_zapobj", 34)] false),
    (34, .ofLines "DSL directory child map" [("vm", 670)] false),
    (670, .ofLines "DSL directory"
      [("head_dataset_obj", 673), ("parent_dir_obj", 32), ("child_dir_zapobj", 675)] false),
    (673, .ofLines "DSL dataset" [] true),
    (675, .ofLines "DSL directory child map" [("disk", 700)] false),
    (700, .ofLines "DSL directory" [("head_dataset_obj", 703), ("parent_dir_obj", 670)] false),
    (703, .ofLines "DSL dataset" [] false)]

/-- Nothing leads to the healthy directory any more. -/
theorem nestedHealthy_lost : ¬ HealthyKept nestedHealthy := by
  have h670 : HealthyDir nestedHealthy 670 :=
    .child (D := 32) (M := 34) (.root (by decide +kernel) (by decide +kernel))
      (by decide +kernel) (by decide +kernel)
      (show Entry nestedHealthy 34 "vm" 670 by decide +kernel)
      (by decide) (by decide +kernel)
  have h700 : Healthy nestedHealthy 700 703 :=
    ⟨.child (D := 670) (M := 675) h670 (by decide +kernel) (by decide +kernel)
      (show Entry nestedHealthy 675 "disk" 700 by decide +kernel) (by decide) (by decide +kernel),
      by decide +kernel, by decide +kernel⟩
  have honly : ∀ D, StillReached nestedHealthy D → D = 32 := by
    intro D hD
    induction hD with
    | root => decide +kernel
    | child _ hM _ he hc _ ih =>
      subst ih
      have h34 : Ref nestedHealthy 32 "child_dir_zapobj" 34 := by decide +kernel
      have hzap : (nestedHealthy.get 34).zap.entries = [("vm", 670)] := by decide +kernel
      have hgone : (repaired nestedHealthy).type 670 = none := by decide +kernel
      have hentry := he.1
      rw [hM.unique h34, Entry, hzap, List.mem_singleton] at hentry
      cases hentry
      exact absurd hgone hc
  intro h
  exact absurd (honly 700 (h 700 703 h700).2.2) (by decide)

end Zhaxx.Repair
