import Zhaxx.Scan.Grounds

/-!
# Recycled references

An object number that was freed is used again, so a reference may lead to an object of
another type. The walk compares the type of a child with `DSL directory` and that of a
clone or a head with `DSL dataset`, but asks only whether the type contains that text
(`scan/zhaxx-scan` lines 361, 386 and 424). ZFS has longer type names that do.

Results:
* `childReported_iff`, `cloneReported_iff`: which entries with a readable target are
  reported and removed.
* `recycledReported_iff`: every recycled reference is reported exactly when no recycled
  target has a type name that contains the expected one.
-/

namespace Zhaxx.Scan

open Traverse (emits)

/-! ## References -/

/-- `name → c` is an entry of a readable child map of a directory the walk processes. -/
def ChildRef (m : Mos) (M : ℕ) (name : String) (c : ℕ) : Prop :=
  (∃ D, Reached m D ∧ Ref m D "child_dir_zapobj" M) ∧ (m.get M).readable = true ∧ Entry m M name c

/-- `k → v` is an entry of a readable clones ZAP that the walk checks. -/
def CloneRef (m : Mos) (Z : ℕ) (k : String) (v : ℕ) : Prop :=
  (∃ D, Reached m D ∧ ClonesOf m D Z) ∧ (m.get Z).readable = true ∧ Entry m Z k v

/-- `H` is the head of a directory the walk processes. -/
def HeadRef (m : Mos) (H : ℕ) : Prop := ∃ D, Reached m D ∧ Ref m D "head_dataset_obj" H

/-- The object `v` is readable and its type is another than `type`. -/
def RecycledAs (m : Mos) (type : String) (v : ℕ) : Prop :=
  (m.get v).readable = true ∧ (m.get v).type ≠ some type

/-! ## Reports -/

/-- The check of the child map entry appends a finding and, unless the name is special,
    the entry is removed. -/
def ChildReported (m : Mos) (M : ℕ) (name : String) (c : ℕ) : Prop :=
  (∃ path, ∃ f ∈ findings m, .finding f ∈ emits (childSteps m (.int M) path name c)) ∧
    (name ∉ specialNames → ∃ q ∈ plan m, q.op = .zapRemove M name c)

/-- The check of the clone reference appends a finding and its removal. -/
def CloneReported (m : Mos) (Z : ℕ) (k : String) (v : ℕ) : Prop :=
  ∃ path, cloneFinding Z k v (cloneWhy (m.get v)) path ∈ findings m ∧
    ⟨.zapRemove Z k v, droppedClone (cloneWhy (m.get v)) path, none⟩ ∈ opsOf (run m) ∧
    ∃ q ∈ plan m, q.op = .zapRemove Z k v

section

variable {m : Mos} {Z v : ℕ} {k : String}

theorem childReported_iff {M c : ℕ} {name : String} (href : ChildRef m M name c)
    (hr : (m.get c).readable = true) :
    ChildReported m M name c ↔
      name ∉ specialNames ∧ (m.get c).hasType "DSL directory" = false := by
  have hex := ObjDump.exists_of_readable hr
  constructor
  · rintro ⟨⟨path, f, -, hf⟩, -⟩
    unfold childSteps at hf
    rw [hex] at hf
    split_ifs at hf with hs hno hty
    · exact absurd hf List.not_mem_nil
    · exact absurd hno Bool.false_ne_true
    · exact ⟨hs, by simpa using hty⟩
    · exact absurd hf List.not_mem_nil
  · rintro ⟨hs, hty⟩
    obtain ⟨⟨D, hD, hM⟩, hrM, he⟩ := href
    obtain ⟨path, hpath⟩ := childSteps_subset_run hD hM hrM he
    have hstep : ∀ e ∈ recycledEntry (.int M) path name c (m.get c),
        e ∈ emits (childSteps m (.int M) path name c) := by
      intro e he
      unfold childSteps
      rw [if_neg hs, if_neg (by simp [hex]), if_pos (by simp [hty]), Traverse.emits_map_emit]
      exact he
    constructor
    · have hf := hstep _ List.mem_cons_self
      exact ⟨path, _, mem_findingsOf.mpr (hpath _ hf), hf⟩
    · exact fun _ => zapRemove_mem_plan.mpr ⟨D, hD, .staleChild hM ⟨hrM, he, hs, hty⟩⟩

theorem cloneReported_iff (href : CloneRef m Z k v) (hr : (m.get v).readable = true) :
    CloneReported m Z k v ↔ (m.get v).hasType "DSL dataset" = false := by
  have hds : isDataset (m.get v) = false ↔ (m.get v).hasType "DSL dataset" = false := by
    simp [isDataset, hr]
  constructor
  · rintro ⟨path, -, hop, -⟩
    obtain ⟨D, -, -, hd, -⟩ := droppedClone_mem_run ⟨path, mem_opsOf.mp hop⟩
    exact hds.mp hd.2.2
  · intro hty
    obtain ⟨⟨D, hD, hZ⟩, hrZ, he⟩ := href
    have hd : DanglingClone m Z k v := ⟨hrZ, he, hds.mpr hty⟩
    obtain ⟨path, hpath⟩ := checkClonesZap_subset_run hD hZ
    have hop : addOp (.zapRemove Z k v) (droppedClone (cloneWhy (m.get v)) path) ∈ run m :=
      hpath _ (mem_checkClonesZap hd (.inr rfl))
    refine ⟨path, mem_findingsOf.mpr (hpath _ (mem_checkClonesZap hd (.inl rfl))),
      mem_opsOf.mpr hop, mem_plan.mpr ⟨none, plans_run.mp ⟨_, hop⟩⟩⟩

end

/-- Every recycled reference is reported. With `named`, a finding is asked for the special
    names of a child map as well, for which no removal is. -/
def RecycledReported (named : Bool) (m : Mos) : Prop :=
  (∀ M name c, ChildRef m M name c → (named = true ∨ name ∉ specialNames) →
    RecycledAs m "DSL directory" c → ChildReported m M name c) ∧
  (∀ Z k v, CloneRef m Z k v → RecycledAs m "DSL dataset" v → CloneReported m Z k v) ∧
  (∀ H, HeadRef m H → RecycledAs m "DSL dataset" H → ∃ path, recycledHead m H path ∈ findings m)

/-- **Recycled references.** They are detected except under a special name and where the
    type contains the expected one. -/
theorem recycledReported_iff (named : Bool) (m : Mos) :
    RecycledReported named m ↔
      (∀ M name c, ChildRef m M name c → (named = true ∨ name ∉ specialNames) →
        RecycledAs m "DSL directory" c →
          name ∉ specialNames ∧ (m.get c).hasType "DSL directory" = false) ∧
      (∀ Z k v, CloneRef m Z k v → RecycledAs m "DSL dataset" v →
        (m.get v).hasType "DSL dataset" = false) ∧
      ∀ H, HeadRef m H → RecycledAs m "DSL dataset" H →
        (m.get H).hasType "DSL dataset" = false := by
  unfold RecycledReported
  refine and_congr ?_ (and_congr ?_ ?_)
  · refine forall₃_congr fun M name c => forall₃_congr fun href _ hrec => ?_
    exact childReported_iff href hrec.1
  · refine forall₃_congr fun Z k v => forall₂_congr fun href hrec => ?_
    exact cloneReported_iff href hrec.1
  · refine forall₃_congr fun H href hrec => ?_
    have hmem := recycledHead_mem_run (m := m) (H := H)
    simp only [findings, mem_findingsOf, hmem]
    constructor
    · rintro ⟨-, -, -, -, hty⟩
      exact hty
    · intro hty
      obtain ⟨D, hD, hH⟩ := href
      exact ⟨D, hD, hH, hrec.1, hty⟩

/-- A pool whose root names an object that was recycled as a child map, and whose head one
    that was recycled as a `next_clones` ZAP. -/
def recycledNames : Mos := .ofList
  [(1, .ofLines "object directory" [("root_dataset", 32)] false),
    (32, .ofLines "DSL directory" [("child_dir_zapobj", 34), ("head_dataset_obj", 33)] false),
    (33, .ofLines "DSL dataset next clones" [] false),
    (34, .ofLines "DSL directory child map" [("data", 40)] false),
    (40, .ofLines "DSL directory child map" [] false)]

/-- Neither is reported. -/
theorem recycledNames_missed : findings recycledNames = [] ∧
    ¬ RecycledReported true recycledNames ∧ ¬ RecycledReported false recycledNames := by
  have hclean : findings recycledNames = [] := by decide +kernel
  have hD : Reached recycledNames 32 :=
    .root (by decide +kernel) (by decide +kernel) (by decide +kernel)
  have hH : HeadRef recycledNames 33 := ⟨32, hD, by decide +kernel⟩
  have hrec : RecycledAs recycledNames "DSL dataset" 33 := ⟨by decide +kernel, by decide +kernel⟩
  have hmissed : ∀ named, ¬ RecycledReported named recycledNames := by
    rintro named ⟨-, -, hheads⟩
    obtain ⟨path, hf⟩ := hheads 33 hH hrec
    rw [hclean] at hf
    exact absurd hf List.not_mem_nil
  exact ⟨hclean, hmissed true, hmissed false⟩

end Zhaxx.Scan
