import Mathlib.Data.Set.Basic
import Zhaxx.Scan.Planned

/-!
# The planned reference removals

Result:
* `zapRemove_plan_eq`: the `zap_remove` operations of a plan are the stale child
  entries, the dangling clone entries and the references to orphans of the
  directories that are `Reached`, and nothing else.
-/

namespace Zhaxx.Scan

/-- The walk of some reached directory has a reason to drop the entry `k → v`. -/
def Due (m : Mos) (Z : ℕ) (k : String) (v : ℕ) : Prop :=
  ∃ D, Reached m D ∧ DirPlanned m D (.zapRemove Z k v) none

/-- The ZAP entries `(obj, key, expect)` a plan removes. -/
def removals (m : Mos) : Set (ℕ × String × ℕ) :=
  {r | ∃ p ∈ plan m, p.op = .zapRemove r.1 r.2.1 r.2.2}

/-- Non-special entries of the readable child map of a reached directory whose
    target does not exist or is no DSL directory. -/
def childRemovals (m : Mos) : Set (ℕ × String × ℕ) :=
  {(M, name, c) | ∃ D, Reached m D ∧ Ref m D "child_dir_zapobj" M ∧
    (m.get M).readable = true ∧ Entry m M name c ∧ name ∉ specialNames ∧
    ((m.get c).exists_ = false ∨ (m.get c).hasType "DSL directory" = false)}

/-- Entries of the readable clones ZAP of a reached directory, or of the readable
    `next_clones` ZAP of its readable head dataset, whose target is no readable
    DSL dataset. -/
def cloneRemovals (m : Mos) : Set (ℕ × String × ℕ) :=
  {(Z, k, v) | ∃ D, Reached m D ∧
    (Ref m D "clones" Z ∨ ∃ H, Ref m D "head_dataset_obj" H ∧ isDataset (m.get H) = true ∧
      Ref m H "next_clones_obj" Z) ∧
    (m.get Z).readable = true ∧ Entry m Z k v ∧ isDataset (m.get v) = false}

/-- For a reached directory `D` whose head `H` exists but is unreadable: the
    entries `D` in the child map of its readable parent, and the entries `H` in
    the `next_clones` ZAP of its readable origin and in the clones ZAP of that
    origin's readable directory. -/
def orphanRemovals (m : Mos) : Set (ℕ × String × ℕ) :=
  {(Z, k, v) | ∃ D H, Reached m D ∧ Ref m D "head_dataset_obj" H ∧
    (m.get H).exists_ = true ∧ (m.get H).unreadable = true ∧ Entry m Z k v ∧
    ((v = D ∧ ∃ P, Ref m D "parent_dir_obj" P ∧ (m.get P).readable = true ∧
        Ref m P "child_dir_zapobj" Z) ∨
      (v = H ∧ ∃ O, Ref m D "origin_obj" O ∧ (m.get O).readable = true ∧
        (Ref m O "next_clones_obj" Z ∨ ∃ OD, Ref m O "dir_obj" OD ∧
          (m.get OD).readable = true ∧ Ref m OD "clones" Z)))}

/-- **The planned reference removals.** -/
theorem zapRemove_plan_eq (m : Mos) :
    removals m = childRemovals m ∪ cloneRemovals m ∪ orphanRemovals m := by
  ext ⟨Z, k, v⟩
  rw [removals, Set.mem_ofPred_eq, zapRemove_mem_plan]
  constructor
  · rintro ⟨D, hD, h⟩
    cases h with
    | staleChild hM hs =>
      exact .inl (.inl ⟨D, hD, hM, hs.1, hs.2.1, hs.2.2.1, .inr hs.2.2.2⟩)
    | clone hZ hd => exact .inl (.inr ⟨D, hD, .inl hZ, hd⟩)
    | nextClone hH hds hZ hd => exact .inl (.inr ⟨D, hD, .inr ⟨_, hH, hds, hZ⟩, hd⟩)
    | orphanName hO hP hr hM he =>
      exact .inr ⟨_, _, hD, hO.1, ObjDump.exists_of_unreadable hO.2, hO.2, he,
        .inl ⟨rfl, _, hP, hr, hM⟩⟩
    | orphanNextClone hO hOr hr hZ he =>
      exact .inr ⟨D, _, hD, hO.1, ObjDump.exists_of_unreadable hO.2, hO.2, he,
        .inr ⟨rfl, _, hOr, hr, .inl hZ⟩⟩
    | orphanClone hO hOr hr hOD hrOD hZ he =>
      exact .inr ⟨D, _, hD, hO.1, ObjDump.exists_of_unreadable hO.2, hO.2, he,
        .inr ⟨rfl, _, hOr, hr, .inr ⟨_, hOD, hrOD, hZ⟩⟩⟩
  · rintro ((⟨D, hD, hM, hr, he, hn, ht⟩ | ⟨D, hD, hZ, hd⟩) | ⟨D, H, hD, hH, -, hu, he, hv⟩)
    · have ht' : (m.get v).hasType "DSL directory" = false :=
        ht.elim (ObjDump.hasType_of_not_exists (by decide)) id
      exact ⟨D, hD, .staleChild hM ⟨hr, he, hn, ht'⟩⟩
    · rcases hZ with hZ | ⟨H, hH, hds, hZ⟩
      · exact ⟨D, hD, .clone hZ hd⟩
      · exact ⟨D, hD, .nextClone hH hds hZ hd⟩
    · rcases hv with ⟨rfl, P, hP, hr, hM⟩ | ⟨rfl, O, hO, hr, hZ | ⟨OD, hOD, hrOD, hZ⟩⟩
      · exact ⟨_, hD, .orphanName ⟨hH, hu⟩ hP hr hM he⟩
      · exact ⟨_, hD, .orphanNextClone ⟨hH, hu⟩ hO hr hZ he⟩
      · exact ⟨_, hD, .orphanClone ⟨hH, hu⟩ hO hr hOD hrOD hZ he⟩

end Zhaxx.Scan
