import Zhaxx.Repair.Outcome

/-!
# Clone bookkeeping after a repair

A clone is recorded twice: in the `clones` ZAP of the directory it was cloned from and in
the `next_clones` ZAP of its origin snapshot, whose `dir_obj` is that directory. The walk
cleans the first for every directory, but the second only for head datasets
(`scan/zhaxx-scan` lines 337–342 and 391–400); for an orphan both are cleaned.

Results:
* `agreesAfter_iff`: records that agree still do after the repair exactly when a clone
  that is lost on one side is lost on the other.
* `freedClone_diverges`: a freed clone is lost on one side only.
-/

namespace Zhaxx.Repair

open Scan

/-- `v` is a value in the `clones` ZAP of `D`; `E` are the entries. -/
def DirClone (m : Mos) (E : ℕ → String → ℕ → Prop) (D v : ℕ) : Prop :=
  ∃ Z k, Ref m D "clones" Z ∧ E Z k v

/-- `v` is a value in the `next_clones` ZAP of a dataset with `dir_obj` `D`; `A` are the
    allocated objects and `E` the entries. -/
def NextClone (m : Mos) (A : ℕ → Prop) (E : ℕ → String → ℕ → Prop) (D v : ℕ) : Prop :=
  ∃ S Z k, A S ∧ (m.get S).hasType "DSL dataset" = true ∧ Ref m S "dir_obj" D ∧
    Ref m S "next_clones_obj" Z ∧ E Z k v

/-- The two records of the clones agree for every DSL directory. -/
def Agrees (m : Mos) (A : ℕ → Prop) (E : ℕ → String → ℕ → Prop) : Prop :=
  ∀ D, A D → (m.get D).hasType "DSL directory" = true →
    ∀ v, DirClone m E D v ↔ NextClone m A E D v

/-- The records agree as observed. -/
def AgreesBefore (m : Mos) : Prop := Agrees m (fun x => (m.get x).exists_ = true) (Entry m)

/-- The records agree after the plan. -/
def AgreesAfter (m : Mos) : Prop := Agrees m (Allocated m) (Remains m)

/-- Every record of `v` in the `clones` ZAP of `D` goes. -/
def DirCloneLost (m : Mos) (D v : ℕ) : Prop :=
  ∀ Z k, Ref m D "clones" Z → Entry m Z k v → Goes m Z k v

/-- Every record of `v` in a `next_clones` ZAP of `D` goes, or its dataset does. -/
def NextCloneLost (m : Mos) (D v : ℕ) : Prop :=
  ∀ S Z k, (m.get S).hasType "DSL dataset" = true → Ref m S "dir_obj" D →
    Ref m S "next_clones_obj" Z → Entry m Z k v → Condemned m S ∨ Goes m Z k v

/-- A clone of a directory that stays is lost on one side if on the other. -/
def LostTogether (m : Mos) : Prop :=
  ∀ D, (m.get D).hasType "DSL directory" = true → ¬ Condemned m D →
    ∀ v, DirClone m (Entry m) D v → (DirCloneLost m D v ↔ NextCloneLost m D v)

section

variable {m : Mos} {D v : ℕ}

theorem dirClone_remains_iff :
    DirClone m (Remains m) D v ↔ DirClone m (Entry m) D v ∧ ¬ DirCloneLost m D v := by
  unfold DirClone DirCloneLost
  constructor
  · rintro ⟨Z, k, hZ, hr⟩
    obtain ⟨he, hstays⟩ := remains_iff.mp hr
    exact ⟨⟨Z, k, hZ, he⟩, fun h => hstays (h Z k hZ he)⟩
  · rintro ⟨-, h⟩
    push Not at h
    obtain ⟨Z, k, hZ, he, hstays⟩ := h
    exact ⟨Z, k, hZ, remains_iff.mpr ⟨he, hstays⟩⟩

theorem nextClone_remains_iff :
    NextClone m (Allocated m) (Remains m) D v ↔
      NextClone m (fun x => (m.get x).exists_ = true) (Entry m) D v ∧ ¬ NextCloneLost m D v := by
  unfold NextClone NextCloneLost
  constructor
  · rintro ⟨S, Z, k, hS, ht, hd, hZ, hr⟩
    obtain ⟨hex, hcon⟩ := allocated_iff.mp hS
    obtain ⟨he, hstays⟩ := remains_iff.mp hr
    exact ⟨⟨S, Z, k, hex, ht, hd, hZ, he⟩, fun h => (h S Z k ht hd hZ he).elim hcon hstays⟩
  · rintro ⟨-, h⟩
    push Not at h
    obtain ⟨S, Z, k, ht, hd, hZ, he, hcon, hstays⟩ := h
    have hS := allocated_iff.mpr ⟨ObjDump.exists_of_hasType (by decide) ht, hcon⟩
    exact ⟨S, Z, k, hS, ht, hd, hZ, remains_iff.mpr ⟨he, hstays⟩⟩

end

/-- **Clone bookkeeping after a repair.** -/
theorem agreesAfter_iff {m : Mos} (h : AgreesBefore m) : AgreesAfter m ↔ LostTogether m := by
  have hex : ∀ {D}, (m.get D).hasType "DSL directory" = true → (m.get D).exists_ = true :=
    fun ht => ObjDump.exists_of_hasType (by decide) ht
  constructor
  · intro hafter D ht hcon v hv
    have hboth := hafter D (allocated_iff.mpr ⟨hex ht, hcon⟩) ht v
    rw [dirClone_remains_iff, nextClone_remains_iff, ← h D (hex ht) ht v, and_iff_right hv,
      and_iff_right hv] at hboth
    exact not_iff_not.mp hboth
  · intro htog D hD ht v
    rw [dirClone_remains_iff, nextClone_remains_iff, ← h D (hex ht) ht v]
    exact and_congr_right fun hv => not_congr (htog D ht (allocated_iff.mp hD).2 v hv)

/-- A pool whose snapshot `40` had the clone `673`, which was freed. -/
def freedClone : Mos := .ofList
  [(1, .ofLines "object directory" [("root_dataset", 32)] false),
    (32, .ofLines "DSL directory" [("head_dataset_obj", 33), ("clones", 50)] false),
    (33, .ofLines "DSL dataset" [("dir_obj", 32), ("prev_snap_obj", 40)] false),
    (40, .ofLines "DSL dataset"
      [("dir_obj", 32), ("next_clones_obj", 41), ("num_children", 2)] false),
    (41, .ofLines "DSL dataset next clones" [("2a1", 673)] false),
    (50, .ofLines "DSL dir clones" [("2a1", 673)] false)]

/-- The records of that pool agree. -/
theorem agreesBefore_freedClone : AgreesBefore freedClone := by
  have hdir : ∀ D ∈ freedClone.objs.entries.map Prod.fst,
      (freedClone.get D).hasType "DSL directory" = true → D = 32 := by decide +kernel
  have hclones : Ref freedClone 32 "clones" 50 := by decide +kernel
  have hnext : Ref freedClone 40 "next_clones_obj" 41 := by decide +kernel
  have hsnap : ∀ S ∈ freedClone.objs.entries.map Prod.fst,
      (freedClone.get S).ref "next_clones_obj" = .int 0 ∨ S = 40 := by decide +kernel
  intro D hD ht v
  cases hdir D (Mos.get_mem hD) ht
  constructor
  · rintro ⟨Z, k, hZ, he⟩
    rw [hZ.unique hclones, Entry, show (freedClone.get 50).zap.entries = [("2a1", 673)] by
      decide +kernel, List.mem_singleton] at he
    cases he
    exact ⟨40, 41, "2a1", by decide +kernel, by decide +kernel, by decide +kernel, hnext,
      by decide +kernel⟩
  · rintro ⟨S, Z, k, hS, -, -, hZ, he⟩
    rcases hsnap S (Mos.get_mem hS) with h0 | rfl
    · exact absurd (FieldVal.int.inj (hZ.1.symm.trans h0)) hZ.2
    · rw [hZ.unique hnext, Entry, show (freedClone.get 41).zap.entries = [("2a1", 673)] by
        decide +kernel, List.mem_singleton] at he
      cases he
      exact ⟨50, "2a1", hclones, by decide +kernel⟩

/-- The directory loses the clone and the snapshot keeps it. -/
theorem freedClone_diverges : AgreesBefore freedClone ∧ ¬ AgreesAfter freedClone := by
  refine ⟨agreesBefore_freedClone, fun h => ?_⟩
  have hnext : NextClone freedClone (Allocated freedClone) (Remains freedClone) 32 673 :=
    ⟨40, 41, "2a1", by decide +kernel, by decide +kernel, by decide +kernel, by decide +kernel,
      by decide +kernel, by decide +kernel⟩
  obtain ⟨Z, k, hZ, hr⟩ := (h 32 (by decide +kernel) (by decide +kernel) 673).mpr hnext
  have hgone : (repaired freedClone).entry 50 (CText.utf8 "2a1") = none := by decide +kernel
  have hentry := hr.1
  rw [hZ.unique (show Ref freedClone 32 "clones" 50 by decide +kernel)] at hr hentry
  rw [Entry, show (freedClone.get 50).zap.entries = [("2a1", 673)] by decide +kernel,
    List.mem_singleton] at hentry
  cases hentry
  exact absurd (hgone.symm.trans hr.2) (by simp)

/-- `agreesAfter_iff` on that pool. -/
theorem agreesAfter_freedClone : AgreesAfter freedClone ↔ LostTogether freedClone :=
  agreesAfter_iff agreesBefore_freedClone

end Zhaxx.Repair
