import Zhaxx.Scan.Clean
import Zhaxx.Scan.Roles

/-!
# Snapshot chains

The `next_clones` ZAPs of a pool belong to its snapshots, which hang on the
`prev_snap_obj` chains of the head datasets. The triage guide lists dangling clone
references among the symptoms of a damaged MOS, and `check_dataset` looks for them, but
the walk calls it on the heads only; of the first snapshot of a chain it merely tests the
existence (`scan/zhaxx-scan` lines 401–406).

Results:
* `chainsSound_iff`: after a clean report every dataset of every chain is sound exactly
  when those behind the heads are.
* `forgottenSnapshot_silent`: a snapshot with a dangling clone behind a clean report.
-/

namespace Zhaxx.Scan

/-! ## Chains -/

/-- The datasets on the `prev_snap_obj` chain from the head of the directory `D`. -/
inductive OnChain (m : Mos) (D : ℕ) : FieldVal → Prop
  | head : ((m.get D).ref "head_dataset_obj").truthy = true →
      OnChain m D ((m.get D).ref "head_dataset_obj")
  | prev {v : FieldVal} : OnChain m D v → ((m.fetch v).ref "prev_snap_obj").truthy = true →
      OnChain m D ((m.fetch v).ref "prev_snap_obj")

/-- A readable dataset whose `next_clones` ZAP, if it has one, is readable and names
    readable datasets only; `whole` is how the type is read (`Named`). -/
structure SoundDataset (whole : Bool) (m : Mos) (ds : ObjDump) : Prop where
  readable : ds.readable = true
  named : Named whole "DSL dataset" ds
  nextClones : (ds.ref "next_clones_obj").truthy = true →
    (m.fetch (ds.ref "next_clones_obj")).readable = true ∧
      ∀ e ∈ (m.fetch (ds.ref "next_clones_obj")).zap.entries,
        (m.get e.2).readable = true ∧ Named whole "DSL dataset" (m.get e.2)

/-- Every dataset on the chain of every directory is sound. -/
def ChainsSound (whole : Bool) (m : Mos) : Prop :=
  ∀ D v, Linked m D → (m.get D).hasType "DSL directory" = true → OnChain m D v →
    SoundDataset whole m (m.fetch v)

/-! ## What the walk looks at -/

/-- `check_dataset` is called on `v`, the head of a directory of the walk. -/
def Examined (m : Mos) (v : FieldVal) : Prop :=
  ∃ D, Below m D ∧ v.truthy = true ∧ v = (m.get D).ref "head_dataset_obj"

/-- What the walk leaves open: the datasets it never calls `check_dataset` on, and
    whether a type that contains `'DSL dataset'` is that type. -/
structure SoundBehind (whole : Bool) (m : Mos) : Prop where
  behind : ∀ D v, Linked m D → (m.get D).hasType "DSL directory" = true → OnChain m D v →
    ¬ Examined m v → SoundDataset whole m (m.fetch v)
  named : ∀ v, Examined m v → Named whole "DSL dataset" (m.fetch v)
  clones : ∀ v, Examined m v → ((m.fetch v).ref "next_clones_obj").truthy = true →
    ∀ e ∈ (m.fetch ((m.fetch v).ref "next_clones_obj")).zap.entries,
      Named whole "DSL dataset" (m.get e.2)

section

variable {m : Mos}

/-- In a consistent namespace the walk meets linked directories only. -/
theorem Consistent.linked_of_below (h : Consistent m) {D : ℕ} (hD : Below m D) : Linked m D := by
  induction hD with
  | root => exact .root h.root
  | @child D e hD ht he _ ih =>
    have hdir := isDirectory_iff.mp (h.dirs D hD).directory
    obtain ⟨M, hM, -, heM⟩ := (ref_iff (m := m) (n := D) (f := "child_dir_zapobj")
      (p := fun d => d.exists_ = true ∧ e ∈ d.zap.entries) fun d hd => hd.1).mp
      ⟨ht, ObjDump.exists_of_mem_zap he, he⟩
    exact .child ih hdir.2 hM heM

/-- What a clean report says about the dataset `v`. -/
theorem Consistent.examined (h : Consistent m) {v : FieldVal} (hv : Examined m v) :
    CleanDataset m (m.fetch v) := by
  obtain ⟨D, hD, ht, rfl⟩ := hv
  exact (h.dirs D hD).head ht

/-- An examined dataset is on a chain. -/
theorem Consistent.onChain (h : Consistent m) {v : FieldVal} (hv : Examined m v) :
    ∃ D, Linked m D ∧ (m.get D).hasType "DSL directory" = true ∧ OnChain m D v := by
  obtain ⟨D, hD, ht, rfl⟩ := hv
  exact ⟨D, h.linked_of_below hD, (isDirectory_iff.mp (h.dirs D hD).directory).2, .head ht⟩

/-- **A clean report and the snapshots.** Whether the type is read as a whole or in part. -/
theorem chainsSound_iff (whole : Bool) (hclean : findings m = []) :
    ChainsSound whole m ↔ SoundBehind whole m := by
  have hcons : Consistent m := (findings_eq_nil_iff m).1.mp hclean
  constructor
  · intro hsound
    have hexam : ∀ v, Examined m v → SoundDataset whole m (m.fetch v) := by
      intro v hv
      obtain ⟨D, hD, ht, hc⟩ := hcons.onChain hv
      exact hsound D v hD ht hc
    exact ⟨fun D v hD ht hc _ => hsound D v hD ht hc, fun v hv => (hexam v hv).named,
      fun v hv hn e he => (((hexam v hv).nextClones hn).2 e he).2⟩
  · intro hbehind D v hD ht hc
    by_cases hv : Examined m v
    · have hds := hcons.examined hv
      refine ⟨(isDataset_iff.mp hds.dataset).1, hbehind.named v hv, fun hn => ?_⟩
      obtain ⟨hr, hall⟩ := hds.nextClones hn
      exact ⟨hr, fun e he => ⟨(isDataset_iff.mp (hall e he)).1, hbehind.clones v hv hn e he⟩⟩
    · exact hbehind.behind D v hD ht hc hv

end

/-- A pool whose root dataset `33` has the snapshot `40`; the `next_clones` ZAP of the
    snapshot names the freed dataset `673`. -/
def forgottenSnapshot : Mos := .ofList
  [(1, .ofLines "object directory" [("root_dataset", 32)] false),
    (32, .ofLines "DSL directory" [("head_dataset_obj", 33)] false),
    (33, .ofLines "DSL dataset" [("prev_snap_obj", 40)] false),
    (40, .ofLines "DSL dataset" [("next_clones_obj", 41), ("num_children", 2)] false),
    (41, .ofLines "DSL dataset next clones" [("2a1", 673)] false)]

theorem forgottenSnapshot_clean : findings forgottenSnapshot = [] := by decide +kernel

/-- The scan of that pool reports nothing, whichever way the type is read. -/
theorem forgottenSnapshot_silent :
    findings forgottenSnapshot = [] ∧ ¬ ChainsSound true forgottenSnapshot ∧
      ¬ ChainsSound false forgottenSnapshot := by
  have hchain : OnChain forgottenSnapshot 32 (.int 40) :=
    .prev (v := .int 33) (.head (by decide +kernel)) (by decide +kernel)
  have hbad : ∀ whole, ¬ ChainsSound whole forgottenSnapshot := by
    intro whole h
    have hsound := h 32 (.int 40) (.root (by decide +kernel)) (by decide +kernel) hchain
    have := (hsound.nextClones (by decide +kernel)).2 ("2a1", 673) (by decide +kernel)
    exact absurd this.1 (by decide +kernel)
  exact ⟨forgottenSnapshot_clean, hbad true, hbad false⟩

/-- `chainsSound_iff` on that pool. -/
theorem chainsSound_forgotten :
    ChainsSound false forgottenSnapshot ↔ SoundBehind false forgottenSnapshot :=
  chainsSound_iff false forgottenSnapshot_clean

end Zhaxx.Scan
