import Zhaxx.Scan.Planned
import Zhaxx.Surgeon.Codec
import Zhaxx.Surgeon.Store

/-!
# From the scanner to the surgeon

`Op.toOpT` is the `op_t` that a planned operation stands for: the slot of `g_ops`
with the same kind, object number, key, expectation, value, count and type. Keys
and type names are the bytes of their UTF-8 encoding, and a number is a
`uint64_t`.

Results:
* `mem_ops`, `ops_nodup`: the operations of a plan, each once.
* `planned_entry`: a plan names only ZAP entries that were observed.
-/

namespace Zhaxx

open Scan Surgeon

/-- The `op_t` an operation stands for. -/
def Scan.Op.toOpT (op : Scan.Op) : OpT :=
  let slot := { OpT.zero with raw := (CText.utf8 op.line).take (lineSize - 1) }
  match op with
  | .zapSet obj key expect value => { slot with
      kind := .zapSet, obj := obj, key := CText.utf8 key, expect := expect, hasExpect := true
      value := value }
  | .zapZero obj key count => { slot with
      kind := .zapZero, obj := obj, key := CText.utf8 key, count := count }
  | .zapRemove obj key expect => { slot with
      kind := .zapRemove, obj := obj, key := CText.utf8 key, expect := expect, hasExpect := true }
  | .bonusSet obj expect value => { slot with
      kind := .bonusSet, obj := obj, field := "ds_num_children".toList, expect := expect
      hasExpect := true, value := toU64 value }
  | .free obj type => { slot with kind := .free, obj := obj, type := CText.utf8 type }

namespace Scan

/-- The operations of a plan, in order. -/
def ops (m : Mos) : List Op := (plan m).map PlanOp.op

/-- The plan as the surgeon is to have it in `g_ops`. -/
def orders (m : Mos) : List OpT := (ops m).map Op.toOpT

theorem mem_ops {m : Mos} {op : Op} : op ∈ ops m ↔ ∃ role, Planned m op role := by
  rw [← mem_plan, ops, List.mem_map]

theorem ops_nodup (m : Mos) : (ops m).Nodup := dedupeOps_nodup _

theorem ErrlogEntry.entry {m : Mos} {name : String} {h : ℕ} (he : ErrlogEntry m name h) :
    Entry m mosDirObj name h := by
  obtain ⟨-, -, hget, h0⟩ := he
  rw [Dict.getD] at hget
  cases hg : (m.get mosDirObj).zap.get? name with
  | none => rw [hg] at hget; exact absurd hget.symm h0
  | some v =>
    rw [hg] at hget
    cases hget
    exact Dict.mem_entries_iff.mpr hg

theorem DirPlanned.entry {m : Mos} {D Z v : ℕ} {k : String} {role : Option FreeRole}
    (h : DirPlanned m D (.zapRemove Z k v) role) : Entry m Z k v := by
  cases h with
  | staleChild _ hs => exact hs.2.1
  | clone _ hd => exact hd.2.1
  | nextClone _ _ _ hd => exact hd.2.1
  | orphanName _ _ _ _ he => exact he
  | orphanNextClone _ _ _ _ he => exact he
  | orphanClone _ _ _ _ _ _ he => exact he

/-- **Planned entries were observed.** -/
theorem planned_entry {m : Mos} {Z v : ℕ} {k : String} (h : Op.zapRemove Z k v ∈ ops m) :
    Entry m Z k v := by
  obtain ⟨p, hp, hpo⟩ := List.mem_map.mp h
  obtain ⟨D, -, hd⟩ := zapRemove_mem_plan.mp ⟨p, hp, hpo⟩
  exact hd.entry

theorem zapSet_mem_ops {m : Mos} {obj h v : ℕ} {name : String} :
    Op.zapSet obj name h v ∈ ops m ↔
      obj = mosDirObj ∧ v = 0 ∧ ErrlogEntry m name h ∧ Resets m h := by
  rw [← zapSet_mem_plan, ops, List.mem_map]

theorem zapZero_mem_ops {m : Mos} {obj c : ℕ} {key : String} :
    Op.zapZero obj key c ∈ ops m ↔
      obj = mosDirObj ∧ key = "scan" ∧ c = scanWords ∧ StaleScan m := by
  rw [mem_ops]
  constructor
  · rintro ⟨role, h⟩
    cases h with
    | errlog h => cases h
    | scan hs => exact ⟨rfl, rfl, rfl, hs⟩
    | dir _ h => cases h
  · rintro ⟨rfl, rfl, rfl, hs⟩
    exact ⟨none, .scan hs⟩

/-- A planned child count starts from the recorded one. -/
theorem bonusSet_numChildren {m : Mos} {S nc : ℕ} {v : ℤ} (h : Op.bonusSet S nc v ∈ ops m) :
    (m.get S).numChildren = some nc := by
  obtain ⟨role, h⟩ := mem_ops.mp h
  cases h with
  | errlog h => cases h
  | dir _ h =>
    cases h with
    | childCount _ _ _ _ _ hnc => exact hnc
    | orphanCount _ _ _ _ _ hnc => exact hnc

/-- A freed object was observed, with the type the plan prints. -/
theorem free_observed {m : Mos} {x : ℕ} {t : String} (h : Op.free x t ∈ ops m) :
    (m.get x).exists_ = true ∧ (m.get x).type = some t := by
  obtain ⟨role, h⟩ := mem_ops.mp h
  exact h.free_observed

end Scan

end Zhaxx
