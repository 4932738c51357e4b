import Zhaxx.Repair.Observed
import Zhaxx.Scan.Removals
import Zhaxx.Surgeon.Effects

/-!
# The outcome of a repair

`repaired m` is the observed store after the operations of its plan, in order. What is
left of it can be said without the plan: by what the scan observed.

Results:
* `allocated_iff`: an object is still there unless it is `Condemned`.
* `remains_iff`: an entry is still there unless it `Goes`.
-/

namespace Zhaxx.Repair

open Scan Surgeon CText

/-! ## What is lost -/

/-- The store after the plan. -/
def repaired (m : Mos) : Store String := (orders m).foldl Store.apply (observed m)

/-- The object is still there after the plan. -/
def Allocated (m : Mos) (x : ℕ) : Prop := (repaired m).type x ≠ none

instance (m : Mos) (x : ℕ) : Decidable (Allocated m x) := by unfold Allocated; infer_instance

/-- The observed entry is still there after the plan. -/
def Remains (m : Mos) (Z : ℕ) (k : String) (v : ℕ) : Prop :=
  Entry m Z k v ∧ (repaired m).entry Z (utf8 k) = some [v]

/-- The object is part of a stale error log or of a reached orphan. -/
inductive Condemned (m : Mos) (x : ℕ) : Prop
  | errlogHead {name : String} : ErrlogEntry m name x → StaleHead m x → Condemned m x
  | objsetErrlog {name : String} {h : ℕ} {s : Stale} : ErrlogEntry m name h → StaleHead m h →
      s ∈ staleEntries m (m.get h) → s.perObj = x → (m.get x).hasType "error log" = true →
      Condemned m x
  | orphan {D H : ℕ} {role : FreeRole} : Reached m D → Orphan m D H → SubtreeRef m D H role x →
      (m.get x).readable = true → (m.get x).typeOr ≠ "" → Condemned m x

/-- The entry of the MOS directory is set to zero. -/
inductive Overwritten (m : Mos) : ℕ → String → Prop
  | errlog {name : String} {h : ℕ} : ErrlogEntry m name h → Resets m h →
      Overwritten m mosDirObj name
  | scan : StaleScan m → Overwritten m mosDirObj "scan"

/-- The entry goes: with its ZAP, because the walk has a reason to drop it, or because it
    is overwritten. -/
inductive Goes (m : Mos) (Z : ℕ) (k : String) (v : ℕ) : Prop
  | condemned : Condemned m Z → Goes m Z k v
  | due : Due m Z k v → Goes m Z k v
  | overwritten : Overwritten m Z k → Goes m Z k v

section

variable {m : Mos}

theorem zapRemove_mem_ops {Z v : ℕ} {k : String} : Op.zapRemove Z k v ∈ ops m ↔ Due m Z k v := by
  rw [ops, List.mem_map, zapRemove_mem_plan]
  rfl

theorem condemned_iff {x : ℕ} : Condemned m x ↔ ∃ t, Op.free x t ∈ ops m := by
  simp only [mem_ops]
  constructor
  · intro h
    cases h with
    | errlogHead he hs => exact ⟨_, _, .errlog (.head he hs)⟩
    | objsetErrlog he hs hse hx ht =>
      subst hx
      exact ⟨_, _, .errlog (.objset he hs hse ht)⟩
    | orphan hD hO hx hr ht => exact ⟨_, _, .dir hD (.orphanFree hO hx hr ht)⟩
  · rintro ⟨t, role, h⟩
    cases h with
    | errlog h =>
      cases h with
      | head he hs => exact .errlogHead he hs
      | objset he hs hse ht => exact .objsetErrlog he hs hse rfl ht
    | dir hD h =>
      cases h with
      | orphanFree hO hx hr ht => exact .orphan hD hO hx hr ht

theorem Condemned.exists_ {x : ℕ} (h : Condemned m x) : (m.get x).exists_ = true := by
  obtain ⟨t, ht⟩ := condemned_iff.mp h
  exact (free_observed ht).1

/-! ## What the operations of a plan write -/

theorem frees_iff {op : Op} {x : ℕ} : op.toOpT.Frees x ↔ ∃ t, op = .free x t := by
  unfold OpT.Frees
  cases op with
  | free obj t =>
    constructor
    · rintro ⟨-, rfl⟩
      exact ⟨t, rfl⟩
    · rintro ⟨t', ht⟩
      cases ht
      exact ⟨rfl, rfl⟩
  | _ => exact iff_of_false (fun h => by cases h.1) fun ⟨_, h⟩ => by cases h

theorem entryWrite_self {op : OpT} {o : ℕ} {k : List Char} (h : op.obj = o ∧ op.key = k) :
    op.entryWrite o k = match op.kind with
      | .zapSet => some (some [op.value])
      | .zapZero => some (some (List.replicate op.count 0))
      | .zapRemove => some none
      | .bonusSet => none
      | .free => none := if_pos h

/-- What an operation of the scanner writes into an entry. -/
theorem entryWrite_iff {op : Op} {Z : ℕ} {k : String} {w : Option (List ℕ)} :
    op.toOpT.entryWrite Z (utf8 k) = some w ↔
      (∃ e v, op = .zapSet Z k e v ∧ w = some [v]) ∨
      (∃ c, op = .zapZero Z k c ∧ w = some (List.replicate c 0)) ∨
      ∃ v, op = .zapRemove Z k v ∧ w = none := by
  constructor
  · intro h
    have hc : op.toOpT.obj = Z ∧ op.toOpT.key = utf8 k := by
      by_contra hne
      rw [OpT.entryWrite, if_neg hne] at h
      cases h
    rw [entryWrite_self hc] at h
    cases op with
    | zapSet obj key e v =>
      cases hc.1
      cases utf8_injective hc.2
      exact .inl ⟨e, v, rfl, (Option.some.inj h).symm⟩
    | zapZero obj key c =>
      cases hc.1
      cases utf8_injective hc.2
      exact .inr (.inl ⟨c, rfl, (Option.some.inj h).symm⟩)
    | zapRemove obj key v =>
      cases hc.1
      cases utf8_injective hc.2
      exact .inr (.inr ⟨v, rfl, (Option.some.inj h).symm⟩)
    | bonusSet => cases h
    | free => cases h
  · rintro (⟨e, v, rfl, rfl⟩ | ⟨c, rfl, rfl⟩ | ⟨v, rfl, rfl⟩)
    · exact entryWrite_self ⟨rfl, rfl⟩
    · exact entryWrite_self ⟨rfl, rfl⟩
    · exact entryWrite_self ⟨rfl, rfl⟩

theorem forall_orders {P : OpT → Prop} : (∀ op ∈ orders m, P op) ↔ ∀ op ∈ ops m, P op.toOpT := by
  rw [orders, List.forall_mem_map]

theorem exists_orders {P : OpT → Prop} : (∃ op ∈ orders m, P op) ↔ ∃ op ∈ ops m, P op.toOpT := by
  rw [orders]
  simp only [List.mem_map]
  constructor
  · rintro ⟨_, ⟨op, hop, rfl⟩, h⟩
    exact ⟨op, hop, h⟩
  · rintro ⟨op, hop, h⟩
    exact ⟨_, ⟨op, hop, rfl⟩, h⟩

/-! ## What is left -/

theorem type_repaired (x : ℕ) [Decidable (Condemned m x)] :
    (repaired m).type x = if Condemned m x then none else (observed m).type x := by
  have hfree : (∃ op ∈ orders m, op.Frees x) ↔ Condemned m x := by
    rw [exists_orders, condemned_iff]
    constructor
    · rintro ⟨op, hop, hf⟩
      obtain ⟨t, rfl⟩ := frees_iff.mp hf
      exact ⟨t, hop⟩
    · rintro ⟨t, ht⟩
      exact ⟨_, ht, frees_iff.mpr ⟨t, rfl⟩⟩
  rw [repaired, Store.foldl_type]
  simp only [hfree]

/-- **The objects that stay.** -/
theorem allocated_iff {x : ℕ} :
    Allocated m x ↔ (m.get x).exists_ = true ∧ ¬ Condemned m x := by
  classical
  rw [Allocated, type_repaired]
  by_cases hc : Condemned m x
  · simp [hc]
  · simp [hc, observed]

/-- No operation writes an entry that is neither due nor overwritten. -/
theorem not_written {Z v : ℕ} {k : String} (he : Entry m Z k v) (hdue : ¬ Due m Z k v)
    (hover : ¬ Overwritten m Z k) : ∀ op ∈ orders m, op.entryWrite Z (utf8 k) = none := by
  rw [forall_orders]
  intro op hop
  rw [Option.eq_none_iff_forall_ne_some]
  intro w hw
  rcases entryWrite_iff.mp hw with ⟨e, v', rfl, -⟩ | ⟨c, rfl, -⟩ | ⟨v', rfl, -⟩
  · obtain ⟨rfl, -, hl, hr⟩ := zapSet_mem_ops.mp hop
    exact hover (.errlog hl hr)
  · obtain ⟨rfl, rfl, -, hs⟩ := zapZero_mem_ops.mp hop
    exact hover (.scan hs)
  · have hv : v' = v := Option.some.inj ((Dict.mem_entries_iff.mp (planned_entry hop)).symm.trans
      (Dict.mem_entries_iff.mp he))
    exact hdue (hv ▸ zapRemove_mem_ops.mp hop)

/-- What an operation of the plan writes into an entry is not what was there. -/
theorem written_ne {Z v : ℕ} {k : String} (he : Entry m Z k v) {op : Op} (hop : op ∈ ops m) :
    op.toOpT.entryWrite Z (utf8 k) ≠ some (some [v]) := by
  intro hw
  rcases entryWrite_iff.mp hw with ⟨e, v', rfl, hv⟩ | ⟨c, rfl, hv⟩ | ⟨v', rfl, hv⟩
  · obtain ⟨rfl, rfl, hl, -⟩ := zapSet_mem_ops.mp hop
    have hve : v = e := Option.some.inj ((Dict.mem_entries_iff.mp he).symm.trans
      (Dict.mem_entries_iff.mp hl.entry))
    have hv0 : v = 0 := by simpa using hv
    exact hl.2.2.2 (hve ▸ hv0)
  · obtain ⟨rfl, rfl, rfl, -⟩ := zapZero_mem_ops.mp hop
    have := congrArg List.length (Option.some.inj hv)
    simp [scanWords] at this
  · cases hv

/-- An entry that is due or overwritten is written by an operation. -/
theorem exists_write {Z v : ℕ} {k : String} (h : Due m Z k v ∨ Overwritten m Z k) :
    ∃ op ∈ ops m, ∃ w, op.toOpT.entryWrite Z (utf8 k) = some w := by
  rcases h with hdue | hover
  · exact ⟨_, zapRemove_mem_ops.mpr hdue, _, entryWrite_iff.mpr (.inr (.inr ⟨v, rfl, rfl⟩))⟩
  · cases hover with
    | errlog hl hr =>
      exact ⟨_, zapSet_mem_ops.mpr ⟨rfl, rfl, hl, hr⟩, _,
        entryWrite_iff.mpr (.inl ⟨_, _, rfl, rfl⟩)⟩
    | scan hs =>
      exact ⟨_, zapZero_mem_ops.mpr ⟨rfl, rfl, rfl, hs⟩, _,
        entryWrite_iff.mpr (.inr (.inl ⟨_, rfl, rfl⟩))⟩

/-- An entry that holds what was observed was not written. -/
theorem not_written_of_remains {Z v : ℕ} {k : String} (h : Remains m Z k v) :
    ∀ op ∈ orders m, op.entryWrite Z (utf8 k) = none := by
  obtain ⟨he, hent⟩ := h
  have halloc : Allocated m Z := fun hn => by
    rw [((repaired m).unallocated Z hn).1] at hent
    cases hent
  rw [repaired, Store.foldl_entry_last halloc] at hent
  rcases @LastWrite.last_cases _ _ (fun op : OpT => op.entryWrite Z (utf8 k))
    ((observed m).entry Z (utf8 k)) (orders m) with ⟨hnone, -⟩ | ⟨op, hop, hw⟩
  · exact hnone
  · rw [hent] at hw
    obtain ⟨op', hop', rfl⟩ := List.mem_map.mp hop
    exact absurd hw (written_ne he hop')

/-- **The entries that stay.** -/
theorem remains_iff {Z v : ℕ} {k : String} :
    Remains m Z k v ↔ Entry m Z k v ∧ ¬ Goes m Z k v := by
  constructor
  · intro h
    have hwritten : ¬ (Due m Z k v ∨ Overwritten m Z k) := fun hgoes => by
      obtain ⟨op, hop, w, hw⟩ := exists_write hgoes
      exact Option.some_ne_none w
        (hw.symm.trans (forall_orders.mp (not_written_of_remains h) op hop))
    refine ⟨h.1, fun hgoes => ?_⟩
    cases hgoes with
    | condemned hcon =>
      have hfreed : (repaired m).type Z = none := by
        by_contra halloc
        exact (allocated_iff.mp halloc).2 hcon
      have hent := h.2
      rw [((repaired m).unallocated Z hfreed).1] at hent
      cases hent
    | due hdue => exact hwritten (.inl hdue)
    | overwritten hover => exact hwritten (.inr hover)
  · rintro ⟨he, hstays⟩
    have hex : (m.get Z).exists_ = true := ObjDump.exists_of_mem_zap he
    refine ⟨he, ?_⟩
    rw [repaired,
      Store.foldl_entry_last (allocated_iff.mpr ⟨hex, fun h => hstays (.condemned h)⟩),
      LastWrite.last_of_forall (not_written he (fun h => hstays (.due h))
        fun h => hstays (.overwritten h))]
    exact entryWords_of_entry he

end

end Zhaxx.Repair
