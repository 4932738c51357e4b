import Mathlib.Data.List.Nodup
import Mathlib.Data.List.Lookmap
import Mathlib.Tactic.Basic

/-!
# Insertion-ordered dictionaries

A Python `dict` is a finite map that remembers the order in which its keys were
first inserted. `Dict κ ν` is that: a list of entries whose keys are distinct.

Main results:

* `Dict.mem_entries_iff`: membership in the entry list is lookup.
* `Dict.entries_perm`: the lookups determine the entries up to their order.
* `Dict.get?_set`, `Dict.get?_erase`, `Dict.get?_modify`: what each update does
  to a lookup.
-/

/-- A `dict`: its items in insertion order, every key at most once. -/
@[ext]
structure Dict (κ ν : Type*) where
  entries : List (κ × ν)
  nodup : (entries.map Prod.fst).Nodup

namespace Dict

variable {κ ν : Type*} [DecidableEq κ]

instance [DecidableEq ν] : DecidableEq (Dict κ ν) := fun a b =>
  decidable_of_iff (a.entries = b.entries) Dict.ext_iff.symm

/-- `{}`. -/
def empty : Dict κ ν := ⟨[], List.nodup_nil⟩

instance : Inhabited (Dict κ ν) := ⟨empty⟩

/-- `d.get(k)`. -/
def get? (d : Dict κ ν) (k : κ) : Option ν := (d.entries.find? fun e => e.1 = k).map Prod.snd

/-- `d.get(k, v)`. -/
def getD (d : Dict κ ν) (k : κ) (v : ν) : ν := (d.get? k).getD v

omit [DecidableEq κ] in
@[simp] theorem entries_empty : (empty : Dict κ ν).entries = [] := rfl

@[simp] theorem get?_empty (k : κ) : (empty : Dict κ ν).get? k = none := rfl

theorem mem_entries_iff {d : Dict κ ν} {k : κ} {v : ν} :
    (k, v) ∈ d.entries ↔ d.get? k = some v := by
  obtain ⟨es, hnd⟩ := d
  unfold get?
  simp only
  induction es with
  | nil => simp
  | cons e es ih =>
    obtain ⟨a, b⟩ := e
    simp only [List.map_cons, List.nodup_cons] at hnd
    by_cases hak : a = k
    · subst hak
      have hnot : (a, v) ∉ es := fun h => hnd.1 (List.mem_map_of_mem (f := Prod.fst) h)
      simp [hnot, eq_comm]
    · rw [List.mem_cons, List.find?_cons_of_neg (by simpa using hak), ← ih hnd.2]
      simp [Ne.symm hak]

/-- Dictionaries that agree under every key differ in the order of their entries alone. -/
theorem entries_perm {d d' : Dict κ ν} (h : ∀ k, d.get? k = d'.get? k) :
    d.entries.Perm d'.entries := by
  refine (List.perm_ext_iff_of_nodup d.nodup.of_map d'.nodup.of_map).mpr fun e => ?_
  obtain ⟨k, v⟩ := e
  rw [mem_entries_iff, mem_entries_iff, h k]

/-! ## Updates -/

/-- `d[k] = v`: an existing key keeps its place, a new one goes last. -/
def set (d : Dict κ ν) (k : κ) (v : ν) : Dict κ ν where
  entries :=
    if k ∈ d.entries.map Prod.fst then d.entries.map fun e => if e.1 = k then (k, v) else e
    else d.entries ++ [(k, v)]
  nodup := by
    split_ifs with h
    · have : (d.entries.map fun e => if e.1 = k then (k, v) else e).map Prod.fst =
          d.entries.map Prod.fst := by
        rw [List.map_map]
        apply List.map_congr_left
        intro e _
        simp only [Function.comp_apply]
        split_ifs with he
        · exact he.symm
        · rfl
      rw [this]; exact d.nodup
    · rw [List.map_append]
      exact List.nodup_append_comm.mp (by simpa using ⟨by simpa using h, d.nodup⟩)

theorem get?_set (d : Dict κ ν) (k j : κ) (v : ν) :
    (d.set k v).get? j = if j = k then some v else d.get? j := by
  apply Option.ext
  intro w
  rw [← mem_entries_iff]
  unfold set
  simp only
  split_ifs with hk hj hj
  · subst hj
    obtain ⟨⟨a, b⟩, hab, rfl⟩ := List.mem_map.mp hk
    constructor
    · intro h
      obtain ⟨⟨a', b'⟩, hm, he⟩ := List.mem_map.mp h
      split_ifs at he with h1
      · cases he; rfl
      · cases he; exact absurd rfl h1
    · intro h
      cases h
      exact List.mem_map.mpr ⟨(a, b), hab, by simp⟩
  · rw [← mem_entries_iff]
    constructor
    · intro h
      obtain ⟨⟨a', b'⟩, hm, he⟩ := List.mem_map.mp h
      split_ifs at he with h1
      · cases he; exact absurd rfl hj
      · cases he; exact hm
    · intro h
      exact List.mem_map.mpr ⟨(j, w), h, by simp [hj]⟩
  · subst hj
    have hnot : (j, w) ∉ d.entries := fun h => hk (List.mem_map_of_mem (f := Prod.fst) h)
    simp [hnot, eq_comm]
  · rw [← mem_entries_iff]
    simp [hj]

/-- The `dict` built by assigning the items of `l` in order. -/
def ofList (l : List (κ × ν)) : Dict κ ν := l.foldl (fun d e => d.set e.1 e.2) empty

/-- A value assigned under its key more than once stays when nothing else is. -/
theorem get?_foldl_set {l : List (κ × ν)} {d : Dict κ ν} {k : κ} {v : ν}
    (hl : ∀ e ∈ l, e.1 = k → e.2 = v) (h : d.get? k = some v ∨ (k, v) ∈ l) :
    (l.foldl (fun d e => d.set e.1 e.2) d).get? k = some v := by
  induction l generalizing d with
  | nil => exact h.resolve_right List.not_mem_nil
  | cons e l ih =>
    rw [List.forall_mem_cons] at hl
    refine ih hl.2 ?_
    rw [get?_set]
    by_cases hk : e.1 = k
    · exact .inl (by rw [if_pos hk.symm, hl.1 hk])
    · rw [if_neg (Ne.symm hk)]
      refine h.imp_right fun hm => ?_
      rcases List.mem_cons.mp hm with rfl | hm
      · exact absurd rfl hk
      · exact hm

/-- Assignments under other keys. -/
theorem get?_foldl_set_of_ne {l : List (κ × ν)} {d : Dict κ ν} {k : κ} (h : ∀ e ∈ l, e.1 ≠ k) :
    (l.foldl (fun d e => d.set e.1 e.2) d).get? k = d.get? k := by
  induction l generalizing d with
  | nil => rfl
  | cons e l ih =>
    rw [List.forall_mem_cons] at h
    rw [List.foldl_cons, ih h.2, get?_set, if_neg (Ne.symm h.1)]

/-- **What a sequence of assignments keeps.** -/
theorem forall_mem_foldl_set {l : List (κ × ν)} {d : Dict κ ν} :
    (∀ e ∈ l, e ∈ (l.foldl (fun d e => d.set e.1 e.2) d).entries) ↔
      ∀ e ∈ l, ∀ e' ∈ l, e.1 = e'.1 → e.2 = e'.2 := by
  constructor
  · intro h e he e' he' hk
    have h1 := mem_entries_iff.mp (h e he)
    have h2 := mem_entries_iff.mp (h e' he')
    rw [hk, h2] at h1
    exact (Option.some.inj h1).symm
  · intro h e he
    exact mem_entries_iff.mpr (get?_foldl_set (fun e' he' hk => h e' he' e he hk) (.inr he))

/-- `del d[k]`, or nothing when `k` is absent. -/
def erase (d : Dict κ ν) (k : κ) : Dict κ ν where
  entries := d.entries.filter fun e => e.1 ≠ k
  nodup := d.nodup.sublist (List.filter_sublist.map Prod.fst)

theorem mem_erase {d : Dict κ ν} {k j : κ} {v : ν} :
    (j, v) ∈ (d.erase k).entries ↔ (j, v) ∈ d.entries ∧ j ≠ k := by
  simp [erase]

theorem get?_erase (d : Dict κ ν) (k j : κ) :
    (d.erase k).get? j = if j = k then none else d.get? j := by
  apply Option.ext
  intro v
  rw [← mem_entries_iff, mem_erase, mem_entries_iff]
  split_ifs with h <;> simp [h]

/-- `d[k] = v`, or `del d[k]` for `none`. -/
def put (d : Dict κ ν) (k : κ) : Option ν → Dict κ ν
  | some v => d.set k v
  | none => d.erase k

theorem get?_put (d : Dict κ ν) (k j : κ) (v : Option ν) :
    (d.put k v).get? j = if j = k then v else d.get? j := by
  cases v with
  | some v => exact get?_set d k j v
  | none => exact get?_erase d k j

/-- Apply `f` to the value stored under `k`, if there is one. -/
def modify (d : Dict κ ν) (k : κ) (f : ν → ν) : Dict κ ν where
  entries := d.entries.map fun e => if e.1 = k then (e.1, f e.2) else e
  nodup := by
    have : (d.entries.map fun e => if e.1 = k then (e.1, f e.2) else e).map Prod.fst =
        d.entries.map Prod.fst := by
      rw [List.map_map]
      apply List.map_congr_left
      intro e _
      simp only [Function.comp_apply]
      split_ifs <;> rfl
    rw [this]; exact d.nodup

theorem get?_modify (d : Dict κ ν) (k j : κ) (f : ν → ν) :
    (d.modify k f).get? j = if j = k then (d.get? j).map f else d.get? j := by
  apply Option.ext
  intro w
  rw [← mem_entries_iff]
  constructor
  · intro h
    obtain ⟨⟨a, b⟩, hm, he⟩ := List.mem_map.mp h
    split_ifs at he with h1
    · cases he
      simp only at h1
      rw [if_pos h1, mem_entries_iff.mp hm]; rfl
    · cases he
      rw [if_neg h1, mem_entries_iff.mp hm]
  · intro h
    refine List.mem_map.mpr ?_
    split_ifs at h with hj
    · obtain ⟨b, hb, rfl⟩ := Option.map_eq_some_iff.mp h
      exact ⟨(j, b), mem_entries_iff.mpr hb, by simp [hj]⟩
    · exact ⟨(j, w), mem_entries_iff.mpr h, by simp [hj]⟩

end Dict
