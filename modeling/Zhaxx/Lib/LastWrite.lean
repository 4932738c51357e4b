import Mathlib.Data.List.Basic

/-!
# The last write

A list of operations is executed in order on a state. A cell of the state is given
by what it holds, `get`, and by what an operation writes into it, `writes`, with
`none` for an operation that leaves the cell alone.

Main results:

* `get_foldl`: a cell that follows its writes holds the last one.
* `last_append_cons`, `last_of_forall`, `last_of_forall_eq`, `last_cases`: which one that is.
* `last_idem`: a list of operations may be repeated.
* `last_eq_of_agree`: writes that agree may be repeated and reordered.
-/

namespace LastWrite

variable {σ ι ν : Type*}

/-- What a cell holds after the operations `is`, if it held `v`. -/
def last (writes : ι → Option ν) (v : ν) (is : List ι) : ν :=
  is.foldl (fun v i => (writes i).getD v) v

variable {writes : ι → Option ν} {v : ν}

@[simp] theorem last_nil : last writes v [] = v := rfl

@[simp] theorem last_cons (i : ι) (is : List ι) :
    last writes v (i :: is) = last writes ((writes i).getD v) is := rfl

/-- Without a write the value stays. -/
theorem last_of_forall {is : List ι} (h : ∀ i ∈ is, writes i = none) : last writes v is = v := by
  induction is with
  | nil => rfl
  | cons i is ih =>
    rw [List.forall_mem_cons] at h
    rw [last_cons, h.1, Option.getD_none, ih h.2]

/-- A write without another behind it. -/
theorem last_append_cons {pre post : List ι} {i : ι} {w : ν} (hi : writes i = some w)
    (hpost : ∀ j ∈ post, writes j = none) : last writes v (pre ++ i :: post) = w := by
  induction pre generalizing v with
  | nil => rw [List.nil_append, last_cons, hi, Option.getD_some, last_of_forall hpost]
  | cons j pre ih => exact ih

/-- Nothing was written, or the result is what some operation wrote. -/
theorem last_cases (is : List ι) :
    ((∀ i ∈ is, writes i = none) ∧ last writes v is = v) ∨
      ∃ i ∈ is, writes i = some (last writes v is) := by
  induction is generalizing v with
  | nil => exact .inl ⟨by simp, rfl⟩
  | cons i is ih =>
    rw [last_cons]
    rcases ih (v := (writes i).getD v) with ⟨hnone, hlast⟩ | ⟨j, hj, hw⟩
    · rw [hlast]
      cases hi : writes i with
      | none => exact .inl ⟨List.forall_mem_cons.mpr ⟨hi, hnone⟩, rfl⟩
      | some w => exact .inr ⟨i, List.mem_cons_self, hi⟩
    · exact .inr ⟨j, List.mem_cons_of_mem _ hj, hw⟩

/-- The last write stands out. -/
theorem last_split (writes : ι → Option ν) (is : List ι) :
    (∀ i ∈ is, writes i = none) ∨ ∃ pre i post w, is = pre ++ i :: post ∧ writes i = some w ∧
      ∀ j ∈ post, writes j = none := by
  induction is with
  | nil => exact .inl (List.forall_mem_nil _)
  | cons i is ih =>
    rcases ih with hnone | ⟨pre, j, post, w, rfl, hw, hpost⟩
    · cases hi : writes i with
      | none => exact .inl (List.forall_mem_cons.mpr ⟨hi, hnone⟩)
      | some w => exact .inr ⟨[], i, is, w, rfl, hi, hnone⟩
    · exact .inr ⟨i :: pre, j, post, w, rfl, hw, hpost⟩

/-- Operations that leave the cell alone can be left out. -/
theorem last_filter {p : ι → Bool} {is : List ι} (h : ∀ i, p i = false → writes i = none) :
    last writes v (is.filter p) = last writes v is := by
  induction is generalizing v with
  | nil => rfl
  | cons i is ih =>
    cases hp : p i with
    | true => rw [List.filter_cons_of_pos hp, last_cons, last_cons, ih]
    | false =>
      rw [List.filter_cons_of_neg (by simp [hp]), last_cons, h i hp, Option.getD_none, ih]

theorem last_map {κ : Type*} (f : κ → ι) (is : List κ) :
    last writes v (is.map f) = last (fun i => writes (f i)) v is :=
  List.foldl_map

/-- Operations that all write `w`. -/
theorem last_of_forall_eq {is : List ι} {w : ν} (hne : is ≠ [])
    (h : ∀ i ∈ is, writes i = some w) : last writes v is = w := by
  rcases @last_cases ι ν writes v is with ⟨hnone, -⟩ | ⟨i, hi, hw⟩
  · obtain ⟨i, hi⟩ := List.exists_mem_of_ne_nil is hne
    cases (h i hi).symm.trans (hnone i hi)
  · rw [h i hi] at hw
    exact (Option.some.inj hw).symm

/-- Operations that are repeated write the same again. -/
theorem last_idem (is : List ι) : last writes (last writes v is) is = last writes v is := by
  rcases last_split writes is with hnone | ⟨pre, i, post, w, rfl, hw, hpost⟩
  · exact last_of_forall hnone
  · rw [last_append_cons hw hpost, last_append_cons hw hpost]

/-- **Writes that agree.** Where all writes of a list are the same, only what is written
    counts, neither how often nor in which order. -/
theorem last_eq_of_agree {is js : List ι}
    (hsame : ∀ w, (∃ i ∈ is, writes i = some w) ↔ ∃ j ∈ js, writes j = some w)
    (hagree : ∀ i ∈ is, ∀ j ∈ is, ∀ w w', writes i = some w → writes j = some w' → w = w') :
    last writes v is = last writes v js := by
  rcases @last_cases ι ν writes v is with ⟨hnone, hv⟩ | ⟨i, hi, hw⟩
  · have hnone' : ∀ j ∈ js, writes j = none := by
      intro j hj
      by_contra hne
      obtain ⟨w, hw⟩ := Option.ne_none_iff_exists'.mp hne
      obtain ⟨i, hi, hw'⟩ := (hsame w).mpr ⟨j, hj, hw⟩
      cases (hnone i hi).symm.trans hw'
    rw [hv, last_of_forall hnone']
  · obtain ⟨j, hj, hw'⟩ := (hsame _).mp ⟨i, hi, hw⟩
    rcases @last_cases ι ν writes v js with ⟨hnone, -⟩ | ⟨j', hj', hlast⟩
    · cases (hnone j hj).symm.trans hw'
    · obtain ⟨i', hi', hw''⟩ := (hsame _).mpr ⟨j', hj', hlast⟩
      exact hagree i hi i' hi' _ _ hw hw''

/-- **A cell holds the last write.** The cell follows its writes as long as `ok`
    holds, and `ok` is never regained. -/
theorem get_foldl (step : σ → ι → σ) (get : σ → ν) (ok : σ → Prop)
    (hok : ∀ s i, ok (step s i) → ok s)
    (hstep : ∀ s i, ok (step s i) → get (step s i) = (writes i).getD (get s)) {s : σ}
    {is : List ι} (h : ok (is.foldl step s)) :
    get (is.foldl step s) = last writes (get s) is := by
  have hpre : ∀ {is : List ι} {s : σ}, ok (is.foldl step s) → ok s := by
    intro is
    induction is with
    | nil => exact id
    | cons i is ih => exact fun h => hok _ i (ih h)
  induction is generalizing s with
  | nil => rfl
  | cons i is ih =>
    rw [List.foldl_cons] at h ⊢
    rw [ih h, hstep s i (hpre h), last_cons]

end LastWrite
