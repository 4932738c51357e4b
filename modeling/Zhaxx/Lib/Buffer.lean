import Mathlib.Data.List.TakeWhile
import Mathlib.Tactic.Basic

/-!
# Arrays of fixed size

A C array is a list that keeps its length. What C leaves undefined, a write behind the end,
is `none` here. `Holds buf s` says that the character array `buf` starts with the C string
`s` and its terminating NUL.

Main results:

* `write_append`, `copy_append`: a write and a run of writes behind a part that stays.
* `copyTerminated_holds`, `strncpy_holds`: the two ways to store a string.
-/

namespace Buffer

variable {α : Type*}

/-- `buf[i] = x`. -/
def write (buf : List α) (i : ℕ) (x : α) : Option (List α) :=
  if i < buf.length then some (buf.set i x) else none

/-- `memcpy(buf + i, xs, …)`, element by element. -/
def copy (buf : List α) (i : ℕ) : List α → Option (List α)
  | [] => some buf
  | x :: xs => (write buf i x).bind fun buf => copy buf (i + 1) xs

theorem write_of_lt {buf : List α} {i : ℕ} {x : α} (h : i < buf.length) :
    write buf i x = some (buf.set i x) := if_pos h

theorem write_append (pre : List α) (x y : α) (post : List α) :
    write (pre ++ y :: post) pre.length x = some (pre ++ x :: post) := by
  rw [write_of_lt (by simp), List.set_append_right _ _ (le_refl _), Nat.sub_self,
    List.set_cons_zero]

theorem length_write {buf buf' : List α} {i : ℕ} {x : α} (h : write buf i x = some buf') :
    buf'.length = buf.length := by
  unfold write at h
  split_ifs at h
  cases h
  exact List.length_set

/-- **A run of writes.** -/
theorem copy_append {pre xs post : List α} (h : xs.length ≤ post.length) :
    copy (pre ++ post) pre.length xs = some (pre ++ xs ++ post.drop xs.length) := by
  induction xs generalizing pre post with
  | nil => simp [copy]
  | cons x xs ih =>
    cases post with
    | nil => simp at h
    | cons y post =>
      have hpre : pre.length + 1 = (pre ++ [x]).length := by simp
      have happ : pre ++ x :: post = (pre ++ [x]) ++ post := by simp
      rw [copy, write_append, Option.bind_some, hpre, happ, ih (by simpa using h)]
      simp

/-- A run of writes from the start. -/
theorem copy_zero {xs buf : List α} (h : xs.length ≤ buf.length) :
    copy buf 0 xs = some (xs ++ buf.drop xs.length) :=
  @copy_append α [] xs buf h

/-! ## Strings -/

/-- The buffer holds the string `s` and its NUL. -/
def Holds (buf s : List Char) : Prop := ∃ rest, buf = s ++ '\x00' :: rest

theorem Holds.nul_mem {buf s : List Char} (h : Holds buf s) : '\x00' ∈ buf := by
  obtain ⟨rest, rfl⟩ := h
  simp

/-- Reading up to the NUL. -/
theorem Holds.takeWhile {buf s : List Char} (h : Holds buf s) (hs : '\x00' ∉ s) :
    buf.takeWhile (· != '\x00') = s := by
  obtain ⟨rest, rfl⟩ := h
  have hall : ∀ c ∈ s, (c != '\x00') = true := by
    intro c hc
    rw [bne_iff_ne]
    rintro rfl
    exact hs hc
  rw [List.takeWhile_append_of_pos hall]
  simp

theorem holds_replicate {n : ℕ} (h : 0 < n) : Holds (List.replicate n '\x00') [] := by
  obtain ⟨k, rfl⟩ := Nat.exists_eq_add_of_lt h
  rw [Nat.zero_add]
  exact ⟨List.replicate k '\x00', rfl⟩

/-- The NUL behind a string. -/
theorem write_nul_holds (s : List Char) {post : List Char} (h : 0 < post.length) :
    ∃ buf, write (s ++ post) s.length '\x00' = some buf ∧
      buf.length = (s ++ post).length ∧ Holds buf s := by
  obtain ⟨y, rest, rfl⟩ := List.exists_cons_of_length_pos h
  have hw := write_append s '\x00' y rest
  exact ⟨_, hw, length_write hw, rest, rfl⟩

/-- `memcpy(buf, s, strlen(s)); buf[strlen(s)] = '\0';`. -/
def copyTerminated (buf s : List Char) : Option (List Char) :=
  (copy buf 0 s).bind fun buf => write buf s.length '\x00'

/-- **A string and its NUL.** -/
theorem copyTerminated_holds {buf s : List Char} (h : s.length < buf.length) :
    ∃ buf', copyTerminated buf s = some buf' ∧ buf'.length = buf.length ∧ Holds buf' s := by
  have hrest : 0 < (buf.drop s.length).length := by
    rw [List.length_drop]
    omega
  obtain ⟨buf', hw, hlen, hh⟩ := write_nul_holds s hrest
  refine ⟨buf', ?_, ?_, hh⟩
  · rw [copyTerminated, copy_zero h.le, Option.bind_some, hw]
  · rw [hlen, List.length_append, List.length_drop]
    omega

/-- `strncpy(buf, s, n)`: at most `n` characters, and NULs up to `n`. -/
def strncpy (buf s : List Char) (n : ℕ) : Option (List Char) :=
  copy buf 0 (s.take n ++ List.replicate (n - s.length) '\x00')

/-- **`strncpy` into a zeroed buffer** that is longer than `n`. -/
theorem strncpy_holds {s : List Char} {n size : ℕ} (h : n < size) :
    ∃ buf', strncpy (List.replicate size '\x00') s n = some buf' ∧ buf'.length = size ∧
      Holds buf' (s.take n) := by
  have hlen : (s.take n ++ List.replicate (n - s.length) '\x00').length = n := by
    rw [List.length_append, List.length_take, List.length_replicate]
    omega
  obtain ⟨k, hk⟩ : ∃ k, size - n = k + 1 := ⟨size - n - 1, by omega⟩
  refine ⟨_, copy_zero (by rw [hlen, List.length_replicate]; exact h.le), ?_, ?_⟩
  · rw [List.length_append, List.length_drop, hlen, List.length_replicate]
    omega
  · rw [hlen, List.drop_replicate, hk, List.append_assoc]
    cases n - s.length with
    | zero => exact ⟨List.replicate k '\x00', rfl⟩
    | succ j => exact ⟨List.replicate j '\x00' ++ List.replicate (k + 1) '\x00', rfl⟩

end Buffer
