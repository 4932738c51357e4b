import Mathlib.Data.Finset.Card

/-!
# Attempts that use up a finite set

A step is attempted again and again. An attempt that fails changes nothing; one that
succeeds takes an item out of a finite set, and nothing puts an item into it.

Main results:

* `not_mem_attempts`: an item that is gone stays away.
* `done_attempts`: as many successes as there are items are enough.
-/

namespace Descent

variable {α β : Type*} {f : α → α} {I done : α → Prop} {S : α → Finset β}

/-- The state after one attempt of the step `f`. -/
def attempt (f : α → α) (a : α) (success : Bool) : α := if success then f a else a

/-- The state after a sequence of attempts. -/
def attempts (f : α → α) (a : α) (successes : List Bool) : α := successes.foldl (attempt f) a

@[simp] theorem attempts_true (a : α) (l : List Bool) :
    attempts f a (true :: l) = attempts f (f a) l := rfl

theorem attempts_append (a : α) (l l' : List Bool) :
    attempts f a (l ++ l') = attempts f (attempts f a l) l' := List.foldl_append

/-- What holds before and is kept by a success holds after all attempts. -/
theorem attempts_keep {P : α → Prop} (h : ∀ a, P a → P (f a)) {a : α} (ha : P a)
    (l : List Bool) : P (attempts f a l) := by
  induction l generalizing a with
  | nil => exact ha
  | cons success l ih =>
    cases success with
    | true => exact ih (h a ha)
    | false => exact ih ha

/-- The step `f` uses up the items `S`: it adds none, takes one as long as it is not done,
    and does nothing afterwards. `I` is kept and may be used for it. -/
structure UsesUp (f : α → α) (I done : α → Prop) (S : α → Finset β) : Prop where
  keep : ∀ a, I a → I (f a)
  subset : ∀ a, S (f a) ⊆ S a
  takes : ∀ a, I a → ¬ done a → ∃ b ∈ S a, b ∉ S (f a)
  rest : ∀ a, done a → f a = a

namespace UsesUp

variable (h : UsesUp f I done S)

include h

theorem subset_attempts (a : α) (l : List Bool) : S (attempts f a l) ⊆ S a :=
  attempts_keep (P := fun b => S b ⊆ S a) (fun b hb => (h.subset b).trans hb) subset_rfl l

/-- **Nothing comes back.** -/
theorem not_mem_attempts {a : α} {b : β} (hb : b ∉ S a) (l : List Bool) :
    b ∉ S (attempts f a l) := fun hm => hb (h.subset_attempts a l hm)

theorem attempts_of_done {a : α} (ha : done a) (l : List Bool) : attempts f a l = a :=
  attempts_keep (P := fun b => b = a) (fun b hb => by rw [hb, h.rest a ha]) rfl l

theorem card_lt {a : α} (hI : I a) (hd : ¬ done a) : (S (f a)).card < (S a).card := by
  obtain ⟨b, hb, hb'⟩ := h.takes a hI hd
  exact Finset.card_lt_card ⟨h.subset a, fun hs => hb' (hs hb)⟩

/-- **The end is reached**, however the failures are spread. -/
theorem done_attempts {a : α} (hI : I a) {l : List Bool} (hl : (S a).card ≤ l.count true) :
    done (attempts f a l) := by
  induction l generalizing a with
  | nil =>
    have hempty : (S a).card = 0 := Nat.le_zero.mp hl
    by_contra hd
    exact Nat.not_lt_zero _ (hempty ▸ h.card_lt hI hd)
  | cons success l ih =>
    cases success with
    | false =>
      rw [List.count_cons_of_ne (by decide)] at hl
      exact ih (a := a) hI hl
    | true =>
      by_cases hd : done a
      · rw [h.attempts_of_done hd]
        exact hd
      · have hlt := h.card_lt hI hd
        rw [List.count_cons_self] at hl
        exact ih (a := f a) (h.keep a hI) (by omega)

end UsesUp

end Descent
