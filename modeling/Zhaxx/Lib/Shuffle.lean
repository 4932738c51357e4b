import Mathlib.Data.List.Perm.Basic
import Mathlib.Data.List.Nodup

/-!
# Folds over shuffled lists

A fold whose steps preserve an equivalence of states, and two of whose steps commute up to
it, ends in equivalent states on every order of its list. Where only some steps may change
places, the others keeping their order, it is enough that these commute with one another
and with the rest.

Results:
* `foldl_filter`: the steps that commute with the rest can be made last.
* `foldl_perm`: commuting steps can be made in any order.
* `foldl_shuffle`: two lists of which one shuffles some members of the other.
-/

namespace Shuffle

variable {α β : Type*}

/-- The steps `f` keep the invariant `I` and respect the equivalence `R`. -/
structure Respects (f : β → α → β) (I : β → Prop) (R : β → β → Prop) : Prop where
  equiv : Equivalence R
  keeps : ∀ {b} a, I b → I (f b a)
  congr : ∀ {b b'} a, I b → I b' → R b b' → R (f b a) (f b' a)

/-- The steps `a` and `a'` have the same effect in both orders. -/
def Commute (f : β → α → β) (I : β → Prop) (R : β → β → Prop) (a a' : α) : Prop :=
  ∀ b, I b → R (f (f b a) a') (f (f b a') a)

variable {f : β → α → β} {I : β → Prop} {R : β → β → Prop}

theorem Commute.symm (hf : Respects f I R) {a a' : α} (h : Commute f I R a a') :
    Commute f I R a' a := fun b hb => hf.equiv.symm (h b hb)

namespace Respects

variable (hf : Respects f I R)

include hf

theorem foldl_keeps {l : List α} {b : β} (hb : I b) : I (l.foldl f b) := by
  induction l generalizing b with
  | nil => exact hb
  | cons a l ih => exact ih (hf.keeps a hb)

theorem foldl_congr {l : List α} {b b' : β} (hb : I b) (hb' : I b') (h : R b b') :
    R (l.foldl f b) (l.foldl f b') := by
  induction l generalizing b b' with
  | nil => exact h
  | cons a l ih => exact ih (hf.keeps a hb) (hf.keeps a hb') (hf.congr a hb hb' h)

/-- A step that commutes with all others can be made after them. -/
theorem foldl_commute {l : List α} {a : α} (h : ∀ a' ∈ l, Commute f I R a a') {b : β}
    (hb : I b) : R (l.foldl f (f b a)) (f (l.foldl f b) a) := by
  induction l generalizing b with
  | nil => exact hf.equiv.refl _
  | cons a' l ih =>
    rw [List.forall_mem_cons] at h
    have hswap : R (f (f b a) a') (f (f b a') a) := h.1 b hb
    have hback := hf.foldl_congr (l := l) (hf.keeps a' (hf.keeps a hb))
      (hf.keeps a (hf.keeps a' hb)) hswap
    exact hf.equiv.trans hback (ih h.2 (hf.keeps a' hb))

/-- **Late steps.** The steps that commute with the rest can be made last. -/
theorem foldl_filter {p : α → Bool} {l : List α}
    (h : ∀ a ∈ l, p a = true → ∀ a' ∈ l, p a' = false → Commute f I R a a') {b : β} (hb : I b) :
    R (l.foldl f b) ((l.filter p).foldl f ((l.filter fun a => !p a).foldl f b)) := by
  induction l generalizing b with
  | nil => exact hf.equiv.refl _
  | cons a l ih =>
    have hl := fun a' ha' hp a'' ha'' => h a' (List.mem_cons_of_mem a ha') hp a''
      (List.mem_cons_of_mem a ha'')
    have hrest := ih hl (hf.keeps a hb)
    cases hp : p a with
    | false =>
      rw [List.filter_cons_of_neg (p := p) (by simp [hp]), List.filter_cons_of_pos (by simp [hp])]
      exact hrest
    | true =>
      rw [List.filter_cons_of_pos (p := p) hp, List.filter_cons_of_neg (by simp [hp])]
      have hlate : R ((l.filter fun a => !p a).foldl f (f b a))
          (f ((l.filter fun a => !p a).foldl f b) a) := by
        refine hf.foldl_commute (fun a' ha' => ?_) hb
        obtain ⟨hm, hp'⟩ := List.mem_filter.mp ha'
        exact h a List.mem_cons_self hp a' (List.mem_cons_of_mem a hm) (by simpa using hp')
      exact hf.equiv.trans hrest (hf.foldl_congr (hf.foldl_keeps (hf.keeps a hb))
        (hf.keeps a (hf.foldl_keeps hb)) hlate)

/-- **Commuting steps.** They can be made in any order. -/
theorem foldl_perm {l l' : List α} (hp : l.Perm l') (h : l.Pairwise (Commute f I R)) {b : β}
    (hb : I b) : R (l.foldl f b) (l'.foldl f b) := by
  induction hp generalizing b with
  | nil => exact hf.equiv.refl _
  | cons a _ ih => exact ih (List.pairwise_cons.mp h).2 (hf.keeps a hb)
  | swap a a' l =>
    have hswap := (List.pairwise_cons.mp h).1 a List.mem_cons_self
    exact hf.foldl_congr (hf.keeps a (hf.keeps a' hb)) (hf.keeps a' (hf.keeps a hb)) (hswap b hb)
  | trans hp₁ _ ih₁ ih₂ =>
    have h₂ := (hp₁.pairwise_iff fun hc => Commute.symm hf hc).mp h
    exact hf.equiv.trans (ih₁ h hb) (ih₂ h₂ hb)

/-- **Shuffled lists.** The members that satisfy `p` change places, the others keep their
    order. -/
theorem foldl_shuffle {p : α → Bool} {l l' : List α} (hp : l.Perm l')
    (hrest : (l.filter fun a => !p a) = l'.filter fun a => !p a)
    (hlate : ∀ a ∈ l, p a = true → ∀ a' ∈ l, p a' = false → Commute f I R a a')
    (hpair : (l.filter p).Pairwise (Commute f I R)) {b : β} (hb : I b) :
    R (l.foldl f b) (l'.foldl f b) := by
  have hlate' : ∀ a ∈ l', p a = true → ∀ a' ∈ l', p a' = false → Commute f I R a a' :=
    fun a ha hpa a' ha' => hlate a (hp.symm.subset ha) hpa a' (hp.symm.subset ha')
  have hmid := hf.foldl_perm (hp.filter p) hpair
    (hf.foldl_keeps (l := l.filter fun a => !p a) hb)
  have hend := hf.equiv.symm (hf.foldl_filter hlate' hb)
  rw [← hrest] at hend
  exact hf.equiv.trans (hf.foldl_filter hlate hb) (hf.equiv.trans hmid hend)

end Respects

end Shuffle
