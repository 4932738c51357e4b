import Mathlib.Data.List.Basic

/-!
# First occurrences

`firsts l` keeps the first occurrence of every element of `l`. In which order these stand
can be read off `l`: an element comes behind another one unless it comes before it as well.

Main results:

* `pairwise_firsts_iff`: when the first occurrences are in order.
* `settled_flatMap_iff`: the same for a list that is made of ordered blocks.
-/

namespace Firsts

variable {α β : Type*}

section Loop

variable [DecidableEq α]

/-- The elements of a list that are not in `seen`, each once. -/
def loop (seen : List α) : List α → List α
  | [] => []
  | a :: l => if a ∈ seen then loop seen l else a :: loop (a :: seen) l

/-- The first occurrences of a list. -/
def firsts (l : List α) : List α := loop [] l

theorem mem_loop {seen l : List α} {b : α} : b ∈ loop seen l ↔ b ∉ seen ∧ b ∈ l := by
  induction l generalizing seen with
  | nil => simp [loop]
  | cons a l ih =>
    rw [loop]
    split_ifs with ha
    · rw [ih, List.mem_cons]
      refine and_congr_right fun hb => (or_iff_right ?_).symm
      rintro rfl
      exact hb ha
    · rw [List.mem_cons, ih, List.mem_cons, List.mem_cons]
      by_cases hba : b = a
      · simp [hba, ha]
      · simp [hba]

end Loop

/-- Whatever comes behind an element is in order with it, or it is in `seen` or comes before
    the element as well. -/
def SettledFrom (R : α → α → Prop) (seen l : List α) : Prop :=
  ∀ pre a post, l = pre ++ a :: post → ∀ b ∈ post, R a b ∨ b ∈ seen ∨ b ∈ pre

/-- The same from the start. -/
def Settled (R : α → α → Prop) (l : List α) : Prop :=
  ∀ pre a post, l = pre ++ a :: post → ∀ b ∈ post, R a b ∨ b ∈ pre

variable {R : α → α → Prop}

theorem settledFrom_cons {seen l : List α} {x : α} :
    SettledFrom R seen (x :: l) ↔
      (∀ b ∈ l, R x b ∨ b ∈ seen) ∧ SettledFrom R (x :: seen) l := by
  constructor
  · intro h
    refine ⟨fun b hb => ?_, fun pre a post hl b hb => ?_⟩
    · simpa using h [] x l rfl b hb
    · have hab := h (x :: pre) a post (congrArg (x :: ·) hl) b hb
      rw [List.mem_cons] at hab ⊢
      tauto
  · rintro ⟨hx, h⟩ (_ | ⟨y, pre⟩) a post hl b hb
    · cases hl
      exact (hx b hb).imp_right .inl
    · cases hl
      have hab := h pre a post rfl b hb
      rw [List.mem_cons] at hab ⊢
      tauto

theorem settledFrom_congr {seen seen' l : List α} (h : ∀ b, b ∈ seen ↔ b ∈ seen') :
    SettledFrom R seen l ↔ SettledFrom R seen' l := by
  unfold SettledFrom
  simp only [h]

/-- What holds behind every element holds pairwise. -/
theorem pairwise_of_split {l : List α}
    (h : ∀ pre a post, l = pre ++ a :: post → ∀ b ∈ post, R a b) : l.Pairwise R := by
  induction l with
  | nil => exact .nil
  | cons x l ih =>
    refine List.pairwise_cons.mpr ⟨h [] x l rfl, ih fun pre a post hl => ?_⟩
    exact h (x :: pre) a post (congrArg (x :: ·) hl)

variable (hR : ∀ a, R a a)

include hR

/-- Everything in `seen` has been settled. -/
theorem pairwise_loop_iff [DecidableEq α] {seen l : List α}
    (hseen : ∀ a ∈ seen, ∀ b ∈ l, R a b ∨ b ∈ seen) :
    (loop seen l).Pairwise R ↔ SettledFrom R seen l := by
  induction l generalizing seen with
  | nil => simp [loop, SettledFrom]
  | cons x l ih =>
    have hseen' : ∀ a ∈ seen, ∀ b ∈ l, R a b ∨ b ∈ seen := fun a ha b hb =>
      hseen a ha b (List.mem_cons_of_mem _ hb)
    rw [loop, settledFrom_cons]
    split_ifs with hx
    · rw [ih hseen', and_iff_right (hseen' x hx)]
      refine settledFrom_congr fun b => ⟨List.mem_cons_of_mem _, fun hb => ?_⟩
      rcases List.mem_cons.mp hb with rfl | hb
      · exact hx
      · exact hb
    · have hhead : (∀ b ∈ loop (x :: seen) l, R x b) ↔ ∀ b ∈ l, R x b ∨ b ∈ seen := by
        refine ⟨fun h b hb => ?_, fun h b hb => ?_⟩
        · by_cases hbx : b = x
          · exact .inl (hbx ▸ hR b)
          by_cases hbs : b ∈ seen
          · exact .inr hbs
          · exact .inl (h b (mem_loop.mpr ⟨by simp [hbx, hbs], hb⟩))
        · obtain ⟨hbs, hbl⟩ := mem_loop.mp hb
          exact (h b hbl).resolve_right fun hb => hbs (List.mem_cons_of_mem _ hb)
      rw [List.pairwise_cons, hhead]
      refine and_congr_right fun hfirst => ih fun a ha b hb => ?_
      rcases List.mem_cons.mp ha with rfl | ha
      · exact (hfirst b hb).imp_right (List.mem_cons_of_mem _)
      · exact (hseen' a ha b hb).imp_right (List.mem_cons_of_mem _)

/-- **The order of the first occurrences.** -/
theorem pairwise_firsts_iff [DecidableEq α] {l : List α} :
    (firsts l).Pairwise R ↔ Settled R l := by
  unfold firsts
  rw [pairwise_loop_iff hR (by simp)]
  simp [SettledFrom, Settled]

omit hR in
/-- Where an element of a list of blocks stands. -/
theorem flatMap_split {f : β → List α} {bs : List β} {P Q : List α} {a : α}
    (h : bs.flatMap f = P ++ a :: Q) :
    ∃ pre s post p q, bs = pre ++ s :: post ∧ f s = p ++ a :: q ∧
      P = pre.flatMap f ++ p ∧ Q = q ++ post.flatMap f := by
  induction bs generalizing P with
  | nil => simp at h
  | cons s bs ih =>
    rw [List.flatMap_cons, List.append_eq_append_iff] at h
    rcases h with ⟨P', rfl, h⟩ | ⟨B, hs, h⟩
    · obtain ⟨pre, s', post, p, q, rfl, hs', rfl, hQ⟩ := ih h
      exact ⟨s :: pre, s', post, p, q, rfl, hs', by simp, hQ⟩
    · cases B with
      | nil =>
        obtain ⟨pre, s', post, p, q, rfl, hs', hP, hQ⟩ := ih (P := []) h.symm
        refine ⟨s :: pre, s', post, p, q, rfl, hs', ?_, hQ⟩
        rw [List.flatMap_cons, List.append_assoc, ← hP, hs, List.append_nil, List.append_nil]
      | cons b B =>
        cases h
        exact ⟨[], s, bs, P, B, rfl, hs, rfl, rfl⟩

/-- **Blocks.** If every block is in order, only what a later block brings up counts. -/
theorem settled_flatMap_iff {f : β → List α} {bs : List β} (hf : ∀ s ∈ bs, (f s).Pairwise R) :
    Settled R (bs.flatMap f) ↔ ∀ pre s post, bs = pre ++ s :: post → ∀ a ∈ f s, ∀ s' ∈ post,
      ∀ b ∈ f s', R a b ∨ ∃ s'' ∈ pre ++ [s], b ∈ f s'' := by
  constructor
  · rintro h pre s post rfl a ha s' hs' b hb
    obtain ⟨p, q, hpq⟩ := List.append_of_mem ha
    refine (h (pre.flatMap f ++ p) a (q ++ post.flatMap f) ?_ b ?_).imp_right fun hb => ?_
    · simp [hpq]
    · exact List.mem_append_right _ (List.mem_flatMap.mpr ⟨s', hs', hb⟩)
    · rcases List.mem_append.mp hb with hb | hb
      · obtain ⟨s'', hs'', hb⟩ := List.mem_flatMap.mp hb
        exact ⟨s'', List.mem_append_left _ hs'', hb⟩
      · exact ⟨s, by simp, by simp [hpq, hb]⟩
  · intro h P a Q hl b hb
    obtain ⟨pre, s, post, p, q, rfl, hs, rfl, rfl⟩ := flatMap_split hl
    have hblock := hf s (by simp)
    rw [hs, List.pairwise_append, List.pairwise_cons] at hblock
    obtain ⟨-, ⟨hq, -⟩, -⟩ := hblock
    rcases List.mem_append.mp hb with hb | hb
    · exact .inl (hq b hb)
    · obtain ⟨s', hs', hb⟩ := List.mem_flatMap.mp hb
      rcases h pre s post rfl a (by simp [hs]) s' hs' b hb with hr | ⟨s'', hs'', hb⟩
      · exact .inl hr
      · rcases List.mem_append.mp hs'' with hs'' | hs''
        · exact .inr (List.mem_append_left _ (List.mem_flatMap.mpr ⟨s'', hs'', hb⟩))
        · rw [List.mem_singleton.mp hs'', hs] at hb
          rcases List.mem_append.mp hb with hb | hb
          · exact .inr (List.mem_append_right _ hb)
          · rcases List.mem_cons.mp hb with rfl | hb
            · exact .inl (hR b)
            · exact .inl (hq b hb)

end Firsts
