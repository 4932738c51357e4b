import Mathlib.Data.List.Basic
import Mathlib.Data.Set.Basic

/-!
# Programs that consult a source

`Query κ δ α` is a program that asks a source for the values of type `δ` behind keys of
type `κ`, where each key may depend on the answers before it, and ends with an `α`. A
source may be a function (`eval`) or have a state (`run`), such as a cache.

Main results:

* `eval_congr`: the result depends only on the answers to the keys asked.
* `run_eval`: a source whose answers are those of a function gives the function's
  result.
* `evalOr_eq_some_iff`: when a program over a source that may fail ends.
* `run_recorded`: a source that records what it is asked has recorded everything.
* `run_keeps_answers`: over a source that never takes an answer back the result is that over
  the function of its last answers.
* `asked_of_led`: a program led by its answers asks only for what it was told of.
-/

/-- A program over a source. -/
inductive Query (κ δ α : Type) where
  | ret (a : α)
  | ask (k : κ) (next : δ → Query κ δ α)

namespace Query

variable {κ δ α β σ : Type}

/-- Run `q` and then `f` on its result. -/
def bind : Query κ δ α → (α → Query κ δ β) → Query κ δ β
  | .ret a, f => f a
  | .ask k next, f => .ask k fun d => (next d).bind f

instance : Monad (Query κ δ) where
  pure := .ret
  bind := bind

/-- The answer to one key. -/
def get (k : κ) : Query κ δ δ := .ask k .ret

/-- Run `f` on the elements of a list and join the results. -/
def collect (f : α → Query κ δ (List β)) : List α → Query κ δ (List β)
  | [] => pure []
  | a :: as => do
    let bs ← f a
    let rest ← collect f as
    pure (bs ++ rest)

/-! ## Pure sources -/

/-- The result over a function. -/
def eval (src : κ → δ) : Query κ δ α → α
  | .ret a => a
  | .ask k next => (next (src k)).eval src

/-- The keys asked of a function, in order. -/
def asked (src : κ → δ) : Query κ δ α → List κ
  | .ret _ => []
  | .ask k next => k :: (next (src k)).asked src

variable {src : κ → δ}

@[simp] theorem eval_pure (a : α) : (pure a : Query κ δ α).eval src = a := rfl

@[simp] theorem eval_get (k : κ) : (get k : Query κ δ δ).eval src = src k := rfl

@[simp] theorem eval_bind (q : Query κ δ α) (f : α → Query κ δ β) :
    (q >>= f).eval src = (f (q.eval src)).eval src := by
  induction q with
  | ret a => rfl
  | ask k next ih => exact ih (src k)

@[simp] theorem eval_collect (f : α → Query κ δ (List β)) (as : List α) :
    (collect f as).eval src = as.flatMap fun a => (f a).eval src := by
  induction as with
  | nil => rfl
  | cons a as ih => simp [collect, ih]

theorem eval_ite (p : Prop) [Decidable p] (q q' : Query κ δ α) :
    (if p then q else q').eval src = if p then q.eval src else q'.eval src := by
  split_ifs <;> rfl

/-- **The result depends on the answers.** -/
theorem eval_congr {src' : κ → δ} {q : Query κ δ α} (h : ∀ k ∈ q.asked src, src' k = src k) :
    q.eval src' = q.eval src := by
  induction q with
  | ret a => rfl
  | ask k next ih =>
    rw [asked, List.forall_mem_cons] at h
    rw [eval, eval, h.1]
    exact ih _ h.2

/-! ## Sources that fail -/

/-- The result over a source that may fail, if it answers everything it is asked. -/
def evalOr (src : κ → Option δ) : Query κ δ α → Option α
  | .ret a => some a
  | .ask k next => (src k).bind fun d => (next d).evalOr src

/-- **Failing answers.** A program over a source that may fail ends exactly when none of the
    keys that are asked of the answers fails. -/
theorem evalOr_eq_some_iff {src' : κ → Option δ} (h : ∀ k d, src' k = some d → src k = d)
    {q : Query κ δ α} {a : α} :
    q.evalOr src' = some a ↔ (∀ k ∈ q.asked src, (src' k).isSome = true) ∧ q.eval src = a := by
  induction q with
  | ret b => simp [evalOr, asked, eval]
  | ask k next ih =>
    rw [evalOr, asked, List.forall_mem_cons, eval]
    cases hk : src' k with
    | none => simp
    | some d =>
      rw [h k d hk, Option.bind_some, ih]
      simp

/-! ## Sources with a state -/

/-- The result over a source with a state, and its last state. -/
def run (answer : κ → σ → δ × σ) : Query κ δ α → σ → α × σ
  | .ret a, s => (a, s)
  | .ask k next, s =>
    let r := answer k s
    (next r.1).run answer r.2

/-- **Answers of a function.** `I` holds of the states of the source, and in such a state
    it answers as `src` does the keys that satisfy `P`. -/
theorem run_eval {answer : κ → σ → δ × σ} {I : σ → Prop} {P : κ → Prop}
    (h : ∀ k s, P k → I s → (answer k s).1 = src k ∧ I (answer k s).2) {q : Query κ δ α} {s : σ}
    (hP : ∀ k ∈ q.asked src, P k) (hs : I s) :
    (q.run answer s).1 = q.eval src ∧ I (q.run answer s).2 := by
  induction q generalizing s with
  | ret a => exact ⟨rfl, hs⟩
  | ask k next ih =>
    rw [asked, List.forall_mem_cons] at hP
    obtain ⟨hans, hI⟩ := h k s hP.1 hs
    rw [run, eval]
    rw [hans]
    exact ih _ hP.2 hI

/-- **What was asked is recorded.** -/
theorem run_recorded {answer : κ → σ → δ × σ} {I : σ → Prop}
    (h : ∀ k s, I s → (answer k s).1 = src k ∧ I (answer k s).2) {R : σ → κ → Prop}
    (hnew : ∀ k s, I s → R (answer k s).2 k)
    (hold : ∀ k s k', I s → R s k' → R (answer k s).2 k') {q : Query κ δ α} {s : σ} (hs : I s) :
    (∀ k, R s k → R (q.run answer s).2 k) ∧ ∀ k ∈ q.asked src, R (q.run answer s).2 k := by
  induction q generalizing s with
  | ret a => exact ⟨fun _ => id, by simp [asked]⟩
  | ask k next ih =>
    obtain ⟨hans, hI⟩ := h k s hs
    obtain ⟨hkept, hasked⟩ := ih (answer k s).1 hI
    rw [asked, List.forall_mem_cons, ← hans]
    exact ⟨fun k' hk' => hkept k' (hold k s k' hs hk'), hkept k (hnew k s hs), hasked⟩

/-- The keys asked of a source with a state, in order. -/
def trace (answer : κ → σ → δ × σ) : Query κ δ α → σ → List κ
  | .ret _, _ => []
  | .ask k next, s => k :: (next (answer k s).1).trace answer (answer k s).2

/-- What every answer keeps, a run keeps; `P` holds of the keys. -/
theorem run_inv {answer : κ → σ → δ × σ} {I : σ → Prop} {P : κ → Prop}
    (h : ∀ k s, P k → I s → I (answer k s).2) {q : Query κ δ α} {s : σ}
    (hP : ∀ k ∈ q.trace answer s, P k) (hs : I s) : I (q.run answer s).2 := by
  induction q generalizing s with
  | ret a => exact hs
  | ask k next ih =>
    rw [trace, List.forall_mem_cons] at hP
    exact ih _ hP.2 (h k s hP.1 hs)

/-- **Answers that are kept.** `known s` has the answers a source gave so far. When it never
    takes one back, the run asks the same keys and ends with the same result as over any
    function that has its last answers. -/
theorem run_keeps_answers {answer : κ → σ → δ × σ} (known : σ → κ → Option δ)
    (hnew : ∀ k s, known (answer k s).2 k = some (answer k s).1)
    (hold : ∀ k s k' d, known s k' = some d → known (answer k s).2 k' = some d)
    {q : Query κ δ α} {s : σ} (hsrc : ∀ k d, known (q.run answer s).2 k = some d → src k = d) :
    (q.run answer s).1 = q.eval src ∧ q.trace answer s = q.asked src ∧
      (∀ k d, known s k = some d → known (q.run answer s).2 k = some d) ∧
      ∀ k ∈ q.trace answer s, (known (q.run answer s).2 k).isSome = true := by
  induction q generalizing s with
  | ret a => exact ⟨rfl, rfl, fun _ _ h => h, fun _ h => absurd h List.not_mem_nil⟩
  | ask k next ih =>
    obtain ⟨heval, htrace, hkept, hknown⟩ := ih (answer k s).1 hsrc
    have hlast : known ((Query.ask k next).run answer s).2 k = some (answer k s).1 :=
      hkept k _ (hnew k s)
    have hk : src k = (answer k s).1 := hsrc k _ hlast
    rw [run, eval, trace, asked, hk, List.forall_mem_cons]
    exact ⟨heval, by rw [htrace], fun k' d hd => hkept k' d (hold k s k' d hd),
      Option.isSome_iff_exists.mpr ⟨_, hlast⟩, hknown⟩

/-! ## Programs led by their answers

`Led N Q S q` is a triple: where the keys in `S` may be asked from the start, and those in
`N d` after the answer `d`, the program `q` asks for no other ones, and its result
satisfies `Q`. -/

def Led (N : δ → Set κ) (Q : α → Prop) : Set κ → Query κ δ α → Prop
  | _, .ret a => Q a
  | S, .ask k next => k ∈ S ∧ ∀ d, Led N Q (S ∪ N d) (next d)

section

variable {N : δ → Set κ} {P Q : α → Prop} {S S' : Set κ} {q : Query κ δ α}

theorem Led.mono (h : Led N P S q) (hS : S ⊆ S') (hQ : ∀ a, P a → Q a) : Led N Q S' q := by
  induction q generalizing S S' with
  | ret a => exact hQ a h
  | ask k next ih =>
    exact ⟨hS h.1, fun d => ih d (h.2 d) (Set.union_subset_union_left _ hS)⟩

theorem led_pure {a : α} (h : Q a) : Led N Q S (pure a) := h

theorem led_ite {p : Prop} [Decidable p] {q' : Query κ δ α} (h : p → Led N Q S q)
    (h' : ¬ p → Led N Q S q') : Led N Q S (if p then q else q') := by
  split_ifs with hp
  · exact h hp
  · exact h' hp

/-- The keys that an answer names may be asked from then on. -/
theorem led_get_bind {k : κ} {f : δ → Query κ δ α} (hk : k ∈ S)
    (hf : ∀ d, Led N Q (S ∪ N d) (f d)) : Led N Q S (get k >>= f) := ⟨hk, hf⟩

theorem Led.bind {Q : β → Prop} {f : α → Query κ δ β} (h : Led N P S q)
    (hf : ∀ a, P a → Led N Q S (f a)) : Led N Q S (q >>= f) := by
  induction q generalizing S with
  | ret a => exact hf a h
  | ask k next ih =>
    refine ⟨h.1, fun d => ih d (h.2 d) fun a ha => ?_⟩
    exact (hf a ha).mono Set.subset_union_left fun _ => id

theorem led_collect {Q : β → Prop} {f : α → Query κ δ (List β)} {as : List α}
    (h : ∀ a ∈ as, Led N (fun bs => ∀ b ∈ bs, Q b) S (f a)) :
    Led N (fun bs => ∀ b ∈ bs, Q b) S (collect f as) := by
  induction as with
  | nil => exact led_pure (List.forall_mem_nil Q)
  | cons a as ih =>
    rw [List.forall_mem_cons] at h
    exact h.1.bind fun bs hbs => (ih h.2).bind fun rest hrest =>
      led_pure (List.forall_mem_append.mpr ⟨hbs, hrest⟩)

/-- **Only what was named is asked.** -/
theorem asked_of_led (h : Led N Q S q) {pre post : List κ} {k : κ}
    (hk : q.asked src = pre ++ k :: post) : k ∈ S ∨ ∃ k' ∈ pre, k ∈ N (src k') := by
  induction q generalizing S pre with
  | ret a => simp [asked] at hk
  | ask k₁ next ih =>
    rw [asked] at hk
    cases pre with
    | nil => exact .inl ((List.cons.inj hk).1 ▸ h.1)
    | cons k₂ pre =>
      obtain ⟨rfl, hrest⟩ := List.cons.inj hk
      rcases ih _ (h.2 _) hrest with (hS | hN) | ⟨k', hk', hN⟩
      · exact .inl hS
      · exact .inr ⟨k₁, List.mem_cons_self, hN⟩
      · exact .inr ⟨k', List.mem_cons_of_mem _ hk', hN⟩

end

end Query
