import Mathlib.Data.Finset.Card
import Mathlib.Data.Finset.Basic
import Mathlib.Logic.Relation
import Mathlib.Tactic.Basic

/-!
# Depth-first traversal with a visited set and a log

A recursive walk over a graph whose nodes are recognised by a key. Expanding a
node runs its body, a list of steps that either append an event to the log or
visit another node; a node whose key was seen before is skipped.

Main results:

* `run_rule`: the induction rule. A relation that holds for a skipped node
  and is preserved by expanding one holds of the whole traversal.
* `run_covers`: what a finished traversal has done, in terms of the list of
  nodes it expanded.
* `mem_visited_iff`: the visited keys are the reflexive-transitive closure of
  the edges.
* `run_isSome`: with as much fuel as there are unvisited keys the traversal
  finishes; `run_mono`: more fuel does not change its result.
* `run_expand`: bodies may be written in labels that stand for events.
-/

namespace Traverse

/-- One step of a node's body. -/
inductive Step (ν ε : Type*) where
  | emit (e : ε)
  | visit (n : ν)

/-- The visited keys and the log, both in order. -/
@[ext]
structure State (κ ε : Type*) where
  visited : List κ
  out : List ε

variable {ν κ ε : Type*}

/-- Append events to the log. -/
def State.log (t : State κ ε) (es : List ε) : State κ ε := { t with out := t.out ++ es }

/-- Mark a key as visited. -/
def State.mark (t : State κ ε) (k : κ) : State κ ε := { t with visited := t.visited ++ [k] }

@[simp] theorem State.log_visited (t : State κ ε) (es : List ε) :
    (t.log es).visited = t.visited := rfl

@[simp] theorem State.log_out (t : State κ ε) (es : List ε) : (t.log es).out = t.out ++ es := rfl

@[simp] theorem State.mark_visited (t : State κ ε) (k : κ) :
    (t.mark k).visited = t.visited ++ [k] := rfl

@[simp] theorem State.mark_out (t : State κ ε) (k : κ) : (t.mark k).out = t.out := rfl

@[simp] theorem State.log_nil (t : State κ ε) : t.log [] = t := by
  simp [State.log]

theorem State.log_log (t : State κ ε) (es es' : List ε) :
    (t.log es).log es' = t.log (es ++ es') := by
  simp [State.log]

/-- The events a list of steps emits itself. -/
def emits (ss : List (Step ν ε)) : List ε :=
  ss.filterMap fun s => match s with
    | .emit e => some e
    | .visit _ => none

@[simp] theorem mem_emits {ss : List (Step ν ε)} {e : ε} : e ∈ emits ss ↔ .emit e ∈ ss := by
  unfold emits
  rw [List.mem_filterMap]
  constructor
  · rintro ⟨s, hs, he⟩
    cases s with
    | emit e' => simp only [Option.some.injEq] at he; subst he; exact hs
    | visit n => simp at he
  · intro h
    exact ⟨_, h, rfl⟩

@[simp] theorem emits_append (ss ss' : List (Step ν ε)) :
    emits (ss ++ ss') = emits ss ++ emits ss' := by
  simp [emits]

@[simp] theorem emits_map_emit (es : List ε) : emits (es.map (Step.emit (ν := ν))) = es := by
  induction es with
  | nil => rfl
  | cons e es ih => exact congrArg (e :: ·) ih

/-! ## The traversal -/

/-- Run steps in order, visiting with `visit`. -/
def runSteps (visit : State κ ε → ν → Option (State κ ε)) :
    List (Step ν ε) → State κ ε → Option (State κ ε)
  | [], t => some t
  | .emit e :: ss, t => runSteps visit ss (t.log [e])
  | .visit n :: ss, t => (visit t n).bind (runSteps visit ss)

theorem runSteps_append (visit : State κ ε → ν → Option (State κ ε)) (ss ss' : List (Step ν ε))
    (t : State κ ε) :
    runSteps visit (ss ++ ss') t = (runSteps visit ss t).bind (runSteps visit ss') := by
  induction ss generalizing t with
  | nil => rfl
  | cons s ss ih =>
    cases s with
    | emit e => simp only [List.cons_append, runSteps, ih]
    | visit n =>
      simp only [List.cons_append, runSteps, Option.bind_assoc]
      congr 1
      funext t'
      exact ih t'

theorem runSteps_emit (visit : State κ ε → ν → Option (State κ ε)) (es : List ε)
    (t : State κ ε) : runSteps visit (es.map .emit) t = some (t.log es) := by
  induction es generalizing t with
  | nil => simp [runSteps]
  | cons e es ih => simp [runSteps, ih, State.log_log]

section Traversal

variable [DecidableEq κ] (key : ν → κ) (body : ν → List (Step ν ε))

/-- Visit `n`, expanding nested nodes to a depth of at most `fuel`; `none` when
    the fuel does not suffice. -/
def run : ℕ → State κ ε → ν → Option (State κ ε)
  | 0, t, n => if key n ∈ t.visited then some t else none
  | fuel + 1, t, n =>
    if key n ∈ t.visited then some t
    else runSteps (run fuel) (body n) (t.mark (key n))

end Traversal

/-! ## The induction rule -/

/-- `ss` leads from `t` to `t'` when every visit in it satisfies `R`. -/
inductive Chain (R : State κ ε → ν → State κ ε → Prop) :
    List (Step ν ε) → State κ ε → State κ ε → Prop
  | nil {t : State κ ε} : Chain R [] t t
  | emit {e : ε} {ss : List (Step ν ε)} {t t' : State κ ε} :
      Chain R ss (t.log [e]) t' → Chain R (.emit e :: ss) t t'
  | visit {n : ν} {ss : List (Step ν ε)} {t t₁ t' : State κ ε} :
      R t n t₁ → Chain R ss t₁ t' → Chain R (.visit n :: ss) t t'

theorem runSteps_chain {R : State κ ε → ν → State κ ε → Prop}
    {visit : State κ ε → ν → Option (State κ ε)}
    (hR : ∀ t n t', visit t n = some t' → R t n t') :
    ∀ (ss : List (Step ν ε)) (t t' : State κ ε), runSteps visit ss t = some t' →
      Chain R ss t t' := by
  intro ss
  induction ss with
  | nil => intro t t' h; cases h; exact .nil
  | cons s ss ih =>
    intro t t' h
    cases s with
    | emit e => exact .emit (ih _ _ h)
    | visit n =>
      obtain ⟨t₁, h₁, h₂⟩ := Option.bind_eq_some_iff.mp h
      exact .visit (hR _ _ _ h₁) (ih _ _ h₂)

variable (key : ν → κ) (body : ν → List (Step ν ε))

/-- **Induction rule.** -/
theorem run_rule [DecidableEq κ] {R : State κ ε → ν → State κ ε → Prop}
    (seen : ∀ t n, key n ∈ t.visited → R t n t)
    (expand : ∀ t n t', key n ∉ t.visited → Chain R (body n) (t.mark (key n)) t' → R t n t') :
    ∀ fuel t n t', run key body fuel t n = some t' → R t n t' := by
  intro fuel
  induction fuel with
  | zero =>
    intro t n t' h
    rw [run] at h
    split_ifs at h with hs
    cases h
    exact seen t n hs
  | succ fuel ih =>
    intro t n t' h
    rw [run] at h
    split_ifs at h with hs
    · cases h; exact seen t n hs
    · exact expand t n t' hs (runSteps_chain ih _ _ _ h)

/-! ## What a traversal has done -/

/-- `b` is visited from the body of `a`. -/
def Visits (a b : ν) : Prop := .visit b ∈ body a

/-- Every event of `ss` that satisfies `f` stands before the first visit. -/
def Leading (f : ε → Bool) : List (Step ν ε) → Prop
  | [] => True
  | .emit _ :: ss => Leading f ss
  | .visit _ :: ss => ∀ e ∈ emits ss, f e = false

theorem leading_of_silent {f : ε → Bool} {ss : List (Step ν ε)} (h : ∀ e ∈ emits ss, f e = false) :
    Leading f ss := by
  induction ss with
  | nil => trivial
  | cons s ss ih =>
    cases s with
    | emit e => exact ih fun e he => h e (by simp_all)
    | visit n => exact fun e he => h e (by simp_all)

theorem leading_append {f : ε → Bool} {es : List ε} {ss : List (Step ν ε)} (h : Leading f ss) :
    Leading f (es.map .emit ++ ss) := by
  induction es with
  | nil => exact h
  | cons e es ih => exact ih

/-- Going from `t` to `t'` expanded the nodes `exp`, in this order, and logged `w`. -/
structure Expands (t t' : State κ ε) (exp : List ν) (w : List ε) : Prop where
  visited : t'.visited = t.visited ++ exp.map key
  out : t'.out = t.out ++ w
  nodup : t.visited.Nodup → t'.visited.Nodup
  mem_out : ∀ e, e ∈ w ↔ ∃ m ∈ exp, .emit e ∈ body m
  closed : ∀ m ∈ exp, ∀ c, Visits body m c → key c ∈ t'.visited
  filter_out : ∀ f : ε → Bool, (∀ m, Leading f (body m)) →
    w.filter f = exp.flatMap fun m => (emits (body m)).filter f

/-- What visiting `n` from `t` does. -/
def Covers (t : State κ ε) (n : ν) (t' : State κ ε) : Prop :=
  key n ∈ t'.visited ∧ ∃ exp w, Expands key body t t' exp w ∧
    ∀ m ∈ exp, Relation.ReflTransGen (Visits body) n m

theorem chain_visited {ss : List (Step ν ε)} {t t' : State κ ε}
    (h : Chain (Covers key body) ss t t') :
    (∀ k ∈ t.visited, k ∈ t'.visited) ∧ ∀ c, .visit c ∈ ss → key c ∈ t'.visited := by
  induction h with
  | nil => simp
  | emit _ ih => exact ⟨ih.1, fun c hc => ih.2 c (by simpa using hc)⟩
  | visit hn _ ih =>
    obtain ⟨hkey, exp, w, hexp, -⟩ := hn
    refine ⟨fun k hk => ih.1 k (by rw [hexp.visited]; simp [hk]), fun c hc => ?_⟩
    rcases List.mem_cons.mp hc with hc | hc
    · cases hc; exact ih.1 _ hkey
    · exact ih.2 c hc

theorem chain_expands {ss : List (Step ν ε)} {t t' : State κ ε}
    (h : Chain (Covers key body) ss t t') :
    ∃ (exp : List ν) (w : List ε), t'.visited = t.visited ++ exp.map key ∧ t'.out = t.out ++ w ∧
      (t.visited.Nodup → t'.visited.Nodup) ∧
      (∀ e, e ∈ w ↔ .emit e ∈ ss ∨ ∃ m ∈ exp, .emit e ∈ body m) ∧
      (∀ m ∈ exp, ∀ c, Visits body m c → key c ∈ t'.visited) ∧
      (∀ f : ε → Bool, (∀ m, Leading f (body m)) → Leading f ss →
        w.filter f = (emits ss).filter f ++ exp.flatMap fun m => (emits (body m)).filter f) ∧
      ∀ m ∈ exp, ∃ c, .visit c ∈ ss ∧ Relation.ReflTransGen (Visits body) c m := by
  induction h with
  | nil => exact ⟨[], [], by simp [emits]⟩
  | @emit e ss t t' _ ih =>
    obtain ⟨exp, w, h1, h2, h3, h4, h5, h6, h7⟩ := ih
    refine ⟨exp, e :: w, h1, by simp [h2], h3, fun e' => ?_, h5, fun f hb hl => ?_, fun m hm => ?_⟩
    · simp [h4, or_assoc]
    · have := h6 f hb hl
      have he : emits (.emit e :: ss) = e :: emits ss := rfl
      rw [he, List.filter_cons, List.filter_cons, this]
      split_ifs <;> rfl
    · obtain ⟨c, hc, hr⟩ := h7 m hm
      exact ⟨c, by simp [hc], hr⟩
  | @visit n ss t t₁ t' hn hc ih =>
    obtain ⟨hkey, exp₁, w₁, e₁, r₁⟩ := hn
    obtain ⟨exp, w, h1, h2, h3, h4, h5, h6, h7⟩ := ih
    have hmono := (chain_visited key body hc).1
    refine ⟨exp₁ ++ exp, w₁ ++ w, ?_, ?_, fun hnd => h3 (e₁.nodup hnd), fun e => ?_, ?_,
      fun f hb hl => ?_, ?_⟩
    · rw [h1, e₁.visited]; simp
    · rw [h2, e₁.out]; simp
    · rw [List.mem_append, e₁.mem_out, h4]
      simp only [List.mem_append, or_and_right, exists_or, List.mem_cons, reduceCtorEq, false_or]
      exact or_left_comm
    · intro m hm c hmc
      rcases List.mem_append.mp hm with hm | hm
      · exact hmono _ (e₁.closed m hm c hmc)
      · exact h5 m hm c hmc
    · -- the steps after a visit log nothing that `f` selects
      have he : emits (.visit n :: ss) = emits ss := rfl
      have hnil : (emits ss).filter f = [] := by
        rw [List.filter_eq_nil_iff]
        intro e he'
        rw [hl e he']; exact Bool.false_ne_true
      have h6' := h6 f hb (leading_of_silent hl)
      rw [hnil, List.nil_append] at h6'
      rw [he, hnil, List.filter_append, h6', e₁.filter_out f hb, List.flatMap_append]
      rfl
    · intro m hm
      rcases List.mem_append.mp hm with hm | hm
      · exact ⟨n, by simp, r₁ m hm⟩
      · obtain ⟨c, hc, hr⟩ := h7 m hm
        exact ⟨c, by simp [hc], hr⟩

/-- **What a finished traversal has done.** -/
theorem run_covers [DecidableEq κ] {fuel : ℕ} {t : State κ ε} {n : ν} {t' : State κ ε}
    (h : run key body fuel t n = some t') : Covers key body t n t' := by
  refine run_rule key body ?_ ?_ fuel t n t' h
  · intro t n hs
    exact ⟨hs, [], [], ⟨by simp, by simp, id, by simp, by simp, by simp⟩, by simp⟩
  · intro t n t' hs hc
    obtain ⟨exp, w, h1, h2, h3, h4, h5, h6, h7⟩ := chain_expands key body hc
    obtain ⟨hmono, hvis⟩ := chain_visited key body hc
    refine ⟨hmono _ (by simp), n :: exp, w, ⟨?_, by simpa using h2, ?_, ?_, ?_, ?_⟩, ?_⟩
    · rw [h1]; simp
    · intro hnd
      apply h3
      rw [State.mark_visited, ← List.concat_eq_append]
      exact hnd.concat hs
    · intro e
      rw [h4]
      simp
    · intro m hm c hmc
      rcases List.mem_cons.mp hm with rfl | hm
      · exact hvis c hmc
      · exact h5 m hm c hmc
    · intro f hb
      rw [h6 f hb (hb n), List.flatMap_cons]
    · intro m hm
      rcases List.mem_cons.mp hm with rfl | hm
      · exact .refl
      · obtain ⟨c, hc, hr⟩ := h7 m hm
        exact .head hc hr

/-- **The visited keys are the closure of the edges.** -/
theorem mem_visited_iff [DecidableEq κ] {succ : κ → κ → Prop}
    (hsucc : ∀ n k, (∃ c, Visits body n c ∧ key c = k) ↔ succ (key n) k)
    {fuel : ℕ} {out : List ε} {n : ν} {t' : State κ ε}
    (h : run key body fuel ⟨[], out⟩ n = some t') (k : κ) :
    k ∈ t'.visited ↔ Relation.ReflTransGen succ (key n) k := by
  obtain ⟨hkey, exp, w, he, hr⟩ := run_covers key body h
  have hvis : t'.visited = exp.map key := by simpa using he.visited
  constructor
  · intro hk
    rw [hvis] at hk
    obtain ⟨m, hm, rfl⟩ := List.mem_map.mp hk
    exact (hr m hm).lift key fun a b hab => (hsucc a _).mp ⟨b, hab, rfl⟩
  · intro hk
    induction hk with
    | refl => exact hkey
    | tail _ hbc ih =>
      rw [hvis] at ih
      obtain ⟨m, hm, rfl⟩ := List.mem_map.mp ih
      obtain ⟨c, hc, rfl⟩ := (hsucc m _).mpr hbc
      exact he.closed m hm c hc

/-! ## Termination -/

section Termination

variable [DecidableEq κ]

/-- The keys of `U` that are not yet visited. -/
def unvisited (U : Finset κ) (t : State κ ε) : Finset κ := U.filter fun k => k ∉ t.visited

theorem unvisited_mono {U : Finset κ} {t t' : State κ ε} (h : ∀ k ∈ t.visited, k ∈ t'.visited) :
    (unvisited U t').card ≤ (unvisited U t).card := by
  apply Finset.card_le_card
  intro k hk
  simp only [unvisited, Finset.mem_filter] at hk ⊢
  exact ⟨hk.1, fun h' => hk.2 (h k h')⟩

theorem unvisited_mark {U : Finset κ} {t : State κ ε} {k : κ} (hU : k ∈ U) (hk : k ∉ t.visited) :
    (unvisited U (t.mark k)).card < (unvisited U t).card := by
  apply Finset.card_lt_card
  refine ⟨fun j hj => ?_, fun hsub => ?_⟩
  · simp only [unvisited, State.mark_visited, List.mem_append, Finset.mem_filter] at hj ⊢
    exact ⟨hj.1, fun h' => hj.2 (.inl h')⟩
  · have hmem : k ∈ unvisited U t := by simp [unvisited, hU, hk]
    have := hsub hmem
    simp [unvisited] at this

/-- **Termination.** If every visited key lies in `U`, fuel for the unvisited
    part of `U` suffices. -/
theorem run_isSome {U : Finset κ} (hU : ∀ n c, Visits body n c → key c ∈ U) :
    ∀ fuel t n, key n ∈ U → (unvisited U t).card ≤ fuel →
      (run key body fuel t n).isSome := by
  intro fuel
  induction fuel with
  | zero =>
    intro t n hn hc
    have hs : key n ∈ t.visited := by
      by_contra hs
      have : key n ∈ unvisited U t := by simp [unvisited, hn, hs]
      have := Finset.card_pos.mpr ⟨_, this⟩
      omega
    simp [run, hs]
  | succ fuel ih =>
    intro t n hn hc
    rw [run]
    split_ifs with hs
    · rfl
    · have hlt := unvisited_mark hn hs
      -- the remaining steps find only more keys visited
      suffices hsteps : ∀ ss : List (Step ν ε), (∀ c, .visit c ∈ ss → key c ∈ U) →
          ∀ t₁ : State κ ε, (unvisited U t₁).card ≤ fuel →
            (runSteps (run key body fuel) ss t₁).isSome by
        exact hsteps (body n) (hU n) _ (by omega)
      intro ss
      induction ss with
      | nil => intro _ t₁ _; rfl
      | cons s ss ihs =>
        intro hss t₁ hc₁
        cases s with
        | emit e => exact ihs (fun c hc => hss c (by simp [hc])) _ hc₁
        | visit c =>
          obtain ⟨t₂, h₂⟩ := Option.isSome_iff_exists.mp (ih t₁ c (hss c (by simp)) hc₁)
          rw [runSteps, h₂, Option.bind_some]
          obtain ⟨-, exp, w, he, -⟩ := run_covers key body h₂
          refine ihs (fun c hc => hss c (by simp [hc])) _ (le_trans (unvisited_mono ?_) hc₁)
          intro k hk
          rw [he.visited]; simp [hk]

/-- More fuel does not change a finished traversal. -/
theorem run_mono {fuel fuel' : ℕ} (hle : fuel ≤ fuel') {t : State κ ε} {n : ν}
    {t' : State κ ε} (h : run key body fuel t n = some t') :
    run key body fuel' t n = some t' := by
  induction fuel generalizing fuel' t n t' with
  | zero =>
    rw [run] at h
    split_ifs at h with hs
    cases fuel' <;> simp only [run, if_pos hs, h]
  | succ fuel ih =>
    obtain ⟨fuel', rfl⟩ : ∃ f, fuel' = f + 1 := ⟨fuel' - 1, by omega⟩
    rw [run] at h ⊢
    split_ifs at h ⊢ with hs
    · exact h
    · have hsteps : ∀ (ss : List (Step ν ε)) (t t' : State κ ε),
          runSteps (run key body fuel) ss t = some t' →
          runSteps (run key body fuel') ss t = some t' := by
        intro ss
        induction ss with
        | nil => exact fun _ _ h => h
        | cons s ss ihs =>
          intro t t' h
          cases s with
          | emit e => exact ihs _ _ h
          | visit c =>
            obtain ⟨t₁, h₁, h₂⟩ := Option.bind_eq_some_iff.mp h
            rw [runSteps, ih (by omega) h₁]
            exact ihs _ _ h₂
      exact hsteps _ _ _ h

end Termination

/-! ## Labels -/

section Labels

variable {μ : Type*} (f : μ → List ε)

/-- The steps that a step with a label stands for. -/
def Step.expand : Step ν μ → List (Step ν ε)
  | .emit l => (f l).map .emit
  | .visit n => [.visit n]

/-- The state that a state with a log of labels stands for, behind the log `base`. -/
def State.expand (base : List ε) (t : State κ μ) : State κ ε :=
  ⟨t.visited, base ++ t.out.flatMap f⟩

theorem expand_log (base : List ε) (t : State κ μ) (l : μ) :
    (t.expand f base).log (f l) = (t.log [l]).expand f base := by
  simp [State.expand, State.log]

theorem runSteps_expand {base : List ε} {visit : State κ ε → ν → Option (State κ ε)}
    {visit' : State κ μ → ν → Option (State κ μ)}
    (h : ∀ t n, visit (t.expand f base) n = (visit' t n).map (State.expand f base))
    (ss : List (Step ν μ)) (t : State κ μ) :
    runSteps visit (ss.flatMap (Step.expand f)) (t.expand f base) =
      (runSteps visit' ss t).map (State.expand f base) := by
  induction ss generalizing t with
  | nil => rfl
  | cons s ss ih =>
    rw [List.flatMap_cons, runSteps_append]
    cases s with
    | emit l => rw [Step.expand, runSteps_emit, Option.bind_some, expand_log, ih]; rfl
    | visit n =>
      simp only [Step.expand, runSteps, h, Option.bind_fun_some]
      cases visit' t n with
      | none => rfl
      | some t₁ => exact ih t₁

/-- **A traversal in labels.** Running bodies written in labels and expanding the log at
    the end is running the expanded bodies. -/
theorem run_expand [DecidableEq κ] (labels : ν → List (Step ν μ)) (base : List ε) :
    ∀ (fuel : ℕ) (t : State κ μ) (n : ν),
      run key (fun n => (labels n).flatMap (Step.expand f)) fuel (t.expand f base) n =
        (run key labels fuel t n).map (State.expand f base) := by
  intro fuel
  induction fuel with
  | zero =>
    intro t n
    rw [run, run]
    split_ifs with h h' h'
    · rfl
    · exact absurd h h'
    · exact absurd h' h
    · rfl
  | succ fuel ih =>
    intro t n
    rw [run, run]
    split_ifs with h h' h'
    · rfl
    · exact absurd h h'
    · exact absurd h' h
    · exact runSteps_expand f ih (labels n) (t.mark (key n))

end Labels

end Traverse
