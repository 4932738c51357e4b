import Mathlib.Data.List.Basic

/-!
# Monitors

A protocol is a monitor: a state and a step that takes the next event or refuses it. A
trace keeps the protocol when the monitor takes all of it.

Main results:

* `run_append`: how a monitor runs through the parts of a trace.
* `run_history`: what every step keeps of the trace and the state, a run keeps.
-/

namespace Monitor

variable {σ ι : Type*} {step : σ → ι → Option σ}

/-- The state behind a trace, or `none` when one of its events is refused. -/
def run (step : σ → ι → Option σ) (s : σ) : List ι → Option σ
  | [] => some s
  | i :: is => (step s i).bind fun s => run step s is

@[simp] theorem run_nil (s : σ) : run step s [] = some s := rfl

theorem run_cons (s : σ) (i : ι) (is : List ι) :
    run step s (i :: is) = (step s i).bind fun s => run step s is := rfl

/-- An event that is taken. -/
theorem run_cons_of {s s' : σ} {i : ι} (h : step s i = some s') (is : List ι) :
    run step s (i :: is) = run step s' is := by
  rw [run_cons, h, Option.bind_some]

theorem run_append (s : σ) (is js : List ι) :
    run step s (is ++ js) = (run step s is).bind fun s => run step s js := by
  induction is generalizing s with
  | nil => rfl
  | cons i is ih =>
    rw [List.cons_append, run_cons, run_cons]
    cases step s i with
    | none => rfl
    | some s' => exact ih s'

/-- A part of a trace that is accepted. -/
theorem run_append_of {s s' : σ} {is : List ι} (h : run step s is = some s') (js : List ι) :
    run step s (is ++ js) = run step s' js := by
  rw [run_append, h, Option.bind_some]

/-- **Invariants** of the trace behind and the state. -/
theorem run_history {I : List ι → σ → Prop}
    (hstep : ∀ tr s i s', I tr s → step s i = some s' → I (tr ++ [i]) s') {s t : σ}
    {before is : List ι} (hs : I before s) (h : run step s is = some t) : I (before ++ is) t := by
  induction is generalizing s before with
  | nil =>
    rw [List.append_nil]
    exact Option.some.inj h ▸ hs
  | cons i is ih =>
    rw [run_cons] at h
    obtain ⟨s', h', h⟩ := Option.bind_eq_some_iff.mp h
    rw [← List.singleton_append, ← List.append_assoc]
    exact ih (hstep before s i s' hs h') h

end Monitor
