import Zhaxx.Surgeon.ErrorLog

/-!
# Several runs of the surgeon

An operator runs the surgeon more than once on a pool: in dump mode, with a plan that is
refused, killed in the sync task, with a plan that was applied before, with another plan.
Each run imports the pool as the one before committed it.

Results:
* `runs_accounted`: after any runs every difference in the MOS is due to an operation of
  a plan that was accepted and confirmed, and no object was freed as one of another type.
* `runs_once`: a plan that is run any number of times has been executed exactly once, if
  one of the runs says that it was, or not at all.
-/

namespace Zhaxx.Surgeon

variable {M T : Type*}

/-! ## One run -/

/-- The operations that a run is told to execute: those of an accepted plan, in commit
    mode and confirmed. -/
def Env.ordered (env : Env M) : List OpT :=
  match parseArgs {} env.argv with
  | some ⟨some _, some planpath, true⟩ =>
    match env.readFile planpath with
    | none => []
    | some content =>
      if (parsePlan content).accepted && confirmed env.stdin then (parsePlan content).ops else []
  | _ => []

/-- The run exits with success behind a sync task. -/
def Run.completed (r : Run M) : Bool := r.exit == .code 0 && r.syncStart.isSome

namespace Libzpool

variable (L : Libzpool M T)

/-- What a completed run did, and that any other one did nothing. -/
def Settled (start : M) (ops : List OpT) (r : Run M) : Prop :=
  if r.completed = true then ops ≠ [] ∧ L.AppliedAll start ops r else r.committed = start

theorem settled_leave (env : Env M) (code : ℕ) (errlog : Option Errlog) (ops : List OpT) :
    L.Settled (env.interfere env.mos) ops (env.leave code errlog) := by
  have hc : (env.leave code errlog).completed = false := by simp [Run.completed, Env.leave]
  rw [Settled, if_neg (by simp [hc])]
  rfl

theorem runPool_settled (env : Env M) (poolname : String) (commit : Bool) {ops ordered : List OpT}
    (hne : ops ≠ []) (hordered : commit = true → ordered = ops) :
    L.Settled (env.interfere env.mos) ordered (L.runPool env poolname commit ops) := by
  unfold runPool
  split
  · exact L.settled_leave env 1 none _
  · split
    · exact L.settled_leave env 1 _ _
    · dsimp only
      generalize (if commit = true then (⟨0, 0⟩ : Errlog) else env.errlog) = errlog
      split_ifs with hfail hcommit
      · exact L.settled_leave env 1 _ _
      · exact L.settled_leave env 0 _ _
      · rw [hordered (by simpa using hcommit)]
        split
        · exact L.settled_leave env 1 _ _
        · split
          · exact rfl
          · rename_i hdone
            exact ⟨hne, L.applySync_done_iff.mp hdone⟩

/-- **One run.** -/
theorem main_settled (env : Env M) :
    L.Settled (env.interfere env.mos) env.ordered (L.main env) := by
  unfold main
  split
  · rename_i poolname planpath commit hargs
    split
    · exact L.settled_leave env 2 none _
    · rename_i content hread
      dsimp only
      split_ifs with hacc hnil hconf
      · exact L.settled_leave env 2 none _
      · exact L.settled_leave env 0 none _
      · exact L.settled_leave env 1 none _
      · refine L.runPool_settled env poolname commit (fun hops => hnil (by rw [hops]; rfl)) ?_
        rintro rfl
        have hyes : confirmed env.stdin = true := by simpa using hconf
        have hacc' : (parsePlan content).accepted = true := by simpa using hacc
        unfold Env.ordered
        rw [hargs]
        simp only [hread, hacc', hyes, Bool.and_self, if_true]
  · exact L.settled_leave env 2 none _

end Libzpool

/-! ## Runs in a row -/

/-- The same run on another MOS. -/
def Env.on (env : Env M) (mos : M) : Env M := { env with mos := mos }

/-- Nobody else changes the pool during the run. -/
def Env.Quiet (view : M → Store T) (env : Env M) : Prop := ∀ m, view (env.interfere m) = view m

namespace Libzpool

variable (L : Libzpool M T)

/-- The runs, each on the MOS that the one before committed. -/
def runs (mos : M) : List (Env M) → List (Run M)
  | [] => []
  | env :: envs =>
    let r := L.main (env.on mos)
    r :: runs r.committed envs

/-- The MOS behind the runs. -/
def afterRuns (mos : M) (envs : List (Env M)) : M :=
  envs.foldl (fun mos env => (L.main (env.on mos)).committed) mos

theorem afterRuns_cons (mos : M) (env : Env M) (envs : List (Env M)) :
    L.afterRuns mos (env :: envs) = L.afterRuns (L.main (env.on mos)).committed envs := rfl

/-- Every difference between two stores is due to an operation of the list, and what was
    freed had the type that its operation names. -/
structure Accounted (s s' : Store T) (ops : List OpT) : Prop where
  type : ∀ o, s'.type o = s.type o ∨ s'.type o = none ∧
    ∃ op ∈ ops, op.Frees o ∧ ∀ t, s.type o = some t → L.typeNameMatches t op.type = true
  entry : ∀ o k, s'.type o ≠ none → s'.entry o k = s.entry o k ∨
    ∃ op ∈ ops, op.entryWrite o k = some (s'.entry o k)
  numChildren : ∀ o, s'.type o ≠ none → s'.numChildren o = s.numChildren o ∨
    ∃ op ∈ ops, (op.countWrite o).map some = some (s'.numChildren o)

namespace Accounted

variable {L} {s s' s'' : Store T} {ops ops' : List OpT}

theorem refl (s : Store T) (ops : List OpT) : L.Accounted s s ops where
  type _ := .inl rfl
  entry _ _ _ := .inl rfl
  numChildren _ _ := .inl rfl

theorem trans (h : L.Accounted s s' ops) (h' : L.Accounted s' s'' ops') :
    L.Accounted s s'' (ops ++ ops') := by
  have hleft : ∀ {p : OpT → Prop}, (∃ op ∈ ops, p op) → ∃ op ∈ ops ++ ops', p op :=
    fun ⟨op, hop, hp⟩ => ⟨op, List.mem_append_left _ hop, hp⟩
  have hright : ∀ {p : OpT → Prop}, (∃ op ∈ ops', p op) → ∃ op ∈ ops ++ ops', p op :=
    fun ⟨op, hop, hp⟩ => ⟨op, List.mem_append_right _ hop, hp⟩
  have hthere : ∀ o, s''.type o ≠ none → s'.type o ≠ none := by
    intro o hne
    rcases h'.type o with hsame | ⟨hnone, -⟩
    · rwa [← hsame]
    · exact absurd hnone hne
  refine ⟨fun o => ?_, fun o k hne => ?_, fun o hne => ?_⟩
  · rcases h.type o with hsame | ⟨hnone, hop⟩
    · rcases h'.type o with hsame' | ⟨hnone', hop'⟩
      · exact .inl (hsame'.trans hsame)
      · rw [hsame] at hop'
        exact .inr ⟨hnone', hright hop'⟩
    · refine .inr ⟨?_, hleft hop⟩
      rcases h'.type o with hsame' | ⟨hnone', -⟩
      · exact hsame'.trans hnone
      · exact hnone'
  · rcases h'.entry o k hne with hsame' | hop'
    · rw [hsame']
      exact (h.entry o k (hthere o hne)).imp_right hleft
    · exact .inr (hright hop')
  · rcases h'.numChildren o hne with hsame' | hop'
    · rw [hsame']
      exact (h.numChildren o (hthere o hne)).imp_right hleft
    · exact .inr (hright hop')

/-- One sync task accounts for what it does. -/
theorem of_guarded (hg : ∀ op ∈ ops, Guarded L s op) :
    L.Accounted s (ops.foldl Store.apply s) ops where
  type o := by
    rw [Store.foldl_type]
    split_ifs with hfree
    · obtain ⟨op, hop, hf⟩ := hfree
      refine .inr ⟨rfl, op, hop, hf, fun t ht => ?_⟩
      have hop' := hg op hop
      rw [Guarded, hf.1, hf.2] at hop'
      rcases hop' with hnone | ⟨t', ht', hm⟩
      · cases hnone.symm.trans ht
      · cases ht'.symm.trans ht
        exact hm
    · exact .inl rfl
  entry o k hne := by
    rw [Store.foldl_entry_last hne]
    rcases @LastWrite.last_cases _ _ (fun op : OpT => op.entryWrite o k) (s.entry o k) ops with
      ⟨-, hlast⟩ | hop
    · exact .inl hlast
    · exact .inr hop
  numChildren o hne := by
    by_cases hn : (ops.foldl Store.apply s).numChildren o = none
    · left
      by_contra hne'
      have hkept : ∀ op ∈ ops, ¬ op.Frees o := by
        intro op hop hf
        rw [Store.foldl_type, if_pos ⟨op, hop, hf⟩] at hne
        exact hne rfl
      exact (Store.foldl_numChildren_ne_none (s := s) hkept).mpr
        (fun h => hne' (hn.trans h.symm)) hn
    · rw [Store.foldl_numChildren_last hn]
      rcases @LastWrite.last_cases _ _ (fun op : OpT => (op.countWrite o).map some)
        (s.numChildren o) ops with ⟨-, hlast⟩ | hop
      · exact .inl hlast
      · exact .inr hop

end Accounted

end Libzpool

/-! ## Runs that are repeated -/

/-- Executing operations twice is executing them once. -/
theorem Store.foldl_apply_idem (s : Store T) (ops : List OpT) :
    ops.foldl Store.apply (ops.foldl Store.apply s) = ops.foldl Store.apply s := by
  have htype : ∀ o, (ops.foldl Store.apply (ops.foldl Store.apply s)).type o =
      (ops.foldl Store.apply s).type o := by
    intro o
    rw [foldl_type]
    split_ifs with hfree
    · rw [foldl_type, if_pos hfree]
    · rfl
  ext1
  · exact funext htype
  · funext o k
    by_cases ht : (ops.foldl Store.apply s).type o = none
    · rw [(Store.unallocated _ o ht).1, (Store.unallocated _ o ((htype o).trans ht)).1]
    · rw [foldl_entry_last (by rw [htype]; exact ht), foldl_entry_last ht, LastWrite.last_idem]
  · funext o
    by_cases ht : (ops.foldl Store.apply s).type o = none
    · rw [(Store.unallocated _ o ht).2, (Store.unallocated _ o ((htype o).trans ht)).2]
    · have hkept : ∀ op ∈ ops, ¬ op.Frees o := by
        intro op hop hf
        rw [foldl_type, if_pos ⟨op, hop, hf⟩] at ht
        exact ht rfl
      have hiff := foldl_numChildren_ne_none (s := ops.foldl Store.apply s) hkept
      by_cases hn : (ops.foldl Store.apply s).numChildren o = none
      · rw [hn]
        by_contra hne
        exact hiff.mp hne hn
      · rw [foldl_numChildren_last (hiff.mpr hn), foldl_numChildren_last hn, LastWrite.last_idem]

/-- The lines of `dropLog`. -/
def dropLogPlan : String :=
  "zap_set obj=1 key=errlog_last expect=38 value=0\nfree obj=38 type=\"error log\"\n"

/-- A dry run of that plan, and two commits of it. -/
def dropLogRuns : List (Env (Store String)) :=
  [session ["--plan", "repair.plan", "tank"] dropLogPlan,
    session ["--commit", "--plan", "repair.plan", "tank"] dropLogPlan,
    session ["--commit", "--plan", "repair.plan", "tank"] dropLogPlan]

theorem quiet_dropLogRuns : ∀ env ∈ dropLogRuns, env.Quiet id := by
  simp only [dropLogRuns, List.forall_mem_cons]
  exact ⟨fun _ => rfl, fun _ => rfl, fun _ => rfl, List.forall_mem_nil _⟩

namespace Lawful

variable {L : Libzpool M T} {view : M → Store T} (h : Lawful L view)

include h

/-- **One quiet run.** -/
theorem main_step {env : Env M} (hq : env.Quiet view) (mos : M) :
    if (L.main (env.on mos)).completed = true then
      env.ordered ≠ [] ∧ (∀ op ∈ env.ordered, Guarded L (view mos) op) ∧
        view (L.main (env.on mos)).committed = env.ordered.foldl Store.apply (view mos)
    else view (L.main (env.on mos)).committed = view mos := by
  have hmain := L.main_settled (env.on mos)
  have hordered : (env.on mos).ordered = env.ordered := rfl
  have hview : view ((env.on mos).interfere (env.on mos).mos) = view mos := hq mos
  rw [Libzpool.Settled, hordered] at hmain
  split_ifs with hc
  · rw [if_pos hc] at hmain
    obtain ⟨hne, hcheck, happ⟩ := hmain
    refine ⟨hne, fun op hop => ?_, ?_⟩
    · rw [← hview]
      exact h.checkOp_guarded (hcheck op hop)
    · rw [h.applyAll_ok happ, hview]
  · rw [if_neg hc] at hmain
    rw [hmain, hview]

/-- **Every change was ordered.** -/
theorem runs_accounted {envs : List (Env M)} (hq : ∀ env ∈ envs, env.Quiet view) (mos : M) :
    L.Accounted (view mos) (view (L.afterRuns mos envs)) (envs.flatMap Env.ordered) := by
  induction envs generalizing mos with
  | nil => exact .refl _ _
  | cons env envs ih =>
    rw [List.forall_mem_cons] at hq
    have hstep := h.main_step hq.1 mos
    rw [L.afterRuns_cons, List.flatMap_cons]
    refine .trans ?_ (ih hq.2 _)
    split_ifs at hstep with hc
    · rw [hstep.2.2]
      exact .of_guarded hstep.2.1
    · rw [hstep]
      exact .refl _ _

end Lawful

/-- What the three runs changed on `loggedPool`. -/
theorem runs_accounted_dropLog :
    (storeLib String fun t => some t.toList).Accounted loggedPool
      ((storeLib String fun t => some t.toList).afterRuns loggedPool dropLogRuns)
      (dropLogRuns.flatMap Env.ordered) :=
  (storeLib_lawful String fun t => some t.toList).runs_accounted quiet_dropLogRuns loggedPool

namespace Lawful

variable {L : Libzpool M T} {view : M → Store T} (h : Lawful L view)

include h

/-- **Executed once.** However often a plan is run, and in whichever state it finds the
    pool, its operations have been executed once or, as long as no run completed, not at
    all. -/
theorem runs_once {envs : List (Env M)} {ops : List OpT} (hq : ∀ env ∈ envs, env.Quiet view)
    (hops : ∀ env ∈ envs, env.ordered = ops ∨ env.ordered = []) (mos : M) :
    view (L.afterRuns mos envs) =
      if (L.runs mos envs).any Run.completed = true then ops.foldl Store.apply (view mos)
      else view mos := by
  induction envs generalizing mos with
  | nil => rfl
  | cons env envs ih =>
    rw [List.forall_mem_cons] at hq hops
    have hstep := h.main_step hq.1 mos
    rw [L.afterRuns_cons, ih hq.2 hops.2, Libzpool.runs, List.any_cons]
    split_ifs at hstep with hc
    · rw [hc, Bool.true_or, if_pos rfl, hstep.2.2, hops.1.resolve_right hstep.1]
      split_ifs
      · exact Store.foldl_apply_idem _ _
      · rfl
    · have hfalse : (L.main (env.on mos)).completed = false := by simpa using hc
      rw [hfalse, Bool.false_or, hstep]

end Lawful

/-- The second commit is refused, and the first one stands. -/
theorem runs_once_dropLog :
    ((storeLib String fun t => some t.toList).runs loggedPool dropLogRuns).map Run.exit =
        [.code 0, .code 0, .code 1] ∧
      (storeLib String fun t => some t.toList).afterRuns loggedPool dropLogRuns =
        (dropLogRuns.getLast (by decide)).ordered.foldl Store.apply loggedPool := by
  refine ⟨by decide +kernel, ?_⟩
  have hops : ∀ env ∈ dropLogRuns, env.ordered = (dropLogRuns.getLast (by decide)).ordered ∨
      env.ordered = [] := by decide +kernel
  have honce := (storeLib_lawful String fun t => some t.toList).runs_once quiet_dropLogRuns hops
    loggedPool
  rw [if_pos (by decide +kernel)] at honce
  exact honce

end Zhaxx.Surgeon
