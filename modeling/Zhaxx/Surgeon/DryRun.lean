import Zhaxx.Surgeon.Guards
import Zhaxx.Surgeon.Sessions

/-!
# Dry runs

Without `--commit` the surgeon imports the pool read-only, checks every precondition and
stops (`surgeon/zhaxx.c` lines 636–638): the operator is to look at this run before the
commit. What it says of the commit of the same plan on the same pool is its exit code, up
to the operations that pass 2 cannot execute.

Result:
* `commit_exit`: the commit ends as its dry run does, or is killed in pass 2.
-/

namespace Zhaxx.Surgeon

variable {M T : Type*}

/-- What the end `dry` of a dry run says of the end `commit` of the commit of `ops` on `s`: it
    is the same, unless the dry run succeeds for operations that pass 2 cannot complete. -/
def Foretold (s : Store T) (ops : List OpT) (dry commit : Exit) : Prop :=
  (Completes s ops → commit = dry) ∧
    (¬ Completes s ops → commit = if dry = .code 0 then .killed else dry)

theorem foretold_of_eq {s : Store T} {ops : List OpT} {n : ℕ} (hn : n ≠ 0) :
    Foretold s ops (.code n) (.code n) :=
  ⟨fun _ => rfl, fun _ => by rw [if_neg fun h => hn (Exit.code.inj h)]⟩

namespace Faultless

variable {L : Libzpool M T} {view : M → Store T} (h : Faultless L view)

include h

/-- The sync task behind checks that passed. -/
theorem applySync_exit {m : M} {ops : List OpT} (hc : ∀ op ∈ ops, L.checkOp m op = true) :
    (Completes (view m) ops → ∃ m', L.applySync m ops = .done m') ∧
      (¬ Completes (view m) ops → L.applySync m ops = .killed) := by
  rw [← h.applyAll_completes hc]
  constructor
  · rintro ⟨m', hm'⟩
    exact ⟨m', (L.applySync_done_iff).mpr ⟨hc, hm'⟩⟩
  · intro hno
    cases hsync : L.applySync m ops with
    | killed => rfl
    | done m' => exact absurd ⟨m', ((L.applySync_done_iff).mp hsync).2⟩ hno

theorem runPool_exit {env dry : Env M} {name : String} {ops : List OpT}
    (himp : dry.importPool = env.importPool) (hopen : dry.spaOpen = env.spaOpen)
    (hmos : dry.mos = env.mos) (hquiet : env.interfere env.mos = env.mos)
    (hsync : env.syncTask = none) :
    Foretold (view env.mos) ops (L.runPool dry name false ops).exit
      (L.runPool env name true ops).exit := by
  unfold Libzpool.runPool
  rw [himp, hopen, hmos]
  cases env.importPool name with
  | some e => exact foretold_of_eq Nat.one_ne_zero
  | none =>
    cases env.spaOpen name with
    | some e => exact foretold_of_eq Nat.one_ne_zero
    | none =>
      dsimp only
      by_cases hfail : (ops.filter fun op => !L.checkOp env.mos op).length > 0
      · rw [if_pos hfail, if_pos hfail]
        exact foretold_of_eq Nat.one_ne_zero
      · have hpass : ∀ op ∈ ops, L.checkOp env.mos op = true := by
          have hnil : (ops.filter fun op => !L.checkOp env.mos op) = [] :=
            List.length_eq_zero_iff.mp (Nat.le_zero.mp (not_lt.mp hfail))
          rw [List.filter_eq_nil_iff] at hnil
          exact fun op hop => by simpa using hnil op hop
        obtain ⟨hdone, hkilled⟩ := h.applySync_exit hpass
        rw [if_neg hfail, if_neg hfail, hsync, hquiet]
        simp only [Bool.not_false, Bool.not_true, if_true, Bool.false_eq_true, if_false]
        refine ⟨fun hc => ?_, fun hc => ?_⟩
        · obtain ⟨m', hm'⟩ := hdone hc
          rw [hm']
          rfl
        · rw [hkilled hc]
          rfl

end Faultless

end Zhaxx.Surgeon
