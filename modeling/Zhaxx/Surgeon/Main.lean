import Zhaxx.Surgeon.Libzpool

/-!
# The surgeon

Models of `apply_sync` and `main` (`surgeon/zhaxx.c` lines 391–458 and 543–666)
over any `libzpool`. Its assumptions: a failing `VERIFY0` in the sync task kills
the process and the open transaction group is discarded, and import and export
do not edit the MOS.

Results:
* `applySync_done_iff`: the sync task completes exactly when every precondition
  holds and every operation succeeds.
* `main_committed`: the committed MOS is the one the sync task started from, or
  all operations were executed on it, in commit mode and with every precondition
  satisfied.
-/

namespace Zhaxx.Surgeon

variable {M T : Type*}

/-! ## `apply_sync` -/

/-- The end of the sync task: killed by `VERIFY0`, or returned. -/
inductive SyncResult (M : Type*) where
  | killed
  | done (mos : M)

namespace Libzpool

variable (L : Libzpool M T)

/-- Pass 1 (lines 400–411): `false` when it runs into `VERIFY0(1)`. -/
def syncPass1 (mos : M) : List OpT → Bool
  | [] => true
  | op :: ops => if !L.checkOp mos op then false else syncPass1 mos ops

/-- Pass 2 (lines 414–455). -/
def syncPass2 (mos : M) : List OpT → SyncResult M
  | [] => .done mos
  | op :: ops =>
    match L.applyOp mos op with
    | .error _ => .killed
    | .ok mos => syncPass2 mos ops

/-- `apply_sync` (lines 391–458). -/
def applySync (mos : M) (ops : List OpT) : SyncResult M :=
  if !L.syncPass1 mos ops then .killed else L.syncPass2 mos ops

theorem syncPass1_iff {mos : M} {ops : List OpT} :
    L.syncPass1 mos ops = true ↔ ∀ op ∈ ops, L.checkOp mos op = true := by
  induction ops with
  | nil => simp [syncPass1]
  | cons op ops ih =>
    rw [syncPass1, List.forall_mem_cons, ← ih]
    cases L.checkOp mos op <;> simp

theorem syncPass2_done_iff {mos mos' : M} {ops : List OpT} :
    L.syncPass2 mos ops = .done mos' ↔ L.applyAll mos ops = .ok mos' := by
  induction ops generalizing mos with
  | nil => simp [syncPass2]
  | cons op ops ih =>
    rw [syncPass2, applyAll_cons]
    cases L.applyOp mos op with
    | error e => simp [Except.bind]
    | ok mos₁ => exact ih

/-- **When the sync task completes.** -/
theorem applySync_done_iff {mos mos' : M} {ops : List OpT} :
    L.applySync mos ops = .done mos' ↔
      (∀ op ∈ ops, L.checkOp mos op = true) ∧ L.applyAll mos ops = .ok mos' := by
  unfold applySync
  rw [← syncPass1_iff, ← syncPass2_done_iff]
  cases L.syncPass1 mos ops <;> simp

end Libzpool

/-! ## `main` -/

/-- `spa_errlog_last` and `spa_errlog_scrub` of the imported pool. -/
structure Errlog where
  last : ℕ
  scrub : ℕ
  deriving DecidableEq

/-- The arguments as the loop of `main` collects them (lines 552–564). -/
structure Args where
  poolname : Option String := none
  planpath : Option String := none
  commit : Bool := false

/-- The loop over `argv` (lines 552–564); `none` is the call of `usage`. -/
def parseArgs (args : Args) : List String → Option Args
  | [] => some args
  | "--commit" :: argv => parseArgs { args with commit := true } argv
  | "--plan" :: path :: argv => parseArgs { args with planpath := some path } argv
  | arg :: argv =>
    if !"-".toList.isPrefixOf arg.toList then parseArgs { args with poolname := some arg } argv
    else none

/-- What the process meets: its arguments and input, the file system, the
    outcome of the calls that import, open and sync, and the MOS. -/
structure Env (M : Type*) where
  argv : List String
  stdin : List Char
  readFile : String → Option (List Char)
  importPool : String → Option Errno
  spaOpen : String → Option Errno
  /-- The error with which `dsl_sync_task` fails before it calls `apply_sync`. -/
  syncTask : Option Errno
  /-- The MOS as imported. -/
  mos : M
  /-- The in-memory error log when `spa_open` returns. -/
  errlog : Errlog
  /-- What happens to the MOS between the precondition check and the sync task. -/
  interfere : M → M

/-- How the process ends. -/
inductive Exit where
  | code (n : ℕ)
  | killed
  deriving DecidableEq

/-- What a run of the surgeon leaves behind. -/
structure Run (M : Type*) where
  exit : Exit
  /-- The MOS when `apply_sync` started, if it was reached. -/
  syncStart : Option M
  /-- The committed MOS. -/
  committed : M
  /-- The in-memory error log at the export, if the export was reached. -/
  errlog : Option Errlog

/-- A run that ends before `apply_sync`, with the MOS as others leave it. -/
def Env.leave (env : Env M) (code : ℕ) (errlog : Option Errlog) : Run M :=
  ⟨.code code, none, env.interfere env.mos, errlog⟩

/-- The answer to the prompt (lines 588–593). -/
def confirmed (stdin : List Char) : Bool :=
  match CText.fgetsLines 15 stdin with
  | [] => false
  | resp :: _ => CText.cstr resp == "YES\n".toList

namespace Libzpool

variable (L : Libzpool M T)

/-- `main` from the call of `do_import` on (lines 596–666). -/
def runPool (env : Env M) (poolname : String) (commit : Bool) (ops : List OpT) : Run M :=
  match env.importPool poolname with
  | some _ => env.leave 1 none
  | none =>
    match env.spaOpen poolname with
    | some _ => env.leave 1 (some env.errlog)
    | none =>
      let errlog := if commit then ⟨0, 0⟩ else env.errlog
      if (ops.filter fun op => !L.checkOp env.mos op).length > 0 then env.leave 1 (some errlog)
      else if !commit then env.leave 0 (some errlog)
      else
        match env.syncTask with
        | some _ => env.leave 1 (some errlog)
        | none =>
          let start := env.interfere env.mos
          match L.applySync start ops with
          | .killed => ⟨.killed, some start, start, none⟩
          | .done mos => ⟨.code 0, some start, mos, some errlog⟩

/-- `main` (lines 543–666). -/
def main (env : Env M) : Run M :=
  match parseArgs {} env.argv with
  | some ⟨some poolname, some planpath, commit⟩ =>
    match env.readFile planpath with
    | none => env.leave 2 none
    | some content =>
      let parsed := parsePlan content
      if !parsed.accepted then env.leave 2 none
      else if parsed.ops.length = 0 then env.leave 0 none
      else if commit && !confirmed env.stdin then env.leave 1 none
      else L.runPool env poolname commit parsed.ops
  | _ => env.leave 2 none

/-- The run committed the result of all of `ops`, executed in order on the MOS
    `start` on which each of their preconditions holds. -/
def AppliedAll (start : M) (ops : List OpT) (r : Run M) : Prop :=
  (∀ op ∈ ops, L.checkOp start op = true) ∧ L.applyAll start ops = .ok r.committed

/-- The run left the MOS as it was, or as others left it. -/
def LeftAlone (env : Env M) (r : Run M) : Prop :=
  match r.syncStart with
  | none => r.committed = env.interfere env.mos
  | some start => start = env.interfere env.mos ∧ r.committed = start

theorem leftAlone_leave (env : Env M) (code : ℕ) (errlog : Option Errlog) :
    LeftAlone env (env.leave code errlog) := rfl

theorem runPool_committed (env : Env M) (poolname : String) (commit : Bool) (ops : List OpT) :
    LeftAlone env (L.runPool env poolname commit ops) ∨
      (commit = true ∧
        (L.runPool env poolname commit ops).syncStart = some (env.interfere env.mos) ∧
        L.AppliedAll (env.interfere env.mos) ops (L.runPool env poolname commit ops)) := by
  unfold runPool
  split
  · exact .inl (leftAlone_leave env 1 none)
  · split
    · exact .inl (leftAlone_leave env 1 _)
    · dsimp only
      generalize (if commit = true then (⟨0, 0⟩ : Errlog) else env.errlog) = errlog
      split_ifs with hfail hcommit
      · exact .inl (leftAlone_leave env 1 _)
      · exact .inl (leftAlone_leave env 0 _)
      · split
        · exact .inl (leftAlone_leave env 1 _)
        · split
          · exact .inl ⟨rfl, rfl⟩
          · rename_i mos hdone
            exact .inr ⟨by simpa using hcommit, rfl, L.applySync_done_iff.mp hdone⟩

/-- **All or nothing.** -/
theorem main_committed (env : Env M) :
    LeftAlone env (L.main env) ∨
      ∃ poolname planpath content,
        parseArgs {} env.argv = some ⟨some poolname, some planpath, true⟩ ∧
        env.readFile planpath = some content ∧ (parsePlan content).accepted = true ∧
        (L.main env).syncStart = some (env.interfere env.mos) ∧
        L.AppliedAll (env.interfere env.mos) (parsePlan content).ops (L.main env) := by
  unfold main
  split
  · rename_i poolname planpath commit hargs
    split
    · exact .inl (leftAlone_leave env 2 none)
    · rename_i content hread
      dsimp only
      split_ifs with hacc hnil hconf
      · exact .inl (leftAlone_leave env 2 none)
      · exact .inl (leftAlone_leave env 0 none)
      · exact .inl (leftAlone_leave env 1 none)
      · rcases L.runPool_committed env poolname commit (parsePlan content).ops with h | h
        · exact .inl h
        · obtain ⟨hcommit, hstart, happ⟩ := h
          subst hcommit
          exact .inr ⟨poolname, planpath, content, hargs, hread, by simpa using hacc, hstart,
            happ⟩
  · exact .inl (leftAlone_leave env 2 none)

end Libzpool

end Zhaxx.Surgeon
