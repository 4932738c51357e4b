import Zhaxx.Lib.Monitor
import Zhaxx.Surgeon.Sessions

/-!
# The calls of a run

Models of `do_import` (`surgeon/zhaxx.c` lines 464–523) and of the calls that `main` and
`apply_sync` make around it, in their order. `Phase.step` is the protocol that the calls
have to keep: of `libzpool`, which wants them in pairs, and of the surgeon itself, which
suspends the scan before the import, clears the error log in memory before it looks at
anything and writes only behind two rounds of checks.

Result:
* `main_calls`: the calls of every run keep the protocol; unless it is killed in the sync
  task a run closes and exports what it opened and imported.
-/

namespace Zhaxx.Surgeon

variable {M T : Type*}

/-! ## Calls -/

/-- A call, with whether it succeeded where that matters. -/
inductive Call where
  /-- `zfs_scan_suspend_progress = 1`. -/
  | suspendScan
  /-- `kernel_init(SPA_MODE_READ)`, or with `SPA_MODE_WRITE`. -/
  | kernelInit (write : Bool)
  | findConfig (ok : Bool)
  /-- The assignments to `zfeature_checks_disable`. -/
  | featureChecks (on : Bool)
  | spaImport (readonly ok : Bool)
  | spaOpen (ok : Bool)
  /-- The assignments to `spa_errlog_last` and `spa_errlog_scrub`. -/
  | clearErrlog
  | checkOp (op : OpT) (ok : Bool)
  /-- `dsl_sync_task` gets to `apply_sync`, or fails before. -/
  | syncTask (ok : Bool)
  /-- `check_op` in pass 1 of `apply_sync`. -/
  | syncCheck (op : OpT) (ok : Bool)
  /-- An operation of pass 2. -/
  | applyOp (op : OpT) (ok : Bool)
  | syncDone
  | spaClose
  | spaExport
  | kernelFini
  /-- The last message of a commit. -/
  | nextSteps
  deriving DecidableEq

/-- The results of the calls of `do_import` that can fail. -/
structure Import where
  findConfig : String → Option Errno
  spaImport : String → Option Errno

/-- `if (error == EEXIST) error = 0;`. -/
def tolerateExisting : Option Errno → Option Errno
  | some .eexist => none
  | r => r

/-- `do_import(target, readonly)` (lines 464–523): its calls and its result. -/
def doImport (imp : Import) (target : String) (readonly : Bool) : List Call × Option Errno :=
  let start := [.suspendScan, .kernelInit (!readonly)]
  match imp.findConfig target with
  | some e => (start ++ [.findConfig false, .kernelFini], some e)
  | none =>
    match tolerateExisting (imp.spaImport target) with
    | some e =>
      (start ++ [.findConfig true, .featureChecks false, .spaImport readonly false,
        .featureChecks true, .kernelFini], some e)
    | none =>
      (start ++ [.findConfig true, .featureChecks false, .spaImport readonly true,
        .featureChecks true], none)

/-- The environment in which `do_import` has these results. -/
def Env.importing (env : Env M) (imp : Import) : Env M :=
  { env with importPool := fun target => (doImport imp target true).2 }

namespace Libzpool

variable (L : Libzpool M T)

/-- Pass 1 of `apply_sync` (lines 400–411), up to the check that fails. -/
def checkCalls (mos : M) : List OpT → List Call
  | [] => []
  | op :: ops =>
    if !L.checkOp mos op then [.syncCheck op false] else .syncCheck op true :: checkCalls mos ops

/-- Pass 2 (lines 413–456), up to the operation that fails. -/
def applyCalls (mos : M) : List OpT → List Call
  | [] => [.syncDone]
  | op :: ops =>
    match L.applyOp mos op with
    | .error _ => [.applyOp op false]
    | .ok mos => .applyOp op true :: applyCalls mos ops

/-- `apply_sync` (lines 391–458). -/
def syncCalls (mos : M) (ops : List OpT) : List Call :=
  L.checkCalls mos ops ++ if !L.syncPass1 mos ops then [] else L.applyCalls mos ops

/-- From `out_close` on (lines 647–655). -/
def closeCalls : List Call := [.spaClose, .spaExport, .kernelFini]

/-- From the import to the end of the precondition check (lines 596–635). -/
def openCalls (env : Env M) (imp : Import) (poolname : String) (commit : Bool)
    (ops : List OpT) : List Call :=
  (doImport imp poolname (!commit)).1 ++
    [.featureChecks false, .spaOpen true, .featureChecks true] ++
    (if commit then [.clearErrlog] else []) ++
    ops.map fun op => .checkOp op (L.checkOp env.mos op)

/-- Behind the sync task (lines 649–666). -/
def verifyCalls (ops : List OpT) : SyncResult M → List Call
  | .killed => []
  | .done mos => ops.map (fun op => .checkOp op (L.checkOp mos op)) ++ closeCalls ++ [.nextSteps]

/-- From the sync task on (lines 639–666). -/
def commitCalls (env : Env M) (ops : List OpT) : List Call :=
  match env.syncTask with
  | some _ => .syncTask false :: closeCalls
  | none =>
    let start := env.interfere env.mos
    .syncTask true :: L.syncCalls start ops ++ L.verifyCalls ops (L.applySync start ops)

/-- `main` from the call of `do_import` on (lines 596–666). -/
def poolCalls (env : Env M) (imp : Import) (poolname : String) (commit : Bool)
    (ops : List OpT) : List Call :=
  match (doImport imp poolname (!commit)).2 with
  | some _ => (doImport imp poolname (!commit)).1
  | none =>
    match env.spaOpen poolname with
    | some _ =>
      (doImport imp poolname (!commit)).1 ++
        [.featureChecks false, .spaOpen false, .featureChecks true, .spaExport, .kernelFini]
    | none =>
      L.openCalls env imp poolname commit ops ++
        if (ops.filter fun op => !L.checkOp env.mos op).length > 0 then closeCalls
        else if !commit then closeCalls
        else L.commitCalls env ops

/-- `main` (lines 543–666). -/
def calls (env : Env M) (imp : Import) : List Call :=
  match parseArgs {} env.argv with
  | some ⟨some poolname, some planpath, commit⟩ =>
    match env.readFile planpath with
    | none => []
    | some content =>
      let parsed := parsePlan content
      if !parsed.accepted then []
      else if parsed.ops.length = 0 then []
      else if commit && !confirmed env.stdin then []
      else L.poolCalls env imp poolname commit parsed.ops
  | _ => []

end Libzpool

/-! ## The protocol -/

/-- How far the process is. -/
inductive Stage where
  | out
  | up
  | imported
  | opened
  | inSync
  /-- Killed by `VERIFY0`. -/
  | dead
  deriving DecidableEq

/-- What the calls so far have brought about. -/
structure Phase where
  stage : Stage
  suspended : Bool
  featureChecks : Bool
  write : Bool
  cleared : Bool
  refused : Bool
  checked : List OpT
  applied : List OpT
  committed : Bool

/-- Before the first call. -/
def Phase.start : Phase := ⟨.out, false, true, false, false, false, [], [], false⟩

/-- The protocol: which call may come next. -/
def Phase.step (p : Phase) : Call → Option Phase
  | .suspendScan => if p.stage = .out then some { p with suspended := true } else none
  | .kernelInit write =>
    if p.stage = .out ∧ p.suspended = true then some { p with stage := .up, write := write }
    else none
  | .findConfig _ => if p.stage = .up then some p else none
  | .featureChecks on =>
    if p.stage = .up ∨ p.stage = .imported ∨ p.stage = .opened then
      some { p with featureChecks := on }
    else none
  | .spaImport readonly ok =>
    if p.stage = .up ∧ p.featureChecks = false ∧ readonly = !p.write then
      some { p with stage := if ok then .imported else .up }
    else none
  | .spaOpen ok =>
    if p.stage = .imported ∧ p.featureChecks = false then
      some { p with stage := if ok then .opened else .imported }
    else none
  | .clearErrlog =>
    if p.stage = .opened ∧ p.write = true then some { p with cleared := true } else none
  | .checkOp _ ok =>
    if p.stage = .opened ∧ p.featureChecks = true ∧ p.cleared = p.write then
      some { p with refused := p.refused || !ok }
    else none
  | .syncTask ok =>
    if p.stage = .opened ∧ p.write = true ∧ p.refused = false then
      some { p with stage := if ok then .inSync else .opened }
    else none
  | .syncCheck op ok =>
    if p.stage = .inSync ∧ p.applied = [] then
      some (if ok then { p with checked := p.checked ++ [op] } else { p with stage := .dead })
    else none
  | .applyOp op ok =>
    if p.stage = .inSync ∧ p.applied ++ [op] <+: p.checked then
      some (if ok then { p with applied := p.applied ++ [op] } else { p with stage := .dead })
    else none
  | .syncDone =>
    if p.stage = .inSync ∧ p.applied = p.checked then
      some { p with stage := .opened, committed := true }
    else none
  | .spaClose => if p.stage = .opened then some { p with stage := .imported } else none
  | .spaExport => if p.stage = .imported then some { p with stage := .up } else none
  | .kernelFini => if p.stage = .up then some { p with stage := .out } else none
  | .nextSteps => if p.stage = .out ∧ p.committed = true then some p else none

/-! ## Pairs of calls -/

/-- The call opens what `kernel_fini`, the export or `spa_close` closes. -/
def Call.isInit : Call → Bool
  | .kernelInit _ => true
  | _ => false

def Call.isImport : Call → Bool
  | .spaImport _ ok => ok
  | _ => false

def Call.isOpen : Call → Bool
  | .spaOpen ok => ok
  | _ => false

/-- What is open after the calls `tr`, told from the stage. -/
structure Balanced (tr : List Call) (p : Phase) : Prop where
  kernel : tr.countP Call.isInit =
    tr.count .kernelFini + if p.stage = .out then 0 else 1
  pool : tr.countP Call.isImport =
    tr.count .spaExport + if p.stage = .out ∨ p.stage = .up then 0 else 1
  handle : tr.countP Call.isOpen =
    tr.count .spaClose + if p.stage = .out ∨ p.stage = .up ∨ p.stage = .imported then 0 else 1

theorem Balanced.step {tr : List Call} {p p' : Phase} {c : Call} (h : Balanced tr p)
    (hc : p.step c = some p') : Balanced (tr ++ [c]) p' := by
  obtain ⟨h1, h2, h3⟩ := h
  have hinit : (tr ++ [c]).countP Call.isInit =
      tr.countP Call.isInit + if c.isInit then 1 else 0 := by simp
  have himport : (tr ++ [c]).countP Call.isImport =
      tr.countP Call.isImport + if c.isImport then 1 else 0 := by simp
  have hopen : (tr ++ [c]).countP Call.isOpen =
      tr.countP Call.isOpen + if c.isOpen then 1 else 0 := by simp
  have hcount : ∀ a, (tr ++ [c]).count a = tr.count a + if c == a then 1 else 0 := fun a => by
    rw [List.count_append, List.count_singleton]
  constructor
  · rw [hinit, hcount, h1]
    cases c <;> grind [Phase.step, Call.isInit]
  · rw [himport, hcount, h2]
    cases c <;> grind [Phase.step, Call.isImport]
  · rw [hopen, hcount, h3]
    cases c <;> grind [Phase.step, Call.isOpen]

/-! ## The parts of a run -/

section

variable {p : Phase}

/-- Behind a successful import. -/
def Phase.imported (write : Bool) : Phase :=
  { Phase.start with stage := .imported, suspended := true, write := write }

theorem doImport_snd (imp : Import) (target : String) (readonly : Bool) :
    (doImport imp target readonly).2 = (doImport imp target true).2 := by
  unfold doImport
  split
  · rfl
  · split <;> rfl

/-- `do_import` imports the pool, or leaves nothing behind. -/
theorem run_doImport (imp : Import) (target : String) (readonly : Bool) :
    Monitor.run Phase.step Phase.start (doImport imp target readonly).1 =
      some (if (doImport imp target true).2 = none then Phase.imported (!readonly)
        else { Phase.imported (!readonly) with stage := .out }) := by
  unfold doImport
  cases imp.findConfig target with
  | some e => simp [Monitor.run_cons, Phase.step, Phase.start, Phase.imported]
  | none =>
    cases tolerateExisting (imp.spaImport target) with
    | some e => simp [Monitor.run_cons, Phase.step, Phase.start, Phase.imported]
    | none => simp [Monitor.run_cons, Phase.step, Phase.start, Phase.imported]

theorem run_checks {f : OpT → Bool} (hs : p.stage = .opened) (hf : p.featureChecks = true)
    (hc : p.cleared = p.write) (ops : List OpT) :
    Monitor.run Phase.step p (ops.map fun op => .checkOp op (f op)) =
      some { p with refused := p.refused || ops.any fun op => !f op } := by
  induction ops generalizing p with
  | nil => simp
  | cons op ops ih =>
    have hstep : p.step (.checkOp op (f op)) = some { p with refused := p.refused || !f op } :=
      if_pos ⟨hs, hf, hc⟩
    rw [List.map_cons, Monitor.run_cons_of hstep,
      ih (p := { p with refused := p.refused || !f op }) hs hf hc, List.any_cons, Bool.or_assoc]

theorem run_closeCalls (hs : p.stage = .opened) :
    Monitor.run Phase.step p Libzpool.closeCalls = some { p with stage := .out } := by
  simp [Libzpool.closeCalls, Monitor.run_cons, Phase.step, hs]

variable (L : Libzpool M T)

/-- Pass 1 checks all operations, or the process is dead. -/
theorem run_checkCalls (hs : p.stage = .inSync) (ha : p.applied = []) (mos : M) (ops : List OpT) :
    ∃ l, Monitor.run Phase.step p (L.checkCalls mos ops) =
      some (if L.syncPass1 mos ops = true then { p with checked := p.checked ++ ops }
        else { p with checked := l, stage := .dead }) := by
  induction ops generalizing p with
  | nil => exact ⟨[], by simp [Libzpool.checkCalls, Libzpool.syncPass1]⟩
  | cons op ops ih =>
    cases hc : L.checkOp mos op with
    | false =>
      refine ⟨p.checked, ?_⟩
      simp [Libzpool.checkCalls, Libzpool.syncPass1, hc, Monitor.run_cons, Phase.step, hs, ha]
    | true =>
      have hstep : p.step (.syncCheck op true) = some { p with checked := p.checked ++ [op] } :=
        if_pos ⟨hs, ha⟩
      obtain ⟨l, hl⟩ := ih (p := { p with checked := p.checked ++ [op] }) hs ha
      refine ⟨l, ?_⟩
      simp only [Libzpool.checkCalls, Libzpool.syncPass1, hc, Bool.not_true, Bool.false_eq_true,
        if_false]
      rw [Monitor.run_cons_of hstep, hl, List.append_assoc, List.singleton_append]

/-- Pass 2 executes all operations, -/
theorem run_applyCalls_done (hs : p.stage = .inSync) {ops : List OpT}
    (hp : p.applied ++ ops = p.checked) {mos mos' : M} (h : L.syncPass2 mos ops = .done mos') :
    Monitor.run Phase.step p (L.applyCalls mos ops) =
      some { p with applied := p.checked, stage := .opened, committed := true } := by
  induction ops generalizing p mos with
  | nil =>
    have ha : p.applied = p.checked := by rw [← hp, List.append_nil]
    simp [Libzpool.applyCalls, Monitor.run_cons, Phase.step, hs, ha]
  | cons op ops ih =>
    rw [Libzpool.syncPass2] at h
    cases hop : L.applyOp mos op with
    | error e =>
      rw [hop] at h
      cases h
    | ok mos₁ =>
      rw [hop] at h
      have hp' : (p.applied ++ [op]) ++ ops = p.checked := by
        rw [← hp, List.append_assoc, List.singleton_append]
      have hstep : p.step (.applyOp op true) = some { p with applied := p.applied ++ [op] } :=
        if_pos ⟨hs, ops, hp'⟩
      simp only [Libzpool.applyCalls, hop]
      rw [Monitor.run_cons_of hstep]
      exact ih (p := { p with applied := p.applied ++ [op] }) hs hp' h

/-- or the process is dead. -/
theorem run_applyCalls_killed (hs : p.stage = .inSync) {ops : List OpT}
    (hp : p.applied ++ ops = p.checked) {mos : M} (h : L.syncPass2 mos ops = .killed) :
    ∃ l, Monitor.run Phase.step p (L.applyCalls mos ops) =
      some { p with applied := l, stage := .dead } := by
  induction ops generalizing p mos with
  | nil => cases h
  | cons op ops ih =>
    have hp' : (p.applied ++ [op]) ++ ops = p.checked := by
      rw [← hp, List.append_assoc, List.singleton_append]
    rw [Libzpool.syncPass2] at h
    cases hop : L.applyOp mos op with
    | error e =>
      refine ⟨p.applied, ?_⟩
      simp only [Libzpool.applyCalls, hop]
      exact Monitor.run_cons_of (if_pos ⟨hs, ops, hp'⟩) []
    | ok mos₁ =>
      rw [hop] at h
      have hstep : p.step (.applyOp op true) = some { p with applied := p.applied ++ [op] } :=
        if_pos ⟨hs, ops, hp'⟩
      simp only [Libzpool.applyCalls, hop]
      rw [Monitor.run_cons_of hstep]
      exact ih (p := { p with applied := p.applied ++ [op] }) hs hp' h

end

/-! ## Whole runs -/

/-- How a run ends, told from its calls: dead or with everything closed, with the plan
    committed or not. -/
structure Ended (ordered : List OpT) (r : Run M) (p : Phase) : Prop where
  stage : p.stage = if r.exit = .killed then .dead else .out
  committed : p.committed = r.completed
  applied : r.completed = true → p.applied = ordered

namespace Libzpool

variable (L : Libzpool M T) (env : Env M) (imp : Import)

/-- The pool opened and checked. -/
def openedPhase (commit : Bool) (ops : List OpT) : Phase :=
  { Phase.imported commit with
    stage := .opened, cleared := commit, refused := ops.any fun op => !L.checkOp env.mos op }

theorem run_openCalls (poolname : String) (commit : Bool) (ops : List OpT)
    (himp : (doImport imp poolname true).2 = none) :
    Monitor.run Phase.step Phase.start (L.openCalls env imp poolname commit ops) =
      some (L.openedPhase env commit ops) := by
  have hstart := run_doImport imp poolname (!commit)
  rw [if_pos himp, Bool.not_not] at hstart
  have hcleared : Monitor.run Phase.step (Phase.imported commit)
      ([.featureChecks false, .spaOpen true, .featureChecks true] ++
        if commit then [.clearErrlog] else []) =
      some { Phase.imported commit with stage := .opened, cleared := commit } := by
    cases commit <;> simp [Monitor.run_cons, Phase.step, Phase.imported, Phase.start]
  rw [openCalls, List.append_assoc, List.append_assoc, Monitor.run_append_of hstart,
    ← List.append_assoc, Monitor.run_append_of hcleared]
  exact (run_checks (p := { Phase.imported commit with stage := .opened, cleared := commit })
    rfl rfl rfl ops).trans (by rw [openedPhase]; rfl)

/-- The sync task, behind checks that all passed. -/
theorem run_syncCalls {p : Phase} (hs : p.stage = .inSync) (ha : p.applied = [])
    (hc : p.checked = []) (start : M) (ops : List OpT) :
    (L.applySync start ops = .killed ∧ ∃ l l', Monitor.run Phase.step p (L.syncCalls start ops) =
      some { p with checked := l, applied := l', stage := .dead }) ∨
    ∃ mos, L.applySync start ops = .done mos ∧
      Monitor.run Phase.step p (L.syncCalls start ops) =
        some { p with checked := ops, applied := ops, stage := .opened, committed := true } := by
  obtain ⟨l, hpass⟩ := run_checkCalls L hs ha start ops
  unfold syncCalls applySync
  cases h1 : L.syncPass1 start ops with
  | false =>
    rw [h1, if_neg Bool.false_ne_true] at hpass
    refine .inl ⟨rfl, l, [], ?_⟩
    rw [Monitor.run_append_of hpass]
    simp [ha]
  | true =>
    rw [h1, if_pos rfl, hc, List.nil_append] at hpass
    have hready : { p with checked := ops }.applied ++ ops = { p with checked := ops }.checked := by
      simp [ha]
    cases h2 : L.syncPass2 start ops with
    | killed =>
      obtain ⟨l', hl'⟩ := run_applyCalls_killed L (p := { p with checked := ops }) hs hready h2
      refine .inl ⟨rfl, ops, l', ?_⟩
      rw [Monitor.run_append_of hpass]
      exact hl'
    | done mos =>
      have hl' := run_applyCalls_done L (p := { p with checked := ops }) hs hready h2
      refine .inr ⟨mos, rfl, ?_⟩
      rw [Monitor.run_append_of hpass]
      exact hl'

theorem ended_leave {p : Phase} (hs : p.stage = .out) (hc : p.committed = false)
    (ordered : List OpT) (code : ℕ) (errlog : Option Errlog) :
    Ended ordered (env.leave code errlog) p := by
  have hdone : (env.leave code errlog).completed = false := by simp [Run.completed, Env.leave]
  exact ⟨hs, hc.trans hdone.symm, fun h => by rw [hdone] at h; cases h⟩

/-- The commit of a plan whose checks all passed. -/
theorem run_commitCalls {p : Phase} (hp : p = { L.openedPhase env true [] with refused := false })
    (ops : List OpT) : ∃ p', Monitor.run Phase.step p (L.commitCalls env ops) = some p' ∧
      ((env.syncTask ≠ none ∧ p'.stage = .out ∧ p'.committed = false) ∨
        (env.syncTask = none ∧ L.applySync (env.interfere env.mos) ops = .killed ∧
          p'.stage = .dead ∧ p'.committed = false) ∨
        ∃ mos, env.syncTask = none ∧ L.applySync (env.interfere env.mos) ops = .done mos ∧
          p'.stage = .out ∧ p'.committed = true ∧ p'.applied = ops) := by
  have hs : p.stage = .opened := by rw [hp]; rfl
  have hguard : p.stage = .opened ∧ p.write = true ∧ p.refused = false :=
    ⟨hs, by rw [hp]; rfl, by rw [hp]⟩
  have hfails : p.step (.syncTask false) = some { p with stage := .opened } := if_pos hguard
  have hstarts : p.step (.syncTask true) = some { p with stage := .inSync } := if_pos hguard
  have hno : p.committed = false := by rw [hp]; rfl
  unfold commitCalls
  cases hsync : env.syncTask with
  | some e =>
    refine ⟨{ p with stage := .out }, ?_, .inl ⟨Option.some_ne_none e, rfl, hno⟩⟩
    rw [Monitor.run_cons_of hfails]
    exact run_closeCalls rfl
  | none =>
    dsimp only
    rw [List.cons_append, Monitor.run_cons_of hstarts]
    rcases L.run_syncCalls (p := { p with stage := .inSync }) rfl (by rw [hp]; rfl)
      (by rw [hp]; rfl) (env.interfere env.mos) ops with ⟨hk, l, l', hrun⟩ | ⟨mos, hd, hrun⟩
    · refine ⟨{ p with checked := l, applied := l', stage := .dead }, ?_,
        .inr (.inl ⟨rfl, hk, rfl, hno⟩)⟩
      rw [Monitor.run_append_of hrun, hk]
      rfl
    · rw [hd, verifyCalls, Monitor.run_append_of hrun]
      have hchecks := run_checks (f := L.checkOp mos) (p := { p with
        stage := .opened, checked := ops, applied := ops, committed := true })
        rfl (by rw [hp]; rfl) (by rw [hp]; rfl) ops
      rw [List.append_assoc, Monitor.run_append_of hchecks,
        Monitor.run_append_of (run_closeCalls rfl)]
      have hnext : ∀ {q : Phase}, q.stage = .out → q.committed = true →
          Monitor.run Phase.step q [.nextSteps] = some q :=
        fun h1 h2 => Monitor.run_cons_of (if_pos ⟨h1, h2⟩) []
      exact ⟨_, hnext rfl rfl, .inr (.inr ⟨mos, rfl, rfl, rfl, rfl, rfl⟩)⟩

theorem run_poolCalls (poolname : String) (commit : Bool) {ops ordered : List OpT}
    (hordered : commit = true → ordered = ops) :
    ∃ p, Monitor.run Phase.step Phase.start (L.poolCalls env imp poolname commit ops) = some p ∧
      Ended ordered (L.runPool (env.importing imp) poolname commit ops) p := by
  have hstart := run_doImport imp poolname (!commit)
  unfold poolCalls runPool
  rw [doImport_snd imp poolname (!commit)]
  have hcall : (env.importing imp).importPool poolname = (doImport imp poolname true).2 := rfl
  rw [hcall]
  cases himp : (doImport imp poolname true).2 with
  | some e =>
    rw [himp, if_neg (Option.some_ne_none e)] at hstart
    exact ⟨_, hstart, ended_leave _ rfl rfl _ _ _⟩
  | none =>
    have hcall' : (env.importing imp).spaOpen poolname = env.spaOpen poolname := rfl
    dsimp only
    rw [hcall']
    cases hopen : env.spaOpen poolname with
    | some e =>
      rw [if_pos himp] at hstart
      have hend : Monitor.run Phase.step (Phase.imported (!(!commit)))
          [.featureChecks false, .spaOpen false, .featureChecks true, .spaExport, .kernelFini] =
          some { Phase.imported (!(!commit)) with stage := .out } := by
        simp [Monitor.run_cons, Phase.step, Phase.imported, Phase.start]
      exact ⟨_, (Monitor.run_append_of hstart _).trans hend, ended_leave _ rfl rfl _ _ _⟩
    | none =>
      have hopened := L.run_openCalls env imp poolname commit ops himp
      have hclose : Monitor.run Phase.step Phase.start
          (L.openCalls env imp poolname commit ops ++ closeCalls) =
          some { L.openedPhase env commit ops with stage := .out } :=
        (Monitor.run_append_of hopened _).trans (run_closeCalls rfl)
      dsimp only
      generalize (if commit = true then (⟨0, 0⟩ : Errlog) else (env.importing imp).errlog) = errlog
      have hmos : (env.importing imp).mos = env.mos := rfl
      rw [hmos]
      split_ifs with hfail hcommit
      · exact ⟨_, hclose, ended_leave _ rfl rfl _ _ _⟩
      · exact ⟨_, hclose, ended_leave _ rfl rfl _ _ _⟩
      · have htrue : commit = true := by simpa using hcommit
        subst htrue
        have hpassed : (ops.any fun op => !L.checkOp env.mos op) = false := by
          have hnil : (ops.filter fun op => !L.checkOp env.mos op) = [] :=
            List.length_eq_zero_iff.mp (Nat.le_zero.mp (not_lt.mp hfail))
          rw [List.filter_eq_nil_iff] at hnil
          simpa using hnil
        obtain ⟨p', hrun, hend⟩ := L.run_commitCalls env (p := L.openedPhase env true ops)
          (by rw [openedPhase, openedPhase, hpassed]) ops
        refine ⟨p', (Monitor.run_append_of hopened _).trans hrun, ?_⟩
        have hcall : (env.importing imp).syncTask = env.syncTask := rfl
        have hquiet : (env.importing imp).interfere env.mos = env.interfere env.mos := rfl
        rw [hcall, hquiet]
        rcases hend with ⟨hsync, hout, hno⟩ | ⟨hsync, hk, hdead, hno⟩ |
          ⟨mos, hsync, hd, hout, hyes, happ⟩
        · obtain ⟨e, he⟩ := Option.ne_none_iff_exists'.mp hsync
          rw [he]
          exact ended_leave _ hout hno _ _ _
        · rw [hsync, hk]
          exact ⟨hdead, hno, fun h => by cases h⟩
        · rw [hsync, hd]
          exact ⟨hout, hyes, fun _ => happ.trans (hordered rfl).symm⟩

theorem run_calls : ∃ p, Monitor.run Phase.step Phase.start (L.calls env imp) = some p ∧
    Ended env.ordered (L.main (env.importing imp)) p := by
  have hout : ∀ code errlog, ∃ p, Monitor.run Phase.step Phase.start [] = some p ∧
      Ended env.ordered ((env.importing imp).leave code errlog) p :=
    fun code errlog => ⟨Phase.start, rfl, ended_leave _ rfl rfl _ _ _⟩
  have hargv : (env.importing imp).argv = env.argv := rfl
  have hfile : (env.importing imp).readFile = env.readFile := rfl
  have hinput : (env.importing imp).stdin = env.stdin := rfl
  unfold calls main
  rw [hargv, hfile, hinput]
  rcases hargs : parseArgs {} env.argv with _ | ⟨_ | poolname, _ | planpath, commit⟩
  iterate 4 exact hout 2 none
  dsimp only
  cases hread : env.readFile planpath with
  | none => exact hout 2 none
  | some content =>
    dsimp only
    split_ifs with hacc hnil hconf
    · exact hout 2 none
    · exact hout 0 none
    · exact hout 1 none
    · refine L.run_poolCalls env imp poolname commit ?_
      rintro rfl
      have hyes : confirmed env.stdin = true := by simpa using hconf
      have hacc' : (parsePlan content).accepted = true := by simpa using hacc
      unfold Env.ordered
      rw [hargs]
      simp only [hread, hacc', hyes, Bool.and_self, if_true]

/-- **The calls of every run keep the protocol.** A run that is not killed has closed and
    exported at its end as often as it opened and imported, and exactly a completed one has
    committed, all of its operations. -/
theorem main_calls : ∃ p, Monitor.run Phase.step Phase.start (L.calls env imp) = some p ∧
    Ended env.ordered (L.main (env.importing imp)) p ∧ Balanced (L.calls env imp) p := by
  obtain ⟨p, hrun, hend⟩ := L.run_calls env imp
  have hstart : Balanced [] Phase.start := ⟨rfl, rfl, rfl⟩
  exact ⟨p, hrun, hend, Monitor.run_history (fun _ _ _ _ => Balanced.step) hstart hrun⟩

end Libzpool

end Zhaxx.Surgeon
