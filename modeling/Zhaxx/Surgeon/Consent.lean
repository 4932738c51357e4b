import Zhaxx.Surgeon.Lifecycle

/-!
# What comes before a write

The surgeon writes only in the second loop of `apply_sync` (`surgeon/zhaxx.c` lines
414–455). This module goes back from there to what the operator has said: the command line
(lines 552–568), the plan file and the answer to the prompt (lines 588–593).

Results:
* `parseArgs_iff`: the command lines that are accepted, and what is taken from them.
* `confirmed_iff`: the answers that are taken for a consent.
* `applied_after`: an operation is executed only on such an order, and exactly the calls
  `callsBefore` come before it.
-/

namespace Zhaxx.Surgeon

variable {M T : Type*}

/-! ## The command line -/

/-- A piece of a command line. -/
inductive Arg where
  | commit
  | plan (path : String)
  | pool (name : String)

/-- The words of a piece. -/
def Arg.render : Arg → List String
  | .commit => ["--commit"]
  | .plan path => ["--plan", path]
  | .pool name => [name]

/-- The name of a pool does not begin with a dash. -/
def Arg.Valid : Arg → Prop
  | .pool name => ¬ "-".toList <+: name.toList
  | _ => True

/-- What the loop of `main` takes from a piece. -/
def Arg.collect (args : Args) : Arg → Args
  | .commit => { args with commit := true }
  | .plan path => { args with planpath := some path }
  | .pool name => { args with poolname := some name }

theorem parseArgs_pool {name : String} (h : ¬ "-".toList <+: name.toList) (args : Args)
    (argv : List String) :
    parseArgs args (name :: argv) = parseArgs { args with poolname := some name } argv := by
  have hfirst : (!"-".toList.isPrefixOf name.toList) = true := by
    rw [Bool.not_eq_true', Bool.eq_false_iff, ne_eq, List.isPrefixOf_iff_prefix]
    exact h
  have hcommit : name ≠ "--commit" := by
    rintro rfl
    exact h (by decide)
  have hplan : name ≠ "--plan" := by
    rintro rfl
    exact h (by decide)
  rw [parseArgs, if_pos hfirst]
  · exact hcommit
  · exact fun _ _ hname _ => hplan hname

theorem parseArgs_render {p : Arg} (hp : p.Valid) (args : Args) (argv : List String) :
    parseArgs args (p.render ++ argv) = parseArgs (Arg.collect args p) argv := by
  cases p with
  | commit => exact parseArgs.eq_2 args argv
  | plan path => exact parseArgs.eq_3 args path argv
  | pool name => exact parseArgs_pool hp args argv

/-- **The accepted command lines.** Of several plans and several pools the last ones
    count. -/
theorem parseArgs_iff {start args : Args} {argv : List String} :
    parseArgs start argv = some args ↔ ∃ pieces : List Arg, (∀ p ∈ pieces, p.Valid) ∧
      argv = pieces.flatMap Arg.render ∧ args = pieces.foldl Arg.collect start := by
  constructor
  · intro h
    fun_induction parseArgs start argv with
    | case1 start =>
      exact ⟨[], fun _ hp => absurd hp List.not_mem_nil, rfl, (Option.some.inj h).symm⟩
    | case2 start argv ih =>
      obtain ⟨pieces, hv, rfl, rfl⟩ := ih h
      exact ⟨.commit :: pieces, List.forall_mem_cons.mpr ⟨trivial, hv⟩, rfl, rfl⟩
    | case3 start path argv ih =>
      obtain ⟨pieces, hv, rfl, rfl⟩ := ih h
      exact ⟨.plan path :: pieces, List.forall_mem_cons.mpr ⟨trivial, hv⟩, rfl, rfl⟩
    | case4 start name argv _ _ hname ih =>
      obtain ⟨pieces, hv, rfl, rfl⟩ := ih h
      have hvalid : ¬ "-".toList <+: name.toList := by
        rw [← List.isPrefixOf_iff_prefix]
        exact (Bool.not_eq_true' _).mp hname ▸ Bool.false_ne_true
      exact ⟨.pool name :: pieces, List.forall_mem_cons.mpr ⟨hvalid, hv⟩, rfl, rfl⟩
    | case5 => cases h
  · rintro ⟨pieces, hv, rfl, rfl⟩
    induction pieces generalizing start with
    | nil => rfl
    | cons p pieces ih =>
      rw [List.forall_mem_cons] at hv
      rw [List.flatMap_cons, parseArgs_render hv.1]
      exact ih hv.2

/-! ## The answer -/

/-- The first line that `fgets` returns is the beginning of the file. -/
theorem prefix_of_fgetsAux {size : ℕ} {acc s l : List Char} {ls : List (List Char)}
    (h : CText.fgetsAux size acc s = l :: ls) : l <+: acc ++ s := by
  induction s generalizing acc with
  | nil =>
    rw [CText.fgetsAux] at h
    split at h
    · cases h
    · rw [List.append_nil, (List.cons.inj h).1]
  | cons c s ih =>
    have hmove : acc ++ c :: s = (acc ++ [c]) ++ s := by simp
    rw [CText.fgetsAux] at h
    rw [hmove]
    split at h
    · rw [← (List.cons.inj h).1]
      exact List.prefix_append _ _
    · exact ih h

/-- **The answers that are taken for a consent**: those that begin with the line `YES`. -/
theorem confirmed_iff {stdin : List Char} :
    confirmed stdin = true ↔ "YES\n".toList <+: stdin := by
  unfold confirmed
  constructor
  · cases hread : CText.fgetsLines 15 stdin with
    | nil => exact fun h => absurd h Bool.false_ne_true
    | cons resp lines =>
      intro h
      rw [← eq_of_beq h]
      exact (List.takeWhile_prefix _).trans (prefix_of_fgetsAux hread)
  · rintro ⟨rest, rfl⟩
    have hread : CText.fgetsLines 15 ("YES".toList ++ '\n' :: rest) =
        ("YES".toList ++ ['\n']) :: CText.fgetsLines 15 rest :=
      CText.fgetsLines_append (by decide) (by decide)
    have hline : "YES\n".toList ++ rest = "YES".toList ++ '\n' :: rest := rfl
    rw [hline, hread]
    rfl

/-! ## The order -/

/-- The command line, the plan file and the answer order `ops` on the pool `name`. -/
def Env.Orders (env : Env M) (name : String) (ops : List OpT) : Prop :=
  (∃ pieces : List Arg, (∀ p ∈ pieces, p.Valid) ∧ env.argv = pieces.flatMap Arg.render ∧
    ∃ path content, pieces.foldl Arg.collect {} = ⟨some name, some path, true⟩ ∧
      env.readFile path = some content ∧ (parsePlan content).accepted = true ∧
      (parsePlan content).ops = ops) ∧
  "YES\n".toList <+: env.stdin

/-- The calls of a commit of `ops` before the next operation behind `done`. -/
def callsBefore (ops done : List OpT) : List Call :=
  [.suspendScan, .kernelInit true, .findConfig true, .featureChecks false,
    .spaImport false true, .featureChecks true, .featureChecks false, .spaOpen true,
    .featureChecks true, .clearErrlog] ++
  ops.map (fun op => .checkOp op true) ++ [.syncTask true] ++
  ops.map (fun op => .syncCheck op true) ++ done.map fun op => .applyOp op true

/-- An event behind the first part of a trace. -/
theorem split_behind {α : Type*} {as bs pre post : List α} {x : α}
    (h : as ++ bs = pre ++ x :: post) (hx : x ∉ as) :
    ∃ pre', pre = as ++ pre' ∧ bs = pre' ++ x :: post := by
  rcases List.append_eq_append_iff.mp h with ⟨pre', hpre, hbs⟩ | ⟨cs, has, hcs⟩
  · exact ⟨pre', hpre, hbs⟩
  · cases cs with
    | nil => exact ⟨[], by simpa using has.symm, by simpa using hcs.symm⟩
    | cons c cs =>
      have hc : x = c := (List.cons.inj hcs).1
      exact absurd (by rw [has, hc]; simp) hx

namespace Libzpool

variable (L : Libzpool M T)

/-- Up to an operation, pass 2 has executed those before it. -/
theorem applyCalls_split {mos : M} {ops : List OpT} {tail pre post : List Call} {op : OpT}
    {ok : Bool} (htail : Call.applyOp op ok ∉ tail)
    (h : L.applyCalls mos ops ++ tail = pre ++ .applyOp op ok :: post) :
    ∃ done rest, ops = done ++ op :: rest ∧ pre = done.map fun op => .applyOp op true := by
  induction ops generalizing mos pre with
  | nil =>
    have hmem : Call.applyOp op ok ∈ L.applyCalls mos [] ++ tail := by rw [h]; simp
    simp [applyCalls, htail] at hmem
  | cons op₁ ops ih =>
    rw [applyCalls] at h
    cases pre with
    | nil =>
      refine ⟨[], ops, ?_, rfl⟩
      split at h
      · rw [(Call.applyOp.inj (List.cons.inj h).1).1]
        rfl
      · rw [(Call.applyOp.inj (List.cons.inj h).1).1]
        rfl
    | cons c pre =>
      split at h
      · have hrest : tail = pre ++ .applyOp op ok :: post := (List.cons.inj h).2
        exact absurd (by rw [hrest]; simp) htail
      · obtain ⟨done, rest, rfl, rfl⟩ := ih (List.cons.inj h).2
        exact ⟨op₁ :: done, rest, rfl, by rw [← (List.cons.inj h).1]; rfl⟩

theorem checkCalls_of_pass {mos : M} {ops : List OpT} (h : L.syncPass1 mos ops = true) :
    L.checkCalls mos ops = ops.map fun op => .syncCheck op true := by
  induction ops with
  | nil => rfl
  | cons op ops ih =>
    rw [syncPass1] at h
    split at h
    · cases h
    · rename_i hc
      rw [checkCalls, if_neg hc, ih h, List.map_cons]

theorem applyOp_not_mem_checkCalls (mos : M) (ops : List OpT) (op : OpT) (ok : Bool) :
    Call.applyOp op ok ∉ L.checkCalls mos ops := by
  induction ops with
  | nil => simp [checkCalls]
  | cons op₁ ops ih =>
    rw [checkCalls]
    split_ifs
    · simp
    · simp [ih]

variable (env : Env M) (imp : Import)

theorem applyOp_not_mem_doImport (name : String) (readonly : Bool) (op : OpT) (ok : Bool) :
    Call.applyOp op ok ∉ (doImport imp name readonly).1 := by
  unfold doImport
  dsimp only
  split
  · simp
  · split <;> simp

theorem applyOp_not_mem_openCalls (name : String) (commit : Bool) (ops : List OpT) (op : OpT)
    (ok : Bool) : Call.applyOp op ok ∉ L.openCalls env imp name commit ops := by
  cases commit <;> simp [openCalls, applyOp_not_mem_doImport]

/-- The calls of a commit up to the sync task. -/
theorem openCalls_of_pass {name : String} {ops : List OpT}
    (himp : (doImport imp name false).2 = none)
    (hpass : ∀ op ∈ ops, L.checkOp env.mos op = true) :
    L.openCalls env imp name true ops ++ [.syncTask true] ++
      ops.map (fun op => .syncCheck op true) = callsBefore ops [] := by
  have hcalls : (doImport imp name false).1 = [.suspendScan, .kernelInit true, .findConfig true,
      .featureChecks false, .spaImport false true, .featureChecks true] := by
    unfold doImport at himp ⊢
    dsimp only at himp ⊢
    split at himp
    · cases himp
    · split at himp
      · cases himp
      · rfl
  have hchecks : ops.map (fun op => Call.checkOp op (L.checkOp env.mos op)) =
      ops.map fun op => .checkOp op true :=
    List.map_congr_left fun op hop => by rw [hpass op hop]
  simp [openCalls, callsBefore, hcalls, hchecks]

theorem commitCalls_split {ops : List OpT} {pre post : List Call} {op : OpT} {ok : Bool}
    (h : L.commitCalls env ops = pre ++ .applyOp op ok :: post) :
    ∃ done rest, ops = done ++ op :: rest ∧
      pre = .syncTask true :: ops.map (fun op => .syncCheck op true) ++
        done.map fun op => .applyOp op true := by
  unfold commitCalls at h
  split at h
  · have hmem : Call.applyOp op ok ∈ Call.syncTask false :: closeCalls := by rw [h]; simp
    simp [closeCalls] at hmem
  · have htail : ∀ r, Call.applyOp op ok ∉ L.verifyCalls ops r := by
      rintro (_ | _) <;> simp [verifyCalls, closeCalls]
    dsimp only at h
    rw [syncCalls, ← List.cons_append, List.append_assoc] at h
    obtain ⟨pre', rfl, h'⟩ := split_behind h
      (by simp [L.applyOp_not_mem_checkCalls])
    cases hpass : L.syncPass1 (env.interfere env.mos) ops with
    | false =>
      rw [hpass, Bool.not_false, if_pos rfl, List.nil_append] at h'
      exact absurd (by rw [h']; simp) (htail _)
    | true =>
      rw [hpass, Bool.not_true, if_neg Bool.false_ne_true] at h'
      obtain ⟨done, rest, hops, rfl⟩ := L.applyCalls_split (htail _) h'
      exact ⟨done, rest, hops, by rw [L.checkCalls_of_pass hpass]⟩

theorem poolCalls_split {name : String} {commit : Bool} {ops : List OpT} {pre post : List Call}
    {op : OpT} {ok : Bool}
    (h : L.poolCalls env imp name commit ops = pre ++ .applyOp op ok :: post) :
    commit = true ∧ ∃ done rest, ops = done ++ op :: rest ∧ pre = callsBefore ops done := by
  have hmem : Call.applyOp op ok ∈ L.poolCalls env imp name commit ops := by rw [h]; simp
  have himpOnly := applyOp_not_mem_doImport imp name (!commit) op ok
  have hopenOnly := L.applyOp_not_mem_openCalls env imp name commit ops op ok
  unfold poolCalls at h hmem
  cases himp : (doImport imp name (!commit)).2 with
  | some e =>
    simp only [himp] at hmem
    exact absurd hmem himpOnly
  | none =>
    cases hopen : env.spaOpen name with
    | some e =>
      simp only [himp, hopen] at hmem
      simp [himpOnly] at hmem
    | none =>
      simp only [himp, hopen] at h hmem
      split_ifs at h hmem with hfail hcommit
      · simp [hopenOnly, closeCalls] at hmem
      · simp [hopenOnly, closeCalls] at hmem
      · obtain rfl : commit = true := by simpa using hcommit
        have hpass : ∀ op ∈ ops, L.checkOp env.mos op = true := by
          have hnil : (ops.filter fun op => !L.checkOp env.mos op) = [] :=
            List.length_eq_zero_iff.mp (Nat.le_zero.mp (not_lt.mp hfail))
          rw [List.filter_eq_nil_iff] at hnil
          exact fun op hop => by simpa using hnil op hop
        obtain ⟨pre', rfl, h'⟩ := split_behind h hopenOnly
        obtain ⟨done, rest, hops, rfl⟩ := L.commitCalls_split env h'
        refine ⟨rfl, done, rest, hops, ?_⟩
        calc L.openCalls env imp name true ops ++
              (.syncTask true :: ops.map (fun op => .syncCheck op true) ++
                done.map fun op => .applyOp op true)
            = L.openCalls env imp name true ops ++ [.syncTask true] ++
                ops.map (fun op => .syncCheck op true) ++
                done.map fun op => .applyOp op true := by simp
          _ = callsBefore ops [] ++ done.map fun op => .applyOp op true := by
            rw [L.openCalls_of_pass env imp himp hpass]
          _ = callsBefore ops done := by simp [callsBefore]

/-- **What comes before a write.** An operation is executed only when the command line has
    `--commit`, its plan was accepted and the prompt was answered with `YES`. By then the
    scan is suspended, the pool imported and opened for writing and its error log cleared
    in memory, every operation of the plan has passed both checks, and those before it
    have been executed. -/
theorem applied_after {pre post : List Call} {op : OpT} {ok : Bool}
    (h : L.calls env imp = pre ++ .applyOp op ok :: post) :
    ∃ name ops done rest, env.Orders name ops ∧ ops = done ++ op :: rest ∧
      pre = callsBefore ops done := by
  unfold calls at h
  rcases hargs : parseArgs {} env.argv with _ | ⟨_ | name, _ | path, commit⟩
  iterate 4 simp [hargs] at h
  rw [hargs] at h
  dsimp only at h
  cases hread : env.readFile path with
  | none => simp [hread] at h
  | some content =>
    rw [hread] at h
    dsimp only at h
    split_ifs at h with hacc hnil hconf
    · simp at h
    · simp at h
    · simp at h
    · obtain ⟨rfl, done, rest, hops, hpre⟩ := L.poolCalls_split env imp h
      have hyes : confirmed env.stdin = true := by simpa using hconf
      obtain ⟨pieces, hvalid, hargv, hpieces⟩ := parseArgs_iff.mp hargs
      exact ⟨name, (parsePlan content).ops, done, rest,
        ⟨⟨pieces, hvalid, hargv, path, content, hpieces.symm, hread, by simpa using hacc, rfl⟩,
          confirmed_iff.mp hyes⟩, hops, hpre⟩

end Libzpool

/-- The commit of `dropLogPlan`. -/
def commitDropLog : Env (Store String) :=
  session ["--commit", "--plan", "repair.plan", "tank"] dropLogPlan

/-- Its calls, on a pool that can be imported. -/
def dropLogCalls : List Call :=
  (storeLib String fun t => some t.toList).calls commitDropLog ⟨fun _ => none, fun _ => none⟩

/-- What comes before the error log is freed. -/
theorem applied_after_dropLog : ∃ name ops done rest, commitDropLog.Orders name ops ∧
    ops = done ++ commitDropLog.ordered.getLast (by decide +kernel) :: rest ∧
    dropLogCalls.take 16 = callsBefore ops done := by
  have hcalls : dropLogCalls = dropLogCalls.take 16 ++
      .applyOp (commitDropLog.ordered.getLast (by decide +kernel)) true ::
        dropLogCalls.drop 17 := by
    decide +kernel
  exact Libzpool.applied_after _ commitDropLog _ hcalls

end Zhaxx.Surgeon
