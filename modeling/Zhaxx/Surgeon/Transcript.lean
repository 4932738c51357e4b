import Zhaxx.Lib.Format
import Zhaxx.Surgeon.Consent
import Zhaxx.Surgeon.Verify

/-!
# What the surgeon prints

The operator knows a run of the surgeon by its messages on stderr. Models of the messages of
`parse_plan`, `check_op`, `apply_sync`, `do_import` and `main` (`surgeon/zhaxx.c`), line by
line under the format strings of the source. Many of them show texts of the plan file, which
anybody may have written, and of the pool.

Results:
* `checkVerdict_fst`: what `check_op` says is what it returns.
* `main_transcript`: the lines that tell how the run went are true, whatever the plan file
  and the pool hold.
-/

namespace Zhaxx.Surgeon

open CText
open Decimal (digits)

variable {M T : Type*}

/-! ## Messages -/

/-- What the messages show of the C library, of libzpool and of the call of the program. -/
structure Console (T : Type*) where
  argv0 : List Char
  strerror : Errno → List Char
  /-- The number of an error. -/
  errno : Errno → ℕ
  /-- The number of a `dmu_object_type_t`. -/
  typeNum : T → ℕ
  /-- The error of a failed `fopen`. -/
  openError : Errno
  txg : ℕ
  /-- `spa_export` succeeds. -/
  exports : Bool

/-- The message of `parse_plan` (lines 180–260) for line `lineno`. -/
def ParseError.message (lineno : ℕ) : ParseError → List Char
  | .tooMany => format "ERROR: too many ops (max %d)" [digits maxOps]
  | .missingObj => format "ERROR: line %d: missing obj=" [digits lineno]
  | .zapSetNeeds => format "ERROR: line %d: zap_set needs key=, expect=, value=" [digits lineno]
  | .zapZeroNeeds => format "ERROR: line %d: zap_zero needs key=, count=" [digits lineno]
  | .badCount => format "ERROR: line %d: bad count" [digits lineno]
  | .zapRemoveNeeds => format "ERROR: line %d: zap_remove needs key=" [digits lineno]
  | .bonusSetNeeds =>
    format "ERROR: line %d: bonus_set needs field=, expect=, value=" [digits lineno]
  | .badField => format "ERROR: line %d: only ds_num_children is supported" [digits lineno]
  | .freeNeeds =>
    format "ERROR: line %d: free needs type=\"...\" (mandatory type guard)" [digits lineno]
  | .unknownOp s => format "ERROR: line %d: unknown op: %s" [digits lineno, s]

/-- `banner(msg)` (lines 90–94). -/
def banner (msg : String) : List (List Char) := [[], format "=== %s ===" [utf8 msg]]

/-- The line about a commit. -/
def appliedLine : List Char := format "Plan applied successfully." []

/-- What stands behind the number of failed checks (line 626). -/
def failedText : String :=
  "precondition(s) FAILED — not applying. Re-run zhaxx-scan against the current " ++
    "pool state to regenerate the plan."

/-- The line about `n` failed checks. -/
def failedLine (n : ℕ) : List Char := format ("%d " ++ failedText) [digits n]

/-- The line about `n` passed checks (line 632). -/
def satisfiedLine (n : ℕ) : List Char :=
  format "All %d precondition(s) satisfied." [digits n]

/-- A prompt, behind which the next line goes on. -/
def prompted (prompt : List Char) : List (List Char) → List (List Char)
  | [] => [prompt]
  | line :: lines => (prompt ++ line) :: lines

section

variable (c : Console T)

/-- `usage(argv0)` (lines 532–540). -/
def usageLines : List (List Char) :=
  [format "Usage: %s [--commit] --plan FILE <poolname>" [c.argv0],
    format "  default:  dump mode — import read-only, verify preconditions, no writes" [],
    format "  --commit: apply the plan atomically (two-pass verify+apply)" []]

/-- `do_import` (lines 464–523). -/
def importLines (imp : Import) (target : List Char) (poolname : String) (readonly : Bool) :
    List (List Char) :=
  match imp.findConfig poolname with
  | some e => [format "ERROR: cannot find pool '%s': %s" [target, c.strerror e]]
  | none =>
    match tolerateExisting (imp.spaImport poolname) with
    | some e => [format "ERROR: cannot import '%s': %s" [target, c.strerror e]]
    | none => [format "Pool '%s' imported (%s)"
        [target, utf8 (if readonly then "read-only" else "read-write")]]

/-- From `out_export` on, without the next steps (lines 649–655). -/
def exportLines : List (List Char) :=
  banner "Exporting pool" ++
    [if c.exports then format "Pool exported." [] else format "WARNING: pool export failed" []]

end

namespace Libzpool

variable (L : Libzpool M T) (c : Console T)

/-- What `check_op` returns (lines 273–384), and its line about it. -/
def checkVerdict (mos : M) (op : OpT) : Bool × List Char :=
  match op.kind with
  | .zapSet | .zapRemove =>
    match L.zapLookup mos op.obj op.key 1 with
    | .error e =>
      if op.kind == .zapRemove && e == .enoent then
        (true, format "           already absent — op is a no-op (ok)" [])
      else (false, format "           FAIL: zap_lookup(obj=%llu, '%s') err=%d"
        [digits op.obj, op.key, digits (c.errno e)])
    | .ok buf =>
      let cur := buf.headD 0
      if op.hasExpect && cur != op.expect then
        (false, format "           FAIL: '%s' = %llu, expected %llu"
          [op.key, digits cur, digits op.expect])
      else (true, format "           ok: '%s' = %llu" [op.key, digits cur])
  | .zapZero =>
    match L.zapLookup mos op.obj op.key op.count with
    | .error e =>
      if e == .enoent then (true, format "           absent — no-op (ok)" [])
      else (false, format "           FAIL: zap_lookup('%s') err=%d"
        [op.key, digits (c.errno e)])
    | .ok buf => (true, format "           ok: '%s' present (func=%llu state=%llu)"
        [op.key, digits (buf.getD 0 0), digits (buf.getD 1 0)])
  | .bonusSet =>
    match L.bonusHold mos op.obj with
    | .error e => (false, format "           FAIL: dmu_bonus_hold(%llu) err=%d"
        [digits op.obj, digits (c.errno e)])
    | .ok cur =>
      if cur != op.expect then
        (false, format "           FAIL: ds_num_children = %llu, expected %llu"
          [digits cur, digits op.expect])
      else (true, format "           ok: ds_num_children = %llu" [digits cur])
  | .free =>
    match L.objectInfo mos op.obj with
    | .error e =>
      if e == .enoent then (true, format "           already freed — no-op (ok)" [])
      else (false, format "           FAIL: dmu_object_info(%llu) err=%d"
        [digits op.obj, digits (c.errno e)])
    | .ok t =>
      if !L.typeNameMatches t op.type then
        (false, format ("           FAIL: obj %llu type is '%s' (%u), plan expected '%s' — " ++
            "REFUSING to free (recycled ID?)")
          [digits op.obj, (L.otName t).getD ['?'], digits (c.typeNum t), op.type])
      else (true, format "           ok: obj %llu type '%s'" [digits op.obj, op.type])

/-- `check_op(mos, op, B_FALSE)`. -/
def checkLines (mos : M) (op : OpT) : List (List Char) :=
  [format "  [check] %s" [op.raw], (L.checkVerdict c mos op).2]

/-- Pass 1 of `apply_sync` (lines 400–411) behind `i` operations; `check_op` is quiet there
    but for failures. -/
def pass1Lines (mos : M) (i : ℕ) : List OpT → List (List Char)
  | [] => []
  | op :: ops =>
    let (ok, line) := L.checkVerdict c mos op
    if !ok then
      [line, format ("  [sync] PRECONDITION FAILED on op %d (%s) — aborting transaction, " ++
        "no changes made") [digits i, op.raw]]
    else pass1Lines mos (i + 1) ops

/-- Pass 2 (lines 414–457) behind `i` operations. -/
def pass2Lines (mos : M) (i : ℕ) : List OpT → List (List Char)
  | [] => [format "  [sync] all ops applied; committing txg" []]
  | op :: ops =>
    match L.applyOp mos op with
    | .error e => [format "  [sync]   op %d: %s -> %s" [digits i, op.raw, c.strerror e]]
    | .ok mos =>
      format "  [sync]   op %d: %s -> %s" [digits i, op.raw, utf8 "OK"] ::
        pass2Lines mos (i + 1) ops

/-- `apply_sync` (lines 391–458). -/
def syncLines (mos : M) (ops : List OpT) : List (List Char) :=
  [[], format "  [sync] txg %llu — pass 1: re-verify all preconditions" [digits c.txg]] ++
    L.pass1Lines c mos 0 ops ++
    if !L.syncPass1 mos ops then []
    else format "  [sync] pass 2: apply" [] :: L.pass2Lines c mos 0 ops

/-- Behind a sync task that returned (lines 642–666). -/
def appliedLines (mos : M) (ops : List OpT) (pool : List Char) : List (List Char) :=
  [[], appliedLine] ++ banner "Verification (post-apply)" ++ ops.flatMap (L.checkLines c mos) ++
    exportLines c ++
    [[], format "=== NEXT STEPS ===" [],
      format "1. Import guarded:  zpool import -N -o readonly=on %s" [pool],
      format "2. Inspect:         zpool status -v %s" [pool],
      format "3. If clean, import read-write and scrub before returning to service." []]

/-- Behind the precondition check (lines 624–666). -/
def outcomeLines (env : Env M) (pool : List Char) (commit : Bool) (ops : List OpT) :
    List (List Char) :=
  let nfail := (ops.filter fun op => !L.checkOp env.mos op).length
  if nfail > 0 then [[], failedLine nfail] ++ exportLines c
  else
    [[], satisfiedLine ops.length] ++
      if !commit then [[], format "Dump mode: re-run with --commit to apply." []] ++ exportLines c
      else
        banner "Applying plan" ++
          match env.syncTask with
          | some e =>
            format "ERROR: dsl_sync_task failed: %s (err=%d)" [c.strerror e, digits (c.errno e)] ::
              exportLines c
          | none =>
            let start := env.interfere env.mos
            L.syncLines c start ops ++
              match L.applySync start ops with
              | .killed => []
              | .done mos => L.appliedLines c mos ops pool

/-- `main` from the call of `do_import` on (lines 596–666). -/
def poolLines (env : Env M) (imp : Import) (poolname : String) (commit : Bool) (ops : List OpT) :
    List (List Char) :=
  importLines c imp (utf8 poolname) poolname (!commit) ++
    match (doImport imp poolname (!commit)).2 with
    | some _ => []
    | none =>
      match env.spaOpen poolname with
      | some e => format "ERROR: spa_open failed: %s" [c.strerror e] :: exportLines c
      | none =>
        [format "spa_open OK" []] ++
          (if commit then
            [format "  Cleared in-memory spa_errlog_last (was %llu)" [digits env.errlog.last]]
          else []) ++
          banner "Precondition check (read-only)" ++ ops.flatMap (L.checkLines c env.mos) ++
          L.outcomeLines c env (utf8 poolname) commit ops

/-- `main` from the banner on (lines 574–666). -/
def modeLines (env : Env M) (imp : Import) (poolname : String) (commit : Bool) (ops : List OpT) :
    List (List Char) :=
  banner (if commit then "zhaxx: COMMIT MODE" else "zhaxx: DUMP MODE (read-only)") ++
    [format "Pool: %s" [utf8 poolname]] ++
    if commit then
      [[], format "*** COMMIT will modify the pool MOS in one atomic transaction. ***" [],
        format "*** %d operations; all preconditions are re-verified first. ***"
          [digits ops.length]] ++
        prompted (format "*** Type YES to proceed: " [])
          (if !confirmed env.stdin then [format "aborted." []]
          else L.poolLines c env imp poolname commit ops)
    else L.poolLines c env imp poolname commit ops

/-- The messages of `main` (lines 543–666). -/
def transcript (env : Env M) (imp : Import) : List (List Char) :=
  match parseArgs {} env.argv with
  | some ⟨some poolname, some planpath, commit⟩ =>
    match env.readFile planpath with
    | none =>
      [format "ERROR: cannot open plan '%s': %s" [utf8 planpath, c.strerror c.openError]]
    | some content =>
      let parsed := parsePlan content
      match parsed.rejected with
      | some (lineno, e, _) => [e.message lineno]
      | none =>
        format "Parsed %d op(s) from %s" [digits parsed.ops.length, utf8 planpath] ::
          if parsed.ops.length = 0 then [format "Plan is empty; nothing to do." []]
          else L.modeLines c env imp poolname commit parsed.ops
  | _ => usageLines c

end Libzpool

/-! ## Lines -/

/-- The lines that tell how a run went. -/
inductive Verdict : List Char → Prop
  | applied : Verdict appliedLine
  | failed (n : ℕ) : Verdict (failedLine n)
  | satisfied (n : ℕ) : Verdict (satisfiedLine n)

/-- How the line about a failed check begins. -/
def failMark : List Char := List.replicate 11 ' ' ++ ['F', 'A', 'I', 'L', ':', ' ']

/-- The line is about a failed check. -/
def isFail (l : List Char) : Bool := failMark.isPrefixOf l

/-- How the line about a commit begins. -/
def appliedHead : List Char := ['P', 'l', 'a', 'n', ' ', 'a']

/-- No verdict begins with `p`. -/
def apart (p : List Char) : Bool :=
  !p.isPrefixOf appliedHead && !appliedHead.isPrefixOf p &&
    match p with
    | a :: b :: _ => a != 'A' && !(a.isDigit && b != '.')
    | _ => false

/-- A line that is no verdict, about a failed check or not. -/
structure Told (fails : Bool) (l : List Char) : Prop where
  newline : '\n' ∉ l
  verdict : ¬ Verdict l
  fail : isFail l = fails

theorem newline_not_mem_digits (n : ℕ) : '\n' ∉ digits n := fun h =>
  absurd (Decimal.isDigit_of_mem_digits h) (by decide)

theorem digits_cons (n : ℕ) : ∃ d ds, digits n = d :: ds ∧ d.isDigit = true := by
  cases h : digits n with
  | nil => exact absurd h Nat.toDigits_ne_nil
  | cons d ds =>
    exact ⟨d, ds, rfl, Decimal.isDigit_of_mem_digits (n := n) (h ▸ List.mem_cons_self)⟩

theorem failedLine_eq (n : ℕ) :
    failedLine n = digits n ++ ' ' :: formatChars (utf8 failedText) [] := by
  have hfmt : "%d " ++ failedText = String.ofList (['%', 'd', ' '] ++ failedText.toList) :=
    literals_append rfl (String.ofList_toList).symm
  rw [failedLine, @format_number _ [] [' '] failedText.toList hfmt (by decide) (by decide),
    String.ofList_toList, List.nil_append, List.singleton_append]

/-- What stands behind the number of passed checks. -/
def satisfiedTail : List Char := formatChars (utf8 " precondition(s) satisfied.") []

theorem satisfiedLine_eq (n : ℕ) :
    satisfiedLine n = ['A', 'l', 'l', ' '] ++ (digits n ++ satisfiedTail) :=
  @format_number _ ['A', 'l', 'l', ' '] [] _ rfl (by decide) (by decide) (digits n)

theorem not_verdict_of_apart {p l : List Char} (h : apart p = true) (hp : p <+: l) :
    ¬ Verdict l := by
  unfold apart at h
  obtain ⟨a, b, p, rfl⟩ : ∃ a b p', p = a :: b :: p' := by
    cases p with
    | nil => simp at h
    | cons a p =>
      cases p with
      | nil => simp at h
      | cons b p => exact ⟨a, b, p, rfl⟩
  rw [Bool.and_eq_true, Bool.and_eq_true, Bool.not_eq_true', Bool.not_eq_true', Bool.and_eq_true,
    bne_iff_ne] at h
  obtain ⟨⟨hshort, hlong⟩, hA, hdigit⟩ := h
  rintro hv
  have happlied : ∀ l, Verdict l → l = appliedLine → ¬ a :: b :: p <+: l := by
    rintro l - rfl hp
    rcases List.prefix_or_prefix_of_prefix hp (by decide +kernel : appliedHead <+: appliedLine) with
      h | h
    · exact Bool.false_ne_true (hshort.symm.trans (List.isPrefixOf_iff_prefix.mpr h))
    · exact Bool.false_ne_true (hlong.symm.trans (List.isPrefixOf_iff_prefix.mpr h))
  have hpref := hp
  obtain ⟨r, rfl⟩ := hp
  generalize hl : a :: b :: p ++ r = l at hv hpref
  cases hv with
  | applied => exact happlied _ .applied rfl hpref
  | satisfied n =>
    rw [satisfiedLine_eq] at hl
    exact hA (List.cons.inj hl).1
  | failed n =>
    rw [failedLine_eq] at hl
    obtain ⟨d, ds, hds, hd⟩ := digits_cons n
    rw [hds] at hl
    obtain rfl : a = d := (List.cons.inj hl).1
    rw [hd, Bool.true_and, Bool.not_eq_true', bne_eq_false_iff_eq] at hdigit
    subst hdigit
    -- behind the first digit stands another one or a blank
    cases ds with
    | nil =>
      have hblank : '.' = ' ' := (List.cons.inj (List.cons.inj hl).2).1
      cases hblank
    | cons d' ds =>
      have hd' : d'.isDigit = true :=
        Decimal.isDigit_of_mem_digits (n := n) (hds ▸ List.mem_cons_of_mem _ List.mem_cons_self)
      have hdot : '.' = d' := (List.cons.inj (List.cons.inj hl).2).1
      rw [← hdot] at hd'
      cases hd'

theorem newline_not_mem_format {fmt : String} {chars : List Char} {args : List (List Char)}
    (hfmt : fmt = String.ofList chars) (hchars : chars.contains '\n' = false)
    (hargs : ∀ arg ∈ args, '\n' ∉ arg) : '\n' ∉ format fmt args := by
  subst hfmt
  intro h
  rcases mem_format h with h | ⟨arg, harg, h⟩
  · rw [mem_utf8 (by decide), String.toList_ofList] at h
    rw [List.contains_iff_mem.mpr h] at hchars
    cases hchars
  · exact hargs arg harg h

/-- Lines that begin with `p` are no verdicts, about a failed check or not. -/
def heads (b : Bool) (p : List Char) : Bool :=
  apart p && if b then failMark.isPrefixOf p else !failMark.isPrefixOf p && !p.isPrefixOf failMark

theorem told_of_prefix {b : Bool} {p l : List Char} (h : heads b p = true) (hp : p <+: l)
    (hl : '\n' ∉ l) : Told b l := by
  unfold heads at h
  rw [Bool.and_eq_true] at h
  obtain ⟨hapart, hmark⟩ := h
  refine ⟨hl, not_verdict_of_apart hapart hp, ?_⟩
  cases b with
  | true =>
    rw [if_pos rfl, List.isPrefixOf_iff_prefix] at hmark
    exact List.isPrefixOf_iff_prefix.mpr (hmark.trans hp)
  | false =>
    rw [if_neg Bool.false_ne_true, Bool.and_eq_true, Bool.not_eq_true', Bool.not_eq_true'] at hmark
    rw [← Bool.not_eq_true, isFail, List.isPrefixOf_iff_prefix]
    intro hfail
    rcases List.prefix_or_prefix_of_prefix hfail hp with h | h
    · rw [List.isPrefixOf_iff_prefix.mpr h] at hmark
      cases hmark.1
    · rw [List.isPrefixOf_iff_prefix.mpr h] at hmark
      cases hmark.2

/-- The format is that of such a line. -/
def tells (b : Bool) (fmt : List Char) : Bool := !fmt.contains '\n' && heads b (opening fmt)

theorem told_format {b : Bool} {fmt : String} {chars : List Char} {args : List (List Char)}
    (hfmt : fmt = String.ofList chars) (h : tells b chars = true)
    (hargs : ∀ arg ∈ args, '\n' ∉ arg) : Told b (format fmt args) := by
  unfold tells at h
  rw [Bool.and_eq_true, Bool.not_eq_true'] at h
  have hprefix : opening chars <+: format fmt args := hfmt ▸ opening_prefix chars args
  exact told_of_prefix h.2 hprefix (newline_not_mem_format hfmt h.1 hargs)

theorem told_nil : Told false [] where
  newline := List.not_mem_nil
  verdict h := by
    generalize hl : [] = l at h
    cases h with
    | applied => cases hl
    | failed n =>
      obtain ⟨d, ds, hds, -⟩ := digits_cons n
      rw [failedLine_eq, hds] at hl
      cases hl
    | satisfied n => cases hl
  fail := by decide

/-! ## Parts of the transcript -/

/-- The lines have the verdicts `vs` and `n` lines about failed checks. -/
structure Says (ls vs : List (List Char)) (n : ℕ) : Prop where
  newline : ∀ l ∈ ls, '\n' ∉ l
  verdict : ∀ v, Verdict v → (v ∈ ls ↔ v ∈ vs)
  fails : ls.countP isFail = n

section

variable {l v : List Char} {ls ls' vs vs' : List (List Char)} {m n : ℕ}

theorem says_nil : Says [] [] 0 := ⟨List.forall_mem_nil _, fun _ _ => Iff.rfl, rfl⟩

theorem Says.append (h : Says ls vs m) (h' : Says ls' vs' n) :
    Says (ls ++ ls') (vs ++ vs') (m + n) where
  newline l hl := (List.mem_append.mp hl).elim (h.newline l) (h'.newline l)
  verdict v hv := by
    rw [List.mem_append, List.mem_append, h.verdict v hv, h'.verdict v hv]
  fails := by rw [List.countP_append, h.fails, h'.fails]

theorem says_told {b : Bool} (h : Told b l) : Says [l] [] b.toNat where
  newline := List.forall_mem_singleton.mpr h.newline
  verdict v hv := by
    refine iff_of_false (fun hmem => ?_) List.not_mem_nil
    rw [List.mem_singleton] at hmem
    exact h.verdict (hmem ▸ hv)
  fails := by
    rw [List.countP_singleton, h.fail]
    cases b <;> rfl

/-- Lines that are silent about the run go before the others. -/
theorem Says.behind (hs : Says ls' vs n) (h : Says ls [] 0) : Says (ls ++ ls') vs n := by
  have happ := h.append hs
  rwa [List.nil_append, Nat.zero_add] at happ

theorem Says.cons (hs : Says ls vs n) (h : Told false l) : Says (l :: ls) vs n :=
  hs.behind (says_told h)

theorem isFail_of_head {a : Char} (h : l.head? = some a) (ha : a ≠ ' ') : isFail l = false := by
  cases l with
  | nil => cases h
  | cons b l =>
    obtain rfl : b = a := Option.some.inj h
    have hmark : failMark = ' ' :: failMark.tail := by decide +kernel
    rw [isFail, hmark, List.isPrefixOf, beq_false_of_ne ha.symm, Bool.false_and]

theorem says_verdict (h : Verdict v) : Says [v] [v] 0 := by
  have hparts : '\n' ∉ v ∧ isFail v = false := by
    cases h with
    | applied => exact ⟨by decide +kernel, by decide +kernel⟩
    | failed n =>
      obtain ⟨d, ds, hds, hd⟩ := digits_cons n
      refine ⟨newline_not_mem_format (literals_append rfl (literals_append rfl rfl)) (by decide)
        (by simp [newline_not_mem_digits]), ?_⟩
      refine isFail_of_head (a := d) (by rw [failedLine_eq, hds]; rfl) ?_
      rintro rfl
      cases hd
    | satisfied n =>
      refine ⟨newline_not_mem_format rfl (by decide) (by simp [newline_not_mem_digits]), ?_⟩
      exact isFail_of_head (a := 'A') (by rw [satisfiedLine_eq]; rfl) (by decide)
  refine ⟨List.forall_mem_singleton.mpr hparts.1, fun _ _ => Iff.rfl, ?_⟩
  rw [List.countP_singleton, hparts.2]
  rfl

end

/-- The texts of the operation are no more than lines. -/
structure OpT.OneLine (op : OpT) : Prop where
  raw : '\n' ∉ op.raw
  key : '\n' ∉ op.key
  type : '\n' ∉ op.type

/-- So are the texts that are not the surgeon's own. -/
structure Console.Plain (c : Console T) (L : Libzpool M T) (env : Env M) : Prop where
  argv0 : '\n' ∉ c.argv0
  strerror : ∀ e, '\n' ∉ c.strerror e
  name : ∀ t name, L.otName t = some name → '\n' ∉ name
  argv : ∀ arg ∈ env.argv, '\n' ∉ arg.toList

namespace Libzpool

variable {L : Libzpool M T} {c : Console T} {env : Env M}

/-- The two ways in which `check_op` ends a branch. -/
theorem fst_pass (b : Bool) (x y : List Char) : (if b then (true, x) else (false, y)).1 = b := by
  cases b <;> rfl

theorem fst_fail (b : Bool) (x y : List Char) : (if b then (false, x) else (true, y)).1 = !b := by
  cases b <;> rfl

/-- **What `check_op` says** is what it returns. -/
theorem checkVerdict_fst (mos : M) (op : OpT) :
    (L.checkVerdict c mos op).1 = L.checkOp mos op := by
  unfold checkVerdict checkOp
  cases hk : op.kind with
  | zapSet =>
    dsimp only
    cases L.zapLookup mos op.obj op.key 1 with
    | error e => rfl
    | ok buf => exact fst_fail _ _ _
  | zapZero =>
    dsimp only
    cases L.zapLookup mos op.obj op.key op.count with
    | error e => exact fst_pass _ _ _
    | ok buf => rfl
  | zapRemove =>
    dsimp only
    cases L.zapLookup mos op.obj op.key 1 with
    | error e => exact fst_pass _ _ _
    | ok buf => exact fst_fail _ _ _
  | bonusSet =>
    dsimp only
    cases L.bonusHold mos op.obj with
    | error e => rfl
    | ok cur => exact (fst_fail _ _ _).trans (Bool.not_not _)
  | free =>
    dsimp only
    cases L.objectInfo mos op.obj with
    | error e => exact fst_pass _ _ _
    | ok t => exact (fst_fail _ _ _).trans (Bool.not_not _)

/-- A branch that ends with one of two messages. -/
theorem told_pass {b : Bool} {x y : List Char} (hx : Told false x) (hy : Told true y) :
    Told (!(if b then (true, x) else (false, y)).1) (if b then (true, x) else (false, y)).2 := by
  cases b
  · exact hy
  · exact hx

theorem told_fail {b : Bool} {x y : List Char} (hx : Told true x) (hy : Told false y) :
    Told (!(if b then (false, x) else (true, y)).1) (if b then (false, x) else (true, y)).2 := by
  cases b
  · exact hy
  · exact hx

variable (hc : c.Plain L env)

include hc

theorem told_checkVerdict (mos : M) {op : OpT} (hop : op.OneLine) :
    Told (!(L.checkVerdict c mos op).1) (L.checkVerdict c mos op).2 := by
  have hnum := newline_not_mem_digits
  unfold checkVerdict
  cases hk : op.kind with
  | zapSet =>
    dsimp only
    cases L.zapLookup mos op.obj op.key 1 with
    | error e => exact told_format (b := true) rfl (by decide) (by simp [hnum, hop.key])
    | ok buf =>
      exact told_fail (told_format rfl (by decide) (by simp [hnum, hop.key]))
        (told_format rfl (by decide) (by simp [hnum, hop.key]))
  | zapZero =>
    dsimp only
    cases L.zapLookup mos op.obj op.key op.count with
    | error e =>
      exact told_pass (told_format rfl (by decide) (List.forall_mem_nil _))
        (told_format rfl (by decide) (by simp [hnum, hop.key]))
    | ok buf => exact told_format (b := false) rfl (by decide) (by simp [hnum, hop.key])
  | zapRemove =>
    dsimp only
    cases L.zapLookup mos op.obj op.key 1 with
    | error e =>
      exact told_pass (told_format rfl (by decide) (List.forall_mem_nil _))
        (told_format rfl (by decide) (by simp [hnum, hop.key]))
    | ok buf =>
      exact told_fail (told_format rfl (by decide) (by simp [hnum, hop.key]))
        (told_format rfl (by decide) (by simp [hnum, hop.key]))
  | bonusSet =>
    dsimp only
    cases L.bonusHold mos op.obj with
    | error e => exact told_format (b := true) rfl (by decide) (by simp [hnum])
    | ok cur =>
      exact told_fail (told_format rfl (by decide) (by simp [hnum]))
        (told_format rfl (by decide) (by simp [hnum]))
  | free =>
    dsimp only
    cases L.objectInfo mos op.obj with
    | error e =>
      exact told_pass (told_format rfl (by decide) (List.forall_mem_nil _))
        (told_format rfl (by decide) (by simp [hnum]))
    | ok t =>
      have hname : '\n' ∉ (L.otName t).getD ['?'] := by
        cases hn : L.otName t with
        | none => decide
        | some name => exact hc.name t name hn
      exact told_fail (told_format (literals_append rfl rfl) (by decide)
        (by simp [hnum, hname, hop.type]))
        (told_format rfl (by decide) (by simp [hnum, hop.type]))

theorem says_checkLines (mos : M) {op : OpT} (hop : op.OneLine) :
    Says (L.checkLines c mos op) [] (!L.checkOp mos op).toNat := by
  have hcheck : Told false (format "  [check] %s" [op.raw]) :=
    told_format rfl (by decide) (by simp [hop.raw])
  have hverdict := says_told (told_checkVerdict hc mos hop)
  rw [checkVerdict_fst] at hverdict
  exact hverdict.cons hcheck

theorem says_checks (mos : M) {ops : List OpT} (hops : ∀ op ∈ ops, op.OneLine) :
    Says (ops.flatMap (L.checkLines c mos)) [] (ops.filter fun op => !L.checkOp mos op).length := by
  induction ops with
  | nil => exact says_nil
  | cons op ops ih =>
    rw [List.forall_mem_cons] at hops
    have h := (says_checkLines hc mos hops.1).append (ih hops.2)
    rw [List.flatMap_cons, List.filter_cons]
    cases hop : L.checkOp mos op
    · rw [hop] at h
      rw [Bool.not_false, if_pos rfl, List.length_cons, Nat.add_comm]
      exact h
    · rw [hop] at h
      rw [Bool.not_true, if_neg Bool.false_ne_true]
      rwa [Bool.not_true, Bool.toNat_false, Nat.zero_add] at h

theorem says_pass1Lines (mos : M) (i : ℕ) {ops : List OpT} (hops : ∀ op ∈ ops, op.OneLine) :
    Says (L.pass1Lines c mos i ops) [] (!L.syncPass1 mos ops).toNat := by
  induction ops generalizing i with
  | nil => exact says_nil
  | cons op ops ih =>
    rw [List.forall_mem_cons] at hops
    have hverdict := told_checkVerdict hc mos hops.1
    have hfst := checkVerdict_fst (L := L) (c := c) mos op
    rw [pass1Lines, syncPass1]
    generalize L.checkVerdict c mos op = v at hverdict hfst
    obtain ⟨ok, line⟩ := v
    dsimp only at hverdict hfst ⊢
    rw [← hfst]
    cases ok with
    | false =>
      refine (says_told hverdict).append (says_told (told_format (b := false)
        (literals_append rfl rfl) (by decide) ?_))
      simp [newline_not_mem_digits, hops.1.raw]
    | true => exact ih (i + 1) hops.2

theorem says_pass2Lines (mos : M) (i : ℕ) {ops : List OpT} (hops : ∀ op ∈ ops, op.OneLine) :
    Says (L.pass2Lines c mos i ops) [] 0 := by
  induction ops generalizing i mos with
  | nil => exact says_told (told_format (b := false) rfl (by decide) (List.forall_mem_nil _))
  | cons op ops ih =>
    rw [List.forall_mem_cons] at hops
    have hline : ∀ res, '\n' ∉ res →
        Told false (format "  [sync]   op %d: %s -> %s" [digits i, op.raw, res]) := fun res hres =>
      told_format rfl (by decide) (by simp [newline_not_mem_digits, hops.1.raw, hres])
    rw [pass2Lines]
    cases L.applyOp mos op with
    | error e => exact says_told (hline _ (hc.strerror e))
    | ok mos' => exact (ih mos' (i + 1) hops.2).cons (hline (utf8 "OK") (by decide +kernel))

omit hc in
theorem says_banner {msg : String} (h : '\n' ∉ utf8 msg) : Says (banner msg) [] 0 :=
  (says_told (told_format (b := false) rfl (by decide) (by simp [h]))).cons told_nil

theorem says_syncLines (mos : M) {ops : List OpT} (hops : ∀ op ∈ ops, op.OneLine) :
    Says (L.syncLines c mos ops) [] (!L.syncPass1 mos ops).toNat := by
  have hstart : Says [[], format "  [sync] txg %llu — pass 1: re-verify all preconditions"
      [digits c.txg]] [] 0 :=
    (says_told (told_format (b := false) rfl (by decide)
      (by simp [newline_not_mem_digits]))).cons told_nil
  have hpass1 := (says_pass1Lines hc mos 0 hops).behind hstart
  unfold syncLines
  cases hp : L.syncPass1 mos ops with
  | false =>
    rw [hp] at hpass1
    rwa [Bool.not_false, if_pos rfl, List.append_nil]
  | true =>
    rw [hp] at hpass1
    rw [Bool.not_true, if_neg Bool.false_ne_true]
    refine ((says_pass2Lines hc mos 0 hops).cons ?_).behind hpass1
    exact told_format rfl (by decide) (List.forall_mem_nil _)

omit hc in
theorem says_exportLines : Says (exportLines c) [] 0 := by
  refine Says.behind ?_ (says_banner (by decide +kernel))
  cases c.exports
  · exact says_told (told_format (b := false) rfl (by decide) (List.forall_mem_nil _))
  · exact says_told (told_format (b := false) rfl (by decide) (List.forall_mem_nil _))

theorem importLines_eq (imp : Import) {target : List Char} (htarget : '\n' ∉ target)
    (poolname : String) (readonly : Bool) :
    ∃ l, importLines c imp target poolname readonly = [l] ∧ Told false l := by
  unfold importLines
  split
  · exact ⟨_, rfl, told_format rfl (by decide) (by simp [htarget, hc.strerror])⟩
  · split
    · exact ⟨_, rfl, told_format rfl (by decide) (by simp [htarget, hc.strerror])⟩
    · have hmode : '\n' ∉ utf8 (if readonly then "read-only" else "read-write") := by
        cases readonly <;> decide +kernel
      exact ⟨_, rfl, told_format rfl (by decide) (by simp [htarget, hmode])⟩

theorem says_appliedLines (mos : M) {ops : List OpT} (hops : ∀ op ∈ ops, op.OneLine)
    {pool : List Char} (hpool : '\n' ∉ pool) :
    Says (L.appliedLines c mos ops pool) [appliedLine]
      (ops.filter fun op => !L.checkOp mos op).length := by
  have hnext : Says [[], format "=== NEXT STEPS ===" [],
      format "1. Import guarded:  zpool import -N -o readonly=on %s" [pool],
      format "2. Inspect:         zpool status -v %s" [pool],
      format "3. If clean, import read-write and scrub before returning to service." []] [] 0 := by
    refine .cons (.cons (.cons (.cons (says_told (b := false) ?_) ?_) ?_) ?_) told_nil
    all_goals exact told_format rfl (by decide) (by simp [hpool])
  have hverify : Says (banner "Verification (post-apply)" ++ ops.flatMap (L.checkLines c mos)) []
      (ops.filter fun op => !L.checkOp mos op).length :=
    (says_checks hc mos hops).behind (says_banner (by decide +kernel))
  have hends := hverify.append (hnext.behind (says_exportLines (c := c)))
  have h := ((says_verdict .applied).cons told_nil).append hends
  rw [Nat.zero_add, Nat.add_zero, List.append_nil, List.append_nil] at h
  unfold appliedLines
  simpa only [List.append_assoc] using h

end Libzpool

/-! ## The truth of the transcript -/

/-- The operations whose preconditions the run examines: those of an accepted plan, confirmed
    if they are to be committed, on a pool that was opened. -/
def Env.examined (env : Env M) : Option (List OpT) :=
  match parseArgs {} env.argv with
  | some ⟨some poolname, some planpath, commit⟩ =>
    match env.readFile planpath with
    | none => none
    | some content =>
      if (parsePlan content).accepted = true ∧ (parsePlan content).ops.length ≠ 0 ∧
          (commit = true → confirmed env.stdin = true) ∧ env.importPool poolname = none ∧
          env.spaOpen poolname = none then some (parsePlan content).ops
      else none
  | _ => none

/-- What the lines tell of the run is true: whether the plan was applied, how many of which
    preconditions failed, and how many of them fail behind a commit. -/
structure Truthful (L : Libzpool M T) (lines : List (List Char)) (env : Env M) (r : Run M) :
    Prop where
  applied : appliedLine ∈ lines ↔ r.completed = true
  failed : ∀ n, failedLine n ∈ lines ↔ ∃ ops, env.examined = some ops ∧
    (ops.filter fun op => !L.checkOp env.mos op).length = n ∧ 0 < n
  satisfied : ∀ n, satisfiedLine n ∈ lines ↔ ∃ ops, env.examined = some ops ∧
    ops.length = n ∧ ∀ op ∈ ops, L.checkOp env.mos op = true
  refused : r.syncStart = none → lines.countP isFail =
    ((env.examined.getD []).filter fun op => !L.checkOp env.mos op).length
  verified : r.completed = true → lines.countP isFail =
    ((env.examined.getD []).filter fun op => !L.checkOp r.committed op).length

theorem failedLine_inj {m n : ℕ} : failedLine m = failedLine n ↔ m = n := by
  refine ⟨fun h => ?_, congrArg _⟩
  rw [failedLine_eq, failedLine_eq] at h
  exact Decimal.digits_injective (List.append_cancel_right h)

theorem satisfiedLine_inj {m n : ℕ} : satisfiedLine m = satisfiedLine n ↔ m = n := by
  refine ⟨fun h => ?_, congrArg _⟩
  rw [satisfiedLine_eq, satisfiedLine_eq] at h
  exact Decimal.digits_injective (List.append_cancel_right (List.append_cancel_left h))

/-- Verdicts of two kinds differ in their first character. -/
theorem failedLine_ne {n : ℕ} {a : Char} {l : List Char} (h : l.head? = some a)
    (ha : a.isDigit = false) : failedLine n ≠ l := by
  rintro rfl
  obtain ⟨d, ds, hds, hd⟩ := digits_cons n
  rw [failedLine_eq, hds] at h
  obtain rfl : d = a := Option.some.inj h
  rw [hd] at ha
  cases ha

theorem head_satisfiedLine (n : ℕ) : (satisfiedLine n).head? = some 'A' := by
  rw [satisfiedLine_eq]
  rfl

theorem head_appliedLine : appliedLine.head? = some 'P' := by decide +kernel

theorem failedLine_ne_satisfiedLine {m n : ℕ} : failedLine m ≠ satisfiedLine n :=
  failedLine_ne (head_satisfiedLine n) (by decide)

theorem failedLine_ne_appliedLine {n : ℕ} : failedLine n ≠ appliedLine :=
  failedLine_ne head_appliedLine (by decide)

theorem appliedLine_ne_satisfiedLine {n : ℕ} : appliedLine ≠ satisfiedLine n := by
  intro h
  have hhead := head_satisfiedLine n
  rw [← h, head_appliedLine] at hhead
  cases hhead

namespace Says

variable {L : Libzpool M T} {ls : List (List Char)} {env : Env M} {r : Run M} {ops : List OpT}
  {n : ℕ}

/-- No precondition was examined. -/
theorem truthful_none (h : Says ls [] 0) (hex : env.examined = none) (hr : r.completed = false) :
    Truthful L ls env r where
  applied := by rw [h.verdict _ .applied, hr]; simp
  failed n := by rw [h.verdict _ (.failed n), hex]; simp
  satisfied n := by rw [h.verdict _ (.satisfied n), hex]; simp
  refused _ := by rw [h.fails, hex]; rfl
  verified hdone := by rw [hr] at hdone; cases hdone

/-- Some preconditions failed. -/
theorem truthful_failed
    (h : Says ls [failedLine (ops.filter fun op => !L.checkOp env.mos op).length]
      (ops.filter fun op => !L.checkOp env.mos op).length)
    (hex : env.examined = some ops) (hr : r.completed = false)
    (hpos : 0 < (ops.filter fun op => !L.checkOp env.mos op).length) : Truthful L ls env r where
  applied := by
    rw [h.verdict _ .applied, hr, List.mem_singleton]
    exact iff_of_false failedLine_ne_appliedLine.symm Bool.false_ne_true
  failed n := by
    rw [h.verdict _ (.failed n), List.mem_singleton, failedLine_inj, hex]
    constructor
    · rintro rfl
      exact ⟨ops, rfl, rfl, hpos⟩
    · rintro ⟨ops', hops, hn, -⟩
      cases hops
      exact hn.symm
  satisfied n := by
    rw [h.verdict _ (.satisfied n), List.mem_singleton, hex]
    refine iff_of_false failedLine_ne_satisfiedLine.symm ?_
    rintro ⟨ops', hops, -, hall⟩
    cases hops
    have hnil : ops.filter (fun op => !L.checkOp env.mos op) = [] :=
      List.filter_eq_nil_iff.mpr fun op hop => by rw [hall op hop]; decide
    rw [hnil] at hpos
    cases hpos
  refused _ := by rw [h.fails, hex]; rfl
  verified hdone := by rw [hr] at hdone; cases hdone

/-- All preconditions hold. -/
theorem truthful_satisfied {vs : List (List Char)} (h : Says ls (satisfiedLine ops.length :: vs) n)
    (hex : env.examined = some ops) (hall : ∀ op ∈ ops, L.checkOp env.mos op = true)
    (hvs : vs = if r.completed = true then [appliedLine] else [])
    (hsync : r.syncStart = none → n = 0)
    (hdone : r.completed = true → n = (ops.filter fun op => !L.checkOp r.committed op).length) :
    Truthful L ls env r where
  applied := by
    rw [h.verdict _ .applied, List.mem_cons, hvs]
    split_ifs with hc
    · simp [hc]
    · simp [hc, appliedLine_ne_satisfiedLine]
  failed k := by
    have hnil : ops.filter (fun op => !L.checkOp env.mos op) = [] :=
      List.filter_eq_nil_iff.mpr fun op hop => by rw [hall op hop]; decide
    rw [h.verdict _ (.failed k), hex, List.mem_cons, hvs]
    refine iff_of_false ?_ ?_
    · split_ifs
      · simp [failedLine_ne_satisfiedLine, failedLine_ne_appliedLine]
      · simp [failedLine_ne_satisfiedLine]
    · rintro ⟨ops', hops, hk, hpos⟩
      cases hops
      rw [hnil] at hk
      subst hk
      cases hpos
  satisfied k := by
    rw [h.verdict _ (.satisfied k), hex, List.mem_cons, hvs, satisfiedLine_inj]
    constructor
    · rintro (rfl | hmem)
      · exact ⟨ops, rfl, rfl, hall⟩
      · split_ifs at hmem
        · exact absurd (List.mem_singleton.mp hmem).symm appliedLine_ne_satisfiedLine
        · cases hmem
    · rintro ⟨ops', hops, hk, -⟩
      cases hops
      exact .inl hk.symm
  refused hstart := by
    have hnil : ops.filter (fun op => !L.checkOp env.mos op) = [] :=
      List.filter_eq_nil_iff.mpr fun op hop => by rw [hall op hop]; decide
    rw [h.fails, hex, Option.getD_some, hnil, hsync hstart]
    rfl
  verified hc := by rw [h.fails, hex, Option.getD_some, hdone hc]

end Says

/-! ## The run -/

/-- The line behind the prompt is on the line of the prompt. -/
theorem Says.prompted {l : List Char} {ls vs : List (List Char)} {n : ℕ}
    (h : Says (l :: ls) vs n) (hl : Told false l) :
    Says (prompted (format "*** Type YES to proceed: " []) (l :: ls)) vs n := by
  have hprompt : Told false (format "*** Type YES to proceed: " [] ++ l) := by
    refine told_of_prefix (by decide +kernel) (List.prefix_append _ l) ?_
    rw [List.mem_append, not_or]
    exact ⟨by decide +kernel, hl.newline⟩
  refine Says.cons ⟨fun l' hl' => h.newline l' (List.mem_cons_of_mem _ hl'), fun v hv => ?_, ?_⟩
    hprompt
  · rw [← h.verdict v hv, List.mem_cons]
    exact ⟨.inr, fun hmem => hmem.resolve_left fun heq => hl.verdict (heq ▸ hv)⟩
  · rw [← h.fails, List.countP_cons_of_neg (by simp [hl.fail])]

namespace Libzpool

variable {L : Libzpool M T} {c : Console T} {env : Env M} (hc : c.Plain L env)

include hc

/-- Behind the checks. -/
theorem says_outcome {imp : Import} {pool : List Char} (hpool : '\n' ∉ pool) {poolname : String}
    {commit : Bool} {ops : List OpT} (hops : ∀ op ∈ ops, op.OneLine)
    (himp : (env.importing imp).importPool poolname = none) (hopen : env.spaOpen poolname = none)
    (hex : (env.importing imp).examined = some ops) :
    ∃ vs n, Says (ops.flatMap (L.checkLines c env.mos) ++ L.outcomeLines c env pool commit ops)
        vs n ∧ ∀ ls, Says ls vs n →
      Truthful L ls (env.importing imp) (L.runPool (env.importing imp) poolname commit ops) := by
  have hopen' : (env.importing imp).spaOpen poolname = none := hopen
  have hchecks := says_checks (L := L) hc env.mos hops
  have hmos : (env.importing imp).mos = env.mos := rfl
  unfold runPool outcomeLines
  rw [himp, hopen', hmos]
  dsimp only
  by_cases hpos : (ops.filter fun op => !L.checkOp env.mos op).length > 0
  · rw [if_pos hpos, if_pos hpos]
    refine ⟨_, _, hchecks.append (.append (.cons (says_verdict (.failed _)) told_nil)
      says_exportLines), fun ls h => ?_⟩
    exact @Says.truthful_failed _ _ L ls (env.importing imp) _ ops h hex rfl hpos
  · have hall : ∀ op ∈ ops, L.checkOp env.mos op = true := by
      rw [Nat.not_lt, Nat.le_zero, List.length_eq_zero_iff, List.filter_eq_nil_iff] at hpos
      simpa using hpos
    have hnil : (ops.filter fun op => !L.checkOp env.mos op).length = 0 := by omega
    rw [hnil] at hchecks
    have hsatisfied := (says_verdict (.satisfied ops.length)).cons told_nil
    rw [if_neg hpos, if_neg hpos]
    cases commit with
    | false =>
      rw [if_pos (by decide), if_pos (by decide)]
      have hdump : Told false (format "Dump mode: re-run with --commit to apply." []) :=
        told_format rfl (by decide) (List.forall_mem_nil _)
      have hends := Says.append hsatisfied ((says_exportLines (c := c)).behind
        ((says_told hdump).cons told_nil))
      refine ⟨_, _, hends.behind hchecks, fun ls h => ?_⟩
      exact @Says.truthful_satisfied _ _ L ls (env.importing imp) _ ops _ _ h hex hall rfl
        (fun _ => rfl) (fun hdone => by cases hdone)
    | true =>
      rw [if_neg (by decide), if_neg (by decide)]
      have happly : Says (banner "Applying plan") [] 0 := says_banner (by decide +kernel)
      have hsync : (env.importing imp).syncTask = env.syncTask := rfl
      have hstart : (env.importing imp).interfere env.mos = env.interfere env.mos := rfl
      rw [hsync, hstart]
      cases env.syncTask with
      | some e =>
        have herr : Told false (format "ERROR: dsl_sync_task failed: %s (err=%d)"
            [c.strerror e, digits (c.errno e)]) :=
          told_format rfl (by decide) (by simp [hc.strerror, newline_not_mem_digits])
        have hends := hsatisfied.append (((says_exportLines (c := c)).cons herr).behind happly)
        refine ⟨_, _, hends.behind hchecks, fun ls h => ?_⟩
        exact @Says.truthful_satisfied _ _ L ls (env.importing imp) _ ops _ _ h hex hall rfl
          (fun _ => rfl) (fun hdone => by cases hdone)
      | none =>
        dsimp only
        have hlines := says_syncLines (L := L) hc (env.interfere env.mos) hops
        cases hrun : L.applySync (env.interfere env.mos) ops with
        | killed =>
          have hends := hsatisfied.append ((hlines.append says_nil).behind happly)
          refine ⟨_, _, hends.behind hchecks, fun ls h => ?_⟩
          exact @Says.truthful_satisfied _ _ L ls (env.importing imp) _ ops _ _ h hex hall rfl
            (fun hstart => by cases hstart) (fun hdone => by cases hdone)
        | done mos =>
          have hpass := (L.syncPass1_iff).mpr ((L.applySync_done_iff).mp hrun).1
          rw [hpass] at hlines
          have hends := hsatisfied.append
            (((says_appliedLines hc mos hops hpool).behind hlines).behind happly)
          refine ⟨_, _, hends.behind hchecks, fun ls h => ?_⟩
          exact @Says.truthful_satisfied _ _ L ls (env.importing imp) _ ops _ _ h hex hall rfl
            (fun hstart => by cases hstart) (fun _ => Nat.zero_add _)

/-- From the import on. -/
theorem says_poolLines (imp : Import) {poolname : String} (hname : '\n' ∉ utf8 poolname)
    {commit : Bool} {ops : List OpT} (hops : ∀ op ∈ ops, op.OneLine)
    (hex : (env.importing imp).examined =
      if (env.importing imp).importPool poolname = none ∧ env.spaOpen poolname = none then some ops
      else none) :
    ∃ l ls vs n, L.poolLines c env imp poolname commit ops = l :: ls ∧ Told false l ∧
      Says (l :: ls) vs n ∧ ∀ ls, Says ls vs n →
      Truthful L ls (env.importing imp) (L.runPool (env.importing imp) poolname commit ops) := by
  obtain ⟨l, himport, hl⟩ := importLines_eq hc imp hname poolname (!commit)
  unfold poolLines
  rw [himport, List.singleton_append, doImport_snd]
  have hcall : (env.importing imp).importPool poolname = (doImport imp poolname true).2 := rfl
  cases himp : (doImport imp poolname true).2 with
  | some e =>
    rw [hcall, himp, if_neg fun h => by cases h.1] at hex
    refine ⟨_, _, [], 0, rfl, hl, says_told hl, fun ls h => h.truthful_none hex ?_⟩
    unfold runPool
    rw [hcall, himp]
    rfl
  | none =>
    dsimp only
    have hopens : (env.importing imp).spaOpen poolname = env.spaOpen poolname := rfl
    cases hopen : env.spaOpen poolname with
    | some e =>
      rw [hopen, if_neg fun h => by cases h.2] at hex
      have herr : Told false (format "ERROR: spa_open failed: %s" [c.strerror e]) :=
        told_format rfl (by decide) (by simp [hc.strerror])
      refine ⟨_, _, [], 0, rfl, hl, ((says_exportLines (c := c)).cons herr).cons hl,
        fun ls h => h.truthful_none hex ?_⟩
      unfold runPool
      rw [hcall, himp, hopens, hopen]
      rfl
    | none =>
      rw [hcall, himp, hopen, if_pos ⟨rfl, rfl⟩] at hex
      obtain ⟨vs, n, hparts, htrue⟩ := says_outcome hc hname hops (hcall.trans himp) hopen hex
      have hopened : Told false (format "spa_open OK" []) :=
        told_format rfl (by decide) (List.forall_mem_nil _)
      have hcleared : Says (if commit then
          [format "  Cleared in-memory spa_errlog_last (was %llu)" [digits env.errlog.last]]
          else []) [] 0 := by
        cases commit
        · exact says_nil
        · exact says_told
            (told_format (b := false) rfl (by decide) (by simp [newline_not_mem_digits]))
      have hbanner : Says (banner "Precondition check (read-only)") [] 0 :=
        says_banner (by decide +kernel)
      have hall := (((hparts.behind hbanner).behind hcleared).cons hopened).cons hl
      refine ⟨_, _, vs, n, rfl, hl, ?_, htrue⟩
      simpa only [List.append_assoc, List.cons_append, List.nil_append] using hall

end Libzpool

/-! ## What the plan file brings -/

theorem newline_not_mem_opText {line s : List Char} (h : opText line = some s) : '\n' ∉ s := by
  unfold opText at h
  split at h
  iterate 3 cases h
  cases h
  intro hmem
  exact absurd (List.mem_takeWhile_imp hmem) (by decide)

/-- An accepted line makes an operation whose texts are parts of it. -/
theorem oneLine_of_parseOp {s : List Char} {op : OpT} (h : parseOp s = (op, none))
    (hs : '\n' ∉ s) : op.OneLine := by
  have hraw : '\n' ∉ s.take (lineSize - 1) := fun hmem => hs (List.mem_of_mem_take hmem)
  have hstr : ∀ {key : String} {n : ℕ} {v : List Char}, kvStr s key n = some v → '\n' ∉ v :=
    fun hv hmem => hs (mem_of_mem_kvStr hv hmem)
  cases accepts_of_parseOp h with
  | zapSet _ _ hkey => exact ⟨hraw, hstr hkey, List.not_mem_nil⟩
  | zapZero _ _ hkey => exact ⟨hraw, hstr hkey, List.not_mem_nil⟩
  | zapRemove _ _ hkey => exact ⟨hraw, hstr hkey, List.not_mem_nil⟩
  | bonusSet => exact ⟨hraw, List.not_mem_nil, List.not_mem_nil⟩
  | free _ _ htype => exact ⟨hraw, List.not_mem_nil, hstr htype⟩

/-- The text that a refused line is reported with is the line. -/
theorem eq_of_unknownOp {s t : List Char} (h : (parseOp s).2 = some (.unknownOp t)) : t = s := by
  unfold parseOp at h
  dsimp only at h
  repeat' split at h
  all_goals simp_all

theorem told_message {e : ParseError} {lineno : ℕ} (he : ∀ s, e = .unknownOp s → '\n' ∉ s) :
    Told false (e.message lineno) := by
  have hnum := newline_not_mem_digits
  cases e with
  | unknownOp s => exact told_format rfl (by decide) (by simp [hnum, he s rfl])
  | _ => exact told_format rfl (by decide) (by simp [hnum])

/-- What `parse_plan` leaves behind. -/
theorem parseLines_oneLine {lineno : ℕ} {ops : List OpT} (lines : List (List Char))
    (hops : ∀ op ∈ ops, op.OneLine) :
    (∀ op ∈ (parseLines lineno ops lines).ops, op.OneLine) ∧
      ∀ n e op, (parseLines lineno ops lines).rejected = some (n, e, op) →
        Told false (e.message n) := by
  induction lines generalizing lineno ops with
  | nil => exact ⟨hops, fun n e op h => by cases h⟩
  | cons line lines ih =>
    rw [parseLines]
    cases htext : opText line with
    | none => exact ih hops
    | some s =>
      have hs := newline_not_mem_opText htext
      dsimp only
      split_ifs with hfull
      · refine ⟨hops, fun n e op h => ?_⟩
        cases h
        exact told_message fun s h => by cases h
      · split
        · rename_i op hparse
          refine ih fun op' hop' => ?_
          rcases List.mem_append.mp hop' with hop' | hop'
          · exact hops op' hop'
          · exact List.mem_singleton.mp hop' ▸ oneLine_of_parseOp hparse hs
        · rename_i op e hparse
          refine ⟨hops, fun n e' op' h => ?_⟩
          cases h
          refine told_message fun t ht => ?_
          have hunknown : (parseOp s).2 = some (.unknownOp t) := by rw [hparse, ht]
          exact eq_of_unknownOp hunknown ▸ hs

theorem parsePlan_oneLine (content : List Char) :
    (∀ op ∈ (parsePlan content).ops, op.OneLine) ∧
      ∀ n e op, (parsePlan content).rejected = some (n, e, op) → Told false (e.message n) :=
  parseLines_oneLine _ (List.forall_mem_nil _)

/-- The names that the loop over `argv` collects are arguments. -/
theorem mem_argv {args a : Args} {argv : List String} (h : parseArgs args argv = some a) :
    (∀ name, a.poolname = some name → args.poolname = some name ∨ name ∈ argv) ∧
      ∀ path, a.planpath = some path → args.planpath = some path ∨ path ∈ argv := by
  fun_induction parseArgs args argv with
  | case1 args =>
    cases h
    exact ⟨fun _ h => .inl h, fun _ h => .inl h⟩
  | case2 args argv ih =>
    obtain ⟨hname, hpath⟩ := ih h
    exact ⟨fun name hn => (hname name hn).imp_right (List.mem_cons_of_mem _),
      fun path hp => (hpath path hp).imp_right (List.mem_cons_of_mem _)⟩
  | case3 args path argv ih =>
    obtain ⟨hname, hpath⟩ := ih h
    refine ⟨fun name hn => (hname name hn).imp_right fun hm => ?_, fun path' hp => .inr ?_⟩
    · exact List.mem_cons_of_mem _ (List.mem_cons_of_mem _ hm)
    · rcases hpath path' hp with heq | hm
      · cases heq
        exact List.mem_cons_of_mem _ List.mem_cons_self
      · exact List.mem_cons_of_mem _ (List.mem_cons_of_mem _ hm)
  | case4 args arg argv _ _ _ ih =>
    obtain ⟨hname, hpath⟩ := ih h
    refine ⟨fun name hn => .inr ?_, fun path hp => (hpath path hp).imp_right
      (List.mem_cons_of_mem _)⟩
    rcases hname name hn with heq | hm
    · cases heq
      exact List.mem_cons_self
    · exact List.mem_cons_of_mem _ hm
  | case5 => cases h

namespace Libzpool

variable {L : Libzpool M T} {c : Console T} {env : Env M}

/-- From the banner on. -/
theorem says_modeLines (hc : c.Plain L env) (imp : Import) {poolname : String}
    (hname : '\n' ∉ utf8 poolname) {commit : Bool} {ops : List OpT}
    (hops : ∀ op ∈ ops, op.OneLine)
    (hex : (env.importing imp).examined =
      if (commit = true → confirmed env.stdin = true) ∧
        (env.importing imp).importPool poolname = none ∧ env.spaOpen poolname = none then some ops
      else none) :
    ∃ vs n, Says (L.modeLines c env imp poolname commit ops) vs n ∧ ∀ ls, Says ls vs n →
      Truthful L ls (env.importing imp)
        (if (commit && !confirmed env.stdin) = true then (env.importing imp).leave 1 none
        else L.runPool (env.importing imp) poolname commit ops) := by
  have hbanner : Says (banner
      (if commit then "zhaxx: COMMIT MODE" else "zhaxx: DUMP MODE (read-only)")) [] 0 := by
    cases commit <;> exact says_banner (by decide +kernel)
  have hpool : Told false (format "Pool: %s" [utf8 poolname]) :=
    told_format rfl (by decide) (by simp [hname])
  have hhead := (says_told hpool).behind hbanner
  unfold modeLines
  cases commit with
  | false =>
    rw [if_neg Bool.false_ne_true, Bool.false_and, if_neg Bool.false_ne_true]
    obtain ⟨l, ls, vs, n, hlines, -, hparts, htrue⟩ :=
      @says_poolLines _ _ L c env hc imp _ hname false _ hops (by rw [hex]; simp)
    exact ⟨vs, n, (hlines ▸ hparts).behind hhead, htrue⟩
  | true =>
    have hwarning : Says
        [[], format "*** COMMIT will modify the pool MOS in one atomic transaction. ***" [],
          format "*** %d operations; all preconditions are re-verified first. ***"
            [digits ops.length]] [] 0 := by
      refine .cons (.cons (says_told (b := false) ?_) ?_) told_nil
      all_goals exact told_format rfl (by decide) (by simp [newline_not_mem_digits])
    rw [if_pos rfl, if_pos rfl, Bool.true_and]
    cases hyes : confirmed env.stdin with
    | false =>
      rw [hyes, if_neg fun h => Bool.false_ne_true (h.1 rfl)] at hex
      have habort : Told false (format "aborted." []) :=
        told_format rfl (by decide) (List.forall_mem_nil _)
      rw [Bool.not_false, if_pos rfl, if_pos rfl]
      refine ⟨[], 0, (((says_told habort).prompted habort).behind hwarning).behind hhead,
        fun ls h => h.truthful_none hex ?_⟩
      simp [Run.completed, Env.leave]
    | true =>
      obtain ⟨l, ls, vs, n, hlines, hl, hparts, htrue⟩ :=
        @says_poolLines _ _ L c env hc imp _ hname true _ hops (by rw [hex]; simp [hyes])
      rw [Bool.not_true, if_neg Bool.false_ne_true, if_neg Bool.false_ne_true, hlines]
      exact ⟨vs, n, ((hparts.prompted hl).behind hwarning).behind hhead, htrue⟩

/-- All of `main`. -/
theorem says_transcript (hc : c.Plain L env) (imp : Import) :
    ∃ vs n, Says (L.transcript c env imp) vs n ∧ ∀ ls, Says ls vs n →
      Truthful L ls (env.importing imp) (L.main (env.importing imp)) := by
  have hargv : (env.importing imp).argv = env.argv := rfl
  have hfile : (env.importing imp).readFile = env.readFile := rfl
  have hstdin : (env.importing imp).stdin = env.stdin := rfl
  have hopen : (env.importing imp).spaOpen = env.spaOpen := rfl
  have hnum := newline_not_mem_digits
  have hex := Env.examined.eq_def (env.importing imp)
  rw [hargv, hfile, hstdin, hopen] at hex
  have hsilent : ∀ {ls code}, Says ls [] 0 → (env.importing imp).examined = none →
      ∃ vs n, Says ls vs n ∧ ∀ ls', Says ls' vs n →
        Truthful L ls' (env.importing imp) ((env.importing imp).leave code none) :=
    fun h hex => ⟨[], 0, h, fun _ h' => h'.truthful_none hex (by simp [Run.completed, Env.leave])⟩
  have husage : Says (usageLines c) [] 0 := by
    refine .cons (.cons (says_told (b := false) ?_) ?_) ?_
    all_goals exact told_format rfl (by decide) (by simp [hc.argv0])
  unfold transcript main
  rw [hargv, hfile, hstdin]
  rcases hargs : parseArgs {} env.argv with _ | ⟨_ | poolname, _ | planpath, commit⟩
  iterate 4
    rw [hargs] at hex
    exact hsilent husage hex
  obtain ⟨hname, hpath⟩ := mem_argv hargs
  have hplain : ∀ arg ∈ env.argv, '\n' ∉ utf8 arg := fun arg harg h =>
    hc.argv arg harg ((mem_utf8 (by decide)).mp h)
  replace hname := hplain _ ((hname _ rfl).resolve_left (by simp))
  replace hpath := hplain _ ((hpath _ rfl).resolve_left (by simp))
  rw [hargs] at hex
  dsimp only at hex ⊢
  cases hread : env.readFile planpath with
  | none =>
    rw [hread] at hex
    exact hsilent (says_told (told_format (b := false) rfl (by decide)
      (by simp [hpath, hc.strerror]))) hex
  | some content =>
    rw [hread] at hex
    dsimp only at hex ⊢
    obtain ⟨hops, herrors⟩ := parsePlan_oneLine content
    cases hrej : (parsePlan content).rejected with
    | some r =>
      obtain ⟨lineno, e, op⟩ := r
      have hacc : (parsePlan content).accepted = false := by rw [Parsed.accepted, hrej]; rfl
      rw [hacc, if_neg fun h => by cases h.1] at hex
      rw [hacc, Bool.not_false, if_pos rfl]
      exact hsilent (says_told (herrors lineno e op hrej)) hex
    | none =>
      have hacc : (parsePlan content).accepted = true := by rw [Parsed.accepted, hrej]; rfl
      rw [hacc] at hex
      rw [hacc, Bool.not_true, if_neg Bool.false_ne_true]
      dsimp only
      have hparsed : Told false (format "Parsed %d op(s) from %s"
          [digits (parsePlan content).ops.length, utf8 planpath]) :=
        told_format rfl (by decide) (by simp [hnum, hpath])
      by_cases hnil : (parsePlan content).ops.length = 0
      · rw [if_neg fun h => h.2.1 hnil] at hex
        rw [if_pos hnil, if_pos hnil]
        have hnothing : Told false (format "Plan is empty; nothing to do." []) :=
          told_format rfl (by decide) (List.forall_mem_nil _)
        exact hsilent ((says_told hnothing).cons hparsed) hex
      · rw [if_neg hnil, if_neg hnil]
        obtain ⟨vs, n, hparts, htrue⟩ :=
          @says_modeLines _ _ L c env hc imp _ hname commit _ hops (by rw [hex]; simp [hnil])
        exact ⟨vs, n, hparts.cons hparsed, htrue⟩

end Libzpool

/-- A console of a system with two errors. -/
def plainConsole : Console String where
  argv0 := utf8 "zhaxx"
  strerror e := if e = .enoent then utf8 "No such file or directory" else utf8 "I/O error"
  errno e := if e = .enoent then 2 else 5
  typeNum _ := 1
  openError := .enoent
  txg := 4
  exports := true

/-- A `libzpool` whose type names are lines. -/
def linesLib : Libzpool (Store String) String :=
  storeLib String fun t => if '\n' ∈ utf8 t then none else some (utf8 t)

/-- A commit whose plan has the message of success for a key. -/
def forgedRun : Env (Store String) :=
  session ["--commit", "--plan", "repair.plan", "tank"]
    "zap_set obj=1 key=\"Plan applied successfully.\" expect=38 value=0\n"

/-- An import without errors. -/
def cleanImport : Import := ⟨fun _ => none, fun _ => none⟩

end Zhaxx.Surgeon
