import Zhaxx.Surgeon.Guards

/-!
# Before and after a commit

`check_op` runs before pass 2, where it announces some operations as no-ops
(`surgeon/zhaxx.c` lines 283–287, 316–320 and 357–361), and once more over all operations
after the commit (lines 642–645). It knows the state an operation expects, not the one it
produces.

Results:
* `announced_iff`: an operation announced as a no-op leaves its target as it was, unless
  it is a `zap_zero` that pass 2 gets to.
* `postApply_eq_nil_iff`: the verification after a commit reports no failure exactly when
  every setting sets the value it expects.
* `absentScan_created`, `dropLog_fails`: a `zap_zero` that creates its entry, and a commit
  that is reported as a failure.
-/

namespace Zhaxx.Surgeon

/-! ## Targets -/

/-- The part of the MOS that an operation names. -/
inductive Target where
  | entry (o : ℕ) (k : List Char)
  | count (o : ℕ)
  | object (o : ℕ)
  deriving DecidableEq

/-- The target of an operation. -/
def OpT.target (op : OpT) : Target :=
  match op.kind with
  | .zapSet | .zapZero | .zapRemove => .entry op.obj op.key
  | .bonusSet => .count op.obj
  | .free => .object op.obj

/-- Two stores agree on a target. -/
def Target.Same {T : Type*} (s s' : Store T) : Target → Prop
  | .entry o k => s'.entry o k = s.entry o k
  | .count o => s'.numChildren o = s.numChildren o
  | .object o => s'.type o = s.type o ∧ (∀ k, s'.entry o k = s.entry o k) ∧
      s'.numChildren o = s.numChildren o

theorem Target.same_refl {T : Type*} (s : Store T) (t : Target) : t.Same s s := by
  cases t with
  | entry o k => exact rfl
  | count o => exact rfl
  | object o => exact ⟨rfl, fun _ => rfl, rfl⟩

theorem OpT.entryWrite_eq_none {op : OpT} {o : ℕ} {k : List Char} (h : op.target ≠ .entry o k) :
    op.entryWrite o k = none := by
  unfold OpT.target at h
  unfold OpT.entryWrite
  split_ifs with hc
  · rw [← hc.1, ← hc.2] at h
    cases hk : op.kind <;> simp [hk] at h ⊢
  · rfl

theorem OpT.countWrite_eq_none {op : OpT} {o : ℕ} (h : op.target ≠ .count o) :
    op.countWrite o = none := by
  unfold OpT.target at h
  refine if_neg fun hc => ?_
  rw [← hc.2] at h
  simp [hc.1] at h

/-! ## No-ops -/

namespace Libzpool

variable {M T : Type*} (L : Libzpool M T)

/-- `check_op` announces the operation as a no-op: it takes one of its `ENOENT` branches. -/
def announced (mos : M) (op : OpT) : Bool :=
  match op.kind with
  | .zapSet => false
  | .zapRemove =>
    match L.zapLookup mos op.obj op.key 1 with
    | .error e => e == .enoent
    | .ok _ => false
  | .zapZero =>
    match L.zapLookup mos op.obj op.key op.count with
    | .error e => e == .enoent
    | .ok _ => false
  | .bonusSet => false
  | .free =>
    match L.objectInfo mos op.obj with
    | .error e => e == .enoent
    | .ok _ => false

/-- The MOS behind the sync task: a killed one commits nothing. -/
def committed (mos : M) (ops : List OpT) : M :=
  match L.applySync mos ops with
  | .killed => mos
  | .done mos' => mos'

/-- The verification of `main` after the commit (lines 642–645): the operations it reports
    as failed. Every branch of `check_op` that returns false prints `FAIL`. -/
def postApply (mos : M) (ops : List OpT) : List OpT := ops.filter fun op => !L.checkOp mos op

end Libzpool

/-- What an announced no-op finds. -/
theorem Lawful.announced_absent {M T : Type*} {L : Libzpool M T} {view : M → Store T}
    (h : Lawful L view) {m : M} {op : OpT} (hno : L.announced m op = true) :
    ((op.kind = .zapRemove ∨ op.kind = .zapZero) ∧ (view m).entry op.obj op.key = none) ∨
      op.kind = .free ∧ (view m).type op.obj = none := by
  unfold Libzpool.announced at hno
  cases hk : op.kind <;> simp only [hk, Bool.false_eq_true] at hno
  case zapZero =>
    cases hl : L.zapLookup m op.obj op.key op.count with
    | ok ws => simp [hl] at hno
    | error e =>
      rw [hl] at hno
      exact .inl ⟨.inr rfl, h.lookup_absent (by rw [hl, beq_iff_eq.mp hno])⟩
  case zapRemove =>
    cases hl : L.zapLookup m op.obj op.key 1 with
    | ok ws => simp [hl] at hno
    | error e =>
      rw [hl] at hno
      exact .inl ⟨.inl rfl, h.lookup_absent (by rw [hl, beq_iff_eq.mp hno])⟩
  case free =>
    cases hi : L.objectInfo m op.obj with
    | ok t => simp [hi] at hno
    | error e =>
      rw [hi] at hno
      exact .inr ⟨rfl, h.info_absent (by rw [hi, beq_iff_eq.mp hno])⟩

namespace Faultless

variable {M T : Type*} {L : Libzpool M T} {view : M → Store T} (h : Faultless L view)

include h

theorem committed_of_not_completes {m : M} {ops : List OpT}
    (hc : ∀ op ∈ ops, L.checkOp m op = true) (hcomp : ¬ Completes (view m) ops) :
    L.committed m ops = m := by
  unfold Libzpool.committed
  cases hd : L.applySync m ops with
  | killed => rfl
  | done m' =>
    exact absurd ((h.applyAll_completes hc).mp ⟨m', (L.applySync_done_iff.mp hd).2⟩) hcomp

/-- **Announced no-ops.** Where no other operation has its target, an operation announced
    as a no-op leaves the target as it was, unless it is a `zap_zero` of a plan that pass 2
    completes and that does not free the object. -/
theorem announced_iff {m : M} {ops pre post : List OpT} {op : OpT}
    (hc : ∀ op ∈ ops, L.checkOp m op = true) (hsplit : ops = pre ++ op :: post)
    (hno : L.announced m op = true) (hother : ∀ op' ∈ pre ++ post, op'.target ≠ op.target) :
    op.target.Same (view m) (view (L.committed m ops)) ↔
      ¬ (op.kind = .zapZero ∧ Completes (view m) ops ∧ ∀ op' ∈ ops, ¬ op'.Frees op.obj) := by
  by_cases hcomp : Completes (view m) ops
  swap
  · rw [h.committed_of_not_completes hc hcomp]
    exact iff_of_true (op.target.same_refl _) fun hno => hcomp hno.2.1
  obtain ⟨m', happ⟩ := (h.applyAll_completes hc).mpr hcomp
  have hcommitted : L.committed m ops = m' := by
    rw [Libzpool.committed, L.applySync_done_iff.mpr ⟨hc, happ⟩]
  rw [hcommitted]
  rcases h.announced_absent hno with ⟨hk, hnone⟩ | ⟨hk, hnone⟩
  · have htarget : op.target = .entry op.obj op.key := by
      rcases hk with hk | hk <;> simp [OpT.target, hk]
    have hsame : op.target.Same (view m) (view m') ↔ (view m').entry op.obj op.key = none := by
      rw [htarget, Target.Same, hnone]
    have hpost : ∀ op' ∈ post, op'.entryWrite op.obj op.key = none := fun op' hop' =>
      OpT.entryWrite_eq_none (htarget ▸ hother op' (List.mem_append_right _ hop'))
    rw [hsame]
    by_cases hfree : ∃ op' ∈ ops, op'.Frees op.obj
    · obtain ⟨op', hop', hf⟩ := hfree
      refine iff_of_true (((view m').unallocated op.obj ?_).1 _) fun hno => hno.2.2 op' hop' hf
      rw [h.applyAll_ok happ, Store.foldl_type, if_pos ⟨op', hop', hf⟩]
    · have hkept : ∀ op' ∈ ops, ¬ op'.Frees op.obj := fun op' hop' hf => hfree ⟨op', hop', hf⟩
      subst hsplit
      rcases hk with hk | hk
      · have hw : op.entryWrite op.obj op.key = some none := by simp [OpT.entryWrite, hk]
        rw [h.applyAll_entry_last happ hkept hw hpost]
        exact iff_of_true rfl (by simp [hk])
      · have hw : op.entryWrite op.obj op.key = some (some (List.replicate op.count 0)) := by
          simp [OpT.entryWrite, hk]
        rw [h.applyAll_entry_last happ hkept hw hpost]
        exact iff_of_false (by simp) (not_not.mpr ⟨hk, hcomp, hkept⟩)
  · have htarget : op.target = .object op.obj := by simp [OpT.target, hk]
    have hnone' : (view m').type op.obj = none := by
      rw [h.applyAll_ok happ]
      exact Store.foldl_type_none hnone
    obtain ⟨he, hn⟩ := (view m).unallocated op.obj hnone
    obtain ⟨he', hn'⟩ := (view m').unallocated op.obj hnone'
    refine iff_of_true ?_ (by simp [hk])
    rw [htarget]
    exact ⟨hnone'.trans hnone.symm, fun k => (he' k).trans (he k).symm, hn'.trans hn.symm⟩

end Faultless

/-- The removal of an entry that is not there. -/
theorem announced_absentRemove :
    ((parsePlan "zap_remove obj=1 key=scan\n".toList).ops.map OpT.target =
        [.entry 1 "scan".toList]) ∧
      (Target.entry 1 "scan".toList).Same loggedPool
        ((storeLib String fun t => some t.toList).committed loggedPool
          (parsePlan "zap_remove obj=1 key=scan\n".toList).ops) := by
  have hops : (parsePlan "zap_remove obj=1 key=scan\n".toList).ops =
      [] ++ { OpT.zero with
        kind := .zapRemove, obj := 1, key := "scan".toList
        raw := "zap_remove obj=1 key=scan".toList } :: [] := by
    decide +kernel
  refine ⟨by rw [hops]; rfl, ?_⟩
  exact ((storeLib_faultless String fun t => some t.toList).announced_iff
    (by rw [hops]; decide +kernel) hops (by decide +kernel)
    (fun _ h => absurd h List.not_mem_nil)).mpr fun h => absurd h.1 (by decide)

/-- **A `zap_zero` creates the entry it announces as absent.** -/
theorem absentScan_created :
    (parsePlan "zap_zero obj=1 key=scan count=24\n".toList).accepted = true ∧
      (∀ op ∈ (parsePlan "zap_zero obj=1 key=scan count=24\n".toList).ops,
        (storeLib String fun t => some t.toList).checkOp loggedPool op = true ∧
        (storeLib String fun t => some t.toList).announced loggedPool op = true ∧
        op.target = .entry 1 "scan".toList) ∧
      (parsePlan "zap_zero obj=1 key=scan count=24\n".toList).ops.length = 1 ∧
      loggedPool.entry 1 "scan".toList = none ∧
      ((storeLib String fun t => some t.toList).committed loggedPool
        (parsePlan "zap_zero obj=1 key=scan count=24\n".toList).ops).entry 1 "scan".toList =
          some (List.replicate 24 0) := by
  have hops : (parsePlan "zap_zero obj=1 key=scan count=24\n".toList).ops =
      [{ OpT.zero with
        kind := .zapZero, obj := 1, key := "scan".toList, count := 24
        raw := "zap_zero obj=1 key=scan count=24".toList }] := by
    decide +kernel
  rw [hops]
  refine ⟨by decide +kernel, by decide +kernel, rfl, by decide +kernel, ?_⟩
  rw [Libzpool.committed, (storeLib String fun t => some t.toList).applySync_done_iff.mpr
    ⟨by decide +kernel, rfl⟩]
  decide +kernel

/-! ## Verification -/

namespace Precise

variable {M T : Type*} {L : Libzpool M T} {view : M → Store T} (h : Precise L view)

include h

section Committed

variable {m m' : M} {pre post : List OpT} {op : OpT}
  (happ : L.applyAll m (pre ++ op :: post) = .ok m')

include happ

theorem committed_freed (hf : ∃ op' ∈ pre ++ op :: post, op'.Frees op.obj) :
    (view m').entry op.obj op.key = none ∧ (view m').numChildren op.obj = none := by
  have htype : (view m').type op.obj = none := by
    rw [h.applyAll_ok happ, Store.foldl_type, if_pos hf]
  exact ⟨((view m').unallocated op.obj htype).1 _, ((view m').unallocated op.obj htype).2⟩

variable (hpost : ∀ op' ∈ post, op'.target ≠ op.target)

include hpost

theorem committed_entry (hkept : ∀ op' ∈ pre ++ op :: post, ¬ op'.Frees op.obj)
    {ws : Option (List ℕ)} (ht : op.target = .entry op.obj op.key)
    (hw : op.entryWrite op.obj op.key = some ws) : (view m').entry op.obj op.key = ws :=
  h.applyAll_entry_last happ hkept hw fun op' hop' =>
    OpT.entryWrite_eq_none (ht ▸ hpost op' hop')

theorem committed_count (hkept : ∀ op' ∈ pre ++ op :: post, ¬ op'.Frees op.obj)
    (hk : op.kind = .bonusSet) : (view m').numChildren op.obj = some op.value := by
  have ht : op.target = .count op.obj := by simp [OpT.target, hk]
  refine h.applyAll_numChildren_last happ hkept (by simp [OpT.countWrite, hk]) fun op' hop' => ?_
  exact OpT.countWrite_eq_none (ht ▸ hpost op' hop')

/-- What a `zap_zero` leaves behind. -/
theorem committed_zero (hk : op.kind = .zapZero) :
    (view m').entry op.obj op.key = none ∨
      (view m').entry op.obj op.key = some (List.replicate op.count 0) := by
  by_cases hf : ∃ op' ∈ pre ++ op :: post, op'.Frees op.obj
  · exact .inl (h.committed_freed happ hf).1
  · refine .inr (h.committed_entry happ hpost (fun op' hop' hf' => hf ⟨op', hop', hf'⟩) ?_ ?_)
    · simp [OpT.target, hk]
    · simp [OpT.entryWrite, hk]

/-- **Verification of one operation** whose target no later one has. -/
theorem checkOp_committed_iff (hop : op.Meets) :
    L.checkOp m' op = true ↔ (op.kind = .zapSet ∨ op.kind = .bonusSet →
      op.value = op.expect ∧ ∀ op' ∈ pre ++ op :: post, ¬ op'.Frees op.obj) := by
  have hne : op.kind = .zapZero → (view m').entry op.obj op.key ≠ some [] := by
    intro hk
    have hpos := (hop.zapZero hk).1
    rcases h.committed_zero happ hpost hk with he | he
    · simp [he]
    · rw [he, ne_eq, Option.some.injEq, List.replicate_eq_nil_iff]
      omega
  rw [h.checkOp_iff hne]
  unfold Guarded
  cases hk : op.kind <;> simp only [reduceCtorEq, or_false, or_true, or_self, false_imp_iff,
    true_imp_iff, iff_true]
  case zapSet =>
    constructor
    · rintro ⟨w, hw, hexpect⟩
      have hkept : ∀ op' ∈ pre ++ op :: post, ¬ op'.Frees op.obj := by
        intro op' hop' hf
        rw [(h.committed_freed happ ⟨op', hop', hf⟩).1] at hw
        cases hw
      have hwrite : op.entryWrite op.obj op.key = some (some [op.value]) := by
        simp [OpT.entryWrite, hk]
      rw [h.committed_entry happ hpost hkept (by simp [OpT.target, hk]) hwrite] at hw
      cases hw
      exact ⟨hexpect (hop.zapSet hk), hkept⟩
    · rintro ⟨hvalue, hkept⟩
      exact ⟨op.value, h.committed_entry happ hpost hkept (by simp [OpT.target, hk])
        (by simp [OpT.entryWrite, hk]), fun _ => hvalue⟩
  case zapZero =>
    refine (h.committed_zero happ hpost hk).imp_right fun he => ⟨_, he, ?_⟩
    exact List.length_replicate.le
  case zapRemove =>
    refine .inl ?_
    by_cases hf : ∃ op' ∈ pre ++ op :: post, op'.Frees op.obj
    · exact (h.committed_freed happ hf).1
    · refine h.committed_entry happ hpost (fun op' hop' hf' => hf ⟨op', hop', hf'⟩) ?_ ?_
      · simp [OpT.target, hk]
      · simp [OpT.entryWrite, hk]
  case bonusSet =>
    constructor
    · intro hn
      have hkept : ∀ op' ∈ pre ++ op :: post, ¬ op'.Frees op.obj := by
        intro op' hop' hf
        rw [(h.committed_freed happ ⟨op', hop', hf⟩).2] at hn
        cases hn
      rw [h.committed_count happ hpost hkept hk] at hn
      exact ⟨Option.some.inj hn, hkept⟩
    · rintro ⟨hvalue, hkept⟩
      rw [← hvalue]
      exact h.committed_count happ hpost hkept hk
  case free =>
    refine .inl ?_
    rw [h.applyAll_ok happ, Store.foldl_type, if_pos ⟨op, by simp, hk, rfl⟩]

end Committed

/-- **Verification after a commit.** -/
theorem postApply_eq_nil_iff {m m' : M} {content : List Char}
    (hd : L.applySync m (parsePlan content).ops = .done m')
    (hdist : ((parsePlan content).ops.map OpT.target).Nodup) :
    L.postApply m' (parsePlan content).ops = [] ↔
      ∀ op ∈ (parsePlan content).ops, op.kind = .zapSet ∨ op.kind = .bonusSet →
        op.value = op.expect ∧ ∀ op' ∈ (parsePlan content).ops, ¬ op'.Frees op.obj := by
  have hmeets := parsePlan_meets content
  generalize (parsePlan content).ops = ops at hd hdist hmeets
  have hpost : ∀ pre op post, ops = pre ++ op :: post → ∀ op' ∈ post, op'.target ≠ op.target := by
    intro pre op post hsplit op' hop' heq
    rw [hsplit, List.map_append, List.map_cons] at hdist
    have hcons := (List.nodup_append.mp hdist).2.1
    exact (List.nodup_cons.mp hcons).1 (heq ▸ List.mem_map_of_mem hop')
  unfold Libzpool.postApply
  rw [List.filter_eq_nil_iff]
  refine forall₂_congr fun op hop => ?_
  obtain ⟨pre, post, hsplit⟩ := List.append_of_mem hop
  rw [Bool.not_eq_true', Bool.not_eq_false]
  subst hsplit
  exact h.checkOp_committed_iff (L.applySync_done_iff.mp hd).2 (hpost pre op post rfl)
    (hmeets op hop)

end Precise

/-- A commit that removes an entry is confirmed. -/
theorem postApply_removeLast :
    (storeLib String fun t => some t.toList).postApply
      ((parsePlan "zap_remove obj=1 key=errlog_last\n".toList).ops.foldl Store.apply loggedPool)
      (parsePlan "zap_remove obj=1 key=errlog_last\n".toList).ops = [] := by
  have hops : (parsePlan "zap_remove obj=1 key=errlog_last\n".toList).ops =
      [{ OpT.zero with
        kind := .zapRemove, obj := 1, key := "errlog_last".toList
        raw := "zap_remove obj=1 key=errlog_last".toList }] := by
    decide +kernel
  refine ((storeLib_precise String fun t => some t.toList).postApply_eq_nil_iff
    (m := loggedPool) ?_ ?_).mpr ?_
  · rw [Libzpool.applySync_done_iff, hops]
    exact ⟨by decide +kernel, rfl⟩
  · rw [hops]
    decide +kernel
  · rw [hops]
    simp

/-- The plan that drops the error log `38`. -/
def dropLogText : List Char :=
  ("zap_set obj=1 key=errlog_last expect=38 value=0\n" ++
    "free obj=38 type=\"error log\"\n").toList

/-- **A good commit is reported as a failure.** -/
theorem dropLog_fails :
    (parsePlan dropLogText).accepted = true ∧
      ((parsePlan dropLogText).ops.map OpT.target).Nodup ∧
      ∃ m', (storeLib String fun t => some t.toList).applySync loggedPool
          (parsePlan dropLogText).ops = .done m' ∧
        m'.entry 1 "errlog_last".toList = some [0] ∧ m'.type 38 = none ∧
        ((storeLib String fun t => some t.toList).postApply m' (parsePlan dropLogText).ops).map
          OpT.raw = ["zap_set obj=1 key=errlog_last expect=38 value=0".toList] := by
  have hops : (parsePlan dropLogText).ops =
      [{ OpT.zero with
        kind := .zapSet, obj := 1, key := "errlog_last".toList, expect := 38, hasExpect := true
        raw := "zap_set obj=1 key=errlog_last expect=38 value=0".toList },
      { OpT.zero with
        kind := .free, obj := 38, type := "error log".toList
        raw := "free obj=38 type=\"error log\"".toList }] := by
    decide +kernel
  refine ⟨by decide +kernel, by rw [hops]; decide +kernel,
    (parsePlan dropLogText).ops.foldl Store.apply loggedPool, ?_, ?_, ?_, ?_⟩
  · rw [Libzpool.applySync_done_iff, hops]
    exact ⟨by decide +kernel, rfl⟩
  · rw [hops]
    decide +kernel
  · rw [hops]
    decide +kernel
  · rw [hops]
    decide +kernel

end Zhaxx.Surgeon
