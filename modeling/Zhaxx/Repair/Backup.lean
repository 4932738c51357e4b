import Zhaxx.Repair.Drift
import Zhaxx.Repair.Outcome
import Zhaxx.Scan.Moving
import Zhaxx.Surgeon.Sessions

/-!
# The capture as a backup

`--capture` keeps the dumps of a live scan as a `pre-surgery backup` (`scan/zhaxx-scan` line
564). The plan of that scan edits and frees objects; here is what the directory has of them.

Results:
* `movingRun_backup`: every object that the plan edits or frees has its file, with the value
  that is expected there or the type of what is freed.
* `commit_restorable`: what a commit of that plan changes in the pool, whenever it is made,
  is in the directory as it was before, but for the words of the scan.
-/

namespace Zhaxx.Repair

open Scan Surgeon CText

/-- The dump has what the operation destroys: the entry, the child count or the type that it
    expects. -/
def Recorded (d : ObjDump) : Op → Prop
  | .zapSet _ key e _ => (key, e) ∈ d.zap.entries
  | .zapZero _ key _ => key = "scan" ∧ ∃ ws, scanEntry d = some ws
  | .zapRemove _ key e => (key, e) ∈ d.zap.entries
  | .bonusSet _ e _ => d.numChildren = some e
  | .free _ t => d.type = some t

theorem recorded_of_mem_ops {m : Mos} {op : Op} (h : op ∈ ops m) : Recorded (m.get op.obj) op := by
  cases op with
  | zapSet obj key e v =>
    obtain ⟨rfl, -, he, -⟩ := zapSet_mem_ops.mp h
    exact he.entry
  | zapZero obj key c =>
    obtain ⟨rfl, rfl, -, -, ws, hws, -⟩ := zapZero_mem_ops.mp h
    exact ⟨rfl, ws, hws⟩
  | zapRemove Z key e => exact planned_entry h
  | bonusSet S e v => exact bonusSet_numChildren h
  | free x t => exact (free_observed h).2

/-- A missing object has nothing to destroy. -/
theorem not_recorded_missing (op : Op) : ¬ Recorded .missing op := by
  cases op with
  | zapZero obj key c =>
    rintro ⟨-, ws, hws⟩
    simp [scanEntry, ObjDump.missing] at hws
  | _ => simp [Recorded, ObjDump.missing, ObjDump.numChildren]

/-- However the pool changes under the scan, every object that its plan edits or frees has a
    file in the capture, and what is in the file is what the plan expects there. -/
theorem movingRun_backup {zdb : ℕ → String → ZdbRun} {old : Dict String String} {fuel : ℕ}
    {es : List Event} (h : (movingRun zdb old fuel).1 = some es) {p : PlanOp}
    (hp : p ∈ dedupeOps (opsOf es)) :
    ∃ text, (movingRun zdb old fuel).2.src.capture.get? (dumpName (.int p.op.obj)) = some text ∧
      Recorded (parseDump (.int p.op.obj) text) p.op := by
  have hok := movingRun_ok zdb old fuel
  rw [movingRun_mos] at h
  have hmem : p.op ∈ ops (movingRun zdb old fuel).2.mos := by
    rw [ops, plan, runFuel_eq _ h]
    exact List.mem_map_of_mem hp
  have hrec := recorded_of_mem_ops hmem
  rw [Moving.get_mos hok, Moving.snapshot, Dict.getD] at hrec
  cases hc : (movingRun zdb old fuel).2.src.cache.get? (.int p.op.obj) with
  | none =>
    rw [hc] at hrec
    exact absurd hrec (not_recorded_missing _)
  | some d =>
    rw [hc] at hrec
    obtain ⟨text, htext, hdump⟩ := movingRun_files zdb old fuel _ d hc
    exact ⟨text, htext, hdump ▸ hrec⟩

/-! ## What a commit destroys -/

/-- The capture has the dump `d` of the object `o`. -/
def OnFile (dir : Dict String String) (o : ℕ) (d : ObjDump) : Prop :=
  ∃ text, dir.get? (dumpName (.int o)) = some text ∧ d = parseDump (.int o) text

/-- What differs between the stores `s` and `s'` is in the capture as it was in `s`: entries
    of objects that stay, but for the scan, child counts, and the types of freed objects. -/
structure Restorable {M T : Type*} (L : Libzpool M T) (dir : Dict String String)
    (s s' : Store T) : Prop where
  entry : ∀ o k, s'.type o ≠ none → s'.entry o k = s.entry o k ∨
    (o = mosDirObj ∧ k = utf8 "scan") ∨ ∃ d key e, OnFile dir o d ∧ k = utf8 key ∧
      (key, e) ∈ d.zap.entries ∧ s.entry o k = some [e]
  numChildren : ∀ o, s'.type o ≠ none → s'.numChildren o = s.numChildren o ∨
    ∃ d e, OnFile dir o d ∧ d.numChildren = some e ∧ s.numChildren o = some e
  type : ∀ o, s'.type o = s.type o ∨ s'.type o = none ∧ ∃ d t, OnFile dir o d ∧
    d.type = some t ∧ ∀ t', s.type o = some t' → L.typeNameMatches t' (utf8 t) = true

section

variable {M T : Type*} {L : Libzpool M T} {dir : Dict String String} {s : Store T} {l : List Op}

theorem Restorable.refl (s : Store T) : Restorable L dir s s where
  entry _ _ _ := .inl rfl
  numChildren _ _ := .inl rfl
  type _ := .inl rfl

/-- The entry that an operation writes is on file. -/
theorem restorable_entry {op : Op} {o : ℕ} {k : List Char} {w : Option (List ℕ)} {d : ObjDump}
    (hd : OnFile dir op.obj d) (hrec : Recorded d op)
    (hzero : ∀ obj key c, op = .zapZero obj key c → obj = mosDirObj)
    (hg : Guarded L s op.toOpT) (hw : op.toOpT.entryWrite o k = some w) :
    w = s.entry o k ∨ (o = mosDirObj ∧ k = utf8 "scan") ∨
      ∃ d key e, OnFile dir o d ∧ k = utf8 key ∧ (key, e) ∈ d.zap.entries ∧
        s.entry o k = some [e] := by
  have hc : op.toOpT.obj = o ∧ op.toOpT.key = k := by
    by_contra hne
    rw [OpT.entryWrite, if_neg hne] at hw
    cases hw
  rw [entryWrite_self hc] at hw
  obtain ⟨rfl, rfl⟩ := hc
  cases op with
  | zapSet obj key e v =>
    exact .inr (.inr ⟨d, key, e, hd, rfl, hrec, entry_of_guarded_zapSet hg⟩)
  | zapZero obj key c => exact .inr (.inl ⟨hzero obj key c rfl, congrArg utf8 hrec.1⟩)
  | zapRemove obj key e =>
    rcases entry_of_guarded_zapRemove hg with hnone | hsome
    · exact .inl ((Option.some.inj hw).symm.trans hnone.symm)
    · exact .inr (.inr ⟨d, key, e, hd, rfl, hrec, hsome⟩)
  | bonusSet => cases hw
  | free => cases hw

/-- Operations that pass pass 1, with their targets on file. -/
theorem restorable_of_guarded (hfile : ∀ op ∈ l, ∃ d, OnFile dir op.obj d ∧ Recorded d op)
    (hzero : ∀ obj key c, Op.zapZero obj key c ∈ l → obj = mosDirObj)
    (hg : ∀ op ∈ l, Guarded L s op.toOpT) :
    Restorable L dir s ((l.map Op.toOpT).foldl Store.apply s) := by
  have hacc : L.Accounted s ((l.map Op.toOpT).foldl Store.apply s) (l.map Op.toOpT) :=
    .of_guarded (List.forall_mem_map.mpr hg)
  refine ⟨fun o k hne => ?_, fun o hne => ?_, fun o => ?_⟩
  · rcases hacc.entry o k hne with hsame | ⟨a, ha, hw⟩
    · exact .inl hsame
    · obtain ⟨op, hop, rfl⟩ := List.mem_map.mp ha
      obtain ⟨d, hd, hrec⟩ := hfile op hop
      exact restorable_entry hd hrec (fun obj key c h => hzero obj key c (h ▸ hop)) (hg op hop) hw
  · rcases hacc.numChildren o hne with hsame | ⟨a, ha, hw⟩
    · exact .inl hsame
    · obtain ⟨op, hop, rfl⟩ := List.mem_map.mp ha
      obtain ⟨d, hd, hrec⟩ := hfile op hop
      have hc : op.toOpT.kind = .bonusSet ∧ op.toOpT.obj = o := by
        by_contra hne
        rw [OpT.countWrite, if_neg hne] at hw
        cases hw
      cases op with
      | bonusSet S e v =>
        obtain rfl : S = o := hc.2
        exact .inr ⟨d, e, hd, hrec, hg _ hop⟩
      | _ => cases hc.1
  · rcases hacc.type o with hsame | ⟨hnone, a, ha, hf, ht⟩
    · exact .inl hsame
    · obtain ⟨op, hop, rfl⟩ := List.mem_map.mp ha
      obtain ⟨d, hd, hrec⟩ := hfile op hop
      obtain ⟨t, rfl⟩ := frees_iff.mp hf
      exact .inr ⟨hnone, d, t, hd, hrec, ht⟩

/-- **A commit destroys only what is on file.** The pool may change under the scan and until
    the commit; whatever a run of the surgeon with the plan of that scan then overwrites,
    removes or frees, the capture of the scan has it as it was when the surgeon began, but
    for the words of the scan. -/
theorem commit_restorable {view : M → Store T} (hL : Lawful L view)
    {zdb : ℕ → String → ZdbRun} {old : Dict String String} {fuel : ℕ} {es : List Event}
    (h : (movingRun zdb old fuel).1 = some es) {env : Env M}
    (hplan : env.ordered = ((dedupeOps (opsOf es)).map fun p => p.op.toOpT) ∨
      env.ordered = []) :
    Restorable L (movingRun zdb old fuel).2.src.capture (view (env.interfere env.mos))
      (view (L.main env).committed) := by
  have hmain := L.main_settled env
  rw [Libzpool.Settled] at hmain
  split_ifs at hmain with hdone
  · obtain ⟨hne, hcheck, happ⟩ := hmain
    have hsplit : env.ordered = ((dedupeOps (opsOf es)).map PlanOp.op).map Op.toOpT := by
      rw [hplan.resolve_right hne, List.map_map]
      rfl
    have hops : (dedupeOps (opsOf es)).map PlanOp.op = ops (movingRun zdb old fuel).2.mos := by
      rw [movingRun_mos] at h
      rw [ops, plan, runFuel_eq _ h]
    rw [hL.applyAll_ok happ, hsplit]
    refine restorable_of_guarded (fun op hop => ?_) (fun obj key c hop => ?_) fun op hop => ?_
    · obtain ⟨p, hp, rfl⟩ := List.mem_map.mp hop
      obtain ⟨text, htext, hrec⟩ := movingRun_backup h hp
      exact ⟨_, ⟨text, htext, rfl⟩, hrec⟩
    · rw [hops] at hop
      exact (zapZero_mem_ops.mp hop).1
    · exact hL.checkOp_guarded (hcheck _ (hsplit ▸ List.mem_map_of_mem hop))
  · rw [hmain]
    exact .refl _

end

/-- zdb on a pool with a dangling error log, whose MOS directory can be read only once. -/
def fadingZdb (t : ℕ) (obj : String) : ZdbRun :=
  if t = 0 ∧ obj = "1" then
    .output ("    1    1   128K    512    12K     512    512  100.00  object directory\n" ++
      "\t\terrlog_last = 38 \n") ""
  else .timeout

/-- A confirmed commit of its plan. -/
def fadingRun : Env (Store String) :=
  session ["--commit", "--plan", "repair.plan", "tank"]
    "zap_set obj=1 key=errlog_last expect=38 value=0\n"

/-- The reference that the commit clears is in the file of the MOS directory. -/
theorem commit_restorable_fading :
    Restorable (storeLib String fun t => some (utf8 t))
        (movingRun fadingZdb .empty 2).2.src.capture loggedPool
        ((storeLib String fun t => some (utf8 t)).main fadingRun).committed ∧
      ((storeLib String fun t => some (utf8 t)).main fadingRun).committed.entry mosDirObj
        (utf8 "errlog_last") = some [0] := by
  refine ⟨?_, by decide +kernel⟩
  have hplans : ((movingRun fadingZdb .empty 2).1.any fun es => decide
      (fadingRun.ordered = (dedupeOps (opsOf es)).map fun p => p.op.toOpT)) = true := by
    decide +kernel
  obtain ⟨es, hes, hplan⟩ := (Option.any_eq_true _ _).mp hplans
  have hcommit := commit_restorable (storeLib_lawful String fun t => some (utf8 t)) hes
    (.inl (of_decide_eq_true hplan))
  exact hcommit

end Zhaxx.Repair
