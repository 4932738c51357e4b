import Zhaxx.Repair.Lines
import Zhaxx.Surgeon.Verify

/-!
# Plans as sets of operations

The tests compare plans without regard to order (`tests/fixtures.py`, `SCENARIO_A_PLAN`),
and `dedupe_ops` (`scan/zhaxx-scan` lines 543–549) drops repeated lines. Pass 2 executes the
operations one after another (`surgeon/zhaxx.c` lines 413–457).

Results:
* `foldl_sameOps`: compatible operations may be repeated and reordered in a store.
* `syncPass2_sameOps`: so they may in pass 2, and a list may be deduplicated.
-/

namespace Zhaxx

open Scan Surgeon CText

/-- What an operation asks for, without the text it was read from. -/
def Surgeon.OpT.action (op : OpT) : OpT := { op with raw := [] }

namespace Repair

/-! ## Compatible operations -/

/-- No two different operations write the same entry or the same child count, and none edits
    an object that another one frees. A `zap_remove` on an object that goes is harmless. -/
def Compatible (ops : List OpT) : Prop :=
  ∀ a ∈ ops, ∀ b ∈ ops,
    (a.kind ≠ .free → a.target = b.target → a.action = b.action) ∧
      (b.Edits → ¬ a.Frees b.obj)

/-- The two lists have the same operations. -/
def SameOps (ops ops' : List OpT) : Prop :=
  ∀ a, a ∈ ops.map OpT.action ↔ a ∈ ops'.map OpT.action

/-- Pass 2 completes on both lists or on neither, and with the same MOS. -/
def SameOutcome {M T : Type*} (L : Libzpool M T) (view : M → Store T) (m : M)
    (ops ops' : List OpT) : Prop :=
  ((∃ m', L.syncPass2 m ops = .done m') ↔ ∃ m', L.syncPass2 m ops' = .done m') ∧
    ∀ m₁ m₂, L.syncPass2 m ops = .done m₁ → L.syncPass2 m ops' = .done m₂ → view m₁ = view m₂

namespace SameOps

variable {ops ops' : List OpT} (h : SameOps ops ops')

include h

/-- A property that the text of an operation does not change. -/
theorem forall_iff {P : OpT → Prop} (hP : ∀ op, P op.action ↔ P op) :
    (∀ op ∈ ops, P op) ↔ ∀ op ∈ ops', P op := by
  have hmap : ∀ l : List OpT, (∀ op ∈ l, P op) ↔ ∀ a ∈ l.map OpT.action, P a := by
    intro l
    rw [List.forall_mem_map]
    exact forall₂_congr fun op _ => (hP op).symm
  rw [hmap ops, hmap ops']
  exact forall_congr' fun a => imp_congr_left (h a)

theorem exists_iff {P : OpT → Prop} (hP : ∀ op, P op.action ↔ P op) :
    (∃ op ∈ ops, P op) ↔ ∃ op ∈ ops', P op := by
  have hnot := h.forall_iff (P := fun op => ¬ P op) fun op => not_congr (hP op)
  rw [← not_iff_not]
  push Not
  exact hnot

/-- No operation of either list edits what one frees. -/
theorem edits_kept (hc : Compatible ops) :
    ops'.Pairwise fun a b => b.Edits → ¬ a.Frees b.obj := by
  have hkept : ∀ a ∈ ops', ∀ b ∈ ops', b.Edits → ¬ a.Frees b.obj := by
    rw [← h.forall_iff fun _ => Iff.rfl]
    intro a ha
    rw [← h.forall_iff fun _ => Iff.rfl]
    exact fun b hb => (hc a ha b hb).2
  exact List.pairwise_of_forall_mem_list hkept

end SameOps

/-! ## Effects -/

theorem target_of_entryWrite {op : OpT} {o : ℕ} {k : List Char} {w : Option (List ℕ)}
    (hw : op.entryWrite o k = some w) : op.kind ≠ .free ∧ op.target = .entry o k := by
  refine ⟨fun hk => ?_, ?_⟩
  · simp [OpT.entryWrite, hk] at hw
  · by_contra hne
    cases (OpT.entryWrite_eq_none hne).symm.trans hw

theorem target_of_countWrite {op : OpT} {o v : ℕ} (hw : op.countWrite o = some v) :
    op.kind ≠ .free ∧ op.target = .count o := by
  refine ⟨fun hk => ?_, ?_⟩
  · simp [OpT.countWrite, hk] at hw
  · by_contra hne
    cases (OpT.countWrite_eq_none hne).symm.trans hw

/-- Compatible operations agree on what an entry is to hold. -/
theorem Compatible.entryWrite_agree {ops : List OpT} (hc : Compatible ops) {o : ℕ}
    {k : List Char} : ∀ a ∈ ops, ∀ b ∈ ops, ∀ w w', a.entryWrite o k = some w →
      b.entryWrite o k = some w' → w = w' := by
  intro a ha b hb w w' hw hw'
  obtain ⟨hfree, htarget⟩ := target_of_entryWrite hw
  have haction := (hc a ha b hb).1 hfree (htarget.trans (target_of_entryWrite hw').2.symm)
  have hsame : a.action.entryWrite o k = b.action.entryWrite o k := by rw [haction]
  exact Option.some.inj (hw.symm.trans (hsame.trans hw'))

theorem Compatible.countWrite_agree {ops : List OpT} (hc : Compatible ops) {o : ℕ} :
    ∀ a ∈ ops, ∀ b ∈ ops, ∀ v v', a.countWrite o = some v → b.countWrite o = some v' →
      v = v' := by
  intro a ha b hb v v' hv hv'
  obtain ⟨hfree, htarget⟩ := target_of_countWrite hv
  have haction := (hc a ha b hb).1 hfree (htarget.trans (target_of_countWrite hv').2.symm)
  have hsame : a.action.countWrite o = b.action.countWrite o := by rw [haction]
  exact Option.some.inj (hv.symm.trans (hsame.trans hv'))

/-- **Compatible operations on a store** may be repeated and reordered. -/
theorem foldl_sameOps {T : Type*} {s : Store T} {ops ops' : List OpT} (h : SameOps ops ops')
    (hc : Compatible ops) : ops.foldl Store.apply s = ops'.foldl Store.apply s := by
  have htype : ∀ o, (ops.foldl Store.apply s).type o = (ops'.foldl Store.apply s).type o := by
    intro o
    rw [Store.foldl_type, Store.foldl_type]
    exact if_congr (h.exists_iff fun _ => Iff.rfl) rfl rfl
  ext1
  · exact funext htype
  · funext o k
    by_cases ht : (ops.foldl Store.apply s).type o = none
    · rw [(Store.unallocated _ o ht).1, (Store.unallocated _ o ((htype o).symm.trans ht)).1]
    · rw [Store.foldl_entry_last ht, Store.foldl_entry_last (htype o ▸ ht)]
      exact LastWrite.last_eq_of_agree (fun w => h.exists_iff fun _ => Iff.rfl)
        hc.entryWrite_agree
  · funext o
    by_cases ht : (ops.foldl Store.apply s).type o = none
    · rw [(Store.unallocated _ o ht).2, (Store.unallocated _ o ((htype o).symm.trans ht)).2]
    · have hkept : ∀ op ∈ ops, ¬ op.Frees o := fun op hop hf =>
        ht (by rw [Store.foldl_type, if_pos ⟨op, hop, hf⟩])
      have hcount := Store.foldl_numChildren_ne_none (s := s) hkept
      have hcount' := Store.foldl_numChildren_ne_none (s := s)
        ((h.forall_iff fun _ => Iff.rfl).mp hkept)
      by_cases hn : s.numChildren o = none
      · rw [not_ne_iff.mp (mt hcount.mp (not_not.mpr hn)),
          not_ne_iff.mp (mt hcount'.mp (not_not.mpr hn))]
      · rw [Store.foldl_numChildren_last (hcount.mpr hn),
          Store.foldl_numChildren_last (hcount'.mpr hn)]
        refine LastWrite.last_eq_of_agree (fun w => h.exists_iff fun _ => Iff.rfl) ?_
        intro a ha b hb w w' hw hw'
        obtain ⟨v, hv, rfl⟩ := Option.map_eq_some_iff.mp hw
        obtain ⟨v', hv', rfl⟩ := Option.map_eq_some_iff.mp hw'
        rw [hc.countWrite_agree a ha b hb v v' hv hv']

/-! ## Pass 2 -/

/-- The `op_t` read from a plan line. -/
def readOp (p : PlanOp) : OpT := (parseOp (utf8 p.line)).1

/-- A deduplicated list has the operations of the list. -/
theorem dedupeOps_sameOps (ps : List PlanOp) :
    SameOps (ps.map readOp) ((dedupeOps ps).map readOp) := by
  have hmem : ∀ qs : List PlanOp, ∀ a, a ∈ (qs.map readOp).map OpT.action ↔
      ∃ o, (∃ p ∈ qs, p.op = o) ∧ ((parseOp (utf8 o.line)).1).action = a := by
    intro qs a
    simp only [List.mem_map, exists_exists_and_eq_and, readOp, PlanOp.line]
  intro a
  rw [hmem, hmem]
  exact exists_congr fun o => and_congr_left fun _ => mem_dedupeOps.symm

section Pass2

variable {M T : Type*} {L : Libzpool M T} {view : M → Store T} {m : M} {ops ops' : List OpT}

theorem sameOutcome_of_sameOps (hL : Faultless L view)
    (hcheck : ∀ op ∈ ops, L.checkOp m op = true) (hc : Compatible ops)
    (h : SameOps ops ops') : SameOutcome L view m ops ops' := by
  have hcheck' : ∀ op ∈ ops', L.checkOp m op = true := (h.forall_iff fun _ => Iff.rfl).mp hcheck
  refine ⟨?_, fun m₁ m₂ h₁ h₂ => ?_⟩
  · rw [hL.syncPass2_completes_iff hcheck, hL.syncPass2_completes_iff hcheck',
      h.forall_iff (P := fun op => op.kind = .zapZero → (view m).type op.obj ≠ none)
        fun _ => Iff.rfl]
    have hself : SameOps ops ops := fun _ => Iff.rfl
    rw [and_iff_left (hself.edits_kept hc), and_iff_left (h.edits_kept hc)]
  · rw [hL.applyAll_ok ((Libzpool.syncPass2_done_iff L).mp h₁),
      hL.applyAll_ok ((Libzpool.syncPass2_done_iff L).mp h₂)]
    exact foldl_sameOps h hc

/-- **Order and repetition do not matter.** Behind a passed first pass, compatible operations
    have one outcome in every order and with every repetition, so that it does not matter
    whether a list is deduplicated. -/
theorem syncPass2_sameOps (hL : Faultless L view)
    (hcheck : ∀ op ∈ ops, L.checkOp m op = true) (hc : Compatible ops) :
    (∀ ops', SameOps ops ops' → SameOutcome L view m ops ops') ∧
      ∀ ps : List PlanOp, ops = ps.map readOp →
        SameOutcome L view m ops ((dedupeOps ps).map readOp) := by
  refine ⟨fun ops' h => sameOutcome_of_sameOps hL hcheck hc h, ?_⟩
  rintro ps rfl
  exact sameOutcome_of_sameOps hL hcheck hc (dedupeOps_sameOps ps)

end Pass2

/-- The operations of `dropLog` in the other order and one of them twice. -/
theorem syncPass2_dropLog_reversed :
    SameOutcome (storeLib String fun t => some t.toList) id loggedPool dropLog
      (dropLog.reverse ++ dropLog.take 1) := by
  refine (syncPass2_sameOps (storeLib_faultless String fun t => some t.toList)
    (by decide +kernel) ?_).1 _ ?_
  · unfold Compatible OpT.Edits
    decide +kernel
  · intro a
    simp [dropLog, or_comm]

end Repair

end Zhaxx
