import Zhaxx.Lib.LastWrite
import Zhaxx.Surgeon.Main
import Zhaxx.Surgeon.Store

/-!
# What a sync task does to the MOS

The second pass of `apply_sync` executes the operations one after another. The
guards of the first pass saw only the MOS from before.

Results:
* `applySync_effect`: a completed sync task frees what the plan frees, leaves
  alone what it does not name, and every cell it names holds the last value
  written.
* `syncPass2_completes_iff`: behind a passed first pass the second one completes
  exactly when every zeroed entry is one of an allocated object and nothing is
  edited behind a free of its object.
* `zapZero_unallocated_killed`: a plan that zeroes an entry of an object that
  does not exist passes the first pass and is killed in the second.
-/

namespace Zhaxx.Surgeon

/-! ## The cells of an operation -/

/-- What the operation writes into the entry `k` of `o`; `some none` removes it. -/
def OpT.entryWrite (op : OpT) (o : ℕ) (k : List Char) : Option (Option (List ℕ)) :=
  if op.obj = o ∧ op.key = k then
    match op.kind with
    | .zapSet => some (some [op.value])
    | .zapZero => some (some (List.replicate op.count 0))
    | .zapRemove => some none
    | .bonusSet => none
    | .free => none
  else none

/-- What the operation writes into `ds_num_children` of `o`. -/
def OpT.countWrite (op : OpT) (o : ℕ) : Option ℕ :=
  if op.kind = .bonusSet ∧ op.obj = o then some op.value else none

/-- The operation frees `o`. -/
def OpT.Frees (op : OpT) (o : ℕ) : Prop := op.kind = .free ∧ op.obj = o

instance (op : OpT) (o : ℕ) : Decidable (op.Frees o) := by unfold OpT.Frees; infer_instance

namespace Store

variable {T : Type*} {s : Store T}

theorem type_apply_of_not_frees {op : OpT} {o : ℕ} (h : ¬ op.Frees o) :
    (s.apply op).type o = s.type o := by
  unfold OpT.Frees at h
  unfold apply
  cases hk : op.kind
  case free => exact if_neg fun ho => h ⟨hk, ho.symm⟩
  all_goals rfl

theorem type_apply_of_frees {op : OpT} {o : ℕ} (h : op.Frees o) : (s.apply op).type o = none := by
  unfold apply
  rw [h.1, ← h.2]
  exact if_pos rfl

theorem type_apply_ne_none_iff {op : OpT} {o : ℕ} :
    (s.apply op).type o ≠ none ↔ s.type o ≠ none ∧ ¬ op.Frees o := by
  by_cases hf : op.Frees o
  · simp [type_apply_of_frees hf, hf]
  · simp [type_apply_of_not_frees hf, hf]

/-- An entry of an object that stays holds what is written into it. -/
theorem entry_apply_eq {op : OpT} {o : ℕ} {k : List Char} (h : (s.apply op).type o ≠ none) :
    (s.apply op).entry o k = (op.entryWrite o k).getD (s.entry o k) := by
  have hs := Option.isSome_iff_ne_none.mpr (type_apply_ne_none_iff.mp h).1
  have hset : ∀ ws, (s.setEntry op.obj op.key ws).entry o k =
      if op.obj = o ∧ op.key = k then ws else s.entry o k := by
    intro ws
    rw [entry_setEntry]
    by_cases hc : op.obj = o ∧ op.key = k
    · rw [if_pos hc, if_pos ⟨hc.1.symm, hc.2.symm, hc.1 ▸ hs⟩]
    · rw [if_neg hc, if_neg fun hc' => hc ⟨hc'.1.symm, hc'.2.1.symm⟩]
  unfold OpT.entryWrite
  unfold apply at h ⊢
  cases hk : op.kind <;> simp only [hk] at h ⊢
  case zapSet => rw [hset]; split_ifs <;> rfl
  case zapZero => rw [hset]; split_ifs <;> rfl
  case zapRemove => rw [hset]; split_ifs <;> rfl
  case bonusSet => rw [entry_setNumChildren]; split_ifs <;> rfl
  case free =>
    rw [type_free] at h
    rw [entry_free]
    split_ifs at h ⊢ with ho
    · exact absurd rfl h
    · exact absurd rfl h
    · rfl
    · rfl

/-- A child count that stays holds what is written into it. -/
theorem numChildren_apply_eq {op : OpT} {o : ℕ} (h : (s.apply op).numChildren o ≠ none) :
    (s.apply op).numChildren o = ((op.countWrite o).map some).getD (s.numChildren o) := by
  unfold OpT.countWrite
  unfold apply at h ⊢
  cases hk : op.kind <;> simp only [hk] at h ⊢
  case zapSet => rfl
  case zapZero => rfl
  case zapRemove => rfl
  case bonusSet =>
    rw [numChildren_setNumChildren] at h ⊢
    by_cases ho : op.obj = o
    · subst ho
      by_cases hn : (s.numChildren op.obj).isSome = true
      · simp [hn]
      · rw [if_neg (by simp [hn])] at h
        exact absurd (Option.isSome_iff_ne_none.mpr h) hn
    · rw [if_neg fun hc => ho hc.1.symm]
      simp [ho]
  case free =>
    rw [numChildren_free] at h ⊢
    simp only [reduceCtorEq, false_and, if_false]
    split_ifs at h ⊢ with ho
    · exact absurd rfl h
    · rfl

theorem numChildren_apply_ne_none_iff {op : OpT} {o : ℕ} :
    (s.apply op).numChildren o ≠ none ↔ s.numChildren o ≠ none ∧ ¬ op.Frees o := by
  unfold OpT.Frees apply
  cases hk : op.kind <;> simp only [reduceCtorEq, false_and, not_false_eq_true, and_true]
  case bonusSet =>
    rw [numChildren_setNumChildren]
    split_ifs with hc
    · rw [hc.1]
      exact iff_of_true (Option.some_ne_none _) (Option.isSome_iff_ne_none.mp hc.2)
    · rfl
  case free =>
    rw [numChildren_free]
    split_ifs with ho
    · simp [ho]
    · simp [eq_comm, ho]
  all_goals rfl

/-! ## Runs of effects -/

theorem foldl_type {ops : List OpT} {o : ℕ} :
    (ops.foldl apply s).type o = if ∃ op ∈ ops, op.Frees o then none else s.type o := by
  induction ops generalizing s with
  | nil => simp
  | cons op ops ih =>
    rw [List.foldl_cons, ih]
    by_cases hop : op.Frees o
    · rw [type_apply_of_frees hop, ite_self, if_pos ⟨op, List.mem_cons_self, hop⟩]
    · rw [type_apply_of_not_frees hop]
      simp [hop]

/-- **An entry holds the last write.** -/
theorem foldl_entry_last {ops : List OpT} {o : ℕ} {k : List Char}
    (h : (ops.foldl apply s).type o ≠ none) :
    (ops.foldl apply s).entry o k =
      LastWrite.last (fun op => op.entryWrite o k) (s.entry o k) ops :=
  LastWrite.get_foldl apply (fun s : Store T => s.entry o k)
    (fun s => s.type o ≠ none) (fun _ _ h => (type_apply_ne_none_iff.mp h).1)
    (fun _ _ => entry_apply_eq) h

/-- **A child count holds the last write.** -/
theorem foldl_numChildren_last {ops : List OpT} {o : ℕ}
    (h : (ops.foldl apply s).numChildren o ≠ none) :
    (ops.foldl apply s).numChildren o =
      LastWrite.last (fun op => (op.countWrite o).map some) (s.numChildren o) ops :=
  LastWrite.get_foldl apply (fun s : Store T => s.numChildren o)
    (fun s => s.numChildren o ≠ none) (fun _ _ h => (numChildren_apply_ne_none_iff.mp h).1)
    (fun _ _ => numChildren_apply_eq) h

theorem foldl_numChildren_ne_none {ops : List OpT} {o : ℕ} (h : ∀ op ∈ ops, ¬ op.Frees o) :
    (ops.foldl apply s).numChildren o ≠ none ↔ s.numChildren o ≠ none := by
  induction ops generalizing s with
  | nil => rfl
  | cons op ops ih =>
    rw [List.forall_mem_cons] at h
    rw [List.foldl_cons, ih h.2, numChildren_apply_ne_none_iff, and_iff_left h.1]

section Kept

variable {ops : List OpT} {o : ℕ} (ho : ∀ op ∈ ops, ¬ op.Frees o)

include ho

theorem foldl_type_kept : (ops.foldl apply s).type o = s.type o := by
  rw [foldl_type, if_neg fun ⟨op, hop, hf⟩ => ho op hop hf]

theorem foldl_entry_kept {k : List Char} (hk : ∀ op ∈ ops, op.entryWrite o k = none) :
    (ops.foldl apply s).entry o k = s.entry o k := by
  have htype := foldl_type_kept (s := s) ho
  by_cases ht : s.type o = none
  · rw [(s.unallocated o ht).1, (unallocated _ o (htype.trans ht)).1]
  · rw [foldl_entry_last (htype ▸ ht), LastWrite.last_of_forall hk]

theorem foldl_numChildren_kept (hk : ∀ op ∈ ops, op.countWrite o = none) :
    (ops.foldl apply s).numChildren o = s.numChildren o := by
  by_cases hn : s.numChildren o = none
  · rw [hn]
    by_contra hne
    exact (foldl_numChildren_ne_none ho).mp hne hn
  · rw [foldl_numChildren_last ((foldl_numChildren_ne_none ho).mpr hn), LastWrite.last_of_forall]
    intro op hop
    rw [hk op hop, Option.map_none]

end Kept

end Store

/-! ## Effect and frame -/

namespace Lawful

variable {M T : Type*} {L : Libzpool M T} {view : M → Store T} (h : Lawful L view)

include h

/-- Content is written into allocated objects only. -/
theorem applyOp_type_ne_none {m m' : M} {op : OpT} {o : ℕ} {k : List Char} {ws : List ℕ}
    (ha : L.applyOp m op = .ok m') (hw : op.entryWrite o k = some (some ws)) :
    (view m).type o ≠ none := by
  unfold OpT.entryWrite at hw
  unfold Libzpool.applyOp at ha
  split_ifs at hw with hc
  cases hk : op.kind <;> simp only [hk, Option.some.injEq, reduceCtorEq] at ha hw
  case zapSet => exact hc.1 ▸ (h.update_ok ha).1
  case zapZero => exact hc.1 ▸ (h.update_ok ha).1

/-- Only a child count that is there is set. -/
theorem applyOp_numChildren_ne_none {m m' : M} {op : OpT} {o v : ℕ}
    (ha : L.applyOp m op = .ok m') (hw : op.countWrite o = some v) :
    (view m).numChildren o ≠ none := by
  unfold OpT.countWrite at hw
  split_ifs at hw with hc
  unfold Libzpool.applyOp at ha
  simp only [hc.1] at ha
  cases hb : L.bonusHold m op.obj with
  | error e => rw [hb] at ha; cases ha
  | ok n =>
    rw [← hc.2, (h.bonus_ok hb).1]
    exact Option.some_ne_none n

section Turn

variable {m m' : M} {pre post : List OpT} {op : OpT} {o : ℕ}
  (happ : L.applyAll m (pre ++ op :: post) = .ok m')

include happ

/-- The state in which an operation of a run has its turn. -/
theorem applyAll_turn :
    ∃ m₁ m₂, view m₁ = pre.foldl Store.apply (view m) ∧ L.applyOp m₁ op = .ok m₂ := by
  obtain ⟨m₁, m₂, hpre, hop⟩ := L.applyAll_split happ
  exact ⟨m₁, m₂, h.applyAll_ok hpre, hop⟩

variable (ho : ∀ op' ∈ pre ++ op :: post, ¬ op'.Frees o)

include ho

/-- The last operation that names an entry decides what it holds. -/
theorem applyAll_entry_last {k : List Char} {ws : Option (List ℕ)}
    (hw : op.entryWrite o k = some ws) (hpost : ∀ op' ∈ post, op'.entryWrite o k = none) :
    (view m').entry o k = ws := by
  rw [h.applyAll_ok happ]
  have htype := Store.foldl_type_kept (s := view m) ho
  by_cases ht : (view m).type o = none
  · -- an unallocated object has no entries, and nothing was written
    rw [(Store.unallocated _ o (htype.trans ht)).1]
    cases ws with
    | none => rfl
    | some ws =>
      obtain ⟨m₁, m₂, hm₁, hop⟩ := h.applyAll_turn happ
      refine absurd ?_ (h.applyOp_type_ne_none hop hw)
      rw [hm₁, Store.foldl_type_kept fun op' hop' => ho op' (List.mem_append_left _ hop'), ht]
  · rw [Store.foldl_entry_last (htype ▸ ht)]
    exact LastWrite.last_append_cons (i := op) hw hpost

/-- The last operation that names a child count decides what it holds. -/
theorem applyAll_numChildren_last {v : ℕ} (hw : op.countWrite o = some v)
    (hpost : ∀ op' ∈ post, op'.countWrite o = none) : (view m').numChildren o = some v := by
  obtain ⟨m₁, m₂, hm₁, hop⟩ := h.applyAll_turn happ
  have hn := h.applyOp_numChildren_ne_none hop hw
  rw [hm₁, Store.foldl_numChildren_ne_none fun op' hop' => ho op' (List.mem_append_left _ hop')]
    at hn
  rw [h.applyAll_ok happ,
    Store.foldl_numChildren_last ((Store.foldl_numChildren_ne_none ho).mpr hn),
    LastWrite.last_append_cons]
  · rw [hw, Option.map_some]
  · intro op' hop'
    rw [hpost op' hop', Option.map_none]

end Turn

/-- **Effect and frame of a commit.** -/
theorem applySync_effect {m m' : M} {ops : List OpT} (hd : L.applySync m ops = .done m') :
    (∀ op ∈ ops, op.kind = .free → (view m').type op.obj = none) ∧
    ∀ o, (∀ op ∈ ops, ¬ op.Frees o) →
      (view m').type o = (view m).type o ∧
      (∀ k, (∀ op ∈ ops, op.entryWrite o k = none) →
        (view m').entry o k = (view m).entry o k) ∧
      (∀ k pre op post ws, ops = pre ++ op :: post → op.entryWrite o k = some ws →
        (∀ op' ∈ post, op'.entryWrite o k = none) → (view m').entry o k = ws) ∧
      ((∀ op ∈ ops, op.countWrite o = none) →
        (view m').numChildren o = (view m).numChildren o) ∧
      (∀ pre op post v, ops = pre ++ op :: post → op.countWrite o = some v →
        (∀ op' ∈ post, op'.countWrite o = none) → (view m').numChildren o = some v) := by
  have happ := (L.applySync_done_iff.mp hd).2
  have hview := h.applyAll_ok happ
  refine ⟨fun op hop hk => ?_, fun o ho => ⟨?_, fun k hk => ?_, ?_, fun hk => ?_, ?_⟩⟩
  · rw [hview, Store.foldl_type, if_pos ⟨op, hop, hk, rfl⟩]
  · rw [hview, Store.foldl_type_kept ho]
  · rw [hview, Store.foldl_entry_kept ho hk]
  · rintro k pre op post ws rfl hw hpost
    exact h.applyAll_entry_last happ ho hw hpost
  · rw [hview, Store.foldl_numChildren_kept ho hk]
  · rintro pre op post v rfl hw hpost
    exact h.applyAll_numChildren_last happ ho hw hpost

end Lawful

/-- A pool whose error log `38` is to be dropped. -/
def loggedPool : Store String where
  type o := if o = 1 then some "object directory" else if o = 38 then some "error log" else none
  entry o k := if o = 1 ∧ k = "errlog_last".toList then some [38] else none
  numChildren _ := none
  unallocated o h := by
    refine ⟨fun k => if_neg fun hc => ?_, rfl⟩
    rw [if_pos hc.1] at h
    cases h

/-- `zap_set obj=1 key=errlog_last expect=38 value=0` and
    `free obj=38 type="error log"`. -/
def dropLog : List OpT :=
  [{ OpT.zero with
      kind := .zapSet, obj := 1, key := "errlog_last".toList, expect := 38, hasExpect := true },
    { OpT.zero with kind := .free, obj := 38, type := "error log".toList }]

/-- The commit of `dropLog`. -/
theorem applySync_effect_dropLog :
    (dropLog.foldl Store.apply loggedPool).type 38 = none ∧
      (dropLog.foldl Store.apply loggedPool).entry 1 "errlog_last".toList = some [0] := by
  have hd : (storeLib String fun t => some t.toList).applySync loggedPool dropLog =
      .done (dropLog.foldl Store.apply loggedPool) := by
    rw [Libzpool.applySync_done_iff]
    exact ⟨by decide +kernel, rfl⟩
  obtain ⟨hfree, hkept⟩ := (storeLib_lawful String fun t => some t.toList).applySync_effect hd
  obtain ⟨-, -, hwrite, -⟩ := hkept 1 (by decide +kernel)
  exact ⟨hfree _ (List.mem_cons_of_mem _ List.mem_cons_self) rfl,
    hwrite "errlog_last".toList [] _ _ (some [0]) rfl (by decide +kernel) (by decide +kernel)⟩

/-! ## When the second pass completes -/

/-- The calls of `libzpool` without I/O errors: `ENOENT` on what is not there, and
    success otherwise. -/
structure Faultless {M T : Type*} (L : Libzpool M T) (view : M → Store T) : Prop
    extends Lawful L view where
  lookup_none : ∀ {m o k n}, (view m).entry o k = none → L.zapLookup m o k n = .error .enoent
  update_some : ∀ {m o k ws}, (view m).type o ≠ none → ∃ m', L.zapUpdate m o k ws = .ok m'
  update_none : ∀ {m o k ws}, (view m).type o = none → L.zapUpdate m o k ws = .error .enoent
  remove_some : ∀ {m o k}, (view m).entry o k ≠ none → ∃ m', L.zapRemove m o k = .ok m'
  remove_none : ∀ {m o k}, (view m).entry o k = none → L.zapRemove m o k = .error .enoent
  bonus_some : ∀ {m o}, (view m).numChildren o ≠ none → ∃ n, L.bonusHold m o = .ok n
  bonus_none : ∀ {m o}, (view m).numChildren o = none → L.bonusHold m o = .error .enoent
  info_none : ∀ {m o}, (view m).type o = none → L.objectInfo m o = .error .enoent
  free_some : ∀ {m o}, (view m).type o ≠ none → ∃ m', L.objectFree m o = .ok m'
  free_none : ∀ {m o}, (view m).type o = none → L.objectFree m o = .error .enoent

/-- The operation edits an object that has to be there. -/
def OpT.Edits (op : OpT) : Prop :=
  op.kind = .zapSet ∨ op.kind = .zapZero ∨ op.kind = .bonusSet

/-- What an operation needs at its turn. -/
def OpT.Ready {T : Type*} (op : OpT) (s : Store T) : Prop :=
  match op.kind with
  | .zapSet => s.type op.obj ≠ none
  | .zapZero => s.type op.obj ≠ none
  | .bonusSet => s.numChildren op.obj ≠ none
  | .zapRemove => True
  | .free => True

/-- Only the loss of its object makes an operation fail. -/
theorem OpT.ready_apply {T : Type*} {s : Store T} {op a : OpT} :
    op.Ready (s.apply a) ↔ op.Ready s ∧ (op.Edits → ¬ a.Frees op.obj) := by
  unfold OpT.Ready OpT.Edits
  cases op.kind <;> simp only [reduceCtorEq, or_true, or_false, false_imp_iff,
    true_imp_iff, and_self]
  case zapSet => exact Store.type_apply_ne_none_iff
  case zapZero => exact Store.type_apply_ne_none_iff
  case bonusSet => exact Store.numChildren_apply_ne_none_iff

namespace Faultless

variable {M T : Type*} {L : Libzpool M T} {view : M → Store T} (h : Faultless L view)

include h

theorem applyOp_completes_iff {m : M} {op : OpT} :
    (∃ m', L.applyOp m op = .ok m') ↔ op.Ready (view m) := by
  unfold Libzpool.applyOp OpT.Ready
  cases hk : op.kind <;> simp only
  case zapSet =>
    refine ⟨fun ⟨m', h'⟩ => (h.update_ok h').1, h.update_some⟩
  case zapZero =>
    refine ⟨fun ⟨m', h'⟩ => (h.update_ok h').1, h.update_some⟩
  case zapRemove =>
    rw [iff_true]
    by_cases he : (view m).entry op.obj op.key = none
    · exact ⟨m, by rw [h.remove_none he]; rfl⟩
    · obtain ⟨m', h'⟩ := h.remove_some he
      exact ⟨m', by rw [h']; rfl⟩
  case bonusSet =>
    constructor
    · rintro ⟨m', h'⟩ hn
      rw [h.bonus_none hn] at h'
      cases h'
    · intro hn
      obtain ⟨n, hb⟩ := h.bonus_some hn
      exact ⟨_, by rw [hb]⟩
  case free =>
    rw [iff_true]
    by_cases ht : (view m).type op.obj = none
    · exact ⟨m, by rw [h.free_none ht]; rfl⟩
    · obtain ⟨m', h'⟩ := h.free_some ht
      exact ⟨m', by rw [h']; rfl⟩

theorem applyAll_completes_iff {m : M} {ops : List OpT} :
    (∃ m', L.applyAll m ops = .ok m') ↔
      (∀ op ∈ ops, op.Ready (view m)) ∧ ops.Pairwise fun a b => b.Edits → ¬ a.Frees b.obj := by
  induction ops generalizing m with
  | nil => simp
  | cons op ops ih =>
    have hcons : (∃ m', L.applyAll m (op :: ops) = .ok m') ↔
        ∃ m₁, L.applyOp m op = .ok m₁ ∧ ∃ m', L.applyAll m₁ ops = .ok m' := by
      rw [Libzpool.applyAll_cons]
      cases L.applyOp m op with
      | error e => simp [Except.bind]
      | ok m₁ => simp [Except.bind]
    rw [hcons, List.forall_mem_cons, List.pairwise_cons, ← h.applyOp_completes_iff]
    constructor
    · rintro ⟨m₁, h₁, hrest⟩
      obtain ⟨hready, hpair⟩ := ih.mp hrest
      rw [h.applyOp_ok h₁] at hready
      refine ⟨⟨⟨m₁, h₁⟩, fun b hb => (OpT.ready_apply.mp (hready b hb)).1⟩, fun b hb => ?_, hpair⟩
      exact (OpT.ready_apply.mp (hready b hb)).2
    · rintro ⟨⟨⟨m₁, h₁⟩, hready⟩, hfirst, hpair⟩
      refine ⟨m₁, h₁, ih.mpr ⟨fun b hb => ?_, hpair⟩⟩
      rw [h.applyOp_ok h₁]
      exact OpT.ready_apply.mpr ⟨hready b hb, hfirst b hb⟩

/-- **A passed first pass.** -/
theorem syncPass2_completes_iff {m : M} {ops : List OpT}
    (hc : ∀ op ∈ ops, L.checkOp m op = true) :
    (∃ m', L.syncPass2 m ops = .done m') ↔
      (∀ op ∈ ops, op.kind = .zapZero → (view m).type op.obj ≠ none) ∧
        ops.Pairwise fun a b => b.Edits → ¬ a.Frees b.obj := by
  simp only [Libzpool.syncPass2_done_iff, h.applyAll_completes_iff]
  refine and_congr_left fun _ => forall₂_congr fun op hop => ?_
  have hg := h.checkOp_guarded (hc op hop)
  unfold Guarded at hg
  unfold OpT.Ready
  cases hk : op.kind <;> simp only [hk, reduceCtorEq, false_imp_iff, true_imp_iff, iff_true] at hg ⊢
  case zapSet =>
    obtain ⟨w, hw, -⟩ := hg
    exact Store.type_ne_none_of_entry (by rw [hw]; exact Option.some_ne_none _)
  case bonusSet =>
    rw [hg]
    exact Option.some_ne_none _

end Faultless

theorem storeLib_faultless (T : Type*) (otName : T → Option (List Char)) :
    Faultless (storeLib T otName) id where
  toLawful := storeLib_lawful T otName
  lookup_none {s o k n} h := by
    simp only [storeLib]
    rw [show s.entry o k = none from h]
  update_some h := ⟨_, if_pos (Option.isSome_iff_ne_none.mpr h)⟩
  update_none h := if_neg (by rw [Option.isSome_iff_ne_none]; exact not_not.mpr h)
  remove_some h := ⟨_, if_pos (Option.isSome_iff_ne_none.mpr h)⟩
  remove_none h := if_neg (by rw [Option.isSome_iff_ne_none]; exact not_not.mpr h)
  bonus_some {s o} h := by
    obtain ⟨n, hn⟩ := Option.ne_none_iff_exists'.mp h
    exact ⟨n, by simp only [storeLib]; rw [show s.numChildren o = some n from hn]⟩
  bonus_none {s o} h := by
    simp only [storeLib]
    rw [show s.numChildren o = none from h]
  info_none {s o} h := by
    simp only [storeLib]
    rw [show s.type o = none from h]
  free_some h := ⟨_, if_pos (Option.isSome_iff_ne_none.mpr h)⟩
  free_none h := if_neg (by rw [Option.isSome_iff_ne_none]; exact not_not.mpr h)

/-- The second pass on `dropLog` completes. -/
theorem syncPass2_completes_dropLog :
    ∃ m', (storeLib String fun t => some t.toList).syncPass2 loggedPool dropLog = .done m' :=
  ((storeLib_faultless String fun t => some t.toList).syncPass2_completes_iff
    (by decide +kernel)).mpr ⟨by decide +kernel, by
      unfold OpT.Edits
      decide +kernel⟩

/-- `zap_zero` on an object that does not exist passes its check and kills the
    process. -/
theorem zapZero_unallocated_killed :
    (parsePlan "zap_zero obj=777 key=scan count=24\n".toList).accepted = true ∧
      (∀ op ∈ (parsePlan "zap_zero obj=777 key=scan count=24\n".toList).ops,
        (storeLib String fun t => some t.toList).checkOp loggedPool op = true) ∧
      ∀ m', (storeLib String fun t => some t.toList).syncPass2 loggedPool
        (parsePlan "zap_zero obj=777 key=scan count=24\n".toList).ops ≠ .done m' := by
  have hops : (parsePlan "zap_zero obj=777 key=scan count=24\n".toList).ops =
      [{ OpT.zero with
        kind := .zapZero, obj := 777, key := "scan".toList, count := 24
        raw := "zap_zero obj=777 key=scan count=24".toList }] := by
    decide +kernel
  rw [hops]
  refine ⟨by decide +kernel, by decide +kernel, fun m' hm' => ?_⟩
  have hall := (Libzpool.syncPass2_done_iff _).mp hm'
  obtain ⟨hready, -⟩ :=
    (storeLib_faultless String fun t => some t.toList).applyAll_completes_iff.mp ⟨m', hall⟩
  exact hready _ List.mem_cons_self rfl

end Zhaxx.Surgeon
