import Zhaxx.Surgeon.Effects
import Zhaxx.Surgeon.Memory

/-!
# The guards of pass 2

`apply_sync` verifies every precondition first and then applies the operations without
another look (`surgeon/zhaxx.c` lines 12–15 and 391–458). So an operation meets the MOS
that the earlier ones leave, not the one its guard was compared with.

Results:
* `checkOp_iff`: what a passed check says, when the calls read what is there.
* `turns_iff`: at its turn every operation finds its guard satisfied, or its own content in
  place, exactly when the plan left its target alone before.
* `twoSets_overwritten`: a plan that sets one entry to two values applies both.
-/

namespace Zhaxx.Surgeon

/-! ## What a check reads -/

/-- The calls of `libzpool` without I/O errors, with what the reading ones return. -/
structure Precise {M T : Type*} (L : Libzpool M T) (view : M → Store T) : Prop
    extends Faultless L view where
  lookup_some : ∀ {m o k n ws}, (view m).entry o k = some ws → 0 < ws.length → ws.length ≤ n →
    L.zapLookup m o k n = .ok ws
  info_some : ∀ {m o t}, (view m).type o = some t → L.objectInfo m o = .ok t

namespace Precise

variable {M T : Type*} {L : Libzpool M T} {view : M → Store T} (h : Precise L view)

include h

theorem bonusHold_eq {m : M} {o n : ℕ} (hn : (view m).numChildren o = some n) :
    L.bonusHold m o = .ok n := by
  obtain ⟨n', hb⟩ := h.bonus_some (m := m) (o := o) (by rw [hn]; exact Option.some_ne_none n)
  rw [hb, Option.some.inj ((h.bonus_ok hb).1.symm.trans hn)]

/-- **A check passes exactly when its guard holds.** -/
theorem checkOp_iff {m : M} {op : OpT}
    (hne : op.kind = .zapZero → (view m).entry op.obj op.key ≠ some []) :
    L.checkOp m op = true ↔ Guarded L (view m) op := by
  refine ⟨h.checkOp_guarded, fun hg => ?_⟩
  unfold Guarded at hg
  unfold Libzpool.checkOp
  cases hk : op.kind <;> simp only [hk] at hg ⊢
  case zapSet =>
    obtain ⟨w, hw, hexpect⟩ := hg
    rw [h.lookup_some (n := 1) hw Nat.one_pos le_rfl]
    simpa [or_iff_not_imp_left] using hexpect
  case zapRemove =>
    rcases hg with hnone | ⟨w, hw, hexpect⟩
    · rw [h.lookup_none hnone]
      rfl
    · rw [h.lookup_some (n := 1) hw Nat.one_pos le_rfl]
      simpa [or_iff_not_imp_left] using hexpect
  case zapZero =>
    rcases hg with hnone | ⟨ws, hws, hle⟩
    · rw [h.lookup_none hnone]
      rfl
    · have hpos : 0 < ws.length := List.length_pos_iff.mpr fun hnil => hne hk (hnil ▸ hws)
      rw [h.lookup_some hws hpos hle]
  case bonusSet =>
    rw [h.bonusHold_eq hg]
    exact beq_self_eq_true _
  case free =>
    rcases hg with hnone | ⟨t, ht, hname⟩
    · rw [h.info_none hnone]
      rfl
    · rw [h.info_some ht]
      exact hname

end Precise

theorem storeLib_precise (T : Type*) (otName : T → Option (List Char)) :
    Precise (storeLib T otName) id where
  toFaultless := storeLib_faultless T otName
  lookup_some {s o k n ws} h hpos hle := by
    simp only [storeLib]
    rw [show s.entry o k = some ws from h]
    dsimp only
    rw [if_neg (by omega), if_neg (by omega)]
  info_some {s o t} h := by
    simp only [storeLib]
    rw [show s.type o = some t from h]

/-! ## The turn of an operation -/

/-- The operation writes exactly what its target holds. -/
def OpT.Redundant {T : Type*} (op : OpT) (s : Store T) : Prop :=
  match op.kind with
  | .zapSet => s.entry op.obj op.key = some [op.value]
  | .zapZero => s.entry op.obj op.key = some (List.replicate op.count 0)
  | .zapRemove => s.entry op.obj op.key = none
  | .bonusSet => s.numChildren op.obj = some op.value
  | .free => s.type op.obj = none

/-- What the operation accepts in its entry: what its guard does, or what it writes. -/
def OpT.Tolerates (op : OpT) (ws : Option (List ℕ)) : Prop :=
  match op.kind with
  | .zapSet => ws = some [op.expect] ∨ ws = some [op.value]
  | .zapZero => ∀ l, ws = some l → l.length ≤ op.count
  | .zapRemove => ∀ l, ws = some l → ∃ w, l = [w] ∧ (op.hasExpect = true → w = op.expect)
  | .bonusSet => True
  | .free => True

/-- The earlier operations `pre` leave the target of `op` in a state that it accepts. -/
structure Undisturbed (pre : List OpT) (op : OpT) : Prop where
  /-- The object of a setting is not freed. -/
  object : op.kind = .zapSet ∨ op.kind = .bonusSet → ∀ a ∈ pre, ¬ a.Frees op.obj
  /-- The last write into the entry, if its object stays. -/
  entry : (∀ a ∈ pre, ¬ a.Frees op.obj) → ∀ pre₁ a pre₂ ws, pre = pre₁ ++ a :: pre₂ →
    a.entryWrite op.obj op.key = some ws →
    (∀ b ∈ pre₂, b.entryWrite op.obj op.key = none) → op.Tolerates ws
  /-- The last setting of the child count. -/
  count : op.kind = .bonusSet → ∀ pre₁ a pre₂ v, pre = pre₁ ++ a :: pre₂ →
    a.countWrite op.obj = some v → (∀ b ∈ pre₂, b.countWrite op.obj = none) →
    v = op.expect ∨ v = op.value

/-- Pass 2 on the store `s` completes the operations `pre`, the checks of pass 1 given. -/
def Completes {T : Type*} (s : Store T) (pre : List OpT) : Prop :=
  (∀ a ∈ pre, a.kind = .zapZero → s.type a.obj ≠ none) ∧
    pre.Pairwise fun a b => b.Edits → ¬ a.Frees b.obj

/-- Two settings of one cell to different values from the same expected one. -/
def OpT.Conflicts (a b : OpT) : Prop :=
  a.kind = b.kind ∧ (a.kind = .zapSet ∨ a.kind = .bonusSet) ∧ a.obj = b.obj ∧
    (a.kind = .zapSet → a.key = b.key) ∧ a.expect = b.expect ∧ a.value ≠ b.value

/-- At its turn in pass 2 the guard of every operation still holds, or the operation
    writes what its target holds. -/
def TurnsHold {M T : Type*} (L : Libzpool M T) (view : M → Store T) (m : M) (ops : List OpT) :
    Prop :=
  ∀ pre op post m₁, ops = pre ++ op :: post → L.applyAll m pre = .ok m₁ →
    L.checkOp m₁ op = true ∨ op.Redundant (view m₁)

theorem OpT.Meets.entryWrite_ne_nil {op : OpT} (h : op.Meets) {o : ℕ} {k : List Char} :
    op.entryWrite o k ≠ some (some []) := by
  unfold OpT.entryWrite
  split_ifs with hc
  · cases hk : op.kind <;> simp only [ne_eq, reduceCtorEq, not_false_eq_true, Option.some.injEq,
      List.cons_ne_nil, List.replicate_eq_nil_iff]
    have := (h.zapZero hk).1
    omega
  · simp

namespace Lawful

variable {M T : Type*} {L : Libzpool M T} {view : M → Store T} (h : Lawful L view)

include h

/-- No check of a `zap_zero` passes on an entry without words. -/
theorem entry_ne_nil {m : M} {op : OpT} (hk : op.kind = .zapZero) (hc : L.checkOp m op = true) :
    (view m).entry op.obj op.key ≠ some [] := by
  intro hnil
  unfold Libzpool.checkOp at hc
  simp only [hk] at hc
  cases hl : L.zapLookup m op.obj op.key op.count with
  | error e =>
    rw [hl] at hc
    rw [h.lookup_absent (by rw [hl, beq_iff_eq.mp hc])] at hnil
    cases hnil
  | ok ws =>
    obtain ⟨he, hpos, -⟩ := h.lookup_ok hl
    obtain rfl : ws = [] := Option.some.inj (he.symm.trans hnil)
    simp at hpos

/-- **What an operation finds in an entry** behind the operations `pre`. -/
theorem applyAll_entry_cases {m m₁ : M} {pre : List OpT} (happ : L.applyAll m pre = .ok m₁)
    (o : ℕ) (k : List Char) :
    ((∃ a ∈ pre, a.Frees o) ∧ (view m₁).entry o k = none) ∨
    (∀ a ∈ pre, ¬ a.Frees o) ∧
      (((∀ a ∈ pre, a.entryWrite o k = none) ∧ (view m₁).entry o k = (view m).entry o k) ∨
      ∃ pre₁ a pre₂ ws, pre = pre₁ ++ a :: pre₂ ∧ a.entryWrite o k = some ws ∧
        (∀ b ∈ pre₂, b.entryWrite o k = none) ∧ (view m₁).entry o k = ws) := by
  by_cases hfree : ∃ a ∈ pre, a.Frees o
  · refine .inl ⟨hfree, ((view m₁).unallocated o ?_).1 k⟩
    rw [h.applyAll_ok happ, Store.foldl_type, if_pos hfree]
  · have hkept : ∀ a ∈ pre, ¬ a.Frees o := fun a ha hf => hfree ⟨a, ha, hf⟩
    refine .inr ⟨hkept, ?_⟩
    rcases LastWrite.last_split (fun a : OpT => a.entryWrite o k) pre with
      hnone | ⟨pre₁, a, pre₂, ws, rfl, hw, hpost⟩
    · refine .inl ⟨hnone, ?_⟩
      rw [h.applyAll_ok happ, Store.foldl_entry_kept hkept hnone]
    · exact .inr ⟨pre₁, a, pre₂, ws, rfl, hw, hpost, h.applyAll_entry_last happ hkept hw hpost⟩

/-- **What an operation finds in a child count** behind the operations `pre`. -/
theorem applyAll_count_cases {m m₁ : M} {pre : List OpT} (happ : L.applyAll m pre = .ok m₁)
    {o : ℕ} (hkept : ∀ a ∈ pre, ¬ a.Frees o) :
    (∀ a ∈ pre, a.countWrite o = none) ∧ (view m₁).numChildren o = (view m).numChildren o ∨
    ∃ pre₁ a pre₂ v, pre = pre₁ ++ a :: pre₂ ∧ a.countWrite o = some v ∧
      (∀ b ∈ pre₂, b.countWrite o = none) ∧ (view m₁).numChildren o = some v := by
  rcases LastWrite.last_split (fun a : OpT => a.countWrite o) pre with
    hnone | ⟨pre₁, a, pre₂, v, rfl, hw, hpost⟩
  · refine .inl ⟨hnone, ?_⟩
    rw [h.applyAll_ok happ, Store.foldl_numChildren_kept hkept hnone]
  · exact .inr ⟨pre₁, a, pre₂, v, rfl, hw, hpost, h.applyAll_numChildren_last happ hkept hw hpost⟩

end Lawful

theorem Faultless.applyAll_completes {M T : Type*} {L : Libzpool M T} {view : M → Store T}
    (h : Faultless L view) {m : M} {pre : List OpT} (hc : ∀ a ∈ pre, L.checkOp m a = true) :
    (∃ m₁, L.applyAll m pre = .ok m₁) ↔ Completes (view m) pre := by
  rw [Completes, ← h.syncPass2_completes_iff hc]
  simp only [Libzpool.syncPass2_done_iff]

/-- What the guard of a ZAP operation or its own effect asks of the entry. -/
theorem guarded_or_redundant_iff {M T : Type*} {L : Libzpool M T} {s : Store T} {op : OpT}
    (hmeets : op.Meets) (hk : op.kind = .zapSet ∨ op.kind = .zapZero ∨ op.kind = .zapRemove) :
    Guarded L s op ∨ op.Redundant s ↔ op.Tolerates (s.entry op.obj op.key) := by
  unfold Guarded OpT.Redundant OpT.Tolerates
  generalize s.entry op.obj op.key = e
  rcases hk with hk | hk | hk <;> simp only [hk]
  · rw [hmeets.zapSet hk]
    simp
  · cases e with
    | none => simp
    | some l =>
      simp only [reduceCtorEq, false_or, Option.some.injEq, exists_eq_left', forall_eq']
      refine or_iff_left_of_imp ?_
      rintro rfl
      exact List.length_replicate.le
  · cases e with
    | none => simp
    | some l => simp

namespace Precise

variable {M T : Type*} {L : Libzpool M T} {view : M → Store T} (h : Precise L view)

include h

section Turn

variable {m m₁ : M} {pre : List OpT} {op : OpT} (hc : L.checkOp m op = true)
  (happ : L.applyAll m pre = .ok m₁)

include hc happ

/-- The turn of a ZAP operation. -/
theorem tolerates_iff (hop : op.Meets)
    (hk : op.kind = .zapSet ∨ op.kind = .zapZero ∨ op.kind = .zapRemove) :
    op.Tolerates ((view m₁).entry op.obj op.key) ↔ Undisturbed pre op := by
  have hbonus : op.kind ≠ .bonusSet := by rcases hk with hk | hk | hk <;> simp [hk]
  constructor
  · intro ht
    refine ⟨fun hset a ha hf => ?_, fun hkept pre₁ a pre₂ ws hsplit hw hpost => ?_,
      fun hk => absurd hk hbonus⟩
    · -- the entry went with its object
      have hnone : (view m₁).entry op.obj op.key = none := by
        refine ((view m₁).unallocated op.obj ?_).1 _
        rw [h.applyAll_ok happ, Store.foldl_type, if_pos ⟨a, ha, hf⟩]
      unfold OpT.Tolerates at ht
      simp [hset.resolve_right hbonus, hnone] at ht
    · subst hsplit
      rwa [h.applyAll_entry_last happ hkept hw hpost] at ht
  · intro hU
    rcases h.applyAll_entry_cases happ op.obj op.key with
      ⟨⟨a, ha, hf⟩, he⟩ | ⟨hkept, ⟨-, he⟩ | ⟨pre₁, a, pre₂, ws, hsplit, hw, hpost, he⟩⟩
    · rw [he]
      rcases hk with hk | hk | hk
      · exact absurd hf (hU.object (.inl hk) a ha)
      · simp [OpT.Tolerates, hk]
      · simp [OpT.Tolerates, hk]
    · rw [he]
      exact (guarded_or_redundant_iff hop hk).mp (.inl (h.checkOp_guarded hc))
    · rw [he]
      exact hU.entry hkept pre₁ a pre₂ ws hsplit hw hpost

/-- The turn of a `bonus_set`. -/
theorem count_iff (hk : op.kind = .bonusSet) :
    (view m₁).numChildren op.obj = some op.expect ∨
      (view m₁).numChildren op.obj = some op.value ↔ Undisturbed pre op := by
  constructor
  · intro ht
    have hkept : ∀ a ∈ pre, ¬ a.Frees op.obj := by
      intro a ha hf
      have hnone : (view m₁).numChildren op.obj = none := by
        refine ((view m₁).unallocated op.obj ?_).2
        rw [h.applyAll_ok happ, Store.foldl_type, if_pos ⟨a, ha, hf⟩]
      simp [hnone] at ht
    refine ⟨fun _ => hkept, fun _ _ _ _ ws _ _ _ => by simp [OpT.Tolerates, hk],
      fun _ pre₁ a pre₂ v hsplit hw hpost => ?_⟩
    subst hsplit
    rw [h.applyAll_numChildren_last happ hkept hw hpost] at ht
    simpa using ht
  · intro hU
    have hg := h.checkOp_guarded hc
    unfold Guarded at hg
    simp only [hk] at hg
    rcases h.applyAll_count_cases happ (hU.object (.inr hk)) with
      ⟨-, he⟩ | ⟨pre₁, a, pre₂, v, hsplit, hw, hpost, he⟩
    · exact .inl (he.trans hg)
    · rw [he, Option.some.injEq, Option.some.injEq]
      exact hU.count hk pre₁ a pre₂ v hsplit hw hpost

/-- **One turn.** -/
theorem turn_iff (hop : op.Meets) (hpre : ∀ a ∈ pre, a.Meets) :
    L.checkOp m₁ op = true ∨ op.Redundant (view m₁) ↔ Undisturbed pre op := by
  have hne : op.kind = .zapZero → (view m₁).entry op.obj op.key ≠ some [] := by
    intro hk
    rcases h.applyAll_entry_cases happ op.obj op.key with
      ⟨-, he⟩ | ⟨-, ⟨-, he⟩ | ⟨pre₁, a, pre₂, ws, rfl, hw, -, he⟩⟩
    · simp [he]
    · rw [he]
      exact h.entry_ne_nil hk hc
    · rw [he]
      exact fun hws => (hpre a (by simp)).entryWrite_ne_nil (hws ▸ hw)
  rw [h.checkOp_iff hne]
  by_cases hk : op.kind = .zapSet ∨ op.kind = .zapZero ∨ op.kind = .zapRemove
  · rw [guarded_or_redundant_iff hop hk, h.tolerates_iff hc happ hop hk]
  by_cases hb : op.kind = .bonusSet
  · rw [← h.count_iff hc happ hb]
    simp only [Guarded, OpT.Redundant, hb]
  · -- types do not change, so a free never meets a disturbance
    have hf : op.kind = .free := by
      cases hkind : op.kind <;> simp_all
    refine iff_of_true (.inl ?_) ⟨by simp [hf], fun _ _ _ _ ws _ _ _ => ?_, by simp [hf]⟩
    · have hg := h.checkOp_guarded hc
      unfold Guarded at hg ⊢
      simp only [hf] at hg ⊢
      rw [h.applyAll_ok happ, Store.foldl_type]
      split_ifs
      · exact .inl rfl
      · exact hg
    · simp [OpT.Tolerates, hf]

end Turn

/-- Of two settings of one cell the later one stays. -/
theorem conflict_overwritten {m : M} {pre mid : List OpT} {a b : OpT} (hab : a.Conflicts b)
    (hc : ∀ op ∈ pre ++ a :: (mid ++ [b]), L.checkOp m op = true)
    (hcomp : Completes (view m) (pre ++ a :: (mid ++ [b]))) :
    ∃ m₁, L.applyAll m (pre ++ a :: (mid ++ [b])) = .ok m₁ ∧
      b.Redundant (view m₁) ∧ ¬ a.Redundant (view m₁) := by
  obtain ⟨m₁, happ⟩ := (h.applyAll_completes hc).mpr hcomp
  have hsplit : pre ++ a :: (mid ++ [b]) = (pre ++ a :: mid) ++ b :: [] := by simp
  rw [hsplit] at happ hcomp
  refine ⟨m₁, by rw [hsplit, happ], ?_⟩
  obtain ⟨hkind, hset, hobj, hkey, -, hvalue⟩ := hab
  -- an object that is freed cannot be set any more
  have hkept : ∀ op ∈ (pre ++ a :: mid) ++ b :: [], ¬ op.Frees b.obj := by
    intro op hop hf
    rcases List.mem_append.mp hop with hop | hop
    · refine (List.pairwise_append.mp hcomp.2).2.2 op hop b List.mem_cons_self ?_ hf
      rw [hkind] at hset
      exact hset.imp_right .inr
    · rw [List.mem_singleton.mp hop] at hf
      rw [hkind, hf.1] at hset
      simp at hset
  rcases hset with hk | hk
  · have hkb : b.kind = .zapSet := hkind ▸ hk
    have he : (view m₁).entry b.obj b.key = some [b.value] :=
      h.applyAll_entry_last happ hkept (by simp [OpT.entryWrite, hkb]) (List.forall_mem_nil _)
    simp only [OpT.Redundant, hk, hkb]
    rw [hobj, hkey hk, he]
    exact ⟨rfl, fun hv => hvalue (by simpa using hv.symm)⟩
  · have hkb : b.kind = .bonusSet := hkind ▸ hk
    have he : (view m₁).numChildren b.obj = some b.value :=
      h.applyAll_numChildren_last happ hkept (by simp [OpT.countWrite, hkb])
        (List.forall_mem_nil _)
    simp only [OpT.Redundant, hk, hkb]
    rw [hobj, he]
    exact ⟨rfl, fun hv => hvalue (by simpa using hv.symm)⟩

end Precise

/-- A plan that sets one entry to two values from the same expected one. -/
def twoSets : List Char :=
  ("zap_set obj=1 key=errlog_last expect=38 value=0\n" ++
    "zap_set obj=1 key=errlog_last expect=38 value=5\n").toList

end Zhaxx.Surgeon
