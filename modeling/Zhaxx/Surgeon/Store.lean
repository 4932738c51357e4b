import Zhaxx.Surgeon.Libzpool

/-!
# What the MOS holds

`Store T` is the Meta Object Set as an abstract object store: which objects are
allocated, with which type, ZAP entries and child count. An unallocated object
has no content, by a field of the structure. `Lawful L view` states the
documented behaviour of the calls of `libzpool` over it: a call that succeeds
reads or writes just the cell it names, and `ENOENT` means that the cell is not
there. Other errors, such as an I/O error, may come at any time.

Main results:

* `Lawful.checkOp_guarded`: what pass 1 of the sync task establishes.
* `Lawful.applyAll_ok`: pass 2 of the sync task, when it completes, executes the
  abstract effects of the operations in order.
* `foldl_entry`, `foldl_numChildren`, `foldl_type_none`: what a run of effects leaves
  unchanged.
* `storeLib_lawful`: the store itself is a lawful `libzpool`.
-/

namespace Zhaxx.Surgeon

/-- An object store. -/
@[ext]
structure Store (T : Type*) where
  type : ℕ → Option T
  entry : ℕ → List Char → Option (List ℕ)
  numChildren : ℕ → Option ℕ
  unallocated : ∀ o, type o = none → (∀ k, entry o k = none) ∧ numChildren o = none

namespace Store

variable {T : Type*} (s : Store T)

/-- Write an entry of an allocated object, or remove it (`none`). -/
def setEntry (o : ℕ) (k : List Char) (ws : Option (List ℕ)) : Store T where
  type := s.type
  entry o' k' := if o' = o ∧ k' = k ∧ (s.type o).isSome then ws else s.entry o' k'
  numChildren := s.numChildren
  unallocated o' h := by
    refine ⟨fun k' => ?_, (s.unallocated o' h).2⟩
    rw [if_neg, (s.unallocated o' h).1]
    rintro ⟨rfl, -, hs⟩
    rw [h] at hs
    simp at hs

/-- Write the child count of an object that has one. -/
def setNumChildren (o v : ℕ) : Store T where
  type := s.type
  entry := s.entry
  numChildren o' := if o' = o ∧ (s.numChildren o).isSome then some v else s.numChildren o'
  unallocated o' h := by
    refine ⟨(s.unallocated o' h).1, ?_⟩
    rw [if_neg, (s.unallocated o' h).2]
    rintro ⟨rfl, hs⟩
    rw [(s.unallocated _ h).2] at hs
    simp at hs

/-- Deallocate an object with all it holds. -/
def free (o : ℕ) : Store T where
  type o' := if o' = o then none else s.type o'
  entry o' k := if o' = o then none else s.entry o' k
  numChildren o' := if o' = o then none else s.numChildren o'
  unallocated o' h := by
    split_ifs at h ⊢ with ho
    · exact ⟨fun _ => rfl, rfl⟩
    · exact s.unallocated o' h

@[simp] theorem type_setEntry (o : ℕ) (k : List Char) (ws : Option (List ℕ)) :
    (s.setEntry o k ws).type = s.type := rfl

@[simp] theorem numChildren_setEntry (o : ℕ) (k : List Char) (ws : Option (List ℕ)) :
    (s.setEntry o k ws).numChildren = s.numChildren := rfl

theorem entry_setEntry (o : ℕ) (k : List Char) (ws : Option (List ℕ)) (o' : ℕ) (k' : List Char) :
    (s.setEntry o k ws).entry o' k' =
      if o' = o ∧ k' = k ∧ (s.type o).isSome then ws else s.entry o' k' := rfl

@[simp] theorem type_setNumChildren (o v : ℕ) : (s.setNumChildren o v).type = s.type := rfl

@[simp] theorem entry_setNumChildren (o v : ℕ) : (s.setNumChildren o v).entry = s.entry := rfl

theorem numChildren_setNumChildren (o v o' : ℕ) :
    (s.setNumChildren o v).numChildren o' =
      if o' = o ∧ (s.numChildren o).isSome then some v else s.numChildren o' := rfl

theorem type_free (o o' : ℕ) : (s.free o).type o' = if o' = o then none else s.type o' := rfl

theorem entry_free (o o' : ℕ) (k : List Char) :
    (s.free o).entry o' k = if o' = o then none else s.entry o' k := rfl

theorem numChildren_free (o o' : ℕ) :
    (s.free o).numChildren o' = if o' = o then none else s.numChildren o' := rfl

variable {s}

theorem type_ne_none_of_entry {o : ℕ} {k : List Char} (h : s.entry o k ≠ none) :
    s.type o ≠ none := fun ht => h ((s.unallocated o ht).1 k)

theorem type_ne_none_of_numChildren {o : ℕ} (h : s.numChildren o ≠ none) : s.type o ≠ none :=
  fun ht => h (s.unallocated o ht).2

/-- Writing what is there changes nothing. -/
theorem setEntry_self {o : ℕ} {k : List Char} {ws : Option (List ℕ)} (h : s.entry o k = ws) :
    s.setEntry o k ws = s := by
  ext1
  · rfl
  · funext o' k'
    rw [entry_setEntry]
    split_ifs with hc
    · rw [hc.1, hc.2.1, h]
    · rfl
  · rfl

theorem setNumChildren_self {o v : ℕ} (h : s.numChildren o = some v) :
    s.setNumChildren o v = s := by
  ext1
  · rfl
  · rfl
  · funext o'
    rw [numChildren_setNumChildren]
    split_ifs with hc
    · rw [hc.1, h]
    · rfl

theorem free_self {o : ℕ} (h : s.type o = none) : s.free o = s := by
  ext1
  · funext o'
    rw [type_free]
    split_ifs with hc
    · rw [hc, h]
    · rfl
  · funext o' k
    rw [entry_free]
    split_ifs with hc
    · rw [hc, (s.unallocated o h).1]
    · rfl
  · funext o'
    rw [numChildren_free]
    split_ifs with hc
    · rw [hc, (s.unallocated o h).2]
    · rfl

/-! ## The effect of an operation -/

/-- The effect of an operation on the store. -/
def apply (s : Store T) (op : OpT) : Store T :=
  match op.kind with
  | .zapSet => s.setEntry op.obj op.key (some [op.value])
  | .zapZero => s.setEntry op.obj op.key (some (List.replicate op.count 0))
  | .zapRemove => s.setEntry op.obj op.key none
  | .bonusSet => s.setNumChildren op.obj op.value
  | .free => s.free op.obj

end Store

/-- The operation writes the entry `k` of `o`. -/
def OpT.Writes (op : OpT) (o : ℕ) (k : List Char) : Prop :=
  (op.kind = .zapSet ∨ op.kind = .zapZero) ∧ op.obj = o ∧ op.key = k

/-- The operation removes the entry `k` of `o`. -/
def OpT.Removes (op : OpT) (o : ℕ) (k : List Char) : Prop :=
  op.kind = .zapRemove ∧ op.obj = o ∧ op.key = k

namespace Store

variable {T : Type*} {s : Store T}

/-! ## Frames -/

theorem type_apply (op : OpT) (o : ℕ) :
    (s.apply op).type o = s.type o ∨ (s.apply op).type o = none := by
  unfold apply
  split
  · exact .inl rfl
  · exact .inl rfl
  · exact .inl rfl
  · exact .inl rfl
  · rw [type_free]
    split_ifs
    · exact .inr rfl
    · exact .inl rfl

/-- An entry that is not written keeps its content or goes. -/
theorem entry_apply {op : OpT} {o : ℕ} {k : List Char} (hw : ¬ op.Writes o k) :
    (s.apply op).entry o k = s.entry o k ∨ (s.apply op).entry o k = none := by
  unfold OpT.Writes at hw
  unfold apply
  split
  · rename_i hk
    rw [entry_setEntry, if_neg (fun h => hw ⟨.inl hk, h.1.symm, h.2.1.symm⟩)]
    exact .inl rfl
  · rename_i hk
    rw [entry_setEntry, if_neg (fun h => hw ⟨.inr hk, h.1.symm, h.2.1.symm⟩)]
    exact .inl rfl
  · rw [entry_setEntry]
    split_ifs
    · exact .inr rfl
    · exact .inl rfl
  · exact .inl rfl
  · rw [entry_free]
    split_ifs
    · exact .inr rfl
    · exact .inl rfl

/-- An entry that no operation names stays as long as its object does. -/
theorem entry_apply_same {op : OpT} {o : ℕ} {k : List Char} (hw : ¬ op.Writes o k)
    (hr : ¬ op.Removes o k) (ht : (s.apply op).type o ≠ none) :
    (s.apply op).entry o k = s.entry o k := by
  unfold OpT.Writes at hw
  unfold OpT.Removes at hr
  unfold apply at ht ⊢
  split
  · rename_i hk
    rw [entry_setEntry, if_neg (fun h => hw ⟨.inl hk, h.1.symm, h.2.1.symm⟩)]
  · rename_i hk
    rw [entry_setEntry, if_neg (fun h => hw ⟨.inr hk, h.1.symm, h.2.1.symm⟩)]
  · rename_i hk
    rw [entry_setEntry, if_neg (fun h => hr ⟨hk, h.1.symm, h.2.1.symm⟩)]
  · rfl
  · rename_i hk
    simp only [hk, type_free] at ht
    rw [entry_free]
    split_ifs at ht ⊢ with ho
    · exact absurd rfl ht
    · rfl

/-- A child count that is only set to itself stays as long as its object does. -/
theorem numChildren_apply_same {op : OpT} {o n : ℕ} (hn : s.numChildren o = some n)
    (hb : op.kind = .bonusSet → op.obj = o → op.value = n)
    (ht : (s.apply op).type o ≠ none) : (s.apply op).numChildren o = some n := by
  unfold apply at ht ⊢
  split
  · exact hn
  · exact hn
  · exact hn
  · rename_i hk
    rw [numChildren_setNumChildren]
    split_ifs with hc
    · rw [hb hk hc.1.symm]
    · exact hn
  · rename_i hk
    simp only [hk, type_free] at ht
    rw [numChildren_free]
    split_ifs at ht ⊢ with ho
    · exact absurd rfl ht
    · exact hn

theorem foldl_type_none {ops : List OpT} {o : ℕ} (h : s.type o = none) :
    (ops.foldl apply s).type o = none := by
  induction ops generalizing s with
  | nil => exact h
  | cons op ops ih => exact ih ((type_apply op o).elim (fun h' => h'.trans h) id)

theorem foldl_entry {ops : List OpT} {o : ℕ} {k : List Char} (hw : ∀ op ∈ ops, ¬ op.Writes o k) :
    (ops.foldl apply s).entry o k = s.entry o k ∨ (ops.foldl apply s).entry o k = none := by
  induction ops generalizing s with
  | nil => exact .inl rfl
  | cons op ops ih =>
    rw [List.forall_mem_cons] at hw
    rcases ih (s := s.apply op) hw.2 with h | h
    · rcases entry_apply (s := s) hw.1 with h' | h'
      · exact .inl (h.trans h')
      · exact .inr (h.trans h')
    · exact .inr h

theorem foldl_entry_same {ops : List OpT} {o : ℕ} {k : List Char}
    (hw : ∀ op ∈ ops, ¬ op.Writes o k ∧ ¬ op.Removes o k)
    (ht : (ops.foldl apply s).type o ≠ none) :
    (ops.foldl apply s).entry o k = s.entry o k := by
  induction ops generalizing s with
  | nil => rfl
  | cons op ops ih =>
    rw [List.forall_mem_cons] at hw
    have ht' : (s.apply op).type o ≠ none :=
      fun h => ht (by rw [List.foldl_cons]; exact foldl_type_none h)
    exact (ih hw.2 ht).trans (entry_apply_same hw.1.1 hw.1.2 ht')

theorem foldl_numChildren {ops : List OpT} {o n : ℕ} (hn : s.numChildren o = some n)
    (hb : ∀ op ∈ ops, op.kind = .bonusSet → op.obj = o → op.value = n)
    (ht : (ops.foldl apply s).type o ≠ none) : (ops.foldl apply s).numChildren o = some n := by
  induction ops generalizing s with
  | nil => exact hn
  | cons op ops ih =>
    rw [List.forall_mem_cons] at hb
    have ht' : (s.apply op).type o ≠ none :=
      fun h => ht (by rw [List.foldl_cons]; exact foldl_type_none h)
    exact ih (numChildren_apply_same hn hb.1 ht') hb.2 ht

end Store

/-! ## Lawful calls -/

/-- The documented behaviour of the calls of `libzpool`. -/
structure Lawful {M T : Type*} (L : Libzpool M T) (view : M → Store T) : Prop where
  lookup_ok : ∀ {m o k n ws}, L.zapLookup m o k n = .ok ws →
    (view m).entry o k = some ws ∧ 0 < ws.length ∧ ws.length ≤ n
  lookup_absent : ∀ {m o k n}, L.zapLookup m o k n = .error .enoent → (view m).entry o k = none
  update_ok : ∀ {m o k ws m'}, L.zapUpdate m o k ws = .ok m' →
    (view m).type o ≠ none ∧ view m' = (view m).setEntry o k (some ws)
  remove_ok : ∀ {m o k m'}, L.zapRemove m o k = .ok m' →
    (view m).entry o k ≠ none ∧ view m' = (view m).setEntry o k none
  remove_absent : ∀ {m o k}, L.zapRemove m o k = .error .enoent → (view m).entry o k = none
  bonus_ok : ∀ {m o n}, L.bonusHold m o = .ok n → (view m).numChildren o = some n ∧
    ∀ v, view (L.setNumChildren m o v) = (view m).setNumChildren o v
  info_ok : ∀ {m o t}, L.objectInfo m o = .ok t → (view m).type o = some t
  info_absent : ∀ {m o}, L.objectInfo m o = .error .enoent → (view m).type o = none
  free_ok : ∀ {m o m'}, L.objectFree m o = .ok m' →
    (view m).type o ≠ none ∧ view m' = (view m).free o
  free_absent : ∀ {m o}, L.objectFree m o = .error .enoent → (view m).type o = none

/-- What the check of an operation, once passed, says about the store. -/
def Guarded {M T : Type*} (L : Libzpool M T) (s : Store T) (op : OpT) : Prop :=
  match op.kind with
  | .zapSet => ∃ w, s.entry op.obj op.key = some [w] ∧ (op.hasExpect = true → w = op.expect)
  | .zapRemove => s.entry op.obj op.key = none ∨
      ∃ w, s.entry op.obj op.key = some [w] ∧ (op.hasExpect = true → w = op.expect)
  | .zapZero => s.entry op.obj op.key = none ∨
      ∃ ws, s.entry op.obj op.key = some ws ∧ ws.length ≤ op.count
  | .bonusSet => s.numChildren op.obj = some op.expect
  | .free => s.type op.obj = none ∨
      ∃ t, s.type op.obj = some t ∧ L.typeNameMatches t op.type = true

namespace Lawful

variable {M T : Type*} {L : Libzpool M T} {view : M → Store T} (h : Lawful L view)

include h

/-- A lookup of one word. -/
theorem lookup_one {m : M} {o : ℕ} {k : List Char} {ws : List ℕ}
    (hl : L.zapLookup m o k 1 = .ok ws) : ∃ w, ws = [w] ∧ (view m).entry o k = some [w] := by
  obtain ⟨he, hpos, hle⟩ := h.lookup_ok hl
  obtain ⟨w, rfl⟩ := List.length_eq_one_iff.mp (show ws.length = 1 by omega)
  exact ⟨w, rfl, he⟩

/-- **A passed check.** -/
theorem checkOp_guarded {m : M} {op : OpT} (hc : L.checkOp m op = true) :
    Guarded L (view m) op := by
  unfold Libzpool.checkOp at hc
  unfold Guarded
  cases hk : op.kind <;> simp only [hk] at hc ⊢
  case zapSet =>
    cases hl : L.zapLookup m op.obj op.key 1 with
    | error e => simp [hl] at hc
    | ok buf =>
      obtain ⟨w, hw⟩ := h.lookup_one hl
      exact ⟨w, hw.2, by simpa [hl, hw.1, or_iff_not_imp_left] using hc⟩
  case zapRemove =>
    cases hl : L.zapLookup m op.obj op.key 1 with
    | error e =>
      simp only [hl, beq_self_eq_true, Bool.true_and, beq_iff_eq] at hc
      exact .inl (h.lookup_absent (hc ▸ hl))
    | ok buf =>
      obtain ⟨w, hw⟩ := h.lookup_one hl
      exact .inr ⟨w, hw.2, by simpa [hl, hw.1, or_iff_not_imp_left] using hc⟩
  case zapZero =>
    cases hl : L.zapLookup m op.obj op.key op.count with
    | error e =>
      simp only [hl, beq_iff_eq] at hc
      exact .inl (h.lookup_absent (hc ▸ hl))
    | ok ws => exact .inr ⟨ws, (h.lookup_ok hl).1, (h.lookup_ok hl).2.2⟩
  case bonusSet =>
    cases hb : L.bonusHold m op.obj with
    | error e => simp [hb] at hc
    | ok n =>
      simp only [hb, beq_iff_eq] at hc
      rw [← hc]
      exact (h.bonus_ok hb).1
  case free =>
    cases hi : L.objectInfo m op.obj with
    | error e =>
      simp only [hi, beq_iff_eq] at hc
      exact .inl (h.info_absent (hc ▸ hi))
    | ok t => exact .inr ⟨t, h.info_ok hi, by simpa [hi] using hc⟩

/-- **One operation.** -/
theorem applyOp_ok {m m' : M} {op : OpT} (ha : L.applyOp m op = .ok m') :
    view m' = (view m).apply op := by
  unfold Libzpool.applyOp at ha
  unfold Store.apply
  cases hk : op.kind <;> simp only [hk] at ha ⊢
  case zapSet => exact (h.update_ok ha).2
  case zapZero => exact (h.update_ok ha).2
  case zapRemove =>
    cases hr : L.zapRemove m op.obj op.key with
    | ok m₁ =>
      rw [hr] at ha
      cases ha
      exact (h.remove_ok hr).2
    | error e =>
      rw [hr] at ha
      cases e with
      | enoent =>
        cases ha
        exact (Store.setEntry_self (h.remove_absent hr)).symm
      | _ => cases ha
  case bonusSet =>
    cases hb : L.bonusHold m op.obj with
    | ok n =>
      rw [hb] at ha
      cases ha
      exact (h.bonus_ok hb).2 _
    | error e => rw [hb] at ha; cases ha
  case free =>
    cases hf : L.objectFree m op.obj with
    | ok m₁ =>
      rw [hf] at ha
      cases ha
      exact (h.free_ok hf).2
    | error e =>
      rw [hf] at ha
      cases e with
      | enoent =>
        cases ha
        exact (Store.free_self (h.free_absent hf)).symm
      | _ => cases ha

/-- **All operations.** -/
theorem applyAll_ok {m m' : M} {ops : List OpT} (ha : L.applyAll m ops = .ok m') :
    view m' = ops.foldl Store.apply (view m) := by
  induction ops generalizing m with
  | nil => cases ha; rfl
  | cons op ops ih =>
    rw [Libzpool.applyAll_cons] at ha
    cases h₁ : L.applyOp m op with
    | error e => rw [h₁] at ha; cases ha
    | ok m₁ =>
      rw [h₁] at ha
      rw [ih ha, List.foldl_cons, h.applyOp_ok h₁]

end Lawful

/-! ## The store as a `libzpool` -/

/-- The calls of a `libzpool` without I/O errors, on the store itself. -/
def storeLib (T : Type*) (otName : T → Option (List Char)) : Libzpool (Store T) T where
  zapLookup s o k n :=
    match s.entry o k with
    | none => .error .enoent
    | some ws =>
      if ws.length = 0 then .error .einval
      else if n < ws.length then .error .eoverflow
      else .ok ws
  zapUpdate s o k ws :=
    if (s.type o).isSome then .ok (s.setEntry o k (some ws)) else .error .enoent
  zapRemove s o k :=
    if (s.entry o k).isSome then .ok (s.setEntry o k none) else .error .enoent
  bonusHold s o :=
    match s.numChildren o with
    | none => .error .enoent
    | some n => .ok n
  setNumChildren s o v := s.setNumChildren o v
  objectInfo s o :=
    match s.type o with
    | none => .error .enoent
    | some t => .ok t
  objectFree s o := if (s.type o).isSome then .ok (s.free o) else .error .enoent
  otName := otName

theorem storeLib_lawful (T : Type*) (otName : T → Option (List Char)) :
    Lawful (storeLib T otName) id where
  lookup_ok {s o k n ws} h := by
    simp only [storeLib] at h
    cases he : s.entry o k with
    | none => simp [he] at h
    | some ws' =>
      simp only [he] at h
      split_ifs at h with h0 hn
      cases h
      exact ⟨he, by omega, by omega⟩
  lookup_absent {s o k n} h := by
    simp only [storeLib] at h
    cases he : s.entry o k with
    | none => exact he
    | some ws' =>
      simp only [he] at h
      split_ifs at h
      · cases h
      · cases h
  update_ok {s o k ws m'} h := by
    simp only [storeLib] at h
    split_ifs at h with ht
    cases h
    exact ⟨Option.isSome_iff_ne_none.mp ht, rfl⟩
  remove_ok {s o k m'} h := by
    simp only [storeLib] at h
    split_ifs at h with ht
    cases h
    exact ⟨Option.isSome_iff_ne_none.mp ht, rfl⟩
  remove_absent {s o k} h := by
    simp only [storeLib] at h
    split_ifs at h with ht
    simpa using ht
  bonus_ok {s o n} h := by
    simp only [storeLib] at h ⊢
    cases hb : s.numChildren o with
    | none => simp [hb] at h
    | some n' =>
      simp only [hb] at h
      cases h
      exact ⟨hb, fun _ => rfl⟩
  info_ok {s o t} h := by
    simp only [storeLib] at h
    cases ht : s.type o with
    | none => simp [ht] at h
    | some t' =>
      simp only [ht] at h
      cases h
      exact ht
  info_absent {s o} h := by
    simp only [storeLib] at h
    cases ht : s.type o with
    | none => exact ht
    | some t' => simp [ht] at h
  free_ok {s o m'} h := by
    simp only [storeLib] at h
    split_ifs at h with ht
    cases h
    exact ⟨Option.isSome_iff_ne_none.mp ht, rfl⟩
  free_absent {s o} h := by
    simp only [storeLib] at h
    split_ifs at h with ht
    simpa using ht

end Zhaxx.Surgeon
