import Zhaxx.Surgeon.ParsePlan

/-!
# The calls of libzpool

`libzpool` is not part of this repository. `Libzpool M T` has one function for
each of its calls that the surgeon makes on the Meta Object Set, over a type `M`
of states and a type `T` of `dmu_object_type_t` values. Over it stand models of
`type_name_matches` and `check_op` (`surgeon/zhaxx.c` lines 97–108 and 269–385)
and of the operations of `apply_sync` (lines 410–450).
-/

namespace Zhaxx.Surgeon

/-- An `errno` value; the surgeon tells only `ENOENT` from the others. -/
inductive Errno where
  | enoent
  | eio
  | eexist
  | einval
  | eoverflow
  | other (n : ℕ)
  deriving DecidableEq, Repr

/-- The calls of `libzpool` on a state of the MOS. -/
structure Libzpool (M T : Type*) where
  /-- `zap_lookup(mos, obj, key, 8, num, buf)`: the words read. -/
  zapLookup : M → ℕ → List Char → ℕ → Except Errno (List ℕ)
  /-- `zap_update(mos, obj, key, 8, num, buf, tx)`. -/
  zapUpdate : M → ℕ → List Char → List ℕ → Except Errno M
  /-- `zap_remove(mos, obj, key, tx)`. -/
  zapRemove : M → ℕ → List Char → Except Errno M
  /-- `dmu_bonus_hold(mos, obj, tag, &db)` and `ds_num_children` of its data. -/
  bonusHold : M → ℕ → Except Errno ℕ
  /-- `dmu_buf_will_dirty(db, tx)` and the assignment to `ds_num_children`. -/
  setNumChildren : M → ℕ → ℕ → M
  /-- `dmu_object_info(mos, obj, &doi)` and `doi.doi_type`. -/
  objectInfo : M → ℕ → Except Errno T
  /-- `dmu_object_free(mos, obj, tx)`. -/
  objectFree : M → ℕ → Except Errno M
  /-- `dmu_ot[t].ot_name`, for `t < DMU_OT_NUMTYPES`. -/
  otName : T → Option (List Char)

namespace Libzpool

variable {M T : Type*} (L : Libzpool M T)

/-- `type_name_matches(t, name)` (lines 101–108). -/
def typeNameMatches (t : T) (name : List Char) : Bool :=
  match L.otName t with
  | none => false
  | some tn => CText.strcasecmpEq tn name

/-- `check_op(mos, op, quiet)` (lines 273–385); `quiet` only silences it. -/
def checkOp (mos : M) (op : OpT) : Bool :=
  match op.kind with
  | .zapSet | .zapRemove =>
    match L.zapLookup mos op.obj op.key 1 with
    | .error e => op.kind == .zapRemove && e == .enoent
    | .ok buf => !(op.hasExpect && buf.headD 0 != op.expect)
  | .zapZero =>
    match L.zapLookup mos op.obj op.key op.count with
    | .error e => e == .enoent
    | .ok _ => true
  | .bonusSet =>
    match L.bonusHold mos op.obj with
    | .error _ => false
    | .ok cur => cur == op.expect
  | .free =>
    match L.objectInfo mos op.obj with
    | .error e => e == .enoent
    | .ok t => L.typeNameMatches t op.type

/-- `if (err == ENOENT) err = 0;`. -/
def tolerateAbsent (mos : M) : Except Errno M → Except Errno M
  | .error .enoent => .ok mos
  | r => r

/-- The body of pass 2 of `apply_sync` for one operation (lines 413–450). -/
def applyOp (mos : M) (op : OpT) : Except Errno M :=
  match op.kind with
  | .zapSet => L.zapUpdate mos op.obj op.key [op.value]
  | .zapZero => L.zapUpdate mos op.obj op.key (List.replicate op.count 0)
  | .zapRemove => tolerateAbsent mos (L.zapRemove mos op.obj op.key)
  | .bonusSet =>
    match L.bonusHold mos op.obj with
    | .error e => .error e
    | .ok _ => .ok (L.setNumChildren mos op.obj op.value)
  | .free => tolerateAbsent mos (L.objectFree mos op.obj)

/-- The result of executing all operations in order, up to the first error. -/
def applyAll (mos : M) (ops : List OpT) : Except Errno M := ops.foldlM L.applyOp mos

@[simp] theorem applyAll_nil (mos : M) : L.applyAll mos [] = .ok mos := rfl

theorem applyAll_cons (mos : M) (op : OpT) (ops : List OpT) :
    L.applyAll mos (op :: ops) = (L.applyOp mos op).bind fun mos => L.applyAll mos ops := rfl

theorem applyAll_append (mos : M) (ops ops' : List OpT) :
    L.applyAll mos (ops ++ ops') = (L.applyAll mos ops).bind fun mos => L.applyAll mos ops' :=
  List.foldlM_append

/-- Every operation of a completed execution had its turn. -/
theorem applyAll_split {mos mos' : M} {pre post : List OpT} {op : OpT}
    (h : L.applyAll mos (pre ++ op :: post) = .ok mos') :
    ∃ m₁ m₂, L.applyAll mos pre = .ok m₁ ∧ L.applyOp m₁ op = .ok m₂ := by
  rw [applyAll_append] at h
  cases h₁ : L.applyAll mos pre with
  | error e => rw [h₁] at h; cases h
  | ok m₁ =>
    rw [h₁] at h
    have h' : L.applyAll m₁ (op :: post) = .ok mos' := h
    rw [applyAll_cons] at h'
    cases h₂ : L.applyOp m₁ op with
    | error e => rw [h₂] at h'; cases h'
    | ok m₂ => exact ⟨m₁, m₂, rfl, h₂⟩

end Libzpool

end Zhaxx.Surgeon
