import Zhaxx.Lib.Decimal
import Zhaxx.Lib.Firsts
import Zhaxx.Scan.Dump

/-!
# Findings and plan operations

What a scan appends to its report (`Finding`, lines 43–51) and to its plan
(`PlanOp`, lines 185–188), and `dedupe_ops` (lines 543–549).

The source writes an operation straight into its plan line. Here an operation is
an `Op` and `Op.line` prints it; `Op.line_injective` shows that the line
determines the operation, so that dropping repeated lines drops repeated
operations and nothing else.
-/

namespace Zhaxx.Scan

/-- `SEV_ORDER` (line 40). -/
inductive Severity where
  | critical
  | warning
  | info
  deriving DecidableEq, Repr

structure Finding where
  severity : Severity
  obj : FieldVal
  message : String
  deriving DecidableEq

/-- The five shapes of plan line the scanner prints. -/
inductive Op where
  | zapSet (obj : ℕ) (key : String) (expect value : ℕ)
  | zapZero (obj : ℕ) (key : String) (count : ℕ)
  | zapRemove (obj : ℕ) (key : String) (expect : ℕ)
  | bonusSet (obj : ℕ) (expect : ℕ) (value : ℤ)
  | free (obj : ℕ) (type : String)
  deriving DecidableEq

/-- The plan line of an operation, as the f-strings of the source print it. -/
def Op.line : Op → String
  | .zapSet obj key expect value =>
    "zap_set obj=" ++ toString obj ++ " key=" ++ key ++ " expect=" ++ toString expect ++
      " value=" ++ toString value
  | .zapZero obj key count =>
    "zap_zero obj=" ++ toString obj ++ " key=" ++ key ++ " count=" ++ toString count
  | .zapRemove obj key expect =>
    "zap_remove obj=" ++ toString obj ++ " key=" ++ key ++ " expect=" ++ toString expect
  | .bonusSet obj expect value =>
    "bonus_set obj=" ++ toString obj ++ " field=ds_num_children expect=" ++ toString expect ++
      " value=" ++ toString value
  | .free obj type => "free obj=" ++ toString obj ++ " type=\"" ++ type ++ "\""

/-- Through which reference an object came to be freed. The source keeps this
    only as the place of the call: the error-log head (line 267), a per-objset
    error log (line 272), or the position in `subtree` (lines 495–501). -/
inductive FreeRole where
  | errlogHead
  | objsetErrlog
  | orphanDir
  | orphanProps
  | orphanChildMap
  | orphanDataset
  | orphanSnapnames
  | orphanDeadlist
  deriving DecidableEq, Repr

/-- A planned operation. `role` says why an object is freed and is not printed. -/
structure PlanOp where
  op : Op
  comment : String
  role : Option FreeRole := none
  deriving DecidableEq

/-- `op.line`. -/
def PlanOp.line (p : PlanOp) : String := p.op.line

/-- One `self.add(...)` or `self.op(...)`. The scanner only ever appends to
    `self.findings` and `self.ops`, so a check is the list of what it appends. -/
inductive Event where
  | finding (f : Finding)
  | op (p : PlanOp)
  deriving DecidableEq

/-- `self.add(severity, obj, message)`. -/
def add (severity : Severity) (obj : FieldVal) (message : String) : Event :=
  .finding ⟨severity, obj, message⟩

/-- `self.op(line, comment)`. -/
def addOp (op : Op) (comment : String) (role : Option FreeRole := none) : Event :=
  .op ⟨op, comment, role⟩

/-- `self.findings`. -/
def findingsOf (es : List Event) : List Finding :=
  es.filterMap fun e => match e with
    | .finding f => some f
    | .op _ => none

/-- `self.ops`. -/
def opsOf (es : List Event) : List PlanOp :=
  es.filterMap fun e => match e with
    | .finding _ => none
    | .op p => some p

@[simp] theorem mem_findingsOf {es : List Event} {f : Finding} :
    f ∈ findingsOf es ↔ .finding f ∈ es := by
  simp only [findingsOf, List.mem_filterMap]
  constructor
  · rintro ⟨e, he, h⟩
    cases e with
    | finding g => simp only [Option.some.injEq] at h; exact h ▸ he
    | op p => simp at h
  · exact fun h => ⟨_, h, rfl⟩

@[simp] theorem mem_opsOf {es : List Event} {p : PlanOp} : p ∈ opsOf es ↔ .op p ∈ es := by
  simp only [opsOf, List.mem_filterMap]
  constructor
  · rintro ⟨e, he, h⟩
    cases e with
    | finding g => simp at h
    | op q => simp only [Option.some.injEq] at h; exact h ▸ he
  · exact fun h => ⟨_, h, rfl⟩

@[simp] theorem opsOf_append (es es' : List Event) : opsOf (es ++ es') = opsOf es ++ opsOf es' := by
  simp [opsOf]

@[simp] theorem findingsOf_append (es es' : List Event) :
    findingsOf (es ++ es') = findingsOf es ++ findingsOf es' := by
  simp [findingsOf]

theorem opsOf_flatMap {α : Type*} (l : List α) (f : α → List Event) :
    opsOf (l.flatMap f) = l.flatMap fun a => opsOf (f a) :=
  List.filterMap_flatMap

/-- The event plans an operation of this kind. -/
def Event.plansOf (f : PlanOp → Bool) : Event → Bool
  | .finding _ => false
  | .op p => f p

theorem opsOf_filter (f : PlanOp → Bool) (es : List Event) :
    opsOf (es.filter (Event.plansOf f)) = (opsOf es).filter f := by
  induction es with
  | nil => rfl
  | cons e es ih =>
    cases e with
    | finding g => exact ih
    | op p =>
      cases hf : f p with
      | true => simp_all [opsOf, Event.plansOf]
      | false => simp_all [opsOf, Event.plansOf]

/-- Interpolating a string inserts it. -/
theorem toString_string (s : String) : toString s = s := rfl

/-! ## A plan line determines its operation -/

/-- The line up to the first equals sign. -/
def Op.mnemonic : Op → String
  | .zapSet .. => "zap_set obj"
  | .zapZero .. => "zap_zero obj"
  | .zapRemove .. => "zap_remove obj"
  | .bonusSet .. => "bonus_set obj"
  | .free .. => "free obj"

/-- The object an operation names. -/
def Op.obj : Op → ℕ
  | .zapSet obj .. => obj
  | .zapZero obj .. => obj
  | .zapRemove obj .. => obj
  | .bonusSet obj .. => obj
  | .free obj .. => obj

/-- What follows the object number. -/
def Op.args : Op → String
  | .zapSet _ key expect value =>
    " key=" ++ key ++ " expect=" ++ toString expect ++ " value=" ++ toString value
  | .zapZero _ key count => " key=" ++ key ++ " count=" ++ toString count
  | .zapRemove _ key expect => " key=" ++ key ++ " expect=" ++ toString expect
  | .bonusSet _ expect value =>
    " field=ds_num_children expect=" ++ toString expect ++ " value=" ++ toString value
  | .free _ type => " type=\"" ++ type ++ "\""

theorem Op.line_eq (o : Op) : o.line = o.mnemonic ++ "=" ++ toString o.obj ++ o.args := by
  have h1 : "zap_set obj=" = "zap_set obj" ++ "=" := by decide
  have h2 : "zap_zero obj=" = "zap_zero obj" ++ "=" := by decide
  have h3 : "zap_remove obj=" = "zap_remove obj" ++ "=" := by decide
  have h4 : "bonus_set obj=" = "bonus_set obj" ++ "=" := by decide
  have h5 : "free obj=" = "free obj" ++ "=" := by decide
  unfold line mnemonic obj args
  cases o <;> dsimp only <;> simp only [h1, h2, h3, h4, h5, String.append_assoc]

theorem Op.mnemonic_no_eq (o : Op) : ∀ c ∈ o.mnemonic.toList, (c != '=') = true := by
  cases o <;> simp [mnemonic]

theorem Op.args_eq (o : Op) : ∃ s, o.args = " " ++ s := by
  have split : ∀ s t u : String, s = " " ++ t → ∃ v, s ++ u = " " ++ v :=
    fun s t u h => ⟨t ++ u, by rw [h, String.append_assoc]⟩
  unfold args
  cases o <;> dsimp only <;> simp only [String.append_assoc]
  case bonusSet => exact split _ "field=ds_num_children expect=" _ (by decide)
  case free => exact split _ "type=\"" _ (by decide)
  all_goals exact split _ "key=" _ (by decide)

theorem Op.args_inj {a b : Op} (hm : a.mnemonic = b.mnemonic) (ho : a.obj = b.obj)
    (h : a.args = b.args) : a = b := by
  unfold mnemonic at hm
  unfold obj at ho
  unfold args at h
  cases a <;> cases b <;> dsimp only at hm ho h <;> try exact absurd hm (by decide)
  case zapSet =>
    obtain ⟨h1, hv⟩ := Decimal.append_toString_inj (by decide) h
    obtain ⟨hk, he⟩ := Decimal.append_toString_inj (by decide) h1
    rw [ho, Decimal.append_left_cancel hk, he, hv]
  case zapZero =>
    obtain ⟨hk, hc⟩ := Decimal.append_toString_inj (by decide) h
    rw [ho, Decimal.append_left_cancel hk, hc]
  case zapRemove =>
    obtain ⟨hk, he⟩ := Decimal.append_toString_inj (by decide) h
    rw [ho, Decimal.append_left_cancel hk, he]
  case bonusSet =>
    simp only [String.append_assoc] at h
    obtain ⟨he, hv⟩ := Decimal.toString_append_inj (by decide) (Decimal.append_left_cancel h)
    rw [ho, he, Decimal.toString_int_injective (congrArg String.toList hv)]
  case free =>
    rw [ho, Decimal.append_left_cancel (Decimal.append_right_cancel h)]

/-- **The plan line determines the operation.** -/
theorem Op.line_injective : Function.Injective Op.line := by
  intro a b h
  have hl := congrArg String.toList h
  simp only [line_eq, String.toList_append, String.reduceToList, List.append_assoc,
    List.cons_append, List.nil_append] at hl
  obtain ⟨hm, hrest⟩ := Decimal.append_cons_inj (p := fun c => c != '=') a.mnemonic_no_eq
    b.mnemonic_no_eq rfl rfl hl
  obtain ⟨sa, ha⟩ := a.args_eq
  obtain ⟨sb, hb⟩ := b.args_eq
  have hrest : toString a.obj ++ (" " ++ sa) = toString b.obj ++ (" " ++ sb) := by
    rw [← ha, ← hb]
    apply String.toList_inj.mp
    rw [String.toList_append, String.toList_append]
    exact (List.cons.inj hrest).2
  obtain ⟨ho, hs⟩ := Decimal.toString_append_inj (by decide) hrest
  exact args_inj (String.toList_inj.mp hm) ho (by rw [ha, hb, hs])

/-! ## `dedupe_ops` -/

/-- The loop of `dedupe_ops` (lines 545–548), with the lines in `seen`. -/
def dedupeLoop (seen : List String) : List PlanOp → List PlanOp
  | [] => []
  | p :: ps => if p.line ∈ seen then dedupeLoop seen ps else p :: dedupeLoop (p.line :: seen) ps

/-- `dedupe_ops(ops)` (lines 543–549): the first operation of every line. -/
def dedupeOps (ops : List PlanOp) : List PlanOp := dedupeLoop [] ops

theorem mem_dedupeLoop_line {ops : List PlanOp} {seen : List String} {o : Op} :
    (∃ p ∈ dedupeLoop seen ops, p.op = o) ↔ o.line ∉ seen ∧ ∃ p ∈ ops, p.op = o := by
  induction ops generalizing seen with
  | nil => simp [dedupeLoop]
  | cons p ps ih =>
    rw [dedupeLoop]
    split_ifs with h
    · rw [ih]
      constructor
      · rintro ⟨h1, q, hq, rfl⟩
        exact ⟨h1, q, by simp [hq], rfl⟩
      · rintro ⟨h1, q, hq, rfl⟩
        refine ⟨h1, ?_⟩
        rcases List.mem_cons.mp hq with rfl | hq
        · exact absurd h h1
        · exact ⟨q, hq, rfl⟩
    · constructor
      · rintro ⟨q, hq, rfl⟩
        rcases List.mem_cons.mp hq with rfl | hq
        · exact ⟨h, q, by simp, rfl⟩
        · obtain ⟨h1, r, hr, hrq⟩ := ih.mp ⟨q, hq, rfl⟩
          exact ⟨fun hs => h1 (by simp [hs]), r, by simp [hr], hrq⟩
      · rintro ⟨h1, q, hq, rfl⟩
        by_cases hpq : p.op = q.op
        · exact ⟨p, by simp, hpq⟩
        · rcases List.mem_cons.mp hq with rfl | hq
          · exact absurd rfl hpq
          · have hne : q.op.line ∉ p.line :: seen := by
              rw [List.mem_cons]
              rintro (he | he)
              · exact hpq (Op.line_injective he).symm
              · exact h1 he
            obtain ⟨r, hr, hrq⟩ := ih.mpr ⟨hne, q, hq, rfl⟩
            exact ⟨r, by simp [hr], hrq⟩

/-- **Dropping repeated lines keeps every operation.** -/
theorem mem_dedupeOps {ops : List PlanOp} {o : Op} :
    (∃ p ∈ dedupeOps ops, p.op = o) ↔ ∃ p ∈ ops, p.op = o := by
  simp [dedupeOps, mem_dedupeLoop_line]

theorem dedupeLoop_sublist {ops : List PlanOp} {seen : List String} :
    (dedupeLoop seen ops).Sublist ops := by
  induction ops generalizing seen with
  | nil => exact .slnil
  | cons p ps ih =>
    rw [dedupeLoop]
    split_ifs
    · exact .cons _ ih
    · exact .cons_cons _ ih

theorem dedupeLoop_nodup {ops : List PlanOp} {seen : List String} :
    ((dedupeLoop seen ops).map PlanOp.op).Nodup := by
  induction ops generalizing seen with
  | nil => exact List.nodup_nil
  | cons p ps ih =>
    rw [dedupeLoop]
    split_ifs
    · exact ih
    · refine List.nodup_cons.mpr ⟨fun h => ?_, ih⟩
      obtain ⟨q, hq, hqp⟩ := List.mem_map.mp h
      exact (mem_dedupeLoop_line.mp ⟨q, hq, hqp⟩).1 (by simp [PlanOp.line])

/-- No operation is repeated. -/
theorem dedupeOps_nodup (ops : List PlanOp) : ((dedupeOps ops).map PlanOp.op).Nodup :=
  dedupeLoop_nodup

theorem find?_dedupeLoop {ops : List PlanOp} {seen : List String} {f : Op → Bool}
    (h : ∀ o : Op, o.line ∈ seen → f o = false) :
    (dedupeLoop seen ops).find? (fun p => f p.op) = ops.find? fun p => f p.op := by
  induction ops generalizing seen with
  | nil => rfl
  | cons p ps ih =>
    rw [dedupeLoop]
    split_ifs with hp
    · rw [ih h, List.find?_cons, h p.op hp]
    · rw [List.find?_cons, List.find?_cons]
      cases hf : f p.op with
      | true => rfl
      | false =>
        refine ih fun o ho => ?_
        rcases List.mem_cons.mp ho with ho | ho
        · rw [Op.line_injective ho, hf]
        · exact h o ho

/-- **The first operation of a kind stays the first.** -/
theorem find?_dedupeOps (ops : List PlanOp) (f : Op → Bool) :
    (dedupeOps ops).find? (fun p => f p.op) = ops.find? fun p => f p.op :=
  find?_dedupeLoop fun _ ho => absurd ho (List.not_mem_nil)

/-- **The operations of a plan** are the first occurrences among those appended. -/
theorem map_op_dedupeOps (ops : List PlanOp) :
    (dedupeOps ops).map PlanOp.op = Firsts.firsts (ops.map PlanOp.op) := by
  have hloop : ∀ seen : List Op, (dedupeLoop (seen.map Op.line) ops).map PlanOp.op =
      Firsts.loop seen (ops.map PlanOp.op) := by
    induction ops with
    | nil => intro seen; rfl
    | cons p ps ih =>
      intro seen
      have hseen : p.line ∈ seen.map Op.line ↔ p.op ∈ seen :=
        List.mem_map_of_injective Op.line_injective
      rw [dedupeLoop, List.map_cons, Firsts.loop]
      by_cases hp : p.op ∈ seen
      · rw [if_pos (hseen.mpr hp), if_pos hp, ih]
      · rw [if_neg (mt hseen.mp hp), if_neg hp, List.map_cons]
        exact congrArg (p.op :: ·) (ih (p.op :: seen))
  exact hloop []

end Zhaxx.Scan
