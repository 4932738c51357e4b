import Zhaxx.Repair.Outcome

/-!
# The second scan

`afterPlan m` is the observation after the plan: its operations executed on the lines of
the dumps. A scan reads a line under its key as a bonus field and as a ZAP entry, so a
removed entry also changes what the object says about itself, and the second walk may
not even reach what the first one did.

Results:
* `holds_afterPlan`: the store after the plan holds what the observation after it says.
* `ref_of_after`, `ReferenceOnly.reached_of_after`: the second walk finds no reference and
  no directory that the first one did not.
* `rescan_plan`: after a repair that frees nothing the second plan is empty.
-/

namespace Zhaxx.Scan

/-! ## Lines of a dump -/

/-- What a dump says under one key: a bonus field, a ZAP entry of one word and one of
    several. -/
structure Line where
  field : Option FieldVal
  single : Option ℕ
  words : Option (List ℕ)

/-- No line. -/
def Line.blank : Line := ⟨none, none, none⟩

/-- The line `key = v`. -/
def Line.number (v : ℕ) : Line := ⟨some (.int v), some v, none⟩

/-- The line `key = w₀ w₁ …`. -/
def Line.list (ws : List ℕ) : Line := ⟨none, none, some ws⟩

/-- What the dump says under `key`. -/
def ObjDump.line (d : ObjDump) (key : String) : Line :=
  ⟨d.fields.get? key, d.zap.get? key, d.zapMulti.get? key⟩

/-- The dump with another line under `key`; an object that is missing has no lines. -/
def ObjDump.setLine (d : ObjDump) (key : String) (l : Line) : ObjDump :=
  if h : d.exists_ = true then
    { d with
      fields := d.fields.put key l.field
      zap := d.zap.put key l.single
      zapMulti := d.zapMulti.put key l.words
      absent := fun h' => absurd h (by rw [h']; exact Bool.false_ne_true) }
  else d

/-- The line an operation writes, with its object and key. -/
def Op.lineWrite : Op → Option (ℕ × String × Line)
  | .zapSet obj key _ v => some (obj, key, .number v)
  | .zapZero obj key c => some (obj, key, .list (List.replicate c 0))
  | .zapRemove obj key _ => some (obj, key, .blank)
  | .bonusSet obj _ v => some (obj, "num_children", .number (toU64 v))
  | .free _ _ => none

/-- The effect of an operation on the observation. -/
def Mos.applyOp (m : Mos) (op : Op) : Mos :=
  match op with
  | .free obj _ => ⟨m.objs.erase obj⟩
  | op =>
    match op.lineWrite with
    | some (obj, key, l) => ⟨m.objs.modify obj fun d => d.setLine key l⟩
    | none => m

/-- The observation after the plan. -/
def afterPlan (m : Mos) : Mos := (ops m).foldl Mos.applyOp m

section

variable {d : ObjDump} {key k : String} {l : Line}

@[simp] theorem ObjDump.exists_setLine : (d.setLine key l).exists_ = d.exists_ := by
  unfold setLine
  split_ifs <;> rfl

@[simp] theorem ObjDump.unreadable_setLine : (d.setLine key l).unreadable = d.unreadable := by
  unfold setLine
  split_ifs <;> rfl

@[simp] theorem ObjDump.type_setLine : (d.setLine key l).type = d.type := by
  unfold setLine
  split_ifs <;> rfl

theorem ObjDump.line_setLine (h : d.exists_ = true) :
    (d.setLine key l).line k = if k = key then l else d.line k := by
  unfold setLine line
  rw [dif_pos h]
  simp only [Dict.get?_put]
  split_ifs <;> rfl

theorem scanEntry_eq (d : ObjDump) : scanEntry d =
    (d.line "scan").words.or ((d.line "scan").single.map fun w => [w]) := by
  change scanEntry d = (d.zapMulti.get? "scan").or ((d.zap.get? "scan").map fun w => [w])
  unfold scanEntry
  cases d.zapMulti.get? "scan" <;> rfl

end

/-- What an operation writes under the key `k` of `n`. -/
def Op.cellWrite (n : ℕ) (k : String) (op : Op) : Option Line :=
  match op.lineWrite with
  | some (obj, key, l) => if n = obj ∧ k = key then some l else none
  | none => none

theorem cellWrite_iff {n : ℕ} {k : String} {op : Op} {l : Line} :
    op.cellWrite n k = some l ↔
      (∃ e v, op = .zapSet n k e v ∧ l = .number v) ∨
      (∃ c, op = .zapZero n k c ∧ l = .list (List.replicate c 0)) ∨
      (∃ v, op = .zapRemove n k v ∧ l = .blank) ∨
      ∃ e v, op = .bonusSet n e v ∧ k = "num_children" ∧ l = .number (toU64 v) := by
  unfold Op.cellWrite
  constructor
  · intro h
    cases op with
    | zapSet obj key e v =>
      obtain ⟨⟨rfl, rfl⟩, hl⟩ := Option.ite_none_right_eq_some.mp h
      cases hl
      exact .inl ⟨e, v, rfl, rfl⟩
    | zapZero obj key c =>
      obtain ⟨⟨rfl, rfl⟩, hl⟩ := Option.ite_none_right_eq_some.mp h
      cases hl
      exact .inr (.inl ⟨c, rfl, rfl⟩)
    | zapRemove obj key v =>
      obtain ⟨⟨rfl, rfl⟩, hl⟩ := Option.ite_none_right_eq_some.mp h
      cases hl
      exact .inr (.inr (.inl ⟨v, rfl, rfl⟩))
    | bonusSet obj e v =>
      obtain ⟨⟨rfl, rfl⟩, hl⟩ := Option.ite_none_right_eq_some.mp h
      cases hl
      exact .inr (.inr (.inr ⟨e, v, rfl, rfl, rfl⟩))
    | free obj t => cases h
  · rintro (⟨e, v, rfl, rfl⟩ | ⟨c, rfl, rfl⟩ | ⟨v, rfl, rfl⟩ | ⟨e, v, rfl, rfl, rfl⟩)
    · exact if_pos ⟨rfl, rfl⟩
    · exact if_pos ⟨rfl, rfl⟩
    · exact if_pos ⟨rfl, rfl⟩
    · exact if_pos ⟨rfl, rfl⟩

/-! ## One operation -/

section

variable {m : Mos} {n : ℕ}

theorem get_modify {f : ObjDump → ObjDump} (hf : f .missing = .missing) (obj : ℕ) :
    (Mos.mk (m.objs.modify obj f)).get n = if n = obj then f (m.get n) else m.get n := by
  unfold Mos.get Dict.getD
  rw [Dict.get?_modify]
  split_ifs with h
  · cases m.objs.get? n with
    | none => exact hf.symm
    | some d => rfl
  · rfl

theorem get_erase (obj : ℕ) :
    (Mos.mk (m.objs.erase obj)).get n = if n = obj then .missing else m.get n := by
  unfold Mos.get Dict.getD
  rw [Dict.get?_erase]
  split_ifs <;> rfl

/-- The dump of `n` after an operation. -/
theorem get_applyOp (op : Op) : (m.applyOp op).get n =
    match op with
    | .free obj _ => if n = obj then .missing else m.get n
    | .zapSet obj key _ v => if n = obj then (m.get n).setLine key (.number v) else m.get n
    | .zapZero obj key c =>
      if n = obj then (m.get n).setLine key (.list (List.replicate c 0)) else m.get n
    | .zapRemove obj key _ => if n = obj then (m.get n).setLine key .blank else m.get n
    | .bonusSet obj _ v =>
      if n = obj then (m.get n).setLine "num_children" (.number (toU64 v)) else m.get n := by
  cases op with
  | free obj t => exact get_erase obj
  | zapSet obj key e v => exact get_modify rfl obj
  | zapZero obj key c => exact get_modify rfl obj
  | zapRemove obj key e => exact get_modify rfl obj
  | bonusSet obj e v => exact get_modify rfl obj

/-- An operation that does not free the object leaves its header. -/
theorem header_applyOp {op : Op} (h : ∀ t, op ≠ .free n t) :
    ((m.applyOp op).get n).exists_ = (m.get n).exists_ ∧
      ((m.applyOp op).get n).unreadable = (m.get n).unreadable ∧
      ((m.applyOp op).get n).type = (m.get n).type := by
  rw [get_applyOp]
  cases op with
  | free obj t =>
    have hne : n ≠ obj := fun hn => h t (hn ▸ rfl)
    simp [hne]
  | zapSet => dsimp only; split_ifs <;> simp
  | zapZero => dsimp only; split_ifs <;> simp
  | zapRemove => dsimp only; split_ifs <;> simp
  | bonusSet => dsimp only; split_ifs <;> simp

/-- No operation creates an object. -/
theorem exists_of_applyOp {op : Op} (h : ((m.applyOp op).get n).exists_ = true) :
    (m.get n).exists_ = true ∧ ∀ t, op ≠ .free n t := by
  have hne : ∀ t, op ≠ .free n t := by
    rintro t rfl
    rw [get_applyOp] at h
    simp at h
  exact ⟨(header_applyOp hne).1 ▸ h, hne⟩

/-- The line of an object that stays is the one written, if one is. -/
theorem line_applyOp {op : Op} {k : String} (h : ((m.applyOp op).get n).exists_ = true) :
    ((m.applyOp op).get n).line k = (op.cellWrite n k).getD ((m.get n).line k) := by
  obtain ⟨hex, hne⟩ := exists_of_applyOp h
  have hset : ∀ obj key l, (if n = obj then (m.get n).setLine key l else m.get n).line k =
      (if n = obj ∧ k = key then some l else none).getD ((m.get n).line k) := by
    intro obj key l
    by_cases hn : n = obj
    · rw [if_pos hn, ObjDump.line_setLine hex]
      by_cases hk : k = key
      · rw [if_pos hk, if_pos ⟨hn, hk⟩, Option.getD_some]
      · rw [if_neg hk, if_neg fun hc => hk hc.2, Option.getD_none]
    · rw [if_neg hn, if_neg fun hc => hn hc.1, Option.getD_none]
  rw [get_applyOp]
  cases op with
  | free obj t =>
    have hobj : n ≠ obj := fun hn => hne t (hn ▸ rfl)
    dsimp only
    rw [if_neg hobj]
    rfl
  | zapSet => exact hset _ _ _
  | zapZero => exact hset _ _ _
  | zapRemove => exact hset _ _ _
  | bonusSet => exact hset _ _ _

end

/-! ## A plan that frees nothing -/

section

variable {m : Mos} {n : ℕ}

/-- The operations `ops` do not free `n`. -/
theorem header_foldl {l : List Op} (h : ∀ t, Op.free n t ∉ l) :
    ((l.foldl Mos.applyOp m).get n).exists_ = (m.get n).exists_ ∧
      ((l.foldl Mos.applyOp m).get n).unreadable = (m.get n).unreadable ∧
      ((l.foldl Mos.applyOp m).get n).type = (m.get n).type := by
  induction l generalizing m with
  | nil => exact ⟨rfl, rfl, rfl⟩
  | cons op l ih =>
    have hfree : ∀ t, op ≠ .free n t := fun t ht => h t (ht ▸ List.mem_cons_self)
    have hop := header_applyOp (m := m) hfree
    have hl := ih (m := m.applyOp op) fun t ht => h t (List.mem_cons_of_mem _ ht)
    exact ⟨hl.1.trans hop.1, hl.2.1.trans hop.2.1, hl.2.2.trans hop.2.2⟩

/-- Every line holds the last write. -/
theorem line_foldl {l : List Op} {k : String}
    (h : ((l.foldl Mos.applyOp m).get n).exists_ = true) :
    ((l.foldl Mos.applyOp m).get n).line k =
      LastWrite.last (Op.cellWrite n k) ((m.get n).line k) l :=
  LastWrite.get_foldl Mos.applyOp (fun m : Mos => (m.get n).line k)
    (fun m => (m.get n).exists_ = true) (fun _ _ h => (exists_of_applyOp h).1)
    (fun _ _ => line_applyOp) h

end

end Zhaxx.Scan

namespace Zhaxx.Repair

open Scan Surgeon CText

/-! ## The observation and the store -/

/-- The words of the ZAP entry that a line stands for. -/
def lineWords (l : Line) : Option (List ℕ) :=
  match l.single with
  | some v => some [v]
  | none => l.words

theorem entry_observed (m : Mos) (Z : ℕ) (k : String) :
    (observed m).entry Z (utf8 k) = lineWords ((m.get Z).line k) := entryWords_utf8 _ k

/-- The surgeon writes into an entry what the line of the operation says. -/
theorem entryWrite_eq {op : Op} {Z : ℕ} {k : String} (hk : k ≠ "num_children") :
    op.toOpT.entryWrite Z (utf8 k) = (op.cellWrite Z k).map lineWords := by
  apply Option.ext
  intro w
  rw [entryWrite_iff, Option.map_eq_some_iff]
  constructor
  · rintro (⟨e, v, rfl, rfl⟩ | ⟨c, rfl, rfl⟩ | ⟨v, rfl, rfl⟩)
    · exact ⟨_, cellWrite_iff.mpr (.inl ⟨e, v, rfl, rfl⟩), rfl⟩
    · exact ⟨_, cellWrite_iff.mpr (.inr (.inl ⟨c, rfl, rfl⟩)), rfl⟩
    · exact ⟨_, cellWrite_iff.mpr (.inr (.inr (.inl ⟨v, rfl, rfl⟩))), rfl⟩
  · rintro ⟨l, hl, rfl⟩
    rcases cellWrite_iff.mp hl with ⟨e, v, rfl, rfl⟩ | ⟨c, rfl, rfl⟩ | ⟨v, rfl, rfl⟩ |
      ⟨e, v, rfl, hk', -⟩
    · exact .inl ⟨e, v, rfl, rfl⟩
    · exact .inr (.inl ⟨c, rfl, rfl⟩)
    · exact .inr (.inr ⟨v, rfl, rfl⟩)
    · exact absurd hk' hk

/-- The store holds the objects and the ZAP entries of the observation. A child count is
    no ZAP entry of the store, while the scanner reads its line as one. -/
structure Holds (s : Store String) (m : Mos) : Prop where
  type : ∀ x, s.type x = (observed m).type x
  entry : ∀ Z k, k ≠ "num_children" → s.entry Z (utf8 k) = (observed m).entry Z (utf8 k)

theorem Holds.apply {s : Store String} {m : Mos} (h : Holds s m) (op : Op) :
    Holds (s.apply op.toOpT) (m.applyOp op) := by
  have htype : ∀ x, (s.apply op.toOpT).type x = (observed (m.applyOp op)).type x := by
    intro x
    by_cases hf : ∃ t, op = .free x t
    · obtain ⟨t, rfl⟩ := hf
      have hgone : (m.applyOp (.free x t)).get x = .missing := (get_applyOp _).trans (if_pos rfl)
      rw [Store.type_apply_of_frees (frees_iff.mpr ⟨t, rfl⟩)]
      simp [observed, hgone]
    · obtain ⟨hex, -, hty⟩ := header_applyOp (m := m) fun t ht => hf ⟨t, ht⟩
      rw [Store.type_apply_of_not_frees fun hfr => hf (frees_iff.mp hfr), h.type]
      simp only [observed, hex, ObjDump.typeStr, hty]
  refine ⟨htype, fun Z k hk => ?_⟩
  by_cases hZ : (s.apply op.toOpT).type Z = none
  · rw [((s.apply op.toOpT).unallocated Z hZ).1,
      ((observed (m.applyOp op)).unallocated Z (htype Z ▸ hZ)).1]
  · have hex : ((m.applyOp op).get Z).exists_ = true := by
      by_contra hne
      rw [htype, observed] at hZ
      exact hZ (if_neg hne)
    rw [Store.entry_apply_eq hZ, entry_observed, line_applyOp hex, entryWrite_eq hk, h.entry Z k hk,
      entry_observed]
    cases op.cellWrite Z k <;> rfl

/-- **The observation and the store after the plan.** -/
theorem holds_afterPlan (m : Mos) : Holds (repaired m) (afterPlan m) := by
  have hrun : ∀ (l : List Op) (s : Store String) (m : Mos), Holds s m →
      Holds ((l.map Op.toOpT).foldl Store.apply s) (l.foldl Mos.applyOp m) := by
    intro l
    induction l with
    | nil => exact fun _ _ h => h
    | cons op l ih => exact fun s m h => ih _ _ (h.apply op)
  exact hrun (ops m) (observed m) m ⟨fun _ => rfl, fun _ _ _ => rfl⟩

/-! ## Repairs of references -/

/-- The child maps and clones ZAPs whose entries the walk goes through, those in which it
    looks for the references to an orphan included. -/
inductive UsedZap (m : Mos) (Z : ℕ) : Prop
  | childMap {D : ℕ} : Reached m D → Ref m D "child_dir_zapobj" Z → (m.get Z).readable = true →
      UsedZap m Z
  | clones {D : ℕ} : Reached m D → Ref m D "clones" Z → (m.get Z).readable = true → UsedZap m Z
  | nextClones {D H : ℕ} : Reached m D → Ref m D "head_dataset_obj" H →
      isDataset (m.get H) = true → Ref m H "next_clones_obj" Z → (m.get Z).readable = true →
      UsedZap m Z
  | orphanName {D H P : ℕ} : Reached m D → Orphan m D H → Ref m D "parent_dir_obj" P →
      (m.get P).readable = true → Ref m P "child_dir_zapobj" Z → UsedZap m Z
  | orphanNextClones {D H O : ℕ} : Reached m D → Orphan m D H → Ref m D "origin_obj" O →
      (m.get O).readable = true → Ref m O "next_clones_obj" Z → UsedZap m Z
  | orphanClones {D H O OD : ℕ} : Reached m D → Orphan m D H → Ref m D "origin_obj" O →
      (m.get O).readable = true → Ref m O "dir_obj" OD → (m.get OD).readable = true →
      Ref m OD "clones" Z → UsedZap m Z

/-- The plan frees nothing, and no ZAP the walk uses is the MOS directory or a dataset
    whose child count is set. -/
structure ReferenceOnly (m : Mos) : Prop where
  noFree : ∀ x t, Op.free x t ∉ ops m
  notMos : ∀ Z, UsedZap m Z → Z ≠ mosDirObj
  notCounted : ∀ Z, UsedZap m Z → ∀ nc v, Op.bonusSet Z nc v ∉ ops m

theorem usedZap_of_due {m : Mos} {Z v : ℕ} {k : String} (h : Due m Z k v) : UsedZap m Z := by
  obtain ⟨D, hD, hd⟩ := h
  cases hd with
  | staleChild hM hs => exact .childMap hD hM hs.1
  | clone hZ hd => exact .clones hD hZ hd.1
  | nextClone hH hds hZ hd => exact .nextClones hD hH hds hZ hd.1
  | orphanName hO hP hr hM _ => exact .orphanName hD hO hP hr hM
  | orphanNextClone hO hOr hr hZ _ => exact .orphanNextClones hD hO hOr hr hZ
  | orphanClone hO hOr hr hOD hrOD hZ _ => exact .orphanClones hD hO hOr hr hOD hrOD hZ

/-- A line is the observed one, which no operation wrote, or one that an operation wrote. -/
theorem line_cases {m : Mos} {n : ℕ} (hex : ((afterPlan m).get n).exists_ = true) (k : String) :
    ((∀ op ∈ ops m, op.cellWrite n k = none) ∧
      ((afterPlan m).get n).line k = (m.get n).line k) ∨
    ∃ op ∈ ops m, op.cellWrite n k = some (((afterPlan m).get n).line k) := by
  rw [afterPlan, line_foldl hex]
  exact LastWrite.last_cases (ops m)

/-- The keys under which a plan writes numbers. -/
def countedKeys : List String := "num_children" :: "scan" :: errlogNames

/-- A line under a key that is never counted is the observed one, or was removed. -/
theorem line_uncounted {m : Mos} {n : ℕ} (hex : ((afterPlan m).get n).exists_ = true) {k : String}
    (hk : k ∉ countedKeys) :
    ((afterPlan m).get n).line k = (m.get n).line k ∨
      (((afterPlan m).get n).line k = .blank ∧ ∃ v, Due m n k v) := by
  rcases line_cases hex k with ⟨-, hsame⟩ | ⟨op, hop, hw⟩
  · exact .inl hsame
  · rcases cellWrite_iff.mp hw with ⟨e, v, rfl, -⟩ | ⟨c, rfl, -⟩ | ⟨v, rfl, hl⟩ | ⟨e, v, rfl, hn, -⟩
    · obtain ⟨-, -, he, -⟩ := zapSet_mem_ops.mp hop
      exact absurd (List.mem_cons_of_mem _ (List.mem_cons_of_mem _ he.2.1)) hk
    · obtain ⟨-, rfl, -, -⟩ := zapZero_mem_ops.mp hop
      exact absurd (by decide) hk
    · exact .inr ⟨hl, v, zapRemove_mem_ops.mp hop⟩
    · exact absurd (hn ▸ by decide) hk

/-- The second scan finds no new references. -/
theorem ref_of_after {m : Mos} {n r : ℕ} {f : String} (hf : f ∉ countedKeys)
    (hr : Ref (afterPlan m) n f r) :
    Ref m n f r := by
  have href : ∀ d : ObjDump, d.ref f = (d.line f).field.getD (.int 0) := fun d => rfl
  rcases line_uncounted hr.exists_ hf with hsame | ⟨hblank, -⟩
  · exact ⟨by rw [href, ← hsame, ← href]; exact hr.1, hr.2⟩
  · have h0 := hr.1
    rw [href, hblank] at h0
    exact absurd (FieldVal.int.inj h0).symm hr.2

theorem subtreeRef_of_after {m : Mos} {D H x : ℕ} {role : FreeRole}
    (hx : SubtreeRef (afterPlan m) D H role x) : SubtreeRef m D H role x := by
  cases role with
  | orphanDir => exact hx
  | orphanProps => exact ref_of_after (by decide) hx
  | orphanChildMap => exact ref_of_after (by decide) hx
  | orphanDataset => exact hx
  | orphanSnapnames => exact ref_of_after (by decide) hx
  | orphanDeadlist => exact ref_of_after (by decide) hx
  | errlogHead => exact hx
  | objsetErrlog => exact hx

namespace ReferenceOnly

variable {m : Mos} (h : ReferenceOnly m)

include h

/-! ## What the second scan sees -/

theorem exists_after (n : ℕ) : ((afterPlan m).get n).exists_ = (m.get n).exists_ :=
  (header_foldl fun t => h.noFree n t).1

theorem unreadable_after (n : ℕ) : ((afterPlan m).get n).unreadable = (m.get n).unreadable :=
  (header_foldl fun t => h.noFree n t).2.1

theorem readable_after (n : ℕ) : ((afterPlan m).get n).readable = (m.get n).readable := by
  rw [ObjDump.readable, ObjDump.readable, h.exists_after, h.unreadable_after]

theorem type_after (n : ℕ) : ((afterPlan m).get n).type = (m.get n).type :=
  (header_foldl fun t => h.noFree n t).2.2

theorem hasType_after (pat : String) (n : ℕ) :
    ((afterPlan m).get n).hasType pat = (m.get n).hasType pat := by
  rw [ObjDump.hasType, ObjDump.hasType, ObjDump.typeOr, ObjDump.typeOr, h.type_after]

theorem isDataset_after (n : ℕ) : isDataset ((afterPlan m).get n) = isDataset (m.get n) := by
  rw [isDataset, isDataset, h.readable_after, h.hasType_after]

theorem isDirectory_after (n : ℕ) :
    isDirectory ((afterPlan m).get n) = isDirectory (m.get n) := by
  rw [isDirectory, isDirectory, h.readable_after, h.hasType_after]

/-- What an entry that a second scan finds in a ZAP of the first one says. -/
theorem entry_of_after {Z v : ℕ} {k : String} (hZ : UsedZap m Z)
    (he : Entry (afterPlan m) Z k v) : Entry m Z k v ∧ ¬ Due m Z k v := by
  have hline : ((afterPlan m).get Z).zap.get? k = some v := Dict.mem_entries_iff.mp he
  rcases line_cases (ObjDump.exists_of_mem_zap he) k with ⟨hnone, hsame⟩ | ⟨op, hop, hw⟩
  · have hsingle : ((afterPlan m).get Z).zap.get? k = (m.get Z).zap.get? k :=
      congrArg Line.single hsame
    refine ⟨Dict.mem_entries_iff.mpr (hsingle.symm.trans hline), fun hdue => ?_⟩
    have := hnone _ (zapRemove_mem_ops.mpr hdue)
    rw [cellWrite_iff.mpr (.inr (.inr (.inl ⟨v, rfl, rfl⟩)))] at this
    cases this
  · rcases cellWrite_iff.mp hw with ⟨e, v, rfl, -⟩ | ⟨c, rfl, -⟩ | ⟨v, rfl, hl⟩ | ⟨e, v, rfl, -, -⟩
    · exact absurd (zapSet_mem_ops.mp hop).1 (h.notMos Z hZ)
    · exact absurd (zapZero_mem_ops.mp hop).1 (h.notMos Z hZ)
    · have : ((afterPlan m).get Z).zap.get? k = none := congrArg Line.single hl
      rw [this] at hline
      cases hline
    · exact absurd hop (h.notCounted Z hZ e v)

/-! ## The second walk -/

theorem rootDataset_after : rootDataset (afterPlan m) = rootDataset m := by
  by_cases hex : ((afterPlan m).get mosDirObj).exists_ = true
  · rcases line_uncounted hex (k := "root_dataset") (by decide) with hsame | ⟨-, v, hdue⟩
    · have hsingle : ((afterPlan m).get mosDirObj).zap.get? "root_dataset" =
          (m.get mosDirObj).zap.get? "root_dataset" := congrArg Line.single hsame
      rw [rootDataset, rootDataset, Dict.getD, Dict.getD, hsingle]
    · exact absurd rfl (h.notMos _ (usedZap_of_due hdue))
  · have hne : ((afterPlan m).get mosDirObj).exists_ = false := by simpa using hex
    have hne' : (m.get mosDirObj).exists_ = false := h.exists_after _ ▸ hne
    rw [rootDataset, rootDataset, ObjDump.eq_missing_iff.mpr hne, ObjDump.eq_missing_iff.mpr hne']

/-- The second walk reaches nothing new. -/
theorem reached_of_after {D : ℕ} (hD : Reached (afterPlan m) D) : Reached m D := by
  induction hD with
  | root h1 h0 hd =>
    rw [h.rootDataset_after] at h0 hd ⊢
    rw [h.readable_after] at h1
    rw [h.isDirectory_after] at hd
    exact .root h1 h0 hd
  | child _ hM hr he hn hc ih =>
    have hM' := ref_of_after (by decide) hM
    rw [h.readable_after] at hr
    rw [h.isDirectory_after] at hc
    exact .child ih hM' hr (h.entry_of_after (.childMap ih hM' hr) he).1 hn hc

theorem orphan_of_after {D H : ℕ} (hO : Orphan (afterPlan m) D H) : Orphan m D H :=
  ⟨ref_of_after (by decide) hO.1, h.unreadable_after H ▸ hO.2⟩

/-- Where all dangling clones of a ZAP were due, none is left. -/
theorem not_danglingClone_after {Z v : ℕ} {k : String} (hZ : UsedZap m Z)
    (hall : ∀ k v, DanglingClone m Z k v → Due m Z k v) :
    ¬ DanglingClone (afterPlan m) Z k v := by
  rintro ⟨hr, he, hds⟩
  rw [h.readable_after] at hr
  rw [h.isDataset_after] at hds
  obtain ⟨he', hdue⟩ := h.entry_of_after hZ he
  exact hdue (hall k v ⟨hr, he', hds⟩)

/-- The origin of an orphan names it no more. -/
theorem not_orphanNextClone_after {D H O Z : ℕ} {k : String} (hD : Reached m D)
    (hO : Orphan (afterPlan m) D H) (hOr : Ref (afterPlan m) D "origin_obj" O)
    (hr : ((afterPlan m).get O).readable = true) (hZ : Ref (afterPlan m) O "next_clones_obj" Z) :
    ¬ Entry (afterPlan m) Z k H := by
  intro he
  have hO' := h.orphan_of_after hO
  have hOr' := ref_of_after (by decide) hOr
  have hZ' := ref_of_after (by decide) hZ
  rw [h.readable_after] at hr
  obtain ⟨he', hdue⟩ := h.entry_of_after (.orphanNextClones hD hO' hOr' hr hZ') he
  exact hdue ⟨D, hD, .orphanNextClone hO' hOr' hr hZ' he'⟩

/-- The second walk plans nothing. -/
theorem not_dirPlanned_after {D : ℕ} (hD : Reached m D) {op : Op} {role : Option FreeRole} :
    ¬ DirPlanned (afterPlan m) D op role := by
  intro hp
  cases hp with
  | staleChild hM hs =>
    obtain ⟨hr, he, hn, ht⟩ := hs
    rw [h.readable_after] at hr
    rw [h.hasType_after] at ht
    have hM' := ref_of_after (by decide) hM
    obtain ⟨he', hdue⟩ := h.entry_of_after (.childMap hD hM' hr) he
    exact hdue ⟨D, hD, .staleChild hM' ⟨hr, he', hn, ht⟩⟩
  | clone hZ hd =>
    have hZ' := ref_of_after (by decide) hZ
    have hr := h.readable_after _ ▸ hd.1
    exact h.not_danglingClone_after (.clones hD hZ' hr) (fun k v hd => ⟨D, hD, .clone hZ' hd⟩) hd
  | nextClone hH hds hZ hd =>
    have hH' := ref_of_after (by decide) hH
    have hZ' := ref_of_after (by decide) hZ
    rw [h.isDataset_after] at hds
    have hr := h.readable_after _ ▸ hd.1
    exact h.not_danglingClone_after (.nextClones hD hH' hds hZ' hr)
      (fun k v hd => ⟨D, hD, .nextClone hH' hds hZ' hd⟩) hd
  | childCount hH hds hZ hr hn hnc =>
    have hH' := ref_of_after (by decide) hH
    have hZ' := ref_of_after (by decide) hZ
    rw [h.isDataset_after] at hds
    obtain ⟨k, v, hd⟩ := exists_danglingClone hr hn
    rw [h.readable_after] at hr
    exact h.not_danglingClone_after (.nextClones hD hH' hds hZ' hr)
      (fun k v hd => ⟨D, hD, .nextClone hH' hds hZ' hd⟩) hd
  | orphanName hO hP hr hM he =>
    have hO' := h.orphan_of_after hO
    have hP' := ref_of_after (by decide) hP
    have hM' := ref_of_after (by decide) hM
    rw [h.readable_after] at hr
    obtain ⟨he', hdue⟩ := h.entry_of_after (.orphanName hD hO' hP' hr hM') he
    exact hdue ⟨D, hD, .orphanName hO' hP' hr hM' he'⟩
  | orphanNextClone hO hOr hr hZ he => exact h.not_orphanNextClone_after hD hO hOr hr hZ he
  | orphanCount hO hOr hr hZ he hnc => exact h.not_orphanNextClone_after hD hO hOr hr hZ he
  | orphanClone hO hOr hr hOD hrOD hZ he =>
    have hO' := h.orphan_of_after hO
    have hOr' := ref_of_after (by decide) hOr
    have hOD' := ref_of_after (by decide) hOD
    have hZ' := ref_of_after (by decide) hZ
    rw [h.readable_after] at hr hrOD
    obtain ⟨he', hdue⟩ := h.entry_of_after (.orphanClones hD hO' hOr' hr hOD' hrOD hZ') he
    exact hdue ⟨D, hD, .orphanClone hO' hOr' hr hOD' hrOD hZ' he'⟩
  | orphanFree hO hx hr ht =>
    rw [h.readable_after] at hr
    rw [ObjDump.typeOr, h.type_after, ← ObjDump.typeOr] at ht
    exact h.noFree _ _ (mem_ops.mpr
      ⟨_, .dir hD (.orphanFree (h.orphan_of_after hO) (subtreeRef_of_after hx) hr ht)⟩)

/-! ## The second error-log and scan checks -/

/-- The second scan finds the same error logs, those that were reset apart. -/
theorem errlogEntry_of_after {name : String} {e : ℕ} (he : ErrlogEntry (afterPlan m) name e) :
    ErrlogEntry m name e ∧ ¬ Resets m e := by
  obtain ⟨h1, hn, hget, h0⟩ := he
  have hex := ObjDump.exists_of_readable h1
  rw [h.readable_after] at h1
  rcases line_cases hex name with ⟨hnone, hsame⟩ | ⟨op, hop, hw⟩
  · have hsingle : ((afterPlan m).get mosDirObj).zap.get? name =
        (m.get mosDirObj).zap.get? name := congrArg Line.single hsame
    rw [Dict.getD, hsingle] at hget
    refine ⟨⟨h1, hn, hget, h0⟩, fun hr => ?_⟩
    have := hnone _ (zapSet_mem_ops.mpr ⟨rfl, rfl, ⟨h1, hn, hget, h0⟩, hr⟩)
    rw [cellWrite_iff.mpr (.inl ⟨e, 0, rfl, rfl⟩)] at this
    cases this
  · exfalso
    rcases cellWrite_iff.mp hw with ⟨e', v, rfl, hl⟩ | ⟨c, rfl, hl⟩ | ⟨v, rfl, -⟩ |
      ⟨e', v, rfl, hk, -⟩
    · obtain ⟨-, rfl, -, -⟩ := zapSet_mem_ops.mp hop
      have hzero : ((afterPlan m).get mosDirObj).zap.get? name = some 0 := congrArg Line.single hl
      rw [Dict.getD, hzero] at hget
      exact h0 hget.symm
    · have hnone : ((afterPlan m).get mosDirObj).zap.get? name = none := congrArg Line.single hl
      rw [Dict.getD, hnone] at hget
      exact h0 hget.symm
    · exact h.notMos _ (usedZap_of_due (zapRemove_mem_ops.mp hop)) rfl
    · subst hk
      exact absurd hn (by decide)

theorem readable_getInt_after (z : ℤ) :
    ((afterPlan m).getInt z).readable = (m.getInt z).readable := by
  unfold Mos.getInt
  split_ifs
  · exact h.readable_after _
  · rfl

/-- An error log that is not stale does not become so: the keys under which a plan writes
    numbers name no objset. -/
theorem staleHead_of_after {e : ℕ} (hs : StaleHead (afterPlan m) e) : StaleHead m e := by
  obtain ⟨ht, hne⟩ := hs
  obtain ⟨⟨key, per⟩, hmem, hse⟩ := staleEntries_ne_nil.mp hne
  have hhex : ∀ k ∈ countedKeys, PyStr.intHex k = none := by decide +kernel
  obtain ⟨o, ho, hr⟩ := staleEntry_ne_none.mp hse
  have hkey : key ∉ countedKeys := fun hk => by
    rw [hhex key hk] at ho
    cases ho
  have hline : ((afterPlan m).get e).zap.get? key = some per := Dict.mem_entries_iff.mp hmem
  refine ⟨h.hasType_after _ _ ▸ ht, staleEntries_ne_nil.mpr ⟨(key, per), ?_, ?_⟩⟩
  · rcases line_uncounted (ObjDump.exists_of_mem_zap hmem) hkey with hsame | ⟨hblank, -⟩
    · have hsingle : ((afterPlan m).get e).zap.get? key = (m.get e).zap.get? key :=
        congrArg Line.single hsame
      exact Dict.mem_entries_iff.mpr (hsingle.symm.trans hline)
    · have hnone : ((afterPlan m).get e).zap.get? key = none := congrArg Line.single hblank
      rw [hnone] at hline
      cases hline
  · exact staleEntry_ne_none.mpr ⟨o, ho, h.readable_getInt_after o ▸ hr⟩

/-- A zeroed scan cursor is not in progress. -/
theorem not_staleScan_after : ¬ StaleScan (afterPlan m) := by
  rintro ⟨h1, scan, hscan, hst, hq, hqr⟩
  have hex := ObjDump.exists_of_readable h1
  rw [scanEntry_eq] at hscan
  rcases line_cases hex "scan" with ⟨hnone, hsame⟩ | ⟨op, hop, hw⟩
  · rw [hsame, ← scanEntry_eq] at hscan
    rw [h.readable_after] at h1 hqr
    have := hnone _ (zapZero_mem_ops.mpr ⟨rfl, rfl, rfl, h1, scan, hscan, hst, hq, hqr⟩)
    rw [cellWrite_iff.mpr (.inr (.inl ⟨scanWords, rfl, rfl⟩))] at this
    cases this
  · rcases cellWrite_iff.mp hw with ⟨e, v, rfl, -⟩ | ⟨c, rfl, hl⟩ | ⟨v, rfl, -⟩ | ⟨e, v, rfl, hk, -⟩
    · obtain ⟨-, -, he, -⟩ := zapSet_mem_ops.mp hop
      exact absurd he.2.1 (by decide)
    · rw [hl] at hscan
      have hzeros : scan = List.replicate c 0 := (Option.some.inj hscan).symm
      rw [hzeros, List.getD_eq_getElem?_getD, List.getElem?_replicate] at hst
      split_ifs at hst <;> simp [dssScanning] at hst
    · exact absurd rfl (h.notMos _ (usedZap_of_due (zapRemove_mem_ops.mp hop)))
    · exact absurd hk (by decide)

theorem not_planned_after {op : Op} {role : Option FreeRole} :
    ¬ Planned (afterPlan m) op role := by
  have hreset : ∀ {name e}, ErrlogEntry (afterPlan m) name e → ¬ Resets (afterPlan m) e := by
    intro name e he hr
    obtain ⟨-, hno⟩ := h.errlogEntry_of_after he
    refine hno ?_
    rcases hr with ht | hs
    · exact .inl (h.hasType_after _ _ ▸ ht)
    · exact .inr (h.staleHead_of_after hs)
  intro hp
  cases hp with
  | errlog hp =>
    cases hp with
    | reset he hr => exact hreset he hr
    | head he hs => exact hreset he (.inr hs)
    | objset he hs => exact hreset he (.inr hs)
  | scan hs => exact h.not_staleScan_after hs
  | dir hD hp => exact h.not_dirPlanned_after (h.reached_of_after hD) hp

end ReferenceOnly

/-- **A reference-only repair converges.** -/
theorem rescan_plan {m : Mos} (h : ReferenceOnly m) : plan (afterPlan m) = [] := by
  rw [List.eq_nil_iff_forall_not_mem]
  intro p hp
  obtain ⟨role, hpl⟩ := mem_plan.mp ⟨p, hp, rfl⟩
  exact h.not_planned_after hpl

/-- A pool in which the ZAP `34` is the child map of the root directory and the clones
    ZAP of the directory `40` below it, with the dangling entry `gone`. -/
def sharedZap : Mos := .ofList
  [(1, .ofLines "object directory" [("errlog_last", 38), ("root_dataset", 32)] false),
    (32, .ofLines "DSL directory" [("child_dir_zapobj", 34)] false),
    (34, .ofLines "DSL directory child map" [("gone", 700), ("kept", 40)] false),
    (40, .ofLines "DSL directory" [("clones", 34)] false)]

/-- `rescan_plan` on that pool. -/
theorem rescan_plan_sharedZap : plan (afterPlan sharedZap) = [] := by
  have hops : ops sharedZap = [.zapSet 1 "errlog_last" 38 0, .zapRemove 34 "gone" 700,
      .zapRemove 34 "kept" 40] := by decide +kernel
  have hmos : ∀ n ∈ sharedZap.objs.entries.map Prod.fst,
      ∀ f ∈ ["child_dir_zapobj", "clones", "next_clones_obj"],
        (sharedZap.get n).ref f ≠ .int mosDirObj := by decide +kernel
  have hused : ∀ Z, UsedZap sharedZap Z → ∃ n, ∃ f ∈ ["child_dir_zapobj", "clones",
      "next_clones_obj"], Ref sharedZap n f Z := by
    intro Z hZ
    cases hZ with
    | childMap _ hM _ => exact ⟨_, _, by decide, hM⟩
    | clones _ hM _ => exact ⟨_, _, by decide, hM⟩
    | nextClones _ _ _ hM _ => exact ⟨_, _, by decide, hM⟩
    | orphanName _ _ _ _ hM => exact ⟨_, _, by decide, hM⟩
    | orphanNextClones _ _ _ _ hM => exact ⟨_, _, by decide, hM⟩
    | orphanClones _ _ _ _ _ _ hM => exact ⟨_, _, by decide, hM⟩
  refine rescan_plan ⟨fun x t hx => ?_, fun Z hZ h1 => ?_, fun Z _ nc v hb => ?_⟩
  · rw [hops] at hx
    simp at hx
  · obtain ⟨n, f, hf, hr⟩ := hused Z hZ
    exact hmos n (Mos.get_mem hr.exists_) f hf (h1 ▸ hr.1)
  · rw [hops] at hb
    simp at hb

end Zhaxx.Repair
