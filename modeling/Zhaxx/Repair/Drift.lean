import Zhaxx.Repair.Handover

/-!
# Plans that have gone stale

Between the scan and the surgery the MOS may change in any way. Each operation
of a plan is meant to touch only what the scan saw: `surgeon/zhaxx.c` (lines
15–19) promises that every mutating operation names an expected current value.
`zap_zero` names none, and `bonus_set` does not look at the type of its object.

Results:
* `touchesSeen_iff`: a committed plan touches only what the scan saw exactly when
  the scan cursor and the types of the `bonus_set` targets have not drifted.
* `newCursor_overwritten`: the cursor of a scan that was started in between is
  overwritten.
-/

namespace Zhaxx.Repair

open Scan Surgeon CText

variable {M T : Type*}

/-- What zdb prints for the types of objects. `zdbName` is the printed name and
    `recorded` the type each object had when it was dumped; the names of `dmu_ot`
    are printed as they stand (lines 97–99), up to letter case for no other type. -/
structure ZdbTypes (L : Libzpool M T) (zdbName : T → List Char) (A : Mos) (recorded : ℕ → T) :
    Prop where
  printed : ∀ o, (A.get o).exists_ = true → utf8 (A.get o).typeStr = zdbName (recorded o)
  table : ∀ t t' name, L.otName t = some name → strcasecmpEq name (zdbName t') = true → t = t'

/-- The object `o` is a DSL dataset. -/
def DslDataset (L : Libzpool M T) (s : Store T) (o : ℕ) : Prop :=
  ∃ t, s.type o = some t ∧ L.otName t = some "DSL dataset".toList

/-- The cell of the store `s` that the operation overwrites or deletes has the
    content observed in `A`. -/
def Seen (L : Libzpool M T) (A : Mos) (recorded : ℕ → T) (s : Store T) : Op → Prop
  | .zapSet obj key e _ => Entry A obj key e ∧ s.entry obj (utf8 key) = some [e]
  | .zapZero obj key _ => ∃ ws, key = "scan" ∧ scanEntry (A.get obj) = some ws ∧
      s.entry obj (utf8 key) = some ws
  | .zapRemove obj key e => Entry A obj key e ∧ s.entry obj (utf8 key) = some [e]
  | .bonusSet obj e _ => (A.get obj).numChildren = some e ∧ s.numChildren obj = some e ∧
      DslDataset L s obj
  | .free obj _ => (A.get obj).exists_ = true ∧ s.type obj = some (recorded obj)

/-- Every operation of the plan for `A`, executed in its turn on a MOS that
    started as `b`, touches a cell that had in `b` the content observed in `A`, or
    changes nothing. -/
def TouchesSeen (L : Libzpool M T) (view : M → Store T) (A : Mos) (recorded : ℕ → T) (b : M) :
    Prop :=
  ∀ pre op post, ops A = pre ++ op :: post → ∀ m₁ m₂,
    L.applyAll b (pre.map Op.toOpT) = .ok m₁ → L.applyOp m₁ op.toOpT = .ok m₂ →
      Seen L A recorded (view b) op ∨ view m₂ = view m₁

/-- The scan cursor a plan zeroes is the recorded one or zero already, and every
    object whose child count is set is a dataset, unless the count stays the same. -/
structure Undrifted (L : Libzpool M T) (A : Mos) (s : Store T) : Prop where
  cursor : StaleScan A → s.entry mosDirObj (utf8 "scan") = scanEntry (A.get mosDirObj) ∨
    s.entry mosDirObj (utf8 "scan") = some (List.replicate scanWords 0)
  bonus : ∀ S nc v, Op.bonusSet S nc v ∈ ops A → DslDataset L s S ∨ toU64 v = nc

section

variable {L : Libzpool M T} {view : M → Store T} {zdbName : T → List Char} {A : Mos}
  {recorded : ℕ → T} {b b' m₁ m₂ : M}

/-- What pass 1 establishes for every operation of the plan. -/
theorem guarded_of_check (hL : Lawful L view)
    (hcheck : ∀ op ∈ orders A, L.checkOp b op = true) {op : Op} (hop : op ∈ ops A) :
    Guarded L (view b) op.toOpT :=
  hL.checkOp_guarded (hcheck _ (List.mem_map_of_mem hop))

/-- A checked entry holds the expected value. -/
theorem entry_of_guarded_zapSet {s : Store T} {obj e v : ℕ} {key : String}
    (h : Guarded L s (Op.zapSet obj key e v).toOpT) : s.entry obj (utf8 key) = some [e] := by
  obtain ⟨w, hw, he⟩ := h
  rw [← show w = e from he rfl]
  exact hw

theorem entry_of_guarded_zapRemove {s : Store T} {obj e : ℕ} {key : String}
    (h : Guarded L s (Op.zapRemove obj key e).toOpT) :
    s.entry obj (utf8 key) = none ∨ s.entry obj (utf8 key) = some [e] := by
  rcases h with h | ⟨w, hw, he⟩
  · exact .inl h
  · rw [← show w = e from he rfl]
    exact .inr hw

/-- Of a plan only `zap_set` and `zap_zero` write entries. -/
theorem writes_cases {op : Op} {o : ℕ} {k : List Char} (h : op.toOpT.Writes o k) :
    (∃ key e v, op = .zapSet o key e v ∧ utf8 key = k) ∨
      ∃ key c, op = .zapZero o key c ∧ utf8 key = k := by
  obtain ⟨hk, ho, hkey⟩ := h
  cases op with
  | zapSet obj key e v => exact .inl ⟨key, e, v, by rw [← ho]; rfl, hkey⟩
  | zapZero obj key c => exact .inr ⟨key, c, by rw [← ho]; rfl, hkey⟩
  | zapRemove => rcases hk with hk | hk <;> cases hk
  | bonusSet => rcases hk with hk | hk <;> cases hk
  | free => rcases hk with hk | hk <;> cases hk

theorem removes_cases {op : Op} {o : ℕ} {k : List Char} (h : op.toOpT.Removes o k) :
    ∃ key e, op = .zapRemove o key e ∧ utf8 key = k := by
  obtain ⟨hk, ho, hkey⟩ := h
  cases op with
  | zapRemove obj key e => exact ⟨key, e, by rw [← ho]; rfl, hkey⟩
  | _ => cases hk

/-- The names of the error-log entries are not `scan`. -/
theorem utf8_errlogName {name : String} (h : name ∈ errlogNames) : utf8 name ≠ utf8 "scan" := by
  revert name
  decide

/-- No operation before the `zap_zero` of a plan writes the cursor. -/
theorem cursor_not_written {pre post : List Op} {op : Op}
    (hsplit : ops A = pre ++ .zapZero mosDirObj "scan" scanWords :: post) (hop : op ∈ pre) :
    ¬ op.toOpT.Writes mosDirObj (utf8 "scan") := by
  have hmem : op ∈ ops A := hsplit ▸ List.mem_append_left _ hop
  intro hw
  rcases writes_cases hw with ⟨key, e, v, rfl, hkey⟩ | ⟨key, c, rfl, -⟩
  · obtain ⟨-, -, he, -⟩ := zapSet_mem_ops.mp hmem
    exact utf8_errlogName he.2.1 hkey
  · obtain ⟨-, rfl, rfl, -⟩ := zapZero_mem_ops.mp hmem
    have hnd := ops_nodup A
    rw [hsplit] at hnd
    exact List.disjoint_of_nodup_append hnd hop List.mem_cons_self

/-! ## Operation by operation -/

variable (hL : Lawful L view) (hcheck : ∀ op ∈ orders A, L.checkOp b op = true)

include hL hcheck

/-- A `zap_remove` finds its entry as recorded, or finds none in its turn. -/
theorem seen_zapRemove (hu : Undrifted L A (view b)) {pre post : List Op} {Z v : ℕ} {k : String}
    (hsplit : ops A = pre ++ .zapRemove Z k v :: post)
    (h₁ : L.applyAll b (pre.map Op.toOpT) = .ok m₁)
    (h₂ : L.applyOp m₁ (Op.zapRemove Z k v).toOpT = .ok m₂) :
    Seen L A recorded (view b) (.zapRemove Z k v) ∨ view m₂ = view m₁ := by
  have hmem : Op.zapRemove Z k v ∈ ops A := hsplit ▸ by simp
  rcases entry_of_guarded_zapRemove (guarded_of_check hL hcheck hmem) with hnone | hsome
  swap
  · exact .inl ⟨planned_entry hmem, hsome⟩
  have hw : ∀ op ∈ pre.map Op.toOpT, ¬ op.Writes Z (utf8 k) := by
    refine List.forall_mem_map.mpr fun op hop hw => ?_
    have hmem' : op ∈ ops A := hsplit ▸ List.mem_append_left _ hop
    -- what is written in between was there from the start
    rcases writes_cases hw with ⟨key, e, v, rfl, hkey⟩ | ⟨key, c, rfl, hkey⟩
    · have := entry_of_guarded_zapSet (guarded_of_check hL hcheck hmem')
      rw [hkey, hnone] at this
      cases this
    · obtain ⟨rfl, rfl, -, hs⟩ := zapZero_mem_ops.mp hmem'
      obtain ⟨ws, hws, -⟩ := hs.2
      rw [← hkey] at hnone
      rcases hu.cursor hs with hc | hc
      · rw [hnone, hws] at hc; cases hc
      · rw [hnone] at hc; cases hc
  right
  have hnone₁ : (view m₁).entry Z (utf8 k) = none := by
    rw [hL.applyAll_ok h₁]
    rcases Store.foldl_entry (s := view b) hw with h | h
    · exact h.trans hnone
    · exact h
  rw [hL.applyOp_ok h₂]
  exact Store.setEntry_self hnone₁

/-- A `zap_zero` finds the cursor as recorded, or zero. -/
theorem seen_zapZero (hu : Undrifted L A (view b)) {pre post : List Op} {c : ℕ} {k : String}
    {o : ℕ} (hsplit : ops A = pre ++ .zapZero o k c :: post)
    (h₁ : L.applyAll b (pre.map Op.toOpT) = .ok m₁)
    (h₂ : L.applyOp m₁ (Op.zapZero o k c).toOpT = .ok m₂) :
    Seen L A recorded (view b) (.zapZero o k c) ∨ view m₂ = view m₁ := by
  obtain ⟨rfl, rfl, rfl, hs⟩ := zapZero_mem_ops.mp (show Op.zapZero o k c ∈ ops A from
    hsplit ▸ by simp)
  rcases hu.cursor hs with hc | hc
  · obtain ⟨ws, hws, -⟩ := hs.2
    exact .inl ⟨ws, rfl, hws, hc.trans hws⟩
  right
  have hw : ∀ op ∈ pre.map Op.toOpT, ¬ op.Writes mosDirObj (utf8 "scan") ∧
      ¬ op.Removes mosDirObj (utf8 "scan") := by
    refine List.forall_mem_map.mpr fun op hop => ?_
    refine ⟨cursor_not_written hsplit hop, fun hr => ?_⟩
    -- an entry of 24 words passes no check of a `zap_remove`
    obtain ⟨key, e, rfl, hkey⟩ := removes_cases hr
    have hmem : Op.zapRemove mosDirObj key e ∈ ops A := hsplit ▸ List.mem_append_left _ hop
    have := entry_of_guarded_zapRemove (guarded_of_check hL hcheck hmem)
    rw [hkey, hc] at this
    rcases this with h | h
    · cases h
    · exact absurd (congrArg List.length (Option.some.inj h)) (by simp [scanWords])
  have ht : (view m₁).type mosDirObj ≠ none := (hL.update_ok h₂).1
  have hzero : (view m₁).entry mosDirObj (utf8 "scan") = some (List.replicate scanWords 0) := by
    rw [hL.applyAll_ok h₁] at ht ⊢
    exact (Store.foldl_entry_same hw ht).trans hc
  rw [hL.applyOp_ok h₂]
  exact Store.setEntry_self hzero

/-- The child count that a `bonus_set` finds in its turn, when those before it
    left it alone. -/
theorem numChildren_turn {pre post : List Op} {S nc : ℕ} {v : ℤ}
    (hsplit : ops A = pre ++ .bonusSet S nc v :: post)
    (hpre : ∀ nc' v', Op.bonusSet S nc' v' ∈ pre → toU64 v' = nc')
    (h₁ : L.applyAll b (pre.map Op.toOpT) = .ok m₁)
    (h₂ : L.applyOp m₁ (Op.bonusSet S nc v).toOpT = .ok m₂) :
    (view m₁).numChildren S = some nc := by
  have hcount : ∀ {nc' v'}, Op.bonusSet S nc' v' ∈ ops A → (view b).numChildren S = some nc' :=
    fun h => guarded_of_check hL hcheck h
  have hnc := hcount (show Op.bonusSet S nc v ∈ ops A from hsplit ▸ by simp)
  have ht : (view m₁).type S ≠ none := by
    cases hb : L.bonusHold m₁ S with
    | error e =>
      have : L.applyOp m₁ (Op.bonusSet S nc v).toOpT = .error e := by
        simp [Libzpool.applyOp, Op.toOpT, hb]
      rw [this] at h₂
      cases h₂
    | ok n =>
      exact Store.type_ne_none_of_numChildren (by rw [(hL.bonus_ok hb).1]; exact nofun)
  rw [hL.applyAll_ok h₁] at ht ⊢
  refine Store.foldl_numChildren hnc (List.forall_mem_map.mpr fun op hop hk ho => ?_) ht
  have hmem : op ∈ ops A := hsplit ▸ List.mem_append_left _ hop
  cases op with
  | bonusSet S' nc' v' =>
    obtain rfl : S' = S := ho
    exact (hpre nc' v' hop).trans (Option.some.inj ((hcount hmem).symm.trans hnc))
  | _ => cases hk

/-- A `bonus_set` finds a dataset with the recorded count, or changes nothing. -/
theorem seen_bonusSet (hu : Undrifted L A (view b)) {pre post : List Op} {S nc : ℕ} {v : ℤ}
    (hsplit : ops A = pre ++ .bonusSet S nc v :: post)
    (h₁ : L.applyAll b (pre.map Op.toOpT) = .ok m₁)
    (h₂ : L.applyOp m₁ (Op.bonusSet S nc v).toOpT = .ok m₂) :
    Seen L A recorded (view b) (.bonusSet S nc v) ∨ view m₂ = view m₁ := by
  have hmem : Op.bonusSet S nc v ∈ ops A := hsplit ▸ by simp
  by_cases hds : DslDataset L (view b) S
  · exact .inl ⟨bonusSet_numChildren hmem, guarded_of_check hL hcheck hmem, hds⟩
  right
  have hsame : ∀ nc' v', Op.bonusSet S nc' v' ∈ ops A → toU64 v' = nc' :=
    fun nc' v' h => (hu.bonus S nc' v' h).resolve_left hds
  have hturn := numChildren_turn hL hcheck hsplit
    (fun nc' v' h => hsame nc' v' (hsplit ▸ List.mem_append_left _ h)) h₁ h₂
  rw [hL.applyOp_ok h₂]
  exact Store.setNumChildren_self (hturn.trans (by rw [← hsame nc v hmem]; rfl))

/-- A freed object has the recorded type, or is free already. -/
theorem seen_free (hz : ZdbTypes L zdbName A recorded) {pre post : List Op} {x : ℕ} {t : String}
    (hsplit : ops A = pre ++ .free x t :: post)
    (h₁ : L.applyAll b (pre.map Op.toOpT) = .ok m₁)
    (h₂ : L.applyOp m₁ (Op.free x t).toOpT = .ok m₂) :
    Seen L A recorded (view b) (.free x t) ∨ view m₂ = view m₁ := by
  have hmem : Op.free x t ∈ ops A := hsplit ▸ by simp
  obtain ⟨he, htype⟩ := free_observed hmem
  rcases guarded_of_check hL hcheck hmem with hnone | ⟨t', ht', hname⟩
  · right
    have hnone₁ : (view m₁).type x = none := by
      rw [hL.applyAll_ok h₁]
      exact Store.foldl_type_none hnone
    rw [hL.applyOp_ok h₂]
    exact Store.free_self hnone₁
  · left
    have hprinted : utf8 t = zdbName (recorded x) := by
      rw [← hz.printed x he, ObjDump.typeStr, htype, Option.getD_some]
    have hname' : L.typeNameMatches t' (utf8 t) = true := hname
    unfold Libzpool.typeNameMatches at hname'
    cases hot : L.otName t' with
    | none => simp [hot] at hname'
    | some name =>
      rw [hot, hprinted] at hname'
      exact ⟨he, hz.table t' (recorded x) name hot hname' ▸ ht'⟩

theorem Undrifted.touchesSeen (hz : ZdbTypes L zdbName A recorded)
    (hu : Undrifted L A (view b)) : TouchesSeen L view A recorded b := by
  intro pre op post hsplit m₁ m₂ h₁ h₂
  cases op with
  | zapSet obj key e v =>
    have hmem : Op.zapSet obj key e v ∈ ops A := hsplit ▸ by simp
    obtain ⟨rfl, -, he, -⟩ := zapSet_mem_ops.mp hmem
    exact .inl ⟨he.entry, entry_of_guarded_zapSet (guarded_of_check hL hcheck hmem)⟩
  | zapZero obj key c => exact seen_zapZero hL hcheck hu hsplit h₁ h₂
  | zapRemove obj key e => exact seen_zapRemove hL hcheck hu hsplit h₁ h₂
  | bonusSet obj e v => exact seen_bonusSet hL hcheck hu hsplit h₁ h₂
  | free obj t => exact seen_free hL hcheck hz hsplit h₁ h₂

/-! ## What a plan that touches only what was seen says about the drift -/

variable (hcommit : L.applyAll b (orders A) = .ok b')

include hcommit

omit hL hcheck in
theorem turn {pre post : List Op} {op : Op} (hsplit : ops A = pre ++ op :: post) :
    ∃ m₁ m₂, L.applyAll b (pre.map Op.toOpT) = .ok m₁ ∧ L.applyOp m₁ op.toOpT = .ok m₂ := by
  rw [orders, hsplit, List.map_append, List.map_cons] at hcommit
  exact L.applyAll_split hcommit

omit hcheck in
theorem TouchesSeen.cursor (ht : TouchesSeen L view A recorded b) (hs : StaleScan A) :
    (view b).entry mosDirObj (utf8 "scan") = scanEntry (A.get mosDirObj) ∨
      (view b).entry mosDirObj (utf8 "scan") = some (List.replicate scanWords 0) := by
  obtain ⟨pre, post, hsplit⟩ := List.append_of_mem
    (zapZero_mem_ops.mpr ⟨rfl, rfl, rfl, hs⟩ : Op.zapZero mosDirObj "scan" scanWords ∈ ops A)
  obtain ⟨m₁, m₂, h₁, h₂⟩ := turn hcommit hsplit
  rcases ht _ _ _ hsplit m₁ m₂ h₁ h₂ with ⟨ws, -, hws, hb⟩ | hsame
  · exact .inl (hb.trans hws.symm)
  right
  have htype : (view m₁).type mosDirObj ≠ none := (hL.update_ok h₂).1
  have hzero : (view m₁).entry mosDirObj (utf8 "scan") = some (List.replicate scanWords 0) := by
    rw [← hsame, hL.applyOp_ok h₂]
    exact (Store.entry_setEntry _ _ _ _ _ _).trans
      (if_pos ⟨rfl, rfl, Option.isSome_iff_ne_none.mpr htype⟩)
  have hw : ∀ op ∈ pre.map Op.toOpT, ¬ op.Writes mosDirObj (utf8 "scan") := by
    exact List.forall_mem_map.mpr fun op hop => cursor_not_written hsplit hop
  rw [hL.applyAll_ok h₁] at hzero
  rcases Store.foldl_entry (s := view b) hw with h | h
  · exact h.symm.trans hzero
  · rw [h] at hzero; cases hzero

/-- By induction on the operations before: the counts of an object that is no
    dataset are set to themselves. -/
theorem TouchesSeen.bonus_prefix (ht : TouchesSeen L view A recorded b) {S : ℕ}
    (hds : ¬ DslDataset L (view b) S) (pre : List Op) :
    ∀ post, ops A = pre ++ post → ∀ nc v, Op.bonusSet S nc v ∈ pre → toU64 v = nc := by
  induction pre using List.reverseRecOn with
  | nil => exact fun _ _ _ _ h => absurd h List.not_mem_nil
  | append_singleton pre op ih =>
    intro post hsplit nc v hmem
    rw [List.append_assoc, List.singleton_append] at hsplit
    rcases List.mem_append.mp hmem with hmem | hmem
    · exact ih _ hsplit nc v hmem
    obtain rfl := List.mem_singleton.mp hmem
    obtain ⟨m₁, m₂, h₁, h₂⟩ := turn hcommit hsplit
    have hturn := numChildren_turn hL hcheck hsplit (ih _ hsplit) h₁ h₂
    rcases ht _ _ _ hsplit m₁ m₂ h₁ h₂ with ⟨-, -, h⟩ | hsame
    · exact absurd h hds
    · have hset : (view m₂).numChildren S = some (toU64 v) := by
        rw [hL.applyOp_ok h₂]
        exact (Store.numChildren_setNumChildren _ _ _ _).trans
          (if_pos ⟨rfl, Option.isSome_of_eq_some hturn⟩)
      rw [hsame, hturn] at hset
      exact (Option.some.inj hset).symm

end

/-- **Touching only what the scan saw.** -/
theorem touchesSeen_iff {L : Libzpool M T} {view : M → Store T} (hL : Lawful L view)
    {zdbName : T → List Char} {A : Mos} {recorded : ℕ → T}
    (hz : ZdbTypes L zdbName A recorded) {b b' : M}
    (hcheck : ∀ op ∈ orders A, L.checkOp b op = true)
    (hcommit : L.applyAll b (orders A) = .ok b') :
    TouchesSeen L view A recorded b ↔ Undrifted L A (view b) := by
  constructor
  · intro ht
    refine ⟨ht.cursor hL hcommit, fun S nc v hmem => ?_⟩
    by_cases hds : DslDataset L (view b) S
    · exact .inl hds
    · exact .inr (ht.bonus_prefix hL hcheck hcommit hds _ [] (List.append_nil _).symm nc v hmem)
  · exact fun hu => hu.touchesSeen hL hcheck hz

/-- A part of the type table. -/
def otNames (t : Fin 2) : List Char :=
  if t = 0 then "object directory".toList else "DSL directory".toList

/-- A MOS whose resilver lost its queue `38`. -/
def resilvering : Mos := .ofList
  [(1, (ObjDump.ofLines "object directory" [("root_dataset", 32)] false).withWords rfl "scan"
      ([2, 1, 38] ++ List.replicate 21 0)),
    (32, .ofLines "DSL directory" [] false)]

/-- The types of its objects. -/
def resilveringTypes (o : ℕ) : Fin 2 := if o = 1 then 0 else 1

/-- Its store with the cursor `ws`. -/
def withCursor (ws : List ℕ) : Store (Fin 2) where
  type o := if o = 1 then some 0 else if o = 32 then some 1 else none
  entry o k := if o = 1 ∧ k = utf8 "scan" then some ws else none
  numChildren _ := none
  unallocated o h := by
    by_cases ho : o = 1
    · simp [ho] at h
    · simp [ho]

theorem ops_resilvering : ops resilvering = [.zapZero 1 "scan" 24] := by decide +kernel

theorem zdbTypes_resilvering :
    ZdbTypes (storeLib (Fin 2) fun t => some (otNames t)) otNames resilvering resilveringTypes where
  printed o ho := by
    have hmem := Mos.get_mem ho
    have hobjs : resilvering.objs.entries.map Prod.fst = [1, 32] := by decide +kernel
    rw [hobjs, List.mem_cons, List.mem_singleton] at hmem
    rcases hmem with rfl | rfl <;> decide +kernel
  table t t' name hname h := by
    cases hname
    revert t t'
    decide

theorem entry_withCursor (ws : List ℕ) : (withCursor ws).entry 1 (utf8 "scan") = some ws := by
  simp [withCursor]

theorem check_withCursor {ws : List ℕ} (h0 : ws ≠ []) (h24 : ¬ 24 < ws.length) :
    ∀ op ∈ orders resilvering,
      (storeLib (Fin 2) fun t => some (otNames t)).checkOp (withCursor ws) op = true := by
  rw [orders, ops_resilvering, List.forall_mem_map, List.forall_mem_singleton]
  simp [Libzpool.checkOp, Op.toOpT, storeLib, entry_withCursor, h0, h24]

theorem commit_withCursor (ws : List ℕ) :
    (storeLib (Fin 2) fun t => some (otNames t)).applyAll (withCursor ws) (orders resilvering) =
      .ok ((withCursor ws).setEntry 1 (utf8 "scan") (some (List.replicate 24 0))) := by
  rw [orders, ops_resilvering]
  rfl

/-- An unchanged cursor is zeroed. -/
theorem touchesSeen_resilvering :
    TouchesSeen (storeLib (Fin 2) fun t => some (otNames t)) id resilvering resilveringTypes
        (withCursor ([2, 1, 38] ++ List.replicate 21 0)) ↔
      Undrifted (storeLib (Fin 2) fun t => some (otNames t)) resilvering
        (withCursor ([2, 1, 38] ++ List.replicate 21 0)) :=
  touchesSeen_iff (storeLib_lawful _ _) zdbTypes_resilvering
    (check_withCursor (by decide) (by decide)) (commit_withCursor _)

/-- The cursor of a scrub that was started after the scan is overwritten. -/
theorem newCursor_overwritten :
    (∀ op ∈ orders resilvering, (storeLib (Fin 2) fun t => some (otNames t)).checkOp
      (withCursor ([1, 1, 40] ++ List.replicate 21 0)) op = true) ∧
    (∃ b', (storeLib (Fin 2) fun t => some (otNames t)).applyAll
      (withCursor ([1, 1, 40] ++ List.replicate 21 0)) (orders resilvering) = .ok b') ∧
    ¬ TouchesSeen (storeLib (Fin 2) fun t => some (otNames t)) id resilvering resilveringTypes
      (withCursor ([1, 1, 40] ++ List.replicate 21 0)) := by
  refine ⟨check_withCursor (by decide) (by decide), ⟨_, commit_withCursor _⟩, fun h => ?_⟩
  have hcommit := commit_withCursor ([1, 1, 40] ++ List.replicate 21 0)
  rw [orders, ops_resilvering] at hcommit
  rcases h [] _ [] ops_resilvering _ _ rfl hcommit with ⟨ws, -, hws, hb⟩ | hsame
  · have hscan : scanEntry (resilvering.get 1) = some ([2, 1, 38] ++ List.replicate 21 0) := by
      decide +kernel
    rw [hscan] at hws
    rw [id, entry_withCursor, ← hws] at hb
    exact absurd hb (by decide)
  · have := congrArg (fun s => s.entry 1 (utf8 "scan")) hsame
    exact absurd this (by decide)

end Zhaxx.Repair
