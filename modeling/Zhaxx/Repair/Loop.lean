import Zhaxx.Lib.Descent
import Zhaxx.Repair.Rescan

/-!
# Repeated repairs

A repair that frees objects can leave references to them, so the next scan may plan
again: an in-progress scan whose queue was the freed error log, an entry that names a
freed directory. The surgeon asks for that rescan when it refuses a plan
(`surgeon/zhaxx.c` lines 623–627).

What a plan acts on is an `Item`: an object, a ZAP entry, a nonzero ZAP entry or the
in-progress scan. A repair adds no item and every operation but a child count uses one up.

Results:
* `repairs_end`: with as many repairs as there are items the plan is empty, however many
  attempts fail in between.
* `not_planned_again`: what was planned once and executed is never planned again.
-/

namespace Zhaxx.Scan

/-! ## Items -/

/-- What the operations of a plan use up. -/
inductive Item where
  | object (n : ℕ)
  | entry (n : ℕ) (key : String)
  | nonzero (n : ℕ) (key : String)
  | scanning
  deriving DecidableEq

/-- The line is not a child count, which a `bonus_set` writes again. -/
def Uncounted (m : Mos) (n : ℕ) (k : String) : Prop :=
  k = "num_children" → (m.get n).numChildren = none

instance (m : Mos) (n : ℕ) (k : String) : Decidable (Uncounted m n k) :=
  inferInstanceAs (Decidable (_ → _))

/-- The item is there. -/
def Live (m : Mos) : Item → Prop
  | .object n => (m.get n).exists_ = true
  | .entry n k => Uncounted m n k ∧ ((m.get n).zap.get? k).isSome = true
  | .nonzero n k => Uncounted m n k ∧ (m.get n).zap.getD k 0 ≠ 0
  | .scanning => ((scanEntry (m.get mosDirObj)).getD []).getD 1 0 = dssScanning

instance (m : Mos) (i : Item) : Decidable (Live m i) :=
  match i with
  | .object n => inferInstanceAs (Decidable ((m.get n).exists_ = true))
  | .entry n k =>
    inferInstanceAs (Decidable (Uncounted m n k ∧ ((m.get n).zap.get? k).isSome = true))
  | .nonzero n k => inferInstanceAs (Decidable (Uncounted m n k ∧ (m.get n).zap.getD k 0 ≠ 0))
  | .scanning => inferInstanceAs
      (Decidable (((scanEntry (m.get mosDirObj)).getD []).getD 1 0 = dssScanning))

/-- The items a MOS can have. -/
def candidates (m : Mos) : List Item :=
  .scanning :: m.objs.entries.flatMap fun e =>
    .object e.1 :: e.2.zap.entries.flatMap fun z => [.entry e.1 z.1, .nonzero e.1 z.1]

/-- The items of a MOS. -/
def items (m : Mos) : Finset Item := (candidates m).toFinset.filter (Live m)

/-- The item that an operation uses up. -/
def Op.item : Op → Option Item
  | .zapSet obj key _ _ => some (.nonzero obj key)
  | .zapZero _ _ _ => some .scanning
  | .zapRemove obj key v => some (if v = 0 then .entry obj key else .nonzero obj key)
  | .bonusSet _ _ _ => none
  | .free obj _ => some (.object obj)

end Zhaxx.Scan

namespace Zhaxx.Repair

open Scan Descent

section

variable {m : Mos} {n v : ℕ} {k : String}

theorem zap_of_getD_ne_zero (h : (m.get n).zap.getD k 0 ≠ 0) :
    Entry m n k ((m.get n).zap.getD k 0) := by
  rw [Dict.getD] at h ⊢
  cases hg : (m.get n).zap.get? k with
  | none => rw [hg] at h; exact absurd rfl h
  | some v => exact Dict.mem_entries_iff.mpr hg

theorem getD_of_entry (h : Entry m n k v) : (m.get n).zap.getD k 0 = v := by
  rw [Dict.getD, Dict.mem_entries_iff.mp h, Option.getD_some]

theorem mem_objs (h : (m.get n).exists_ = true) : (n, m.get n) ∈ m.objs.entries := by
  obtain ⟨⟨n', d⟩, hm, rfl⟩ := List.mem_map.mp (Mos.get_mem h)
  have hd : m.get n' = d := by
    rw [Mos.get, Dict.getD, Dict.mem_entries_iff.mp hm, Option.getD_some]
  rw [hd]
  exact hm

theorem mem_candidates {i : Item} (h : Live m i) : i ∈ candidates m := by
  have hzap : ∀ {n k v}, Entry m n k v → ∀ i ∈ [Item.entry n k, Item.nonzero n k],
      i ∈ candidates m := by
    intro n k v he i hi
    exact List.mem_cons_of_mem _ (List.mem_flatMap.mpr
      ⟨_, mem_objs (ObjDump.exists_of_mem_zap he), List.mem_cons_of_mem _
        (List.mem_flatMap.mpr ⟨_, he, hi⟩)⟩)
  cases i with
  | object n =>
    exact List.mem_cons_of_mem _ (List.mem_flatMap.mpr ⟨_, mem_objs h, List.mem_cons_self⟩)
  | entry n k =>
    obtain ⟨v, hv⟩ := Option.isSome_iff_exists.mp h.2
    exact hzap (Dict.mem_entries_iff.mpr hv) _ List.mem_cons_self
  | nonzero n k =>
    exact hzap (zap_of_getD_ne_zero h.2) _ (List.mem_cons_of_mem _ List.mem_cons_self)
  | scanning => exact List.mem_cons_self

@[simp] theorem mem_items {i : Item} : i ∈ items m ↔ Live m i := by
  rw [items, Finset.mem_filter, List.mem_toFinset]
  exact ⟨And.right, fun h => ⟨mem_candidates h, h⟩⟩

/-! ## What one repair does to the items -/

/-- A repair creates no object, and frees what it is to free. -/
theorem exists_of_afterPlan (h : ((afterPlan m).get n).exists_ = true) :
    (m.get n).exists_ = true ∧ ∀ t, Op.free n t ∉ ops m := by
  have hrun : ∀ (l : List Op) (m : Mos), ((l.foldl Mos.applyOp m).get n).exists_ = true →
      (m.get n).exists_ = true ∧ ∀ t, Op.free n t ∉ l := by
    intro l
    induction l with
    | nil => exact fun m h => ⟨h, fun t => List.not_mem_nil⟩
    | cons op l ih =>
      intro m h
      obtain ⟨hex, hl⟩ := ih _ h
      obtain ⟨hex, hop⟩ := exists_of_applyOp hex
      refine ⟨hex, fun t ht => ?_⟩
      rcases List.mem_cons.mp ht with rfl | ht
      · exact hop t rfl
      · exact hl t ht
  exact hrun (ops m) m h

theorem numChildren_congr {d d' : ObjDump} (h : d.line "num_children" = d'.line "num_children") :
    d.numChildren = d'.numChildren := by
  have hf : d.fields.get? "num_children" = d'.fields.get? "num_children" := congrArg Line.field h
  unfold ObjDump.numChildren
  rw [hf]

theorem uncounted_of_errlog {name : String} (h : name ∈ errlogNames) : Uncounted m n name :=
  fun hn => absurd (hn ▸ h) (by decide)

/-- An entry after a repair was there before, and no operation wrote it or one cleared it. -/
theorem entry_of_afterPlan (he : Entry (afterPlan m) n k v) (hu : Uncounted (afterPlan m) n k) :
    Uncounted m n k ∧ ((Entry m n k v ∧ ∀ op ∈ ops m, op.cellWrite n k = none) ∨
      (v = 0 ∧ ∃ e, e ≠ 0 ∧ Entry m n k e)) := by
  have hline : ((afterPlan m).get n).zap.get? k = some v := Dict.mem_entries_iff.mp he
  rcases line_cases (ObjDump.exists_of_mem_zap he) k with ⟨hnone, hsame⟩ | ⟨op, hop, hw⟩
  · have hsingle : ((afterPlan m).get n).zap.get? k = (m.get n).zap.get? k :=
      congrArg Line.single hsame
    refine ⟨fun hk => ?_, .inl ⟨Dict.mem_entries_iff.mpr (hsingle.symm.trans hline), hnone⟩⟩
    subst hk
    rw [← numChildren_congr hsame]
    exact hu rfl
  · rcases cellWrite_iff.mp hw with ⟨e, w, rfl, hl⟩ | ⟨c, rfl, hl⟩ | ⟨w, rfl, hl⟩ |
      ⟨e, w, rfl, hk, hl⟩
    · obtain ⟨rfl, rfl, hent, -⟩ := zapSet_mem_ops.mp hop
      have hzero : ((afterPlan m).get mosDirObj).zap.get? k = some 0 := congrArg Line.single hl
      have hv : v = 0 := Option.some.inj (hline.symm.trans hzero)
      exact ⟨uncounted_of_errlog hent.2.1, .inr ⟨hv, e, hent.2.2.2, hent.entry⟩⟩
    · have hnone : ((afterPlan m).get n).zap.get? k = none := congrArg Line.single hl
      cases hline.symm.trans hnone
    · have hnone : ((afterPlan m).get n).zap.get? k = none := congrArg Line.single hl
      cases hline.symm.trans hnone
    · subst hk
      have hf : ((afterPlan m).get n).fields.get? "num_children" = some (.int (toU64 w)) :=
        congrArg Line.field hl
      have hnc := hu rfl
      rw [ObjDump.numChildren, hf] at hnc
      cases hnc

/-- An in-progress scan was in progress before the repair, which did not zero it. -/
theorem scanning_of_afterPlan (h : Live (afterPlan m) .scanning) :
    Live m .scanning ∧ ∀ c, Op.zapZero mosDirObj "scan" c ∉ ops m := by
  unfold Live at h ⊢
  have hex : ((afterPlan m).get mosDirObj).exists_ = true := by
    by_contra hne
    have hgone : (afterPlan m).get mosDirObj = .missing :=
      ObjDump.eq_missing_iff.mpr (by simpa using hne)
    rw [hgone] at h
    cases h
  rw [scanEntry_eq] at h ⊢
  rcases line_cases hex "scan" with ⟨hnone, hsame⟩ | ⟨op, hop, hw⟩
  · refine ⟨hsame ▸ h, fun c hc => ?_⟩
    have := hnone _ hc
    rw [cellWrite_iff.mpr (.inr (.inl ⟨c, rfl, rfl⟩))] at this
    cases this
  · exfalso
    rcases cellWrite_iff.mp hw with
      ⟨e, w, rfl, -⟩ | ⟨c, rfl, hl⟩ | ⟨w, rfl, hl⟩ | ⟨e, w, rfl, hk, -⟩
    · obtain ⟨-, -, hent, -⟩ := zapSet_mem_ops.mp hop
      exact absurd hent.2.1 (by decide)
    · rw [hl] at h
      have hzero : (List.replicate c 0).getD 1 0 = dssScanning := h
      rw [List.getD_eq_getElem?_getD, List.getElem?_replicate] at hzero
      split_ifs at hzero <;> simp [dssScanning] at hzero
    · rw [hl] at h
      cases h
    · exact absurd hk (by decide)

/-- **A repair adds nothing.** -/
theorem live_of_afterPlan {i : Item} (h : Live (afterPlan m) i) : Live m i := by
  cases i with
  | object n => exact (exists_of_afterPlan h).1
  | entry n k =>
    obtain ⟨hu, hs⟩ := h
    obtain ⟨v, hv⟩ := Option.isSome_iff_exists.mp hs
    obtain ⟨hu', ⟨he, -⟩ | ⟨-, e, -, he⟩⟩ := entry_of_afterPlan (Dict.mem_entries_iff.mpr hv) hu
    · exact ⟨hu', by rw [Dict.mem_entries_iff.mp he, Option.isSome_some]⟩
    · exact ⟨hu', by rw [Dict.mem_entries_iff.mp he, Option.isSome_some]⟩
  | nonzero n k =>
    obtain ⟨hu, hne⟩ := h
    obtain ⟨hu', ⟨he, -⟩ | ⟨hv, -⟩⟩ := entry_of_afterPlan (zap_of_getD_ne_zero hne) hu
    · exact ⟨hu', by rw [getD_of_entry he]; exact hne⟩
    · exact absurd hv hne
  | scanning => exact (scanning_of_afterPlan h).1

/-- **An executed operation uses its item up.** -/
theorem not_live_afterPlan {op : Op} {i : Item} (hop : op ∈ ops m) (hi : op.item = some i) :
    ¬ Live (afterPlan m) i := by
  intro h
  cases op with
  | zapSet obj key e w =>
    cases hi
    obtain ⟨-, ⟨-, hnone⟩ | ⟨hv, -⟩⟩ := entry_of_afterPlan (zap_of_getD_ne_zero h.2) h.1
    · have := hnone _ hop
      rw [cellWrite_iff.mpr (.inl ⟨e, w, rfl, rfl⟩)] at this
      cases this
    · exact h.2 hv
  | zapZero obj key c =>
    cases hi
    obtain ⟨rfl, rfl, rfl, -⟩ := zapZero_mem_ops.mp hop
    exact (scanning_of_afterPlan h).2 _ hop
  | zapRemove obj key w =>
    have hcell : ∀ {v}, Entry (afterPlan m) obj key v → Uncounted (afterPlan m) obj key →
        v = 0 ∧ w ≠ 0 := by
      intro v he hu
      obtain ⟨-, ⟨-, hnone⟩ | ⟨hv, e, hne, hent⟩⟩ := entry_of_afterPlan he hu
      · have := hnone _ hop
        rw [cellWrite_iff.mpr (.inr (.inr (.inl ⟨w, rfl, rfl⟩)))] at this
        cases this
      · refine ⟨hv, ?_⟩
        have hw : w = e := (getD_of_entry (planned_entry hop)).symm.trans (getD_of_entry hent)
        rw [hw]
        exact hne
    by_cases hw : w = 0
    · rw [Op.item, if_pos hw] at hi
      cases hi
      obtain ⟨v, hv⟩ := Option.isSome_iff_exists.mp h.2
      exact (hcell (Dict.mem_entries_iff.mpr hv) h.1).2 hw
    · rw [Op.item, if_neg hw] at hi
      cases hi
      exact h.2 (hcell (zap_of_getD_ne_zero h.2) h.1).1
  | bonusSet => cases hi
  | free obj t =>
    cases hi
    exact (exists_of_afterPlan h).2 t hop

/-! ## What a plan needs -/

/-- The fields in which the scanner looks for a ZAP with entries to remove. -/
def zapFields : List String := ["child_dir_zapobj", "clones", "next_clones_obj"]

/-- No object that is referenced as a child map or clones ZAP has a child count. -/
def CountsApart (m : Mos) : Prop :=
  ∀ n, ∀ f ∈ zapFields, ∀ Z, Ref m n f Z → (m.get Z).numChildren = none

theorem ref_of_due (h : Due m n k v) : ∃ D, ∃ f ∈ zapFields, Ref m D f n := by
  obtain ⟨D, -, hd⟩ := h
  cases hd with
  | staleChild hM _ => exact ⟨_, _, by decide, hM⟩
  | clone hZ _ => exact ⟨_, _, by decide, hZ⟩
  | nextClone _ _ hZ _ => exact ⟨_, _, by decide, hZ⟩
  | orphanName _ _ _ hM _ => exact ⟨_, _, by decide, hM⟩
  | orphanNextClone _ _ _ hZ _ => exact ⟨_, _, by decide, hZ⟩
  | orphanClone _ _ _ _ _ hZ _ => exact ⟨_, _, by decide, hZ⟩

/-- A child count after a repair was there before. -/
theorem numChildren_of_afterPlan (h : ((afterPlan m).get n).numChildren ≠ none) :
    (m.get n).numChildren ≠ none := by
  have hex : ((afterPlan m).get n).exists_ = true :=
    ObjDump.exists_of_ne_missing fun hm => h (by rw [hm]; rfl)
  rcases line_cases hex "num_children" with ⟨-, hsame⟩ | ⟨op, hop, hw⟩
  · rwa [numChildren_congr hsame] at h
  · rcases cellWrite_iff.mp hw with ⟨e, w, rfl, -⟩ | ⟨c, rfl, -⟩ | ⟨w, rfl, hl⟩ | ⟨e, w, rfl, -, -⟩
    · obtain ⟨-, -, hent, -⟩ := zapSet_mem_ops.mp hop
      exact absurd hent.2.1 (by decide)
    · exact absurd (zapZero_mem_ops.mp hop).2.1 (by decide)
    · have hf : ((afterPlan m).get n).fields.get? "num_children" = none := congrArg Line.field hl
      rw [ObjDump.numChildren, hf] at h
      exact absurd rfl h
    · rw [bonusSet_numChildren hop]
      exact Option.some_ne_none e

theorem CountsApart.afterPlan (h : CountsApart m) : CountsApart (afterPlan m) := by
  have hfields : ∀ f ∈ zapFields, f ∉ countedKeys := by decide
  intro n f hf Z hZ
  by_contra hne
  exact numChildren_of_afterPlan hne (h n f hf Z (ref_of_after (hfields f hf) hZ))

/-- The item of a planned operation is there. -/
theorem live_of_mem_ops (h : CountsApart m) {op : Op} {i : Item} (hop : op ∈ ops m)
    (hi : op.item = some i) : Live m i := by
  cases op with
  | zapSet obj key e w =>
    cases hi
    obtain ⟨rfl, rfl, he, -⟩ := zapSet_mem_ops.mp hop
    exact ⟨uncounted_of_errlog he.2.1, by rw [getD_of_entry he.entry]; exact he.2.2.2⟩
  | zapZero obj key c =>
    cases hi
    obtain ⟨-, -, -, -, scan, hscan, hst, -⟩ := zapZero_mem_ops.mp hop
    rw [Live, hscan]
    exact hst
  | zapRemove Z key w =>
    have he : Entry m Z key w := planned_entry hop
    obtain ⟨D, f, hf, hZ⟩ := ref_of_due (zapRemove_mem_ops.mp hop)
    by_cases hw : w = 0
    · rw [Op.item, if_pos hw] at hi
      cases hi
      exact ⟨fun _ => h D f hf Z hZ, by rw [Dict.mem_entries_iff.mp he, Option.isSome_some]⟩
    · rw [Op.item, if_neg hw] at hi
      cases hi
      exact ⟨fun _ => h D f hf Z hZ, by rw [getD_of_entry he]; exact hw⟩
  | bonusSet => cases hi
  | free obj t =>
    cases hi
    exact (free_observed hop).1

/-- A plan with operations has one that uses up an item: a child count only goes down with
    a clone reference. -/
theorem exists_item (h : plan m ≠ []) : ∃ op ∈ ops m, ∃ i, op.item = some i := by
  obtain ⟨p, hp⟩ := List.exists_mem_of_ne_nil _ h
  have hop : p.op ∈ ops m := List.mem_map_of_mem hp
  cases hcase : p.op with
  | zapSet obj key e w => exact ⟨_, hcase ▸ hop, _, rfl⟩
  | zapZero obj key c => exact ⟨_, hcase ▸ hop, _, rfl⟩
  | zapRemove obj key w => exact ⟨_, hcase ▸ hop, _, rfl⟩
  | free obj t => exact ⟨_, hcase ▸ hop, _, rfl⟩
  | bonusSet S nc w =>
    rw [hcase] at hop
    have hremove : ∃ Z k v, Due m Z k v := by
      obtain ⟨role, hpl⟩ := mem_ops.mp hop
      cases hpl with
      | errlog hpl => cases hpl
      | dir hD hpl =>
        cases hpl with
        | childCount hH hds hZ hr hn _ =>
          obtain ⟨k, v, hd⟩ := exists_danglingClone hr hn
          exact ⟨_, _, _, _, hD, .nextClone hH hds hZ hd⟩
        | orphanCount hO hOr hr hZ he _ => exact ⟨_, _, _, _, hD, .orphanNextClone hO hOr hr hZ he⟩
    obtain ⟨Z, k, v, hdue⟩ := hremove
    exact ⟨_, zapRemove_mem_ops.mpr hdue, _, rfl⟩

end

/-! ## Any number of repairs -/

/-- The observation after a sequence of repair attempts, each one a scan and a run of the
    surgeon on its plan that applied it or left the pool as it was. -/
def afterRepairs (m : Mos) (applied : List Bool) : Mos := attempts afterPlan m applied

theorem usesUp_afterPlan : UsesUp afterPlan CountsApart (fun m => plan m = []) items where
  keep _ h := h.afterPlan
  subset m i hi := mem_items.mpr (live_of_afterPlan (mem_items.mp hi))
  takes m h hne := by
    obtain ⟨op, hop, i, hi⟩ := exists_item hne
    exact ⟨i, mem_items.mpr (live_of_mem_ops h hop hi),
      fun hm => not_live_afterPlan hop hi (mem_items.mp hm)⟩
  rest m h := by
    have hops : ops m = [] := by rw [ops, h, List.map_nil]
    rw [afterPlan, hops, List.foldl_nil]

variable {m : Mos}

/-- **Repairs end.** With as many repairs as the pool has items, however many attempts fail
    in between, the scan plans nothing more. -/
theorem repairs_end (h : CountsApart m) {applied : List Bool}
    (hl : (items m).card ≤ applied.count true) : plan (afterRepairs m applied) = [] :=
  usesUp_afterPlan.done_attempts h hl

/-- A pool whose interrupted scan has the stale error log `38` for its queue: the first
    plan frees the queue, the second one zeroes the scan. -/
def queuedErrlog : Mos := .ofList
  [(1, (ObjDump.ofLines "object directory" [("errlog_last", 38), ("root_dataset", 32)]
      false).withWords rfl "scan" [1, 1, 38, 0]),
    (32, .ofLines "DSL directory" [] false),
    (38, .ofLines "persistent error log" [("200", 0)] false)]

theorem countsApart_of_uncounted {m : Mos}
    (h : ∀ d ∈ m.objs.entries.map Prod.snd, d.numChildren = none) : CountsApart m := by
  intro n f _ Z _
  by_cases hex : (m.get Z).exists_ = true
  · exact h _ (List.mem_map_of_mem (mem_objs hex))
  · have hgone : m.get Z = .missing := ObjDump.eq_missing_iff.mpr (by simpa using hex)
    rw [hgone]
    rfl

theorem countsApart_queuedErrlog : CountsApart queuedErrlog :=
  countsApart_of_uncounted (by decide +kernel)

/-- `repairs_end` on that pool, which has nine items. -/
theorem repairs_end_queuedErrlog :
    plan (afterRepairs queuedErrlog (false :: List.replicate 9 true)) = [] :=
  repairs_end countsApart_queuedErrlog (by decide +kernel)

end Zhaxx.Repair
