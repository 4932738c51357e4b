import Zhaxx.Scan.Stages

/-!
# Frees and edits

`plan_orphan_removal` removes the references to an orphan before it frees the objects of
the orphan (`scan/zhaxx-scan` lines 446–521), and a stale error log is detached before it is
freed (lines 262–275). The walk then goes on: it looks into the child map and the clones ZAP
of a directory that it has just planned to free (lines 336–342).

Results:
* `mem_ops_stage`: what each check of the scan asks for.
* `editsPrecedeFrees_iff`: no operation of a plan comes behind a free of its object exactly
  when every edit of a freed object is asked for when it is freed or before.
* `danglingOrphan_edited`: an orphan whose child map is freed and then edited.
-/

namespace Zhaxx.Scan

open Traverse (Step State emits)

/-! ## What a check asks for -/

/-- The check of the observed MOS asks for the operation. -/
inductive Asks (m : Mos) : Stage → Op → Prop
  | reset {name : String} {h : ℕ} : ErrlogEntry m name h → Resets m h →
      Asks m (.errlog name) (.zapSet mosDirObj name h 0)
  | errlogHead {name : String} {h : ℕ} : ErrlogEntry m name h → StaleHead m h →
      Asks m (.errlog name) (.free h (m.get h).typeStr)
  | objsetErrlog {name : String} {h : ℕ} {s : Stale} : ErrlogEntry m name h → StaleHead m h →
      s ∈ staleEntries m (m.get h) → (m.get s.perObj).hasType "error log" = true →
      Asks m (.errlog name) (.free s.perObj (m.get s.perObj).typeStr)
  | cursor : StaleScan m → Asks m .cursor (.zapZero mosDirObj "scan" scanWords)
  | head {D : ℕ} {path : String} {op : Op} {role : Option FreeRole} :
      isDirectory (m.get D) = true → HeadPlanned m D op role → Asks m (.head D path) op
  | entry {D M c : ℕ} {path name : String} : Ref m D "child_dir_zapobj" M →
      StaleChild m M name c → Asks m (.entry D path name c) (.zapRemove M name c)
  | clones {D Z v : ℕ} {path k : String} : Ref m D "clones" Z → DanglingClone m Z k v →
      Asks m (.clones D path) (.zapRemove Z k v)

/-- The operation changes its object. -/
def Op.Edits : Op → Prop
  | .free .. => False
  | _ => True

/-- No operation of the plan comes behind a free of its object. -/
def EditsPrecedeFrees (m : Mos) : Prop :=
  ∀ pre p post N t, plan m = pre ++ p :: post → p.op = .free N t → ∀ q ∈ post, q.op.obj ≠ N

/-- Where a check asks for a free of `N`, that check or an earlier one asks for every edit of
    `N` that a later one asks for. -/
def EditsAskedFirst (m : Mos) : Prop :=
  ∀ pre s post, stages m = pre ++ s :: post → ∀ N t, Asks m s (.free N t) →
    ∀ s' ∈ post, ∀ op, Asks m s' op → op.Edits → op.obj = N → ∃ s'' ∈ pre ++ [s], Asks m s'' op

section

variable {m : Mos}

/-! ## Where the checks stand -/

/-- What the place of a check says. -/
def Stage.Placed (m : Mos) : Stage → Prop
  | .errlog name => (m.get mosDirObj).readable = true ∧ name ∈ errlogNames
  | .cursor => (m.get mosDirObj).readable = true
  | .entry D _ name c => ∃ M, Ref m D "child_dir_zapobj" M ∧ StaleChild m M name c
  | .clones D _ => isDirectory (m.get D) = true
  | _ => True

theorem placed_of_emit {n : ℕ × String} {s : Stage} (h : .emit s ∈ dirStages m n) :
    s.Placed m := by
  unfold dirStages at h
  rcases List.mem_cons.mp h with h | h
  · cases h
    trivial
  split_ifs at h with hD
  swap
  · cases h
  rcases List.mem_append.mp h with h | h
  · unfold childrenStages at h
    dsimp only at h
    split_ifs at h with ht hr
    · cases h
    · cases List.mem_singleton.mp h
      trivial
    · obtain ⟨e, he, h⟩ := List.mem_flatMap.mp h
      unfold entryStages at h
      split_ifs at h with hs hc
      · cases h
      · cases List.mem_singleton.mp h
      · cases List.mem_singleton.mp h
        obtain ⟨M, hM, hrM, heM⟩ := (ref_iff (m := m) (n := n.1) (f := "child_dir_zapobj")
          (p := fun d => d.readable = true ∧ e ∈ d.zap.entries)
          fun d h => ObjDump.exists_of_readable h.1).mp
          ⟨by simpa using ht, by simpa using hr, PyStr.mem_sortedItems.mp he⟩
        exact ⟨M, hM, hrM, heM, hs, by simpa using hc⟩
  · cases List.mem_singleton.mp h
    exact hD

theorem placed_of_mem {s : Stage} (h : s ∈ stages m) : s.Placed m := by
  unfold stages at h
  split_ifs at h with h1 h0
  · cases List.mem_singleton.mp h
    trivial
  all_goals
    have h1' : (m.get mosDirObj).readable = true := by simpa using h1
    rcases List.mem_append.mp h with h | h
    · rcases List.mem_append.mp h with h | h
      · obtain ⟨name, hn, rfl⟩ := List.mem_map.mp h
        exact ⟨h1', hn⟩
      · cases List.mem_singleton.mp h
        exact h1'
  · cases List.mem_singleton.mp h
    trivial
  · obtain ⟨t, ht⟩ := Option.isSome_iff_exists.mp (walkStages_isSome (m := m) le_rfl)
    rw [ht] at h
    obtain ⟨-, exp, w, he, -⟩ := Traverse.run_covers _ _ ht
    have hw : s ∈ w := by
      have hout : s ∈ t.out := h
      rwa [he.out] at hout
    obtain ⟨n, -, hn⟩ := (he.mem_out s).mp hw
    exact placed_of_emit hn

/-- The operations of a check. -/
def Stage.ops (m : Mos) (s : Stage) : List Op := (opsOf (s.events m)).map PlanOp.op

/-- What the check of an error-log head asks for. -/
theorem plans_errlog_iff {name : String} {op : Op} (hplaced : (Stage.errlog name).Placed m) :
    (∃ role, Plans ((Stage.errlog name).events m) op role) ↔ Asks m (.errlog name) op := by
  simp only [Stage.events, plans_checkErrlogHead]
  constructor
  · rintro ⟨_, h0, ⟨hr, rfl, rfl⟩ | ⟨hs, ⟨rfl, rfl⟩ | ⟨s, hse, ht, rfl, rfl⟩⟩⟩
    · exact .reset ⟨hplaced.1, hplaced.2, rfl, h0⟩ hr
    · exact .errlogHead ⟨hplaced.1, hplaced.2, rfl, h0⟩ hs
    · exact .objsetErrlog ⟨hplaced.1, hplaced.2, rfl, h0⟩ hs hse ht
  · intro h
    cases h with
    | reset he hr =>
      obtain ⟨-, -, rfl, h0⟩ := he
      exact ⟨_, h0, .inl ⟨hr, rfl, rfl⟩⟩
    | errlogHead he hs =>
      obtain ⟨-, -, rfl, h0⟩ := he
      exact ⟨_, h0, .inr ⟨hs, .inl ⟨rfl, rfl⟩⟩⟩
    | objsetErrlog he hs hse ht =>
      obtain ⟨-, -, rfl, h0⟩ := he
      exact ⟨_, h0, .inr ⟨hs, .inr ⟨_, hse, ht, rfl, rfl⟩⟩⟩

/-- What the check of a head dataset asks for. -/
theorem plans_head_iff {D : ℕ} {path : String} {op : Op} :
    (∃ role, Plans ((Stage.head D path).events m) op role) ↔ Asks m (.head D path) op := by
  have hasks : Asks m (.head D path) op ↔ isDirectory (m.get D) = true ∧
      ∃ role, HeadPlanned m D op role := by
    constructor
    · intro h
      cases h with
      | head hD h => exact ⟨hD, _, h⟩
    · rintro ⟨hD, role, h⟩
      exact .head hD h
  have hevents : ∀ role, Plans ((Stage.head D path).events m) op role ↔
      isDirectory (m.get D) = true ∧ HeadPlanned m D op role := by
    intro role
    unfold Stage.events isDirectory
    dsimp only
    split_ifs with hr ht
    · simp [dirUnreadable, show (m.get D).readable = false by simpa using hr]
    · simp [dirRecycled, show (m.get D).hasType "DSL directory" = false by simpa using ht]
    · have hr' : (m.get D).readable = true := by simpa using hr
      simp [plans_headEvents_iff hr', hr',
        show (m.get D).hasType "DSL directory" = true by simpa using ht]
  rw [hasks]
  simp only [hevents, exists_and_left]

/-- What the check of an entry of a child map asks for. -/
theorem plans_entry_iff {D c : ℕ} {path name : String} {op : Op}
    (hplaced : (Stage.entry D path name c).Placed m) :
    (∃ role, Plans ((Stage.entry D path name c).events m) op role) ↔
      Asks m (.entry D path name c) op := by
  obtain ⟨M, hM, hs⟩ := hplaced
  have hevents : ∀ role, Plans ((Stage.entry D path name c).events m) op role ↔
      op = .zapRemove M name c ∧ role = none := by
    intro role
    unfold Stage.events danglingEntry recycledEntry
    dsimp only
    rw [hM.1]
    split_ifs <;> simp
  simp only [hevents, exists_and_left, exists_eq, and_true]
  constructor
  · rintro rfl
    exact .entry hM hs
  · intro h
    cases h with
    | entry hM' _ => rw [hM.unique hM']

/-- **What a check asks for.** -/
theorem mem_ops_stage {s : Stage} (hs : s ∈ stages m) {op : Op} :
    op ∈ s.ops m ↔ Asks m s op := by
  have hplans : op ∈ s.ops m ↔ ∃ role, Plans (s.events m) op role := by
    unfold Stage.ops
    simp only [plans_iff_opsOf, List.mem_map]
    constructor
    · rintro ⟨p, hp, h⟩; exact ⟨p.role, p, hp, h, rfl⟩
    · rintro ⟨_, p, hp, h, -⟩; exact ⟨p, hp, h⟩
  have hplaced := placed_of_mem hs
  rw [hplans]
  cases s with
  | noMos => exact iff_of_false (by simp [Stage.events, mosUnreadable]) fun h => by cases h
  | noRoot => exact iff_of_false (by simp [Stage.events, noRoot]) fun h => by cases h
  | childmap D path =>
    exact iff_of_false (by simp [Stage.events, childmapUnreadable]) fun h => by cases h
  | cursor =>
    simp only [Stage.events, plans_checkScan hplaced]
    constructor
    · rintro ⟨_, h, rfl, -⟩; exact .cursor h
    · intro h
      cases h with
      | cursor h => exact ⟨_, h, rfl, rfl⟩
  | errlog name => exact plans_errlog_iff hplaced
  | head D path => exact plans_head_iff
  | entry D path name c => exact plans_entry_iff hplaced
  | clones D path =>
    simp only [Stage.events, plans_clonesEvents]
    constructor
    · rintro ⟨_, Z, hZ, k, v, hd, rfl, -⟩; exact .clones hZ hd
    · intro h
      cases h with
      | clones hZ hd => exact ⟨_, _, hZ, _, _, hd, rfl, rfl⟩

theorem map_op_plan :
    (plan m).map PlanOp.op = Firsts.firsts ((stages m).flatMap (Stage.ops m)) := by
  rw [plan, map_op_dedupeOps, run_eq_stages, opsOf_flatMap, List.map_flatMap]
  rfl

/-! ## The order of a plan -/

/-- The second operation is in order behind the first one. -/
def InOrder (a b : Op) : Prop := ∀ N t, a = .free N t → b.Edits → b.obj ≠ N

theorem inOrder_self (a : Op) : InOrder a a := by
  rintro N t rfl h
  exact h.elim

/-- The frees of an object are the same operation. -/
theorem free_unique {N : ℕ} {t t' : String} {p q : PlanOp} (hp : p ∈ plan m) (hq : q ∈ plan m)
    (hpN : p.op = .free N t) (hqN : q.op = .free N t') : p.op = q.op := by
  obtain ⟨role, h⟩ := mem_plan.mp ⟨p, hp, rfl⟩
  obtain ⟨role', h'⟩ := mem_plan.mp ⟨q, hq, rfl⟩
  rw [hpN] at h
  rw [hqN] at h'
  have ht := h.free_observed.2.symm.trans h'.free_observed.2
  rw [hpN, hqN, Option.some.inj ht]

theorem editsPrecedeFrees_iff_pairwise :
    EditsPrecedeFrees m ↔ ((plan m).map PlanOp.op).Pairwise InOrder := by
  have hnodup : ((plan m).map PlanOp.op).Nodup := dedupeOps_nodup _
  constructor
  · intro h
    rw [List.pairwise_map]
    refine Firsts.pairwise_of_split fun pre p post hplan q hq N t hfree _ => ?_
    exact h pre p post N t hplan hfree q hq
  · intro h pre p post N t hplan hfree q hq hobj
    rw [hplan, List.map_append, List.map_cons] at h hnodup
    have hpq := (List.pairwise_cons.mp (List.pairwise_append.mp h).2.1).1 q.op
      (List.mem_map_of_mem hq)
    cases hop : q.op with
    | free N' t' =>
      -- a second free of the object would repeat the first one
      have hpm : p ∈ plan m := by simp [hplan]
      have hqm : q ∈ plan m := by simp [hplan, hq]
      have hfree' : q.op = .free N t' := by
        rw [hop] at hobj ⊢
        exact congrArg (Op.free · t') hobj
      have hsame : p.op = q.op := free_unique hpm hqm hfree hfree'
      exact (List.nodup_cons.mp (List.nodup_append.mp hnodup).2.1).1
        (hsame ▸ List.mem_map_of_mem hq)
    | _ => exact hpq N t hfree (by rw [hop]; trivial) hobj

/-- Edits with frees behind them are in order. -/
theorem inOrder_append {es fs : List Event} (he : ∀ op role, Plans es op role → op.Edits)
    (hf : ∀ op role, Plans fs op role → ¬ op.Edits) :
    ((opsOf (es ++ fs)).map PlanOp.op).Pairwise InOrder := by
  have hmem : ∀ {gs : List Event} {op : Op}, op ∈ (opsOf gs).map PlanOp.op →
      ∃ role, Plans gs op role := by
    intro gs op hop
    obtain ⟨p, hp, rfl⟩ := List.mem_map.mp hop
    exact ⟨p.role, plans_iff_opsOf.mpr ⟨p, hp, rfl, rfl⟩⟩
  have hedits : ∀ {op : Op}, op ∈ (opsOf es).map PlanOp.op → ∀ b, InOrder op b := by
    rintro op hop b N t rfl
    obtain ⟨role, h⟩ := hmem hop
    exact (he _ role h).elim
  rw [opsOf_append, List.map_append, List.pairwise_append]
  refine ⟨List.pairwise_of_forall_mem_list fun a ha b _ => hedits ha b,
    List.pairwise_of_forall_mem_list fun a _ b hb N t _ hb' => ?_, fun a ha b _ => hedits ha b⟩
  obtain ⟨role, h⟩ := hmem hb
  exact absurd hb' (hf b role h)

/-- An error-log head is detached before anything is freed. -/
theorem checkErrlogHead_inOrder (name : String) (h : ℕ) :
    ((opsOf (checkErrlogHead m name h)).map PlanOp.op).Pairwise InOrder := by
  have hreset : ∀ es : List Event, (∀ op role, Plans es op role →
      op = .zapSet mosDirObj name h 0) → ∀ op role, Plans es op role → op.Edits := by
    intro es hes op role hop
    rw [hes op role hop]
    trivial
  unfold checkErrlogHead
  dsimp only
  split_ifs
  · exact .nil
  · exact List.pairwise_singleton _ _
  · exact List.pairwise_singleton _ _
  · exact .nil
  · rw [← List.singleton_append, ← List.append_assoc, List.append_assoc _ _ (List.flatMap _ _)]
    refine inOrder_append (hreset _ fun op role hop => ?_) fun op role hop => ?_
    · rw [plans_append, or_iff_right plans_map_add, plans_cons_addOp] at hop
      exact (hop.resolve_right not_plans_nil).1
    · rw [List.singleton_append, plans_cons_addOp, plans_flatMap] at hop
      rcases hop with ⟨rfl, -⟩ | ⟨s, -, hop⟩
      · exact not_false
      · rw [(plans_freeObjsetErrlog.mp hop).2.1]
        exact not_false

/-- References to an orphan are removed before it is freed. -/
theorem planOrphanRemoval_inOrder (D H : ℕ) (path : String) :
    ((opsOf (planOrphanRemoval m (.int H) (some D) path)).map PlanOp.op).Pairwise InOrder := by
  unfold planOrphanRemoval
  dsimp only
  split_ifs
  · exact .nil
  refine inOrder_append (fun op role hop => ?_) fun op role hop => ?_
  · rw [plans_append, plans_orphanNamespace, plans_orphanCloneRefs] at hop
    rcases hop with ⟨_, _, _, _, _, _, _, rfl, -⟩ | ⟨_, _, _, hop | hop⟩
    · trivial
    · obtain ⟨_, _, _, _, ⟨rfl, -⟩ | ⟨_, _, rfl, -⟩⟩ := plans_orphanNextClones.mp hop
      · trivial
      · trivial
    · obtain ⟨_, _, _, _, _, _, _, rfl, -⟩ := plans_orphanDirClones.mp hop
      trivial
  · obtain ⟨_, -, hop⟩ := plans_flatMap.mp hop
    obtain ⟨_, _, _, _, _, rfl, -⟩ := plans_freeStructure.mp hop
    exact not_false

theorem headEvents_inOrder (D : ℕ) (path : String) :
    ((opsOf (headEvents m D path)).map PlanOp.op).Pairwise InOrder := by
  unfold headEvents
  dsimp only
  split_ifs with ht
  swap
  · exact .nil
  cases (m.get D).ref "head_dataset_obj" with
  | str s => exact .nil
  | int H =>
    unfold checkDataset
    dsimp only
    split_ifs
    · exact .nil
    · exact planOrphanRemoval_inOrder D H _
    · exact .nil
    · rw [← List.append_nil (_ ++ _)]
      refine inOrder_append (fun op role hop => ?_) fun op role hop => absurd hop not_plans_nil
      rw [plans_append, or_iff_left not_plans_checkDatasetRefs, Mos.fetch_int,
        plans_checkNextClones] at hop
      obtain ⟨_, _, ⟨_, _, _, rfl, -⟩ | ⟨_, _, _, _, rfl, -⟩⟩ := hop
      · trivial
      · trivial

/-- What a check asks for is in order: edits come before frees. -/
theorem stage_inOrder {s : Stage} (hs : s ∈ stages m) : (s.ops m).Pairwise InOrder := by
  have hall : (∀ op, Asks m s op → op.Edits) → (s.ops m).Pairwise InOrder := fun h =>
    List.pairwise_of_forall_mem_list fun a ha b _ N t hfree => by
      have hedits := h a ((mem_ops_stage hs).mp ha)
      rw [hfree] at hedits
      exact hedits.elim
  cases s with
  | errlog name => exact checkErrlogHead_inOrder name _
  | head D path =>
    unfold Stage.ops Stage.events
    dsimp only
    split_ifs
    · exact .nil
    · exact .nil
    · exact headEvents_inOrder D path
  | _ =>
    refine hall fun op hop => ?_
    cases hop
    all_goals trivial

/-- **Edits and frees.** No operation of a plan comes behind a free of its object exactly
    when every edit of a freed object is asked for by the check that frees it or before. -/
theorem editsPrecedeFrees_iff (m : Mos) : EditsPrecedeFrees m ↔ EditsAskedFirst m := by
  rw [editsPrecedeFrees_iff_pairwise, map_op_plan, Firsts.pairwise_firsts_iff inOrder_self,
    Firsts.settled_flatMap_iff inOrder_self fun s hs => stage_inOrder hs]
  unfold EditsAskedFirst
  refine forall₃_congr fun pre s post => forall_congr' fun hsplit => ?_
  have hmem : ∀ s' ∈ pre ++ s :: post, ∀ op, op ∈ s'.ops m ↔ Asks m s' op :=
    fun s' hs' op => mem_ops_stage (hsplit ▸ hs')
  have hfirst : ∀ op, (∃ s'' ∈ pre ++ [s], op ∈ s''.ops m) ↔ ∃ s'' ∈ pre ++ [s], Asks m s'' op := by
    intro op
    refine exists_congr fun s'' => and_congr_right fun hs'' => hmem s'' ?_ op
    rw [← List.singleton_append, ← List.append_assoc]
    exact List.mem_append_left _ hs''
  constructor
  · intro h N t hfree s' hs' op hop hedits hobj
    have hin := h _ ((hmem s (by simp) _).mpr hfree) s' hs' op ((hmem s' (by simp [hs']) _).mpr hop)
    exact (hfirst op).mp (hin.resolve_left fun hin => hin N t rfl hedits hobj)
  · intro h a ha s' hs' b hb
    by_cases hab : InOrder a b
    · exact .inl hab
    · unfold InOrder at hab
      push Not at hab
      obtain ⟨N, t, rfl, hedits, hobj⟩ := hab
      exact .inr ((hfirst b).mpr (h N t ((hmem s (by simp) _).mp ha) s' hs' b
        ((hmem s' (by simp [hs']) _).mp hb) hedits hobj))

end

/-- An orphan with a child map of its own, one of whose entries leads nowhere. -/
def danglingOrphan : Mos := .ofList
  [(1, .ofLines "object directory" [("root_dataset", 32)] false),
    (32, .ofLines "DSL directory" [("child_dir_zapobj", 34)] false),
    (34, .ofLines "DSL directory child map" [("orphan-9f3c1d", 670)] false),
    (670, .ofLines "DSL directory"
      [("parent_dir_obj", 32), ("head_dataset_obj", 673), ("child_dir_zapobj", 675)] false),
    (673, .ofLines "DSL dataset" [] true),
    (675, .ofLines "DSL directory child map" [("lost", 700)] false)]

/-- **A child map is freed and then edited.** -/
theorem danglingOrphan_edited :
    (plan danglingOrphan).map PlanOp.op =
        [.zapRemove 34 "orphan-9f3c1d" 670, .free 670 "DSL directory",
          .free 675 "DSL directory child map", .zapRemove 675 "lost" 700] ∧
      ¬ EditsPrecedeFrees danglingOrphan := by
  have hplan : (plan danglingOrphan).map PlanOp.op =
      [.zapRemove 34 "orphan-9f3c1d" 670, .free 670 "DSL directory",
        .free 675 "DSL directory child map", .zapRemove 675 "lost" 700] := by
    decide +kernel
  refine ⟨hplan, fun h => ?_⟩
  rw [editsPrecedeFrees_iff_pairwise, hplan] at h
  have hlast := h.of_cons.of_cons
  exact List.rel_of_pairwise_cons hlast (List.mem_singleton_self _) 675 _ rfl trivial rfl

end Zhaxx.Scan
