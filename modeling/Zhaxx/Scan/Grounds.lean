import Zhaxx.Scan.Capture

/-!
# Grounds of a planned removal

The scanner writes a comment above each operation that says why it is planned. The walk
drops a namespace entry because it is `dangling` or `stale`, and a clone reference because
the clone is `freed`, `unreadable` or `recycled` (`scan/zhaxx-scan` lines 351–370 and
422–438).

Results:
* `DirEvent`, `dirEvent_of_mem`: what the walk of one directory can append.
* `ErrlogEvent`, `errlogEvent_of_mem`: what the error-log check of one head can append.
* `danglingName_mem_run`, `staleName_mem_run`, `droppedClone_mem_run`: which removals are
  planned on each of these grounds.
* `recycledHead_mem_run`: which heads are reported as recycled.
-/

namespace Zhaxx.Scan

open Traverse (emits)

/-! ## Comments -/

/-- The comment of a removal whose target does not exist (line 359). -/
def danglingName (name : String) : String := s!"drop dangling namespace entry '{name}'"

/-- The comment of a removal whose target is no directory (line 368). -/
def staleName (name : String) : String := s!"drop stale namespace entry '{name}' (recycled ID)"

/-- The comment of the removal of a clone reference (line 437). -/
def droppedClone (why path : String) : String := s!"drop {why} clone reference from {path}"

/-- The character behind `drop `. It tells the comments apart. -/
def groundChar (s : String) : Option Char := s.toList[5]?

theorem groundChar_append {s t : String} {c : Char} (h : groundChar s = some c) :
    groundChar (s ++ t) = some c := by
  unfold groundChar at h ⊢
  obtain ⟨hlt, -⟩ := List.getElem?_eq_some_iff.mp h
  rw [String.toList_append, List.getElem?_append_left hlt]
  exact h

theorem groundChar_danglingName (name : String) : groundChar (danglingName name) = some 'd' :=
  groundChar_append (groundChar_append (s := "drop dangling namespace entry '") (by decide))

theorem groundChar_staleName (name : String) : groundChar (staleName name) = some 's' :=
  groundChar_append (groundChar_append (s := "drop stale namespace entry '") (by decide))

/-- The three reasons of `check_clones_zap` differ in their first character. -/
theorem groundChar_droppedClone (c : ObjDump) (path : String) :
    groundChar (droppedClone (cloneWhy c) path) =
      if c.exists_ = false then some 'f'
      else if c.unreadable = true then some 'u' else some 'r' := by
  have hpath : ∀ {why : String} {x : Char}, groundChar ("drop " ++ why) = some x →
      groundChar (droppedClone why path) = some x :=
    fun h => groundChar_append (groundChar_append h)
  have hfreed : groundChar ("drop " ++ "freed") = some 'f' := by decide
  have hunreadable : groundChar ("drop " ++ "unreadable (EIO)") = some 'u' := by decide
  have hrecycled : groundChar ("drop " ++ s!"recycled (type '{c.typeStr}')") = some 'r' := by
    have hlit : groundChar ("drop " ++ "recycled (type '") = some 'r' := by decide
    have happ : "drop " ++ s!"recycled (type '{c.typeStr}')" =
        "drop " ++ "recycled (type '" ++ c.typeStr ++ "')" := by
      simp only [toString_string, String.append_assoc]
    rw [happ]
    exact groundChar_append (groundChar_append hlit)
  unfold cloneWhy
  cases c.exists_ with
  | false => exact hpath hfreed
  | true =>
    cases c.unreadable with
    | true => exact hpath hunreadable
    | false => exact hpath hrecycled

/-! ## What one directory appends -/

/-- The finding for a dangling clone reference (lines 433–435). -/
def cloneFinding (Z : ℕ) (k : String) (v : ℕ) (why path : String) : Finding :=
  ⟨.critical, .int Z,
    s!"clones ZAP {Z} ({path}) entry '{k}' -> {v} is {why}; clone enumeration " ++
      "on import will fail on it"⟩

/-- The finding for a head of the wrong type (lines 387–389). -/
def recycledHead (m : Mos) (H : ℕ) (path : String) : Finding :=
  ⟨.warning, .int H,
    s!"dataset object {H} ({path}) has type '{(m.get H).typeStr}', expected DSL dataset"⟩

/-- What the walk appends for the directory `D`. -/
inductive DirEvent (m : Mos) (D : ℕ) : Event → Prop
  | critical {v : FieldVal} {t : String} : DirEvent m D (add .critical v t)
  | recycledHead {H : ℕ} {path : String} : Ref m D "head_dataset_obj" H →
      (m.get H).readable = true → (m.get H).hasType "DSL dataset" = false →
      DirEvent m D (.finding (recycledHead m H path))
  | warning {v : FieldVal} {t : String} : t.toList.getLast? ≠ some 't' →
      DirEvent m D (add .warning v t)
  | danglingChild {M c : ℕ} {name : String} : Ref m D "child_dir_zapobj" M →
      StaleChild m M name c → (m.get c).exists_ = false →
      DirEvent m D (addOp (.zapRemove M name c) (danglingName name))
  | staleChild {M c : ℕ} {name : String} : Ref m D "child_dir_zapobj" M →
      StaleChild m M name c → (m.get c).exists_ = true →
      DirEvent m D (addOp (.zapRemove M name c) (staleName name))
  | clone {Z v : ℕ} {k path : String} : ClonesOf m D Z → DanglingClone m Z k v →
      DirEvent m D (addOp (.zapRemove Z k v) (droppedClone (cloneWhy (m.get v)) path))
  | other {p : PlanOp} : groundChar p.comment = some 'e' ∨ (∀ Z k v, p.op ≠ .zapRemove Z k v) →
      DirEvent m D (.op p)

section

variable {m : Mos} {D : ℕ} {path : String} {e : Event}

/-- How a text ends. -/
theorem getLast?_append_string {s t : String} {c : Char} (ht : t.toList.getLast? = some c) :
    (s ++ t).toList.getLast? = some c := by
  rw [String.toList_append, List.getLast?_append, ht, Option.some_or]

/-- How a text starts. -/
theorem head?_append_string {s t : String} {c : Char} (hs : s.toList.head? = some c) :
    (s ++ t).toList.head? = some c := by
  rw [String.toList_append, List.head?_append, hs, Option.some_or]

theorem dirEvent_orphanNamespace {D' : ℕ} {d : ObjDump} (h : e ∈ orphanNamespace m D' d) :
    DirEvent m D e := by
  unfold orphanNamespace at h
  dsimp only at h
  split_ifs at h
  all_goals first
    | exact absurd h List.not_mem_nil
    | obtain ⟨e', -, rfl⟩ := List.mem_map.mp h
      exact .other (.inl (groundChar_append (groundChar_append (by decide))))

theorem dirEvent_orphanNextClones {v origin : FieldVal} {o : ObjDump}
    (h : e ∈ orphanNextClones m v origin o) : DirEvent m D e := by
  unfold orphanNextClones at h
  dsimp only at h
  split_ifs at h
  · exact absurd h List.not_mem_nil
  · obtain ⟨e', -, h⟩ := List.mem_flatMap.mp h
    rcases List.mem_cons.mp h with rfl | h
    · exact .other (.inl (by dsimp only; decide))
    · cases hn : o.numChildren with
      | none => rw [hn] at h; exact absurd h List.not_mem_nil
      | some nc =>
        rw [hn] at h
        rw [List.mem_singleton.mp h]
        exact .other (.inr fun Z k v => nofun)

theorem dirEvent_orphanDirClones {v : FieldVal} {o : ObjDump} (h : e ∈ orphanDirClones m v o) :
    DirEvent m D e := by
  unfold orphanDirClones at h
  dsimp only at h
  split_ifs at h
  all_goals first
    | exact absurd h List.not_mem_nil
    | obtain ⟨e', -, rfl⟩ := List.mem_map.mp h
      exact .other (.inl (by dsimp only; decide))

theorem dirEvent_freeStructure {role : FreeRole} {v : FieldVal}
    (h : e ∈ freeStructure m path role v) : DirEvent m D e := by
  unfold freeStructure at h
  dsimp only at h
  split_ifs at h
  · exact absurd h List.not_mem_nil
  · rw [List.mem_singleton.mp h]
    exact .warning (by rw [getLast?_append_string (c := '.') (by decide)]; decide)
  · rw [List.mem_singleton.mp h]
    exact .other (.inr fun Z k v => nofun)
  · rw [List.mem_singleton.mp h]
    exact .warning (by rw [getLast?_append_string (c := 'g') (by decide)]; decide)
  · exact absurd h List.not_mem_nil

theorem dirEvent_planOrphanRemoval {v : FieldVal} {dir : Option ℕ}
    (h : e ∈ planOrphanRemoval m v dir path) : DirEvent m D e := by
  unfold planOrphanRemoval at h
  cases dir with
  | none => exact absurd h List.not_mem_nil
  | some D' =>
    dsimp only at h
    split_ifs at h
    · exact absurd h List.not_mem_nil
    · unfold orphanCloneRefs at h
      dsimp only at h
      rcases List.mem_append.mp h with h | h
      · rcases List.mem_append.mp h with h | h
        · exact dirEvent_orphanNamespace h
        · split_ifs at h
          · exact absurd h List.not_mem_nil
          · exact absurd h List.not_mem_nil
          · rcases List.mem_append.mp h with h | h
            · exact dirEvent_orphanNextClones h
            · exact dirEvent_orphanDirClones h
      · obtain ⟨r, -, h⟩ := List.mem_flatMap.mp h
        exact dirEvent_freeStructure h

theorem dirEvent_checkDatasetRefs {v : FieldVal} {ds : ObjDump}
    (h : e ∈ checkDatasetRefs m v ds path) : DirEvent m D e := by
  unfold checkDatasetRefs at h
  dsimp only at h
  rcases List.mem_append.mp h with h | h
  · split_ifs at h
    · rw [List.mem_singleton.mp h]
      exact .critical
    · exact absurd h List.not_mem_nil
  · obtain ⟨f, -, h⟩ := List.mem_flatMap.mp h
    split_ifs at h
    · rw [List.mem_singleton.mp h]
      exact .warning (by rw [getLast?_append_string (c := 'g') (by decide)]; decide)
    · exact absurd h List.not_mem_nil

/-- The clones ZAPs the walk of `D` looks at lead to its events. -/
theorem dirEvent_checkClonesZap {v : FieldVal}
    (hv : ∀ Z, v = .int Z → (m.get Z).readable = true → ClonesOf m D Z)
    (h : e ∈ (checkClonesZap m v path).2) : DirEvent m D e := by
  cases v with
  | str s =>
    rw [List.mem_singleton.mp h]
    exact .critical
  | int Z =>
    unfold checkClonesZap at h
    dsimp only [Mos.fetch_int] at h
    split_ifs at h with hr
    · rw [List.mem_singleton.mp h]
      exact .critical
    · have hr : (m.get Z).readable = true := by simpa using hr
      obtain ⟨⟨k, w⟩, he, h⟩ := List.mem_flatMap.mp h
      rcases List.mem_cons.mp h with rfl | h
      · exact .critical
      · rw [List.mem_singleton.mp h]
        simp only [danglingClones, List.mem_filter, PyStr.mem_sortedItems, Bool.not_eq_true'] at he
        exact .clone (hv Z rfl hr) ⟨hr, he.1, he.2⟩

theorem dirEvent_checkNextClones {H : ℕ} (hH : Ref m D "head_dataset_obj" H)
    (hds : isDataset (m.get H) = true) (h : e ∈ checkNextClones m (.int H) (m.get H) path) :
    DirEvent m D e := by
  unfold checkNextClones at h
  dsimp only at h
  by_cases ht : ((m.get H).ref "next_clones_obj").truthy = true
  · have hzap : ∀ Z, (m.get H).ref "next_clones_obj" = .int Z → (m.get Z).readable = true →
        ClonesOf m D Z := fun Z hZ _ => .inr ⟨H, hH, hds, hZ, by simpa [hZ] using ht⟩
    rw [if_neg (by simpa using ht)] at h
    rcases List.mem_append.mp h with h | h
    · exact dirEvent_checkClonesZap hzap h
    · cases hn : (m.get H).numChildren with
      | none => rw [hn] at h; exact absurd h List.not_mem_nil
      | some nc =>
        rw [hn] at h
        dsimp only at h
        split_ifs at h
        · rw [List.mem_singleton.mp h]
          exact .other (.inr fun Z k v => nofun)
        · exact absurd h List.not_mem_nil
  · rw [if_pos (by simpa using ht)] at h
    exact absurd h List.not_mem_nil

theorem dirEvent_checkDataset {H : ℕ} (hH : Ref m D "head_dataset_obj" H)
    (h : e ∈ checkDataset m (.int H) path (some D)) : DirEvent m D e := by
  unfold checkDataset at h
  dsimp only [Mos.fetch_int] at h
  split_ifs at h with he hu hty
  · rw [List.mem_singleton.mp h]
    exact .critical
  · rcases List.mem_cons.mp h with rfl | h
    · exact .critical
    · exact dirEvent_planOrphanRemoval h
  · rw [List.mem_singleton.mp h]
    exact .recycledHead hH (ObjDump.readable_iff.mpr ⟨by simpa using he, by simpa using hu⟩)
      (by simpa using hty)
  · have hds : isDataset (m.get H) = true := isDataset_iff.mpr
      ⟨ObjDump.readable_iff.mpr ⟨by simpa using he, by simpa using hu⟩, by simpa using hty⟩
    rcases List.mem_append.mp h with h | h
    · exact dirEvent_checkNextClones hH hds h
    · exact dirEvent_checkDatasetRefs h

theorem dirEvent_headEvents (h : e ∈ headEvents m D path) : DirEvent m D e := by
  unfold headEvents at h
  dsimp only at h
  cases href : (m.get D).ref "head_dataset_obj" with
  | str s =>
    rw [href] at h
    split_ifs at h
    · rw [List.mem_singleton.mp h]
      exact .critical
    · exact absurd h List.not_mem_nil
  | int H =>
    rw [href] at h
    split_ifs at h with ht
    · exact dirEvent_checkDataset ⟨href, by simpa using ht⟩ h
    · exact absurd h List.not_mem_nil

theorem dirEvent_clonesEvents (h : e ∈ clonesEvents m D path) : DirEvent m D e := by
  unfold clonesEvents at h
  dsimp only at h
  split_ifs at h with ht
  · refine dirEvent_checkClonesZap (fun Z hZ _ => .inl ⟨hZ, ?_⟩) h
    rw [hZ] at ht
    simpa using ht
  · exact absurd h List.not_mem_nil

theorem dirEvent_childSteps {M c : ℕ} {name : String} (hM : Ref m D "child_dir_zapobj" M)
    (hr : (m.get M).readable = true) (he : Entry m M name c)
    (h : e ∈ emits (childSteps m (.int M) path name c)) : DirEvent m D e := by
  unfold childSteps at h
  split_ifs at h with hs hex hty
  · exact absurd h List.not_mem_nil
  · have hex : (m.get c).exists_ = false := by simpa using hex
    have hstale : StaleChild m M name c :=
      ⟨hr, he, hs, ObjDump.hasType_of_not_exists (by decide) hex⟩
    rw [Traverse.emits_map_emit] at h
    rcases List.mem_cons.mp h with rfl | h
    · exact .critical
    · rw [List.mem_singleton.mp h]
      exact .danglingChild hM hstale hex
  · rw [Traverse.emits_map_emit] at h
    rcases List.mem_cons.mp h with rfl | h
    · exact .critical
    · rw [List.mem_singleton.mp h]
      exact .staleChild hM ⟨hr, he, hs, by simpa using hty⟩ (by simpa using hex)
  · exact absurd h List.not_mem_nil

theorem dirEvent_childrenSteps (h : e ∈ emits (childrenSteps m D path)) : DirEvent m D e := by
  unfold childrenSteps childmapSteps at h
  dsimp only at h
  split_ifs at h with ht hr
  · rw [List.mem_singleton.mp h]
    exact .critical
  · cases href : (m.get D).ref "child_dir_zapobj" with
    | str s => rw [href] at hr; exact absurd rfl hr
    | int M =>
      rw [href] at h ht hr
      rw [Traverse.mem_emits] at h
      obtain ⟨⟨name, c⟩, he, h⟩ := List.mem_flatMap.mp h
      exact dirEvent_childSteps ⟨href, by simpa using ht⟩ (by simpa using hr)
        (PyStr.mem_sortedItems.mp he) (Traverse.mem_emits.mpr h)
  · exact absurd h List.not_mem_nil

/-- **What the walk of a directory appends.** -/
theorem dirEvent_of_mem (h : e ∈ dirEvents m (D, path)) : DirEvent m D e := by
  unfold dirEvents dirSteps at h
  dsimp only at h
  split_ifs at h
  · rw [List.mem_singleton.mp h]
    exact .critical
  · rw [List.mem_singleton.mp h]
    exact .critical
  · rw [Traverse.emits_append, Traverse.emits_append, Traverse.emits_map_emit,
      Traverse.emits_map_emit, List.mem_append, List.mem_append] at h
    rcases h with h | h | h
    · exact dirEvent_headEvents h
    · exact dirEvent_childrenSteps h
    · exact dirEvent_clonesEvents h

end

section

variable {m : Mos}

/-! ## The whole scan -/

theorem run_of_unreadable (h1 : (m.get mosDirObj).readable = false) :
    ∃ t, run m = [add .critical (.int mosDirObj) t] := by
  have hrun : runFuel m (m.objs.entries.length + 1) = some (run m) := by simp [run]
  unfold runFuel at hrun
  dsimp only at hrun
  rw [if_pos (by simp [h1])] at hrun
  exact ⟨_, (Option.some.inj hrun).symm⟩

/-- **Where an event of a scan comes from**, when it is no critical finding. -/
theorem run_event {e : Event} (h : e ∈ run m) (hc : ∀ v t, e ≠ add .critical v t) :
    (m.get mosDirObj).readable = true ∧ (e ∈ checkErrlog m (m.get mosDirObj) ∨
      e ∈ checkScan m (m.get mosDirObj) ∨ ∃ D, Reached m D ∧ DirEvent m D e) := by
  by_cases h1 : (m.get mosDirObj).readable = true
  · refine ⟨h1, ?_⟩
    obtain ⟨nodes, log, hw, hrun⟩ := run_walks h1
    rw [hrun, List.mem_append, List.mem_append, List.mem_append, hw.mem_log] at h
    rcases h with (h | h) | ⟨⟨D, path⟩, hn, h⟩ | h
    · exact .inl h
    · exact .inr (.inl h)
    · refine .inr (.inr ⟨D, ?_, dirEvent_of_mem h⟩)
      refine reached_iff_walked.mpr ⟨(hw.mem_nodes D).mp (List.mem_map_of_mem hn), ?_⟩
      by_contra hdir
      unfold dirEvents dirSteps at h
      unfold isDirectory at hdir
      split_ifs at h with hr ht
      · exact hc _ _ (List.mem_singleton.mp h)
      · exact hc _ _ (List.mem_singleton.mp h)
      · simp only [Bool.not_eq_true', Bool.not_eq_false] at hr ht
        simp [hr, ht] at hdir
    · split_ifs at h
      · exact absurd (List.mem_singleton.mp h) (hc _ _)
      · exact absurd h List.not_mem_nil
  · obtain ⟨t, ht⟩ := run_of_unreadable (m := m) (by simpa using h1)
    rw [ht] at h
    exact absurd (List.mem_singleton.mp h) (hc _ _)

/-- The walk of a reached directory is part of the scan. -/
theorem exists_path {D : ℕ} (hD : Reached m D) :
    ∃ path, ∀ e ∈ dirEvents m (D, path), e ∈ run m := by
  have h1 := hD.readable_mos
  obtain ⟨nodes, log, hw, hrun⟩ := run_walks h1
  obtain ⟨⟨D, path⟩, hn, rfl⟩ :=
    List.mem_map.mp ((hw.mem_nodes D).mpr (reached_iff_walked.mp hD).1)
  refine ⟨path, fun e he => ?_⟩
  rw [hrun]
  exact List.mem_append_right _ (List.mem_append_left _ ((hw.mem_log e).mpr ⟨_, hn, he⟩))

/-- A removal is appended by the walk. -/
theorem zapRemove_event {Z v : ℕ} {k c : String} {role : Option FreeRole}
    (h : .op ⟨.zapRemove Z k v, c, role⟩ ∈ run m) :
    ∃ D, Reached m D ∧ DirEvent m D (.op ⟨.zapRemove Z k v, c, role⟩) := by
  obtain ⟨h1, he | hs | hd⟩ := run_event h fun v t => nofun
  · cases (plans_checkErrlog h1).mp ⟨c, he⟩
  · cases ((plans_checkScan h1).mp ⟨c, hs⟩).2.1
  · exact hd

/-! ## What the error-log and scan checks report -/

/-- The finding for an error log without stale entries (lines 253–257). -/
def normalLog (name : String) (h : ℕ) : Finding :=
  ⟨.info, .int h,
    s!"{name} = {h}: entries present but all referenced objsets are readable " ++
      "(a normal error log; no action)"⟩

/-- What `check_errlog` appends for the head `h`. -/
inductive ErrlogEvent (m : Mos) (name : String) (h : ℕ) : Event → Prop
  | critical {v : FieldVal} {t : String} : ErrlogEvent m name h (add .critical v t)
  | normal : h ≠ 0 → (m.get h).hasType "error log" = true → staleEntries m (m.get h) = [] →
      ErrlogEvent m name h (.finding (normalLog name h))
  | detach {c : String} : c.toList.head? ≠ some 'b' →
      ErrlogEvent m name h (addOp (.zapSet mosDirObj name h 0) c)
  | broken : StaleHead m h → ErrlogEvent m name h
      (addOp (.zapSet mosDirObj name h 0) s!"break the {name} error-log chain")
  | free {N : ℕ} {T c : String} {role : Option FreeRole} :
      ErrlogEvent m name h (addOp (.free N T) c role)
  | warning {v : FieldVal} {t : String} : t.toList.getLast? = some 'g' →
      ErrlogEvent m name h (add .warning v t)

theorem errlogEvent_freeObjset {name : String} {h : ℕ} {s : Stale} {e : Event}
    (he : e ∈ freeObjsetErrlog m s) : ErrlogEvent m name h e := by
  unfold freeObjsetErrlog at he
  dsimp only at he
  split_ifs at he
  · rw [List.mem_singleton.mp he]
    exact .free
  · rw [List.mem_singleton.mp he]
    exact .warning (getLast?_append_string (by decide))
  · exact absurd he List.not_mem_nil

/-- **What the error-log check appends.** -/
theorem errlogEvent_of_mem {name : String} {h : ℕ} {e : Event}
    (he : e ∈ checkErrlogHead m name h) : ErrlogEvent m name h e := by
  unfold checkErrlogHead at he
  dsimp only at he
  split_ifs at he with h0 hx ht hs
  · exact absurd he List.not_mem_nil
  · rcases List.mem_cons.mp he with rfl | he
    · exact .critical
    · have hhead : (s!"clear dangling {name} reference").toList.head? = some 'c' := by
        iterate 2 refine head?_append_string ?_
        decide
      rw [List.mem_singleton.mp he]
      exact .detach (by rw [hhead]; decide)
  · rcases List.mem_cons.mp he with rfl | he
    · exact .critical
    · have hhead : (s!"detach {name} from recycled object (leave the object itself alone)"
          ).toList.head? = some 'd' := by
        iterate 2 refine head?_append_string ?_
        decide
      rw [List.mem_singleton.mp he]
      exact .detach (by rw [hhead]; decide)
  · rw [List.mem_singleton.mp he]
    exact .normal h0 (by simpa using ht) (by simpa using hs)
  · rcases List.mem_append.mp he with he | he
    · rcases List.mem_append.mp he with he | he
      · obtain ⟨s, -, rfl⟩ := List.mem_map.mp he
        exact .critical
      · rcases List.mem_cons.mp he with rfl | he
        · exact .broken ⟨by simpa using ht, by simpa using hs⟩
        · rw [List.mem_singleton.mp he]
          exact .free
    · obtain ⟨s, -, he⟩ := List.mem_flatMap.mp he
      exact errlogEvent_freeObjset he

theorem finding_checkErrlogHead {name : String} {h : ℕ} {f : Finding}
    (hf : .finding f ∈ checkErrlogHead m name h) :
    f.severity = .critical ∨
      (f.severity = .warning ∧ f.message.toList.getLast? = some 'g') ∨
      (f = normalLog name h ∧ h ≠ 0 ∧ (m.get h).hasType "error log" = true ∧
        staleEntries m (m.get h) = []) := by
  have hevent := errlogEvent_of_mem hf
  generalize he : Event.finding f = e at hevent
  cases hevent with
  | critical => exact .inl (Event.finding.inj he ▸ rfl)
  | normal h0 ht hst => exact .inr (.inr ⟨Event.finding.inj he, h0, ht, hst⟩)
  | detach => cases he
  | broken => cases he
  | free => cases he
  | warning hg =>
    rw [Event.finding.inj he]
    exact .inr (.inl ⟨rfl, hg⟩)

theorem finding_checkErrlog {mos : ObjDump} {f : Finding}
    (hf : .finding f ∈ checkErrlog m mos) : ∃ name ∈ errlogNames,
      .finding f ∈ checkErrlogHead m name (mos.zap.getD name 0) := by
  obtain ⟨name, hn, hf⟩ := List.mem_flatMap.mp hf
  exact ⟨name, hn, hf⟩

theorem finding_checkScan {mos : ObjDump} {f : Finding} (hf : .finding f ∈ checkScan m mos) :
    f.severity = .critical ∨
      (f.severity = .info ∧ f.message.toList.head? = some 's') := by
  unfold checkScan at hf
  cases hs : scanEntry mos with
  | none => rw [hs] at hf; exact absurd hf List.not_mem_nil
  | some scan =>
    rw [hs] at hf
    dsimp only at hf
    split_ifs at hf with hst hq hp hp
    · exact absurd hf List.not_mem_nil
    · rcases List.mem_append.mp hf with hf | hf
      · obtain ⟨p, -, hf⟩ := List.mem_map.mp hf
        exact .inl (Event.finding.inj hf ▸ rfl)
      · rcases List.mem_cons.mp hf with hf | hf
        · exact .inl (Event.finding.inj hf ▸ rfl)
        · cases List.mem_singleton.mp hf
    · exact absurd (List.cons_ne_nil _ _) hp
    · exact absurd rfl hp
    · rw [Event.finding.inj (List.mem_singleton.mp hf)]
      have hlit : (toString "scan in progress (func=").toList.head? = some 's' := by decide
      refine .inr ⟨rfl, ?_⟩
      iterate 6 refine head?_append_string ?_
      exact hlit

/-! ## Which checks a reached directory has -/

section

variable {D : ℕ} (hD : Reached m D)

include hD

theorem checkDataset_subset_run {H : ℕ} (hH : Ref m D "head_dataset_obj" H) :
    ∃ path, ∀ e ∈ checkDataset m (.int H) path (some D), e ∈ run m := by
  obtain ⟨path, hpath⟩ := exists_path hD
  refine ⟨s!"{path}@head", fun e he => hpath e ?_⟩
  have hr := isDirectory_iff.mp hD.isDirectory
  unfold dirEvents dirSteps
  dsimp only
  rw [if_neg (by simp [hr.1]), if_neg (by simp [hr.2]), Traverse.emits_append,
    Traverse.emits_map_emit, List.mem_append]
  refine .inl ?_
  unfold headEvents
  rw [hH.1]
  simpa [hH.2] using he

theorem childSteps_subset_run {M c : ℕ} {name : String} (hM : Ref m D "child_dir_zapobj" M)
    (hrM : (m.get M).readable = true) (he : Entry m M name c) :
    ∃ path, ∀ e ∈ emits (childSteps m (.int M) path name c), e ∈ run m := by
  obtain ⟨path, hpath⟩ := exists_path hD
  refine ⟨path, fun e h => hpath e ?_⟩
  have hr := isDirectory_iff.mp hD.isDirectory
  unfold dirEvents dirSteps
  dsimp only
  rw [if_neg (by simp [hr.1]), if_neg (by simp [hr.2]), Traverse.emits_append,
    Traverse.emits_append, List.mem_append, List.mem_append]
  refine .inr (.inl ?_)
  unfold childrenSteps childmapSteps
  dsimp only
  rw [hM.1, if_pos (by simp [hM.2]), Mos.fetch_int, if_neg (by simp [hrM]), Traverse.mem_emits,
    List.mem_flatMap]
  exact ⟨(name, c), PyStr.mem_sortedItems.mpr he, Traverse.mem_emits.mp h⟩

theorem checkClonesZap_subset_run {Z : ℕ} (hZ : ClonesOf m D Z) :
    ∃ path, ∀ e ∈ (checkClonesZap m (.int Z) path).2, e ∈ run m := by
  rcases hZ with hZ | ⟨H, hH, hds, hZ⟩
  · obtain ⟨path, hpath⟩ := exists_path hD
    refine ⟨s!"{path} dd_clones", fun e he => hpath e ?_⟩
    have hr := isDirectory_iff.mp hD.isDirectory
    unfold dirEvents dirSteps
    dsimp only
    rw [if_neg (by simp [hr.1]), if_neg (by simp [hr.2]), Traverse.emits_append,
      Traverse.emits_append, List.mem_append, List.mem_append, Traverse.emits_map_emit]
    refine .inr (.inr ?_)
    unfold clonesEvents
    rw [hZ.1]
    simpa [hZ.2] using he
  · obtain ⟨path, hpath⟩ := checkDataset_subset_run hD hH
    refine ⟨s!"{path} next_clones", fun e he => hpath e ?_⟩
    obtain ⟨hr, hty⟩ := isDataset_iff.mp hds
    obtain ⟨hex, hu⟩ := ObjDump.readable_iff.mp hr
    unfold checkDataset checkNextClones
    dsimp only [Mos.fetch_int]
    rw [if_neg (by simp [hex]), if_neg (by simp [hu]), if_neg (by simp [hty]), hZ.1,
      if_neg (by simp [hZ.2])]
    exact List.mem_append_left _ (List.mem_append_left _ he)

end

/-! ## The grounds -/

/-- A removal that is not that of an orphan comes from one of three sites. -/
theorem DirEvent.removal {D Z v : ℕ} {k c : String} {role : Option FreeRole}
    (h : DirEvent m D (.op ⟨.zapRemove Z k v, c, role⟩)) (hc : groundChar c ≠ some 'e') :
    (Ref m D "child_dir_zapobj" Z ∧ StaleChild m Z k v ∧
        c = if (m.get v).exists_ then staleName k else danglingName k) ∨
      (ClonesOf m D Z ∧ DanglingClone m Z k v ∧
        ∃ path, c = droppedClone (cloneWhy (m.get v)) path) := by
  generalize he : Event.op ⟨.zapRemove Z k v, c, role⟩ = e at h
  cases h with
  | critical => cases he
  | recycledHead => cases he
  | warning => cases he
  | danglingChild hM hs hex =>
    cases he
    exact .inl ⟨hM, hs, by rw [hex]; rfl⟩
  | staleChild hM hs hex =>
    cases he
    exact .inl ⟨hM, hs, by rw [hex]; rfl⟩
  | clone hZ hd =>
    cases he
    exact .inr ⟨hZ, hd, _, rfl⟩
  | other hother =>
    cases he
    rcases hother with h | h
    · exact absurd h hc
    · exact absurd rfl (h Z k v)

/-- **Entries dropped as dangling.** -/
theorem danglingName_mem_run {M c : ℕ} {name : String} :
    .op ⟨.zapRemove M name c, danglingName name, none⟩ ∈ run m ↔
      ∃ D, Reached m D ∧ Ref m D "child_dir_zapobj" M ∧ StaleChild m M name c ∧
        (m.get c).exists_ = false := by
  constructor
  · intro h
    obtain ⟨D, hD, he⟩ := zapRemove_event h
    have hchar := groundChar_danglingName name
    rcases he.removal (by rw [hchar]; decide) with ⟨hM, hs, hc⟩ | ⟨-, -, path, hc⟩
    · refine ⟨D, hD, hM, hs, ?_⟩
      by_contra hex
      rw [hc, if_pos (by simpa using hex), groundChar_staleName] at hchar
      cases hchar
    · rw [hc, groundChar_droppedClone] at hchar
      split_ifs at hchar <;> cases hchar
  · rintro ⟨D, hD, hM, ⟨hr, he, hn, hty⟩, hex⟩
    obtain ⟨path, hpath⟩ := childSteps_subset_run hD hM hr he
    refine hpath _ ?_
    unfold childSteps
    rw [if_neg hn, if_pos (by simp [hex]), Traverse.emits_map_emit]
    exact List.mem_cons_of_mem _ (List.mem_singleton_self _)

/-- **Entries dropped as stale.** -/
theorem staleName_mem_run {M c : ℕ} {name : String} :
    .op ⟨.zapRemove M name c, staleName name, none⟩ ∈ run m ↔
      ∃ D, Reached m D ∧ Ref m D "child_dir_zapobj" M ∧ StaleChild m M name c ∧
        (m.get c).exists_ = true := by
  constructor
  · intro h
    obtain ⟨D, hD, he⟩ := zapRemove_event h
    have hchar := groundChar_staleName name
    rcases he.removal (by rw [hchar]; decide) with ⟨hM, hs, hc⟩ | ⟨-, -, path, hc⟩
    · refine ⟨D, hD, hM, hs, ?_⟩
      by_contra hex
      rw [hc, if_neg hex, groundChar_danglingName] at hchar
      cases hchar
    · rw [hc, groundChar_droppedClone] at hchar
      split_ifs at hchar <;> cases hchar
  · rintro ⟨D, hD, hM, ⟨hr, he, hn, hty⟩, hex⟩
    obtain ⟨path, hpath⟩ := childSteps_subset_run hD hM hr he
    refine hpath _ ?_
    unfold childSteps
    rw [if_neg hn, if_neg (by simp [hex]), if_pos (by simp [hty]), Traverse.emits_map_emit]
    exact List.mem_cons_of_mem _ (List.mem_singleton_self _)

/-- **Dropped clone references.** The comment has the reason of the clone itself. -/
theorem droppedClone_mem_run {Z v : ℕ} {k : String} {d : ObjDump} :
    (∃ path, .op ⟨.zapRemove Z k v, droppedClone (cloneWhy d) path, none⟩ ∈ run m) →
      ∃ D, Reached m D ∧ ClonesOf m D Z ∧ DanglingClone m Z k v ∧
        (d.exists_ = false ↔ (m.get v).exists_ = false) := by
  rintro ⟨path, h⟩
  obtain ⟨D, hD, he⟩ := zapRemove_event h
  have hchar := groundChar_droppedClone d path
  rcases he.removal (by rw [hchar]; split_ifs <;> decide) with ⟨-, -, hc⟩ | ⟨hZ, hd, path', hc⟩
  · rw [hc] at hchar
    split_ifs at hchar <;>
      simp [groundChar_staleName, groundChar_danglingName] at hchar
  · refine ⟨D, hD, hZ, hd, ?_⟩
    rw [hc, groundChar_droppedClone] at hchar
    by_cases h1 : (m.get v).exists_ = false <;> by_cases h2 : d.exists_ = false
    · exact iff_of_true h2 h1
    · rw [if_pos h1, if_neg h2] at hchar
      split_ifs at hchar <;> cases hchar
    · rw [if_neg h1, if_pos h2] at hchar
      split_ifs at hchar <;> cases hchar
    · exact iff_of_false h2 h1

/-- The finding and the removal of a dangling clone reference. -/
theorem mem_checkClonesZap {Z v : ℕ} {k path : String} (hd : DanglingClone m Z k v) {e : Event}
    (he : e = .finding (cloneFinding Z k v (cloneWhy (m.get v)) path) ∨
      e = addOp (.zapRemove Z k v) (droppedClone (cloneWhy (m.get v)) path)) :
    e ∈ (checkClonesZap m (.int Z) path).2 := by
  obtain ⟨hr, hentry, hds⟩ := hd
  unfold checkClonesZap
  dsimp only [Mos.fetch_int]
  rw [if_neg (by simp [hr])]
  refine List.mem_flatMap.mpr ⟨(k, v), ?_, ?_⟩
  · simp only [danglingClones, List.mem_filter, PyStr.mem_sortedItems, Bool.not_eq_true']
    exact ⟨hentry, hds⟩
  · rcases he with rfl | rfl
    · exact List.mem_cons_self
    · exact List.mem_cons_of_mem _ (List.mem_singleton_self _)

/-- **Heads reported as recycled.** -/
theorem recycledHead_mem_run {H : ℕ} :
    (∃ path, .finding (recycledHead m H path) ∈ run m) ↔
      ∃ D, Reached m D ∧ Ref m D "head_dataset_obj" H ∧ (m.get H).readable = true ∧
        (m.get H).hasType "DSL dataset" = false := by
  constructor
  · rintro ⟨path, h⟩
    have hlast : (recycledHead m H path).message.toList.getLast? = some 't' :=
      getLast?_append_string (by decide)
    obtain ⟨-, he | hs | ⟨D, hD, hd⟩⟩ := run_event h fun v t => nofun
    · obtain ⟨name, -, he⟩ := finding_checkErrlog he
      rcases finding_checkErrlogHead he with hs | ⟨-, hg⟩ | ⟨hi, -⟩
      · cases hs
      · rw [hlast] at hg
        cases hg
      · cases congrArg Finding.severity hi
    · rcases finding_checkScan hs with hs | ⟨hs, -⟩ <;> cases hs
    · generalize he : Event.finding (recycledHead m H path) = e at hd
      cases hd with
      | critical => cases he
      | recycledHead hH hr hty =>
        obtain rfl : H = _ := FieldVal.int.inj (congrArg Finding.obj (Event.finding.inj he))
        exact ⟨D, hD, hH, hr, hty⟩
      | warning ht =>
        rw [Event.finding.inj he] at hlast
        exact absurd hlast ht
      | danglingChild => cases he
      | staleChild => cases he
      | clone => cases he
      | other => cases he
  · rintro ⟨D, hD, hH, hr, hty⟩
    obtain ⟨path, hpath⟩ := checkDataset_subset_run hD hH
    obtain ⟨hex, hu⟩ := ObjDump.readable_iff.mp hr
    refine ⟨path, hpath _ ?_⟩
    unfold checkDataset
    dsimp only [Mos.fetch_int]
    rw [if_neg (by simp [hex]), if_neg (by simp [hu]), if_pos (by simp [hty])]
    exact List.mem_singleton_self _

end

end Zhaxx.Scan
