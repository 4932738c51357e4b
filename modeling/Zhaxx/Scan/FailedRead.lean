import Zhaxx.Scan.ErrorLogs
import Zhaxx.Scan.Source

/-!
# Failed reads

zdb that cannot read an object prints an error and no data row for it, or is killed by
the timeout. `parse_obj_dump` sets `unreadable` on an error only behind the data row
(`scan/zhaxx-scan` lines 95–98), so such an object counts as one that does not exist.

Results:
* `FailedRead.not_exists`: a failed read leaves the dump empty, wherever the error stands.
* `takenForFreed_iff`: the object is taken for a freed one wherever the scan looks for it.
-/

namespace Zhaxx.Scan

/-! ## The text of a failed read -/

/-- The text that stands for the object `N` is that of the timeout, or it has an error and
    no data row for `N`. -/
def FailedRead (N : ℕ) (text : String) : Prop :=
  text = ZdbRun.timeout.text ∨
    (∀ line ∈ PyStr.splitlines text.toList, ¬ HeaderOf N line) ∧
      ∃ line ∈ PyStr.splitlines text.toList, searchError line = true

section

variable {N : ℕ}

theorem not_headerOf_timeout :
    ∀ line ∈ PyStr.splitlines ZdbRun.timeout.text.toList, ¬ HeaderOf N line := by
  have hrow : ∀ line ∈ PyStr.splitlines ZdbRun.timeout.text.toList, matchObjHeader line = none := by
    decide +kernel
  exact fun line hline => not_headerOf_of_none (hrow line hline)

theorem FailedRead.parseObjDump {text : String} (h : FailedRead N text) :
    parseObjDump N text.toList = .missing := by
  rcases h with rfl | ⟨h, -⟩
  · exact foldl_parseLine_missing not_headerOf_timeout
  · exact foldl_parseLine_missing h

/-- **A failed read looks like an object that does not exist.** -/
theorem FailedRead.not_exists {text : ObjArg → String} {m : Mos}
    (hm : ∀ obj, parseDump obj (text obj) = m.source obj) (h : FailedRead N (text (.int N))) :
    (m.get N).exists_ = false := by
  have hget := hm (.int N)
  rw [parseDump, if_pos (Int.natCast_nonneg N), Int.toNat_natCast, h.parseObjDump, Mos.source_int,
    Mos.getInt, if_pos (Int.natCast_nonneg N), Int.toNat_natCast] at hget
  rw [← hget]
  rfl

end

/-! ## The checks that conclude that an object is gone -/

/-- An operation of the plan has as its ground that `N` does not exist: a cleared reference
    to the head `N`, a broken chain with an entry for the objset `N`, a removed namespace
    entry or a removed clone reference. -/
def TakenForFreed (m : Mos) (N : ℕ) : Prop :=
  (∃ name, ⟨.zapSet mosDirObj name N 0, s!"clear dangling {name} reference", none⟩ ∈
      opsOf (run m)) ∨
    (∃ name h, ⟨.zapSet mosDirObj name h 0, s!"break the {name} error-log chain", none⟩ ∈
        opsOf (run m) ∧
      ∃ s ∈ staleEntries m (m.get h), s.objset = N ∧ s.why = "does not exist") ∨
    (∃ M name, ⟨.zapRemove M name N, danglingName name, none⟩ ∈ opsOf (run m)) ∨
    ∃ Z k path, ⟨.zapRemove Z k N, droppedClone "freed" path, none⟩ ∈ opsOf (run m)

/-- The scan looks for the object `N`: as an error log, as an objset of an error log, as a
    child, or as a clone. -/
inductive LookedFor (m : Mos) (N : ℕ) : Prop
  | head {name : String} : ErrlogEntry m name N → LookedFor m N
  | objset {name key : String} {h per : ℕ} : ErrlogEntry m name h →
      (m.get h).hasType "error log" = true → Entry m h key per →
      PyStr.intHex key = some (N : ℤ) → LookedFor m N
  | child {D M : ℕ} {name : String} : Reached m D → Ref m D "child_dir_zapobj" M →
      (m.get M).readable = true → Entry m M name N → name ∉ specialNames → LookedFor m N
  | clone {D Z : ℕ} {k : String} : Reached m D → ClonesOf m D Z → (m.get Z).readable = true →
      Entry m Z k N → LookedFor m N

section

variable {m : Mos}

/-- References are cleared by the error-log check only. -/
theorem zapSet_event {obj e v : ℕ} {k c : String} {role : Option FreeRole}
    (h : .op ⟨.zapSet obj k e v, c, role⟩ ∈ run m) :
    (m.get mosDirObj).readable = true ∧
      .op ⟨.zapSet obj k e v, c, role⟩ ∈ checkErrlog m (m.get mosDirObj) := by
  have h1 : (m.get mosDirObj).readable = true := (plans_run.mp ⟨c, h⟩).readable_mos
  refine ⟨h1, ?_⟩
  obtain ⟨nodes, log, hw, hrun⟩ := run_walks h1
  rw [hrun, List.mem_append, List.mem_append, List.mem_append] at h
  rcases h with (h | h) | h | h
  · exact h
  · cases ((plans_checkScan h1).mp ⟨c, h⟩).2.1
  · obtain ⟨⟨D, path⟩, -, hp⟩ := hw.plans_log.mp ⟨c, h⟩
    cases (plans_dirEvents_iff (plans_dirEvents.mp hp).1).mp hp
  · split_ifs at h
    · cases List.mem_singleton.mp h
    · exact absurd h List.not_mem_nil

/-- A chain is broken only for a stale log. -/
theorem staleHead_of_break {name : String} {h : ℕ}
    (hmem : .op ⟨.zapSet mosDirObj name h 0, s!"break the {name} error-log chain", none⟩ ∈ run m) :
    ErrlogEntry m name h ∧ StaleHead m h := by
  have he := (zapSet_mem_plan.mp (mem_plan.mpr ⟨none, plans_run.mp ⟨_, hmem⟩⟩)).2.2.1
  refine ⟨he, ?_⟩
  have hhead : (s!"break the {name} error-log chain").toList.head? = some 'b' := by
    iterate 2 refine head?_append_string ?_
    decide
  obtain ⟨-, hmem⟩ := zapSet_event hmem
  obtain ⟨name', -, hmem⟩ := List.mem_flatMap.mp hmem
  have hevent := errlogEvent_of_mem hmem
  generalize hc : s!"break the {name} error-log chain" = c at hevent hhead
  generalize hop : Event.op ⟨.zapSet mosDirObj name h 0, c, none⟩ = e at hevent
  cases hevent with
  | critical => cases hop
  | normal => cases hop
  | detach hb =>
    cases hop
    exact absurd hhead hb
  | broken hs =>
    have hop := (PlanOp.mk.inj (Event.op.inj hop)).1
    cases hop
    exact hs
  | free => cases hop
  | warning => cases hop

theorem cloneWhy_of_not_exists {d : ObjDump} (h : d.exists_ = false) : cloneWhy d = "freed" := by
  unfold cloneWhy
  rw [h]
  rfl

/-- A stale entry that names a missing objset says so. -/
theorem mem_staleEntries_missing {N h : ℕ} (hx : (m.get N).exists_ = false) :
    (∃ s ∈ staleEntries m (m.get h), s.objset = N ∧ s.why = "does not exist") ↔
      ∃ key per, Entry m h key per ∧ PyStr.intHex key = some (N : ℤ) := by
  have hget : m.getInt (N : ℤ) = m.get N := by
    rw [Mos.getInt, if_pos (Int.natCast_nonneg N), Int.toNat_natCast]
  constructor
  · rintro ⟨s, hs, hN, -⟩
    obtain ⟨he, ho, -⟩ := mem_staleEntries.mp hs
    exact ⟨s.key, s.perObj, he, by rw [ho, hN]⟩
  · rintro ⟨key, per, he, ho⟩
    refine ⟨⟨key, N, per, "does not exist"⟩, mem_staleEntries.mpr ⟨he, ho, ?_⟩, rfl, rfl⟩
    rw [hget, hx]
    exact ⟨by simp [ObjDump.readable, hx], rfl⟩

/-- What the scan looks for and does not find it takes for freed. -/
theorem takenForFreed_of_missing {N : ℕ} (hx : (m.get N).exists_ = false) :
    TakenForFreed m N ↔ LookedFor m N := by
  constructor
  · rintro (⟨name, hop⟩ | ⟨name, h, hop, hs⟩ | ⟨M, name, hop⟩ | ⟨Z, k, path, hop⟩)
    · have hp := mem_plan.mpr ⟨none, plans_run.mp ⟨_, mem_opsOf.mp hop⟩⟩
      exact .head (zapSet_mem_plan.mp hp).2.2.1
    · obtain ⟨he, hstale⟩ := staleHead_of_break (mem_opsOf.mp hop)
      obtain ⟨key, per, hentry, ho⟩ := (mem_staleEntries_missing hx).mp hs
      exact .objset he hstale.1 hentry ho
    · obtain ⟨D, hD, hM, ⟨hr, he, hn, -⟩, -⟩ := danglingName_mem_run.mp (mem_opsOf.mp hop)
      exact .child hD hM hr he hn
    · obtain ⟨D, hD, hZ, ⟨hr, he, -⟩, -⟩ :=
        droppedClone_mem_run (d := .missing) ⟨path, mem_opsOf.mp hop⟩
      exact .clone hD hZ hr he
  · intro hlook
    cases hlook with
    | @head name he =>
      refine .inl ⟨name, mem_opsOf.mpr (checkErrlogHead_subset_run he _ ?_)⟩
      unfold checkErrlogHead
      dsimp only
      rw [if_neg he.2.2.2, if_pos (by simp [hx])]
      exact List.mem_cons_of_mem _ (List.mem_singleton_self _)
    | @objset name key h per he ht hentry ho =>
      obtain ⟨s, hs, hN⟩ := (mem_staleEntries_missing hx).mpr ⟨key, per, hentry, ho⟩
      refine .inr (.inl ⟨name, h, mem_opsOf.mpr (checkErrlogHead_subset_run he _ ?_), s, hs, hN⟩)
      unfold checkErrlogHead
      dsimp only
      rw [if_neg he.2.2.2, if_neg (by simp [ObjDump.exists_of_hasType (by decide) ht]),
        if_neg (by simp [ht]), if_neg (by simpa using List.ne_nil_of_mem hs)]
      exact List.mem_append_left _ (List.mem_append_right _ List.mem_cons_self)
    | @child D M name hD hM hr he hn =>
      have hty : (m.get N).hasType "DSL directory" = false :=
        ObjDump.hasType_of_not_exists (by decide) hx
      exact .inr (.inr (.inl ⟨M, name, mem_opsOf.mpr
        (danglingName_mem_run.mpr ⟨D, hD, hM, ⟨hr, he, hn, hty⟩, hx⟩)⟩))
    | @clone D Z k hD hZ hr he =>
      have hd : DanglingClone m Z k N := ⟨hr, he, by simp [isDataset, ObjDump.readable, hx]⟩
      obtain ⟨path, hpath⟩ := checkClonesZap_subset_run hD hZ
      have hop : addOp (.zapRemove Z k N) (droppedClone (cloneWhy (m.get N)) path) ∈ run m :=
        hpath _ (mem_checkClonesZap hd (.inr rfl))
      rw [cloneWhy_of_not_exists hx] at hop
      exact .inr (.inr (.inr ⟨Z, k, path, mem_opsOf.mpr hop⟩))

/-- **Failed reads.** Whatever text a source has for each object, an object whose text is
    that of a failed read is not taken for a freed one only where the scan never looks for
    it. -/
theorem takenForFreed_iff {text : ObjArg → String}
    (hm : ∀ obj, parseDump obj (text obj) = m.source obj) {N : ℕ}
    (hf : FailedRead N (text (.int N))) : ¬ TakenForFreed m N ↔ ¬ LookedFor m N :=
  not_congr (takenForFreed_of_missing (hf.not_exists hm))

end

/-- zdb on a pool whose child map names the object `673`, which it cannot read. It runs into
    the timeout on `674`. -/
def lostZdb (obj : String) : ZdbRun :=
  let dump := fun type entry =>
    .output (s!"    {obj}    1   128K    512    12K     512    512  100.00  {type}\n" ++
      s!"\t\t{entry}\n") ""
  if obj = "1" then dump "object directory" "root_dataset = 32 "
  else if obj = "32" then dump "DSL directory" "child_dir_zapobj = 34 "
  else if obj = "34" then dump "DSL directory child map" "lost = 673 "
  else if obj = "673" then .output "" "dmu_bonus_hold(673) failed, errno 5\n"
  else if obj = "674" then .timeout
  else .output "" ""

/-- What the scanner sees of that pool. -/
def lostMos : Mos :=
  .ofList [(1, zdbDump lostZdb (.int 1)), (32, zdbDump lostZdb (.int 32)),
    (34, zdbDump lostZdb (.int 34))]

/-- The error of `673` stands alone. -/
theorem failedRead_673 : FailedRead 673 (lostZdb "673").text := by
  refine .inr ⟨?_, ?_⟩
  · have hrow : ∀ line ∈ PyStr.splitlines (lostZdb "673").text.toList,
        matchObjHeader line = none := by decide +kernel
    exact fun line hline => not_headerOf_of_none (hrow line hline)
  · decide +kernel

/-- Of no other object does this zdb print a data row. -/
theorem zdbDump_lostZdb_missing {z : ℤ} (hz : z ≠ 1 ∧ z ≠ 32 ∧ z ≠ 34) :
    zdbDump lostZdb (.int z) = .missing := by
  have hname : ∀ n : ℤ, toString (ObjArg.int z) = toString n → z = n := fun n h =>
    Decimal.toString_int_injective (congrArg String.toList h)
  have h1 : toString (ObjArg.int z) ≠ "1" := fun h => hz.1 (hname 1 h)
  have h32 : toString (ObjArg.int z) ≠ "32" := fun h => hz.2.1 (hname 32 h)
  have h34 : toString (ObjArg.int z) ≠ "34" := fun h => hz.2.2 (hname 34 h)
  unfold zdbDump parseDump lostZdb
  dsimp only
  rw [if_neg h1, if_neg h32, if_neg h34]
  split_ifs with hpos h673
  · rw [hname 673 h673]
    exact failedRead_673.parseObjDump
  · exact FailedRead.parseObjDump (.inl rfl)
  · exact parseObjDump_nil _
  · rfl

theorem get_lostMos (n : ℕ) : lostMos.get n =
    if n = 34 then zdbDump lostZdb (.int 34) else if n = 32 then zdbDump lostZdb (.int 32)
    else if n = 1 then zdbDump lostZdb (.int 1) else .missing := by
  simp only [lostMos, Mos.get, Mos.ofList, Dict.ofList, Dict.getD, List.foldl_cons, List.foldl_nil,
    Dict.get?_set, Dict.get?_empty]
  split_ifs
  · exact Option.getD_some
  · exact Option.getD_some
  · exact Option.getD_some
  · exact Option.getD_none

theorem zdbDump_lostZdb (obj : ObjArg) : zdbDump lostZdb obj = lostMos.source obj := by
  cases obj with
  | str s => rfl
  | int z =>
    rw [Mos.source_int, Mos.getInt]
    split_ifs with hpos
    · obtain ⟨n, rfl⟩ := Int.eq_ofNat_of_zero_le hpos
      rw [Int.toNat_natCast, get_lostMos]
      split_ifs with h34 h32 h1
      · rw [h34, show ((34 : ℕ) : ℤ) = 34 from rfl]
      · rw [h32, show ((32 : ℕ) : ℤ) = 32 from rfl]
      · rw [h1, show ((1 : ℕ) : ℤ) = 1 from rfl]
      · exact zdbDump_lostZdb_missing (by omega)
    · exact if_neg hpos

/-- The only operation of that scan. -/
theorem opsOf_lostMos : opsOf (run lostMos) =
    [⟨.zapRemove 34 "lost" 673, danglingName "lost", none⟩] := by
  decide +kernel

/-- The entry for `673` is dropped as dangling. -/
theorem lostMos_taken : TakenForFreed lostMos 673 ∧ FailedRead 673 (lostZdb "673").text ∧
    ∀ obj, zdbDump lostZdb obj = lostMos.source obj := by
  refine ⟨.inr (.inr (.inl ⟨34, "lost", ?_⟩)), failedRead_673, zdbDump_lostZdb⟩
  rw [opsOf_lostMos]
  exact List.mem_singleton_self _

/-- Nothing leads to `674`, which runs into the timeout. -/
theorem lostMos_unseen : ¬ LookedFor lostMos 674 := by
  refine (takenForFreed_iff zdbDump_lostZdb (.inl rfl)).mp ?_
  unfold TakenForFreed
  rw [opsOf_lostMos]
  rintro (⟨name, hop⟩ | ⟨name, h, hop, -⟩ | ⟨M, name, hop⟩ | ⟨Z, k, path, hop⟩)
  all_goals cases List.mem_singleton.mp hop

end Zhaxx.Scan
