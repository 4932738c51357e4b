import Zhaxx.Scan.Grounds

/-!
# Error logs

`check_errlog` (`scan/zhaxx-scan` lines 214–277) reads the head that `errlog_last` or
`errlog_scrub` names, looks up every objset that a key of the head names, and either calls
the log normal or breaks the chain and frees the head and the logs of the lost objsets.

It asks for the type of the head and of those logs but never whether they are readable,
and it only looks at the entries whose key is a number.

Results:
* `freesReadable_iff`: nothing unreadable is freed exactly when the error logs that are
  freed are readable.
* `verdictSound_iff`: the verdict on a log is right exactly when a log that looks normal
  is readable and names no unreadable objset in the entries that were passed over.
-/

namespace Zhaxx.Scan

section

variable {m : Mos} {name : String} {h : ℕ}

/-! ## Heads -/

/-- The head `h` has the entry `key → per`, whose objset cannot be read. -/
def LostEntry (m : Mos) (h : ℕ) (key : String) (per : ℕ) : Prop :=
  Entry m h key per ∧ ∃ o, PyStr.intHex key = some o ∧ (m.getInt o).readable = false

theorem staleHead_iff :
    StaleHead m h ↔ (m.get h).hasType "error log" = true ∧ ∃ key per, LostEntry m h key per := by
  unfold StaleHead LostEntry Entry
  simp only [staleEntries_ne_nil, staleEntry_ne_none, Prod.exists]

theorem exists_staleEntry {key : String} {per : ℕ} (hl : LostEntry m h key per) :
    ∃ s ∈ staleEntries m (m.get h), s.perObj = per := by
  obtain ⟨he, o, ho, hr⟩ := hl
  exact ⟨⟨key, o, per, if (m.getInt o).exists_ then "is unreadable (EIO)" else "does not exist"⟩,
    mem_staleEntries.mpr ⟨he, ho, hr, rfl⟩, rfl⟩

theorem lostEntry_of_mem {s : Stale} (hs : s ∈ staleEntries m (m.get h)) :
    LostEntry m h s.key s.perObj := by
  obtain ⟨he, ho, hr, -⟩ := mem_staleEntries.mp hs
  exact ⟨he, s.objset, ho, hr⟩

end

/-! ## Freed objects -/

/-- Every freed object was observed readable, with the type the plan prints. -/
def FreesReadable (m : Mos) : Prop :=
  ∀ q ∈ plan m, ∀ N T, q.op = .free N T → (m.get N).readable = true ∧ (m.get N).type = some T

/-- **What is freed is readable.** The orphan removal leaves unreadable structures alone;
    the error-log check does not. -/
theorem freesReadable_iff {m : Mos} :
    FreesReadable m ↔ ∀ name h, ErrlogEntry m name h → (m.get h).hasType "error log" = true →
      ∀ key per, LostEntry m h key per → (m.get h).readable = true ∧
        ((m.get per).hasType "error log" = true → (m.get per).readable = true) := by
  constructor
  · intro hfree name h he ht key per hl
    have hs : StaleHead m h := staleHead_iff.mpr ⟨ht, key, per, hl⟩
    have hread : ∀ {N : ℕ} {T : String} {role : Option FreeRole}, ErrlogPlanned m (.free N T) role →
        (m.get N).readable = true := by
      intro N T role hp
      obtain ⟨q, hq, hqo⟩ := mem_plan.mpr ⟨role, .errlog hp⟩
      exact (hfree q hq N T hqo).1
    refine ⟨hread (.head he hs), fun hper => ?_⟩
    obtain ⟨s, hmem, rfl⟩ := exists_staleEntry hl
    exact hread (.objset he hs hmem hper)
  · intro hlogs q hq N T hqo
    obtain ⟨role, hp⟩ := mem_plan.mp ⟨q, hq, hqo⟩
    refine ⟨?_, hp.free_observed.2⟩
    cases hp with
    | errlog hp =>
      cases hp with
      | head he hs =>
        obtain ⟨ht, key, per, hl⟩ := staleHead_iff.mp hs
        exact (hlogs _ _ he ht key per hl).1
      | objset he hs hmem hper =>
        exact (hlogs _ _ he hs.1 _ _ (lostEntry_of_mem hmem)).2 hper
    | dir _ hp =>
      cases hp with
      | orphanFree _ _ hr _ => exact hr

/-- A pool whose error log `38` cannot be read to its end. The one entry that was dumped
    names the lost objset `673`. -/
def tornLog : Mos := .ofList
  [(1, .ofLines "object directory" [("root_dataset", 32), ("errlog_last", 38)] false),
    (32, .ofLines "DSL directory" [] false),
    (38, .ofLines "persistent error log" [("2a1", 45)] true),
    (45, .ofLines "persistent error log" [] false)]

/-- The torn log is freed. -/
theorem tornLog_freed : ¬ FreesReadable tornLog := by
  have hfree : ∃ q ∈ plan tornLog, q.op = .free 38 "persistent error log" := by decide +kernel
  intro h
  obtain ⟨q, hq, hqo⟩ := hfree
  exact absurd (h q hq _ _ hqo).1 (by decide +kernel)

/-! ## The verdict -/

/-- The objset that a key of an error log names: the whole key, or in a log from before
    `head_errlog` the first part of a bookmark `objset:object:level:blkid`. -/
def objsetOf (key : String) : Option ℕ :=
  match key.toList.splitOn ':' with
  | [o] => PyStr.hexNumber o
  | [o, object, level, blkid] =>
    if [object, level, blkid].all fun w => (PyStr.hexNumber w).isSome then PyStr.hexNumber o
    else none
  | _ => none

/-- The keys of the entries of a dump, however the parser filed them. -/
def logKeys (d : ObjDump) : List String :=
  d.zap.entries.map Prod.fst ++ d.zapMulti.entries.map Prod.fst ++ d.fields.entries.map Prod.fst

/-- A key that the loop of `check_errlog` does not look up. -/
def PassedOver (d : ObjDump) (key : String) : Prop :=
  key ∈ logKeys d ∧ (key ∈ d.zap.entries.map Prod.fst → PyStr.intHex key = none)

/-- A bookmark is no number. -/
theorem objsetOf_intHex {key : String} {o : ℕ} {z : ℤ} (ho : objsetOf key = some o)
    (hz : PyStr.intHex key = some z) : z = o := by
  have hcolon : ':' ∉ key.toList := fun hc =>
    absurd (PyStr.intHex_mem hz hc) (by decide)
  unfold objsetOf at ho
  rw [List.splitOn_eq_singleton hcolon] at ho
  rw [PyStr.intHex_hexNumber ho] at hz
  exact (Option.some.inj hz).symm

section

variable {m : Mos} {name : String} {h : ℕ}

theorem checkErrlogHead_subset_run (he : ErrlogEntry m name h) :
    ∀ e ∈ checkErrlogHead m name h, e ∈ run m := by
  obtain ⟨h1, hn, hget, -⟩ := he
  obtain ⟨nodes, log, -, hrun⟩ := run_walks h1
  intro e hmem
  rw [hrun]
  refine List.mem_append_left _ (List.mem_append_left _ (List.mem_flatMap.mpr ⟨name, hn, ?_⟩))
  rw [hget]
  exact hmem

theorem head?_message_normalLog (hn : name ∈ errlogNames) :
    (normalLog name h).message.toList.head? = some 'e' := by
  have hlit : ∀ name ∈ errlogNames, (toString name).toList.head? = some 'e' := by decide
  unfold normalLog
  dsimp only
  iterate 4 refine head?_append_string ?_
  exact hlit name hn

/-- **Logs called normal.** -/
theorem normalLog_mem_findings (hn : name ∈ errlogNames) :
    normalLog name h ∈ findings m ↔
      ErrlogEntry m name h ∧ (m.get h).hasType "error log" = true ∧
        staleEntries m (m.get h) = [] := by
  unfold findings
  rw [mem_findingsOf]
  constructor
  · intro hmem
    obtain ⟨h1, he | hs | ⟨D, -, hd⟩⟩ := run_event hmem fun v t => nofun
    · obtain ⟨name', hn', he⟩ := finding_checkErrlog he
      rcases finding_checkErrlogHead he with hs | ⟨hs, -⟩ | ⟨heq, h0, ht, hst⟩
      · cases hs
      · cases hs
      · have hobj : h = (m.get mosDirObj).zap.getD name' 0 :=
          FieldVal.int.inj (congrArg Finding.obj heq)
        rw [← hobj] at heq h0 ht hst
        have hname : name = name' := by
          have hmsg := congrArg Finding.message heq
          unfold normalLog at hmsg
          exact Decimal.append_right_cancel (Decimal.append_right_cancel
            (Decimal.append_right_cancel (Decimal.append_right_cancel hmsg)))
        subst hname
        exact ⟨⟨h1, hn, hobj.symm, h0⟩, ht, hst⟩
    · rcases finding_checkScan hs with hs | ⟨-, hs⟩
      · cases hs
      · rw [head?_message_normalLog hn] at hs
        cases hs
    · generalize he : Event.finding (normalLog name h) = e at hd
      cases hd <;> cases he
  · rintro ⟨he, ht, hst⟩
    refine checkErrlogHead_subset_run he _ ?_
    unfold checkErrlogHead
    dsimp only
    rw [if_neg he.2.2.2, if_neg (by simp [ObjDump.exists_of_hasType (by decide) ht]),
      if_neg (by simp [ht]), if_pos (by simp [hst])]
    exact List.mem_singleton_self _

theorem prefix_append_string {s t u : String} (ht : s.toList <+: t.toList) :
    s.toList <+: (t ++ u).toList := by
  rw [String.toList_append]
  exact ht.trans (List.prefix_append _ _)

/-- A log whose reference is cleared is reported. -/
theorem critical_of_resets (name : String) (h0 : h ≠ 0) (hr : Resets m h) : ∃ f : Finding,
    .finding f ∈ checkErrlogHead m name h ∧ f.severity = .critical ∧
      name.toList <+: f.message.toList := by
  unfold checkErrlogHead
  dsimp only
  rw [if_neg h0]
  split_ifs with he ht hs
  · refine ⟨_, List.mem_cons_self, rfl, ?_⟩
    iterate 4 refine prefix_append_string ?_
    exact List.prefix_refl _
  · refine ⟨_, List.mem_cons_self, rfl, ?_⟩
    iterate 6 refine prefix_append_string ?_
    exact List.prefix_refl _
  · rcases hr with hr | hr
    · rw [hr] at ht
      exact absurd rfl ht
    · exact absurd (by simpa using hs) hr.2
  · obtain ⟨s, ss, hss⟩ := List.exists_cons_of_ne_nil (l := staleEntries m (m.get h))
      (by simpa using hs)
    refine ⟨_, List.mem_append_left _ (List.mem_append_left _
      (List.mem_map.mpr ⟨s, by rw [hss]; exact List.mem_cons_self, rfl⟩)), rfl, ?_⟩
    iterate 8 refine prefix_append_string ?_
    exact List.prefix_refl _

/-- The verdict on the log `h` that the MOS directory names as `name`: it is called normal
    only where it and every objset it names are readable, and otherwise it is reported and
    its reference cleared. -/
def VerdictSound (m : Mos) (name : String) (h : ℕ) : Prop :=
  (normalLog name h ∈ findings m → (m.get h).readable = true ∧
    ∀ key ∈ logKeys (m.get h), ∀ o, objsetOf key = some o → (m.get o).readable = true) ∧
  (normalLog name h ∉ findings m →
    (∃ f ∈ findings m, f.severity = .critical ∧ name.toList <+: f.message.toList) ∧
    ∃ q ∈ plan m, q.op = .zapSet mosDirObj name h 0)

/-- **The verdict on an error log.** -/
theorem verdictSound_iff (hn : name ∈ errlogNames)
    (hz : (m.get mosDirObj).zap.get? name = some h) (h0 : h ≠ 0) :
    VerdictSound m name h ↔ (m.get mosDirObj).readable = true ∧
      ((m.get h).hasType "error log" = true → (∀ key per, ¬ LostEntry m h key per) →
        (m.get h).readable = true ∧ ∀ key, PassedOver (m.get h) key →
          ∀ o, objsetOf key = some o → (m.get o).readable = true) := by
  have hentry : (m.get mosDirObj).readable = true → ErrlogEntry m name h :=
    fun h1 => ⟨h1, hn, by rw [Dict.getD, hz, Option.getD_some], h0⟩
  constructor
  · rintro ⟨hnormal, hother⟩
    have h1 : (m.get mosDirObj).readable = true := by
      by_contra h1
      obtain ⟨-, q, hq, hqo⟩ := hother fun hmem => h1 ((normalLog_mem_findings hn).mp hmem).1.1
      exact h1 (zapSet_mem_plan.mp ⟨q, hq, hqo⟩).2.2.1.1
    refine ⟨h1, fun ht hlost => ?_⟩
    have hst : staleEntries m (m.get h) = [] := by
      by_contra hst
      obtain ⟨-, key, per, hl⟩ := staleHead_iff.mp ⟨ht, hst⟩
      exact hlost key per hl
    obtain ⟨hr, hkeys⟩ := hnormal ((normalLog_mem_findings hn).mpr ⟨hentry h1, ht, hst⟩)
    exact ⟨hr, fun key hp => hkeys key hp.1⟩
  · rintro ⟨h1, hcond⟩
    have he := hentry h1
    constructor
    · intro hmem
      obtain ⟨-, ht, hst⟩ := (normalLog_mem_findings hn).mp hmem
      have hlost : ∀ key per, ¬ LostEntry m h key per := fun key per hl =>
        (staleHead_iff.mpr ⟨ht, key, per, hl⟩).2 hst
      obtain ⟨hr, hpassed⟩ := hcond ht hlost
      refine ⟨hr, fun key hkey o ho => ?_⟩
      by_cases hp : PassedOver (m.get h) key
      · exact hpassed key hp o ho
      -- the loop looked this key up
      · have hread : key ∈ (m.get h).zap.entries.map Prod.fst ∧ PyStr.intHex key ≠ none := by
          by_contra hno
          exact hp ⟨hkey, fun hk => by_contra fun hne => hno ⟨hk, hne⟩⟩
        obtain ⟨⟨key, per⟩, hper, rfl⟩ := List.mem_map.mp hread.1
        obtain ⟨z, hint⟩ := Option.ne_none_iff_exists'.mp hread.2
        have hzo := objsetOf_intHex ho hint
        by_contra hno
        refine hlost key per ⟨hper, z, hint, ?_⟩
        rw [hzo, Mos.getInt, if_pos (Int.natCast_nonneg o), Int.toNat_natCast]
        simpa using hno
    · intro hmem
      have hr : Resets m h := by
        by_contra hr
        unfold Resets StaleHead at hr
        push Not at hr
        have ht : (m.get h).hasType "error log" = true := by simpa using hr.1
        exact hmem ((normalLog_mem_findings hn).mpr ⟨he, ht, hr.2 ht⟩)
      obtain ⟨f, hf, hcrit, hname⟩ := critical_of_resets name h0 hr
      refine ⟨⟨f, ?_, hcrit, hname⟩, zapSet_mem_plan.mpr ⟨rfl, rfl, he, hr⟩⟩
      unfold findings
      rw [mem_findingsOf]
      exact checkErrlogHead_subset_run he _ hf

end

/-- A pool whose readable error log is from before `head_errlog`. -/
def oldLog (lost : Bool) : Mos := .ofList
  [(1, .ofLines "object directory" [("root_dataset", 32), ("errlog_last", 38)] false),
    (32, .ofLines "DSL directory" [] false),
    (38, .ofLines "persistent error log" [("2a1:0:0:0", 45)] false),
    (if lost then 674 else 673, .ofLines "DSL dataset" [] false)]

/-- With its objset there, the verdict on the log is right. -/
theorem oldLog_sound : VerdictSound (oldLog false) "errlog_last" 38 := by
  refine (verdictSound_iff (by decide) (by decide +kernel) (by decide)).mpr
    ⟨by decide +kernel, fun _ _ => ⟨by decide +kernel, fun key hkey o ho => ?_⟩⟩
  have hobjset : ∀ key ∈ logKeys ((oldLog false).get 38), objsetOf key = some 673 := by
    decide +kernel
  rw [hobjset key hkey.1] at ho
  cases ho
  decide +kernel

/-- A pool whose error log cannot be read at all. -/
def unreadLog : Mos := .ofList
  [(1, .ofLines "object directory" [("root_dataset", 32), ("errlog_last", 38)] false),
    (32, .ofLines "DSL directory" [] false),
    (38, .ofLines "persistent error log" [] true)]

/-- The log that cannot be read counts as normal, and so does the old one whose objset
    does not exist. -/
theorem normal_verdicts : ¬ VerdictSound unreadLog "errlog_last" 38 ∧
    ¬ VerdictSound (oldLog true) "errlog_last" 38 := by
  have hunread : normalLog "errlog_last" 38 ∈ findings unreadLog := by decide +kernel
  have hold : normalLog "errlog_last" 38 ∈ findings (oldLog true) := by decide +kernel
  constructor
  · exact fun hv => absurd (hv.1 hunread).1 (by decide +kernel)
  · exact fun hv => absurd ((hv.1 hold).2 "2a1:0:0:0" (by decide +kernel) 673 (by decide +kernel))
      (by decide +kernel)

end Zhaxx.Scan
