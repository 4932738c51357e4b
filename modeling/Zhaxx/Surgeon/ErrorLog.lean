import Zhaxx.Surgeon.Effects

/-!
# The error log in memory

With `--commit`, `main` sets `spa_errlog_last` and `spa_errlog_scrub` to zero as soon
as the pool is open (`surgeon/zhaxx.c` lines 616–628), before any precondition is
checked and whatever the plan does on disk.

Results:
* `main_errlog`: what the in-memory error log and the entries of object 1 are when
  the pool is exported, and when they agree.
* `refused_errlog`: after a refused commit they differ.
-/

namespace Zhaxx.Surgeon

variable {M T : Type*}

/-- The number `zap_lookup(mos, 1, name, 8, 1, &v)` reads, zero for an absent entry. -/
def errlogWord (s : Store T) (name : String) : ℕ :=
  match s.entry 1 name.toList with
  | none => 0
  | some ws => ws.headD 0

/-- The entries `errlog_last` and `errlog_scrub` of object 1. -/
def diskErrlog (s : Store T) : Errlog := ⟨errlogWord s "errlog_last", errlogWord s "errlog_scrub"⟩

namespace Libzpool

variable (L : Libzpool M T)

/-- What a run that reaches the export leaves behind. -/
structure Exported (env : Env M) (poolname : String) (commit : Bool) (ops : List OpT) (e : Errlog)
    (r : Run M) : Prop where
  errlog : e = if commit = true ∧ env.spaOpen poolname = none then ⟨0, 0⟩ else env.errlog
  committed : r.committed = env.interfere env.mos ∨
    (commit = true ∧ env.spaOpen poolname = none) ∧ r.exit = .code 0 ∧
      L.AppliedAll (env.interfere env.mos) ops r

theorem runPool_exported {env : Env M} {poolname : String} {commit : Bool} {ops : List OpT}
    {r : Run M} (hr : L.runPool env poolname commit ops = r) {e : Errlog}
    (he : r.errlog = some e) : L.Exported env poolname commit ops e r := by
  unfold runPool at hr
  split at hr
  · subst hr
    cases he
  · split at hr
    · rename_i hopen
      subst hr
      cases he
      exact ⟨by simp [hopen], .inl rfl⟩
    · rename_i hopen
      dsimp only at hr
      have herrlog : (if commit = true then (⟨0, 0⟩ : Errlog) else env.errlog) =
          if commit = true ∧ env.spaOpen poolname = none then ⟨0, 0⟩ else env.errlog := by
        simp [hopen]
      generalize (if commit = true then (⟨0, 0⟩ : Errlog) else env.errlog) = errlog at hr herrlog
      split_ifs at hr with hfail hcommit
      · subst hr
        cases he
        exact ⟨herrlog, .inl rfl⟩
      · subst hr
        cases he
        exact ⟨herrlog, .inl rfl⟩
      · split at hr
        · subst hr
          cases he
          exact ⟨herrlog, .inl rfl⟩
        · split at hr
          · subst hr
            cases he
          · rename_i hdone
            subst hr
            cases he
            exact ⟨herrlog, .inr ⟨⟨by simpa using hcommit, hopen⟩, rfl,
              L.applySync_done_iff.mp hdone⟩⟩

/-- A run that reaches the export read its arguments and its plan. -/
theorem main_exported {env : Env M} {e : Errlog} (he : (L.main env).errlog = some e) :
    ∃ poolname planpath commit content,
      parseArgs {} env.argv = some ⟨some poolname, some planpath, commit⟩ ∧
      env.readFile planpath = some content ∧
      L.Exported env poolname commit (parsePlan content).ops e (L.main env) := by
  obtain ⟨r, hr⟩ : ∃ r, L.main env = r := ⟨_, rfl⟩
  rw [hr] at he ⊢
  unfold main at hr
  split at hr
  · rename_i poolname planpath commit hargs
    split at hr
    · subst hr
      cases he
    · rename_i content hread
      dsimp only at hr
      split_ifs at hr
      · subst hr
        cases he
      · subst hr
        cases he
      · subst hr
        cases he
      · exact ⟨poolname, planpath, commit, content, hargs, hread, L.runPool_exported hr he⟩
  · subst hr
    cases he

end Libzpool

/-- **The error log at the export.** Nothing but the plan changes the MOS entries. -/
theorem Lawful.main_errlog {L : Libzpool M T} {view : M → Store T} (h : Lawful L view)
    {env : Env M} (hquiet : diskErrlog (view (env.interfere env.mos)) = diskErrlog (view env.mos))
    (hopen : env.errlog = diskErrlog (view env.mos)) {e : Errlog}
    (he : (L.main env).errlog = some e) :
    ∃ poolname planpath commit content,
      parseArgs {} env.argv = some ⟨some poolname, some planpath, commit⟩ ∧
      env.readFile planpath = some content ∧
      e = (if commit = true ∧ env.spaOpen poolname = none then ⟨0, 0⟩ else env.errlog) ∧
      (e = diskErrlog (view (L.main env).committed) ↔
        commit = false ∨ env.spaOpen poolname ≠ none ∨
          diskErrlog (view (L.main env).committed) = ⟨0, 0⟩) ∧
      (diskErrlog (view (L.main env).committed) = env.errlog ∨
        commit = true ∧ (L.main env).exit = .code 0 ∧
          view (L.main env).committed =
            (parsePlan content).ops.foldl Store.apply (view (env.interfere env.mos))) := by
  obtain ⟨poolname, planpath, commit, content, hargs, hread, herr, hcom⟩ := L.main_exported he
  have hkept : (L.main env).committed = env.interfere env.mos →
      diskErrlog (view (L.main env).committed) = env.errlog := by
    intro hcom
    rw [hcom, hquiet, hopen]
  refine ⟨poolname, planpath, commit, content, hargs, hread, herr, ?_, ?_⟩
  · by_cases hclear : commit = true ∧ env.spaOpen poolname = none
    · rw [if_pos hclear] at herr
      simp [herr, hclear, eq_comm]
    · rw [if_neg hclear] at herr
      have hcom' := hcom.resolve_right fun hc => hclear hc.1
      have hor : commit = false ∨ env.spaOpen poolname ≠ none := by
        rwa [not_and_or, Bool.not_eq_true] at hclear
      exact iff_of_true (herr.trans (hkept hcom').symm) (or_assoc.mp (.inl hor))
  · rcases hcom with hcom | ⟨hcommit, hexit, happ⟩
    · exact .inl (hkept hcom)
    · exact .inr ⟨hcommit.1, hexit, h.applyAll_ok happ.2⟩

/-- A run on `loggedPool` with a plan of one line, answered with `YES`. -/
def session (argv : List String) (line : String) : Env (Store String) where
  argv := argv
  stdin := "YES\n".toList
  readFile _ := some line.toList
  importPool _ := none
  spaOpen _ := none
  syncTask := none
  mos := loggedPool
  errlog := ⟨38, 0⟩
  interfere := id

/-- In dump mode the error log stays. -/
theorem main_errlog_dumped :
    ∃ poolname planpath commit content,
      parseArgs {} ["--plan", "repair.plan", "tank"] =
        some ⟨some poolname, some planpath, commit⟩ ∧
      some "free obj=38 type=\"error log\"\n".toList = some content ∧
      (⟨38, 0⟩ : Errlog) = (if commit = true ∧ none = (none : Option Errno) then ⟨0, 0⟩
        else ⟨38, 0⟩) := by
  have he : ((storeLib String fun t => some t.toList).main
      (session ["--plan", "repair.plan", "tank"] "free obj=38 type=\"error log\"\n")).errlog =
        some ⟨38, 0⟩ := by
    decide +kernel
  obtain ⟨poolname, planpath, commit, content, hargs, hread, herr, -⟩ :=
    (storeLib_lawful String fun t => some t.toList).main_errlog rfl (by decide +kernel) he
  exact ⟨poolname, planpath, commit, content, hargs, hread, herr⟩

/-- A refused commit leaves the MOS entry `38` and the in-memory error log `0`. -/
theorem refused_errlog :
    let r := (storeLib String fun t => some t.toList).main
      (session ["--commit", "--plan", "repair.plan", "tank"]
        "zap_set obj=1 key=errlog_last expect=39 value=0\n")
    diskErrlog loggedPool = ⟨38, 0⟩ ∧ r.exit = .code 1 ∧ r.errlog = some ⟨0, 0⟩ ∧
      diskErrlog r.committed = ⟨38, 0⟩ := by
  decide +kernel

end Zhaxx.Surgeon
