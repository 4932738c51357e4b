import Zhaxx.Scan.Program

/-!
# What a scan asks for

`Names d obj` says that the dump `d` names the object `obj`: in a ZAP entry, as the objset
of an error-log entry, as a word of the scan entry or in a bonus field. `scan/zhaxx-scan`
starts with the MOS directory (lines 214–540) and follows such references.

Result:
* `asked_named`: whatever the source answers, a scan asks only for the MOS directory and for
  objects that a dump it has read before names.
-/

namespace Zhaxx.Scan

/-- The references in a dump. -/
inductive Names (d : ObjDump) : ObjArg → Prop
  | entry {k : String} {v : ℕ} : (k, v) ∈ d.zap.entries → Names d (.int v)
  | objset {k : String} {v : ℕ} {z : ℤ} :
    (k, v) ∈ d.zap.entries → PyStr.intHex k = some z → Names d (.int z)
  | word {ws : List ℕ} {v : ℕ} : d.zapMulti.get? "scan" = some ws → v ∈ ws → Names d (.int v)
  | field (f : String) : (d.ref f).truthy = true → Names d (d.ref f).arg

/-- The objects that a dump names. -/
def named (d : ObjDump) : Set ObjArg := {obj | Names d obj}

namespace Program

open Query (Led led_pure led_ite led_get_bind led_collect)

/-- `q` asks only for objects in `S` and for those it is told of. -/
abbrev Follows {α : Type} (S : Set ObjArg) (q : Scanner α) : Prop :=
  Led named (fun _ => True) S q

section

variable {S : Set ObjArg}

theorem mem_of_ref {d : ObjDump} {f : String} (h : (d.ref f).truthy = true) :
    (d.ref f).arg ∈ S ∪ named d := .inr (.field f h)

theorem mem_of_entry {d : ObjDump} {k : String} {v : ℕ} (h : (k, v) ∈ d.zap.entries) :
    .int (v : ℤ) ∈ S ∪ named d := .inr (.entry h)

theorem mem_of_getD {d : ObjDump} {k : String} (h : d.zap.getD k 0 ≠ 0) :
    .int ((d.zap.getD k 0 : ℕ) : ℤ) ∈ S ∪ named d := by
  cases hget : d.zap.get? k with
  | none => exact absurd (by rw [Dict.getD, hget]; rfl) h
  | some v =>
    rw [Dict.getD, hget]
    exact mem_of_entry (Dict.mem_entries_iff.mpr hget)

theorem follows_bind {α β : Type} {q : Scanner α} {f : α → Scanner β} (h : Follows S q)
    (hf : ∀ a, Follows S (f a)) : Follows S (q >>= f) := Led.bind h fun a _ => hf a

theorem follows_collect {α β : Type} {f : α → Scanner (List β)} {as : List α}
    (h : ∀ a ∈ as, Follows S (f a)) : Follows S (Query.collect f as) :=
  (led_collect (Q := fun _ => True) fun a ha => (h a ha).mono le_rfl fun _ _ _ _ => trivial).mono
    le_rfl fun _ _ => trivial

/-! ## Error log and scan cursor -/

theorem led_staleEntry {d : ObjDump} {e : String × ℕ} (he : e ∈ d.zap.entries) :
    Led named (fun ss => ∀ s ∈ ss, .int (s.perObj : ℤ) ∈ S ∪ named d) (S ∪ named d)
      (staleEntry e.1 e.2) := by
  unfold staleEntry
  cases hz : PyStr.intHex e.1 with
  | none => exact led_pure (List.forall_mem_nil _)
  | some z =>
    refine led_get_bind (.inr (.objset he hz)) fun ds => led_pure ?_
    cases ds.readable with
    | true => exact List.forall_mem_nil _
    | false => exact List.forall_mem_singleton.mpr (mem_of_entry he)

theorem follows_checkErrlogHead {name : String} {headObj : ℕ}
    (h : headObj ≠ 0 → .int (headObj : ℤ) ∈ S) : Follows S (checkErrlogHead name headObj) := by
  unfold checkErrlogHead
  refine led_ite (fun _ => led_pure trivial) fun h0 => led_get_bind (h h0) fun head => ?_
  refine led_ite (fun _ => led_pure trivial) fun _ => ?_
  refine led_ite (fun _ => led_pure trivial) fun _ => ?_
  refine (led_collect fun e he => led_staleEntry he).bind fun stale hstale => ?_
  refine led_ite (fun _ => led_pure trivial) fun _ => ?_
  refine follows_bind (follows_collect fun s hs => ?_) fun _ => led_pure trivial
  exact led_get_bind (hstale s hs) fun _ => led_pure trivial

theorem follows_checkErrlog (mos : ObjDump) : Follows (S ∪ named mos) (checkErrlog mos) :=
  follows_collect fun _ _ => follows_checkErrlogHead mem_of_getD

theorem follows_checkScan (mos : ObjDump) : Follows (S ∪ named mos) (checkScan mos) := by
  unfold checkScan
  cases hscan : scanEntry mos with
  | none => exact led_pure trivial
  | some scan =>
    refine led_ite (fun _ => led_pure trivial) fun _ => follows_bind ?_ fun _ => led_pure trivial
    refine led_ite (fun h0 => led_get_bind ?_ fun _ => led_pure trivial) fun _ => led_pure trivial
    have hmem : scan.getD 2 0 ∈ scan := by
      rw [List.getD_eq_getElem?_getD] at h0 ⊢
      cases hw : scan[2]? with
      | none => simp [hw] at h0
      | some w => exact List.mem_of_getElem? hw
    unfold scanEntry at hscan
    cases hmulti : mos.zapMulti.get? "scan" with
    | some ws =>
      rw [hmulti] at hscan
      cases hscan
      exact .inr (.word hmulti hmem)
    | none =>
      rw [hmulti] at hscan
      obtain ⟨w, hw, rfl⟩ := Option.map_eq_some_iff.mp hscan
      rw [List.mem_singleton.mp hmem]
      exact mem_of_entry (Dict.mem_entries_iff.mpr hw)

/-! ## Clones ZAPs and orphans -/

theorem follows_checkClonesZap {zapObj : FieldVal} (h : zapObj.arg ∈ S) (path : String) :
    Follows S (checkClonesZap zapObj path) := by
  refine led_get_bind h fun z => led_ite (fun _ => led_pure trivial) fun _ => ?_
  refine follows_bind (follows_collect fun e he => ?_) fun _ => led_pure trivial
  exact led_get_bind (mem_of_entry (PyStr.mem_sortedItems.mp he)) fun _ => led_pure trivial

theorem follows_orphanNamespace (dirObj : ℕ) (d : ObjDump) :
    Follows (S ∪ named d) (orphanNamespace dirObj d) := by
  refine led_ite (fun _ => led_pure trivial) fun hparent => ?_
  refine led_get_bind (mem_of_ref (by simpa using hparent)) fun p => ?_
  refine led_ite (fun _ => led_pure trivial) fun hpm => led_get_bind ?_ fun _ => led_pure trivial
  split_ifs at hpm ⊢
  · exact mem_of_ref (by simpa using hpm)
  · exact absurd rfl hpm

theorem follows_orphanNextClones (dsObj origin : FieldVal) (o : ObjDump) :
    Follows (S ∪ named o) (orphanNextClones dsObj origin o) :=
  led_ite (fun _ => led_pure trivial) fun hnco =>
    led_get_bind (mem_of_ref (by simpa using hnco)) fun _ => led_pure trivial

theorem follows_orphanDirClones (dsObj : FieldVal) (o : ObjDump) :
    Follows (S ∪ named o) (orphanDirClones dsObj o) := by
  refine led_ite (fun _ => led_pure trivial) fun hodir => ?_
  refine led_get_bind (mem_of_ref (by simpa using hodir)) fun od => ?_
  refine led_ite (fun _ => led_pure trivial) fun hocl => led_get_bind ?_ fun _ => led_pure trivial
  split_ifs at hocl ⊢
  · exact mem_of_ref (by simpa using hocl)
  · exact absurd rfl hocl

theorem follows_orphanCloneRefs (dsObj : FieldVal) (d : ObjDump) :
    Follows (S ∪ named d) (orphanCloneRefs dsObj d) := by
  refine led_ite (fun _ => led_pure trivial) fun horigin => ?_
  refine led_get_bind (mem_of_ref (by simpa using horigin)) fun o => ?_
  refine led_ite (fun _ => led_pure trivial) fun _ => ?_
  exact follows_bind (follows_orphanNextClones _ _ _) fun _ =>
    follows_bind (follows_orphanDirClones _ _) fun _ => led_pure trivial

theorem follows_freeStructure {e : FreeRole × FieldVal} (h : e.2.truthy = true → e.2.arg ∈ S)
    (path : String) : Follows S (freeStructure path e) :=
  led_ite (fun _ => led_pure trivial) fun he =>
    led_get_bind (h (by simpa using he)) fun _ => led_pure trivial

theorem follows_planOrphanRemoval {dsObj : FieldVal} {dirObj : Option ℕ} (hds : dsObj.arg ∈ S)
    (hdir : ∀ n ∈ dirObj, .int (n : ℤ) ∈ S) (path : String) :
    Follows S (planOrphanRemoval dsObj dirObj path) := by
  cases dirObj with
  | none => exact led_pure trivial
  | some n =>
    refine led_get_bind (hdir n rfl) fun d => led_ite (fun _ => led_pure trivial) fun _ => ?_
    refine follows_bind (follows_orphanNamespace n d) fun _ => ?_
    refine follows_bind (follows_orphanCloneRefs dsObj d) fun _ => ?_
    refine led_get_bind (.inl hds) fun ds => follows_bind (follows_collect ?_) fun _ =>
      led_pure trivial
    simp only [List.forall_mem_cons]
    exact ⟨follows_freeStructure (fun _ => .inl (.inl (hdir n rfl))) path,
      follows_freeStructure (fun h => .inl (mem_of_ref h)) path,
      follows_freeStructure (fun h => .inl (mem_of_ref h)) path,
      follows_freeStructure (fun _ => .inl (.inl hds)) path,
      follows_freeStructure (fun h => mem_of_ref h) path,
      follows_freeStructure (fun h => mem_of_ref h) path, List.forall_mem_nil _⟩

/-! ## Datasets -/

theorem follows_checkRef {ref : FieldVal} (h : ref.truthy = true → ref.arg ∈ S) (sev : Severity)
    (dsObj : FieldVal) (message : String) : Follows S (checkRef sev dsObj ref message) :=
  led_ite (fun hr => led_get_bind (h hr) fun _ => led_pure trivial) fun _ => led_pure trivial

theorem follows_checkDataset {dsObj : FieldVal} {expectDir : Option ℕ} (hds : dsObj.arg ∈ S)
    (hdir : ∀ n ∈ expectDir, .int (n : ℤ) ∈ S) (path : String) :
    Follows S (checkDataset dsObj path expectDir) := by
  refine led_get_bind hds fun ds => led_ite (fun _ => led_pure trivial) fun _ => ?_
  refine led_ite (fun _ => ?_) fun _ => led_ite (fun _ => led_pure trivial) fun _ => ?_
  · exact follows_bind (follows_planOrphanRemoval (.inl hds) (fun n hn => .inl (hdir n hn)) path)
      fun _ => led_pure trivial
  · refine follows_bind ?_ fun _ => follows_bind ?_ fun _ => led_pure trivial
    · exact led_ite (fun _ => led_pure trivial) fun hnco =>
        follows_bind (follows_checkClonesZap (mem_of_ref (by simpa using hnco)) _) fun _ =>
          led_pure trivial
    · exact follows_bind (follows_checkRef mem_of_ref _ _ _) fun _ =>
        follows_bind (follows_collect fun f _ => follows_checkRef mem_of_ref _ _ _) fun _ =>
          led_pure trivial

/-! ## The walk -/

variable {walk : Walk → ℕ × String → Scanner (Option Walk)}

theorem follows_checkChildren {zapObj : FieldVal} {path : String} {z : ObjDump}
    (hwalk : ∀ (S : Set ObjArg) st n path, .int (n : ℤ) ∈ S → Follows S (walk st (n, path)))
    {es : List (String × ℕ)} (hes : ∀ e ∈ es, e ∈ z.zap.entries) (st : Walk) :
    Follows (S ∪ named z) (checkChildren walk zapObj path st es) := by
  induction es generalizing st with
  | nil => exact led_pure trivial
  | cons e es ih =>
    rw [List.forall_mem_cons] at hes
    have hchild : .int (e.2 : ℤ) ∈ S ∪ named z := mem_of_entry hes.1
    refine follows_bind ?_ fun r => ?_
    · refine led_ite (fun _ => led_pure trivial) fun _ => led_get_bind hchild fun c => ?_
      exact led_ite (fun _ => led_pure trivial) fun _ => led_ite (fun _ => led_pure trivial)
        fun _ => hwalk _ _ _ _ (.inl hchild)
    · cases r with
      | none => exact led_pure trivial
      | some st' => exact ih hes.2 st'

theorem follows_walkDslDir (fuel : ℕ) (S : Set ObjArg) (st : Walk) (n : ℕ) (path : String)
    (h : .int (n : ℤ) ∈ S) : Follows S (walkDslDir fuel st (n, path)) := by
  induction fuel generalizing S st n path with
  | zero => exact led_pure trivial
  | succ fuel ih =>
    rw [walkDslDir]
    refine led_ite (fun _ => led_pure trivial) fun _ => led_get_bind h fun d => ?_
    refine led_ite (fun _ => led_pure trivial) fun _ => ?_
    refine led_ite (fun _ => led_pure trivial) fun _ => ?_
    have hdir : ∀ k ∈ some n, .int (k : ℤ) ∈ S ∪ named d := fun k hk => .inl (by cases hk; exact h)
    refine follows_bind ?_ fun es => follows_bind ?_ fun st' => ?_
    · exact led_ite (fun hhead => follows_checkDataset (mem_of_ref hhead) hdir _)
        fun _ => led_pure trivial
    · refine led_ite (fun hmap => led_get_bind (mem_of_ref hmap) fun z => ?_)
        fun _ => led_pure trivial
      exact led_ite (fun _ => led_pure trivial) fun _ =>
        follows_checkChildren ih (fun e he => PyStr.mem_sortedItems.mp he) _
    · cases st' with
      | none => exact led_pure trivial
      | some st' =>
        exact led_ite (fun hclones => follows_bind
          (follows_checkClonesZap (mem_of_ref hclones) _) fun _ => led_pure trivial)
          fun _ => led_pure trivial

theorem follows_run (fuel : ℕ) : Follows {.int mosDirObj} (run fuel) := by
  refine led_get_bind rfl fun mos => led_ite (fun _ => led_pure trivial) fun _ => ?_
  refine follows_bind (follows_checkErrlog mos) fun _ => follows_bind (follows_checkScan mos)
    fun _ => led_ite (fun hroot => ?_) fun _ => led_pure trivial
  have hentry : .int ((mos.zap.getD "root_dataset" 0 : ℕ) : ℤ) ∈ {.int mosDirObj} ∪ named mos :=
    mem_of_getD hroot
  exact follows_bind (follows_walkDslDir fuel _ _ _ _ hentry) fun _ => led_pure trivial

end

/-- **A scan follows references.** Whatever the source answers, every object that the scan
    asks for is the MOS directory or named by a dump that it has read before. -/
theorem asked_named {fuel : ℕ} {src : ObjArg → ObjDump} {pre post : List ObjArg} {obj : ObjArg}
    (h : (run fuel).asked src = pre ++ obj :: post) :
    obj = .int mosDirObj ∨ ∃ obj' ∈ pre, Names (src obj') obj :=
  Query.asked_of_led (follows_run fuel) h

/-- A pool with a root directory whose head is gone. -/
def headless : Mos := .ofList
  [(1, .ofLines "object directory" [("root_dataset", 2)] false),
    (2, .ofLines "DSL directory" [("head_dataset_obj", 5)] false)]

/-- The head is asked for because the directory names it. -/
theorem asked_named_headless : ObjArg.int 5 = .int mosDirObj ∨
    ∃ obj' ∈ [ObjArg.int 1, .int 2], Names (headless.source obj') (.int 5) := by
  have hasked : (run 3).asked headless.source = [.int 1, .int 2] ++ .int 5 :: [] := by
    decide +kernel
  exact asked_named hasked

end Program

end Zhaxx.Scan
