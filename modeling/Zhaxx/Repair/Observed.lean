import Zhaxx.Repair.Handover

/-!
# The observation as a MOS

`observed m` is the store that the scanner saw, and `obsLib` answers the read
calls of the surgeon from it, as dump mode would get them right after the scan:
an I/O error on an unreadable object and `ENOENT` on a missing one. The scanner
promises (`scan/zhaxx-scan` lines 11–13) that every operation
carries the observed pre-state.

Results:
* `accepts_iff`: every operation of a plan passes its check on the MOS it was made
  for exactly when the scan cursor fits into the words the plan reads and no
  orphan is referenced from an unreadable ZAP.
* `partialClones_refused`: a plan that removes an entry from a partially dumped
  ZAP is refused.
-/

namespace Zhaxx.Repair

open Scan Surgeon CText

/-- The words of the ZAP entry with the bytes `k`. A ZAP holds a name once; should
    a dump print it both with one word and with several, the one word counts. -/
def entryWords (d : ObjDump) (k : List Char) : Option (List ℕ) :=
  match d.zap.entries.find? fun e => utf8 e.1 = k with
  | some e => some [e.2]
  | none => (d.zapMulti.entries.find? fun e => utf8 e.1 = k).map Prod.snd

theorem entryWords_utf8 (d : ObjDump) (key : String) :
    entryWords d (utf8 key) = match d.zap.get? key with
      | some v => some [v]
      | none => d.zapMulti.get? key := by
  unfold entryWords Dict.get?
  simp only [utf8_injective.eq_iff]
  cases d.zap.entries.find? fun e => decide (e.1 = key) <;> rfl

theorem entryWords_of_entry {m : Mos} {Z v : ℕ} {k : String} (h : Entry m Z k v) :
    entryWords (m.get Z) (utf8 k) = some [v] := by
  rw [entryWords_utf8, Dict.mem_entries_iff.mp h]

/-- The store the scanner saw. -/
def observed (m : Mos) : Store String where
  type o := if (m.get o).exists_ then some (m.get o).typeStr else none
  entry o k := entryWords (m.get o) k
  numChildren o := (m.get o).numChildren
  unallocated o h := by
    have he : (m.get o).exists_ = false := by
      by_contra hne
      rw [if_pos (by simpa using hne)] at h
      cases h
    rw [ObjDump.eq_missing_iff.mpr he]
    exact ⟨fun _ => rfl, rfl⟩

/-- The error of a read from an object that is no readable one. -/
def readError (d : ObjDump) : Errno := if d.exists_ then .eio else .enoent

/-- The calls of `libzpool` on an observation. It is read-only: what would write
    fails with `EROFS`. -/
def obsLib : Libzpool Mos String where
  zapLookup m o k n :=
    if !(m.get o).readable then .error (readError (m.get o))
    else
      match (observed m).entry o k with
      | none => .error .enoent
      | some ws => if n < ws.length then .error .eoverflow else .ok ws
  zapUpdate _ _ _ _ := .error (.other 30)
  zapRemove _ _ _ := .error (.other 30)
  bonusHold m o :=
    if !(m.get o).readable then .error (readError (m.get o))
    else
      match (observed m).numChildren o with
      | none => .error .einval
      | some n => .ok n
  setNumChildren m _ _ := m
  objectInfo m o :=
    match (observed m).type o with
    | none => .error .enoent
    | some t => .ok t
  objectFree _ _ := .error (.other 30)
  otName t := some (utf8 t)

/-! ## The check of each operation -/

theorem zapLookup_entry {m : Mos} {Z v n : ℕ} {k : String} (hr : (m.get Z).readable = true)
    (he : Entry m Z k v) (hn : 1 ≤ n) : obsLib.zapLookup m Z (utf8 k) n = .ok [v] := by
  have hw : (observed m).entry Z (utf8 k) = some [v] := entryWords_of_entry he
  simp only [obsLib, hr, hw]
  exact if_neg (Nat.not_lt.mpr hn)

theorem checkOp_zapSet {m : Mos} {name : String} {h v : ℕ} (he : ErrlogEntry m name h) :
    obsLib.checkOp m (Op.zapSet mosDirObj name h v).toOpT = true := by
  have hl := zapLookup_entry he.1 he.entry le_rfl
  simp [Libzpool.checkOp, Op.toOpT, hl]

/-- A `zap_remove` of an observed entry needs its ZAP readable. -/
theorem checkOp_zapRemove {m : Mos} {Z v : ℕ} {k : String} (he : Entry m Z k v) :
    obsLib.checkOp m (Op.zapRemove Z k v).toOpT = (m.get Z).readable := by
  cases hr : (m.get Z).readable with
  | true =>
    have hl := zapLookup_entry hr he le_rfl
    simp [Libzpool.checkOp, Op.toOpT, hl]
  | false =>
    have hl : obsLib.zapLookup m Z (utf8 k) 1 = .error .eio := by
      simp [obsLib, hr, readError, ObjDump.exists_of_mem_zap he]
    simp [Libzpool.checkOp, Op.toOpT, hl]

theorem checkOp_zapZero {m : Mos} (hr : (m.get mosDirObj).readable = true) {key : String}
    {c : ℕ} : obsLib.checkOp m (Op.zapZero mosDirObj key c).toOpT = true ↔
      ∀ ws, entryWords (m.get mosDirObj) (utf8 key) = some ws → ws.length ≤ c := by
  have hl : obsLib.zapLookup m mosDirObj (utf8 key) c =
      match entryWords (m.get mosDirObj) (utf8 key) with
      | none => .error .enoent
      | some ws => if c < ws.length then .error .eoverflow else .ok ws := by
    simp only [obsLib, hr]
    rfl
  simp only [Libzpool.checkOp, Op.toOpT, hl]
  cases entryWords (m.get mosDirObj) (utf8 key) with
  | none => simp
  | some ws =>
    dsimp only
    split_ifs with hc
    · simp [hc]
    · simpa using hc

theorem checkOp_bonusSet {m : Mos} {S nc : ℕ} {v : ℤ} (hr : (m.get S).readable = true)
    (hnc : (m.get S).numChildren = some nc) :
    obsLib.checkOp m (Op.bonusSet S nc v).toOpT = true := by
  have hb : obsLib.bonusHold m S = .ok nc := by
    simp [obsLib, hr, observed, hnc]
  simp [Libzpool.checkOp, Op.toOpT, hb]

theorem checkOp_free {m : Mos} {x : ℕ} {t : String} (he : (m.get x).exists_ = true)
    (ht : (m.get x).type = some t) : obsLib.checkOp m (Op.free x t).toOpT = true := by
  have hi : obsLib.objectInfo m x = .ok t := by
    simp [obsLib, observed, he, ObjDump.typeStr, ht]
  have hm : obsLib.typeNameMatches t (utf8 t) = true := by
    simp [Libzpool.typeNameMatches, obsLib, strcasecmpEq]
  simp [Libzpool.checkOp, Op.toOpT, hi, hm]

/-! ## The check of a plan -/

/-- A scan cursor that is to be zeroed has no more words than a `zap_zero` reads. -/
def CursorFits (m : Mos) : Prop :=
  StaleScan m → ∀ ws, entryWords (m.get mosDirObj) (utf8 "scan") = some ws →
    ws.length ≤ scanWords

/-- The ZAPs in which reached orphans are referenced are readable. -/
structure OrphanRefsReadable (m : Mos) : Prop where
  name : ∀ D H P M k, Reached m D → Orphan m D H → Ref m D "parent_dir_obj" P →
    (m.get P).readable = true → Ref m P "child_dir_zapobj" M → Entry m M k D →
    (m.get M).readable = true
  nextClone : ∀ D H O Z k, Reached m D → Orphan m D H → Ref m D "origin_obj" O →
    (m.get O).readable = true → Ref m O "next_clones_obj" Z → Entry m Z k H →
    (m.get Z).readable = true
  clone : ∀ D H O OD Z k, Reached m D → Orphan m D H → Ref m D "origin_obj" O →
    (m.get O).readable = true → Ref m O "dir_obj" OD → (m.get OD).readable = true →
    Ref m OD "clones" Z → Entry m Z k H → (m.get Z).readable = true

theorem OrphanRefsReadable.readable {m : Mos} (h : OrphanRefsReadable m) {Z v : ℕ} {k : String}
    (hop : Op.zapRemove Z k v ∈ ops m) : (m.get Z).readable = true := by
  obtain ⟨p, hp, hpo⟩ := List.mem_map.mp hop
  obtain ⟨D, hD, hd⟩ := zapRemove_mem_plan.mp ⟨p, hp, hpo⟩
  cases hd with
  | staleChild _ hs => exact hs.1
  | clone _ hd => exact hd.1
  | nextClone _ _ _ hd => exact hd.1
  | orphanName hO hP hr hM he => exact h.name _ _ _ _ _ hD hO hP hr hM he
  | orphanNextClone hO hOr hr hZ he => exact h.nextClone _ _ _ _ _ hD hO hOr hr hZ he
  | orphanClone hO hOr hr hOD hrOD hZ he =>
    exact h.clone _ _ _ _ _ _ hD hO hOr hr hOD hrOD hZ he

/-- The object of a planned child count is readable. -/
theorem bonusSet_readable {m : Mos} {S nc : ℕ} {v : ℤ} (h : Op.bonusSet S nc v ∈ ops m) :
    (m.get S).readable = true := by
  obtain ⟨role, h⟩ := mem_ops.mp h
  cases h with
  | errlog h => cases h
  | dir _ h =>
    cases h with
    | childCount _ hds _ _ _ _ => exact (isDataset_iff.mp hds).1
    | orphanCount _ _ hr _ _ _ => exact hr

/-- **The observation passes the checks of its plan.** -/
theorem accepts_iff (m : Mos) :
    (∀ op ∈ orders m, obsLib.checkOp m op = true) ↔ CursorFits m ∧ OrphanRefsReadable m := by
  rw [orders, List.forall_mem_map]
  constructor
  · intro h
    have hremove : ∀ {D Z v k}, Reached m D → DirPlanned m D (.zapRemove Z k v) none →
        (m.get Z).readable = true := by
      intro D Z v k hD hd
      rw [← checkOp_zapRemove hd.entry]
      exact h _ (mem_ops.mpr ⟨none, .dir hD hd⟩)
    refine ⟨fun hs => ?_, ?_, ?_, ?_⟩
    · exact (checkOp_zapZero hs.1).mp (h _ (zapZero_mem_ops.mpr ⟨rfl, rfl, rfl, hs⟩))
    · intro D H P M k hD hO hP hr hM he
      exact hremove hD (.orphanName hO hP hr hM he)
    · intro D H O Z k hD hO hOr hr hZ he
      exact hremove hD (.orphanNextClone hO hOr hr hZ he)
    · intro D H O OD Z k hD hO hOr hr hOD hrOD hZ he
      exact hremove hD (.orphanClone hO hOr hr hOD hrOD hZ he)
  · rintro ⟨hcursor, hrefs⟩ op hop
    cases op with
    | zapSet obj name h v =>
      obtain ⟨rfl, -, he, -⟩ := zapSet_mem_ops.mp hop
      exact checkOp_zapSet he
    | zapZero obj key c =>
      obtain ⟨rfl, rfl, rfl, hs⟩ := zapZero_mem_ops.mp hop
      exact (checkOp_zapZero hs.1).mpr (hcursor hs)
    | zapRemove Z k v =>
      rw [checkOp_zapRemove (planned_entry hop)]
      exact hrefs.readable hop
    | bonusSet S nc v => exact checkOp_bonusSet (bonusSet_readable hop) (bonusSet_numChildren hop)
    | free x t =>
      obtain ⟨he, ht⟩ := free_observed hop
      exact checkOp_free he ht

/-- A pool with the orphaned clone `670`, where the dump of the `next_clones` ZAP
    `515` of its origin ran into I/O errors behind the first entry. -/
def partialClones : Mos := .ofList
  [(1, .ofLines "object directory" [("root_dataset", 32)] false),
    (32, .ofLines "DSL directory" [("child_dir_zapobj", 34)] false),
    (34, .ofLines "DSL directory child map" [("clone", 670)] false),
    (512, .ofLines "DSL dataset" [("next_clones_obj", 515), ("num_children", 2)] false),
    (515, .ofLines "DSL dataset next clones" [("2a1", 673)] true),
    (670, .ofLines "DSL directory" [("head_dataset_obj", 673), ("origin_obj", 512)] false),
    (673, .ofLines "DSL dataset" [] true)]

/-- The operation on the unreadable ZAP fails its check. -/
theorem partialClones_refused :
    ¬ ∀ op ∈ orders partialClones, obsLib.checkOp partialClones op = true := by
  have hop : Op.zapRemove 515 "2a1" 673 ∈ ops partialClones := by decide +kernel
  intro h
  have hc := h _ (List.mem_map_of_mem hop)
  rw [checkOp_zapRemove (planned_entry hop)] at hc
  exact absurd hc (by decide +kernel)

end Zhaxx.Repair
