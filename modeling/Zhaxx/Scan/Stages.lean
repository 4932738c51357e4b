import Zhaxx.Scan.Planned

/-!
# The order of the scan

A scan makes its checks one after another: the two error-log heads, the scan cursor, then
the walk, which for every directory checks the head dataset, goes through the child map
and, behind the directories this leads to, checks the clones ZAP (`scan/zhaxx-scan`
lines 319–370 and 525–540). Each check is a stage. Which stages there are depends on the
references, the types and the readability of the observed objects alone.

Results:
* `walkStages_isSome`: the walk has an end.
* `run_eq_stages`: a scan is its stages.
-/

namespace Zhaxx.Scan

open Traverse (Step State emits)

/-! ## Stages -/

/-- A check of the scan. -/
inductive Stage where
  | noMos
  | errlog (name : String)
  | cursor
  | noRoot
  | head (D : ℕ) (path : String)
  | childmap (D : ℕ) (path : String)
  | entry (D : ℕ) (path : String) (name : String) (c : ℕ)
  | clones (D : ℕ) (path : String)
  deriving DecidableEq

/-- The finding of `run` for an unreadable MOS directory (lines 528–531). -/
def mosUnreadable : Event :=
  add .critical (.int mosDirObj)
    ("MOS directory (object 1) missing or unreadable — beyond this tool; " ++
      "label/uberblock-level recovery needed")

/-- What a check appends. -/
def Stage.events (m : Mos) : Stage → List Event
  | .noMos => [mosUnreadable]
  | .errlog name => checkErrlogHead m name ((m.get mosDirObj).zap.getD name 0)
  | .cursor => checkScan m (m.get mosDirObj)
  | .noRoot => [Scan.noRoot]
  | .head D path =>
    if !(m.get D).readable then [dirUnreadable D path]
    else if !(m.get D).hasType "DSL directory" then [dirRecycled D path (m.get D)]
    else headEvents m D path
  | .childmap D path => [childmapUnreadable ((m.get D).ref "child_dir_zapobj") path]
  | .entry D path name c =>
    let zapObj := (m.get D).ref "child_dir_zapobj"
    if !(m.get c).exists_ then danglingEntry zapObj path name c
    else recycledEntry zapObj path name c (m.get c)
  | .clones D path => clonesEvents m D path

/-- What the walk does with an entry of the child map of `D`. -/
def entryStages (m : Mos) (D : ℕ) (path name : String) (c : ℕ) : List (Step (ℕ × String) Stage) :=
  if name ∈ specialNames then []
  else if (m.get c).hasType "DSL directory" then [.visit (c, s!"{path}/{name}")]
  else [.emit (.entry D path name c)]

/-- The child map of `D`, if it has one. -/
def childrenStages (m : Mos) (D : ℕ) (path : String) : List (Step (ℕ × String) Stage) :=
  let childmap := (m.get D).ref "child_dir_zapobj"
  if !childmap.truthy then []
  else if !(m.fetch childmap).readable then [.emit (.childmap D path)]
  else (PyStr.sortedItems (m.fetch childmap).zap).flatMap fun e => entryStages m D path e.1 e.2

/-- The body of `walk_dsl_dir` as stages. -/
def dirStages (m : Mos) (n : ℕ × String) : List (Step (ℕ × String) Stage) :=
  .emit (.head n.1 n.2) ::
    if isDirectory (m.get n.1) then
      childrenStages m n.1 n.2 ++ [.emit (.clones n.1 n.2)]
    else []

/-- The stages of a scan, in order. -/
def stages (m : Mos) : List Stage :=
  if !(m.get mosDirObj).readable then [.noMos]
  else errlogNames.map .errlog ++ [.cursor] ++
    if rootDataset m = 0 then [.noRoot]
    else ((Traverse.run Prod.fst (dirStages m) (m.objs.entries.length + 1) ⟨[], []⟩
      (rootDataset m, "<root>")).map State.out).getD []

/-! ## A scan is its stages -/

section

variable {m : Mos}

theorem childSteps_eq (D : ℕ) (path name : String) (c : ℕ) :
    childSteps m ((m.get D).ref "child_dir_zapobj") path name c =
      (entryStages m D path name c).flatMap (Step.expand (Stage.events m)) := by
  unfold childSteps entryStages
  by_cases hs : name ∈ specialNames
  · rw [if_pos hs, if_pos hs]; rfl
  rw [if_neg hs, if_neg hs]
  cases ht : (m.get c).hasType "DSL directory" with
  | true => simp [ObjDump.exists_of_hasType (by decide) ht, Step.expand]
  | false =>
    cases he : (m.get c).exists_ with
    | true => simp [Step.expand, Stage.events, he]
    | false => simp [Step.expand, Stage.events, he]

theorem childrenSteps_eq (D : ℕ) (path : String) :
    childrenSteps m D path =
      (childrenStages m D path).flatMap (Step.expand (Stage.events m)) := by
  unfold childrenSteps childmapSteps childrenStages
  dsimp only
  cases ((m.get D).ref "child_dir_zapobj").truthy with
  | false => rfl
  | true =>
    cases (m.fetch ((m.get D).ref "child_dir_zapobj")).readable with
    | false => rfl
    | true =>
      simp only [if_true, Bool.not_true, Bool.false_eq_true, if_false, List.flatMap_assoc]
      exact congrArg (List.flatMap · _) (funext fun _ => childSteps_eq D path _ _)

theorem dirSteps_eq (n : ℕ × String) :
    dirSteps m n = (dirStages m n).flatMap (Step.expand (Stage.events m)) := by
  unfold dirSteps dirStages isDirectory
  rw [childrenSteps_eq, List.flatMap_cons]
  cases hr : (m.get n.1).readable with
  | false => simp [Step.expand, Stage.events, hr]
  | true =>
    cases ht : (m.get n.1).hasType "DSL directory" with
    | false => simp [Step.expand, Stage.events, hr, ht]
    | true => simp [Step.expand, Stage.events, hr, ht]

/-- The walk in stages. -/
theorem walkDslDir_eq_stages (fuel : ℕ) (es : List Event) (n : ℕ × String) :
    walkDslDir m fuel ⟨[], es⟩ n = (Traverse.run Prod.fst (dirStages m) fuel ⟨[], []⟩ n).map
      (State.expand (Stage.events m) es) := by
  have hsteps : dirSteps m = fun n => (dirStages m n).flatMap (Step.expand (Stage.events m)) :=
    funext dirSteps_eq
  have hstart : (⟨[], es⟩ : Walk) = State.expand (Stage.events m) es ⟨[], []⟩ := by
    simp [State.expand]
  rw [walkDslDir_eq, hsteps, hstart, Traverse.run_expand]

/-- Fuel for every object suffices for the stages of the walk. -/
theorem walkStages_isSome {fuel : ℕ} (hf : m.objs.entries.length + 1 ≤ fuel) :
    (Traverse.run Prod.fst (dirStages m) fuel ⟨[], []⟩ (rootDataset m, "<root>")).isSome =
      true := by
  have hwalk := walk_isSome m hf []
  rwa [walkDslDir_eq_stages, Option.isSome_map] at hwalk

/-- **A scan is its stages.** -/
theorem run_eq_stages : run m = (stages m).flatMap (Stage.events m) := by
  have hrun : runFuel m (m.objs.entries.length + 1) = some (run m) := by simp [run]
  have hmos : (errlogNames.map Stage.errlog ++ [Stage.cursor]).flatMap (Stage.events m) =
      checkErrlog m (m.get mosDirObj) ++ checkScan m (m.get mosDirObj) := by
    simp [List.flatMap_map, Stage.events, checkErrlog]
  unfold runFuel at hrun
  unfold stages
  dsimp only at hrun
  cases h1 : (m.get mosDirObj).readable with
  | false =>
    rw [if_pos (by simp [h1])] at hrun
    rw [if_pos (by simp), ← Option.some.inj hrun]
    rfl
  | true =>
    rw [if_neg (by simp [h1])] at hrun
    rw [if_neg (by simp), List.flatMap_append, hmos]
    by_cases h0 : rootDataset m = 0
    · rw [if_neg (by simpa [rootDataset] using h0)] at hrun
      rw [if_pos h0, ← Option.some.inj hrun]
      rfl
    · obtain ⟨t, ht⟩ := Option.isSome_iff_exists.mp (walkStages_isSome (m := m) le_rfl)
      have hroot : (m.get mosDirObj).zap.getD "root_dataset" 0 = rootDataset m := rfl
      rw [hroot, if_pos h0, walkDslDir_eq_stages, ht] at hrun
      rw [if_neg h0, ht, ← Option.some.inj hrun]
      rfl

end

end Zhaxx.Scan
