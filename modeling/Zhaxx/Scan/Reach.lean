import Zhaxx.Scan.Walk

/-!
# Reachability in the DSL namespace

`Walked m D` and `Reached m D` say, as least fixed points over the references of
the observed MOS, on which directories `walk_dsl_dir` is called and which of them
it takes for directories.

Main results:

* `reached_iff_walked`: the reached objects are the walked ones that are
  readable DSL directories.
* `walkDslDir_terminates`: the walk ends, runs its body once for every directory, and
  visits all that can be reached.
* `run_walks`: the log of a scan is that of the error-log checks, the scan check
  and the bodies of the walked directories, each once.
-/

namespace Zhaxx.Scan

open Traverse (Step State emits)

/-! ## References and reachability -/

/-- The field `f` of the object `n` is the nonzero object number `r`. -/
def Ref (m : Mos) (n : ℕ) (f : String) (r : ℕ) : Prop := (m.get n).ref f = .int r ∧ r ≠ 0

instance (m : Mos) (n : ℕ) (f : String) (r : ℕ) : Decidable (Ref m n f r) := by
  unfold Ref; infer_instance

/-- The ZAP `z` has the entry `k → v`. -/
def Entry (m : Mos) (z : ℕ) (k : String) (v : ℕ) : Prop := (k, v) ∈ (m.get z).zap.entries

instance (m : Mos) (z : ℕ) (k : String) (v : ℕ) : Decidable (Entry m z k v) := by
  unfold Entry; infer_instance

theorem Ref.unique {m : Mos} {n : ℕ} {f : String} {r r' : ℕ} (h : Ref m n f r)
    (h' : Ref m n f r') : r = r' := by
  have := h.1.symm.trans h'.1
  simpa using this

/-- Only an object that was dumped has references. -/
theorem Ref.exists_ {m : Mos} {n : ℕ} {f : String} {r : ℕ} (h : Ref m n f r) :
    (m.get n).exists_ = true := by
  refine ObjDump.exists_of_ne_missing fun hmiss => ?_
  have href := h.1
  rw [hmiss] at href
  exact h.2 (FieldVal.int.inj href).symm

/-- A truthy field under which an object exists is a reference to that object. -/
theorem ref_iff {m : Mos} {n : ℕ} {f : String} {p : ObjDump → Prop}
    (hp : ∀ d, p d → d.exists_ = true) :
    (((m.get n).ref f).truthy = true ∧ p (m.fetch ((m.get n).ref f))) ↔
      ∃ r, Ref m n f r ∧ p (m.get r) := by
  unfold Ref
  cases h : (m.get n).ref f with
  | int r =>
    constructor
    · rintro ⟨h1, h2⟩
      exact ⟨r, ⟨rfl, by simpa using h1⟩, h2⟩
    · rintro ⟨r', ⟨hr, h1⟩, h2⟩
      cases hr
      exact ⟨by simpa using h1, h2⟩
  | str s =>
    constructor
    · rintro ⟨-, h2⟩
      have := hp _ h2
      simp at this
    · rintro ⟨r', ⟨hr, -⟩, -⟩
      cases hr

/-- The directories `walk_dsl_dir` is called on. -/
inductive Walked (m : Mos) : ℕ → Prop
  | root : (m.get mosDirObj).readable = true → rootDataset m ≠ 0 → Walked m (rootDataset m)
  | child {D M c : ℕ} {name : String} : Walked m D → isDirectory (m.get D) = true →
      Ref m D "child_dir_zapobj" M → (m.get M).readable = true → Entry m M name c →
      name ∉ specialNames → (m.get c).hasType "DSL directory" = true → Walked m c

/-- The least set that contains the root and is closed under the non-special
    entries of readable child maps, restricted to readable objects whose type
    contains `'DSL directory'`. -/
inductive Reached (m : Mos) : ℕ → Prop
  | root : (m.get mosDirObj).readable = true → rootDataset m ≠ 0 →
      isDirectory (m.get (rootDataset m)) = true → Reached m (rootDataset m)
  | child {D M c : ℕ} {name : String} : Reached m D → Ref m D "child_dir_zapobj" M →
      (m.get M).readable = true → Entry m M name c → name ∉ specialNames →
      isDirectory (m.get c) = true → Reached m c

/-- What child maps lead to from the root, under any name. -/
inductive Linked (m : Mos) : ℕ → Prop
  | root : rootDataset m ≠ 0 → Linked m (rootDataset m)
  | child {D M c : ℕ} {name : String} : Linked m D → (m.get D).hasType "DSL directory" = true →
      Ref m D "child_dir_zapobj" M → Entry m M name c → Linked m c

theorem isDirectory_iff {d : ObjDump} :
    isDirectory d = true ↔ d.readable = true ∧ d.hasType "DSL directory" = true := by
  simp [isDirectory]

theorem Reached.isDirectory {m : Mos} {D : ℕ} (h : Reached m D) :
    isDirectory (m.get D) = true := by
  cases h <;> assumption

theorem Reached.readable_mos {m : Mos} {D : ℕ} (h : Reached m D) :
    (m.get mosDirObj).readable = true := by
  induction h with
  | root h1 => exact h1
  | child _ _ _ _ _ _ ih => exact ih

theorem Walked.readable_mos {m : Mos} {D : ℕ} (h : Walked m D) :
    (m.get mosDirObj).readable = true := by
  induction h with
  | root h1 => exact h1
  | child _ _ _ _ _ _ _ ih => exact ih

theorem Walked.root_ne_zero {m : Mos} {D : ℕ} (h : Walked m D) : rootDataset m ≠ 0 := by
  induction h with
  | root _ h2 => exact h2
  | child _ _ _ _ _ _ _ ih => exact ih

theorem reached_iff_walked {m : Mos} {D : ℕ} :
    Reached m D ↔ Walked m D ∧ isDirectory (m.get D) = true := by
  constructor
  · intro h
    refine ⟨?_, h.isDirectory⟩
    induction h with
    | root h1 h2 _ => exact .root h1 h2
    | child hD hM hr he hn hc ih =>
      exact .child ih hD.isDirectory hM hr he hn (isDirectory_iff.mp hc).2
  · rintro ⟨h, hd⟩
    induction h with
    | root h1 h2 => exact .root h1 h2 hd
    | child _ hD hM hr he hn _ ih => exact .child (ih hD) hM hr he hn hd

/-! ## The log of a scan -/

/-- What the walk appends for one directory. -/
def dirEvents (m : Mos) (n : ℕ × String) : List Event := emits (dirSteps m n)

/-- The finding of `run` for a MOS directory without root (lines 538–540). -/
def noRoot : Event := add .critical (.int mosDirObj) "MOS directory has no root_dataset entry"

/-- `self.visited_dirs` after a scan, in the order in which the walk added them. -/
def walkOrder (m : Mos) : List ℕ :=
  let mos := m.get mosDirObj
  if mos.readable = true ∧ rootDataset m ≠ 0 then
    ((walkDslDir m (m.objs.entries.length + 1) ⟨[], checkErrlog m mos ++ checkScan m mos⟩
      (rootDataset m, "<root>")).map State.visited).getD []
  else []

/-- The nodes expanded by the walk, in order, and what they logged. -/
structure Walks (m : Mos) (nodes : List (ℕ × String)) (log : List Event) : Prop where
  order : nodes.map Prod.fst = walkOrder m
  nodup : (nodes.map Prod.fst).Nodup
  mem_nodes : ∀ D, D ∈ nodes.map Prod.fst ↔ Walked m D
  paths : ∀ n ∈ nodes,
    Relation.ReflTransGen (Traverse.Visits (dirSteps m)) (rootDataset m, "<root>") n
  mem_log : ∀ e, e ∈ log ↔ ∃ n ∈ nodes, e ∈ dirEvents m n
  filter_log : ∀ f : Event → Bool, (∀ n, Traverse.Leading f (dirSteps m n)) →
    log.filter f = nodes.flatMap fun n => (dirEvents m n).filter f

/-- The edge relation of the walk on object numbers. -/
def Succ (m : Mos) (D c : ℕ) : Prop :=
  isDirectory (m.get D) = true ∧ ∃ M name, Ref m D "child_dir_zapobj" M ∧
    (m.get M).readable = true ∧ Entry m M name c ∧ name ∉ specialNames ∧
    (m.get c).hasType "DSL directory" = true

theorem succ_iff {m : Mos} (n : ℕ × String) (k : ℕ) :
    (∃ c, Traverse.Visits (dirSteps m) n c ∧ c.1 = k) ↔ Succ m n.1 k := by
  have href := ref_iff (m := m) (n := n.1) (f := "child_dir_zapobj")
    (p := fun d => d.readable = true ∧ ∃ name, (name, k) ∈ d.zap.entries ∧ name ∉ specialNames ∧
      (m.get k).hasType "DSL directory" = true)
    fun d h => ObjDump.exists_of_readable h.1
  unfold Succ
  constructor
  · rintro ⟨c, hc, rfl⟩
    obtain ⟨hD, ht, hr, e, he, hn, hty, hc⟩ := visits_iff.mp hc
    rw [hc] at href
    obtain ⟨M, hM, hrM, name, he', hn', hty'⟩ := href.mp ⟨ht, hr, e.1, he, hn, hty⟩
    exact ⟨hD, M, name, hM, hrM, by rw [hc]; exact he', hn', by rw [hc]; exact hty'⟩
  · rintro ⟨hD, M, name, hM, hrM, he, hn, hty⟩
    obtain ⟨ht, hr, entry, he', hn', hty'⟩ := href.mpr ⟨M, hM, hrM, name, he, hn, hty⟩
    exact ⟨(k, s!"{n.2}/{entry}"), visits_iff.mpr ⟨hD, ht, hr, (entry, k), he', hn', hty', rfl⟩,
      rfl⟩

/-- **The walk terminates on every graph.** From any start, with the nesting bounded by
    the objects of the MOS or by anything more, the walk ends in the same state. Its
    `visited` has one element for every run of the body of `walk_dsl_dir`. -/
theorem walkDslDir_terminates (m : Mos) (start : ℕ) (path : String) (es : List Event) :
    ∃ st, (∀ fuel, m.objs.entries.length + 2 ≤ fuel →
        walkDslDir m fuel ⟨[], es⟩ (start, path) = some st) ∧
      st.visited.Nodup ∧
      ∀ D, D ∈ st.visited ↔ Relation.ReflTransGen (Succ m) start D := by
  have hcard : (Traverse.unvisited (insert start (walkUniverse m)) ⟨[], es⟩).card ≤
      m.objs.entries.length + 2 :=
    calc _ ≤ (insert start (walkUniverse m)).card := Finset.card_filter_le _ _
      _ ≤ (walkUniverse m).card + 1 := Finset.card_insert_le _ _
      _ ≤ m.objs.entries.length + 2 := Nat.succ_le_succ (card_walkUniverse m)
  obtain ⟨st, hst⟩ := Option.isSome_iff_exists.mp
    (Traverse.run_isSome Prod.fst (dirSteps m)
      (fun n c hc => Finset.mem_insert_of_mem (visits_walkUniverse hc)) _ _ (start, path)
      (Finset.mem_insert_self _ _) hcard)
  refine ⟨st, fun fuel hf => ?_, ?_, fun D => Traverse.mem_visited_iff _ _ succ_iff hst D⟩
  · rw [walkDslDir_eq]
    exact Traverse.run_mono _ _ hf hst
  · obtain ⟨-, _, _, he, -⟩ := Traverse.run_covers _ _ hst
    exact he.nodup List.nodup_nil

theorem walked_iff {m : Mos} (h1 : (m.get mosDirObj).readable = true) (hr : rootDataset m ≠ 0)
    (D : ℕ) : Walked m D ↔ Relation.ReflTransGen (Succ m) (rootDataset m) D := by
  constructor
  · intro h
    induction h with
    | root => exact .refl
    | child _ hD hM hrM he hn hc ih => exact .tail ih ⟨hD, _, _, hM, hrM, he, hn, hc⟩
  · intro h
    induction h with
    | refl => exact .root h1 hr
    | tail _ hs ih =>
      obtain ⟨hD, M, name, hM, hrM, he, hn, hc⟩ := hs
      exact .child ih hD hM hrM he hn hc

theorem walk_walks {m : Mos} (h1 : (m.get mosDirObj).readable = true) (hr : rootDataset m ≠ 0)
    {fuel : ℕ} {es : List Event} {st : Walk} (horder : walkOrder m = st.visited)
    (h : walkDslDir m fuel ⟨[], es⟩ (rootDataset m, "<root>") = some st) :
    ∃ nodes log, Walks m nodes log ∧ st.out = es ++ log := by
  rw [walkDslDir_eq] at h
  obtain ⟨-, nodes, log, he, hpaths⟩ := Traverse.run_covers _ _ h
  refine ⟨nodes, log, ⟨?_, ?_, fun D => ?_, hpaths, fun e => ?_, he.filter_out⟩, he.out⟩
  · rw [horder, he.visited, List.nil_append]
  · have := he.nodup List.nodup_nil
    rw [he.visited] at this
    simpa using this
  · rw [walked_iff h1 hr, ← Traverse.mem_visited_iff _ _ succ_iff h, he.visited]
    simp
  · rw [he.mem_out]
    simp [dirEvents]

/-- **The log of a scan.** -/
theorem run_walks {m : Mos} (h1 : (m.get mosDirObj).readable = true) :
    ∃ nodes log, Walks m nodes log ∧
      run m = checkErrlog m (m.get mosDirObj) ++ checkScan m (m.get mosDirObj) ++
        (log ++ if rootDataset m = 0 then [noRoot] else []) := by
  have hrun : runFuel m (m.objs.entries.length + 1) = some (run m) := by simp [run]
  unfold runFuel at hrun
  dsimp only at hrun
  rw [if_neg (by simp [h1])] at hrun
  by_cases hr : rootDataset m = 0
  · rw [if_neg (by simpa [rootDataset] using hr)] at hrun
    refine ⟨[], [], ⟨by simp [walkOrder, hr], List.nodup_nil, fun D => ?_, by simp, by simp,
      by simp⟩, ?_⟩
    · simp only [List.map_nil, List.not_mem_nil, false_iff]
      exact fun hw => hw.root_ne_zero hr
    · rw [if_pos hr, ← Option.some.inj hrun]; rfl
  · rw [if_pos (by simpa [rootDataset] using hr)] at hrun
    obtain ⟨st, hst, hout⟩ := Option.map_eq_some_iff.mp hrun
    have horder : walkOrder m = st.visited := by
      unfold walkOrder
      dsimp only
      rw [if_pos ⟨h1, hr⟩]
      exact congrArg (fun o => (o.map State.visited).getD []) hst
    obtain ⟨nodes, log, hw, he⟩ := walk_walks h1 hr horder hst
    exact ⟨nodes, log, hw, by rw [if_neg hr, ← hout, he, List.append_nil]⟩

theorem run_unreadable {m : Mos} (h1 : (m.get mosDirObj).readable = false) :
    opsOf (run m) = [] ∧ findings m ≠ [] := by
  have hrun : runFuel m (m.objs.entries.length + 1) = some (run m) := by simp [run]
  unfold runFuel at hrun
  dsimp only at hrun
  rw [if_pos (by simp [h1])] at hrun
  unfold findings
  rw [← Option.some.inj hrun]
  exact ⟨rfl, List.cons_ne_nil _ _⟩

end Zhaxx.Scan
