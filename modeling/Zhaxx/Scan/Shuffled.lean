import Zhaxx.Lib.Shuffle
import Zhaxx.Scan.Capture

/-!
# The order of the lines of a dump

zdb prints the entries of a ZAP in the order of their hashes, and `parse_obj_dump`
(`scan/zhaxx-scan` lines 83–120) files every `key = val` line as it comes. Under distinct
keys the order of these lines decides the order of the three dictionaries and nothing else.

Results:
* `parseLine_acts`: what any line does to an object.
* `same_source`: dumps that differ in the order of such lines are parsed to objects that
  say the same.
-/

namespace Zhaxx.Scan

/-! ## Objects that say the same -/

/-- What a dump says about the object as a whole. -/
abbrev Marks := Bool × Bool × Option String

/-- What a dump says under one key: a bonus field, a ZAP entry, the words of one. -/
abbrev Said := Option FieldVal × Option ℕ × Option (List ℕ)

namespace ObjDump

def marks (d : ObjDump) : Marks := (d.exists_, d.unreadable, d.type)

def under (d : ObjDump) (k : String) : Said :=
  (d.fields.get? k, d.zap.get? k, d.zapMulti.get? k)

/-- The dumps say the same, maybe in another order. -/
structure Same (d d' : ObjDump) : Prop where
  marks : d.marks = d'.marks
  under : ∀ k, d.under k = d'.under k

namespace Same

variable {d d' : ObjDump}

theorem refl (d : ObjDump) : d.Same d := ⟨rfl, fun _ => rfl⟩

theorem equivalence : Equivalence Same where
  refl := refl
  symm h := ⟨h.marks.symm, fun k => (h.under k).symm⟩
  trans h h' := ⟨h.marks.trans h'.marks, fun k => (h.under k).trans (h'.under k)⟩

theorem exists_ (h : d.Same d') : d.exists_ = d'.exists_ := congrArg Prod.fst h.marks

theorem unreadable (h : d.Same d') : d.unreadable = d'.unreadable :=
  congrArg (fun marks => marks.2.1) h.marks

theorem type (h : d.Same d') : d.type = d'.type := congrArg (fun marks => marks.2.2) h.marks

theorem get?_fields (h : d.Same d') (k : String) : d.fields.get? k = d'.fields.get? k :=
  congrArg Prod.fst (h.under k)

theorem get?_zap (h : d.Same d') (k : String) : d.zap.get? k = d'.zap.get? k :=
  congrArg (fun u => u.2.1) (h.under k)

theorem get?_zapMulti (h : d.Same d') (k : String) : d.zapMulti.get? k = d'.zapMulti.get? k :=
  congrArg (fun u => u.2.2) (h.under k)

end Same

end ObjDump

/-! ## What a line does -/

/-- The key of a line behind the data row, if `parse_obj_dump` takes it as `key = val`
    (lines 89–106). -/
def kvKey (obj : ℕ) (line : List Char) : Option String :=
  if ((matchObjHeader line).filter fun g => PyStr.intDecimal g.1 = obj).isSome then none
  else if (Regex.matchItems Regex.atEnd bonusRe line).isSome then none
  else if searchError line then none
  else (matchKv line).map fun kv => String.ofList kv.1

/-- A `key = val` line changes what the dump says under its key. -/
theorem addKv_acts (key val : List Char) :
    ∃ u : Said → Said, ∀ (d : ObjDump) (h : d.exists_ = true), (d.addKv h key val).marks = d.marks ∧
      ∀ k, (d.addKv h key val).under k =
        if k = String.ofList key then u (d.under k) else d.under k := by
  unfold ObjDump.addKv
  dsimp only
  split_ifs with hwords hint
  · refine ⟨fun u => (u.1, u.2.1, some ((PyStr.split val).map PyStr.intDecimal)),
      fun d _ => ⟨rfl, fun k => ?_⟩⟩
    simp only [ObjDump.under, Dict.get?_set]
    split_ifs <;> rfl
  · refine ⟨fun u => (some (.int (PyStr.intDecimal ((PyStr.split val).headD []))),
      some (PyStr.intDecimal ((PyStr.split val).headD [])), u.2.2), fun d _ => ⟨rfl, fun k => ?_⟩⟩
    simp only [ObjDump.under, Dict.get?_set]
    split_ifs <;> rfl
  · refine ⟨fun u => (some (.str (String.ofList val)), u.2), fun d _ => ⟨rfl, fun k => ?_⟩⟩
    simp only [ObjDump.under, Dict.get?_set]
    split_ifs <;> rfl

/-- **What a line does.** Behind the data row a `key = val` line changes what is said under
    its key, and any other line what is said about the object as a whole. -/
theorem parseLine_acts (obj : ℕ) (line : List Char) :
    ∃ (g : Marks → Marks) (u : Said → Said), (kvKey obj line ≠ none → g = id) ∧
      ∀ d : ObjDump, d.exists_ = true → (parseLine obj d line).exists_ = true ∧
        (parseLine obj d line).marks = g d.marks ∧
        ∀ k, (parseLine obj d line).under k =
          if kvKey obj line = some k then u (d.under k) else d.under k := by
  unfold parseLine kvKey
  cases hrow : (matchObjHeader line).filter fun g => PyStr.intDecimal g.1 = obj with
  | some g =>
    refine ⟨fun marks => (true, marks.2.1, some (headerType g.2)), id, by simp,
      fun d _ => ⟨rfl, rfl, fun k => ?_⟩⟩
    simp [ObjDump.under]
  | none =>
    cases hbonus : (Regex.matchItems Regex.atEnd bonusRe line).isSome with
    | true => exact ⟨id, id, by simp, fun d h => by simp [h]⟩
    | false =>
      cases herr : searchError line with
      | true =>
        refine ⟨fun marks => (marks.1, true, marks.2.2), id, by simp, fun d h => ?_⟩
        simp [h, ObjDump.marks, ObjDump.under]
      | false =>
        cases hkv : matchKv line with
        | none => exact ⟨id, id, by simp, fun d h => by simp [h]⟩
        | some kv =>
          obtain ⟨u, hu⟩ := addKv_acts kv.1 kv.2
          refine ⟨id, u, fun _ => rfl, fun d h => ?_⟩
          obtain ⟨hmarks, hunder⟩ := hu d h
          have hexists : (d.addKv h kv.1 kv.2).exists_ = true :=
            (congrArg Prod.fst hmarks).trans h
          simp [h, hexists, hmarks, hunder, eq_comm]

/-- Behind the data row. -/
theorem parseLine_respects (obj : ℕ) :
    Shuffle.Respects (parseLine obj) (fun d => d.exists_ = true) ObjDump.Same where
  equiv := ObjDump.Same.equivalence
  keeps line h := by
    obtain ⟨g, u, -, hacts⟩ := parseLine_acts obj line
    exact (hacts _ h).1
  congr line h h' hsame := by
    obtain ⟨g, u, -, hacts⟩ := parseLine_acts obj line
    obtain ⟨-, hmarks, hunder⟩ := hacts _ h
    obtain ⟨-, hmarks', hunder'⟩ := hacts _ h'
    constructor
    · rw [hmarks, hmarks', hsame.marks]
    · intro k
      rw [hunder, hunder', hsame.under]

/-- A `key = val` line commutes with every line under no key or under another. -/
theorem parseLine_commute {obj : ℕ} {line line' : List Char} (hkv : kvKey obj line ≠ none)
    (hne : kvKey obj line' ≠ kvKey obj line) :
    Shuffle.Commute (parseLine obj) (fun d => d.exists_ = true) ObjDump.Same line line' := by
  intro d h
  obtain ⟨g, u, hid, hacts⟩ := parseLine_acts obj line
  obtain ⟨g', u', -, hacts'⟩ := parseLine_acts obj line'
  obtain ⟨h1, hmarks1, hunder1⟩ := hacts d h
  obtain ⟨h1', hmarks1', hunder1'⟩ := hacts' d h
  obtain ⟨-, hmarks2, hunder2⟩ := hacts' _ h1
  obtain ⟨-, hmarks2', hunder2'⟩ := hacts _ h1'
  constructor
  · rw [hmarks2, hmarks1, hmarks2', hmarks1', hid hkv]
    rfl
  · intro k
    rw [hunder2, hunder1, hunder2', hunder1']
    by_cases hk : kvKey obj line = some k
    · have hk' : kvKey obj line' ≠ some k := hk ▸ hne
      rw [if_neg hk', if_neg hk']
    · rw [if_neg hk, if_neg hk]

/-! ## Shuffled dumps -/

/-- The lines of two dumps of the object `obj`: the same, or in another order of the
    `key = val` lines behind a data row, whose keys are distinct. -/
def ShuffledLines (obj : ℕ) (lines lines' : List (List Char)) : Prop :=
  lines = lines' ∨ ∃ front row rest rest', lines = front ++ row :: rest ∧
    lines' = front ++ row :: rest' ∧ HeaderOf obj row ∧ rest.Perm rest' ∧
    (rest.filter fun line => !(kvKey obj line).isSome) =
      (rest'.filter fun line => !(kvKey obj line).isSome) ∧
    (rest.filterMap (kvKey obj)).Nodup

theorem exists_of_headerOf {obj : ℕ} {row : List Char} (h : HeaderOf obj row) (d : ObjDump) :
    (parseLine obj d row).exists_ = true := by
  obtain ⟨g, hg, hobj⟩ := h
  unfold parseLine
  rw [hg, Option.filter_some, if_pos (decide_eq_true hobj)]

/-- Shuffled lines are parsed to objects that say the same. -/
theorem ShuffledLines.same {obj : ℕ} {lines lines' : List (List Char)}
    (h : ShuffledLines obj lines lines') (d : ObjDump) :
    (lines.foldl (parseLine obj) d).Same (lines'.foldl (parseLine obj) d) := by
  rcases h with rfl | ⟨front, row, rest, rest', rfl, rfl, hrow, hperm, hfilter, hnodup⟩
  · exact .refl _
  rw [List.foldl_append, List.foldl_append, List.foldl_cons, List.foldl_cons]
  have hlate : ∀ line ∈ rest, (kvKey obj line).isSome = true → ∀ line' ∈ rest,
      (kvKey obj line').isSome = false →
      Shuffle.Commute (parseLine obj) (fun d => d.exists_ = true) ObjDump.Same line line' := by
    intro line _ hkv line' _ hkv'
    have hsome : kvKey obj line ≠ none := Option.isSome_iff_ne_none.mp hkv
    have hnone : kvKey obj line' = none := Option.not_isSome_iff_eq_none.mp (by simp [hkv'])
    exact parseLine_commute hsome (by rw [hnone]; exact hsome.symm)
  have hpair : (rest.filter fun line => (kvKey obj line).isSome).Pairwise
      (Shuffle.Commute (parseLine obj) (fun d => d.exists_ = true) ObjDump.Same) := by
    have hkeys := (List.pairwise_filterMap.mp hnodup).filter fun line => (kvKey obj line).isSome
    refine hkeys.imp_of_mem fun {line line'} hm hm' hne => ?_
    obtain ⟨k, hk⟩ := Option.isSome_iff_exists.mp (List.mem_filter.mp hm).2
    obtain ⟨k', hk'⟩ := Option.isSome_iff_exists.mp (List.mem_filter.mp hm').2
    refine parseLine_commute (by rw [hk]; exact Option.some_ne_none k) ?_
    rw [hk, hk', Ne, Option.some.injEq]
    exact fun heq => hne k hk k' hk' heq.symm
  exact (parseLine_respects obj).foldl_shuffle hperm hfilter hlate hpair
    (exists_of_headerOf hrow _)

/-- Two dump directories whose dumps differ in the order of their `key = val` lines. -/
def DumpDir.Shuffled (c c' : DumpDir) : Prop :=
  ∀ obj, Option.Rel (fun t t' => ShuffledLines obj (PyStr.splitlines t) (PyStr.splitlines t'))
    (c.files.get? obj) (c'.files.get? obj)

/-- **Shuffled dumps.** They say the same about every object. -/
theorem DumpDir.Shuffled.same_source {c c' : DumpDir} (h : c.Shuffled c') (n : ℕ) :
    (c.source.get n).Same (c'.source.get n) := by
  rw [get_source, get_source]
  have hn := h n
  generalize c.files.get? n = o at hn ⊢
  generalize c'.files.get? n = o' at hn ⊢
  cases hn with
  | none => exact .refl _
  | some ht => exact ht.same .missing

end Zhaxx.Scan
