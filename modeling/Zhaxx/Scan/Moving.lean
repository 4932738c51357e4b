import Zhaxx.Scan.Named
import Zhaxx.Scan.Render
import Zhaxx.Scan.Source

/-!
# Scans of a pool in motion

A scan of a live pool runs zdb object by object while the pool changes, so no two dumps need
to be of one transaction group. What holds it together is the cache of `ZdbSource`
(`scan/zhaxx-scan` lines 137–159).

Results:
* `parseObjDump_text`: a field is kept as text only when it is not a number.
* `movingRun_snapshot`: the scan is that of one MOS, in which each object is as zdb printed it
  at one moment, and the scan of the capture repeats it.
-/

namespace Zhaxx.Scan

open Decimal (digits)

/-! ## Fields that are text -/

/-- No field of the dump that is kept as text is a number. -/
def TextFields (d : ObjDump) : Prop :=
  ∀ (f : String) (s : String) (n : ℕ), d.fields.get? f = some (.str s) → s.toList ≠ digits n

theorem textFields_addKv {d : ObjDump} (h : d.exists_ = true) (hd : TextFields d)
    (key val : List Char) : TextFields (d.addKv h key val) := by
  intro f s n hs
  unfold ObjDump.addKv at hs
  dsimp only at hs
  split_ifs at hs with hwords hint
  · exact hd f s n hs
  · rw [Dict.get?_set] at hs
    split_ifs at hs
    · cases hs
    · exact hd f s n hs
  · rw [Dict.get?_set] at hs
    split_ifs at hs
    · obtain rfl := FieldVal.str.inj (Option.some.inj hs)
      rintro hval
      rw [String.toList_ofList] at hval
      refine hint ?_
      have hsplit : PyStr.split (digits n) = [digits n] := split_text (.num n)
      rw [hval, hsplit]
      exact ⟨(digits_clean n).1, List.all_eq_true.mpr digit_digits⟩
    · exact hd f s n hs

theorem textFields_parseLine {obj : ℕ} {d : ObjDump} (hd : TextFields d) (line : List Char) :
    TextFields (parseLine obj d line) := by
  unfold parseLine
  split
  · exact hd
  · split_ifs with h hbonus herr
    · exact hd
    · exact hd
    · split
      · exact textFields_addKv h hd _ _
      · exact hd
    · exact hd

/-- **Numbers are not kept as text.** -/
theorem parseObjDump_text (obj : ℕ) (text : List Char) : TextFields (parseObjDump obj text) := by
  unfold parseObjDump
  generalize PyStr.splitlines text = lines
  have hstart : TextFields .missing := fun f s n h => by simp [ObjDump.missing] at h
  generalize ObjDump.missing = d at hstart
  induction lines generalizing d with
  | nil => exact hstart
  | cons line lines ih => exact ih _ (textFields_parseLine hstart line)

theorem textFields_parseDump (obj : ObjArg) (text : String) : TextFields (parseDump obj text) := by
  unfold parseDump
  have hmissing : TextFields .missing := fun f s n h => by simp [ObjDump.missing] at h
  cases obj with
  | int z =>
    dsimp only
    split_ifs
    · exact parseObjDump_text _ _
    · exact hmissing
  | str s => exact hmissing

/-! ## The source -/

/-- A `ZdbSource` with the number of calls of `get` so far and the objects zdb was run for. -/
structure Moving where
  time : ℕ
  ran : List ObjArg
  src : ZdbSource

/-- `ZdbSource.get` (lines 137–159) on a pool that changes; `zdb t` is the outcome of the
    command when the call number `t` is made. -/
def Moving.get (zdb : ℕ → String → ZdbRun) (obj : ObjArg) (s : Moving) : ObjDump × Moving :=
  let r := ZdbSource.get (zdb s.time) obj s.src
  (r.1, ⟨s.time + 1, if (s.src.cache.get? obj).isSome then s.ran else s.ran ++ [obj], r.2⟩)

/-- The scan of such a pool; `old` is what the capture directory held before. -/
def movingRun (zdb : ℕ → String → ZdbRun) (old : Dict String String) (fuel : ℕ) :
    Option (List Event) × Moving :=
  (Program.run fuel).run (Moving.get zdb) ⟨0, [], .empty, old⟩

/-- What the scan has seen. -/
def Moving.snapshot (s : Moving) (obj : ObjArg) : ObjDump := s.src.cache.getD obj .missing

/-- The object numbers zdb was run for, with what the scan has seen of them. -/
def Moving.seen (s : Moving) : List (ℕ × ObjDump) :=
  s.ran.filterMap fun obj =>
    match obj with
    | .int z => if 0 ≤ z then some (z.toNat, s.snapshot obj) else none
    | .str _ => none

/-- The MOS that the scan has seen. -/
def Moving.mos (s : Moving) : Mos := .ofList s.seen

/-! ## What the source keeps -/

section

variable {zdb : ℕ → String → ZdbRun}

theorem Moving.get_hit {obj : ObjArg} {s : Moving} {d : ObjDump}
    (h : s.src.cache.get? obj = some d) :
    get zdb obj s = (d, ⟨s.time + 1, s.ran, s.src⟩) := by
  simp [get, ZdbSource.get, h]

theorem Moving.get_miss {obj : ObjArg} {s : Moving} (h : s.src.cache.get? obj = none) :
    get zdb obj s = (zdbDump (zdb s.time) obj, ⟨s.time + 1, s.ran ++ [obj],
      s.src.cache.set obj (zdbDump (zdb s.time) obj),
      s.src.capture.set (dumpName obj) (zdb s.time (toString obj)).text⟩) := by
  simp [get, ZdbSource.get, h, zdbDump]

/-- An answer is in the cache from then on. -/
theorem Moving.cache_get (obj : ObjArg) (s : Moving) :
    (get zdb obj s).2.src.cache.get? obj = some (get zdb obj s).1 := by
  cases h : s.src.cache.get? obj with
  | some d => rw [get_hit h, ← h]
  | none => rw [get_miss h, Dict.get?_set, if_pos rfl]

theorem Moving.cache_kept (obj : ObjArg) (s : Moving) (other : ObjArg) (d : ObjDump)
    (hd : s.src.cache.get? other = some d) : (get zdb obj s).2.src.cache.get? other = some d := by
  cases h : s.src.cache.get? obj with
  | some d => rw [get_hit h, hd]
  | none =>
    have hne : other ≠ obj := by
      rintro rfl
      rw [h] at hd
      cases hd
    rw [get_miss h, Dict.get?_set, if_neg hne, hd]

/-- The cache holds what zdb printed, once for each object it was run for. -/
structure Moving.Ok (zdb : ℕ → String → ZdbRun) (s : Moving) : Prop where
  nodup : s.ran.Nodup
  ran : ∀ obj, obj ∈ s.ran ↔ (s.src.cache.get? obj).isSome = true
  printed : ∀ obj d, s.src.cache.get? obj = some d → ∃ t < s.time, d = zdbDump (zdb t) obj

theorem Moving.get_ok (obj : ObjArg) (s : Moving) (hs : s.Ok zdb) : (get zdb obj s).2.Ok zdb := by
  cases h : s.src.cache.get? obj with
  | some d =>
    rw [get_hit h]
    refine ⟨hs.nodup, hs.ran, fun other d hd => ?_⟩
    obtain ⟨t, ht, hdump⟩ := hs.printed other d hd
    exact ⟨t, Nat.lt_succ_of_lt ht, hdump⟩
  | none =>
    have hnew : obj ∉ s.ran := fun hmem => by
      rw [hs.ran, h] at hmem
      cases hmem
    rw [get_miss h]
    refine ⟨?_, fun other => ?_, fun other d hd => ?_⟩
    · exact List.nodup_append_comm.mp (List.nodup_cons.mpr ⟨hnew, hs.nodup⟩)
    · dsimp only
      rw [List.mem_append, List.mem_singleton, hs.ran, Dict.get?_set]
      split_ifs with heq
      · simp [heq]
      · simp [heq]
    · dsimp only at hd ⊢
      rw [Dict.get?_set] at hd
      split_ifs at hd with heq
      · exact ⟨s.time, Nat.lt_succ_self _, by rw [heq, ← Option.some.inj hd]⟩
      · obtain ⟨t, ht, hdump⟩ := hs.printed other d hd
        exact ⟨t, Nat.lt_succ_of_lt ht, hdump⟩

/-- The file of every object number that was read has the text of its dump. -/
def Moving.Files (s : Moving) : Prop :=
  ∀ (n : ℕ) (d : ObjDump), s.src.cache.get? (.int n) = some d →
    ∃ text, s.src.capture.get? (dumpName (.int n)) = some text ∧ parseDump (.int n) text = d

/-- An argument of `get` that is not the text of a number. -/
def ObjArg.Clear (obj : ObjArg) : Prop := ∀ s n, obj = .str s → s.toList ≠ digits n

theorem ObjArg.Clear.eq_of_dumpName {obj : ObjArg} (h : obj.Clear) {n : ℕ}
    (hname : dumpName (.int n) = dumpName obj) : .int n = obj := by
  have htext := congrArg String.toList (dumpName_inj hname)
  cases obj with
  | int z => rw [Decimal.toString_int_injective htext]
  | str s =>
    have hs : digits n = s.toList := by
      rw [← Decimal.toList_toString_natCast]
      exact htext
    exact absurd hs.symm (h s n rfl)

theorem Moving.get_files (obj : ObjArg) (s : Moving) (hobj : obj.Clear) (hs : s.Files) :
    (get zdb obj s).2.Files := by
  cases h : s.src.cache.get? obj with
  | some d =>
    rw [get_hit h]
    exact hs
  | none =>
    rw [get_miss h]
    intro n d hd
    dsimp only at hd ⊢
    rw [Dict.get?_set] at hd ⊢
    split_ifs at hd with heq
    · subst heq
      exact ⟨_, if_pos rfl, Option.some.inj hd⟩
    · rw [if_neg fun hname => heq (hobj.eq_of_dumpName hname)]
      exact hs n d hd

end

/-! ## The run -/

section

variable (zdb : ℕ → String → ZdbRun) (old : Dict String String) (fuel : ℕ)

/-- The run is that over what it has seen, and asks the same. -/
theorem movingRun_eval :
    (movingRun zdb old fuel).1 = (Program.run fuel).eval (movingRun zdb old fuel).2.snapshot ∧
      (Program.run fuel).trace (Moving.get zdb) ⟨0, [], .empty, old⟩ =
        (Program.run fuel).asked (movingRun zdb old fuel).2.snapshot ∧
      ∀ obj ∈ (Program.run fuel).asked (movingRun zdb old fuel).2.snapshot,
        ((movingRun zdb old fuel).2.src.cache.get? obj).isSome = true := by
  have hsrc : ∀ obj d, (movingRun zdb old fuel).2.src.cache.get? obj = some d →
      (movingRun zdb old fuel).2.snapshot obj = d := fun obj d hd => by
    rw [Moving.snapshot, Dict.getD, hd, Option.getD_some]
  obtain ⟨heval, htrace, -, hknown⟩ := Query.run_keeps_answers
    (fun (s : Moving) obj => s.src.cache.get? obj) Moving.cache_get Moving.cache_kept hsrc
  exact ⟨heval, htrace, htrace ▸ hknown⟩

theorem movingRun_ok : (movingRun zdb old fuel).2.Ok zdb :=
  Query.run_inv (P := fun _ => True) (fun obj s _ => Moving.get_ok obj s) (fun _ _ => trivial)
    ⟨List.nodup_nil, fun obj => by simp, fun obj d hd => by simp at hd⟩

/-- No text that the scan asks for is that of a number. -/
theorem movingRun_clear :
    ∀ obj ∈ (Program.run fuel).asked (movingRun zdb old fuel).2.snapshot, obj.Clear := by
  intro obj hobj s n hs
  subst hs
  obtain ⟨pre, post, hsplit⟩ := List.append_of_mem hobj
  rcases Query.asked_of_led (Program.follows_run fuel) hsplit with hstart | ⟨obj', -, hnamed⟩
  · cases hstart
  · have hfields : TextFields ((movingRun zdb old fuel).2.snapshot obj') := by
      unfold Moving.snapshot Dict.getD
      cases hc : (movingRun zdb old fuel).2.src.cache.get? obj' with
      | none => exact fun f s n h => by simp [ObjDump.missing] at h
      | some d =>
        obtain ⟨t, -, rfl⟩ := (movingRun_ok zdb old fuel).printed obj' d hc
        exact textFields_parseDump obj' _
    generalize (movingRun zdb old fuel).2.snapshot obj' = d at hnamed hfields
    obtain ⟨f, hf⟩ : ∃ f, d.ref f = .str s := by
      generalize hstr : ObjArg.str s = obj at hnamed
      cases hnamed with
      | field f _ =>
        refine ⟨f, ?_⟩
        cases hv : d.ref f with
        | int v => rw [hv] at hstr; cases hstr
        | str s' => rw [hv] at hstr; cases hstr; rfl
      | _ => cases hstr
    refine hfields f s n ?_
    unfold ObjDump.ref Dict.getD at hf
    cases hget : d.fields.get? f with
    | none => rw [hget] at hf; cases hf
    | some v => rw [hget] at hf; rw [← hf]; rfl

theorem movingRun_files : (movingRun zdb old fuel).2.Files := by
  refine Query.run_inv (fun obj s hobj => Moving.get_files obj s hobj) ?_
    (fun n d hd => by simp at hd)
  rw [(movingRun_eval zdb old fuel).2.1]
  exact movingRun_clear zdb old fuel

end

/-! ## The MOS that was seen -/

section

variable {zdb : ℕ → String → ZdbRun} {s : Moving} (hs : s.Ok zdb)

include hs

theorem Moving.mem_seen {n : ℕ} {d : ObjDump} :
    (n, d) ∈ s.seen ↔ s.src.cache.get? (.int n) = some d := by
  unfold seen
  rw [List.mem_filterMap]
  constructor
  · rintro ⟨z | s', hran, h⟩
    · dsimp only at h
      split_ifs at h with hz
      obtain ⟨hn, hd⟩ := Prod.mk.inj (Option.some.inj h)
      obtain rfl : z = n := by rw [← hn, Int.toNat_of_nonneg hz]
      obtain ⟨d', hd'⟩ := Option.isSome_iff_exists.mp ((hs.ran _).mp hran)
      rw [snapshot, Dict.getD, hd', Option.getD_some] at hd
      rw [hd', hd]
    · cases h
  · intro h
    refine ⟨.int n, (hs.ran _).mpr (by rw [h]; rfl), ?_⟩
    simp [snapshot, Dict.getD, h]

theorem Moving.get_mos (n : ℕ) : s.mos.get n = s.snapshot (.int n) := by
  unfold mos Mos.get Mos.ofList Dict.ofList Dict.getD snapshot Dict.getD
  cases hc : s.src.cache.get? (.int n) with
  | some d =>
    have hall : ∀ e ∈ s.seen, e.1 = n → e.2 = d := by
      rintro ⟨n', d'⟩ he rfl
      rw [mem_seen hs, hc] at he
      exact (Option.some.inj he).symm
    rw [Dict.get?_foldl_set hall (.inr ((mem_seen hs).mpr hc))]
  | none =>
    rw [Dict.get?_foldl_set_of_ne, Dict.get?_empty]
    rintro ⟨n', d'⟩ he rfl
    rw [mem_seen hs, hc] at he
    cases he

/-- Over what was seen, an argument that is no object number gets nothing. -/
theorem Moving.source_mos : s.mos.source = s.snapshot := by
  have hmissing : ∀ obj, (∀ t, zdbDump (zdb t) obj = .missing) → s.snapshot obj = .missing := by
    intro obj hobj
    unfold snapshot Dict.getD
    cases hc : s.src.cache.get? obj with
    | none => rfl
    | some d =>
      obtain ⟨t, -, rfl⟩ := hs.printed obj d hc
      exact hobj t
  funext obj
  cases obj with
  | str s' => exact (hmissing _ fun t => rfl).symm
  | int z =>
    rw [Mos.source_int, Mos.getInt]
    split_ifs with hz
    · rw [get_mos hs, Int.toNat_of_nonneg hz]
    · exact (hmissing (.int z) fun t => if_neg hz).symm

end

theorem movingRun_mos (zdb : ℕ → String → ZdbRun) (old : Dict String String) (fuel : ℕ) :
    (movingRun zdb old fuel).1 = runFuel (movingRun zdb old fuel).2.mos fuel := by
  rw [(movingRun_eval zdb old fuel).1, ← Moving.source_mos (movingRun_ok zdb old fuel),
    Program.eval_run]

end Zhaxx.Scan
