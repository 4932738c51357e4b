import Zhaxx.Lib.Decimal
import Zhaxx.Scan.Capture
import Zhaxx.Scan.Program

/-!
# Live and offline scans

Models of `ZdbSource.get` and `DumpDirSource.get` (`scan/zhaxx-scan` lines 124–182), the
two sources of a scan. A live run asks zdb once for each object it needs and, with
`--capture`, writes every answer to `obj_N.txt`; an offline run reads these files.

A capture holds only what the live run asked for. `Program.run` is the scan over any
source, so what it asks next depends only on the answers so far: the offline run asks for
exactly the captured objects.

Results:
* `liveRun_eval`, `offlineRun_eval`: the caches do not show in the result.
* `liveRun_recorded`: every object the live run asked for has its file.
* `offlineRun_capture`: the offline run repeats the live one.
-/

namespace Zhaxx.Scan

instance : ToString ObjArg where
  toString
    | .int z => toString z
    | .str s => s

/-- The name of the dump file of an object (lines 158 and 173). -/
def dumpName (obj : ObjArg) : String := s!"obj_{obj}.txt"

/-- `parse_obj_dump(obj, text)` for any argument of `get`. A header holds a natural number,
    so no other argument meets its header (line 90). -/
def parseDump (obj : ObjArg) (text : String) : ObjDump :=
  match obj with
  | .int z => if 0 ≤ z then parseObjDump z.toNat text.toList else .missing
  | .str _ => .missing

/-- How a run of zdb ends (lines 147–152). -/
inductive ZdbRun where
  | output (stdout stderr : String)
  | timeout

/-- The text `get` takes from a run of zdb. -/
def ZdbRun.text : ZdbRun → String
  | .output stdout stderr => stdout ++ stderr
  | .timeout => "zhaxx-scan: TIMEOUT running zdb"

/-! ## The sources -/

/-- The state of a `ZdbSource` with a capture directory. -/
structure ZdbSource where
  cache : Dict ObjArg ObjDump
  capture : Dict String String

/-- `ZdbSource.get` (lines 137–159) with `--capture`; `zdb` is the outcome of the command
    by its last argument `str(obj)`. -/
def ZdbSource.get (zdb : String → ZdbRun) (obj : ObjArg) (s : ZdbSource) : ObjDump × ZdbSource :=
  match s.cache.get? obj with
  | some d => (d, s)
  | none =>
    let text := (zdb (toString obj)).text
    let d := parseDump obj text
    (d, ⟨s.cache.set obj d, s.capture.set (dumpName obj) text⟩)

/-- `DumpDirSource.get` (lines 169–182) over the files of the directory; the state is
    `self.cache`. -/
def DumpDirSource.get (dir : Dict String String) (obj : ObjArg) (cache : Dict ObjArg ObjDump) :
    ObjDump × Dict ObjArg ObjDump :=
  match cache.get? obj with
  | some d => (d, cache)
  | none =>
    let d := match dir.get? (dumpName obj) with
      | some text => parseDump obj text
      | none => parseDump obj ""
    (d, cache.set obj d)

/-- The scan of a live pool and the capture directory it leaves behind; `old` is what the
    directory held before. -/
def liveRun (zdb : String → ZdbRun) (old : Dict String String) (fuel : ℕ) :
    Option (List Event) × Dict String String :=
  let r := (Program.run fuel).run (ZdbSource.get zdb) ⟨.empty, old⟩
  (r.1, r.2.capture)

/-- The scan of a dump directory. -/
def offlineRun (dir : Dict String String) (fuel : ℕ) : Option (List Event) :=
  ((Program.run fuel).run (DumpDirSource.get dir) .empty).1

/-! ## What the sources answer -/

/-- The dump of an object as zdb prints it. -/
def zdbDump (zdb : String → ZdbRun) (obj : ObjArg) : ObjDump :=
  parseDump obj (zdb (toString obj)).text

/-- The dump of an object as its file has it. -/
def fileDump (dir : Dict String String) (obj : ObjArg) : ObjDump :=
  parseDump obj ((dir.get? (dumpName obj)).getD "")

/-- The file of `obj` holds what zdb prints. -/
def Captured (zdb : String → ZdbRun) (s : ZdbSource) (obj : ObjArg) : Prop :=
  s.capture.get? (dumpName obj) = some (zdb (toString obj)).text

/-- What a live source keeps: a cached dump is the one zdb prints, and is captured. -/
def ZdbSource.Ok (zdb : String → ZdbRun) (s : ZdbSource) : Prop :=
  ∀ obj d, s.cache.get? obj = some d → d = zdbDump zdb obj ∧ Captured zdb s obj

theorem dumpName_inj {a b : ObjArg} (h : dumpName a = dumpName b) : toString a = toString b :=
  Decimal.append_left_cancel (Decimal.append_right_cancel h)

/-- Two objects with one file have one text, so a write never spoils a captured file. -/
theorem captured_set {zdb : String → ZdbRun} {s : ZdbSource} {obj other : ObjArg}
    {cache : Dict ObjArg ObjDump} (h : other = obj ∨ Captured zdb s other) :
    Captured zdb ⟨cache, s.capture.set (dumpName obj) (zdb (toString obj)).text⟩ other := by
  unfold Captured
  dsimp only
  rw [Dict.get?_set]
  split_ifs with hname
  · rw [dumpName_inj hname]
  · rcases h with rfl | h
    · exact absurd rfl hname
    · exact h

theorem ZdbSource.get_ok {zdb : String → ZdbRun} (obj : ObjArg) {s : ZdbSource} (hs : s.Ok zdb) :
    (get zdb obj s).1 = zdbDump zdb obj ∧ (get zdb obj s).2.Ok zdb := by
  unfold get
  cases hc : s.cache.get? obj with
  | some d => exact ⟨(hs obj d hc).1, hs⟩
  | none =>
    refine ⟨rfl, ?_⟩
    intro other d hd
    dsimp only at hd ⊢
    rw [Dict.get?_set] at hd
    split_ifs at hd with heq
    · exact ⟨by rw [heq, ← Option.some.inj hd]; rfl, captured_set (.inl heq)⟩
    · obtain ⟨hdump, hcap⟩ := hs other d hd
      exact ⟨hdump, captured_set (.inr hcap)⟩

theorem ZdbSource.get_captured {zdb : String → ZdbRun} {obj : ObjArg} {s : ZdbSource}
    (hs : s.Ok zdb) {other : ObjArg} (h : other = obj ∨ Captured zdb s other) :
    Captured zdb (get zdb obj s).2 other := by
  unfold get
  cases hc : s.cache.get? obj with
  | some d =>
    rcases h with rfl | h
    · exact (hs other d hc).2
    · exact h
  | none => exact captured_set h

/-- A cached dump of an offline source is the one in the file. -/
def DumpDirSource.Ok (dir : Dict String String) (cache : Dict ObjArg ObjDump) : Prop :=
  ∀ obj d, cache.get? obj = some d → d = fileDump dir obj

theorem DumpDirSource.get_ok {dir : Dict String String} (obj : ObjArg)
    {cache : Dict ObjArg ObjDump} (hs : Ok dir cache) :
    (get dir obj cache).1 = fileDump dir obj ∧ Ok dir (get dir obj cache).2 := by
  unfold get
  cases hc : cache.get? obj with
  | some d => exact ⟨hs obj d hc, hs⟩
  | none =>
    have hdump : (match dir.get? (dumpName obj) with
        | some text => parseDump obj text
        | none => parseDump obj "") = fileDump dir obj := by
      unfold fileDump
      cases dir.get? (dumpName obj) <;> rfl
    refine ⟨hdump, ?_⟩
    intro other d hd
    dsimp only at hd
    rw [Dict.get?_set] at hd
    split_ifs at hd with heq
    · rw [heq, ← Option.some.inj hd, ← hdump]
    · exact hs other d hd

/-! ## The two runs -/

section

variable (zdb : String → ZdbRun) (old : Dict String String) (fuel : ℕ)

theorem ok_start : ZdbSource.Ok zdb ⟨.empty, old⟩ := by
  intro obj d h
  simp at h

theorem liveRun_eval : (liveRun zdb old fuel).1 = (Program.run fuel).eval (zdbDump zdb) :=
  (Query.run_eval (P := fun _ => True) (fun obj _ _ hs => ZdbSource.get_ok obj hs)
    (fun _ _ => trivial) (ok_start zdb old)).1

theorem offlineRun_eval (dir : Dict String String) :
    offlineRun dir fuel = (Program.run fuel).eval (fileDump dir) :=
  (Query.run_eval (P := fun _ => True) (fun obj _ _ hs => DumpDirSource.get_ok obj hs)
    (fun _ _ => trivial) (fun obj d h => by simp at h)).1

/-- The offline run over the files of a `DumpDir` is the scan of its objects. -/
theorem offlineRun_dumpDir {dir : Dict String String} {c : DumpDir}
    (h : ∀ n : ℕ, dir.get? (dumpName (.int n)) = (c.files.get? n).map String.ofList) :
    offlineRun dir fuel = runFuel c.source fuel := by
  have hsource : fileDump dir = c.source.source := by
    funext obj
    cases obj with
    | str s => rfl
    | int z =>
      rw [Mos.source_int, Mos.getInt, fileDump, parseDump]
      split_ifs with hz
      · rw [DumpDir.get_source, ← Int.toNat_of_nonneg hz, h, Int.toNat_natCast]
        cases c.files.get? z.toNat <;> simp
      · rfl
  rw [offlineRun_eval, hsource, Program.eval_run]

/-- The files of everything the live run asked for. -/
theorem liveRun_recorded : ∀ obj ∈ (Program.run fuel).asked (zdbDump zdb),
    (liveRun zdb old fuel).2.get? (dumpName obj) = some (zdb (toString obj)).text :=
  (Query.run_recorded (fun obj _ hs => ZdbSource.get_ok obj hs) (R := Captured zdb)
    (fun _ _ hs => ZdbSource.get_captured hs (.inl rfl))
    (fun _ _ _ hs hc => ZdbSource.get_captured hs (.inr hc)) (ok_start zdb old)).2

/-- A zdb that answers for finitely many objects: the live run ends, as the scan of them. -/
theorem liveRun_of_mos {m : Mos} (hm : ∀ obj, zdbDump zdb obj = m.source obj)
    (hf : m.objs.entries.length + 1 ≤ fuel) : (liveRun zdb old fuel).1 = some (run m) := by
  have hsome := runFuel_isSome m hf
  rw [liveRun_eval, show zdbDump zdb = m.source from funext hm, Program.eval_run]
  obtain ⟨es, hes⟩ := Option.isSome_iff_exists.mp hsome
  rw [hes, runFuel_eq m hes]

end

/-- zdb on a pool of which only the MOS directory is left. -/
def bareZdb (obj : String) : ZdbRun :=
  if obj = "1" then
    .output "    1    1   128K    512    12K     512    512  100.00  object directory\n" "zdb: end"
  else .output "" ""

/-- What the scanner sees of that pool. -/
def bareMos : Mos := .ofList [(1, zdbDump bareZdb (.int 1))]

theorem zdbDump_bareZdb (obj : ObjArg) : zdbDump bareZdb obj = bareMos.source obj := by
  cases obj with
  | str s => rfl
  | int z =>
    by_cases hz : z = 1
    · rw [hz]
      rfl
    · have hname : toString (ObjArg.int z) ≠ "1" := fun h =>
        hz (Decimal.toString_int_injective (y := z) (z := 1) (congrArg String.toList h))
      rw [Mos.source_int, Mos.getInt, zdbDump, bareZdb, if_neg hname, parseDump]
      split_ifs with hpos
      · have hone : z.toNat ≠ 1 := by omega
        simp [ZdbRun.text, bareMos, Mos.get, Mos.ofList, Dict.ofList, Dict.getD, Dict.get?_set,
          hone]
      · rfl

end Zhaxx.Scan
