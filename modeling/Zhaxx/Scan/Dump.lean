import Zhaxx.Lib.PyStr

/-!
# Observed objects

`ObjDump` is what `zhaxx-scan` knows about one MOS object (`scan/zhaxx-scan`
lines 54–70) and `Mos` is what it knows about the whole Meta Object Set: a
finite map from object numbers to dumps, every other object being missing.

The attributes `bonus_type` and `raw` of the source are assigned but never read
and are left out.
-/

namespace Zhaxx.Scan

/-- A bonus field: `int` or `str` (lines 114–119). -/
inductive FieldVal where
  | int (n : ℕ)
  | str (s : String)
  deriving DecidableEq, Repr

instance : ToString FieldVal where
  toString
    | .int n => toString n
    | .str s => s

/-- The truth value of a field, as `if field:` tests it. -/
def FieldVal.truthy : FieldVal → Bool
  | .int n => n != 0
  | .str s => s != ""

/-- The object number a field holds. A `str` holds none; no dump answers to it,
    so no operation on its `num` is ever planned. -/
def FieldVal.num : FieldVal → ℕ
  | .int n => n
  | .str _ => 0

@[simp] theorem FieldVal.num_int (n : ℕ) : (FieldVal.int n).num = n := rfl

@[simp] theorem FieldVal.truthy_int (n : ℕ) : (FieldVal.int n).truthy = true ↔ n ≠ 0 := by
  simp [truthy]

/-- Parsed zdb output for one object (`class ObjDump`). Nothing is parsed before
    the dnode header, so a dump without one is empty (`absent`). -/
structure ObjDump where
  exists_ : Bool
  unreadable : Bool
  type : Option String
  fields : Dict String FieldVal
  zap : Dict String ℕ
  zapMulti : Dict String (List ℕ)
  absent : exists_ = false → unreadable = false ∧ type = none ∧ fields = .empty ∧ zap = .empty ∧
    zapMulti = .empty

namespace ObjDump

/-- `ObjDump(obj)` before anything was parsed. -/
def missing : ObjDump where
  exists_ := false
  unreadable := false
  type := none
  fields := .empty
  zap := .empty
  zapMulti := .empty
  absent := fun _ => ⟨rfl, rfl, rfl, rfl, rfl⟩

instance : Inhabited ObjDump := ⟨missing⟩

/-- `d.readable` (line 69). -/
def readable (d : ObjDump) : Bool := d.exists_ && !d.unreadable

/-- `d.type or ""`. -/
def typeOr (d : ObjDump) : String := d.type.getD ""

/-- `pat in (d.type or "")`. -/
def hasType (pat : String) (d : ObjDump) : Bool := PyStr.contains pat d.typeOr

/-- `f"{d.type}"`. -/
def typeStr (d : ObjDump) : String := d.type.getD "None"

/-- `d.fields.get(f, 0)`. -/
def ref (d : ObjDump) (f : String) : FieldVal := d.fields.getD f (.int 0)

/-- `isinstance(nc, int)` for `nc = d.fields.get("num_children")`. -/
def numChildren (d : ObjDump) : Option ℕ :=
  match d.fields.get? "num_children" with
  | some (.int n) => some n
  | _ => none

@[simp] theorem exists_missing : missing.exists_ = false := rfl

@[simp] theorem readable_missing : missing.readable = false := rfl

@[simp] theorem zap_missing : missing.zap = .empty := rfl

theorem eq_missing_iff {d : ObjDump} : d = missing ↔ d.exists_ = false := by
  constructor
  · rintro rfl; rfl
  · intro h
    obtain ⟨h1, h2, h3, h4, h5⟩ := d.absent h
    cases d
    simp_all [missing]

theorem exists_of_ne_missing {d : ObjDump} (h : d ≠ missing) : d.exists_ = true := by
  by_contra hne
  exact h (eq_missing_iff.mpr (by simpa using hne))

theorem readable_iff {d : ObjDump} :
    d.readable = true ↔ d.exists_ = true ∧ d.unreadable = false := by
  simp [readable]

theorem exists_of_readable {d : ObjDump} (h : d.readable = true) : d.exists_ = true :=
  (readable_iff.mp h).1

theorem exists_of_unreadable {d : ObjDump} (h : d.unreadable = true) : d.exists_ = true := by
  by_contra hne
  have := (d.absent (by simpa using hne)).1
  simp [h] at this

/-- Only an object that was dumped has entries. -/
theorem exists_of_mem_zap {d : ObjDump} {e : String × ℕ} (h : e ∈ d.zap.entries) :
    d.exists_ = true := by
  by_contra hne
  rw [(d.absent (by simpa using hne)).2.2.2.1] at h
  simp at h

/-- Only an object that was dumped has a type. -/
theorem exists_of_hasType {d : ObjDump} {pat : String} (hp : pat ≠ "") (h : d.hasType pat = true) :
    d.exists_ = true := by
  by_contra hne
  have ht := (d.absent (by simpa using hne)).2.1
  simp only [hasType, typeOr, ht, Option.getD_none, PyStr.contains_iff] at h
  have : pat.toList = [] := List.eq_nil_of_infix_nil h
  exact hp (String.toList_inj.mp this)

/-- Nothing is a missing object's type. -/
theorem hasType_of_not_exists {d : ObjDump} {pat : String} (hp : pat ≠ "")
    (h : d.exists_ = false) : d.hasType pat = false := by
  by_contra hne
  simp [exists_of_hasType hp (by simpa using hne)] at h

/-- The dump of an object of type `type` with the integer lines `kv`, which the
    parser files both as bonus fields and as ZAP entries (lines 114–117). -/
def ofLines (type : String) (kv : List (String × ℕ)) (unreadable : Bool) : ObjDump where
  exists_ := true
  unreadable := unreadable
  type := some type
  fields := .ofList (kv.map fun e => (e.1, .int e.2))
  zap := .ofList kv
  zapMulti := .empty
  absent := nofun

/-- The same dump with one more line `key = w₀ w₁ …` of several words
    (lines 110–112). -/
def withWords (d : ObjDump) (h : d.exists_ = true) (key : String) (words : List ℕ) : ObjDump :=
  { d with
    zapMulti := d.zapMulti.set key words
    absent := fun h' => absurd h (by rw [h']; exact Bool.false_ne_true) }

end ObjDump

/-! ## The observed MOS -/

/-- A finite map from object numbers to dumps. -/
structure Mos where
  objs : Dict ℕ ObjDump

namespace Mos

/-- `src.get(n)` for an object number: `missing` outside the map. -/
def get (m : Mos) (n : ℕ) : ObjDump := m.objs.getD n .missing

/-- `src.get(v)` for a field value. The header of a dump is compared with `v`
    (line 90), so nothing exists under a `str`. -/
def fetch (m : Mos) : FieldVal → ObjDump
  | .int n => m.get n
  | .str _ => .missing

/-- `src.get(z)` for a parsed integer, which may be negative. -/
def getInt (m : Mos) (z : ℤ) : ObjDump := if 0 ≤ z then m.get z.toNat else .missing

@[simp] theorem fetch_int (m : Mos) (n : ℕ) : m.fetch (.int n) = m.get n := rfl

@[simp] theorem fetch_str (m : Mos) (s : String) : m.fetch (.str s) = .missing := rfl

theorem get_mem {m : Mos} {n : ℕ} (h : (m.get n).exists_ = true) :
    n ∈ m.objs.entries.map Prod.fst := by
  unfold get Dict.getD at h
  cases hg : m.objs.get? n with
  | none => simp [hg] at h
  | some d => exact List.mem_map.mpr ⟨(n, d), Dict.mem_entries_iff.mpr hg, rfl⟩

/-- The MOS whose objects are the listed ones. -/
def ofList (l : List (ℕ × ObjDump)) : Mos := ⟨.ofList l⟩

end Mos

end Zhaxx.Scan
