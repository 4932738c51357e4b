import Zhaxx.Scan.Render

/-!
# Names that look like errors

`ERROR_RE` (`scan/zhaxx-scan` lines 77–80) is searched in every line behind the data
row, also in the lines `NAME = NUMBER` of a ZAP, before they are parsed (lines
103–105). Its alternatives `EIO` and `errno\s*=?\s*5\b` fit into legal names.

Results:
* `searchError_entryLine_iff`: when an entry with a legal name is taken for an error.
* `namesIntact_iff`: a dump of such entries is readable and complete exactly when
  none of its names is.
* `museion_unreadable`: a healthy child map that is not.
-/

namespace Zhaxx.Scan

open Regex
open Decimal (digits isDigit_of_mem_digits)

/-- The characters of a ZFS component name. -/
def legalChars : List Char :=
  "abcdefghijklmnopqrstuvwxyzABCDEFGHIJKLMNOPQRSTUVWXYZ0123456789_-.:".toList

/-- A name of a dataset. -/
structure LegalName (name : List Char) : Prop where
  ne : name ≠ []
  chars : ∀ c ∈ name, c ∈ legalChars

/-- A name that `ERROR_RE` takes for an error, in a line that gives it the number `n`:
    it contains `eio`, or `errno5` where the number ends, or it ends in `errno` and the
    number is 5. Case does not matter. -/
def ErrorName (name : List Char) (n : ℕ) : Prop :=
  (∃ a u b, name = a ++ (u ++ b) ∧ u.map Char.toLower = "eio".toList) ∨
    ∃ a u b, name = a ++ (u ++ b) ∧ u.map Char.toLower = "errno".toList ∧
      ((∃ b', b = '5' :: b' ∧ wordEnd b' = true) ∨ b = [] ∧ n = 5)

/-! ## The characters of an entry -/

/-- The characters of an entry with a legal name. -/
def lineChars : List Char := legalChars ++ ['\t', ' ', '=']

theorem mem_legalChars_of_isDigit {c : Char} (h : c.isDigit = true) : c ∈ legalChars := by
  have hall : ∀ m < 58, 48 ≤ m → Char.ofNat m ∈ legalChars := by decide +kernel
  obtain ⟨h1, h2⟩ := Char.isDigit_iff_toNat.mp h
  rw [← Char.ofNat_toNat c]
  exact hall _ (Nat.lt_succ_of_le h2) h1

theorem legal_space : ∀ c ∈ legalChars, space c = false ∧ c ≠ '=' := by decide +kernel

theorem LegalName.entryKey {name : List Char} (h : LegalName name) : EntryKey name :=
  ⟨h.ne, fun c hc => legal_space c (h.chars c hc)⟩

/-- Blanks behind an entry. -/
def Blanks (tail : List Char) : Prop := ∀ c ∈ tail, c = ' '

theorem Blanks.space {tail : List Char} (h : Blanks tail) : ∀ c ∈ tail, space c = true := by
  intro c hc
  rw [h c hc]
  decide

/-! ## Letters under `IGNORECASE` -/

/-- The letters of the alternatives that fit into names, and of the words behind a blank
    in the others. -/
def letters : List Char := "EIOernot".toList

theorem ignoreCase_letter {l c : Char} (hl : l ∈ letters) (hc : c ∈ lineChars) :
    (ignoreCase l c = true ↔ c.toLower = l.toLower) ∧
      (ignoreCase l c = true → c.isAlpha = true) := by
  have hall : ∀ l ∈ letters, ∀ c ∈ lineChars, (ignoreCase l c = true ↔ c.toLower = l.toLower) ∧
      (ignoreCase l c = true → c.isAlpha = true) := by decide +kernel
  exact hall l hl c hc

theorem forall₂_ignoreCase {w u : List Char} (hw : ∀ l ∈ w, l ∈ letters)
    (hu : ∀ c ∈ u, c ∈ lineChars) :
    List.Forall₂ (fun l c => ignoreCase l c = true) w u ↔
      u.map Char.toLower = w.map Char.toLower := by
  induction w generalizing u with
  | nil => cases u <;> simp
  | cons l w ih =>
    rw [List.forall_mem_cons] at hw
    cases u with
    | nil => simp
    | cons c u =>
      rw [List.forall_mem_cons] at hu
      rw [List.forall₂_cons, (ignoreCase_letter hw.1 hu.1).1, ih hw.2 hu.2]
      simp

theorem alpha_of_forall₂ {w u : List Char} (hw : ∀ l ∈ w, l ∈ letters)
    (hu : ∀ c ∈ u, c ∈ lineChars)
    (h : List.Forall₂ (fun l c => ignoreCase l c = true) w u) : ∀ c ∈ u, c.isAlpha = true := by
  induction h with
  | nil => exact List.forall_mem_nil _
  | cons hlc _ ih =>
    rw [List.forall_mem_cons] at hw hu ⊢
    exact ⟨(ignoreCase_letter hw.1 hu.1).2 hlc, ih hw.2 hu.2⟩

/-! ## Where the letters of an entry stand -/

section

variable {name tail : List Char} {n : ℕ} (hname : LegalName name) (htail : Blanks tail)

/-- What follows the name. -/
def behindName (n : ℕ) (tail : List Char) : List Char := ' ' :: '=' :: ' ' :: (digits n ++ tail)

theorem entryLine_eq (name tail : List Char) (n : ℕ) :
    entryLine name (digits n) tail = '\t' :: '\t' :: (name ++ behindName n tail) := rfl

include htail

theorem behindName_chars : ∀ c ∈ behindName n tail, c ∈ lineChars ∧ c.isAlpha = false := by
  have hblank : ' ' ∈ lineChars ∧ ' '.isAlpha = false :=
    ⟨List.mem_append_right _ (by decide), by decide⟩
  have heq : '=' ∈ lineChars ∧ '='.isAlpha = false :=
    ⟨List.mem_append_right _ (by decide), by decide⟩
  have hdigits : ∀ c ∈ digits n ++ tail, c ∈ lineChars ∧ c.isAlpha = false := by
    rw [List.forall_mem_append]
    refine ⟨fun c hc => ?_, fun c hc => htail c hc ▸ hblank⟩
    have hd := isDigit_of_mem_digits hc
    refine ⟨List.mem_append_left _ (mem_legalChars_of_isDigit hd), ?_⟩
    have hall : ∀ c ∈ legalChars, c.isDigit = true → c.isAlpha = false := by decide +kernel
    exact hall c (mem_legalChars_of_isDigit hd) hd
  simp only [behindName, List.forall_mem_cons]
  exact ⟨hblank, heq, hblank, hdigits⟩

include hname

theorem entryLine_chars : ∀ c ∈ entryLine name (digits n) tail, c ∈ lineChars := by
  have htab : '\t' ∈ lineChars := List.mem_append_right _ (by decide)
  rw [entryLine_eq, List.forall_mem_cons, List.forall_mem_cons, List.forall_mem_append]
  exact ⟨htab, htab, fun c hc => List.mem_append_left _ (hname.chars c hc),
    fun c hc => (behindName_chars htail c hc).1⟩

omit hname in
/-- Letters stand in the name only. -/
theorem letters_in_name {pre u r : List Char} (hu : u ≠ []) (halpha : ∀ c ∈ u, c.isAlpha = true)
    (h : entryLine name (digits n) tail = pre ++ (u ++ r)) :
    ∃ a b, pre = '\t' :: '\t' :: a ∧ name = a ++ (u ++ b) ∧ r = b ++ behindName n tail := by
  obtain ⟨x, u', rfl⟩ := List.exists_cons_of_ne_nil hu
  have hx := halpha x List.mem_cons_self
  have htab : x ≠ '\t' := by
    rintro rfl
    exact absurd hx (by decide)
  have hrest : ∀ v w, behindName n tail = v ++ w → ∀ c ∈ w, c.isAlpha = false := fun v w hvw c hc =>
    (behindName_chars htail c (by rw [hvw]; exact List.mem_append_right _ hc)).2
  rw [entryLine_eq] at h
  rcases pre with _ | ⟨y, _ | ⟨z, a⟩⟩
  · exact absurd (List.cons.inj h).1.symm htab
  · exact absurd (List.cons.inj (List.cons.inj h).2).1.symm htab
  · obtain ⟨hy, h1⟩ := List.cons.inj h
    obtain ⟨hz, h2⟩ := List.cons.inj h1
    have happ : name ++ behindName n tail = a ++ (x :: u' ++ r) := h2
    rw [← hy, ← hz]
    obtain ⟨v, rfl, hv⟩ | ⟨v, rfl, hv⟩ := List.append_eq_append_iff.mp happ
    · -- the letters would stand behind the name
      have := hrest v _ hv x (by simp)
      rw [hx] at this
      cases this
    · obtain ⟨w, rfl, hr⟩ | ⟨w, hw, hr⟩ := List.append_eq_append_iff.mp hv
      · exact ⟨a, w, rfl, rfl, hr⟩
      · cases w with
        | nil => exact ⟨a, [], rfl, by rw [hw]; simp, by rw [hr]; rfl⟩
        | cons y w =>
          have h1 := hrest [] (y :: w ++ r) hr y (by simp)
          have h2 := halpha y (by rw [hw]; simp)
          rw [h1] at h2
          cases h2

section

variable {fin : List Char → Bool} {is : List Item} {pre t : List Char}
  (ht : entryLine name (digits n) tail = pre ++ t)

include ht

theorem suffix_chars : ∀ c ∈ t, c ∈ lineChars := fun c hc =>
  entryLine_chars hname htail c (by rw [ht]; exact List.mem_append_right _ hc)

/-- A text with a character that no entry has. -/
theorem text_absent {w : String} {l : Char} (hl : l ∈ w.toList)
    (hno : ∀ c ∈ lineChars, ignoreCase l c = false) :
    (matchItems fin (text w ++ is) t).isSome = false := by
  obtain ⟨w₁, w₂, hw⟩ := List.append_of_mem hl
  have hitems : text w ++ is = w₁.map (fun l => .one (ignoreCase l)) ++
      .one (ignoreCase l) :: (w₂.map (fun l => .one (ignoreCase l)) ++ is) := by
    simp [text, hw]
  rw [← Bool.not_eq_true, hitems, isSome_literal]
  rintro ⟨u, r, rfl, -, h⟩
  obtain ⟨c, r, rfl, hc, -⟩ := isSome_one.mp h
  rw [hno c (suffix_chars hname htail ht c (by simp))] at hc
  cases hc

/-- A text with a letter behind a blank. -/
theorem text_blank {w : String} {w₁ w₂ : List Char} {l : Char}
    (hw : w.toList = w₁ ++ ' ' :: l :: w₂)
    (hl : l ∈ letters) : (matchItems fin (text w ++ is) t).isSome = false := by
  have hblank : ∀ c ∈ lineChars, ignoreCase ' ' c = true → c = ' ' := by decide +kernel
  have hchars := suffix_chars hname htail ht
  have hitems : text w ++ is = w₁.map (fun l => .one (ignoreCase l)) ++
      .one (ignoreCase ' ') :: .one (ignoreCase l) ::
        (w₂.map (fun l => .one (ignoreCase l)) ++ is) := by
    simp [text, hw]
  rw [← Bool.not_eq_true, hitems, isSome_literal]
  rintro ⟨u, r, rfl, -, h⟩
  obtain ⟨x, r, rfl, hx, h⟩ := isSome_one.mp h
  obtain ⟨y, r, rfl, hy, -⟩ := isSome_one.mp h
  obtain rfl := hblank x (hchars x (by simp)) hx
  have hline : entryLine name (digits n) tail = (pre ++ u ++ [' ']) ++ ([y] ++ r) := by
    rw [ht]
    simp
  have halpha := (ignoreCase_letter hl (hchars y (by simp))).2 hy
  obtain ⟨a, b, hpre, hsplit, -⟩ := letters_in_name htail (List.cons_ne_nil y [])
    (List.forall_mem_singleton.mpr halpha) hline
  have hmem : ' ' ∈ '\t' :: '\t' :: a := by rw [← hpre]; simp
  have hmem : ' ' ∈ name := by
    rw [hsplit]
    exact List.mem_append_left _ (by simpa using hmem)
  exact absurd (legal_space _ (hname.chars _ hmem)).1 (by decide)

end

end

/-! ## What follows `errno` -/

theorem eq_nil_of_append {cls : Char → Bool} {p r s : List Char} {x : Char} (h : p ++ s = x :: r)
    (hp : ∀ c ∈ p, cls c = true) (hx : cls x = false) : p = [] := by
  cases p with
  | nil => rfl
  | cons c p =>
    obtain rfl := (List.cons.inj h).1
    rw [hp c List.mem_cons_self] at hx
    cases hx

section

variable {tail : List Char} {n : ℕ}

theorem wordEnd_append (b : List Char) : wordEnd (b ++ behindName n tail) = wordEnd b := by
  cases b with
  | nil => rfl
  | cons c b => rfl

theorem five_of_digits {q : List Char} (h : '5' :: q = digits n ++ tail) (hq : wordEnd q = true) :
    n = 5 := by
  obtain ⟨d, ds, hds⟩ := List.exists_cons_of_ne_nil (digits_clean n).1
  rw [hds] at h
  obtain ⟨rfl, hrest⟩ := List.cons.inj h
  cases ds with
  | nil => exact Decimal.digits_injective (hds.trans (by decide))
  | cons e ds =>
    have he : e.isDigit = true := isDigit_of_mem_digits (n := n) (by rw [hds]; simp)
    rw [hrest] at hq
    simp [wordEnd, Char.isAlphanum, he] at hq

/-- Behind a name that ends in `errno` stands an equals sign, which the pattern skips. -/
theorem five_of_errno {p₁ p₂ p₃ q : List Char} (hp₁ : ∀ c ∈ p₁, space c = true)
    (hp₂ : ∀ c ∈ p₂, (c == '=') = true) (hlen : p₂.length ≤ 1) (hp₃ : ∀ c ∈ p₃, space c = true)
    (h : p₁ ++ (p₂ ++ (p₃ ++ '5' :: q)) = behindName n tail) (hq : wordEnd q = true) : n = 5 := by
  have hspace : space '=' = false := by decide
  unfold behindName at h
  cases p₁ with
  | nil =>
    -- the blank could only be skipped by the second `\s*`, and then `=` is no 5
    rw [List.nil_append] at h
    obtain rfl := eq_nil_of_append h hp₂ rfl
    cases p₃ with
    | nil => cases h
    | cons x p₃ =>
      have h := (List.cons.inj h).2
      obtain rfl := eq_nil_of_append h (fun c hc => hp₃ c (List.mem_cons_of_mem _ hc)) hspace
      cases h
  | cons x p₁ =>
    have h : p₁ ++ (p₂ ++ (p₃ ++ '5' :: q)) = '=' :: ' ' :: (digits n ++ tail) :=
      (List.cons.inj h).2
    obtain rfl := eq_nil_of_append h (fun c hc => hp₁ c (List.mem_cons_of_mem _ hc)) hspace
    rw [List.nil_append] at h
    cases p₂ with
    | nil =>
      rw [List.nil_append] at h
      obtain rfl := eq_nil_of_append h hp₃ hspace
      cases h
    | cons y p₂ =>
      have h := (List.cons.inj h).2
      obtain rfl : p₂ = [] := List.length_eq_zero_iff.mp (by simpa using hlen)
      cases p₃ with
      | nil => cases h
      | cons z p₃ =>
        have h := (List.cons.inj h).2
        obtain ⟨d, ds, hds⟩ := List.exists_cons_of_ne_nil (digits_clean n).1
        have hd : space d = false := (digits_clean n).2 d (by rw [hds]; exact List.mem_cons_self)
        rw [hds] at h
        obtain rfl := eq_nil_of_append h (fun c hc => hp₃ c (List.mem_cons_of_mem _ hc)) hd
        exact five_of_digits (h.trans (by rw [hds])) hq

/-- What follows `errno`: the digit 5, where the number ends. -/
theorem errno_tail_iff (htail : Blanks tail) {b : List Char} (hb : ∀ c ∈ b, c ∈ legalChars) :
    (matchItems wordEnd [.star space, .opt (· == '='), .star space, .one (· == '5')]
      (b ++ behindName n tail)).isSome = true ↔
        (∃ b', b = '5' :: b' ∧ wordEnd b' = true) ∨ b = [] ∧ n = 5 := by
  constructor
  · intro h
    obtain ⟨p₁, r₁, happ, hp₁, -, h⟩ := isSome_cons.mp h
    obtain ⟨p₂, r₂, rfl, hp₂, hle, h⟩ := isSome_cons.mp h
    obtain ⟨p₃, r₃, rfl, hp₃, -, h⟩ := isSome_cons.mp h
    obtain ⟨c, q, rfl, hc, hq⟩ := isSome_one.mp h
    rw [isSome_nil] at hq
    rw [beq_iff_eq] at hc
    subst hc
    have hp₁ : ∀ c ∈ p₁, space c = true := hp₁
    have hp₂ : ∀ c ∈ p₂, (c == '=') = true := hp₂
    have hp₃ : ∀ c ∈ p₃, space c = true := hp₃
    cases b with
    | cons x b =>
      obtain ⟨hx, hxe⟩ := legal_space x (hb x List.mem_cons_self)
      obtain rfl := eq_nil_of_append happ hp₁ hx
      rw [List.nil_append] at happ
      obtain rfl := eq_nil_of_append happ hp₂ (by simpa using hxe)
      rw [List.nil_append] at happ
      obtain rfl := eq_nil_of_append happ hp₃ hx
      obtain ⟨rfl, rfl⟩ := List.cons.inj happ
      exact .inl ⟨b, rfl, by rwa [List.append_eq, wordEnd_append] at hq⟩
    | nil => exact .inr ⟨rfl, five_of_errno hp₁ hp₂ (allows_opt.mp hle) hp₃ happ hq⟩
  · have hwe : wordEnd tail = true := by
      cases tail with
      | nil => rfl
      | cons c tail =>
        rw [htail c List.mem_cons_self]
        rfl
    rintro (⟨b, rfl, hq⟩ | ⟨rfl, rfl⟩)
    · refine isSome_cons.mpr ⟨[], _, rfl, List.forall_mem_nil _, allows_star, isSome_cons.mpr
        ⟨[], _, rfl, List.forall_mem_nil _, rfl, isSome_cons.mpr ⟨[], _, rfl, List.forall_mem_nil _,
          allows_star, isSome_one.mpr ⟨'5', b ++ behindName n tail, rfl, rfl, ?_⟩⟩⟩⟩
      rwa [isSome_nil, wordEnd_append]
    · refine isSome_cons.mpr ⟨[' '], _, rfl, by decide, allows_star, isSome_cons.mpr
        ⟨['='], _, rfl, by decide, rfl, isSome_cons.mpr ⟨[' '], _, rfl, by decide,
          allows_star, isSome_one.mpr ⟨'5', tail, rfl, rfl, ?_⟩⟩⟩⟩
      rwa [isSome_nil]

end

section

variable {name tail : List Char} {n : ℕ} (hname : LegalName name) (htail : Blanks tail)

include hname htail

/-- A match of one of the words that fit into names. -/
theorem isSome_text_iff (fin : List Char → Bool) (w : String) (is : List Item)
    (hne : w.toList ≠ []) (hw : ∀ l ∈ w.toList, l ∈ letters) :
    (∃ pre t, entryLine name (digits n) tail = pre ++ t ∧
      (matchItems fin (text w ++ is) t).isSome = true) ↔
    ∃ a u b, name = a ++ (u ++ b) ∧ u.map Char.toLower = w.toList.map Char.toLower ∧
      (matchItems fin is (b ++ behindName n tail)).isSome = true := by
  constructor
  · rintro ⟨pre, t, ht, hm⟩
    obtain ⟨u, r, rfl, hu, hm⟩ := isSome_text.mp hm
    have hchars : ∀ c ∈ u, c ∈ lineChars := fun c hc =>
      suffix_chars hname htail ht c (List.mem_append_left _ hc)
    have hune : u ≠ [] := by
      rintro rfl
      exact hne (List.forall₂_nil_right_iff.mp hu)
    obtain ⟨a, b, -, hsplit, rfl⟩ :=
      letters_in_name htail hune (alpha_of_forall₂ hw hchars hu) ht
    exact ⟨a, u, b, hsplit, (forall₂_ignoreCase hw hchars).mp hu, hm⟩
  · rintro ⟨a, u, b, hsplit, hu, hm⟩
    have hchars : ∀ c ∈ u, c ∈ lineChars := fun c hc =>
      List.mem_append_left _ (hname.chars c (by rw [hsplit]; simp [hc]))
    refine ⟨'\t' :: '\t' :: a, u ++ (b ++ behindName n tail), ?_,
      isSome_text.mpr ⟨u, _, rfl, (forall₂_ignoreCase hw hchars).mpr hu, hm⟩⟩
    rw [entryLine_eq, hsplit]
    simp

/-- **When an entry is taken for an error.** -/
theorem searchError_entryLine_iff :
    searchError (entryLine name (digits n) tail) = true ↔ ErrorName name n := by
  have heio := isSome_text_iff hname htail (n := n) anywhere "EIO" [] (by decide) (by decide)
  have herrno := isSome_text_iff hname htail (n := n) wordEnd "errno"
    [.star space, .opt (· == '='), .star space, .one (· == '5')] (by decide) (by decide)
  have hlower : "EIO".toList.map Char.toLower = "eio".toList ∧
      "errno".toList.map Char.toLower = "errno".toList := by decide
  rw [List.append_nil, hlower.1] at heio
  rw [hlower.2] at herrno
  have hname' : ErrorName name n ↔
      (∃ pre t, entryLine name (digits n) tail = pre ++ t ∧
        (matchItems anywhere (text "EIO") t).isSome = true) ∨
      ∃ pre t, entryLine name (digits n) tail = pre ++ t ∧
        (matchItems wordEnd (text "errno" ++
          [.star space, .opt (· == '='), .star space, .one (· == '5')]) t).isSome = true := by
    rw [heio, herrno]
    unfold ErrorName
    refine or_congr ?_ ?_
    · simp [isSome_nil, anywhere]
    · refine exists_congr fun a => exists_congr fun u => exists_congr fun b =>
        and_congr_right fun hsplit => and_congr_right fun _ => ?_
      rw [errno_tail_iff htail fun c hc => hname.chars c (by rw [hsplit]; simp [hc])]
  rw [hname', searchError_iff]
  constructor
  · rintro ⟨pre, t, ht, alt, halt, hm⟩
    -- seven of the nine alternatives have a character or a blank that fits nowhere
    have hslash : ∀ c ∈ lineChars, ignoreCase '/' c = false := by decide +kernel
    have hparen : ∀ c ∈ lineChars, ignoreCase '(' c = false := by decide +kernel
    have hquote : ∀ c ∈ lineChars, ignoreCase '\'' c = false := by decide +kernel
    have habsent : ∀ (w : String) (l : Char) (is : List Item), l ∈ w.toList →
        (∀ c ∈ lineChars, ignoreCase l c = false) →
        (matchItems anywhere (text w ++ is) t).isSome ≠ true := by
      intro w l is hl hno h
      rw [text_absent hname htail ht hl hno] at h
      cases h
    have hblank : ∀ (w : String) (w₁ w₂ : List Char) (l : Char), w.toList = w₁ ++ ' ' :: l :: w₂ →
        l ∈ letters → (matchItems anywhere (text w ++ []) t).isSome ≠ true := by
      intro w w₁ w₂ l hw hl h
      rw [text_blank hname htail ht hw hl] at h
      cases h
    simp only [errorRe, List.mem_cons, List.not_mem_nil, or_false] at halt
    rcases halt with rfl | rfl | rfl | rfl | rfl | rfl | rfl | rfl | rfl
    · exact absurd (by rwa [List.append_nil]) (habsent "i/o error" '/' [] (by decide) hslash)
    · exact absurd (by rwa [List.append_nil])
        (habsent "input/output error" '/' [] (by decide) hslash)
    · exact .inr ⟨pre, t, ht, hm⟩
    · exact .inl ⟨pre, t, ht, hm⟩
    · exact absurd (by rwa [List.append_nil])
        (hblank "failed to read" "failed".toList "o read".toList 't' (by decide) (by decide))
    · exact absurd (by rwa [List.append_nil])
        (hblank "error reading" "error".toList "eading".toList 'r' (by decide) (by decide))
    · exact absurd (by rwa [List.append_nil]) (habsent "zdb: can't" '\'' [] (by decide) hquote)
    · exact absurd hm (habsent "dmu_bonus_hold(" '(' _ (by decide) hparen)
    · exact absurd hm (habsent "dmu_object_info(" '(' _ (by decide) hparen)
  · rintro (⟨pre, t, ht, hm⟩ | ⟨pre, t, ht, hm⟩)
    · exact ⟨pre, t, ht, (text "EIO", anywhere), by simp [errorRe], hm⟩
    · exact ⟨pre, t, ht, (text "errno" ++ [.star space, .opt (· == '='), .star space,
        .one (· == '5')], wordEnd), by simp [errorRe], hm⟩

end

/-! ## Dumps of entries -/

/-- The data row of the object `n`. -/
structure DataRow (n : ℕ) (row : List Char) : Prop where
  line : Unbroken row
  object : ∃ g type, matchObjHeader row = some (g, type) ∧ PyStr.intDecimal g = n

/-- A dump with the entries `es`. -/
def namesText (row : List Char) (es : List (String × ℕ)) (tail : List Char) : List Char :=
  (preamble ++ row :: es.map fun e => entryLine e.1.toList (digits e.2) tail).flatMap (· ++ ['\n'])

theorem Obj.Renderable.dataRow {o : Obj} (h : o.Renderable) : DataRow o.obj o.row :=
  ⟨h.unbroken_row, _, _, matchObjHeader_row h, PyStr.intDecimal_digits _⟩

/-- The entries behind a data row. -/
theorem foldl_names {n : ℕ} {es : List (String × ℕ)} {tail : List Char}
    (hes : ∀ e ∈ es, LegalName e.1.toList) (htail : Blanks tail) {d : ObjDump}
    (hd : d.exists_ = true) :
    let d' := (es.map fun e => entryLine e.1.toList (digits e.2) tail).foldl (parseLine n) d
    d'.exists_ = true ∧
      (d'.unreadable = true ↔ d.unreadable = true ∨ ∃ e ∈ es, ErrorName e.1.toList e.2) ∧
      ((∀ e ∈ es, ¬ ErrorName e.1.toList e.2) →
        d'.zap = es.foldl (fun z e => z.set e.1 e.2) d.zap) := by
  induction es generalizing d with
  | nil => simpa using hd
  | cons e es ih =>
    rw [List.forall_mem_cons] at hes
    obtain ⟨hname, hes⟩ := hes
    rw [List.map_cons, List.foldl_cons]
    by_cases herr : ErrorName e.1.toList e.2
    · have hstep : parseLine n d (entryLine e.1.toList (digits e.2) tail) = d.fail hd :=
        parseLine_error hd (matchObjHeader_entryLine hname.entryKey)
          (matchBonus_entryLine hname.entryKey) ((searchError_entryLine_iff hname htail).mpr herr)
      rw [hstep]
      obtain ⟨h1, h2, -⟩ := ih hes (d := d.fail hd) hd
      refine ⟨h1, ?_, fun h => absurd herr (h e List.mem_cons_self)⟩
      rw [h2]
      exact iff_of_true (.inl rfl) (.inr ⟨e, List.mem_cons_self, herr⟩)
    · have hclean : searchError (entryLine e.1.toList (digits e.2) tail) = false := by
        rw [← Bool.not_eq_true, searchError_entryLine_iff hname htail]
        exact herr
      have hplain : (Value.num e.2).Plain := nofun
      have hstep : parseLine n d (entryLine e.1.toList (digits e.2) tail) =
          d.addKv hd e.1.toList (digits e.2) :=
        parseLine_entryLine hd hname.entryKey hplain.entryValue htail.space hclean
      obtain ⟨hz, -, -⟩ := addKv_num hd e.1.toList e.2
      obtain ⟨hd', hu', -⟩ := addKv_rest hd e.1.toList (digits e.2)
      obtain ⟨h1, h2, h3⟩ := ih hes hd'
      rw [String.ofList_toList] at hz
      rw [hstep]
      refine ⟨h1, ?_, fun h => ?_⟩
      · rw [h2, hu']
        simp [herr]
      · rw [List.forall_mem_cons] at h
        rw [h3 h.2, List.foldl_cons, ← hz]
        rfl

theorem parse_namesText {n : ℕ} {row : List Char} {es : List (String × ℕ)} {tail : List Char}
    (hrow : DataRow n row) (hes : ∀ e ∈ es, LegalName e.1.toList) (htail : Blanks tail) :
    ∃ type, parseObjDump n (namesText row es tail) =
      (es.map fun e => entryLine e.1.toList (digits e.2) tail).foldl (parseLine n)
        (ObjDump.header type) := by
  obtain ⟨g, type, hrow', hg⟩ := hrow.object
  have hlines : PyStr.splitlines (namesText row es tail) =
      preamble ++ row :: es.map fun e => entryLine e.1.toList (digits e.2) tail := by
    refine PyStr.splitlines_flatMap (List.forall_mem_append.mpr ⟨unbroken_preamble,
      List.forall_mem_cons.mpr ⟨hrow.line, ?_⟩⟩)
    rw [List.forall_mem_map]
    intro e he
    exact unbroken_entryLine (hes e he).entryKey.unbroken (unbroken_digits _) fun c hc => by
      rw [htail c hc]
      decide
  refine ⟨headerType type, ?_⟩
  rw [parseObjDump, hlines, foldl_preamble, List.foldl_cons, parseLine_row hrow' hg]
  rfl

/-- **Names of healthy entries.** -/
theorem namesIntact_iff {n : ℕ} {row : List Char} {es : List (String × ℕ)} {tail : List Char}
    (hrow : DataRow n row) (hes : ∀ e ∈ es, LegalName e.1.toList) (htail : Blanks tail) :
    ((parseObjDump n (namesText row es tail)).readable = true ∧
      ∀ e ∈ es, e ∈ (parseObjDump n (namesText row es tail)).zap.entries) ↔
    (∀ e ∈ es, ¬ ErrorName e.1.toList e.2) ∧
      ∀ e ∈ es, ∀ e' ∈ es, e.1 = e'.1 → e.2 = e'.2 := by
  obtain ⟨type, hparse⟩ := parse_namesText hrow hes htail
  have hd : (ObjDump.header type).exists_ = true := rfl
  obtain ⟨hexists, hunreadable, hzap⟩ := foldl_names hes htail hd
  rw [hparse, ObjDump.readable_iff, and_iff_right hexists]
  have hclean : (List.foldl (parseLine n) (ObjDump.header type)
      (es.map fun e => entryLine e.1.toList (digits e.2) tail)).unreadable = false ↔
        ∀ e ∈ es, ¬ ErrorName e.1.toList e.2 := by
    rw [← Bool.not_eq_true, hunreadable]
    have hu : (ObjDump.header type).unreadable = false := rfl
    simp [hu]
  rw [hclean]
  refine and_congr_right fun hnone => ?_
  rw [hzap hnone]
  exact Dict.forall_mem_foldl_set

/-- The child map of a pool with a dataset `museum`. -/
def museumRow : List Char :=
  "    34    1   128K    512    12K     512    512  100.00  DSL directory child map".toList

theorem museumRow_dataRow : DataRow 34 museumRow where
  line := by
    unfold Unbroken
    decide +kernel
  object := ⟨"34".toList, "DSL directory child map".toList, by decide +kernel⟩

/-- A dataset named `museum`. -/
theorem namesIntact_museum :
    (parseObjDump 34 (namesText museumRow [("museum", 670)] [' '])).readable = true := by
  refine ((namesIntact_iff museumRow_dataRow ?_ ?_).mpr ⟨?_, ?_⟩).1
  · rw [List.forall_mem_singleton]
    exact ⟨by decide, by decide +kernel⟩
  · exact List.forall_mem_singleton.mpr rfl
  · have hlegal : LegalName "museum".toList := ⟨by decide, by decide +kernel⟩
    have htail : Blanks [' '] := List.forall_mem_singleton.mpr rfl
    rw [List.forall_mem_singleton, ← searchError_entryLine_iff hlegal htail]
    decide +kernel
  · simp

/-- **A dataset named `museion` makes its child map unreadable.** -/
theorem museion_unreadable :
    LegalName "museion".toList ∧ ¬ (
      (parseObjDump 34 (namesText museumRow [("museion", 670)] [' '])).readable = true ∧
      ∀ e ∈ [("museion", 670)],
        e ∈ (parseObjDump 34 (namesText museumRow [("museion", 670)] [' '])).zap.entries) :=
  ⟨⟨by decide, by decide +kernel⟩, by decide +kernel⟩

end Zhaxx.Scan
