import Zhaxx.Lib.CText

/-!
# Fields of a line

A line of `name=value` fields between white space, and the two ways to read it:
`fields` cuts the line into tokens, while a C program often just searches for
`name=` and calls `strtoull` on what follows. With `quotes` set, a quote behind
an equals sign opens a text in which white space does not cut.

Main results:

* `strtoull_wholeNumber`: `strtoull` reads a token that is a number to its end.
* `after_tokens`: a search for text without white space finds the first token that
  contains it.
* `Leads.strtoull_after`: where searching and cutting agree.
-/

namespace CText

/-! ## Whole numbers -/

/-- The number that a text denotes as a whole: a C constant without sign, below
    `2^64`. -/
def wholeNumber (v : List Char) : Option ℕ :=
  let (base, ds) := detectBase v
  if ds ≠ [] ∧ ds.all (isDigit base) = true ∧ numeral base ds < 2 ^ 64 then
    some (numeral base ds)
  else none

/-- The end of a token: nothing follows, or white space. -/
def Ends (rest : List Char) : Prop := ∀ c ∈ rest.head?, isSpace c = true

theorem ends_nil : Ends [] := nofun

theorem ends_cons {c : Char} {s : List Char} (hc : isSpace c = true) : Ends (c :: s) := by
  intro d hd
  cases hd
  exact hc

/-- White space is no digit and no letter. -/
theorem digitValue_space {c : Char} (h : isSpace c = true) : digitValue c = none := by
  have hle : c.toNat ≤ 32 := by
    simp only [isSpace, Bool.or_eq_true, beq_iff_eq, Bool.and_eq_true, decide_eq_true_eq] at h
    rcases h with rfl | h
    · decide
    · omega
  have h0 : '0'.toNat = 48 := rfl
  have ha : 'a'.toNat = 97 := rfl
  have hA : 'A'.toNat = 65 := rfl
  unfold digitValue
  rw [if_neg (by omega), if_neg (by omega), if_neg (by omega)]

theorem isDigit_space {c : Char} {b : ℕ} (h : isSpace c = true) : isDigit b c = false := by
  rw [isDigit, digitValue_space h, Option.any_none]

theorem detectBase_of_ne {c : Char} {cs : List Char} (hc : c ≠ '0') :
    detectBase (c :: cs) = (10, c :: cs) := by
  unfold detectBase
  split
  · rename_i heq; exact absurd (List.cons.inj heq).1 hc
  · rename_i heq; exact absurd (List.cons.inj heq).1 hc
  · rfl

/-- The end of a token does not change how the number in it is read. -/
theorem detectBase_append {v rest : List Char} (hv : v ≠ []) (hr : Ends rest) :
    detectBase (v ++ rest) = ((detectBase v).1, (detectBase v).2 ++ rest) := by
  have hx : ∀ c ∈ rest.head?, ¬ (c = 'x' ∨ c = 'X') := by
    rintro c hc (rfl | rfl)
    · exact absurd (hr _ hc) (by decide)
    · exact absurd (hr _ hc) (by decide)
  obtain ⟨c, cs, rfl⟩ := List.exists_cons_of_ne_nil hv
  by_cases hc : c = '0'
  · subst hc
    rcases cs with _ | ⟨x, _ | ⟨d, cs⟩⟩
    · -- a lone zero, and no x behind it
      rcases rest with _ | ⟨x, _ | ⟨d, rest⟩⟩
      · rfl
      · rfl
      · simp [detectBase, hx x rfl]
    · rcases rest with _ | ⟨d, rest⟩
      · rfl
      · simp [detectBase, isDigit_space (hr d rfl)]
    · simp only [detectBase, List.cons_append]
      split_ifs <;> rfl
  · rw [List.cons_append, detectBase_of_ne hc, detectBase_of_ne hc]
    rfl

theorem wholeNumber_eq_some {v : List Char} {n : ℕ} : wholeNumber v = some n ↔
    (detectBase v).2 ≠ [] ∧ (∀ c ∈ (detectBase v).2, isDigit (detectBase v).1 c = true) ∧
      numeral (detectBase v).1 (detectBase v).2 = n ∧ n < 2 ^ 64 := by
  unfold wholeNumber
  simp only [List.all_eq_true]
  constructor
  · intro h
    split_ifs at h with hc
    cases h
    exact ⟨hc.1, hc.2.1, rfl, hc.2.2⟩
  · rintro ⟨hne, hds, rfl, hlt⟩
    exact if_pos ⟨hne, hds, hlt⟩

/-- A digit is neither white space nor a sign. -/
theorem digitValue_ne_none {c : Char} (h : digitValue c ≠ none) :
    isSpace c = false ∧ c ≠ '-' ∧ c ≠ '+' := by
  refine ⟨?_, ?_, ?_⟩
  · by_contra hs
    exact h (digitValue_space (by simpa using hs))
  · rintro rfl
    exact h (by decide)
  · rintro rfl
    exact h (by decide)

/-- A number starts with a digit. -/
theorem head_of_wholeNumber {v : List Char} {n : ℕ} (h : wholeNumber v = some n) :
    ∃ c cs, v = c :: cs ∧ digitValue c ≠ none := by
  obtain ⟨hne, hds, -⟩ := wholeNumber_eq_some.mp h
  cases v with
  | nil => exact absurd rfl hne
  | cons c cs =>
    refine ⟨c, cs, rfl, ?_⟩
    by_cases hc : c = '0'
    · subst hc
      decide
    · rw [detectBase_of_ne hc] at hds
      intro hnone
      have := hds c List.mem_cons_self
      rw [isDigit, hnone] at this
      cases this

/-- **A number read to its end.** -/
theorem strtoull_wholeNumber {v rest : List Char} {n : ℕ} (h : wholeNumber v = some n)
    (hr : Ends rest) : strtoull (v ++ rest) = some n := by
  obtain ⟨c, cs, rfl, hc⟩ := head_of_wholeNumber h
  obtain ⟨hsp, hminus, hplus⟩ := digitValue_ne_none hc
  obtain ⟨hne, hds, hn, hlt⟩ := wholeNumber_eq_some.mp h
  have hdrop : (c :: cs ++ rest).dropWhile isSpace = c :: cs ++ rest := by
    rw [List.cons_append, List.dropWhile_cons_of_neg (by simp [hsp])]
  have hsign : sign (c :: cs ++ rest) = (false, c :: cs ++ rest) := by
    unfold sign
    split
    · rename_i heq; exact absurd (List.cons.inj heq).1 hminus
    · rename_i heq; exact absurd (List.cons.inj heq).1 hplus
    · rfl
  have htake : ((detectBase (c :: cs)).2 ++ rest).takeWhile (isDigit (detectBase (c :: cs)).1) =
      (detectBase (c :: cs)).2 := by
    rw [List.takeWhile_append_of_pos hds]
    cases rest with
    | nil => simp
    | cons d rest =>
      rw [List.takeWhile_cons_of_neg (by simp [isDigit_space (hr d rfl)]), List.append_nil]
  unfold strtoull
  simp only [hdrop, hsign, detectBase_append (List.cons_ne_nil c cs) hr, htake, if_neg hne, hn,
    if_neg (Nat.not_le.mpr hlt)]
  rfl

/-! ## Tokens -/

/-- The tokens of a line, with `tok` read of the present one; `quoted` inside a
    quoted text. -/
def tokensAux (quotes quoted : Bool) (tok : List Char) : List Char → List (List Char)
  | [] => if tok = [] then [] else [tok]
  | c :: cs =>
    if !quoted && isSpace c then
      if tok = [] then tokensAux quotes false [] cs else tok :: tokensAux quotes false [] cs
    else
      tokensAux quotes
        (if quoted then c != '"' else quotes && c == '"' && tok.getLast? == some '=')
        (tok ++ [c]) cs

/-- The tokens of a line. -/
def tokens (quotes : Bool) (s : List Char) : List (List Char) := tokensAux quotes false [] s

/-- The text of `w=text`. -/
def fieldText (w t : List Char) : Option (List Char) :=
  if (w ++ ['=']).isPrefixOf t then some (t.drop (w.length + 1)) else none

/-- The texts of the tokens `w=text` of a line. -/
def fields (quotes : Bool) (w s : List Char) : List (List Char) :=
  (tokens quotes s).filterMap (fieldText w)

/-- Searching goes on behind a character that the text searched does not have. -/
theorem after_append_cons {pat u rest : List Char} {c : Char} (hp : pat ≠ []) (hc : c ∉ pat) :
    after pat (u ++ c :: rest) =
      ((after pat u).map fun r => r ++ c :: rest).or (after pat rest) := by
  have hcut : ∀ {u}, pat <+: u ++ c :: rest ↔ pat <+: u := by
    intro u
    refine ⟨fun h => ?_, fun h => h.trans (List.prefix_append _ _)⟩
    rcases List.prefix_or_prefix_of_prefix h (List.prefix_append u (c :: rest)) with h' | h'
    · exact h'
    · obtain ⟨t, rfl⟩ := h'
      rw [List.prefix_append_right_inj] at h
      cases t with
      | nil => simp
      | cons a t =>
        obtain ⟨rfl, -⟩ := List.cons_prefix_cons.mp h
        simp at hc
  unfold after
  induction u with
  | nil =>
    have hne : ¬ pat <+: c :: rest := fun h => hp (List.prefix_nil.mp (hcut.mp h))
    rw [List.nil_append, strstr_cons hne]
    simp [strstr, hp]
  | cons a u ih =>
    by_cases h : pat <+: a :: u
    · rw [strstr_at_start h hp, strstr_at_start (hcut.mpr h) hp, Option.map_some,
        List.drop_append_of_le_length h.length_le]
      rfl
    · have h' : ¬ pat <+: a :: (u ++ c :: rest) := fun h' => h (hcut.mp h')
      rw [List.cons_append, strstr_cons h', strstr_cons h, ih]

section

variable {pat : List Char} (hp : pat ≠ []) (hsp : ∀ c ∈ pat, isSpace c = false)

include hp hsp

theorem after_tokensAux (quotes quoted : Bool) (tok s : List Char) :
    ((tokensAux quotes quoted tok s).findSome? (after pat) = none ∧ after pat (tok ++ s) = none) ∨
      ∃ r rest, (tokensAux quotes quoted tok s).findSome? (after pat) = some r ∧
        after pat (tok ++ s) = some (r ++ rest) ∧ Ends rest := by
  induction s generalizing quoted tok with
  | nil =>
    rw [tokensAux, List.append_nil]
    by_cases ht : tok = []
    · subst ht
      simp [after, strstr, hp]
    · rw [if_neg ht]
      cases ha : after pat tok with
      | none => simp [ha]
      | some r => exact .inr ⟨r, [], by simp [ha], by simp, ends_nil⟩
  | cons c s ih =>
    rw [tokensAux]
    by_cases hc : (!quoted && isSpace c) = true
    · -- the token ends here
      have hcs : isSpace c = true := (Bool.and_eq_true_iff.mp hc).2
      have hcp : c ∉ pat := by
        intro h
        rw [hsp c h] at hcs
        cases hcs
      rw [if_pos hc, after_append_cons hp hcp]
      have hnil : after pat [] = none := by simp [after, strstr, hp]
      have hrest := ih false []
      rw [List.nil_append] at hrest
      by_cases ht : tok = []
      · subst ht
        simpa [hnil] using hrest
      · rw [if_neg ht, List.findSome?_cons]
        cases ha : after pat tok with
        | none => simpa using hrest
        | some r => exact .inr ⟨r, c :: s, rfl, rfl, ends_cons hcs⟩
    · rw [if_neg hc]
      have hrest := ih
        (if quoted then c != '"' else quotes && c == '"' && tok.getLast? == some '=') (tok ++ [c])
      rwa [List.append_assoc, List.singleton_append] at hrest

/-- **Searching finds the first token that contains the text.** -/
theorem after_tokens (quotes : Bool) (s : List Char) :
    ((tokens quotes s).findSome? (after pat) = none ∧ after pat s = none) ∨
      ∃ r rest, (tokens quotes s).findSome? (after pat) = some r ∧
        after pat s = some (r ++ rest) ∧ Ends rest := by
  have h := after_tokensAux hp hsp quotes false [] s
  rwa [List.nil_append] at h

end

/-- The first token of `s` that contains `w=` is `w=v`, and `v` denotes `n`. -/
def Leads (quotes : Bool) (w s : List Char) (n : ℕ) : Prop :=
  ∃ pre v post, tokens quotes s = pre ++ (w ++ '=' :: v) :: post ∧
    (∀ t ∈ pre, after (w ++ ['=']) t = none) ∧ wholeNumber v = some n

/-- **Where searching and cutting agree.** -/
theorem Leads.strtoull_after {quotes : Bool} {w s : List Char} {n : ℕ}
    (h : Leads quotes w s n) (hw : ∀ c ∈ w, isSpace c = false) :
    (after (w ++ ['=']) s).bind strtoull = some n := by
  obtain ⟨pre, v, post, htok, hpre, hv⟩ := h
  have hsp : ∀ c ∈ w ++ ['='], isSpace c = false := by
    rw [List.forall_mem_append]
    exact ⟨hw, by decide⟩
  have hhead : after (w ++ ['=']) (w ++ '=' :: v) = some v := by
    have hpref : w ++ ['='] <+: w ++ '=' :: v := ⟨v, by simp⟩
    rw [after, strstr_at_start hpref (by simp)]
    simp
  have hfind : (tokens quotes s).findSome? (after (w ++ ['='])) = some v := by
    rw [htok, List.findSome?_append, List.findSome?_eq_none_iff.mpr hpre, Option.none_or,
      List.findSome?_cons, hhead]
  rcases after_tokens (by simp) hsp quotes s with ⟨hnone, -⟩ | ⟨r, rest, hr, ha, hrest⟩
  · rw [hfind] at hnone
    cases hnone
  · rw [hfind] at hr
    cases hr
    rw [ha, Option.bind_some]
    exact strtoull_wholeNumber hv hrest

end CText
