import Zhaxx.Lib.CText

/-!
# Messages of a C program

`fprintf` with the conversions `%s`, `%d`, `%u` and `%llu`, whose arguments are given as the
texts that they print as, and a stream to which a program writes line by line.

Main results:

* `mem_format`: a message has the characters of the format and of the arguments only.
* `opening_prefix`: a message begins as its format does.
* `format_number`: a message with one number, which stands in the middle of it.
* `splitOn_unlines`: the lines of a stream are those that were written, if they are lines.
-/

namespace CText

/-- The text that a format makes of its arguments. -/
def formatChars : List Char → List (List Char) → List Char
  | [], _ => []
  | '%' :: 'l' :: 'l' :: 'u' :: fmt, arg :: args => arg ++ formatChars fmt args
  | '%' :: _ :: fmt, arg :: args => arg ++ formatChars fmt args
  | c :: fmt, args => c :: formatChars fmt args

/-- The text that `fprintf` writes. -/
def format (fmt : String) (args : List (List Char)) : List Char := formatChars (utf8 fmt) args

/-- The ASCII characters before the first conversion. -/
def opening (fmt : List Char) : List Char :=
  fmt.takeWhile fun c => decide (c.toNat < 128) && c != '%'

theorem mem_formatChars {fmt : List Char} {args : List (List Char)} {c : Char}
    (h : c ∈ formatChars fmt args) : c ∈ fmt ∨ ∃ arg ∈ args, c ∈ arg := by
  fun_induction formatChars fmt args with
  | case1 => cases h
  | case2 fmt arg args ih =>
    rcases List.mem_append.mp h with h | h
    · exact .inr ⟨arg, List.mem_cons_self, h⟩
    · rcases ih h with h | ⟨a, ha, h⟩
      · exact .inl (by simp [h])
      · exact .inr ⟨a, List.mem_cons_of_mem _ ha, h⟩
  | case3 d fmt arg args _ ih =>
    rcases List.mem_append.mp h with h | h
    · exact .inr ⟨arg, List.mem_cons_self, h⟩
    · rcases ih h with h | ⟨a, ha, h⟩
      · exact .inl (by simp [h])
      · exact .inr ⟨a, List.mem_cons_of_mem _ ha, h⟩
  | case4 d fmt args _ _ ih =>
    rcases List.mem_cons.mp h with rfl | h
    · exact .inl List.mem_cons_self
    · exact (ih h).imp_left (List.mem_cons_of_mem _)

/-- **The characters of a message.** -/
theorem mem_format {fmt : String} {args : List (List Char)} {c : Char}
    (h : c ∈ format fmt args) : c ∈ utf8 fmt ∨ ∃ arg ∈ args, c ∈ arg := mem_formatChars h

/-- Text without conversions is copied. -/
theorem formatChars_append {lit : List Char} (h : '%' ∉ lit) (fmt : List Char)
    (args : List (List Char)) : formatChars (lit ++ fmt) args = lit ++ formatChars fmt args := by
  induction lit with
  | nil => rfl
  | cons c lit ih =>
    rw [List.mem_cons, not_or] at h
    rw [List.cons_append, formatChars, ih h.2, List.cons_append]
    · rintro _ _ _ rfl rfl
      exact absurd rfl h.1
    · rintro _ _ _ _ _ rfl
      exact absurd rfl h.1

theorem utf8_ofList_append {lit : List Char} (h : ∀ c ∈ lit, c.toNat < 128) (rest : List Char) :
    utf8 (String.ofList (lit ++ rest)) = lit ++ utf8 (String.ofList rest) := by
  have hlit : utf8 (String.ofList lit) = lit := by
    rw [utf8_ascii fun c hc => h c (by simpa using hc), String.toList_ofList]
  rw [String.ofList_append, utf8_append, hlit]

/-- A format in two literals. -/
theorem literals_append {s t : String} {a b : List Char} (hs : s = String.ofList a)
    (ht : t = String.ofList b) : s ++ t = String.ofList (a ++ b) := by
  rw [hs, ht, String.ofList_append]

/-- **How a message begins.** -/
theorem opening_prefix (fmt : List Char) (args : List (List Char)) :
    opening fmt <+: format (String.ofList fmt) args := by
  have hopening : ∀ c ∈ opening fmt, c.toNat < 128 ∧ c ≠ '%' := fun c hc => by
    simpa using List.mem_takeWhile_imp hc
  obtain ⟨rest, hrest⟩ : opening fmt <+: fmt := List.takeWhile_prefix _
  have hutf8 : utf8 (String.ofList fmt) = opening fmt ++ utf8 (String.ofList rest) := by
    rw [← utf8_ofList_append fun c hc => (hopening c hc).1, hrest]
  rw [format, hutf8, formatChars_append fun h => (hopening _ h).2 rfl]
  exact List.prefix_append _ _

/-- A format with one number. -/
theorem format_number {fmt : String} {lit mid rest : List Char}
    (hfmt : fmt = String.ofList (lit ++ '%' :: 'd' :: (mid ++ rest)))
    (hlit : ∀ c ∈ lit, c.toNat < 128 ∧ c ≠ '%') (hmid : ∀ c ∈ mid, c.toNat < 128 ∧ c ≠ '%')
    (arg : List Char) :
    format fmt [arg] = lit ++ (arg ++ (mid ++ formatChars (utf8 (String.ofList rest)) [])) := by
  have hnumber : utf8 (String.ofList ('%' :: 'd' :: (mid ++ rest))) =
      '%' :: 'd' :: (mid ++ utf8 (String.ofList rest)) := by
    rw [← utf8_ofList_append fun c hc => (hmid c hc).1]
    exact @utf8_ofList_append ['%', 'd'] (by decide) _
  rw [format, hfmt, utf8_ofList_append fun c hc => (hlit c hc).1, hnumber,
    formatChars_append fun hc => (hlit _ hc).2 rfl, formatChars,
    formatChars_append fun hc => (hmid _ hc).2 rfl]
  rintro _ hl
  cases hl

/-! ## Streams -/

/-- What a stream holds when `ls` were written to it. -/
def unlines (ls : List (List Char)) : List Char := ls.flatMap (· ++ ['\n'])

/-- **Reading a stream line by line.** -/
theorem splitOn_unlines {ls : List (List Char)} (h : ∀ l ∈ ls, '\n' ∉ l) :
    (unlines ls).splitOn '\n' = ls ++ [[]] := by
  induction ls with
  | nil => rfl
  | cons l ls ih =>
    rw [List.forall_mem_cons] at h
    rw [unlines, List.flatMap_cons, List.append_assoc, List.singleton_append,
      List.splitOn_append_cons_self_of_not_mem h.1, ← unlines, ih h.2, List.cons_append]

end CText
