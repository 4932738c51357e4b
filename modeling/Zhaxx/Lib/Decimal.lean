import Mathlib.Algebra.Order.Group.Int
import Mathlib.Data.Int.Basic
import Mathlib.Data.List.Basic
import Mathlib.Data.List.Induction
import Mathlib.Tactic.SplitIfs

/-!
# Decimal numerals inside a line of text

The digits of a number, and how a line that holds a number between other
characters determines it.
-/

namespace Decimal

/-- A property of the characters of a text is decided along the text, not by going
    through all of `Char`. -/
instance (priority := 10000) decidableForallMem {p : Char → Prop} [DecidablePred p]
    (s : List Char) : Decidable (∀ c ∈ s, p c) :=
  List.decidableBAll p s

/-- The decimal digits of `n`. -/
abbrev digits (n : ℕ) : List Char := Nat.toDigits 10 n

theorem isDigit_of_mem_digits {n : ℕ} {c : Char} (h : c ∈ digits n) : c.isDigit = true :=
  Nat.isDigit_of_mem_toDigits (by omega) le_rfl h

theorem digits_injective {m n : ℕ} (h : digits m = digits n) : m = n := by
  have := congrArg (fun l => Nat.ofDigitChars 10 l 0) h
  simpa [digits] using this

@[simp] theorem toList_toString_nat (n : ℕ) : (toString n).toList = digits n :=
  Nat.toList_repr

theorem toList_toString_int (z : ℤ) :
    (toString z).toList = if 0 ≤ z then digits z.toNat else '-' :: digits (-z).toNat := by
  cases z with
  | ofNat n =>
    have h0 : 0 ≤ Int.ofNat n := Int.natCast_nonneg n
    rw [if_pos h0]
    exact toList_toString_nat n
  | negSucc n =>
    rw [if_neg (by simp)]
    have h1 : toString (Int.negSucc n) = "-" ++ Nat.repr (n + 1) := rfl
    have h2 : (-Int.negSucc n).toNat = n + 1 := rfl
    rw [h1, h2, String.toList_append, Nat.toList_repr]
    rfl

theorem toList_toString_natCast (n : ℕ) : (toString (n : ℤ)).toList = digits n := by
  rw [toList_toString_int, if_pos (Int.natCast_nonneg n), Int.toNat_natCast]

theorem toString_int_injective {y z : ℤ} (h : (toString y).toList = (toString z).toList) :
    y = z := by
  have head_ne : ∀ (n : ℕ) (l : List Char), digits n ≠ '-' :: l := by
    intro n l he
    have : '-'.isDigit = true := isDigit_of_mem_digits (n := n) (by rw [he]; simp)
    simp at this
  simp only [toList_toString_int] at h
  split_ifs at h with hy hz hz
  · have := digits_injective h
    omega
  · exact absurd h (head_ne _ _)
  · exact absurd h.symm (head_ne _ _)
  · simp only [List.cons.injEq, true_and] at h
    have := digits_injective h
    omega

/-! ## Cutting a line at the first or last character outside a class -/

/-- Two lines that start with characters of a class and go on with one outside
    it agree on both parts. -/
theorem append_cons_inj {p : Char → Bool} {a b r r' : List Char} {x y : Char}
    (ha : ∀ c ∈ a, p c = true) (hb : ∀ c ∈ b, p c = true) (hx : p x = false) (hy : p y = false)
    (h : a ++ x :: r = b ++ y :: r') : a = b ∧ x :: r = y :: r' := by
  have h1 : (a ++ x :: r).takeWhile p = a := by
    rw [List.takeWhile_append_of_pos ha, List.takeWhile_cons_of_neg (by simp [hx]), List.append_nil]
  have h2 : (b ++ y :: r').takeWhile p = b := by
    rw [List.takeWhile_append_of_pos hb, List.takeWhile_cons_of_neg (by simp [hy]), List.append_nil]
  have hab : a = b := by rw [← h1, ← h2, h]
  subst hab
  exact ⟨rfl, List.append_cancel_left h⟩

/-- A number is determined by a line in which a text that starts with a
    non-digit follows it. -/
theorem digits_append_inj {m n : ℕ} {lit r r' : List Char}
    (hlit : lit.head?.map Char.isDigit = some false)
    (h : digits m ++ (lit ++ r) = digits n ++ (lit ++ r')) : m = n ∧ r = r' := by
  cases lit with
  | nil => simp at hlit
  | cons x l =>
    simp only [List.head?_cons, Option.map_some, Option.some.injEq] at hlit
    obtain ⟨h1, h2⟩ := append_cons_inj (p := Char.isDigit) (fun _ => isDigit_of_mem_digits)
      (fun _ => isDigit_of_mem_digits) hlit hlit h
    exact ⟨digits_injective h1, by simpa using h2⟩

/-- A number at the end of a line, after a text that ends with a non-digit, is
    determined by the line, and so is what stands before that text. -/
theorem append_digits_inj {m n : ℕ} {lit r r' : List Char}
    (hlit : lit.getLast?.map Char.isDigit = some false)
    (h : r ++ (lit ++ digits m) = r' ++ (lit ++ digits n)) : r = r' ∧ m = n := by
  cases lit using List.reverseRecOn with
  | nil => simp at hlit
  | append_singleton l x =>
    simp only [List.getLast?_append, List.getLast?_singleton, Option.some_or, Option.map_some,
      Option.some.injEq] at hlit
    have hrev : (digits m).reverse ++ x :: (r ++ l).reverse =
        (digits n).reverse ++ x :: (r' ++ l).reverse := by
      have := congrArg List.reverse h
      simpa using this
    obtain ⟨h1, h2⟩ := append_cons_inj (p := Char.isDigit)
      (fun c hc => isDigit_of_mem_digits (List.mem_reverse.mp hc))
      (fun c hc => isDigit_of_mem_digits (List.mem_reverse.mp hc)) hlit hlit hrev
    exact ⟨by simpa using h2, digits_injective (List.reverse_injective h1)⟩

/-! ## The same on strings -/

theorem append_left_cancel {s t u : String} (h : s ++ t = s ++ u) : t = u := by
  have := congrArg String.toList h
  rw [String.toList_append, String.toList_append] at this
  exact String.toList_inj.mp (List.append_cancel_left this)

theorem append_right_cancel {s t u : String} (h : s ++ u = t ++ u) : s = t := by
  have := congrArg String.toList h
  rw [String.toList_append, String.toList_append] at this
  exact String.toList_inj.mp (List.append_cancel_right this)

theorem append_toString_inj {lit s s' : String} {m n : ℕ}
    (hlit : lit.toList.getLast?.map Char.isDigit = some false)
    (h : s ++ lit ++ toString m = s' ++ lit ++ toString n) : s = s' ∧ m = n := by
  have hl := congrArg String.toList h
  simp only [String.toList_append, toList_toString_nat, List.append_assoc] at hl
  obtain ⟨h1, h2⟩ := append_digits_inj hlit hl
  exact ⟨String.toList_inj.mp h1, h2⟩

theorem toString_append_inj {lit s s' : String} {m n : ℕ}
    (hlit : lit.toList.head?.map Char.isDigit = some false)
    (h : toString m ++ (lit ++ s) = toString n ++ (lit ++ s')) : m = n ∧ s = s' := by
  have hl := congrArg String.toList h
  simp only [String.toList_append, toList_toString_nat] at hl
  obtain ⟨h1, h2⟩ := digits_append_inj hlit hl
  exact ⟨h1, String.toList_inj.mp h2⟩

end Decimal
