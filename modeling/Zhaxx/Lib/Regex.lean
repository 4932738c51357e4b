import Mathlib.Data.List.Infix

/-!
# Backtracking over repeated character classes

The regular expressions of a line-oriented program are mostly sequences of
repeated character classes, such as `\s+(\d+)\s+(.+?)\s*$`. `Item` is one repeated
class and `matchItems` the backtracking search over a sequence of them: it tries
the lengths of each item in the order of its greediness and returns the pieces
of the first success.

Main results:

* `matchItems_sound`: the pieces make up the beginning of the text, each made of
  characters of its class and as long as its bounds allow.
* `isSome_cons`: the search is complete: it succeeds when there is a match.
* `matchItems_greedy`, `matchItems_lazy`: the piece that is found.
-/

namespace Regex

/-- `[cls]{least,most}`, or with a `?` behind it when `lazy`. -/
structure Item where
  cls : Char → Bool
  least : ℕ
  most : Option ℕ
  lazy : Bool

/-- `[cls]`. -/
def Item.one (cls : Char → Bool) : Item := ⟨cls, 1, some 1, false⟩

/-- `[cls]?`. -/
def Item.opt (cls : Char → Bool) : Item := ⟨cls, 0, some 1, false⟩

/-- `[cls]*`. -/
def Item.star (cls : Char → Bool) : Item := ⟨cls, 0, none, false⟩

/-- `[cls]+`. -/
def Item.plus (cls : Char → Bool) : Item := ⟨cls, 1, none, false⟩

/-- `[cls]*?`. -/
def Item.lazyStar (cls : Char → Bool) : Item := ⟨cls, 0, none, true⟩

/-- `[cls]+?`. -/
def Item.lazyPlus (cls : Char → Bool) : Item := ⟨cls, 1, none, true⟩

/-- The ways to cut off a beginning made of `cls`, shortest first. -/
def cuts (cls : Char → Bool) : List Char → List (List Char × List Char)
  | [] => [([], [])]
  | c :: cs =>
    ([], c :: cs) :: if cls c then (cuts cls cs).map fun e => (c :: e.1, e.2) else []

/-- The length `n` is allowed. -/
def Item.allows (i : Item) (n : ℕ) : Bool := i.least ≤ n && i.most.all fun k => n ≤ k

/-- The ways to match one item, in the order in which they are tried. -/
def Item.tries (i : Item) (s : List Char) : List (List Char × List Char) :=
  let all := (cuts i.cls s).filter fun e => i.allows e.1.length
  if i.lazy then all else all.reverse

/-- Match the items one after the other at the beginning of `s`, so that `fin`
    holds of what is left; the pieces of the first success. -/
def matchItems (fin : List Char → Bool) : List Item → List Char → Option (List (List Char))
  | [], s => if fin s then some [] else none
  | i :: is, s => (i.tries s).findSome? fun e => (matchItems fin is e.2).map (e.1 :: ·)

/-- `$` at the end of a line without its terminator. -/
def atEnd (s : List Char) : Bool := s.isEmpty

/-- Nothing is asked of what is left. -/
def anywhere (_ : List Char) : Bool := true

/-- Find a match of one of the alternatives at some position of `s`. -/
def searchAny (alts : List (List Item × (List Char → Bool))) (s : List Char) : Bool :=
  s.tails.any fun t => alts.any fun a => (matchItems a.2 a.1 t).isSome

/-! ## Soundness -/

theorem mem_cuts {cls : Char → Bool} {s : List Char} {e : List Char × List Char}
    (h : e ∈ cuts cls s) : e.1 ++ e.2 = s ∧ ∀ c ∈ e.1, cls c = true := by
  induction s generalizing e with
  | nil =>
    simp only [cuts, List.mem_singleton] at h
    subst h
    simp
  | cons c cs ih =>
    rw [cuts, List.mem_cons] at h
    rcases h with rfl | h
    · simp
    · split_ifs at h with hc
      · obtain ⟨e', he', rfl⟩ := List.mem_map.mp h
        obtain ⟨h1, h2⟩ := ih he'
        refine ⟨by simpa using h1, ?_⟩
        intro d hd
        rcases List.mem_cons.mp hd with rfl | hd
        · exact hc
        · exact h2 d hd
      · simp at h

theorem Item.mem_tries {i : Item} {s : List Char} {e : List Char × List Char}
    (h : e ∈ i.tries s) :
    e.1 ++ e.2 = s ∧ (∀ c ∈ e.1, i.cls c = true) ∧ i.allows e.1.length = true := by
  have : e ∈ (cuts i.cls s).filter fun e => i.allows e.1.length := by
    unfold tries at h
    dsimp only at h
    split_ifs at h
    · exact h
    · exact List.mem_reverse.mp h
  obtain ⟨hc, ha⟩ := List.mem_filter.mp this
  exact ⟨(mem_cuts hc).1, (mem_cuts hc).2, ha⟩

/-- **Soundness.** -/
theorem matchItems_sound {fin : List Char → Bool} {is : List Item} {s : List Char}
    {ps : List (List Char)} (h : matchItems fin is s = some ps) :
    (∃ rest, ps.flatten ++ rest = s ∧ fin rest = true) ∧
      List.Forall₂ (fun i p => (∀ c ∈ p, i.cls c = true) ∧ i.allows p.length = true) is ps := by
  induction is generalizing s ps with
  | nil =>
    rw [matchItems] at h
    split_ifs at h with hf
    cases h
    exact ⟨⟨s, rfl, hf⟩, .nil⟩
  | cons i is ih =>
    rw [matchItems] at h
    obtain ⟨e, he, hm⟩ := List.exists_of_findSome?_eq_some h
    obtain ⟨qs, hqs, rfl⟩ := Option.map_eq_some_iff.mp hm
    obtain ⟨happ, hcls, hall⟩ := Item.mem_tries he
    obtain ⟨⟨rest, hrest, hfin⟩, hps⟩ := ih hqs
    refine ⟨⟨rest, ?_, hfin⟩, .cons ⟨hcls, hall⟩ hps⟩
    rw [List.flatten_cons, List.append_assoc, hrest, happ]

section

variable {cls : Char → Bool} {n : ℕ}

@[simp] theorem allows_one : (Item.one cls).allows n = true ↔ n = 1 := by
  rw [Item.allows, Bool.and_eq_true, decide_eq_true_iff]
  have h : (Item.one cls).most.all (fun k => decide (n ≤ k)) = true ↔ n ≤ 1 := decide_eq_true_iff
  rw [h]
  exact ⟨fun h => Nat.le_antisymm h.2 h.1, fun h => ⟨Nat.le_of_eq h.symm, Nat.le_of_eq h⟩⟩

@[simp] theorem allows_opt : (Item.opt cls).allows n = true ↔ n ≤ 1 := by
  simp [Item.opt, Item.allows]

@[simp] theorem allows_star : (Item.star cls).allows n = true := by
  simp [Item.star, Item.allows]

@[simp] theorem allows_plus : (Item.plus cls).allows n = true ↔ 0 < n := by
  simp [Item.plus, Item.allows, Nat.one_le_iff_ne_zero, Nat.pos_iff_ne_zero]

@[simp] theorem allows_lazyStar : (Item.lazyStar cls).allows n = true := by
  simp [Item.lazyStar, Item.allows]

@[simp] theorem allows_lazyPlus : (Item.lazyPlus cls).allows n = true ↔ 0 < n := by
  simp [Item.lazyPlus, Item.allows, Nat.one_le_iff_ne_zero, Nat.pos_iff_ne_zero]

end

/-! ## Completeness -/

theorem mem_cuts_iff {cls : Char → Bool} {s : List Char} {e : List Char × List Char} :
    e ∈ cuts cls s ↔ e.1 ++ e.2 = s ∧ ∀ c ∈ e.1, cls c = true := by
  refine ⟨mem_cuts, ?_⟩
  rintro ⟨rfl, h⟩
  obtain ⟨p, r⟩ := e
  dsimp only at h ⊢
  induction p with
  | nil => cases r <;> simp [cuts]
  | cons c p ih =>
    rw [List.forall_mem_cons] at h
    rw [List.cons_append, cuts, if_pos h.1]
    exact List.mem_cons_of_mem _ (List.mem_map.mpr ⟨_, ih h.2, rfl⟩)

theorem Item.mem_tries_iff {i : Item} {s : List Char} {e : List Char × List Char} :
    e ∈ i.tries s ↔
      e.1 ++ e.2 = s ∧ (∀ c ∈ e.1, i.cls c = true) ∧ i.allows e.1.length = true := by
  have h : e ∈ i.tries s ↔ e ∈ (cuts i.cls s).filter fun e => i.allows e.1.length := by
    unfold tries
    dsimp only
    split_ifs
    · rfl
    · exact List.mem_reverse
  rw [h, List.mem_filter, mem_cuts_iff, and_assoc]

theorem isSome_nil {fin : List Char → Bool} {s : List Char} :
    (matchItems fin [] s).isSome = true ↔ fin s = true := by
  rw [matchItems]
  split_ifs with h <;> simp [h]

/-- **Completeness.** -/
theorem isSome_cons {fin : List Char → Bool} {i : Item} {is : List Item} {s : List Char} :
    (matchItems fin (i :: is) s).isSome = true ↔
      ∃ p r, p ++ r = s ∧ (∀ c ∈ p, i.cls c = true) ∧ i.allows p.length = true ∧
        (matchItems fin is r).isSome = true := by
  rw [matchItems, List.findSome?_isSome_iff]
  simp only [Option.isSome_map, Item.mem_tries_iff, Prod.exists, and_assoc]

/-- A match of a class that has to occur starts with it. -/
theorem head_of_isSome {fin : List Char → Bool} {i : Item} {is : List Item} {s : List Char}
    (hi : 0 < i.least) (h : (matchItems fin (i :: is) s).isSome = true) :
    ∃ c r, s = c :: r ∧ i.cls c = true := by
  obtain ⟨p, r, rfl, hcls, hall, -⟩ := isSome_cons.mp h
  cases p with
  | nil =>
    simp only [Item.allows, List.length_nil, Bool.and_eq_true, decide_eq_true_eq] at hall
    exact absurd hall.1 (by omega)
  | cons c p => exact ⟨c, p ++ r, rfl, hcls c List.mem_cons_self⟩

/-- One character. -/
theorem isSome_one {fin : List Char → Bool} {cls : Char → Bool} {is : List Item} {s : List Char} :
    (matchItems fin (.one cls :: is) s).isSome = true ↔
      ∃ c r, s = c :: r ∧ cls c = true ∧ (matchItems fin is r).isSome = true := by
  rw [isSome_cons]
  constructor
  · rintro ⟨p, r, rfl, hcls, hall, hr⟩
    obtain ⟨c, rfl⟩ := List.length_eq_one_iff.mp (allows_one.mp hall)
    exact ⟨c, r, rfl, hcls c List.mem_cons_self, hr⟩
  · rintro ⟨c, r, rfl, hc, hr⟩
    exact ⟨[c], r, rfl, by simpa [Item.one] using hc, rfl, hr⟩

/-- Where the next class is another one, a repeated class takes all it can. -/
theorem isSome_plus {fin : List Char → Bool} {cls : Char → Bool} {j : Item} {is : List Item}
    {p r : List Char} (hj : 0 < j.least) (hdis : ∀ c, j.cls c = true → cls c = false)
    (hp : ∀ c ∈ p, cls c = true) (hr : ∀ c ∈ r.head?, cls c = false) :
    (matchItems fin (.plus cls :: j :: is) (p ++ r)).isSome = true ↔
      p ≠ [] ∧ (matchItems fin (j :: is) r).isSome = true := by
  rw [isSome_cons]
  constructor
  · rintro ⟨p', r', happ, hcls, hall, hr'⟩
    obtain ⟨c, t, rfl, hc⟩ := head_of_isSome hj hr'
    have hc' := hdis c hc
    have hcls : ∀ c ∈ p', cls c = true := hcls
    have hp' : p' = p := by
      have h1 : (p' ++ c :: t).takeWhile cls = p' := by
        rw [List.takeWhile_append_of_pos hcls, List.takeWhile_cons_of_neg (by simp [hc']),
          List.append_nil]
      have h2 : (p ++ r).takeWhile cls = p := by
        rw [List.takeWhile_append_of_pos hp]
        cases r with
        | nil => simp
        | cons d r => rw [List.takeWhile_cons_of_neg (by simp [hr d rfl]), List.append_nil]
      rw [← h1, ← h2, happ]
    subst hp'
    rw [List.append_cancel_left happ] at hr'
    refine ⟨?_, hr'⟩
    rintro rfl
    exact absurd (allows_plus.mp hall) (by simp)
  · rintro ⟨hne, h⟩
    exact ⟨p, r, rfl, hp, allows_plus.mpr (List.length_pos_iff.mpr hne), h⟩

/-- A literal text, each of its characters up to `f`. -/
theorem isSome_literal {fin : List Char → Bool} {f : Char → Char → Bool} {w : List Char}
    {is : List Item} {s : List Char} :
    (matchItems fin (w.map (fun l => .one (f l)) ++ is) s).isSome = true ↔
      ∃ u r, s = u ++ r ∧ List.Forall₂ (fun l c => f l c = true) w u ∧
        (matchItems fin is r).isSome = true := by
  induction w generalizing s with
  | nil =>
    constructor
    · exact fun h => ⟨[], s, rfl, .nil, h⟩
    · rintro ⟨_, r, rfl, ⟨⟩, h⟩
      exact h
  | cons l w ih =>
    rw [List.map_cons, List.cons_append, isSome_one]
    constructor
    · rintro ⟨c, r, rfl, hc, h⟩
      obtain ⟨u, r, rfl, hu, h⟩ := ih.mp h
      exact ⟨c :: u, r, rfl, .cons hc hu, h⟩
    · rintro ⟨_, r, rfl, hu, h⟩
      cases hu with
      | cons hc hu => exact ⟨_, _, rfl, hc, ih.mpr ⟨_, r, rfl, hu, h⟩⟩

theorem searchAny_iff {alts : List (List Item × (List Char → Bool))} {s : List Char} :
    searchAny alts s = true ↔
      ∃ pre t, s = pre ++ t ∧ ∃ a ∈ alts, (matchItems a.2 a.1 t).isSome = true := by
  simp only [searchAny, List.any_eq_true, List.mem_tails]
  constructor
  · rintro ⟨t, ⟨pre, rfl⟩, h⟩
    exact ⟨pre, t, rfl, h⟩
  · rintro ⟨pre, t, rfl, h⟩
    exact ⟨t, ⟨pre, rfl⟩, h⟩

/-! ## The pieces that are found -/

/-- The cuts in their order: those before `p` are shorter, those behind it longer. -/
theorem cuts_append {cls : Char → Bool} {p : List Char} (hp : ∀ c ∈ p, cls c = true)
    (r : List Char) :
    ∃ pre post, cuts cls (p ++ r) = pre ++ (p, r) :: post ∧
      (∀ e ∈ pre, e.1.length < p.length ∧ e.1 ++ e.2 = p ++ r) ∧
      (∀ e ∈ post, p.length < e.1.length) ∧ ((∀ c ∈ r.head?, cls c = false) → post = []) := by
  induction p with
  | nil =>
    cases r with
    | nil => exact ⟨[], [], rfl, List.forall_mem_nil _, List.forall_mem_nil _, fun _ => rfl⟩
    | cons c r =>
      refine ⟨[], _, rfl, List.forall_mem_nil _, fun e he => ?_, fun h => by simp [h c rfl]⟩
      split_ifs at he
      · obtain ⟨e', -, rfl⟩ := List.mem_map.mp he
        exact Nat.zero_lt_succ _
      · cases he
  | cons c p ih =>
    rw [List.forall_mem_cons] at hp
    obtain ⟨pre, post, hcuts, hpre, hlong, hpost⟩ := ih hp.2
    refine ⟨([], c :: (p ++ r)) :: pre.map (fun e => (c :: e.1, e.2)),
      post.map (fun e => (c :: e.1, e.2)), ?_, ?_, ?_, fun h => by rw [hpost h]; rfl⟩
    · rw [List.cons_append, cuts, if_pos hp.1, hcuts]
      simp
    · rw [List.forall_mem_cons, List.forall_mem_map]
      refine ⟨⟨by simp, rfl⟩, fun e he => ?_⟩
      obtain ⟨hlt, happ⟩ := hpre e he
      exact ⟨by simpa using hlt, by simp [happ]⟩
    · rw [List.forall_mem_map]
      exact fun e he => by simpa using hlong e he

/-- **A greedy piece** that cannot be longer. -/
theorem matchItems_greedy {fin : List Char → Bool} {i : Item} {is : List Item} {p r : List Char}
    {ps : List (List Char)} (hi : i.lazy = false) (hp : ∀ c ∈ p, i.cls c = true)
    (hall : i.allows p.length = true)
    (hmax : (∀ c ∈ r.head?, i.cls c = false) ∨ i.most = some p.length)
    (h : matchItems fin is r = some ps) : matchItems fin (i :: is) (p ++ r) = some (p :: ps) := by
  obtain ⟨pre, post, hcuts, -, hlong, hpost⟩ := cuts_append hp r
  have hnone : (post.filter fun e => i.allows e.1.length) = [] := by
    rcases hmax with hmax | hmax
    · rw [hpost hmax]
      rfl
    · rw [List.filter_eq_nil_iff]
      intro e he
      have := hlong e he
      simp [Item.allows, hmax]
      omega
  have htries : i.tries (p ++ r) =
      (p, r) :: (pre.filter fun e => i.allows e.1.length).reverse := by
    unfold Item.tries
    rw [hcuts, hi]
    simp [hall, hnone]
  rw [matchItems, htries, List.findSome?_cons, h]
  rfl

/-- **A lazy piece** that cannot be shorter. -/
theorem matchItems_lazy {fin : List Char → Bool} {i : Item} {is : List Item} {p r : List Char}
    {ps : List (List Char)} (hi : i.lazy = true) (hp : ∀ c ∈ p, i.cls c = true)
    (hall : i.allows p.length = true)
    (hshort : ∀ p' r', p' ++ r' = p ++ r → p'.length < p.length →
      i.allows p'.length = true → matchItems fin is r' = none)
    (h : matchItems fin is r = some ps) : matchItems fin (i :: is) (p ++ r) = some (p :: ps) := by
  obtain ⟨pre, post, hcuts, hpre, -, -⟩ := cuts_append hp r
  have htries : i.tries (p ++ r) = (pre.filter fun e => i.allows e.1.length) ++
      (p, r) :: post.filter fun e => i.allows e.1.length := by
    unfold Item.tries
    rw [hcuts, hi]
    simp [hall]
  have hnone : (pre.filter fun e => i.allows e.1.length).findSome?
      (fun e => (matchItems fin is e.2).map (e.1 :: ·)) = none := by
    rw [List.findSome?_eq_none_iff]
    intro e he
    obtain ⟨hmem, ha⟩ := List.mem_filter.mp he
    rw [hshort e.1 e.2 (hpre e hmem).2 (hpre e hmem).1 ha]
    rfl
  rw [matchItems, htries, List.findSome?_append, hnone, List.findSome?_cons, h]
  rfl

/-- One character. -/
theorem matchItems_one {fin : List Char → Bool} {cls : Char → Bool} {is : List Item} {c : Char}
    {r : List Char} {ps : List (List Char)} (hc : cls c = true)
    (h : matchItems fin is r = some ps) :
    matchItems fin (.one cls :: is) (c :: r) = some ([c] :: ps) :=
  matchItems_greedy (p := [c]) rfl (List.forall_mem_singleton.mpr hc) (allows_one.mpr rfl)
    (.inr rfl) h

/-- A repeated class, up to a character outside of it. -/
theorem matchItems_plus {fin : List Char → Bool} {cls : Char → Bool} {is : List Item}
    {p r : List Char} {ps : List (List Char)} (hne : p ≠ []) (hp : ∀ c ∈ p, cls c = true)
    (hr : ∀ c ∈ r.head?, cls c = false) (h : matchItems fin is r = some ps) :
    matchItems fin (.plus cls :: is) (p ++ r) = some (p :: ps) :=
  matchItems_greedy rfl hp (allows_plus.mpr (List.length_pos_iff.mpr hne)) (.inl hr) h

/-! ## The end of a line -/

theorem isSome_star_atEnd {cls : Char → Bool} {s : List Char} :
    (matchItems atEnd [.star cls] s).isSome = true ↔ ∀ c ∈ s, cls c = true := by
  rw [isSome_cons]
  constructor
  · rintro ⟨p, r, rfl, hp, -, hr⟩
    rw [isSome_nil, atEnd, List.isEmpty_iff] at hr
    rwa [hr, List.append_nil]
  · exact fun h => ⟨s, [], List.append_nil s, h, allows_star, rfl⟩

theorem matchItems_star_atEnd {cls : Char → Bool} {s : List Char} (h : ∀ c ∈ s, cls c = true) :
    matchItems atEnd [.star cls] s = some [s] := by
  have hgreedy : matchItems atEnd [.star cls] (s ++ []) = some [s] :=
    matchItems_greedy rfl h allows_star (.inl nofun) rfl
  rwa [List.append_nil] at hgreedy

/-- A text without trailing blanks, captured lazily up to the blanks behind it. -/
theorem matchItems_trimmed {i : Item} {space : Char → Bool} {t blanks : List Char}
    (hi : i.lazy = true) (hcls : ∀ c ∈ t, i.cls c = true) (hall : i.allows t.length = true)
    (hlast : ∀ c ∈ t.getLast?, space c = false) (hblanks : ∀ c ∈ blanks, space c = true) :
    matchItems atEnd [i, .star space] (t ++ blanks) = some [t, blanks] := by
  refine matchItems_lazy hi hcls hall ?_ (matchItems_star_atEnd hblanks)
  intro p' r' happ hlt _
  rw [← Option.not_isSome_iff_eq_none, isSome_star_atEnd]
  intro hr
  -- what is left ends with the last character of the text
  obtain ⟨u, hu⟩ : ∃ u, t = p' ++ u := by
    obtain ⟨u, h, -⟩ | ⟨u, h, -⟩ := List.append_eq_append_iff.mp happ
    · exact ⟨u, h⟩
    · rw [h, List.length_append] at hlt
      omega
  have hne : u ≠ [] := by
    rintro rfl
    rw [hu, List.append_nil] at hlt
    exact absurd hlt (by omega)
  rw [hu, List.append_assoc] at happ
  rw [List.append_cancel_left happ] at hr
  have hspace := hr _ (List.mem_append_left _ (List.getLast_mem hne))
  have hend : u.getLast hne ∈ t.getLast? := by
    rw [hu, List.getLast?_append, List.getLast?_eq_some_getLast hne]
    rfl
  rw [hlast _ hend] at hspace
  cases hspace

end Regex
