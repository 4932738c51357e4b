import Zhaxx.Surgeon.ParsePlan

/-!
# Plan files

What `parse_plan` (`surgeon/zhaxx.c` lines 159–267) makes of the lines of a file. It
reads with `fgets` into `line[512]`, so what it handles is not the lines but pieces
of at most 511 bytes, each with its own test for blanks and for `#`.

Results:
* `parsePlan_accepted_iff`, `parsePlan_ops`: a file is accepted exactly when each
  piece is, and the operations are those of the pieces.
* `oneToOne_iff`: the operations of an accepted file are those of its lines, and each
  line was read whole, exactly when no line is longer than 511 bytes.
* `longComment_executed`: the end of a long comment is executed.
-/

namespace Zhaxx.Surgeon

open CText

/-! ## Lines and pieces -/

/-- The lines of a file, without their newlines. -/
def fileLines (content : List Char) : List (List Char) := content.splitOn '\n'

/-- What follows the leading spaces and tabs. -/
def behindBlanks (l : List Char) : List Char := l.dropWhile fun c => c == ' ' || c == '\t'

/-- The operation on a line: the line behind its leading blanks, unless it is blank or
    a comment. -/
def lineText (l : List Char) : Option (List Char) :=
  match behindBlanks l with
  | [] => none
  | '#' :: _ => none
  | s => some s

/-- The texts that `parse_plan` reads an operation from when it meets a line. -/
def pieces (l : List Char) : List (List Char) :=
  (fgetsLines (lineSize - 1) l).filterMap opText

/-- The operations that `parse_plan` stores when it meets a line. -/
def storedOps (l : List Char) : List OpT := (pieces l).map fun s => (parseOp s).1

/-- `fgets` returns the line in one piece. -/
def ReadWhole (l : List Char) : Prop := (fgetsLines (lineSize - 1) l).length ≤ 1

theorem mem_of_mem_behindBlanks {c : Char} {l : List Char} (h : c ∈ behindBlanks l) : c ∈ l :=
  (List.dropWhile_suffix _).subset h

theorem opText_of_nil {l : List Char} (h : behindBlanks (cstr l) = []) : opText l = none := by
  unfold behindBlanks at h
  unfold opText
  rw [h]

theorem opText_of_cons {l s : List Char} {c : Char} (h : behindBlanks (cstr l) = c :: s) :
    opText l =
      if c = '#' ∨ c = '\n' then none else some ((c :: s).takeWhile (· != '\n')) := by
  unfold behindBlanks at h
  unfold opText
  rw [h]
  split
  · rename_i heq; cases heq
  · rename_i heq; exact (if_pos (.inl (List.cons.inj heq).1)).symm
  · rename_i heq; exact (if_pos (.inr (List.cons.inj heq).1)).symm
  · rename_i h1 h2
    rw [if_neg]
    rintro (rfl | rfl)
    · exact h1 _ rfl
    · exact h2 _ rfl

theorem lineText_of_nil {l : List Char} (h : behindBlanks l = []) : lineText l = none := by
  unfold lineText
  rw [h]

theorem lineText_of_cons {l s : List Char} {c : Char} (h : behindBlanks l = c :: s) :
    lineText l = if c = '#' then none else some (c :: s) := by
  unfold lineText
  rw [h]
  split
  · rename_i heq; cases heq
  · rename_i heq; exact (if_pos (List.cons.inj heq).1).symm
  · rename_i h1
    rw [if_neg]
    rintro rfl
    exact h1 _ rfl

theorem opText_nil : opText [] = none := rfl

/-- The newline at the end of a piece makes no difference. -/
theorem opText_newline (l : List Char) (h : '\n' ∉ l) : opText (l ++ ['\n']) = opText l := by
  have hcstr : cstr (l ++ ['\n']) = if cstr l = l then l ++ ['\n'] else cstr l := by
    unfold cstr
    rw [List.takeWhile_append]
    have : (l.takeWhile (· != '\x00')).length = l.length ↔ l.takeWhile (· != '\x00') = l :=
      ⟨(List.takeWhile_prefix _).eq_of_length, congrArg _⟩
    simp only [this]
    rfl
  by_cases hl : cstr l = l
  · rw [if_pos hl] at hcstr
    have happ : behindBlanks (l ++ ['\n']) =
        if (behindBlanks l).isEmpty then ['\n'] else behindBlanks l ++ ['\n'] :=
      List.dropWhile_append
    cases hb : behindBlanks l with
    | nil =>
      rw [hb] at happ
      rw [opText_of_nil (l := l) (by rw [hl, hb]), opText_of_cons (by rw [hcstr, happ]; rfl),
        if_pos (.inr rfl)]
    | cons c s =>
      rw [hb] at happ
      have hsub : ∀ a ∈ c :: s, (a != '\n') = true := by
        intro a ha
        rw [bne_iff_ne]
        rintro rfl
        exact h (mem_of_mem_behindBlanks (hb ▸ ha))
      have hb' : behindBlanks (cstr (l ++ ['\n'])) = c :: (s ++ ['\n']) := by
        rw [hcstr, happ]
        rfl
      rw [opText_of_cons (l := l) (by rw [hl, hb]), opText_of_cons hb', ← List.cons_append,
        List.takeWhile_append_of_pos hsub, List.takeWhile_eq_self_iff.mpr hsub]
      simp
  · rw [if_neg hl] at hcstr
    unfold opText
    rw [hcstr]

/-- Without NUL, the text of a piece that is a line is the text of the line. -/
theorem opText_eq_lineText {l : List Char} (hnl : '\n' ∉ l) (hnul : '\x00' ∉ l) :
    opText l = lineText l := by
  have hcstr : cstr l = l := by
    refine List.takeWhile_eq_self_iff.mpr fun c hc => ?_
    rw [bne_iff_ne]
    rintro rfl
    exact hnul hc
  cases hb : behindBlanks l with
  | nil => rw [opText_of_nil (by rw [hcstr, hb]), lineText_of_nil hb]
  | cons c s =>
    have hsub : ∀ a ∈ c :: s, a ≠ '\n' := by
      rintro a ha rfl
      exact hnl (mem_of_mem_behindBlanks (hb ▸ ha))
    have htake : (c :: s).takeWhile (· != '\n') = c :: s :=
      List.takeWhile_eq_self_iff.mpr fun a ha => bne_iff_ne.mpr (hsub a ha)
    rw [opText_of_cons (by rw [hcstr, hb]), lineText_of_cons hb, htake]
    simp [hsub c List.mem_cons_self]

/-! ## Reading a file -/

/-- **When the loop of `parse_plan` accepts**, and what it stores. -/
theorem parseLines_pieces {lineno : ℕ} {ops : List OpT} {lines : List (List Char)}
    (hops : ops.length ≤ maxOps) :
    ((parseLines lineno ops lines).accepted = true ↔
      (∀ s ∈ lines.filterMap opText, (parseOp s).2 = none) ∧
        ops.length + (lines.filterMap opText).length ≤ maxOps) ∧
    ((parseLines lineno ops lines).accepted = true → (parseLines lineno ops lines).ops =
      ops ++ (lines.filterMap opText).map fun s => (parseOp s).1) := by
  induction lines generalizing lineno ops with
  | nil => simpa [parseLines, Parsed.accepted] using hops
  | cons line lines ih =>
    rw [parseLines, List.filterMap_cons]
    cases hs : opText line with
    | none => exact ih hops
    | some s =>
      dsimp only
      split_ifs with hfull
      · simp [Parsed.accepted]
        omega
      · cases hp : parseOp s with
        | mk op e =>
          cases e with
          | some e => simp [Parsed.accepted, hp]
          | none =>
            have hroom : (ops ++ [op]).length ≤ maxOps := by
              rw [List.length_append, List.length_singleton]
              omega
            obtain ⟨hiff, hstored⟩ := @ih (lineno + 1) (ops ++ [op]) hroom
            refine ⟨hiff.trans ?_, fun h => (hstored h).trans ?_⟩
            · simp [hp]
              omega
            · simp [hp]

theorem filterMap_opText (content : List Char) :
    (fgetsLines (lineSize - 1) content).filterMap opText = (fileLines content).flatMap pieces :=
  fgetsLines_splitOn opText_nil opText_newline _ _

/-- The end of a long line is read on its own. -/
theorem exists_late_piece {l : List Char} (hclean : ∀ c ∈ ['#', '\n', '\x00'], c ∉ l)
    (hlast : ∀ c ∈ l.getLast?, c ≠ ' ' ∧ c ≠ '\t') (hlong : lineSize - 1 < l.length) :
    ∃ s ∈ pieces l, s <:+ l ∧ s.length + (lineSize - 1) ≤ l.length := by
  have hne : l ≠ [] := List.ne_nil_of_length_pos (Nat.zero_lt_of_lt hlong)
  have hsize : ([] : List Char).length < lineSize - 1 := by decide
  obtain ⟨init, s, hpieces, hs0, hsuf, hlen⟩ :=
    fgetsAux_last hsize (l := l) hne (hclean _ (by decide))
  have hsuf : s <:+ l := hsuf
  have hmem : ∀ c ∈ ['#', '\n', '\x00'], c ∉ s := fun c hc hm => hclean c hc (hsuf.subset hm)
  -- the last character is no blank, so something is left behind the blanks
  have hblank : behindBlanks s ≠ [] := by
    intro hnil
    obtain ⟨u, rfl⟩ := hsuf
    obtain ⟨c, hc⟩ := Option.isSome_iff_exists.mp (List.getLast?_isSome.mpr hs0)
    rw [List.getLast?_append_of_ne_nil _ hs0] at hlast
    have := List.dropWhile_eq_nil_iff.mp hnil c (List.mem_of_getLast? hc)
    simp [hlast c hc] at this
  obtain ⟨c, t, ht⟩ := List.exists_cons_of_ne_nil hblank
  have hct : c ∈ s := mem_of_mem_behindBlanks (ht ▸ List.mem_cons_self)
  have hc : c ≠ '#' := fun h => hmem '#' (by decide) (h ▸ hct)
  have htext : opText s = some (c :: t) := by
    rw [opText_eq_lineText (hmem _ (by decide)) (hmem _ (by decide)), lineText_of_cons ht,
      if_neg hc]
  have htail : c :: t <:+ s := ht ▸ List.dropWhile_suffix _
  refine ⟨c :: t, ?_, htail.trans hsuf, ?_⟩
  · refine List.mem_filterMap.mpr ⟨s, ?_, htext⟩
    rw [fgetsLines, hpieces]
    exact List.mem_append_right _ (List.mem_singleton_self s)
  · have := htail.length_le
    have := hlen hlong
    rw [List.nil_append] at this
    omega

/-- **A file is accepted piece by piece.** -/
theorem parsePlan_accepted_iff {content : List Char} :
    (parsePlan content).accepted = true ↔
      (∀ l ∈ fileLines content, ∀ s ∈ pieces l, (parseOp s).2 = none) ∧
        ((fileLines content).flatMap pieces).length ≤ maxOps := by
  rw [parsePlan, (parseLines_pieces (Nat.zero_le _)).1, filterMap_opText, List.length_nil,
    Nat.zero_add]
  simp only [List.mem_flatMap, forall_exists_index, and_imp]
  exact and_congr_left fun _ => ⟨fun h l hl s hs => h s l hl hs, fun h s l hl hs => h l hl s hs⟩

theorem parsePlan_ops {content : List Char} (h : (parsePlan content).accepted = true) :
    (parsePlan content).ops = (fileLines content).flatMap storedOps := by
  unfold parsePlan at h ⊢
  rw [(parseLines_pieces (Nat.zero_le _)).2 h, filterMap_opText, List.nil_append, List.map_flatMap]
  rfl

/-! ## Lines that are read whole -/

theorem newline_not_mem {content l : List Char} (h : l ∈ fileLines content) : '\n' ∉ l :=
  fun hc => (mem_of_mem_splitOn h _ hc).1 rfl

theorem readWhole_iff {l : List Char} (hnl : '\n' ∉ l) : ReadWhole l ↔ l.length ≤ lineSize - 1 :=
  fgetsLines_whole_iff (by decide) hnl

/-- A line that fits is read as one piece, or skipped. -/
theorem pieces_of_le {l : List Char} (hnl : '\n' ∉ l) (hl : l.length ≤ lineSize - 1) :
    pieces l = (opText l).toList := by
  unfold pieces
  by_cases hne : l = []
  · subst hne
    rfl
  · rw [fgetsLines_of_le hne hl hnl, List.filterMap_cons]
    cases opText l <;> rfl

/-- The operations of an accepted file are those of its lines, one to one, and every
    line was read whole. -/
def OneToOne (content : List Char) : Prop :=
  (parsePlan content).ops = ((fileLines content).filterMap lineText).map (fun s => (parseOp s).1) ∧
    (∀ s ∈ (fileLines content).filterMap lineText, (parseOp s).2 = none) ∧
    ∀ l ∈ fileLines content, ReadWhole l

/-- **One operation for each line of a plan.** -/
theorem oneToOne_iff {content : List Char} (hnul : '\x00' ∉ content)
    (hacc : (parsePlan content).accepted = true) :
    OneToOne content ↔ ∀ l ∈ fileLines content, l.length ≤ lineSize - 1 := by
  constructor
  · rintro ⟨-, -, hwhole⟩ l hl
    exact (readWhole_iff (newline_not_mem hl)).mp (hwhole l hl)
  · intro hle
    have hpieces : ∀ l ∈ fileLines content, pieces l = (lineText l).toList := by
      intro l hl
      have hnl := newline_not_mem hl
      rw [pieces_of_le hnl (hle l hl),
        opText_eq_lineText hnl fun h => hnul (mem_of_mem_splitOn hl _ h).2]
    have htexts : (fileLines content).flatMap pieces = (fileLines content).filterMap lineText := by
      rw [List.flatMap_congr hpieces, List.filterMap_eq_flatMap_toList]
    have hparse := (parsePlan_accepted_iff.mp hacc).1
    refine ⟨?_, ?_, fun l hl => (readWhole_iff (newline_not_mem hl)).mpr (hle l hl)⟩
    · rw [parsePlan_ops hacc, ← htexts, List.map_flatMap]
      rfl
    · intro s hs
      rw [← htexts, List.mem_flatMap] at hs
      obtain ⟨l, hl, hs⟩ := hs
      exact hparse l hl s hs

/-- A comment and an operation in a file without a newline at its end. -/
theorem oneToOne_dropLog :
    OneToOne "# stale error log\n free obj=38 type=\"error log\"".toList :=
  (oneToOne_iff (by decide +kernel) (by decide +kernel)).mpr (by decide +kernel)

/-- A comment of 511 bytes with the text of an operation behind them. -/
def longComment : List Char :=
  '#' :: List.replicate 510 '.' ++ "free obj=38 type=\"error log\"".toList

/-- **The end of a comment is executed.** -/
theorem longComment_executed :
    '\x00' ∉ longComment ∧ (parsePlan longComment).accepted = true ∧
      (fileLines longComment).filterMap lineText = [] ∧
      (parsePlan longComment).ops.map (fun op => (op.kind, op.obj)) = [(.free, 38)] ∧
      ¬ OneToOne longComment := by
  have hops : (parsePlan longComment).ops.map (fun op => (op.kind, op.obj)) = [(.free, 38)] := by
    decide +kernel
  have htexts : (fileLines longComment).filterMap lineText = [] := by decide +kernel
  refine ⟨by decide +kernel, by decide +kernel, htexts, hops, fun h => ?_⟩
  rw [h.1, htexts] at hops
  cases hops

end Zhaxx.Surgeon
