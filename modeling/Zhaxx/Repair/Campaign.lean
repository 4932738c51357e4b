import Zhaxx.Repair.Loop
import Zhaxx.Repair.Written
import Zhaxx.Surgeon.Guards
import Zhaxx.Surgeon.Sessions

/-!
# Repairs of a pool

A repair of a pool alternates the two programs: the scanner plans for what it observes,
the surgeon is run on the pool with that plan, in whichever mode and with whichever
outcome, and so on. `Campaign` is such a history; beside the pool it carries the
observation, to which a completed run does `afterPlan`.

Results:
* `campaign_ends`: the pool always holds what the observation says, child counts included,
  and no more runs complete than there are items.
* `campaign_checks`: the next plan passes every check on the pool as it is then.
-/

namespace Zhaxx.Repair

open Scan Surgeon CText

/-! ## The observation follows the store -/

/-- The store holds what the observation says: the objects, the child counts, and every
    entry that is not the line of a child count. -/
structure Tracks (s : Store String) (m : Mos) : Prop where
  type : ∀ x, s.type x = (observed m).type x
  entry : ∀ Z k, Uncounted m Z k → s.entry Z (utf8 k) = (observed m).entry Z (utf8 k)
  numChildren : ∀ x, s.numChildren x = (m.get x).numChildren

theorem tracks_observed (m : Mos) : Tracks (observed m) m :=
  ⟨fun _ => rfl, fun _ _ _ => rfl, fun _ => rfl⟩

theorem Tracks.holds {s : Store String} {m : Mos} (h : Tracks s m) : Holds s m :=
  ⟨h.type, fun Z k hk => h.entry Z k fun hk' => absurd hk' hk⟩

/-- The operation does to the line of a child count only what a child count is for. -/
def CountSafe (m : Mos) : Op → Prop
  | .zapSet _ k _ _ => k ≠ "num_children"
  | .zapZero _ k _ => k ≠ "num_children"
  | .zapRemove Z k _ => Uncounted m Z k
  | .bonusSet S _ _ => (m.get S).exists_ = true → (m.get S).numChildren ≠ none
  | .free _ _ => True

section

variable {m : Mos} {n : ℕ} {op : Op}

theorem numChildren_of_line {d : ObjDump} {l : Line} (h : d.line "num_children" = l) :
    d.numChildren = match l.field with
      | some (.int v) => some v
      | _ => none := by
  subst h
  rfl

/-- What an operation does to the child count of an object that stays. -/
theorem numChildren_applyOp (hs : CountSafe m op) (hex : ((m.applyOp op).get n).exists_ = true) :
    ((m.applyOp op).get n).numChildren =
      ((op.toOpT.countWrite n).map some).getD (m.get n).numChildren := by
  have hline := line_applyOp (k := "num_children") hex
  have hsame : op.cellWrite n "num_children" = none → op.toOpT.countWrite n = none →
      ((m.applyOp op).get n).numChildren =
        ((op.toOpT.countWrite n).map some).getD (m.get n).numChildren := by
    intro hcell hcount
    rw [hcell, Option.getD_none] at hline
    rw [hcount, Option.map_none, Option.getD_none, numChildren_congr hline]
  cases op with
  | zapSet obj key e v =>
    refine hsame ?_ (if_neg fun h => by cases h.1)
    exact if_neg fun h => hs h.2.symm
  | zapZero obj key c =>
    refine hsame ?_ (if_neg fun h => by cases h.1)
    exact if_neg fun h => hs h.2.symm
  | zapRemove Z key v =>
    have hcount : (Op.zapRemove Z key v).toOpT.countWrite n = none := if_neg fun h => by cases h.1
    by_cases hc : n = Z ∧ "num_children" = key
    · obtain ⟨rfl, rfl⟩ := hc
      have hblank : ((m.applyOp (.zapRemove n "num_children" v)).get n).line "num_children" =
          .blank := by
        rw [hline, cellWrite_iff.mpr (.inr (.inr (.inl ⟨v, rfl, rfl⟩))), Option.getD_some]
      rw [hcount, numChildren_of_line hblank, Option.map_none, Option.getD_none, hs rfl]
      rfl
    · exact hsame (if_neg hc) hcount
  | bonusSet S e v =>
    by_cases hn : n = S
    · subst hn
      have hnum : ((m.applyOp (.bonusSet n e v)).get n).line "num_children" =
          .number (toU64 v) := by
        rw [hline, cellWrite_iff.mpr (.inr (.inr (.inr ⟨e, v, rfl, rfl, rfl⟩))), Option.getD_some]
      have hcount : (Op.bonusSet n e v).toOpT.countWrite n = some (toU64 v) := if_pos ⟨rfl, rfl⟩
      rw [hcount, numChildren_of_line hnum]
      rfl
    · refine hsame (if_neg fun h => hn h.1) (if_neg fun h => hn h.2.symm)
  | free obj t => exact hsame rfl (if_neg fun h => by cases h.1)

/-- No operation gives a child count to an object without one, or takes it from one that stays. -/
theorem numChildren_applyOp_eq_none (hs : CountSafe m op)
    (hex : ((m.applyOp op).get n).exists_ = true) :
    ((m.applyOp op).get n).numChildren = none ↔ (m.get n).numChildren = none := by
  rw [numChildren_applyOp hs hex]
  cases hw : op.toOpT.countWrite n with
  | none => rfl
  | some v =>
    refine iff_of_false (Option.some_ne_none _) ?_
    cases op with
    | bonusSet S e w =>
      have hS : S = n := by
        by_contra hne
        rw [OpT.countWrite, if_neg fun h => hne h.2] at hw
        cases hw
      subst hS
      exact hs (exists_of_applyOp hex).1
    | _ =>
      rw [OpT.countWrite, if_neg fun h => by cases h.1] at hw
      cases hw

theorem CountSafe.applyOp {op' : Op} (hs : CountSafe m op) (h : CountSafe m op') :
    CountSafe (m.applyOp op) op' := by
  cases op' with
  | zapSet => exact h
  | zapZero => exact h
  | zapRemove Z k v =>
    intro hk
    by_cases hex : ((m.applyOp op).get Z).exists_ = true
    · exact (numChildren_applyOp_eq_none hs hex).mpr (h hk)
    · have hgone : (m.applyOp op).get Z = .missing :=
        ObjDump.eq_missing_iff.mpr (by simpa using hex)
      rw [hgone]
      rfl
  | bonusSet S e v =>
    intro hex hnone
    exact h (exists_of_applyOp hex).1 ((numChildren_applyOp_eq_none hs hex).mp hnone)
  | free => exact trivial

/-- Under the key of a child count that is none, only a removal writes. -/
theorem entryWrite_uncounted (hs : CountSafe m op) (hex : (m.get n).exists_ = true)
    (hu : (m.get n).numChildren = none) : op.toOpT.entryWrite n (utf8 "num_children") =
      (op.cellWrite n "num_children").map lineWords := by
  by_cases hop : ∃ v, op = .zapRemove n "num_children" v
  · obtain ⟨v, rfl⟩ := hop
    rw [entryWrite_iff.mpr (.inr (.inr ⟨v, rfl, rfl⟩)),
      cellWrite_iff.mpr (.inr (.inr (.inl ⟨v, rfl, rfl⟩)))]
    rfl
  · have hentry : op.toOpT.entryWrite n (utf8 "num_children") = none := by
      rw [Option.eq_none_iff_forall_ne_some]
      intro w hw
      rcases entryWrite_iff.mp hw with ⟨e, v, rfl, -⟩ | ⟨c, rfl, -⟩ | ⟨v, rfl, -⟩
      · exact hs rfl
      · exact hs rfl
      · exact hop ⟨v, rfl⟩
    have hcell : op.cellWrite n "num_children" = none := by
      rw [Option.eq_none_iff_forall_ne_some]
      intro l hl
      rcases cellWrite_iff.mp hl with ⟨e, v, rfl, -⟩ | ⟨c, rfl, -⟩ | ⟨v, rfl, -⟩ | ⟨e, v, rfl, -⟩
      · exact hs rfl
      · exact hs rfl
      · exact hop ⟨v, rfl⟩
      · exact hs hex hu
    rw [hentry, hcell]
    rfl

theorem Tracks.apply {s : Store String} (h : Tracks s m) (hs : CountSafe m op) :
    Tracks (s.apply op.toOpT) (m.applyOp op) := by
  have htype := (h.holds.apply op).type
  have hgone : ∀ {x}, ¬ ((m.applyOp op).get x).exists_ = true →
      (m.applyOp op).get x = .missing ∧ (s.apply op.toOpT).type x = none := fun hex =>
    ⟨ObjDump.eq_missing_iff.mpr (by simpa using hex), (htype _).trans (if_neg hex)⟩
  refine ⟨htype, fun Z k hu => ?_, fun x => ?_⟩
  · by_cases hk : k = "num_children"
    swap
    · exact (h.holds.apply op).entry Z k hk
    subst hk
    by_cases hex : ((m.applyOp op).get Z).exists_ = true
    · have hnone := (numChildren_applyOp_eq_none hs hex).mp (hu rfl)
      have hne : (s.apply op.toOpT).type Z ≠ none := by
        rw [htype, observed]
        simp only [hex, if_true]
        exact Option.some_ne_none _
      rw [Store.entry_apply_eq hne, entry_observed, line_applyOp hex,
        entryWrite_uncounted hs (exists_of_applyOp hex).1 hnone, h.entry Z _ fun _ => hnone,
        entry_observed]
      cases op.cellWrite Z "num_children" <;> rfl
    · obtain ⟨hm, ht⟩ := hgone hex
      rw [(Store.unallocated _ Z ht).1, entry_observed, hm]
      rfl
  · by_cases hex : ((m.applyOp op).get x).exists_ = true
    · rw [numChildren_applyOp hs hex, ← h.numChildren]
      have hkept : ¬ op.toOpT.Frees x := fun hf => by
        obtain ⟨t, rfl⟩ := frees_iff.mp hf
        exact (exists_of_applyOp hex).2 t rfl
      by_cases hn : (s.apply op.toOpT).numChildren x = none
      · have hnone : s.numChildren x = none := by
          by_contra hne
          exact Store.numChildren_apply_ne_none_iff.mpr ⟨hne, hkept⟩ hn
        have hm : (m.get x).numChildren = none := (h.numChildren x).symm.trans hnone
        have hafter := (numChildren_applyOp_eq_none hs hex).mpr hm
        rw [numChildren_applyOp hs hex, hm] at hafter
        rw [hn, hnone, hafter]
      · exact Store.numChildren_apply_eq hn
    · obtain ⟨hm, ht⟩ := hgone hex
      rw [(Store.unallocated _ x ht).2, hm]
      rfl

theorem Tracks.foldl {l : List Op} {s : Store String} (h : Tracks s m)
    (hs : ∀ op ∈ l, CountSafe m op) :
    Tracks ((l.map Op.toOpT).foldl Store.apply s) (l.foldl Mos.applyOp m) := by
  induction l generalizing s m with
  | nil => exact h
  | cons op l ih =>
    rw [List.forall_mem_cons] at hs
    exact ih (h.apply hs.1) fun op' hop' => hs.1.applyOp (hs.2 op' hop')

theorem countSafe_of_mem_ops (h : CountsApart m) (hop : op ∈ ops m) : CountSafe m op := by
  cases op with
  | zapSet obj key e v =>
    obtain ⟨-, -, he, -⟩ := zapSet_mem_ops.mp hop
    exact fun hk => absurd (hk ▸ he.2.1) (by decide)
  | zapZero obj key c =>
    obtain ⟨-, rfl, -, -⟩ := zapZero_mem_ops.mp hop
    exact (by decide : "scan" ≠ "num_children")
  | zapRemove Z k v =>
    obtain ⟨D, f, hf, hZ⟩ := ref_of_due (zapRemove_mem_ops.mp hop)
    exact fun _ => h D f hf Z hZ
  | bonusSet S e v =>
    intro _
    rw [bonusSet_numChildren hop]
    exact Option.some_ne_none e
  | free => exact trivial

/-- **The store and the observation after a plan.** -/
theorem Tracks.afterPlan {s : Store String} (h : Tracks s m) (hc : CountsApart m) :
    Tracks ((orders m).foldl Store.apply s) (afterPlan m) :=
  h.foldl fun _ hop => countSafe_of_mem_ops hc hop

end

/-! ## Histories -/

section

variable {M : Type*} {L : Libzpool M String} {view : M → Store String}

/-- A history of repair attempts. Each run of the surgeon finds the pool as the one before
    left it and has the plan for the current observation, or nothing to commit; the list
    says which runs completed. -/
inductive Campaign (L : Libzpool M String) (view : M → Store String) :
    M → Mos → List Bool → M → Mos → Prop
  | start (mos : M) (m : Mos) : Campaign L view mos m [] mos m
  | run {mos mos' : M} {m m' : Mos} {l : List Bool} {env : Env M} :
      env.Quiet view → env.ordered = orders m ∨ env.ordered = [] →
      Campaign L view (L.main (env.on mos)).committed
        (if (L.main (env.on mos)).completed then afterPlan m else m) l mos' m' →
      Campaign L view mos m ((L.main (env.on mos)).completed :: l) mos' m'

variable {mos mos' : M} {m m' : Mos} {l : List Bool}

/-- The observation tracks the pool. -/
theorem Campaign.tracks (hL : Lawful L view) (hC : Campaign L view mos m l mos' m')
    (h : Tracks (view mos) m) (hc : CountsApart m) :
    m' = afterRepairs m l ∧ CountsApart m' ∧ Tracks (view mos') m' := by
  induction hC with
  | start mos m => exact ⟨rfl, hc, h⟩
  | @run mos mos' m m' l env hq hplan hrest ih =>
    have hstep := hL.main_step hq mos
    cases hdone : (L.main (env.on mos)).completed with
    | false =>
      rw [hdone, if_neg Bool.false_ne_true] at hstep
      rw [hdone] at ih
      exact ih (hstep ▸ h) hc
    | true =>
      rw [hdone, if_pos rfl] at hstep
      rw [hdone] at ih
      obtain ⟨hne, -, hview⟩ := hstep
      rw [hplan.resolve_right hne] at hview
      exact ih (hview ▸ h.afterPlan hc) hc.afterPlan

/-- A run completes only with a plan that has operations. -/
theorem Campaign.count_le (hL : Lawful L view) (hC : Campaign L view mos m l mos' m')
    (hc : CountsApart m) : l.count true ≤ (items m).card := by
  induction hC with
  | start mos m => exact Nat.zero_le _
  | @run mos mos' m m' l env hq hplan hrest ih =>
    have hstep := hL.main_step hq mos
    cases hdone : (L.main (env.on mos)).completed with
    | false =>
      rw [hdone] at ih
      rw [List.count_cons_of_ne Bool.false_ne_true]
      exact ih hc
    | true =>
      rw [hdone, if_pos rfl] at hstep
      rw [hdone] at ih
      have horders := hplan.resolve_right hstep.1
      have hne : plan m ≠ [] := fun hnil => hstep.1 (by rw [horders, orders, ops, hnil]; rfl)
      rw [List.count_cons_self]
      exact (ih hc.afterPlan).trans_lt (usesUp_afterPlan.card_lt hc hne)

/-- The scan entry has no more words than a `zap_zero` reads, or there is none. -/
def ScanFits (m : Mos) : Prop :=
  ∀ ws, entryWords (m.get mosDirObj) (utf8 "scan") = some ws → ws.length ≤ scanWords

theorem scanFits_afterPlan (h : ScanFits m) : ScanFits (afterPlan m) := by
  intro ws hws
  have hex : ((afterPlan m).get mosDirObj).exists_ = true := by
    by_contra hne
    have hgone : (afterPlan m).get mosDirObj = .missing :=
      ObjDump.eq_missing_iff.mpr (by simpa using hne)
    rw [hgone] at hws
    cases hws
  have hline : lineWords (((afterPlan m).get mosDirObj).line "scan") = some ws :=
    (entryWords_utf8 _ _).symm.trans hws
  rcases line_cases hex "scan" with ⟨-, hsame⟩ | ⟨op, hop, hw⟩
  · rw [hsame] at hline
    exact h ws ((entryWords_utf8 _ _).trans hline)
  · rcases cellWrite_iff.mp hw with
      ⟨e, v, rfl, hl⟩ | ⟨c, rfl, hl⟩ | ⟨v, rfl, hl⟩ | ⟨e, v, rfl, hk, -⟩
    · rw [hl] at hline
      cases hline
      exact Nat.le_add_left 1 _
    · obtain ⟨-, -, rfl, -⟩ := zapZero_mem_ops.mp hop
      rw [hl] at hline
      cases hline
      exact (List.length_replicate).le
    · rw [hl] at hline
      cases hline
    · exact absurd hk (by decide)

/-- A plan for an observation that tracks the store meets every guard there. -/
theorem guarded_of_tracks {s : Store String} (h : Tracks s m) (hc : CountsApart m)
    (hscan : ScanFits m) (hname : ∀ t, L.otName t = some (utf8 t)) {op : Op} (hop : op ∈ ops m) :
    Guarded L s op.toOpT := by
  have hsafe := countSafe_of_mem_ops hc hop
  cases op with
  | zapSet obj key e v =>
    obtain ⟨rfl, -, he, -⟩ := zapSet_mem_ops.mp hop
    refine ⟨e, ?_, fun _ => rfl⟩
    exact (h.entry _ _ fun hk => absurd hk hsafe).trans (entryWords_of_entry he.entry)
  | zapZero obj key c =>
    obtain ⟨rfl, rfl, rfl, -⟩ := zapZero_mem_ops.mp hop
    have hent := h.entry mosDirObj "scan" fun hk => absurd hk hsafe
    cases hws : entryWords (m.get mosDirObj) (utf8 "scan") with
    | none => exact .inl (hent.trans hws)
    | some ws => exact .inr ⟨ws, hent.trans hws, hscan ws hws⟩
  | zapRemove Z key v =>
    refine .inr ⟨v, ?_, fun _ => rfl⟩
    exact (h.entry Z key hsafe).trans (entryWords_of_entry (planned_entry hop))
  | bonusSet S nc v => exact (h.numChildren S).trans (bonusSet_numChildren hop)
  | free x t =>
    obtain ⟨hex, ht⟩ := free_observed hop
    refine .inr ⟨t, ?_, ?_⟩
    · rw [show s.type (Op.free x t).toOpT.obj = (observed m).type x from h.type x, observed]
      simp only [hex, if_true, ObjDump.typeStr, ht, Option.getD_some]
    · rw [Libzpool.typeNameMatches, hname]
      exact beq_self_eq_true ((utf8 t).map CText.toLower)

end

/-- A confirmed commit of the plan file that the scanner writes for `queuedErrlog`. -/
def queuedRun : Env (Store String) :=
  { session ["--commit", "--plan", "repair.plan", "tank"] "" with
    readFile := fun _ => some (planText queuedErrlog) }

/-- The first repair of that pool. -/
theorem campaign_queuedErrlog :
    Campaign (storeLib String fun t => some (utf8 t)) id (observed queuedErrlog) queuedErrlog [true]
      ((storeLib String fun t => some (utf8 t)).main
        (queuedRun.on (observed queuedErrlog))).committed
      (afterPlan queuedErrlog) := by
  have hordered : queuedRun.ordered = orders queuedErrlog := by decide +kernel
  have hdone : ((storeLib String fun t => some (utf8 t)).main
      (queuedRun.on (observed queuedErrlog))).completed = true := by decide +kernel
  have hrun : Campaign (storeLib String fun t => some (utf8 t)) id (observed queuedErrlog)
      queuedErrlog _ _ _ := .run (fun _ => rfl) (.inl hordered) (.start _ _)
  rw [hdone] at hrun
  exact hrun

end Zhaxx.Repair
