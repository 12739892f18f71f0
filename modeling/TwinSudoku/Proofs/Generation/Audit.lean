import TwinSudoku.Generation.Audit
import TwinSudoku.Proofs.Generation.Accounts
import TwinSudoku.Proofs.Generation.Digits

/-!
# What an audit finds

An audit asks of a puzzle and its solution what minimizing promises of them. With right answers it
finds no fault exactly where that holds, so it finds none in a puzzle that was generated.

* `Pair.reducesTo_solution_iff`: what may be left of a solution, in the words of an audit.
* `Generation.allCells_decides`: cells that are tested one after another.
* `Generation.needed_decides`, `Generation.hasOther_decides`: the two questions of an audit.
* `Generation.audit_decides`, `Generation.audit_refuses`: what an audit finds, and what it refuses.
* `Generation.audit_passes_iff`: when it finds no fault.
* `Generation.audit_generated`: puzzles that were generated.
* `Generation.tally_agrees`: the tally of a session in which one puzzle was made.
-/

namespace TwinSudoku

namespace Pair

variable {s : Size} {diagonal : Bool} {solution puzzle : Pair s}

/-- The solution has a digit wherever the puzzle has none. -/
def Fills (solution puzzle : Pair s) : Prop :=
  ∀ c : Cell, c.Inside s → puzzle.digit c = 0 → solution.digit c ≠ 0

/-- The pair differs from the solution somewhere where the puzzle is empty. -/
def Strays (r solution puzzle : Pair s) : Prop :=
  ∃ c : Cell, c.Inside s ∧ puzzle.digit c = 0 ∧ r.digit c ≠ solution.digit c

/-- The digits of the puzzle are those of the solution, and each of them is needed. -/
def Needs (solution puzzle : Pair s) (diagonal : Bool) : Prop :=
  ∀ c : Cell, puzzle.digit c ≠ 0 → puzzle.digit c = solution.digit c ∧
    ∃ r : Pair s, r.Completes diagonal (puzzle.without c) ∧ r.digit c ≠ puzzle.digit c

/-- A puzzle is what may be left of a solution exactly when it needs its digits and none of its
completions strays from the solution. -/
theorem reducesTo_solution_iff (hsol : solution.isSolution diagonal) :
    solution.ReducesTo puzzle s diagonal ↔ solution.Needs puzzle diagonal ∧
      ¬ ∃ r : Pair s, r.Completes diagonal puzzle ∧ r.Strays solution puzzle := by
  constructor
  · intro h
    refine ⟨fun c hc => ⟨h.partOf.digit_eq hc, h.needed c hc⟩, ?_⟩
    rintro ⟨r, hr, c, -, -, hne⟩
    exact hne (by rw [(h.completes_solution hsol).1 hr])
  · rintro ⟨hneeds, hnone⟩
    have hpart : puzzle.PartOf solution := fun c =>
      or_iff_not_imp_right.2 fun hc => (hneeds c hc).1
    refine ⟨hpart, fun r => ?_, fun c hc => (hneeds c hc).2⟩
    rw [completes_iff_eq hsol]
    constructor
    · intro hr
      refine ext_digit fun c hin => ?_
      by_cases hc : puzzle.digit c = 0
      · by_contra hne
        exact hnone ⟨r, hr, c, hin, hc, hne⟩
      · rw [hr.2 c hc, (hneeds c hc).1]
    · rintro rfl
      exact hpart.completes ((completes_iff_eq hsol).2 rfl)

/-! ## The clause of an audit -/

/-- The clause that holds for the pairs that stray from the solution. -/
def difference (solution puzzle : Pair s) : Clause :=
  puzzle.blanks.map fun c => -(s.number c (solution.digit c) : Int)

theorem Fills.mem_digits (h : solution.Fills puzzle) {c : Cell} (hc : c ∈ puzzle.blanks) :
    c.Inside s ∧ solution.digit c ∈ s.digits :=
  have ⟨hin, hzero⟩ := mem_blanks.1 hc
  ⟨hin, digit_mem_digits.2 (h c hin hzero)⟩

theorem Fills.mapM_denied (h : solution.Fills puzzle) :
    puzzle.blanks.mapM (fun c => s.denied c (solution.digit c)) =
      .ok (solution.difference puzzle) := by
  refine mapM_of_ok fun c hc => ?_
  obtain ⟨hin, hd⟩ := h.mem_digits hc
  exact Size.denied_of_inside hin hd

/-- A cell inside has just one reason to have no variable for its digit: it is empty. -/
theorem misfit?_digit_eq_some_iff {p : Pair s} {c : Cell} (hc : c.Inside s) {cause : Misuse} :
    s.misfit? c (p.digit c) = some cause ↔ p.digit c = 0 ∧ cause = .digitOutside 0 s.side := by
  by_cases hzero : p.digit c = 0
  · rw [Size.misfit?, if_pos hc, hzero, if_neg (by simp), Option.some_inj, eq_comm]
    exact (and_iff_right rfl).symm
  · rw [Size.misfit?_eq_none_iff.2 ⟨hc, digit_mem_digits.2 hzero⟩]
    simp [hzero]

/-- A cell that is empty in both is refused. -/
theorem mapM_denied_of_not_fills (h : ¬ solution.Fills puzzle) :
    puzzle.blanks.mapM (fun c => s.denied c (solution.digit c)) =
      .error (.digitOutside 0 s.side) := by
  rw [mapM_of_defects fun c _ => s.denied_eq c (solution.digit c)]
  cases hfirst : puzzle.blanks.findSome? fun c => s.misfit? c (solution.digit c) with
  | none =>
    refine absurd (fun c hin hc => ?_) h
    have hnone := List.findSome?_eq_none_iff.1 hfirst c (mem_blanks.2 ⟨hin, hc⟩)
    exact digit_mem_digits.1 (Size.misfit?_eq_none_iff.1 hnone).2
  | some cause =>
    obtain ⟨c, hc, hcause⟩ := List.exists_of_findSome?_eq_some hfirst
    rw [((misfit?_digit_eq_some_iff (mem_blanks.1 hc).1).1 hcause).2, Option.elim_some]

theorem Fills.zero_not_mem_difference (h : solution.Fills puzzle) :
    0 ∉ solution.difference puzzle := by
  rw [difference, List.mem_map]
  rintro ⟨c, hc, hzero⟩
  have := s.number_pos (c := c) (Size.mem_digits.1 (h.mem_digits hc).2).1
  omega

theorem Fills.holds_difference (h : solution.Fills puzzle) {q : Pair s} {σ : Assignment}
    (hq : q.EncodedBy σ) :
    Clause.Holds σ (solution.difference puzzle) ↔ q.Strays solution puzzle := by
  simp only [Clause.Holds, difference, List.mem_map]
  constructor
  · rintro ⟨_, ⟨c, hc, rfl⟩, hholds⟩
    obtain ⟨hin, hd⟩ := h.mem_digits hc
    exact ⟨c, hin, (mem_blanks.1 hc).2, (holds_denial hq hin hd).1 hholds⟩
  · rintro ⟨c, hin, hzero, hne⟩
    have hc : c ∈ puzzle.blanks := mem_blanks.2 ⟨hin, hzero⟩
    exact ⟨_, ⟨c, hc, rfl⟩, (holds_denial hq hin (h.mem_digits hc).2).2 hne⟩

/-- Together with the clause the rules ask for a completion that strays. -/
theorem Fills.satisfiable_iff (h : solution.Fills puzzle) :
    Satisfiable ((ClauseSet.rules s diagonal).clauses ++ [solution.difference puzzle])
        (puzzle.literals s) ↔
      ∃ r : Pair s, r.Completes diagonal puzzle ∧ r.Strays solution puzzle := by
  have hlast (σ : Assignment) : Satisfies σ [solution.difference puzzle] ↔
      Clause.Holds σ (solution.difference puzzle) := List.forall_mem_singleton
  constructor
  · rintro ⟨σ, hclauses, hmeets⟩
    obtain ⟨hrules, hdifference⟩ := satisfies_append.1 hclauses
    obtain ⟨r, hr, hencoded⟩ := satisfies_rules_iff_exists.1 hrules
    exact ⟨r, ⟨hr, (meets_givens puzzle.fitsIn_self hencoded).1 hmeets⟩,
      (h.holds_difference hencoded).1 ((hlast σ).1 hdifference)⟩
  · rintro ⟨r, ⟨hr, hext⟩, hstrays⟩
    have hencoded := r.encodedBy_assignment
    exact ⟨r.assignment, satisfies_append.2 ⟨satisfies_of_isSolution hr hencoded,
      (hlast _).2 ((h.holds_difference hencoded).2 hstrays)⟩,
      (meets_givens puzzle.fitsIn_self hencoded).2 hext⟩

end Pair

namespace Generation

variable {σ ρ : Type} {o : Oracle σ} {holding : List Clause → σ → Prop} {plan : Plan}
  {g : Generator σ ρ} {solution puzzle : Pair plan.size}

/-! ## The questions -/

/-- Where each test gives an answer, cells that are tested one after another pass if each does. -/
theorem allCells_decides {test : Cell → Step σ ρ Bool} {P : Generator σ ρ → Prop}
    {R : Cell → Prop} {cells : List Cell}
    (htest : ∀ c ∈ cells, ∀ g, P g →
      ∃ passed g', test c g = (.ok passed, g') ∧ P g' ∧ (passed = true ↔ R c)) (hg : P g) :
    ∃ passed g', allCells test cells g = (.ok passed, g') ∧ P g' ∧
      (passed = true ↔ ∀ c ∈ cells, R c) := by
  induction cells generalizing g with
  | nil => exact ⟨true, g, rfl, hg, by simp⟩
  | cons c rest ih =>
    obtain ⟨hfirst, hrest⟩ := List.forall_mem_cons.1 htest
    obtain ⟨passed, g₁, hrun, hg₁, hpassed⟩ := hfirst g hg
    rw [allCells, Run.bind_of_ok hrun, List.forall_mem_cons]
    cases passed with
    | false =>
      exact ⟨false, g₁, rfl, hg₁, ⟨nofun, fun h => absurd (hpassed.2 h.1) Bool.false_ne_true⟩⟩
    | true =>
      obtain ⟨all, g₂, hloop, hg₂, hall⟩ := ih hrest hg₁
      exact ⟨all, g₂, hloop, hg₂, hall.trans (iff_and_self.2 fun _ => hpassed.1 rfl)⟩

/-- Whether the puzzle needs its digits. -/
theorem needed_decides (ho : o.Conforms holding) (hg : Loaded holding plan g)
    (solution puzzle : Pair plan.size) :
    ∃ needed g', allCells (isNeeded o plan solution puzzle) puzzle.filled g = (.ok needed, g') ∧
      Loaded holding plan g' ∧ (needed = true ↔ solution.Needs puzzle plan.diagonal) := by
  have hfilled (c : Cell) : c ∈ puzzle.filled ↔ puzzle.digit c ≠ 0 :=
    Pair.mem_filled.trans (and_iff_right_of_imp Pair.inside_of_digit_ne_zero)
  simp only [Pair.Needs, ← hfilled]
  refine allCells_decides (fun c hc g hg => ?_) hg
  have hdigit := (hfilled c).1 hc
  by_cases hsame : puzzle.digit c = solution.digit c
  · obtain ⟨found, g', hrun, hg', hfound⟩ := hasAlternative_answers ho hg
      (puzzle.fitsIn_self.mono (puzzle.without_partOf c)) (Pair.inside_of_digit_ne_zero hdigit)
      (Pair.digit_mem_digits.2 hdigit)
    refine ⟨found, g', ?_, hg', hfound.trans (and_iff_right hsame).symm⟩
    rw [isNeeded, if_neg (by simp [hsame]), hrun]
  · refine ⟨false, g, ?_, hg, nofun, fun h => absurd h.1 hsame⟩
    rw [isNeeded, if_pos (bne_iff_ne.2 hsame)]
    rfl

theorem extend_of_ok {clauses : List Clause} {st : σ}
    (h : o.load clauses g.session = (.ok (), st)) :
    extend o clauses g = (.ok (), { g with session := st }) := by
  obtain ⟨session, random, tally⟩ := g
  change (((o.load clauses session).1.mapError Failure.oracle,
    ⟨(o.load clauses session).2, random, tally⟩) : Except Failure _ × Generator σ ρ) = _
  rw [h]
  rfl

/-- Whether a completion strays from the solution. -/
theorem hasOther_decides (ho : o.Conforms holding) (hg : Loaded holding plan g)
    (hfills : solution.Fills puzzle) :
    ∃ found g', hasOther o plan solution puzzle g = (.ok found, g') ∧
      (found = true ↔
        ∃ r : Pair plan.size, r.Completes plan.diagonal puzzle ∧ r.Strays solution puzzle) := by
  obtain ⟨st, hload, hst⟩ := ho.load
    (List.forall_mem_singleton.2 hfills.zero_not_mem_difference) hg
  obtain ⟨answer, st', hsolve, -, hanswer⟩ :=
    ho.solve (puzzle.zero_not_mem_literals plan.size) hst
  refine ⟨answer.isSome, { g with session := st' }, ?_,
    hanswer.isSome_iff.trans hfills.satisfiable_iff⟩
  rw [hasOther, Pair.givens_of_fitsIn puzzle.fitsIn_self, Run.bind_of_ok (Run.ofMisuse_ok _ g),
    hfills.mapM_denied, Run.bind_of_ok (Run.ofMisuse_ok _ g), Run.bind_of_ok (extend_of_ok hload),
    Run.bind_of_ok (ask_of_ok hsolve), Run.pure_apply]

theorem hasOther_refuses (hgap : ¬ solution.Fills puzzle) (g : Generator σ ρ) :
    hasOther o plan solution puzzle g =
      (.error (.misuse (.digitOutside 0 plan.size.side)), g) := by
  rw [hasOther, Pair.givens_of_fitsIn puzzle.fitsIn_self, Run.bind_of_ok (Run.ofMisuse_ok _ g),
    Pair.mapM_denied_of_not_fills hgap]
  exact Run.bind_of_error rfl _

/-! ## Audits -/

/-- What an audit finds, where the solution has a digit for each empty cell. -/
theorem audit_decides (ho : o.Conforms holding) (hg : Loaded holding plan g)
    (hfills : solution.Fills puzzle) :
    ∃ found g', audit o plan solution puzzle g = (.ok found, g') ∧
      found.valid = solution.isSolution plan.diagonal ∧
      (found.forced = true ↔
        ¬ ∃ r : Pair plan.size, r.Completes plan.diagonal puzzle ∧ r.Strays solution puzzle) ∧
      (found.needed = true ↔ solution.Needs puzzle plan.diagonal) := by
  obtain ⟨needed, g₁, hneeded, hg₁, hneeds⟩ := needed_decides ho hg solution puzzle
  obtain ⟨found, g₂, hother, hfound⟩ := hasOther_decides ho hg₁ hfills
  refine ⟨⟨solution.isSolution plan.diagonal, !found, needed⟩, g₂, ?_, rfl, ?_, hneeds⟩
  · rw [audit, Run.bind_of_ok hneeded, Run.bind_of_ok hother, Run.pure_apply]
  · rw [← hfound, Bool.not_eq_true', Bool.not_eq_true]

/-- A cell that is empty in both is refused. -/
theorem audit_refuses (ho : o.Conforms holding) (hg : Loaded holding plan g)
    (hgap : ¬ solution.Fills puzzle) :
    ∃ g', audit o plan solution puzzle g =
      (.error (.misuse (.digitOutside 0 plan.size.side)), g') := by
  obtain ⟨needed, g₁, hneeded, -⟩ := needed_decides ho hg solution puzzle
  refine ⟨g₁, ?_⟩
  rw [audit, Run.bind_of_ok hneeded, Run.bind_of_error (hasOther_refuses hgap g₁)]

/-- An audit finds no fault exactly where the solution keeps the rules and the puzzle may be left
of it by minimizing. -/
theorem audit_passes_iff (ho : o.Conforms holding) (hg : Loaded holding plan g) :
    (∃ g', audit o plan solution puzzle g = (.ok ⟨true, true, true⟩, g')) ↔
      solution.isSolution plan.diagonal ∧
        solution.ReducesTo puzzle plan.size plan.diagonal := by
  by_cases hfills : solution.Fills puzzle
  · obtain ⟨⟨valid, forced, needed⟩, g', hrun, hvalid, hforced, hneeded⟩ :=
      audit_decides ho hg hfills
    rw [hrun]
    constructor
    · rintro ⟨_, ⟨⟩⟩
      have hsol : solution.isSolution plan.diagonal = true := hvalid.symm
      exact ⟨hsol, (Pair.reducesTo_solution_iff hsol).2 ⟨hneeded.1 rfl, hforced.1 rfl⟩⟩
    · rintro ⟨hsol, hreduces⟩
      obtain ⟨hneeds, hnone⟩ := (Pair.reducesTo_solution_iff hsol).1 hreduces
      obtain rfl : valid = true := hvalid.trans hsol
      obtain rfl : forced = true := hforced.2 hnone
      obtain rfl : needed = true := hneeded.2 hneeds
      exact ⟨g', rfl⟩
  · obtain ⟨g', hrun⟩ := audit_refuses ho hg hfills
    rw [hrun]
    refine ⟨nofun, fun h => absurd (fun c hin _ => ?_) hfills⟩
    exact Pair.isSolution_complete h.1 hin

/-- An audit finds no fault in a puzzle that was generated, after any calls. The audit may ask
another oracle that answers right. -/
theorem audit_generated {τ : Type} {o' : Oracle τ} {holding' : List Clause → τ → Prop}
    (ho : o.Conforms holding) (ho' : o'.Conforms holding') {st : σ} (hst : holding [] st) {st' : τ}
    (hst' : holding' [] st') (dice : Random.Dice ρ) (plan : Plan) (random : ρ)
    (calls : List Call) :
    ∃ tally st₁ st₂, start o plan st = (.ok tally, st₁) ∧ start o' plan st' = (.ok tally, st₂) ∧
      let g := (respondAll o dice plan calls ⟨st₁, random, tally⟩).2
      ∀ made g', generate o dice plan g = (.ok made, g') → ∀ (random' : ρ) (tally' : Tally),
        ∃ g'', audit o' plan made.solution made.puzzle ⟨st₂, random', tally'⟩ =
          (.ok ⟨true, true, true⟩, g'') := by
  obtain ⟨st₁, hstart, hst₁⟩ := start_loaded ho hst plan
  obtain ⟨st₂, hstart', hst₂⟩ := start_loaded ho' hst' plan
  refine ⟨_, st₁, st₂, hstart, hstart', ?_⟩
  intro g made g' hrun random' tally'
  have hg : Loaded holding plan g := respondAll_keeps ho dice calls hst₁
  have hg₂ : Loaded holding' plan ⟨st₂, random', tally'⟩ := hst₂
  obtain ⟨hsol, hreduces, -⟩ := made_of_generate ho hg hrun
  exact (audit_passes_iff ho' hg₂).2 ⟨hsol, hreduces⟩

/-- The tally of a session in which one puzzle was made agrees with the puzzle, whatever the oracle
has answered. -/
theorem tally_agrees (o : Oracle σ) {st : σ} (dice : Random.Dice ρ) {plan : Plan} {random : ρ}
    {tally : Tally} {r : Recorded σ} (hstart : start o.recorded plan ⟨st, #[]⟩ = (.ok tally, r))
    {made : Generated plan.size} {g : Generator (Recorded σ) ρ}
    (hrun : generate o.recorded dice plan ⟨r, random, tally⟩ = (.ok made, g)) :
    made.tally.visited = made.solution.filledCount ∧ made.tally.queriesAgree = true ∧
      made.tally.givensAgree made.puzzle.filledCount = true := by
  obtain ⟨htally, -⟩ := start_opened hstart
  have hidle (_ : plan.attempts = 0) : tally.attempts = 0 := by rw [htally]
  obtain ⟨hlast, hasked, hvisited, hkept, hgivens⟩ := tally_of_generate o dice hidle hrun
  simp only [hlast, htally] at hasked hvisited hkept hgivens
  simp only [Tally.visited, Tally.queriesAgree, Tally.givensAgree, Bool.and_eq_true, beq_iff_eq]
  omega

end Generation

end TwinSudoku
