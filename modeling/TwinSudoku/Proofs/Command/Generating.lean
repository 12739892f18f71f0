import TwinSudoku.Proofs.Command.Steps
import TwinSudoku.Proofs.Generation.Minimizing
import TwinSudoku.Proofs.Generation.Seeding

/-!
# Commands that generate

* `Command.Leaves`: files with a solution and with a puzzle made from it.
* `Command.leaves_of_makeFiles`, `Command.leaves_of_runGenerate`: a command that generates and
  succeeds leaves such files. A report written later does not touch them
  (`Command.writeReport_keeps_leaves`).
* `Command.runGenerate_succeeds`: a command that generates succeeds when its first placements have
  a solution and the files can be written.
-/

namespace TwinSudoku.Command

variable {σ ω ρ κ : Type} {w : World (StateM ω)} {named : String → κ} {o : Oracle σ}
  {source : Random.Source ρ} {holding : List Clause → σ → Prop} {session session' : σ}
  {st st' : ω}

/-! ## What a success leaves -/

/-- The files hold a solution and a puzzle made from it. -/
structure Leaves (w : World (StateM ω)) (plan : Plan) (solutionPath puzzlePath : String)
    (solution puzzle : Pair plan.size) (st : ω) : Prop where
  isSolution : solution.isSolution plan.diagonal
  reduces : solution.ReducesTo puzzle plan.size plan.diagonal
  solution_reads : w.files.Reads solutionPath solution.toCsv.toUTF8 st
  puzzle_reads : w.files.Reads puzzlePath puzzle.toCsv.toUTF8 st

theorem continueWith_of_eq {α : Type} {step : Generation.Step σ ρ α} {random : ρ}
    {tally : Tally} {result : Except Failure α} {g : Generator σ ρ} (st : ω)
    (h : step ⟨session, random, tally⟩ = (result, g)) :
    (continueWith step random tally : Work σ (StateM ω) _) session st =
      ((.ok (result, g.random, g.tally), g.session), st) := by
  change ((Except.ok ((step ⟨session, random, tally⟩).1,
    (step ⟨session, random, tally⟩).2.random, (step ⟨session, random, tally⟩).2.tally),
      (step ⟨session, random, tally⟩).2.session), st) = _
  rw [h]

/-- Making the files, once the rules are loaded. -/
theorem leaves_of_makeFiles (hw : w.Faithful named) (ho : o.Conforms holding) {plan : Plan}
    (hsession : holding (ClauseSet.rules plan.size plan.diagonal).clauses session)
    {solutionPath puzzlePath : String} (hne : named solutionPath ≠ named puzzlePath)
    {seed : UInt64} {tally tally' : Tally} {puzzle : Pair plan.size}
    (h : makeFiles w o source plan seed tally solutionPath puzzlePath session st =
      ((.ok (puzzle, tally'), session'), st')) :
    ∃ solution, Leaves w plan solutionPath puzzlePath solution puzzle st' := by
  unfold makeFiles at h
  -- the search for a solution has ended with one
  obtain ⟨⟨result, random, tally₁⟩, session₁, st₁, hsolution, h₁⟩ := ok_of_bind h
  obtain ⟨found, g₁, hfound, hg₁, hgives⟩ := Generation.solutionWithin_gives source.dice ho
    (g := ⟨session, source.ofSeed seed, tally⟩) hsession plan.attempts
  change Generation.solution o source.dice plan _ = _ at hfound
  rw [continueWith_of_eq st hfound] at hsolution
  cases hsolution
  obtain ⟨solution, session₂, st₂, hexpect, h₂⟩ := ok_of_bind h₁
  obtain ⟨rfl, rfl, rfl⟩ := ok_of_expect hexpect
  obtain ⟨q, hq, hsol⟩ := hgives.resolve_right nofun
  cases hq
  obtain ⟨_, session₃, st₃, hwrite, h₃⟩ := ok_of_bind h₂
  obtain ⟨rfl, -, hread⟩ := ok_of_writePair hw hwrite
  -- minimizing it cannot fail
  obtain ⟨⟨result, random, tally₂⟩, session₄, st₄, hminimize, h₄⟩ := ok_of_bind h₃
  obtain ⟨q, g₂, hrun, hreduces⟩ := Generation.minimize_reduces_of_loaded ho source.dice
    hg₁ solution.fitsIn_self
  rw [continueWith_of_eq _ hrun] at hminimize
  cases hminimize
  obtain ⟨puzzle', session₅, st₅, hexpect', h₅⟩ := ok_of_bind h₄
  obtain ⟨hq, rfl, rfl⟩ := ok_of_expect hexpect'
  cases hq
  obtain ⟨_, session₆, st₆, hwrite', h₆⟩ := ok_of_bind h₅
  obtain ⟨-, hsave, hread'⟩ := ok_of_writePair hw hwrite'
  cases h₆
  refine ⟨solution, hsol, hreduces, ?_, hread'⟩
  rw [hsave]
  exact hw.files.save_keeps hne _ _ _ hread

theorem ok_of_chooseSeed {given : Option UInt64} {seed : UInt64}
    (h : chooseSeed w given session st = ((.ok seed, session'), st')) : session' = session := by
  unfold chooseSeed at h
  obtain ⟨text, session₁, st₁, htext, h₁⟩ := ok_of_bind h
  rw [outside_apply] at htext
  cases htext
  cases hgiven : given.or (seedOf? (w.seedText st).1) with
  | none =>
    rw [hgiven] at h₁
    cases h₁
    rfl
  | some seed =>
    rw [hgiven] at h₁
    cases h₁
    rfl

/-- A report leaves the other files alone. -/
theorem writeReport_keeps_leaves (hw : w.Faithful named) {plan : Plan}
    {solutionPath puzzlePath path : String}
    (hne : named solutionPath ≠ named path ∧ named puzzlePath ≠ named path)
    (solution puzzle : Pair plan.size) (report : Report) :
    Keeps (Leaves w plan solutionPath puzzlePath solution puzzle)
      (writeReport w path report : Work σ (StateM ω) Unit) := by
  intro session st h
  refine ⟨h.isSolution, h.reduces, ?_, ?_⟩
  · exact writeReport_keeps hw hne.1 report _ session st h.solution_reads
  · exact writeReport_keeps hw hne.2 report _ session st h.puzzle_reads

/-- A command that generates and succeeds leaves a solution and a puzzle made from it. -/
theorem leaves_of_runGenerate (hw : w.Faithful named) (ho : o.Conforms holding)
    (hsession : holding [] session) {preferences : Preferences} {options : GenerateOptions}
    (hne : named (options.solutionFile preferences) ≠ named (options.puzzleFile preferences))
    (hreport : ∀ path, options.reportFile? preferences = some path →
      named (options.solutionFile preferences) ≠ named path ∧
        named (options.puzzleFile preferences) ≠ named path)
    (h : runGenerate w o source preferences options session st = ((.ok (), session'), st')) :
    ∃ plan solution puzzle, options.plan preferences = .ok plan ∧
      Leaves w plan (options.solutionFile preferences) (options.puzzleFile preferences)
        solution puzzle st' := by
  unfold runGenerate at h
  obtain ⟨plan, session₁, st₁, hexpect, h₁⟩ := ok_of_bind h
  obtain ⟨hplan, rfl, rfl⟩ := ok_of_expect hexpect
  obtain ⟨seed, session₂, st₂, hseed, h₂⟩ := ok_of_bind h₁
  obtain rfl := ok_of_chooseSeed hseed
  obtain ⟨started, session₃, st₃, hstarted, h₃⟩ := ok_of_bind h₂
  obtain ⟨loaded, hstart, hloaded⟩ := Generation.start_loaded ho hsession plan
  rw [consult_run_of_eq _ hstart] at hstarted
  cases hstarted
  obtain ⟨tally, session₄, st₄, htally, h₄⟩ := ok_of_bind h₃
  obtain ⟨-, rfl, rfl⟩ := ok_of_expect htally
  obtain ⟨stamp, session₅, st₅, hstamp, h₅⟩ := ok_of_bind h₄
  rw [outside_apply] at hstamp
  cases hstamp
  obtain ⟨⟨puzzle, tally'⟩, session₆, st₆, hfiles, h₆⟩ := ok_of_bind h₅
  obtain ⟨solution, hmade⟩ :=
    leaves_of_makeFiles hw ho hloaded hne (ok_of_releasing hfiles)
  refine ⟨plan, solution, puzzle, hplan, ?_⟩
  obtain ⟨elapsed, session₇, st₇, helapsed, h₇⟩ := ok_of_bind h₆
  rw [outside_apply] at helapsed
  cases helapsed
  -- looking at the clock leaves the files alone, and so does the release
  have hleaves : Leaves w plan (options.solutionFile preferences) (options.puzzleFile preferences)
      solution puzzle (w.elapsed st₆).2 :=
    ⟨hmade.isSolution, hmade.reduces, hw.elapsed _ _ st₆ hmade.solution_reads,
      hw.elapsed _ _ st₆ hmade.puzzle_reads⟩
  obtain ⟨_, session₈, st₈, hrelease, h₈⟩ := ok_of_bind h₇
  rw [consult_apply] at hrelease
  cases hrelease
  cases hpath : options.reportFile? preferences with
  | none =>
    rw [hpath] at h₈
    cases h₈
    exact hleaves
  | some path =>
    rw [hpath] at h₈
    dsimp only at h₈
    have hkeeps := writeReport_keeps_leaves hw (hreport path hpath) solution puzzle
      (.ofTally plan seed { tally' with givens := puzzle.filledCount } (w.stamp st₄).1.id
        (w.elapsed st₆).1 (w.stamp st₄).1.time) (o.release session₆).2 _ hleaves
    rw [h₈] at hkeeps
    exact hkeeps

/-! ## When there is a success -/

variable {P : ω → Prop}

theorem makeFiles_succeeds (ho : o.Conforms holding) {plan : Plan}
    (hsession : holding (ClauseSet.rules plan.size plan.diagonal).clauses session)
    (hattempts : 0 < plan.attempts) {seed : UInt64}
    (hdrawn : ∃ q : Pair plan.size, q.isSolution plan.diagonal ∧
      q.Holds (Generation.drawnNext source.dice plan (source.ofSeed seed)))
    {solutionPath puzzlePath : String} (hsave : ∀ path ∈ [solutionPath, puzzlePath], ∀ text st,
      P st → (w.files.save path text st).1 = .ok () ∧ P (w.files.save path text st).2)
    (hst : P st) (tally : Tally) :
    ∃ made session' st', makeFiles w o source plan seed tally solutionPath puzzlePath session st =
      ((.ok made, session'), st') ∧ P st' := by
  obtain ⟨solution, g₁, hsolution, hg₁⟩ := Generation.solution_of_drawnNext source.dice ho
    (g := ⟨session, source.ofSeed seed, tally⟩) hsession hattempts hdrawn
  obtain ⟨puzzle, g₂, hminimize, -⟩ := Generation.minimize_reduces_of_loaded ho
    source.dice hg₁ solution.fitsIn_self
  obtain ⟨hfirst, hst₁⟩ := hsave solutionPath (by simp) solution.toCsv st hst
  obtain ⟨hsecond, hst₂⟩ := hsave puzzlePath (by simp) puzzle.toCsv _ hst₁
  refine ⟨(puzzle, g₂.tally), g₂.session, _, ?_, hst₂⟩
  unfold makeFiles
  rw [bind_of_ok (continueWith_of_eq st hsolution)]
  dsimp only
  rw [bind_of_ok (expect_ok _ solution _ st), bind_of_ok (writePair_of_ok g₁.session hfirst),
    bind_of_ok (continueWith_of_eq _ hminimize)]
  dsimp only
  rw [bind_of_ok (expect_ok _ puzzle _ _), bind_of_ok (writePair_of_ok g₂.session hsecond)]
  rfl

/-- Generating succeeds when some solution has the placements drawn first and the files can be
written. The property `P` of the world says that they can. -/
theorem runGenerate_succeeds (ho : o.Conforms holding) (hsession : holding [] session)
    {preferences : Preferences} {options : GenerateOptions} {plan : Plan} {seed : UInt64}
    (hplan : options.plan preferences = .ok plan) (hattempts : 0 < plan.attempts)
    (hseed : options.seed = some seed)
    (hdrawn : ∃ q : Pair plan.size, q.isSolution plan.diagonal ∧
      q.Holds (Generation.drawnNext source.dice plan (source.ofSeed seed)))
    (hreport : options.reportFile? preferences = none) (henv : Action.Keeps P w.seedText)
    (hstamp : Action.Keeps P w.stamp) (helapsed : Action.Keeps P w.elapsed)
    (hsave : ∀ path ∈ [options.solutionFile preferences, options.puzzleFile preferences],
      ∀ text st, P st → (w.files.save path text st).1 = .ok () ∧ P (w.files.save path text st).2)
    (hst : P st) :
    ∃ session' st',
      runGenerate w o source preferences options session st = ((.ok (), session'), st') ∧
        P st' := by
  obtain ⟨loaded, hstart, hloaded⟩ := Generation.start_loaded ho hsession plan
  have hchoose : chooseSeed w options.seed session st =
      ((.ok seed, session), (w.seedText st).2) := by
    unfold chooseSeed
    rw [bind_of_ok (outside_apply _ session st), hseed]
    rfl
  obtain ⟨made, session', st', hmake, hst'⟩ := makeFiles_succeeds ho hloaded hattempts hdrawn hsave
    (hstamp _ (henv st hst))
    ⟨(ClauseSet.rules plan.size plan.diagonal).clauses.length, 0, 0, 0, 0, 0⟩
  refine ⟨(o.release session').2, (w.elapsed st').2, ?_, helapsed st' hst'⟩
  unfold runGenerate
  rw [hplan, bind_of_ok (expect_ok _ plan session st), bind_of_ok hchoose,
    bind_of_ok (consult_run_of_eq _ hstart), bind_of_ok (expect_ok _ _ loaded _),
    bind_of_ok (outside_apply w.stamp loaded _), bind_of_ok (releasing_of_ok hmake)]
  dsimp only
  rw [bind_of_ok (outside_apply w.elapsed session' st'), bind_of_ok (consult_apply _ session' _),
    hreport]
  rfl

end TwinSudoku.Command
