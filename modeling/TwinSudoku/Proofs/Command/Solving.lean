import TwinSudoku.Proofs.Command.Generating
import TwinSudoku.Proofs.Solving.Completions

/-!
# Solving what was generated

* `Command.runSolve_of_fromFile`: a command that solves tells a right answer about the puzzle that
  it read.
* `Command.solve_after_generate`: solving the puzzle gives back the solution, byte for byte. Both
  oracles may choose any models, and the random numbers may be any.
-/

namespace TwinSudoku.Command

variable {σ ω ρ κ : Type} {w : World (StateM ω)} {named : String → κ} {o : Oracle σ}
  {source : Random.Source ρ} {holding : List Clause → σ → Prop} {session session' : σ}
  {st st' : ω}

/-! ## Solving -/

/-- A command that solves tells a right answer about the puzzle that it read. -/
theorem runSolve_of_fromFile (ho : o.Conforms holding) (hsession : holding [] session)
    {preferences : Preferences} {options : SolveOptions} {s : Size} {puzzle : Pair s}
    (hsize : options.size preferences = .ok s)
    (hread : Pair.fromFile w.files s (options.puzzleFile preferences) st = (.ok puzzle, st')) :
    ∃ answer session', Solving.Answers (options.hasDiagonals preferences) puzzle answer ∧
      runSolve w o preferences options session st =
        tell w options.layout answer session' st' := by
  obtain ⟨loaded, hstart, hloaded⟩ :=
    ho.start_rules hsession s (options.hasDiagonals preferences)
  change Solving.start o s (options.hasDiagonals preferences) session = _ at hstart
  obtain ⟨answer, ended, hcomplete, -, hanswer⟩ := Solving.complete_answers ho hloaded puzzle
  refine ⟨answer, (o.release ended).2, hanswer, ?_⟩
  unfold runSolve
  rw [hsize, bind_of_ok (expect_ok _ s session st), bind_of_ok (outside_apply _ session st), hread,
    bind_of_ok (expect_ok _ puzzle session st'), bind_of_ok (consult_run_of_eq st' hstart),
    bind_of_ok (expect_ok _ () loaded st'), bind_of_ok (consult_run_of_eq st' hcomplete),
    bind_of_ok (consult_apply _ ended st'), bind_of_ok (expect_ok _ answer _ st')]

/-- A completion is told by writing its text into the file for solutions. -/
theorem tell_file_eq {s : Size} (solution : Pair s) (session : σ) (st : ω) :
    tell w .file (some solution) session st =
      ((((w.files.write Pair.solutionFile solution.toCsv.toUTF8 st).1.mapError .file, session),
        (w.files.write Pair.solutionFile solution.toCsv.toUTF8 st).2) :
          (Except CommandError Unit × σ) × ω) := by
  have hsave : solution.present w.files w.console .file =
      w.files.write Pair.solutionFile solution.toCsv.toUTF8 :=
    FileAccess.save_of_parent (by decide) _
  unfold tell
  dsimp only
  rw [hsave, bind_of_ok (outside_apply _ session st)]
  cases (w.files.write Pair.solutionFile solution.toCsv.toUTF8 st).1 <;> rfl

/-- Whatever is asked for, a puzzle with a single completion is answered with it. -/
theorem answer_of_unique {s : Size} {diagonal : Bool} {puzzle solution : Pair s}
    {answer : Option (Pair s)} (hanswer : Solving.Answers diagonal puzzle answer)
    (hunique : ∀ r : Pair s, r.Completes diagonal puzzle ↔ r = solution) :
    answer = some solution := by
  cases answer with
  | none => exact absurd ⟨solution, (hunique solution).2 rfl⟩ hanswer
  | some r => rw [(hunique r).1 hanswer]

/-- A command that generates and succeeds leaves a solution that keeps the rules and a part of it
that has no other completion, where the removal of any one digit admits another. Solving that
puzzle, in a later session with whatever oracle, writes the bytes of the solution's file again,
and can fail in no other way than that they cannot be written. -/
theorem solve_after_generate (hw : w.Faithful named) (ho : o.Conforms holding)
    (hsession : holding [] session) {τ ρ' : Type} {o' : Oracle τ}
    {holding' : List Clause → τ → Prop} (ho' : o'.Conforms holding') {fresh : τ}
    (hfresh : holding' [] fresh) (source' : Random.Source ρ')
    {preferences later : Preferences} {options : GenerateOptions} {solving : SolveOptions}
    (hk : solving.k.getD later.k = options.k.getD preferences.k)
    (hdiagonal : solving.hasDiagonals later = (options.diagonal || preferences.diagonal))
    (hpath : solving.puzzleFile later = options.puzzleFile preferences)
    (hlayout : solving.layout = .file)
    (hpuzzle : named (options.solutionFile preferences) ≠ named (options.puzzleFile preferences))
    (hreport : ∀ path, options.reportFile? preferences = some path →
      named (options.solutionFile preferences) ≠ named path ∧
        named (options.puzzleFile preferences) ≠ named path)
    (hresult : named (options.solutionFile preferences) ≠ named Pair.solutionFile)
    (hrun : perform w o source preferences (.generate options) session st =
      ((.ok (), session'), st')) :
    ∃ (s : Size) (solution puzzle : Pair s) (bytes : ByteArray),
      Size.ofNat (options.k.getD preferences.k).toNat = .ok s ∧
      w.files.Reads (options.solutionFile preferences) bytes st' ∧
      (Pair.fromFile w.files s (options.solutionFile preferences) st').1 = .ok solution ∧
      solution.isSolution (options.diagonal || preferences.diagonal) ∧
      (Pair.fromFile w.files s (options.puzzleFile preferences) st').1 = .ok puzzle ∧
      puzzle.PartOf solution ∧
      (∀ r : Pair s,
        r.Completes (options.diagonal || preferences.diagonal) puzzle ↔ r = solution) ∧
      (∀ c : Cell, puzzle.digit c ≠ 0 → ∃ r : Pair s,
        r.Completes (options.diagonal || preferences.diagonal) (puzzle.without c) ∧
          r ≠ solution) ∧
      ∃ outcome ended st'', perform w o' source' later (.solve solving) fresh st' =
          ((outcome, ended), st'') ∧
        w.files.Reads (options.solutionFile preferences) bytes st'' ∧
        (outcome = .ok () ∧ w.files.Reads Pair.solutionFile bytes st'' ∨
          ∃ cause, outcome = .error (.file cause) ∧
            (w.files.write Pair.solutionFile bytes
              (w.files.read (options.puzzleFile preferences) st').2).1 = .error cause) := by
  obtain ⟨plan, solution, puzzle, hplan, hleaves⟩ :=
    leaves_of_runGenerate hw ho hsession hpuzzle hreport hrun
  obtain ⟨hsize, hdiag⟩ := GenerateOptions.plan_eq_ok hplan
  rw [← hdiag] at hdiagonal ⊢
  have hsolve : solving.size later = .ok plan.size := by
    rw [SolveOptions.size, Preferences.withSize, Preferences.size, hk, hsize]
  have hunique (r : Pair plan.size) : r.Completes plan.diagonal puzzle ↔ r = solution :=
    hleaves.reduces.completes_solution hleaves.isSolution
  have hread := Pair.fromFile_of_reads hleaves.puzzle_reads
  rw [← hpath] at hread
  refine ⟨plan.size, solution, puzzle, solution.toCsv.toUTF8, hsize, hleaves.solution_reads,
    congrArg Prod.fst (Pair.fromFile_of_reads hleaves.solution_reads), hleaves.isSolution,
    congrArg Prod.fst (Pair.fromFile_of_reads hleaves.puzzle_reads), hleaves.reduces.partOf,
    hunique, fun c hc => ?_, ?_⟩
  · obtain ⟨r, hr, hne⟩ := hleaves.reduces.needed c hc
    refine ⟨r, hr, ?_⟩
    rintro rfl
    exact hne (hleaves.reduces.partOf.digit_eq hc).symm
  · obtain ⟨answer, ended, hanswer, hsolved⟩ := runSolve_of_fromFile ho' hfresh hsolve hread
    rw [hdiagonal] at hanswer
    obtain rfl := answer_of_unique hanswer hunique
    rw [hlayout, tell_file_eq, hpath] at hsolved
    refine ⟨_, _, _, hsolved, ?_, ?_⟩
    · exact hw.files.write_keeps _ _ hresult _ (hw.files.read_keeps _ _ _ _ hleaves.solution_reads)
    · cases hwritten : (w.files.write Pair.solutionFile solution.toCsv.toUTF8
          (w.files.read (options.puzzleFile preferences) st').2).1 with
      | error cause => exact .inr ⟨cause, rfl, rfl⟩
      | ok u => exact .inl ⟨rfl, hw.files.read_written hwritten⟩

theorem solve_after_generate_small :
    ∃ session st, perform World.ofStore Oracle.exhaustive Random.streamSource .usual
        (.generate ⟨some 2, false, some "puzzle.csv", some "solution.csv", some 5, some 1, none⟩)
        [] Store.empty = ((.ok (), session), st) ∧
      ∃ bytes ended st', perform World.ofStore Oracle.exhaustive Random.streamSource .usual
          (.solve ⟨some 2, false, some "puzzle.csv", .file⟩) [] st = ((.ok (), ended), st') ∧
        Store.access.Reads "solution.csv" bytes st' ∧
          Store.access.Reads Pair.solutionFile bytes st' := by
  let options : GenerateOptions :=
    ⟨some 2, false, some "puzzle.csv", some "solution.csv", some 5, some 1, none⟩
  let paths := ["solution.csv", "puzzle.csv", Pair.solutionFile]
  have hplain : ∀ path ∈ paths, Store.Plain path := by
    have hsolution : Store.Plain "solution.csv" :=
      ⟨rfl, by decide, rfl, by decide, by decide, by decide⟩
    have hpuzzle : Store.Plain "puzzle.csv" :=
      ⟨rfl, by decide, rfl, by decide, by decide, by decide⟩
    have hresult : Store.Plain Pair.solutionFile :=
      ⟨rfl, by decide, rfl, by decide, by decide, by decide⟩
    simpa only [paths, List.forall_mem_cons] using ⟨hsolution, hpuzzle, hresult, nofun⟩
  have hplan : options.plan .usual = .ok ⟨.small, false, 1⟩ := rfl
  have hdrawn : Pair.small.Holds
      (Generation.drawnNext Random.streamDice ⟨.small, false, 1⟩ (.ofSeed 5)) := by
    decide +kernel
  obtain ⟨session, st, hrun, hroom⟩ : ∃ session st,
      runGenerate World.ofStore Oracle.exhaustive Random.streamSource .usual options []
          Store.empty = ((.ok (), session), st) ∧ st.Room paths := by
    refine runGenerate_succeeds Oracle.exhaustive_conforms rfl hplan (by decide) rfl
      ⟨Pair.small, Pair.small_isSolution, hdrawn⟩ rfl (Action.keeps_pure _)
      (World.stamp_keeps (Action.keeps_pure _) (Action.keeps_pure _)) (Action.keeps_pure _) ?_ ?_
    · intro path hpath text store hstore
      have hmem : path ∈ paths := List.mem_append_left [Pair.solutionFile] hpath
      exact Store.access_save_of_room (hplain path hmem) hmem hstore text
    · refine ⟨rfl, ?_⟩
      simp only [paths, List.forall_mem_cons]
      exact ⟨nofun, nofun, nofun, nofun⟩
  refine ⟨session, st, hrun, ?_⟩
  let solving : SolveOptions := ⟨some 2, false, some "puzzle.csv", .file⟩
  have hk : solving.k.getD Preferences.usual.k = options.k.getD Preferences.usual.k := rfl
  obtain ⟨s, solution, puzzle, bytes, -, -, -, -, -, -, -, -, outcome, ended, st', hsolve, hkept,
    hout⟩ := solve_after_generate World.ofStore_faithful Oracle.exhaustive_conforms rfl
      Oracle.exhaustive_conforms rfl Random.streamSource hk rfl rfl rfl (by decide) nofun
      (by decide) hrun
  have hwrite := Store.access_write_of_room (hplain Pair.solutionFile (by simp [paths]))
    (by simp [paths]) hroom bytes
  rcases hout with ⟨rfl, hresult⟩ | ⟨cause, -, hcause⟩
  · exact ⟨bytes, ended, st', hsolve, hkept, hresult⟩
  · exact absurd (hcause.symm.trans hwrite.1) nofun

end TwinSudoku.Command
