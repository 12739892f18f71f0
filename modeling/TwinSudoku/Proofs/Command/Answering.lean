import TwinSudoku.Proofs.Command.Solving
import TwinSudoku.Proofs.Command.Views

/-!
# What the command that solves leaves

A size or a puzzle that is rejected is reported before the oracle is asked anything. A puzzle that
is accepted is answered right, on the console or in the file for solutions, and nowhere else.

* `Command.runSolve_of_size`, `Command.runSolve_of_defect`: what is rejected.
* `View.presenting`, `Command.tell_solution`: what is in sight after a completion was presented.
* `Command.Settled`: the file for solutions is not changed by solving it again. This is so once a
  solution is in it (`Command.settled_of_solution`).
* `Command.solve_answers`: all of this for one command.
-/

namespace TwinSudoku

/-- The view after a completion has been presented. -/
def View.presenting {κ : Type} [DecidableEq κ] (v : View κ) (named : String → κ) (layout : Layout)
    {s : Size} (q : Pair s) : View κ :=
  match layout with
  | .file => v.writing (named Pair.solutionFile) q.toCsv.toUTF8
  | layout => v.printing (q.shown layout)

namespace Command

variable {σ ω κ : Type} {w : World (StateM ω)} {named : String → κ} {o : Oracle σ}
  {session : σ} {st st' : ω} {P : ω → Prop}

/-! ## Rejection -/

theorem runSolve_of_size {preferences : Preferences} {options : SolveOptions} {e : InputError}
    (h : options.size preferences = .error e) :
    runSolve w o preferences options session st = ((.error (.input e), session), st) := by
  unfold runSolve
  rw [h]
  exact bind_of_error rfl _

theorem runSolve_of_defect {preferences : Preferences} {options : SolveOptions} {s : Size}
    {e : InputError} (hsize : options.size preferences = .ok s)
    (hread : Pair.fromFile w.files s (options.puzzleFile preferences) st = (.error e, st')) :
    runSolve w o preferences options session st = ((.error (.input e), session), st') := by
  unfold runSolve
  rw [hsize, bind_of_ok (expect_ok _ s session st), bind_of_ok (outside_apply _ session st), hread]
  exact bind_of_error rfl _

/-! ## Presenting -/

theorem tell_none (w : World (StateM ω)) (layout : Layout) (s : Size) (session : σ) (st : ω) :
    tell w layout (none : Option (Pair s)) session st =
      ((.ok (), session), (w.console noSolutionText st).2) := rfl

variable [DecidableEq κ] {view : ω → View κ}

theorem tell_solution (hv : w.Shows named view) (hp : w.Writable Pair.solutionFile P)
    (layout : Layout) {s : Size} (q : Pair s) (session : σ) (hst : P st) :
    ∃ st', tell w layout (some q) session st = ((.ok (), session), st') ∧
      view st' = (view st).presenting named layout q ∧
      (layout = .file → w.files.write Pair.solutionFile q.toCsv.toUTF8 st = (.ok (), st')) := by
  cases layout with
  | framed => exact ⟨_, rfl, hv.console _ st, nofun⟩
  | bare => exact ⟨_, rfl, hv.console _ st, nofun⟩
  | file =>
    obtain ⟨hwrite, -⟩ := hp.write q.toCsv.toUTF8 st hst
    refine ⟨(w.files.write Pair.solutionFile q.toCsv.toUTF8 st).2, ?_, hv.written hwrite,
      fun _ => Prod.ext hwrite rfl⟩
    rw [tell_file_eq, hwrite]
    rfl

/-! ## Solving again -/

/-- Solving what the file for solutions holds, under the same rules and with whatever oracle and
source of random numbers, succeeds and changes nothing in sight, if the result goes into that file
again. -/
def Settled (w : World (StateM ω)) (named : String → κ) (view : ω → View κ) (s : Size)
    (diagonal : Bool) (st : ω) : Prop :=
  ∀ (τ ρ : Type) (o : Oracle τ) (holding : List Clause → τ → Prop) (fresh : τ)
    (source : Random.Source ρ), o.Conforms holding → holding [] fresh →
    ∀ (config : Option String) (options : SolveOptions),
      let preferences := (Preferences.load w.files config st).1
      options.layout = .file → options.size preferences = .ok s →
      options.hasDiagonals preferences = diagonal →
      named (options.puzzleFile preferences) = named Pair.solutionFile →
      (∃ bytes, w.files.Reads (options.puzzleFile preferences) bytes st) →
        let again := Request.perform w o source (.run config (.solve options)) fresh st
        again.1.1 = .ok () ∧ view again.2 = view st

/-- A solution is its own only completion, so it is written back as it was. -/
theorem settled_of_solution (hw : w.Faithful named) (hv : w.Shows named view)
    (hp : w.Writable Pair.solutionFile P) (hst : P st) {s : Size} {diagonal : Bool} {q : Pair s}
    (hq : q.isSolution diagonal)
    (hcontent : (view st).content (named Pair.solutionFile) = some q.toCsv.toUTF8) :
    Settled w named view s diagonal st := by
  intro τ ρ o holding fresh source ho hfresh config options preferences hlayout hsize hdiagonal
    hpath hreads
  obtain ⟨bytes, hbytes⟩ := hreads
  let path := options.puzzleFile preferences
  let st₁ := (Preferences.load w.files config st).2
  -- what is read is the text of the solution, also when the preferences have been loaded
  have hsame : bytes = q.toCsv.toUTF8 := by
    have hseen := hv.reads hbytes
    rw [hpath, hcontent] at hseen
    exact (Option.some.inj hseen).symm
  have hread : w.files.Reads path q.toCsv.toUTF8 st₁ := by
    have hkeeps := Preferences.load_keeps (fun other => hw.files.read_keeps other path bytes) config
    rw [← hsame]
    exact hkeeps st hbytes
  have hfile := Pair.fromFile_of_reads hread
  let st₂ := (w.files.read path st₁).2
  obtain ⟨answer, ended, hanswer, hrun⟩ := runSolve_of_fromFile ho hfresh hsize hfile
  rw [hdiagonal] at hanswer
  obtain rfl := answer_of_unique hanswer fun r => Pair.completes_iff_eq hq
  have hst₂ : P st₂ := hp.read path st₁ (Preferences.load_keeps hp.read config st hst)
  have hview : view st₂ = view st := by
    have hkeeps := hv.read (view st₁) path st₁ rfl
    exact hkeeps.trans (hv.load_keeps config st)
  obtain ⟨st₃, htell, hshown, -⟩ := tell_solution hv hp .file q ended hst₂
  have hperform := (perform_run w o source config (.solve options) fresh st).trans hrun
  rw [hperform, hlayout, htell]
  refine ⟨rfl, ?_⟩
  rw [hshown, hview]
  exact View.writing_of_content hcontent

/-! ## The command -/

/-- The command that solves. A size or a puzzle that is rejected is the failure of the command; the
oracle has been asked nothing, and nothing in sight has changed. For a puzzle without a completion
this is printed and nothing else changed. For any other puzzle some completion is presented, and
where it went into a file, solving that file again leaves it as it is. -/
theorem solve_answers (hw : w.Faithful named) (hv : w.Shows named view)
    (hp : w.Writable Pair.solutionFile P) {holding : List Clause → σ → Prop}
    (ho : o.Conforms holding) (hsession : holding [] session) {ρ : Type}
    (source : Random.Source ρ) (config : Option String) (options : SolveOptions) (hst : P st) :
    let loaded := Preferences.load w.files config st
    let diagonal := options.hasDiagonals loaded.1
    let reading (s : Size) := (Pair.fromFile w.files s (options.puzzleFile loaded.1) loaded.2).1
    let run :=
      Request.perform w o.recorded source (.run config (.solve options)) ⟨session, #[]⟩ st
    (∀ e, (options.size loaded.1 = .error e ∨
          ∃ s, options.size loaded.1 = .ok s ∧ reading s = .error e) →
        run.1 = (.error (.input e), ⟨session, #[]⟩) ∧ view run.2 = view st) ∧
      ∀ (s : Size) (puzzle : Pair s), options.size loaded.1 = .ok s → reading s = .ok puzzle →
        ((¬ ∃ q : Pair s, q.Completes diagonal puzzle) →
          run.1.1 = .ok () ∧ view run.2 = (view st).printing noSolutionText) ∧
        ((∃ q : Pair s, q.Completes diagonal puzzle) →
          ∃ q : Pair s, q.Completes diagonal puzzle ∧ run.1.1 = .ok () ∧
            view run.2 = (view st).presenting named options.layout q ∧
            (options.layout = .file →
              w.files.Reads Pair.solutionFile q.toCsv.toUTF8 run.2 ∧
                Settled w named view s diagonal run.2)) := by
  intro loaded diagonal reading run
  have hloaded : view loaded.2 = view st := hv.load_keeps config st
  have hrun : run = runSolve w o.recorded loaded.1 options ⟨session, #[]⟩ loaded.2 :=
    perform_run w o.recorded source config (.solve options) ⟨session, #[]⟩ st
  constructor
  · rintro e (hsize | ⟨s, hsize, hdefect⟩)
    · rw [hrun, runSolve_of_size hsize]
      exact ⟨rfl, hloaded⟩
    · rw [hrun, runSolve_of_defect hsize (Prod.ext hdefect rfl)]
      exact ⟨rfl, (hv.fromFile_keeps s _ _).trans hloaded⟩
  · intro s puzzle hsize hread
    let st₁ := (Pair.fromFile w.files s (options.puzzleFile loaded.1) loaded.2).2
    have hview : view st₁ = view st := (hv.fromFile_keeps s _ _).trans hloaded
    have hst₁ : P st₁ :=
      Pair.fromFile_keeps (hp.read _) s loaded.2 (Preferences.load_keeps hp.read config st hst)
    have hfresh : Recorded.Holding holding [] ⟨session, #[]⟩ := hsession
    obtain ⟨answer, ended, hanswer, hsolve⟩ :=
      runSolve_of_fromFile (w := w) ho.recorded hfresh hsize (Prod.ext hread rfl)
    rw [hrun, hsolve]
    cases answer with
    | none =>
      refine ⟨fun _ => ⟨rfl, ?_⟩, fun hsome => absurd hsome hanswer⟩
      rw [tell_none, hv.console, hview]
    | some q =>
      refine ⟨fun hnone => absurd ⟨q, hanswer⟩ hnone, fun _ => ⟨q, hanswer, ?_⟩⟩
      obtain ⟨st₂, htell, hshown, hwrite⟩ := tell_solution hv hp options.layout q ended hst₁
      rw [htell]
      refine ⟨rfl, hview ▸ hshown, fun hlayout => ?_⟩
      obtain ⟨hok, hst₂⟩ := hp.write q.toCsv.toUTF8 st₁ hst₁
      have hreads := hw.files.read_written hok
      rw [hwrite hlayout] at hst₂ hreads
      exact ⟨hreads, settled_of_solution hw hv hp hst₂ hanswer.1 (hv.reads hreads)⟩

/-- One digit is missing, and the result is solved again. -/
theorem solve_answers_small :
    let puzzle := Pair.small.without ⟨.a, 1, 2⟩
    let desk : Desk :=
      (World.ofDesk.files.write "puzzle.csv" puzzle.toCsv.toUTF8 ⟨Store.empty, ""⟩).2
    ∃ q : Pair .small, q.isSolution false ∧
      ∃ session desk', Request.perform World.ofDesk Oracle.exhaustive.recorded Random.streamSource
          (.run none (.solve ⟨some 2, false, some "puzzle.csv", .file⟩)) ⟨[], #[]⟩ desk =
            ((.ok (), session), desk') ∧
        desk'.view = desk.view.writing (Store.named Pair.solutionFile) q.toCsv.toUTF8 ∧
        ∃ ended desk'', Request.perform World.ofDesk Oracle.exhaustive Random.streamSource
            (.run none (.solve ⟨some 2, false, some Pair.solutionFile, .file⟩)) [] desk' =
              ((.ok (), ended), desk'') ∧ desk''.view = desk'.view := by
  intro puzzle desk
  let paths := ["puzzle.csv", Pair.solutionFile]
  have hplain : ∀ path ∈ paths, Store.Plain path := by decide
  have hempty : Store.empty.Room paths := by
    refine ⟨rfl, ?_⟩
    simp only [paths, List.forall_mem_cons]
    exact ⟨nofun, nofun, nofun⟩
  have hwritable (path : String) (hpath : path ∈ paths) :
      World.ofDesk.Writable path fun desk => desk.store.Room paths :=
    World.ofDesk_writable (hplain path hpath) hpath
  obtain ⟨hwritten, hroom⟩ := (hwritable "puzzle.csv" (by simp [paths])).write
    puzzle.toCsv.toUTF8 ⟨Store.empty, ""⟩ hempty
  have hreads : World.ofDesk.files.Reads "puzzle.csv" puzzle.toCsv.toUTF8 desk :=
    World.ofDesk_faithful.files.read_written hwritten
  have hroom : desk.store.Room paths := hroom
  clear_value desk
  have hanswers := (solve_answers World.ofDesk_faithful World.ofDesk_shows
    (hwritable Pair.solutionFile (by simp [paths])) Oracle.exhaustive_conforms rfl
    Random.streamSource none ⟨some 2, false, some "puzzle.csv", .file⟩ hroom).2 .small puzzle rfl
    (congrArg Prod.fst (Pair.fromFile_of_reads hreads))
  have hcompletes : Pair.small.Completes false puzzle :=
    (Pair.small.without_partOf _).completes ((Pair.completes_iff_eq Pair.small_isSolution).2 rfl)
  obtain ⟨q, hq, hok, hview, hfile⟩ := hanswers.2 ⟨Pair.small, hcompletes⟩
  obtain ⟨hread, hsettled⟩ := hfile rfl
  rcases hrun : Request.perform World.ofDesk Oracle.exhaustive.recorded Random.streamSource
    (.run none (.solve ⟨some 2, false, some "puzzle.csv", .file⟩)) ⟨[], #[]⟩ desk with
    ⟨⟨outcome, session⟩, desk'⟩
  rw [hrun] at hok hview hread hsettled
  obtain ⟨hagain, hsame⟩ := hsettled _ _ Oracle.exhaustive _ [] Random.streamSource
    Oracle.exhaustive_conforms rfl none ⟨some 2, false, some Pair.solutionFile, .file⟩ rfl rfl rfl
    rfl ⟨_, hread⟩
  obtain rfl : outcome = .ok () := hok
  exact ⟨q, hq.1, session, desk', rfl, hview, _, _, Prod.ext (Prod.ext hagain rfl) rfl, hsame⟩

end Command

end TwinSudoku
