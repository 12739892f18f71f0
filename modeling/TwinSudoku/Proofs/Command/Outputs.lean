import TwinSudoku.Proofs.Command.Generating
import TwinSudoku.Proofs.Command.Views

/-!
# The files that the command for generating writes

The command has up to three files to write: the solution, the puzzle and the report. Whatever fails
on the way, it has written the first of them when it ends, and the others are as they were. Nothing
is assumed of the oracle and of the random numbers.

* `View.writingAll`, `View.Fills`: texts written into the first of some files.
* `Command.Making`, `Command.makeFiles_making`: what was made when the solution and the puzzle are
  through.
* `Command.Begun`: a session that the command has opened, with the stamp that a report on it gets.
* `Command.Ending`: how the command ends, and what it has written (`Command.runGenerate_ending`).
* `Command.generate_writes`: the files after a command, and what they have to do with the puzzle
  that the library generates in the same session.
-/

namespace TwinSudoku

namespace View

variable {κ : Type} [DecidableEq κ] {named : String → κ}

/-- The view after texts have been written, each into the file of its own. -/
def writingAll (named : String → κ) : View κ → List String → List ByteArray → View κ
  | v, path :: targets, bytes :: texts =>
    writingAll named (v.writing (named path) bytes) targets texts
  | v, _, _ => v

/-- The first of the files hold the texts, and all others are as they were before. -/
structure Fills (named : String → κ) (targets : List String) (texts : List ByteArray)
    (before after : View κ) : Prop where
  held : List.Forall₂ (fun path bytes => after.content (named path) = some bytes)
    (targets.take texts.length) texts
  spared : ∀ path ∈ targets.drop texts.length,
    after.content (named path) = before.content (named path)
  others : ∀ place, place ∉ targets.map named → after.content place = before.content place
  printed : after.printed = before.printed

theorem writingAll_nil (v : View κ) (targets : List String) :
    writingAll named v targets [] = v := by
  cases targets <;> rfl

theorem content_writingAll {place : κ} {targets : List String} (texts : List ByteArray)
    (v : View κ) (hplace : place ∉ targets.map named) :
    (writingAll named v targets texts).content place = v.content place := by
  induction targets generalizing texts v with
  | nil => rfl
  | cons path rest ih =>
    rw [List.map_cons, List.mem_cons, not_or] at hplace
    cases texts with
    | nil => rfl
    | cons bytes texts =>
      rw [writingAll, ih texts _ hplace.2]
      exact content_writing_of_ne v bytes hplace.1

/-- Where the files are different ones, no text replaces another one. -/
theorem fills_writingAll {targets : List String} (hdistinct : (targets.map named).Nodup)
    {texts : List ByteArray} (hlength : texts.length ≤ targets.length) (v : View κ) :
    Fills named targets texts v (writingAll named v targets texts) := by
  induction targets generalizing texts v with
  | nil =>
    obtain rfl : texts = [] := List.eq_nil_of_length_eq_zero (Nat.le_zero.1 hlength)
    exact ⟨.nil, fun _ h => absurd h List.not_mem_nil, fun _ _ => rfl, rfl⟩
  | cons path rest ih =>
    obtain ⟨hpath, hrest⟩ := List.nodup_cons.1 hdistinct
    cases texts with
    | nil => exact ⟨.nil, fun _ _ => rfl, fun _ _ => rfl, rfl⟩
    | cons bytes texts =>
      obtain ⟨hheld, hspared, hothers, hprinted⟩ :=
        ih hrest (Nat.le_of_succ_le_succ hlength) (v.writing (named path) bytes)
      refine ⟨.cons ?_ hheld, fun other hother => ?_, fun place hplace => ?_, hprinted⟩
      · rw [writingAll, content_writingAll texts _ hpath, content_writing_self]
      · have hlater : other ∈ rest.drop texts.length := hother
        have hne : named other ≠ named path :=
          ne_of_mem_of_not_mem (List.mem_map_of_mem (List.mem_of_mem_drop hlater)) hpath
        exact (hspared other hlater).trans (content_writing_of_ne v bytes hne)
      · rw [List.map_cons, List.mem_cons, not_or] at hplace
        exact (hothers place hplace.2).trans (content_writing_of_ne v bytes hplace.1)

end View

namespace Command

variable {σ ω ρ κ : Type} [DecidableEq κ] {w : World (StateM ω)} {named : String → κ}
  {view : ω → View κ} {o : Oracle σ} {source : Random.Source ρ} {session session' : σ} {st st' : ω}
  {plan : Plan} {seed : UInt64} {stamp : Stamp} {tally : Tally}

/-! ## The solution and the puzzle -/

theorem writePair_of_error {what path : String} {s : Size} {p : Pair s} {cause : FileError}
    (session : σ) (h : (w.files.save path p.toCsv st).1 = .error cause) :
    writePair w what path p session st =
      ((.error (.writing what path cause), session), (w.files.save path p.toCsv st).2) := by
  have hsave : (p.toFile w.files path st).1 = .error cause := h
  unfold writePair
  rw [bind_of_ok (outside_apply _ session st), hsave]
  rfl

/-- What was made when a session is through with the solution and the puzzle, or has failed. -/
inductive Making (w : World (StateM ω)) (o : Oracle σ) (dice : Random.Dice ρ) (plan : Plan)
    (solutionPath : String) (g : Generator σ ρ) (st : ω) :
    Except CommandError (Pair plan.size × Tally) → List ByteArray → Prop
  | nothing (e : CommandError)
      (hnone : ¬ ∃ solution g', Generation.solution o dice plan g = (.ok solution, g') ∧
        (w.files.save solutionPath solution.toCsv st).1 = .ok ()) :
      Making w o dice plan solutionPath g st (.error e) []
  | solution (e : CommandError) {solution : Pair plan.size} {g' : Generator σ ρ}
      (hsolution : Generation.solution o dice plan g = (.ok solution, g'))
      (hsaved : (w.files.save solutionPath solution.toCsv st).1 = .ok ()) :
      Making w o dice plan solutionPath g st (.error e) [solution.toCsv.toUTF8]
  | both {solution puzzle : Pair plan.size} {g' g'' : Generator σ ρ}
      (hsolution : Generation.solution o dice plan g = (.ok solution, g'))
      (hsaved : (w.files.save solutionPath solution.toCsv st).1 = .ok ())
      (hpuzzle : Generation.minimize o dice plan solution g' = (.ok puzzle, g'')) :
      Making w o dice plan solutionPath g st (.ok (puzzle, g''.tally))
        [solution.toCsv.toUTF8, puzzle.toCsv.toUTF8]

theorem makeFiles_making (hv : w.Shows named view) (o : Oracle σ) (source : Random.Source ρ)
    (plan : Plan) (seed : UInt64) (tally : Tally) (solutionPath puzzlePath : String)
    (later : List String) (session : σ) (st : ω) :
    ∃ outcome session' st',
      makeFiles w o source plan seed tally solutionPath puzzlePath session st =
        ((outcome, session'), st') ∧
      ∃ texts, view st' =
          View.writingAll named (view st) ([solutionPath, puzzlePath] ++ later) texts ∧
        Making w o source.dice plan solutionPath ⟨session, source.ofSeed seed, tally⟩ st outcome
          texts := by
  let g : Generator σ ρ := ⟨session, source.ofSeed seed, tally⟩
  unfold makeFiles
  rcases hsolution : Generation.solution o source.dice plan g with ⟨e | solution, g₁⟩
  · -- there is no solution
    rw [bind_of_ok (continueWith_of_eq st hsolution)]
    refine ⟨_, _, _, bind_of_error rfl _, [], rfl, .nothing _ ?_⟩
    rintro ⟨solution, g', hrun, -⟩
    cases hsolution.symm.trans hrun
  · rw [bind_of_ok (continueWith_of_eq st hsolution)]
    dsimp only
    rw [bind_of_ok (expect_ok _ solution g₁.session st)]
    let st₁ := (w.files.save solutionPath solution.toCsv st).2
    cases hfirst : (w.files.save solutionPath solution.toCsv st).1 with
    | error cause =>
      -- it could not be written
      refine ⟨_, _, st₁, bind_of_error (writePair_of_error g₁.session hfirst) _, [],
        hv.save_of_error hfirst, .nothing _ ?_⟩
      rintro ⟨found, g', hrun, hsaved⟩
      cases hsolution.symm.trans hrun
      cases hfirst.symm.trans hsaved
    | ok =>
      have hview : view st₁ = (view st).writing (named solutionPath) solution.toCsv.toUTF8 :=
        hv.save_of_ok hfirst
      rw [bind_of_ok (writePair_of_ok g₁.session hfirst)]
      rcases hpuzzle : Generation.minimize o source.dice plan solution g₁ with ⟨e | puzzle, g₂⟩
      · -- there is no puzzle
        rw [bind_of_ok (continueWith_of_eq _ hpuzzle)]
        exact ⟨_, _, st₁, bind_of_error rfl _, [solution.toCsv.toUTF8], hview,
          .solution _ hsolution hfirst⟩
      · rw [bind_of_ok (continueWith_of_eq _ hpuzzle)]
        dsimp only
        rw [bind_of_ok (expect_ok _ puzzle g₂.session st₁)]
        cases hsecond : (w.files.save puzzlePath puzzle.toCsv st₁).1 with
        | error cause =>
          exact ⟨_, _, _, bind_of_error (writePair_of_error g₂.session hsecond) _,
            [solution.toCsv.toUTF8], (hv.save_of_error hsecond).trans hview,
            .solution _ hsolution hfirst⟩
        | ok =>
          have hboth := hv.save_of_ok hsecond
          rw [hview] at hboth
          rw [bind_of_ok (writePair_of_ok g₂.session hsecond)]
          exact ⟨_, _, _, rfl, [solution.toCsv.toUTF8, puzzle.toCsv.toUTF8],
            hboth.trans (View.writingAll_nil _ later).symm, .both hsolution hfirst hpuzzle⟩

/-! ## The report -/

theorem writeReport_view (hv : w.Shows named view) (path : String) (report : Report) (session : σ)
    (st : ω) :
    ∃ outcome st', writeReport w path report session st = ((outcome, session), st') ∧
      ((∃ e, outcome = .error e) ∧ view st' = view st ∨
        outcome = .ok () ∧ ∃ text, report.print = .ok text ∧
          view st' = (view st).writing (named path) text.toUTF8) := by
  unfold writeReport
  cases hprint : report.print with
  | error cause => exact ⟨_, st, bind_of_error rfl _, .inl ⟨⟨_, rfl⟩, rfl⟩⟩
  | ok text =>
    rw [bind_of_ok (expect_ok _ text session st), bind_of_ok (outside_apply _ session st)]
    have hparent := hv.makeParent_keeps path st
    cases hmake : (w.files.makeParent path st).1 with
    | error cause => exact ⟨_, _, bind_of_error rfl _, .inl ⟨⟨_, rfl⟩, hparent⟩⟩
    | ok =>
      let st₁ := (w.files.makeParent path st).2
      rw [bind_of_ok (expect_ok _ () session st₁), bind_of_ok (outside_apply _ session st₁)]
      cases hwrite : (w.files.write path text.toUTF8 st₁).1 with
      | error cause =>
        exact ⟨_, _, rfl, .inl ⟨⟨_, rfl⟩, (hv.unwritten hwrite).trans hparent⟩⟩
      | ok =>
        have hwritten := hv.written hwrite
        rw [hparent] at hwritten
        exact ⟨_, _, rfl, .inr ⟨rfl, text, rfl, hwritten⟩⟩

/-- The bytes are those of a report on the session. How long the session took is not told by it. -/
def ReportBytes (plan : Plan) (seed : UInt64) (stamp : Stamp) (tally : Tally) (bytes : ByteArray) :
    Prop :=
  ∃ elapsed text,
    (Report.ofTally plan seed tally stamp.id elapsed stamp.time).print = .ok text ∧
      bytes = text.toUTF8

/-! ## The session -/

/-- The command has a plan and a seed, and the session is open with the rules loaded. It got its
stamp then. -/
structure Begun (w : World (StateM ω)) (o : Oracle σ) (source : Random.Source ρ)
    (preferences : Preferences) (options : GenerateOptions) (session : σ) (st : ω) (plan : Plan)
    (seed : UInt64) (stamp : Stamp) (g : Generator σ ρ) (st' : ω) : Prop where
  plan_eq : options.plan preferences = .ok plan
  seed_eq : (chooseSeed w options.seed session st).1 = (.ok seed, session)
  start_eq : Generation.start o plan session = (.ok g.tally, g.session)
  stamp_eq : w.stamp (chooseSeed w options.seed session st).2 = (stamp, st')
  random_eq : g.random = source.ofSeed seed

theorem chooseSeed_view (hv : w.Shows named view) (given : Option UInt64) (session : σ) (st : ω) :
    ∃ seed st', chooseSeed w given session st = ((.ok seed, session), st') ∧
      view st' = view st := by
  have htext := hv.seedText (view st) st rfl
  unfold chooseSeed
  rw [bind_of_ok (outside_apply _ session st)]
  cases given.or (seedOf? (w.seedText st).1) with
  | some seed => exact ⟨seed, _, rfl, htext⟩
  | none => exact ⟨_, _, rfl, hv.freshSeed _ _ htext⟩

section Ending

variable {preferences : Preferences} {options : GenerateOptions}

/-- There is only one way to begin. -/
theorem Begun.unique {plan' : Plan} {seed' : UInt64} {stamp' : Stamp} {g g' : Generator σ ρ}
    {st₁ st₂ : ω} (h : Begun w o source preferences options session st plan seed stamp g st₁)
    (h' : Begun w o source preferences options session st plan' seed' stamp' g' st₂) :
    plan = plan' ∧ seed = seed' ∧ stamp = stamp' ∧ g = g' ∧ st₁ = st₂ := by
  obtain ⟨loaded, random, tally⟩ := g
  obtain ⟨loaded', random', tally'⟩ := g'
  obtain rfl : plan = plan' := Except.ok.inj (h.plan_eq.symm.trans h'.plan_eq)
  cases h.seed_eq.symm.trans h'.seed_eq
  cases h.start_eq.symm.trans h'.start_eq
  cases h.stamp_eq.symm.trans h'.stamp_eq
  obtain rfl : random = random' := h.random_eq.trans h'.random_eq.symm
  exact ⟨rfl, rfl, rfl, rfl, rfl⟩

/-- The search for a solution has found one, and it could be written. The bytes are its text. -/
def SolutionSaved (w : World (StateM ω)) (o : Oracle σ) (source : Random.Source ρ)
    (preferences : Preferences) (options : GenerateOptions) (session : σ) (st : ω)
    (bytes : ByteArray) : Prop :=
  ∃ plan seed stamp g st',
    Begun w o source preferences options session st plan seed stamp g st' ∧
      ∃ solution g', Generation.solution o source.dice plan g = (.ok solution, g') ∧
        (w.files.save (options.solutionFile preferences) solution.toCsv st').1 = .ok () ∧
        bytes = solution.toCsv.toUTF8

theorem SolutionSaved.unique {bytes bytes' : ByteArray}
    (h : SolutionSaved w o source preferences options session st bytes)
    (h' : SolutionSaved w o source preferences options session st bytes') : bytes = bytes' := by
  obtain ⟨plan, seed, stamp, g, st₁, hbegun, solution, g₁, hrun, -, rfl⟩ := h
  obtain ⟨plan', seed', stamp', g', st₂, hbegun', solution', g₂, hrun', -, rfl⟩ := h'
  obtain ⟨rfl, rfl, rfl, rfl, rfl⟩ := hbegun.unique hbegun'
  cases hrun.symm.trans hrun'
  rfl

/-- What the library generates in the session that the command has opened. -/
def Generates (w : World (StateM ω)) (o : Oracle σ) (source : Random.Source ρ)
    (preferences : Preferences) (options : GenerateOptions) (session : σ) (st : ω) (plan : Plan)
    (seed : UInt64) (stamp : Stamp) (made : Generated plan.size) : Prop :=
  ∃ g st' g', Begun w o source preferences options session st plan seed stamp g st' ∧
    Generation.generate o source.dice plan g = (.ok made, g')

/-- How a command that generates ends, and the texts that it has written. -/
inductive Ending (w : World (StateM ω)) (o : Oracle σ) (source : Random.Source ρ)
    (preferences : Preferences) (options : GenerateOptions) (session : σ) (st : ω) :
    Except CommandError Unit → List ByteArray → Prop
  | nothing (e : CommandError)
      (hnone : ∀ bytes, ¬ SolutionSaved w o source preferences options session st bytes) :
      Ending w o source preferences options session st (.error e) []
  | solution (e : CommandError) {first : ByteArray}
      (hsaved : SolutionSaved w o source preferences options session st first) :
      Ending w o source preferences options session st (.error e) [first]
  | unreported (e : CommandError) {path : String} {first second : ByteArray}
      (hsaved : SolutionSaved w o source preferences options session st first)
      (hreport : options.reportFile? preferences = some path) :
      Ending w o source preferences options session st (.error e) [first, second]
  | complete {plan : Plan} {seed : UInt64} {stamp : Stamp} {made : Generated plan.size}
      {reports : List ByteArray}
      (hsaved : SolutionSaved w o source preferences options session st
        made.solution.toCsv.toUTF8)
      (hmade : Generates w o source preferences options session st plan seed stamp made)
      (hlength : reports.length = (options.reportFile? preferences).toList.length)
      (hreports : ∀ bytes ∈ reports, ReportBytes plan seed stamp made.tally bytes) :
      Ending w o source preferences options session st (.ok ())
        ([made.solution.toCsv.toUTF8, made.puzzle.toCsv.toUTF8] ++ reports)

/-- A session that failed before it was through with the puzzle ends the command. -/
theorem Making.ending {g : Generator σ ρ} {st₁ : ω} {e : CommandError} {texts : List ByteArray}
    (hbegun : Begun w o source preferences options session st plan seed stamp g st₁)
    (h : Making w o source.dice plan (options.solutionFile preferences) g st₁ (.error e) texts) :
    Ending w o source preferences options session st (.error e) texts := by
  cases h with
  | nothing e hnone =>
    refine .nothing e ?_
    rintro bytes ⟨plan', seed', stamp', g', st', hbegun', solution, g'', hsolution, hsaved, -⟩
    obtain ⟨rfl, rfl, rfl, rfl, rfl⟩ := hbegun.unique hbegun'
    exact hnone ⟨solution, g'', hsolution, hsaved⟩
  | solution e hsolution hsaved =>
    exact .solution e ⟨plan, seed, stamp, g, st₁, hbegun, _, _, hsolution, hsaved, rfl⟩

/-- The files that the command is to write, in the order in which it writes them. -/
def outputs (preferences : Preferences) (options : GenerateOptions) : List String :=
  [options.solutionFile preferences, options.puzzleFile preferences] ++
    (options.reportFile? preferences).toList

theorem runGenerate_ending (hv : w.Shows named view) (o : Oracle σ) (source : Random.Source ρ)
    (preferences : Preferences) (options : GenerateOptions) (session : σ) (st : ω) :
    ∃ outcome session' st', runGenerate w o source preferences options session st =
        ((outcome, session'), st') ∧
      ∃ texts, view st' = View.writingAll named (view st) (outputs preferences options) texts ∧
        Ending w o source preferences options session st outcome texts := by
  unfold runGenerate
  cases hplan : options.plan preferences with
  | error e =>
    refine ⟨_, _, st, bind_of_error rfl _, [], rfl, .nothing _ ?_⟩
    rintro bytes ⟨plan, seed, stamp, g, st', hbegun, -⟩
    cases hplan.symm.trans hbegun.plan_eq
  | ok plan =>
    obtain ⟨seed, st₁, hseed, hview⟩ := chooseSeed_view hv options.seed session st
    rw [bind_of_ok (expect_ok _ plan session st), bind_of_ok hseed]
    rcases hstart : Generation.start o plan session with ⟨e | tally, loaded⟩
    · rw [bind_of_ok (consult_run_of_eq st₁ hstart)]
      refine ⟨_, _, st₁, bind_of_error rfl _, [], hview, .nothing _ ?_⟩
      rintro bytes ⟨plan', seed', stamp, g, st', hbegun, -⟩
      obtain rfl : plan = plan' := Except.ok.inj (hplan.symm.trans hbegun.plan_eq)
      cases hstart.symm.trans hbegun.start_eq
    · let g : Generator σ ρ := ⟨loaded, source.ofSeed seed, tally⟩
      let stamp := (w.stamp st₁).1
      let st₂ := (w.stamp st₁).2
      have hstamp : view st₂ = view st :=
        World.stamp_keeps (hv.freshId (view st)) (hv.time (view st)) st₁ hview
      have hbegun : Begun w o source preferences options session st plan seed stamp g st₂ :=
        ⟨hplan, congrArg Prod.fst hseed, hstart, by rw [hseed]; rfl, rfl⟩
      rw [bind_of_ok (consult_run_of_eq st₁ hstart), bind_of_ok (expect_ok _ tally loaded st₁),
        bind_of_ok (outside_apply w.stamp loaded st₁)]
      obtain ⟨outcome, session₃, st₃, hmake, texts, hwritten, hmaking⟩ := makeFiles_making hv o
        source plan seed tally (options.solutionFile preferences) (options.puzzleFile preferences)
        (options.reportFile? preferences).toList loaded st₂
      rw [hstamp] at hwritten
      rcases outcome with e | ⟨puzzle, tally'⟩
      · exact ⟨_, _, st₃, bind_of_error (releasing_of_error hmake) _, texts, hwritten,
          hmaking.ending hbegun⟩
      cases hmaking with
      | @both q puzzle g' g'' hsolution hsaved hpuzzle =>
        have hfirst : SolutionSaved w o source preferences options session st q.toCsv.toUTF8 :=
          ⟨plan, seed, stamp, g, st₂, hbegun, q, g', hsolution, hsaved, rfl⟩
        let made : Generated plan.size :=
          ⟨q, puzzle, { g''.tally with givens := puzzle.filledCount }⟩
        let texts := [made.solution.toCsv.toUTF8, made.puzzle.toCsv.toUTF8]
        have hmade : Generates w o source preferences options session st plan seed stamp made :=
          ⟨g, st₂, _, hbegun, Generation.generate_of_steps hsolution hpuzzle⟩
        let st₄ := (w.elapsed st₃).2
        have helapsed : view st₄ = view st₃ := hv.elapsed (view st₃) st₃ rfl
        rw [bind_of_ok (releasing_of_ok hmake)]
        dsimp only
        rw [bind_of_ok (outside_apply w.elapsed session₃ st₃),
          bind_of_ok (consult_apply _ session₃ st₄)]
        -- whatever becomes of the report, it comes after these two texts
        have hall {st₅ : ω} (reports : List ByteArray) (hreports : view st₅ =
            View.writingAll named (view st₄) (options.reportFile? preferences).toList reports) :
            view st₅ = View.writingAll named (view st) (outputs preferences options)
              (texts ++ reports) := by
          have hboth := helapsed.trans
            (hwritten.trans (View.writingAll_nil _ (options.reportFile? preferences).toList))
          rw [hreports, hboth]
          rfl
        cases hreport : options.reportFile? preferences with
        | none =>
          rw [hreport] at hall
          exact ⟨_, _, st₄, rfl, texts ++ [], hall [] (View.writingAll_nil _ _).symm,
            .complete hfirst hmade (by rw [hreport]; rfl) (List.forall_mem_nil _)⟩
        | some path =>
          rw [hreport] at hall
          obtain ⟨outcome, st₅, hrun, hcases⟩ := writeReport_view hv path
            (.ofTally plan seed made.tally stamp.id (w.elapsed st₃).1 stamp.time)
            (o.release session₃).2 st₄
          rcases hcases with ⟨⟨e, rfl⟩, hsame⟩ | ⟨rfl, text, hprint, hadded⟩
          · have hboth := hall [] hsame
            rw [List.append_nil] at hboth
            exact ⟨_, _, st₅, hrun, texts, hboth, .unreported _ hfirst hreport⟩
          · have hbytes : ReportBytes plan seed stamp made.tally text.toUTF8 :=
              ⟨(w.elapsed st₃).1, text, hprint, rfl⟩
            exact ⟨_, _, st₅, hrun, texts ++ [text.toUTF8], hall [text.toUTF8] hadded,
              .complete hfirst hmade (by rw [hreport]; rfl) (List.forall_mem_singleton.2 hbytes)⟩

/-- A text was written for each file exactly when the command succeeded. -/
theorem Ending.length {outcome : Except CommandError Unit} {texts : List ByteArray}
    (h : Ending w o source preferences options session st outcome texts) :
    texts.length ≤ (outputs preferences options).length ∧
      (outcome = .ok () ↔ texts.length = (outputs preferences options).length) := by
  have houtputs : (outputs preferences options).length =
      2 + (options.reportFile? preferences).toList.length := by
    rw [outputs, List.length_append]
    rfl
  rw [houtputs]
  cases h with
  | nothing e hnone => exact ⟨Nat.zero_le _, nofun, fun h => absurd h.symm (by simp)⟩
  | solution e hsaved =>
    rw [List.length_singleton]
    exact ⟨by omega, nofun, fun h => absurd h (by omega)⟩
  | unreported e hsaved hreport =>
    rw [hreport]
    exact ⟨Nat.le_succ 2, nofun, fun h => absurd h (Nat.succ_ne_self 2).symm⟩
  | complete hsaved hmade hlength hreports =>
    rw [List.length_append, hlength]
    exact ⟨Nat.le_refl _, fun _ => rfl, fun _ => rfl⟩

/-- The first text is that of the solution. -/
theorem Ending.head?_iff {outcome : Except CommandError Unit} {texts : List ByteArray}
    (h : Ending w o source preferences options session st outcome texts) (bytes : ByteArray) :
    texts.head? = some bytes ↔ SolutionSaved w o source preferences options session st bytes := by
  have hfirst {first : ByteArray}
      (hsaved : SolutionSaved w o source preferences options session st first) :
      some first = some bytes ↔
        SolutionSaved w o source preferences options session st bytes := by
    constructor
    · rintro ⟨⟩
      exact hsaved
    · exact fun h => congrArg some (hsaved.unique h)
  cases h with
  | nothing e hnone => exact ⟨nofun, fun h => absurd h (hnone bytes)⟩
  | solution e hsaved => exact hfirst hsaved
  | unreported e hsaved hreport => exact hfirst hsaved
  | complete hsaved hmade hlength hreports => exact hfirst hsaved

end Ending

/-! ## The command -/

/-- A command that generates, whatever fails on the way. It has written the first of its files and
left the others as they were, and it has written them all exactly when it succeeds. The solution is
among them exactly when there was one and it could be written, whatever happened to the puzzle.
After a success the files hold the solution and the puzzle that the library generates in the same
session, and a report with the same tally and the stamp that the session got when it began. -/
theorem generate_writes (hv : w.Shows named view) (o : Oracle σ) (source : Random.Source ρ)
    (session : σ) (config : Option String) (options : GenerateOptions) (st : ω) :
    let loaded := Preferences.load w.files config st
    let targets := outputs loaded.1 options
    (targets.map named).Nodup →
      ∃ outcome session' st',
        Request.perform w o source (.run config (.generate options)) session st =
          ((outcome, session'), st') ∧
        ∃ texts, View.Fills named targets texts (view st) (view st') ∧
          (outcome = .ok () ↔ texts.length = targets.length) ∧
          (∀ bytes, texts.head? = some bytes ↔
            SolutionSaved w o source loaded.1 options session loaded.2 bytes) ∧
          (outcome = .ok () → ∃ (plan : Plan) (seed : UInt64) (stamp : Stamp)
            (made : Generated plan.size) (reports : List ByteArray),
              Generates w o source loaded.1 options session loaded.2 plan seed stamp made ∧
              texts = [made.solution.toCsv.toUTF8, made.puzzle.toCsv.toUTF8] ++ reports ∧
              ∀ bytes ∈ reports, ReportBytes plan seed stamp made.tally bytes) := by
  intro loaded targets hdistinct
  obtain ⟨outcome, session', st', hrun, texts, hwritten, hending⟩ :=
    runGenerate_ending hv o source loaded.1 options session loaded.2
  obtain ⟨hle, hlength⟩ := hending.length
  have hfills := View.fills_writingAll hdistinct hle (view loaded.2)
  rw [← hwritten, hv.load_keeps config st] at hfills
  have hperform := (perform_run w o source config (.generate options) session st).trans hrun
  refine ⟨outcome, session', st', hperform, texts, hfills, hlength, hending.head?_iff,
    fun hok => ?_⟩
  cases hending with
  | complete hsaved hmade hlength hreports => exact ⟨_, _, _, _, _, hmade, rfl, hreports⟩
  | _ => cases hok

theorem generate_writes_small :
    let options : GenerateOptions :=
      ⟨some 2, false, some "puzzle.csv", some "solution.csv", some 5, some 1, none⟩
    let desk : Desk := ⟨Store.empty, ""⟩
    ∃ session desk', Request.perform World.ofDesk Oracle.exhaustive Random.streamSource
        (.run none (.generate options)) [] desk = ((.ok (), session), desk') ∧
      ∃ (plan : Plan) (seed : UInt64) (stamp : Stamp) (made : Generated plan.size),
        Generates World.ofDesk Oracle.exhaustive Random.streamSource .usual options [] desk plan
          seed stamp made ∧
        desk'.view.content (Store.named "solution.csv") = some made.solution.toCsv.toUTF8 ∧
        desk'.view.content (Store.named "puzzle.csv") = some made.puzzle.toCsv.toUTF8 := by
  intro options desk
  let paths := ["solution.csv", "puzzle.csv"]
  have hplain : ∀ path ∈ paths, Store.Plain path := by decide
  have hroom : desk.store.Room paths := by
    refine ⟨rfl, ?_⟩
    simp only [paths, List.forall_mem_cons]
    exact ⟨nofun, nofun, nofun⟩
  have hsave : ∀ path ∈ paths, ∀ (text : String) (desk : Desk), desk.store.Room paths →
      (World.ofDesk.files.save path text desk).1 = .ok () ∧
        (World.ofDesk.files.save path text desk).2.store.Room paths := by
    intro path hpath text desk hroom
    rw [FileAccess.save_of_parent (hplain path hpath).parent]
    exact (World.ofDesk_writable (hplain path hpath) hpath).write text.toUTF8 desk hroom
  have hdrawn : Pair.small.Holds
      (Generation.drawnNext Random.streamSource.dice ⟨.small, false, 1⟩
        (Random.streamSource.ofSeed 5)) := by
    decide +kernel
  have hplan : options.plan .usual = .ok ⟨.small, false, 1⟩ := rfl
  obtain ⟨session, desk', hrun⟩ : ∃ session desk', runGenerate World.ofDesk Oracle.exhaustive
      Random.streamSource .usual options [] desk = ((.ok (), session), desk') := by
    obtain ⟨session, desk', hrun, -⟩ := runGenerate_succeeds Oracle.exhaustive_conforms rfl hplan
      (by decide) rfl ⟨Pair.small, Pair.small_isSolution, hdrawn⟩ rfl (Action.keeps_pure _)
      (World.stamp_keeps (Action.keeps_pure _) (Action.keeps_pure _)) (Action.keeps_pure _) hsave
      hroom
    exact ⟨session, desk', hrun⟩
  have hperform := (perform_run World.ofDesk Oracle.exhaustive Random.streamSource none
    (.generate options) [] desk).trans hrun
  obtain ⟨outcome, session', desk'', hrun', texts, hfills, -, -, hsuccess⟩ :=
    generate_writes World.ofDesk_shows Oracle.exhaustive Random.streamSource [] none options desk
      (by decide)
  rw [hperform] at hrun'
  cases hrun'
  obtain ⟨plan, seed, stamp, made, reports, hmade, rfl, -⟩ := hsuccess rfl
  obtain ⟨hsolution, hothers⟩ := List.forall₂_cons.1 hfills.held
  obtain ⟨hpuzzle, -⟩ := List.forall₂_cons.1 hothers
  exact ⟨session, desk', hperform, plan, seed, stamp, made, hmade, hsolution, hpuzzle⟩

end Command

end TwinSudoku
