import Mathlib.Data.List.TakeWhile
import TwinSudoku.Oracle.Incremental
import TwinSudoku.Proofs.Oracle.Exhaustive

/-!
# Sessions on a procedure that decides right

A session on a search procedure is told to load, to solve and to be released in any order. What it
answers depends on the clauses loaded before, on the literals assumed for that one query, and on
whether there was a release.

* `ModelLiterals.holds`: the model read off a list of literals makes all of them true.
* `Backend.exhaustive`: a procedure that tries all lists of literals, of use for a proof only. It
  decides right (`Backend.exhaustive_decides`).
* `Session.incremental_conforms`: the answers of such a session are right, so that it is one of the
  oracles that solving and generating sessions rely on. It begins with nothing loaded
  (`Session.holding_fresh`).
* `Session.Act`, `Session.after`: the acts that a session is given, and the session after them.
* `Session.History`: a session whose acts hold no release, and one that was released in between.
  Each act leads from such a session to such a session (`History.obey`).
* `Session.after_acts_answers`: the answers and the counters of a session after any acts.
-/

namespace TwinSudoku

/-! ## Models from literals -/

/-- What a list of literals without opposites asserts is true in its model. -/
theorem ModelLiterals.holds {literals : List Int} {clauses : List Clause} {assumptions : List Int}
    (h : ModelLiterals literals clauses assumptions) {l : Int} (hl : l ∈ literals) :
    Literal.Holds (Model.ofLiterals literals).assignment l := by
  have hopposite := h.consistent l hl
  rw [Literal.Holds, Bool.eq_iff_iff, Model.assignment_eq_true, Model.mem_ofLiterals,
    decide_eq_true_eq]
  constructor
  · rintro ⟨hpos, hmem⟩
    by_contra hneg
    have heq : (l.natAbs : Int) = -l := by omega
    rw [heq] at hmem
    exact hopposite hmem
  · intro hpos
    have heq : (l.natAbs : Int) = l := by omega
    rw [heq]
    exact ⟨by omega, hl⟩

theorem ModelLiterals.satisfies {literals : List Int} {clauses : List Clause}
    {assumptions : List Int} (h : ModelLiterals literals clauses assumptions) :
    Satisfies (Model.ofLiterals literals).assignment clauses ∧
      Meets (Model.ofLiterals literals).assignment assumptions := by
  refine ⟨fun c hc => ?_, fun l hl => h.holds (h.assumptions l hl)⟩
  obtain ⟨l, hlc, hl⟩ := h.clauses c hc
  exact ⟨l, hlc, h.holds hl⟩

instance (literals : List Int) (clauses : List Clause) (assumptions : List Int) :
    Decidable (ModelLiterals literals clauses assumptions) :=
  decidable_of_iff ((∀ l ∈ literals, -l ∉ literals) ∧
      (∀ c ∈ clauses, ∃ l ∈ c, l ∈ literals) ∧ ∀ l ∈ assumptions, l ∈ literals)
    ⟨fun h => ⟨h.1, h.2.1, h.2.2⟩, fun h => ⟨h.consistent, h.clauses, h.assumptions⟩⟩

/-! ## A procedure that tries all models -/

/-- The literals of the variables up to `n` that an assignment makes true. -/
def Assignment.literalsUpTo (σ : Assignment) (n : Nat) : List Int :=
  (List.range' 1 n).map fun v => if σ v then (v : Int) else -v

theorem Assignment.mem_literalsUpTo {σ : Assignment} {n : Nat} {l : Int} :
    l ∈ σ.literalsUpTo n ↔ l ≠ 0 ∧ l.natAbs ≤ n ∧ Literal.Holds σ l := by
  rw [literalsUpTo, List.mem_map, Literal.Holds]
  constructor
  · rintro ⟨v, hv, rfl⟩
    rw [List.mem_range'_1] at hv
    cases hσ : σ v with
    | true =>
      rw [if_pos rfl, Int.natAbs_natCast, hσ]
      exact ⟨by omega, by omega, (decide_eq_true (by omega)).symm⟩
    | false =>
      rw [if_neg Bool.false_ne_true, Int.natAbs_neg, Int.natAbs_natCast, hσ]
      exact ⟨by omega, by omega, (decide_eq_false (by omega)).symm⟩
  · rintro ⟨hne, hle, hσ⟩
    refine ⟨l.natAbs, List.mem_range'_1.2 ⟨by omega, by omega⟩, ?_⟩
    rw [hσ]
    by_cases hpos : 0 < l
    · rw [if_pos (decide_eq_true hpos)]
      omega
    · rw [if_neg (by rw [decide_eq_false hpos]; exact Bool.false_ne_true)]
      omega

namespace Backend

/-- The state of a procedure that keeps what it is told. -/
structure Trial where
  clauses : List Clause
  assumed : List Int
  found : Option (List Int)

/-- The lists with one literal of each variable up to `n`. -/
def literalLists (n : Nat) : List (List Int) :=
  (List.range' 1 n).sublists.map fun vs =>
    Assignment.literalsUpTo (fun v => Decidable.decide (v ∈ vs)) n

/-- The procedure that tries all models. -/
def exhaustive : Backend Trial where
  start := ⟨[], [], none⟩
  add c b := { b with clauses := b.clauses ++ [c] }
  assume assumptions b := { b with assumed := assumptions }
  decide b :=
    let n := Oracle.largest (b.clauses.flatten ++ b.assumed)
    let found := (literalLists n).find? fun literals =>
      Decidable.decide (ModelLiterals literals b.clauses b.assumed)
    (.ok found.isSome, { b with found })
  model? b := b.found

theorem literalsUpTo_mem_literalLists (σ : Assignment) (n : Nat) :
    σ.literalsUpTo n ∈ literalLists n := by
  refine List.mem_map.2 ⟨(List.range' 1 n).filter σ, List.mem_sublists.2 List.filter_sublist, ?_⟩
  refine List.map_congr_left fun v hv => ?_
  simp only [List.mem_filter, hv, true_and, decide_eq_true_eq]

/-- An assignment that satisfies clauses without zero literals gives the literals of a model. -/
theorem modelLiterals_literalsUpTo {σ : Assignment} {clauses : List Clause}
    {assumptions : List Int} {n : Nat} (hn : Oracle.largest (clauses.flatten ++ assumptions) ≤ n)
    (hclauses : ∀ c ∈ clauses, 0 ∉ c) (hassumptions : 0 ∉ assumptions)
    (hσ : Satisfies σ clauses) (hmeets : Meets σ assumptions) :
    ModelLiterals (σ.literalsUpTo n) clauses assumptions where
  consistent l hl hopposite := by
    obtain ⟨hne, -, hholds⟩ := Assignment.mem_literalsUpTo.1 hl
    obtain ⟨-, -, hdenied⟩ := Assignment.mem_literalsUpTo.1 hopposite
    rw [Literal.Holds, Int.natAbs_neg, hholds, decide_eq_decide] at hdenied
    omega
  clauses c hc := by
    obtain ⟨l, hl, hholds⟩ := hσ c hc
    have hmem : l ∈ clauses.flatten ++ assumptions :=
      List.mem_append_left _ (List.mem_flatten.2 ⟨c, hc, hl⟩)
    exact ⟨l, hl, Assignment.mem_literalsUpTo.2 ⟨ne_of_mem_of_not_mem hl (hclauses c hc),
      (Oracle.natAbs_le_largest hmem).trans hn, hholds⟩⟩
  assumptions l hl := Assignment.mem_literalsUpTo.2 ⟨ne_of_mem_of_not_mem hl hassumptions,
    (Oracle.natAbs_le_largest (List.mem_append_right _ hl)).trans hn, hmeets l hl⟩

/-- What has been told to the procedure that tries all models. -/
structure Trial.Took (clauses : List Clause) (assumptions : List Int) (b : Trial) : Prop where
  clauses_eq : b.clauses = clauses
  assumed_eq : b.assumed = assumptions
  clauses_ne : ∀ c ∈ clauses, 0 ∉ c
  assumptions_ne : 0 ∉ assumptions

theorem exhaustive_decides : exhaustive.Decides Trial.Took where
  start := ⟨rfl, rfl, List.forall_mem_nil _, List.not_mem_nil⟩
  add hc hb := ⟨congrArg (· ++ [_]) hb.clauses_eq, hb.assumed_eq,
    List.forall_mem_append.2 ⟨hb.clauses_ne, List.forall_mem_singleton.2 hc⟩, hb.assumptions_ne⟩
  assume h hb := ⟨hb.clauses_eq, rfl, hb.clauses_ne, h⟩
  decide := by
    rintro _ _ b ⟨rfl, rfl, hclauses, hassumptions⟩
    refine ⟨_, _, rfl, ⟨rfl, rfl, hclauses, hassumptions⟩, ?_⟩
    dsimp only [exhaustive]
    cases hfind : (literalLists (Oracle.largest (b.clauses.flatten ++ b.assumed))).find?
        fun literals => Decidable.decide (ModelLiterals literals b.clauses b.assumed) with
    | none =>
      refine ⟨⟨nofun, ?_⟩, nofun⟩
      rintro ⟨σ, hσ, hmeets⟩
      have hmodel := modelLiterals_literalsUpTo (Nat.le_refl _) hclauses hassumptions hσ hmeets
      have hnot := List.find?_eq_none.1 hfind _ (literalsUpTo_mem_literalLists σ _)
      exact absurd (decide_eq_true hmodel) hnot
    | some literals =>
      have hmodel : ModelLiterals literals b.clauses b.assumed := by
        simpa using List.find?_some hfind
      exact ⟨⟨fun _ => ⟨_, hmodel.satisfies⟩, fun _ => rfl⟩, fun _ => ⟨literals, rfl, hmodel⟩⟩

end Backend

/-! ## Acts -/

namespace Session

/-- What a session can be told to do. -/
inductive Act
  | load (clauses : List Clause)
  | solve (assumptions : List Int)
  | release
deriving DecidableEq

namespace Act

/-- The literals of the act are literals of variables. -/
def NonZero : Act → Prop
  | load clauses => ∀ c ∈ clauses, 0 ∉ c
  | solve assumptions => 0 ∉ assumptions
  | release => True

/-- The clauses that the acts load. -/
def loaded (acts : List Act) : List Clause :=
  acts.flatMap fun
    | load clauses => clauses
    | _ => []

/-- The number of queries among the acts. -/
def asked (acts : List Act) : Nat :=
  acts.countP fun
    | solve _ => true
    | _ => false

/-- The acts before the first release. -/
def beforeRelease (acts : List Act) : List Act := acts.takeWhile (· != release)

theorem asked_append (acts later : List Act) :
    asked (acts ++ later) = asked acts + asked later := List.countP_append

theorem beforeRelease_of_not_mem {acts : List Act} (h : release ∉ acts) :
    beforeRelease acts = acts := by
  refine List.takeWhile_eq_self_iff.2 fun act hmem => ?_
  exact bne_iff_ne.2 (ne_of_mem_of_not_mem hmem h)

theorem beforeRelease_append_release {acts : List Act} (h : release ∉ acts)
    (later : List Act) : beforeRelease (acts ++ release :: later) = acts := by
  have hne (act : Act) (hmem : act ∈ acts) : (act != release) = true :=
    bne_iff_ne.2 (ne_of_mem_of_not_mem hmem h)
  rw [beforeRelease, List.takeWhile_append_of_pos hne, List.takeWhile_cons_of_neg (by decide),
    List.append_nil]

end Act

open Act

variable {β : Type} {backend : Backend β} {taken : List Clause → List Int → β → Prop}

/-- The session after one more act. -/
def obey (backend : Backend β) (session : Session β) : Act → Session β
  | load clauses => ((Oracle.incremental backend).load clauses session).2
  | solve assumptions => ((Oracle.incremental backend).solve assumptions session).2
  | release => ((Oracle.incremental backend).release session).2

/-- The session after some acts, from its beginning. -/
def after (backend : Backend β) (acts : List Act) : Session β :=
  acts.foldl (obey backend) (fresh backend)

/-! ## Single acts -/

theorem taken_foldl_add (hb : backend.Decides taken) {clauses : List Clause}
    {assumptions : List Int} {b : β} (h : taken clauses assumptions b) {more : List Clause}
    (hmore : ∀ c ∈ more, 0 ∉ c) :
    taken (clauses ++ more) assumptions (more.foldl (fun b c => backend.add c b) b) := by
  induction more generalizing clauses b with
  | nil => rwa [List.append_nil]
  | cons c rest ih =>
    obtain ⟨hc, hrest⟩ := List.forall_mem_cons.1 hmore
    have hnext := ih (hb.add hc h) hrest
    rwa [List.append_assoc] at hnext

/-- A query of a session that is open. Whatever was assumed before is given up. -/
theorem solve_of_taken (hb : backend.Decides taken) {clauses : List Clause} {before : List Int}
    {b : β} (h : taken clauses before b) {assumptions : List Int} (hassumptions : 0 ∉ assumptions)
    (count queries : Nat) :
    ∃ answer b', (Oracle.incremental backend).solve assumptions ⟨some b, count, queries⟩ =
        (.ok answer, ⟨some b', count, queries + 1⟩) ∧
      taken clauses assumptions b' ∧ Oracle.Answers clauses assumptions answer := by
  obtain ⟨satisfiable, b', hdecide, hb', hiff, hmodel⟩ := hb.decide (hb.assume hassumptions h)
  have hsolve : (Oracle.incremental backend).solve assumptions ⟨some b, count, queries⟩ =
      (backend.answer b' (.ok satisfiable), ⟨some b', count, queries + 1⟩) := by
    let decided := backend.decide (backend.assume assumptions b)
    have hdecided : decided = (.ok satisfiable, b') := hdecide
    show (backend.answer decided.2 decided.1,
      (⟨some decided.2, count, queries + 1⟩ : Session β)) = _
    rw [hdecided]
  cases satisfiable with
  | false =>
    have hnone : ¬ Satisfiable clauses assumptions := fun hsat => absurd (hiff.2 hsat) nofun
    exact ⟨none, b', hsolve, hb', hnone⟩
  | true =>
    obtain ⟨literals, hliterals, hls⟩ := hmodel rfl
    refine ⟨some (.ofLiterals literals), b', ?_, hb', hls.satisfies⟩
    rw [hsolve, Backend.answer, hliterals]

/-! ## Right answers -/

/-- The session is open, and its procedure has taken just these clauses. What was assumed last does
not matter. -/
def Holding (taken : List Clause → List Int → β → Prop) (clauses : List Clause)
    (session : Session β) : Prop :=
  ∃ b assumptions, session.solver = some b ∧ taken clauses assumptions b

theorem holding_fresh (hb : backend.Decides taken) : Holding taken [] (fresh backend) :=
  ⟨backend.start, [], rfl, hb.start⟩

/-- A session on a procedure that decides right answers right. -/
theorem incremental_conforms (hb : backend.Decides taken) :
    (Oracle.incremental backend).Conforms (Holding taken) where
  load := by
    rintro clauses ⟨solver, count, queries⟩ more hmore ⟨b, assumptions, rfl, htaken⟩
    exact ⟨_, rfl, _, assumptions, rfl, taken_foldl_add hb htaken hmore⟩
  solve := by
    rintro clauses ⟨solver, count, queries⟩ assumptions hne ⟨b, before, rfl, htaken⟩
    obtain ⟨answer, b', hsolve, htaken', hanswer⟩ := solve_of_taken hb htaken hne count queries
    exact ⟨answer, _, hsolve, ⟨b', assumptions, rfl, htaken'⟩, hanswer⟩

/-! ## All acts -/

/-- A session after some acts. While there is no release among them, the procedure has taken all
clauses loaded. From the first release on, what was counted until then stays. -/
inductive History (taken : List Clause → List Int → β → Prop) : List Act → Session β → Prop
  | opened {acts : List Act} {assumptions : List Int} {b : β} (hopen : release ∉ acts)
      (htaken : taken (loaded acts) assumptions b) :
      History taken acts ⟨some b, (loaded acts).length, asked acts⟩
  | released {acts : List Act} (hopen : release ∉ acts) (later : List Act) :
      History taken (acts ++ release :: later) ⟨none, (loaded acts).length, asked acts⟩

theorem History.obey (hb : backend.Decides taken) {acts : List Act} {session : Session β}
    (h : History taken acts session) {act : Act} (hact : act.NonZero) :
    History taken (acts ++ [act]) (session.obey backend act) := by
  cases h with
  | @opened _ assumptions b hopen htaken =>
    cases act with
    | load more =>
      have hnext : release ∉ acts ++ [load more] := by simpa using hopen
      have htaken' := taken_foldl_add hb htaken hact
      have hloaded : loaded (acts ++ [load more]) = loaded acts ++ more := by
        simp [loaded]
      rw [← hloaded] at htaken'
      have hstep := History.opened hnext htaken'
      rw [hloaded, List.length_append, asked_append] at hstep
      exact hstep
    | solve assumptions' =>
      have hnext : release ∉ acts ++ [solve assumptions'] := by simpa using hopen
      obtain ⟨answer, b', hsolve, htaken', -⟩ := solve_of_taken hb htaken hact
        (loaded acts).length (asked acts)
      have hloaded : loaded (acts ++ [solve assumptions']) = loaded acts := by
        simp [loaded]
      rw [← hloaded] at htaken'
      have hstep := History.opened hnext htaken'
      rw [hloaded, asked_append] at hstep
      rw [Session.obey, hsolve]
      exact hstep
    | release => exact .released hopen []
  | @released acts hopen later =>
    rw [List.append_assoc, List.cons_append]
    have hstep : History taken (acts ++ release :: (later ++ [act]))
        ⟨none, (loaded acts).length, asked acts⟩ := .released hopen (later ++ [act])
    cases act <;> exact hstep

theorem history_after (hb : backend.Decides taken) {acts : List Act}
    (hacts : ∀ act ∈ acts, act.NonZero) : History taken acts (after backend acts) := by
  induction acts using List.reverseRecOn with
  | nil => exact .opened List.not_mem_nil hb.start
  | append_singleton acts act ih =>
    obtain ⟨hbefore, hact⟩ := List.forall_mem_append.1 hacts
    rw [after, List.foldl_append]
    exact (ih hbefore).obey hb (List.forall_mem_singleton.1 hact)

/-- A session on a procedure that decides right, after any acts. It has counted the clauses and
the queries until the first release. While there was none, it loads more clauses, and answers a
query with a model of all clauses loaded and the literals assumed for this query if there is one,
and else with `none`. After a release it refuses to load and to solve, and nothing changes it any
more. -/
theorem after_acts_answers (hb : backend.Decides taken) (acts : List Act)
    (hacts : ∀ act ∈ acts, act.NonZero) :
    let o := Oracle.incremental backend
    let session := after backend acts
    session.clauses = (loaded (beforeRelease acts)).length ∧
      session.queries = asked (beforeRelease acts) ∧
      (session.isReleased = true ↔ release ∈ acts) ∧
      (release ∉ acts →
        (∀ more : List Clause, (∀ c ∈ more, 0 ∉ c) → (o.load more session).1 = .ok ()) ∧
        ∀ assumptions : List Int, 0 ∉ assumptions →
          (Satisfiable (loaded acts) assumptions →
            ∃ m, (o.solve assumptions session).1 = .ok (some m) ∧
              Satisfies m.assignment (loaded acts) ∧ Meets m.assignment assumptions) ∧
          (¬ Satisfiable (loaded acts) assumptions →
            (o.solve assumptions session).1 = .ok none)) ∧
      (release ∈ acts →
        (∀ more, o.load more session = (.error .released, session)) ∧
        (∀ assumptions, o.solve assumptions session = (.error .released, session)) ∧
        o.release session = ((), session)) := by
  intro o session
  have h : History taken acts session := history_after hb hacts
  clear_value session
  cases h with
  | @opened _ assumptions b hopen htaken =>
    rw [beforeRelease_of_not_mem hopen]
    refine ⟨rfl, rfl, ⟨nofun, fun hmem => absurd hmem hopen⟩, fun _ => ⟨fun _ _ => rfl, ?_⟩,
      fun hmem => absurd hmem hopen⟩
    intro assumptions' hne
    obtain ⟨answer, b', hsolve, -, hanswer⟩ := solve_of_taken hb htaken hne
      (loaded acts).length (asked acts)
    rw [hsolve]
    cases answer with
    | none => exact ⟨fun hsat => absurd hsat hanswer, fun _ => rfl⟩
    | some m => exact ⟨fun _ => ⟨m, rfl, hanswer⟩, fun hnot => absurd ⟨_, hanswer⟩ hnot⟩
  | @released acts hopen later =>
    rw [beforeRelease_append_release hopen]
    have hmem : release ∈ acts ++ release :: later :=
      List.mem_append_right _ List.mem_cons_self
    exact ⟨rfl, rfl, ⟨fun _ => hmem, fun _ => rfl⟩, fun hnot => absurd hmem hnot,
      fun _ => ⟨fun _ => rfl, fun _ => rfl, rfl⟩⟩

/-- A query that has no model does not disturb the one that follows it. -/
theorem after_acts_answers_small :
    let acts := [load [[1, 2]], solve [-1, -2], load [[-1]]]
    let session := after Backend.exhaustive acts
    session.clauses = 2 ∧ session.queries = 1 ∧
      (∃ m, ((Oracle.incremental Backend.exhaustive).solve [2] session).1 = .ok (some m) ∧
        Satisfies m.assignment [[1, 2], [-1]] ∧ Meets m.assignment [2]) ∧
      ((Oracle.incremental Backend.exhaustive).solve [1] session).1 = .ok none ∧
      (after Backend.exhaustive (acts ++ [release])).isReleased = true := by
  let acts := [load [[1, 2]], solve [-1, -2], load [[-1]]]
  have hacts : ∀ act ∈ acts ++ [release], act.NonZero := by
    simp only [acts, List.cons_append, List.nil_append, List.forall_mem_cons, NonZero]
    exact ⟨by decide, by decide, by decide, trivial, List.forall_mem_nil _⟩
  obtain ⟨hclauses, hqueries, -, hopen, -⟩ := after_acts_answers Backend.exhaustive_decides acts
    (List.forall_mem_append.1 hacts).1
  obtain ⟨-, -, hreleased, -⟩ := after_acts_answers Backend.exhaustive_decides _ hacts
  have hanswers := (hopen (by decide)).2
  refine ⟨hclauses, hqueries, (hanswers [2] (by decide)).1 ⟨fun v => v == 2, by decide⟩,
    (hanswers [1] (by decide)).2 ?_, hreleased.2 (by decide)⟩
  rintro ⟨σ, hσ, hmeets⟩
  have hdenied : (fun l => Literal.Holds σ l) (-1) := by
    obtain ⟨l, hl, hholds⟩ := hσ [-1] (by decide)
    rwa [List.mem_singleton.1 hl] at hholds
  exact absurd ((hmeets 1 (by decide)).symm.trans hdenied) (by decide)

end Session

end TwinSudoku
