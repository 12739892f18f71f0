import TwinSudoku.Search.Learning

/-!
# Completing a trail

* `Solver.complete` extends a trail to one that decides every variable, or finds that there is
  none. It chooses one literal after the other, the variables of the greatest weight first and
  each as it was decided last, and learns from every conflict. From time to time it starts
  again with what it has learned.
* `leading?` finds the completion that comes first when variables are compared from 1 upward
  and true comes before false. It goes up the variables and keeps a completion of what is
  decided so far; only where that completion makes a variable false is there a question to ask.
-/

namespace TwinSudoku.Search

/-- A search in progress. -/
structure Solver where
  trail : Trail
  watches : Watches
  weights : Weights

namespace Solver

/-! ## Starting -/

/-- Takes literals to hold on level 0, from position `i` on. -/
def giveFrom (xs : Array Nat) (i : Nat) (t : Trail) : Option Trail :=
  if h : i < xs.size then
    let mark := markOf t.marks xs[i]
    if mark == denied then none
    else if mark == holds then giveFrom xs (i + 1) t
    else giveFrom xs (i + 1) (t.assign xs[i] .given)
  else some t
termination_by xs.size - i

/-- The solver for the clauses of an index, with the assumptions of a query on level 0. -/
def start? (ix : Index) (assumptions : List Int) : Option Solver := do
  if ix.hopeless then none
  let t ← giveFrom ix.units 0 (.blank ix.top)
  let t ← giveFrom (assumptions.map code).toArray 0 t
  return ⟨t, ix.watches, .even ix.top⟩

/-! ## Choosing -/

/-- The undecided variable of the greatest weight among those from `v` on, `n` of them, and the
best one so far. -/
def heaviestFrom (marks : ByteArray) (weights : Weights) :
    (n v : Nat) → (best weight : Nat) → Nat
  | 0, _, best, _ => best
  | n + 1, v, best, weight =>
    if markOf marks (2 * v) == unmarked && (best == 0 || weight < weights.of v) then
      heaviestFrom marks weights n (v + 1) v (weights.of v)
    else heaviestFrom marks weights n (v + 1) best weight

/-- The literal to choose, if a variable is undecided. -/
def choice? (ix : Index) (s : Solver) : Option Nat :=
  let v := heaviestFrom s.trail.marks s.weights ix.top 1 0 0
  if v = 0 then none
  else some (2 * v + (markOf s.trail.habits v).toNat)

/-! ## Searching -/

/-- How a descent ended. -/
inductive Ending
  | complete
  | conflict (clause : Conflict)
  /-- The literal asked for is denied without any choice. -/
  | goalDenied

/-- Chooses at most `fuel` literals, the goal first, until all variables are decided or there
is a conflict. -/
def descend (ix : Index) (goal : Option Nat) : (fuel : Nat) → Solver → Ending × Solver
  | 0, s => (.complete, s)
  | fuel + 1, s =>
    let ⟨trail, watches, weights⟩ := s
    match propagate ix trail watches with
    | (trail, watches, some clause) => (.conflict clause, ⟨trail, watches, weights⟩)
    | (trail, watches, none) =>
      let s : Solver := ⟨trail, watches, weights⟩
      let wanted := if s.trail.level = 0 then goal else none
      match wanted.filter fun x => markOf s.trail.marks x != holds with
      | some x =>
        if markOf s.trail.marks x == denied then (.goalDenied, s)
        else
          let ⟨trail, watches, weights⟩ := s
          descend ix goal fuel ⟨trail.descend x, watches, weights⟩
      | none =>
        match choice? ix s with
        | none => (.complete, s)
        | some x =>
          let ⟨trail, watches, weights⟩ := s
          descend ix goal fuel ⟨trail.descend x, watches, weights⟩

/-- The literal of the highest level, from position `i` on, and the best one so far. -/
def highestFrom (t : Trail) (xs : Array Nat) (i best : Nat) : Nat :=
  if h : i < xs.size then
    highestFrom t xs (i + 1) (if t.levelOf best < t.levelOf xs[i] then xs[i] else best)
  else best
termination_by xs.size - i

/-- Learns from a conflict, and goes back to the level on which the lesson would have counted. -/
def learn (s : Solver) (conflict : Conflict) : Solver :=
  let ⟨trail, watches, weights⟩ := s
  let ⟨x, others, weights⟩ := lessonOf trail watches weights conflict
  match others[0]? with
  | none => ⟨(trail.backTo 0).assign x .given, watches, weights⟩
  | some y =>
    let y := highestFrom trail others 0 y
    let place := watches.clauses.size
    let trail := trail.backTo (trail.levelOf y)
    ⟨trail.assign x (.clause place), watches.add x y (others.push x), weights⟩

def restart (s : Solver) : Solver :=
  let ⟨trail, watches, weights⟩ := s
  ⟨trail.backTo 0, watches, weights⟩

/-- Searches through at most `fuel` conflicts. After `left` of them it starts again, and then
after more and more. -/
def searchWithin (ix : Index) (goal : Option Nat) :
    (fuel left span : Nat) → Solver → Option ByteArray × Solver
  | 0, _, _, s => (none, s)
  | fuel + 1, left, span, s =>
    match descend ix goal (ix.top + 1) s with
    | (.complete, s) => (some s.trail.marks, s.restart)
    | (.goalDenied, s) => (none, s)
    | (.conflict clause, s) =>
      if s.trail.level = 0 then (none, s)
      else
        let s := s.learn clause
        if left = 0 then searchWithin ix goal fuel (span + span / 4) (span + span / 4) s.restart
        else searchWithin ix goal fuel (left - 1) span s

/-- The conflicts before the first new start. -/
def firstSpan : Nat := 100

/-- The marks of a completion in which the goal holds. Each conflict teaches another clause, so
the number of clauses bounds that of conflicts. -/
def complete (ix : Index) (goal : Option Nat) (s : Solver) : Option ByteArray × Solver :=
  searchWithin ix goal (Nat.pow 3 ix.top + 1) firstSpan firstSpan s

/-! ## The first completion -/

/-- Takes a literal to hold on level 0 that follows from what holds there or is consistent
with it. -/
def settle (ix : Index) (s : Solver) (x : Nat) : Solver :=
  let ⟨trail, watches, weights⟩ := s
  let trail := if markOf trail.marks x == unmarked then trail.assign x .given else trail
  match propagate ix trail watches with
  | (trail, watches, _) => ⟨trail, watches, weights⟩

/-- Decides `n` variables from `v` on, each true if there is a completion in which it is; the
marks `known` are those of a completion. -/
def leadFrom (ix : Index) : (n v : Nat) → Solver → (known : ByteArray) → ByteArray
  | 0, _, _, known => known
  | n + 1, v, s, known =>
    if markOf s.trail.marks (2 * v) != unmarked then leadFrom ix n (v + 1) s known
    else if markOf known (2 * v) == holds then leadFrom ix n (v + 1) (s.settle ix (2 * v)) known
    else
      match s.complete ix (some (2 * v)) with
      | (some better, s) => leadFrom ix n (v + 1) (s.settle ix (2 * v)) better
      | (none, s) => leadFrom ix n (v + 1) (s.settle ix (2 * v + 1)) known

end Solver

def any? (ix : Index) (s : Solver) : Option ByteArray := (s.complete ix none).1

/-- The marks of the completion that comes first, from variable 1 upward and true first. -/
def leading? (ix : Index) (s : Solver) : Option ByteArray :=
  match s.complete ix none with
  | (some known, s) => some (s.leadFrom ix ix.top 1 known)
  | (none, _) => none

/-- The literals that hold by the marks of a completion, one of each variable. -/
def literalsOf (ix : Index) (marks : ByteArray) : List Int :=
  (List.range' 1 ix.top).map fun v => if markOf marks (2 * v) == holds then (v : Int) else -v

end TwinSudoku.Search
