import TwinSudoku.Logic.Formula

/-!
# Clauses arranged for search

A search asks again and again what follows from a literal that has just become true. The
index answers from arrays whose positions are literal codes: variable `v` has the codes
`2v` (asserted) and `2v + 1` (denied).

* `Watches`: clauses of at least two literals, two of which are watched. As long as neither of
  them is denied, nothing follows from the clause.
* `Index.add` files a clause by the number of its different literals: none makes the index
  hopeless, one is a unit, two are filed as two implications, and a longer clause is watched.
  A clause with two opposite literals always holds and is dropped.
* `Index.top` is the largest variable seen so far, in a clause or in an assumption.
* The index also remembers which literals queries assume, and the model that was found last.
-/

namespace TwinSudoku.Search

/-- The position of a literal in the arrays of the index. -/
def code (l : Int) : Nat := 2 * l.natAbs + if l < 0 then 1 else 0

/-- The code of the opposite literal. -/
@[inline] def opposite (x : Nat) : Nat := x ^^^ 1

/-- The list filed under a number. -/
@[inline] def filedUnder (table : Array (Array Nat)) (x : Nat) : Array Nat :=
  if h : x < table.size then table[x] else #[]

/-- Lengthens an array of lists so that every number below `n` has its own. -/
def widen (table : Array (Array Nat)) (n : Nat) : Array (Array Nat) :=
  table ++ Array.replicate (n - table.size) #[]

/-! ## Watched clauses -/

/-- Clauses, each with two of its literals watched. -/
structure Watches where
  clauses : Array (Array Nat)
  /-- For each clause, the sum of the two literals watched: it gives one from the other. -/
  sums : Array Nat
  /-- For each literal, the places of the clauses in which it is watched. -/
  places : Array (Array Nat)

/-- One more clause, of which the first two literals given are watched. -/
def Watches.add (w : Watches) (x y : Nat) (clause : Array Nat) : Watches :=
  let ⟨clauses, sums, places⟩ := w
  let place := clauses.size
  let places := places.modify x (·.push place)
  let places := places.modify y (·.push place)
  ⟨clauses.push clause, sums.push (x + y), places⟩

/-! ## The index -/

/-- A list of clauses, arranged by literal. -/
structure Index where
  /-- The largest variable seen so far. -/
  top : Nat
  /-- For each literal, the literals that hold whenever it does. -/
  implied : Array (Array Nat)
  /-- The clauses of three or more literals. -/
  watches : Watches
  /-- The literals that must hold. -/
  units : Array Nat
  /-- There is an empty clause. -/
  hopeless : Bool
  /-- The literals that queries assume. -/
  assumed : List Int
  /-- The literals of the model found last. -/
  found : Option (List Int)

namespace Index

/-- The index of no clauses. -/
def empty : Index := ⟨0, #[], ⟨#[], #[], #[]⟩, #[], false, [], none⟩

/-- Makes room for the variables up to `v`. -/
def reach (ix : Index) (v : Nat) : Index :=
  let ⟨top, implied, ⟨clauses, sums, places⟩, units, hopeless, assumed, found⟩ := ix
  if v ≤ top ∧ 2 * v + 2 ≤ implied.size then
    ⟨top, implied, ⟨clauses, sums, places⟩, units, hopeless, assumed, found⟩
  else
    ⟨max top v, widen implied (2 * v + 2), ⟨clauses, sums, widen places (2 * v + 2)⟩, units,
      hopeless, assumed, found⟩

/-- Files a clause. -/
def add (ix : Index) (clause : Clause) : Index :=
  let literals := clause.eraseDups
  let ix := ix.reach (literals.foldl (fun m l => max m l.natAbs) 0)
  if literals.any fun l => literals.contains (-l) then ix
  else
    let ⟨top, implied, watches, units, hopeless, assumed, found⟩ := ix
    match literals.map code with
    | [] => ⟨top, implied, watches, units, true, assumed, found⟩
    | [x] => ⟨top, implied, watches, units.push x, hopeless, assumed, found⟩
    | [x, y] =>
      let implied := implied.modify (opposite x) (·.push y)
      let implied := implied.modify (opposite y) (·.push x)
      ⟨top, implied, watches, units, hopeless, assumed, found⟩
    | x :: y :: rest =>
      ⟨top, implied, watches.add x y (x :: y :: rest).toArray, units, hopeless, assumed, found⟩

end Index

end TwinSudoku.Search
