import TwinSudoku.Oracle.Incremental
import TwinSudoku.Search.Completion

/-!
# The search as a procedure for oracles

* `anyModel`: a query is answered with the first completion that the search comes to.
* `firstModel`: a query is answered with the model that comes first when the variables from 1
  to the largest one seen so far are compared in turn and true comes before false.
-/

namespace TwinSudoku.Search

/-- Decides whether there is a completion of what is assumed, found in the given way. -/
def decideBy (finish : Index → Solver → Option ByteArray) (ix : Index) :
    Except String Bool × Index :=
  let ix := ix.reach (ix.assumed.foldl (fun m l => max m l.natAbs) 0)
  let found := ((Solver.start? ix ix.assumed).bind (finish ix)).map (literalsOf ix)
  (.ok found.isSome, { ix with found })

/-- The procedure that finishes a search in the given way. -/
def searchBy (finish : Index → Solver → Option ByteArray) : Backend Index where
  start := .empty
  add c ix := ix.add c
  assume assumptions ix := { ix with assumed := assumptions }
  decide := decideBy finish
  model? := Index.found

def anyModel : Backend Index := searchBy any?

/-- Answers with the model that comes first. -/
def firstModel : Backend Index := searchBy leading?

end TwinSudoku.Search
