import TwinSudoku.Oracle.Basic

/-!
# Oracles that follow a script

`Oracle.scripted` answers each query with the next answer of a list, whatever the clauses and
the assumptions are. When the list is used up, queries are answered as unsatisfiable.
-/

namespace TwinSudoku

/-- The answers that are still to be given. -/
structure Script where
  /-- The failure of every attempt to load clauses, if there is one. -/
  loadFailure : Option OracleError
  answers : List (Except OracleError (Option Model))

def Oracle.scripted : Oracle Script where
  load _ := fun script =>
    match script.loadFailure with
    | some e => (.error e, script)
    | none => (.ok (), script)
  solve _ := fun script =>
    match script.answers with
    | [] => (.ok none, script)
    | answer :: rest => (answer, { script with answers := rest })
  release := pure ()

end TwinSudoku
