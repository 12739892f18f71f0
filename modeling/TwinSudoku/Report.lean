import TwinSudoku.Generation
import TwinSudoku.Json.Fields
import TwinSudoku.Json.Printer
import TwinSudoku.Json.Reader
import TwinSudoku.Uuid

/-!
# Reports

A report tells of one generating session, as a JSON record.

* `Report.ofTally`: the report of a session; `Report.tally`: the tally that a report gives.
* `Report.print`: the text of a report. Seconds are counted from the epoch, and the least
  number of 64 bits cannot be written, since its opposite is none.
* `Report.ofText?`: the report of a text. All fields are required.
-/

namespace TwinSudoku

/-! ## Durations -/

def Duration.perSecond : Nat := 1000000000

/-- A span of time. -/
structure Duration where
  seconds : UInt64
  nanos : Nat
  nanos_lt : nanos < Duration.perSecond
deriving DecidableEq

namespace Duration

def zero : Duration := ⟨0, 0, by decide⟩

instance : Inhabited Duration := ⟨zero⟩

/-- The span of some seconds and nanoseconds, whole seconds of the latter carried over. -/
def ofParts? (seconds nanos : Nat) : Option Duration :=
  if h : seconds + nanos / perSecond < UInt64.size then
    some ⟨UInt64.ofNatLT _ h, nanos % perSecond, Nat.mod_lt _ (by decide)⟩
  else none

def toJson (d : Duration) : Json :=
  .record [("secs", .ofNat d.seconds.toNat), ("nanos", .ofNat d.nanos)]

/-- A record of two fields and no others. -/
def isPair : Json → Bool
  | .object members => members.length == 2
  | .array items => items.length == 2
  | _ => false

def ofJson? (v : Json) : Option Duration := do
  if !isPair v then none
  match ← v.fields? ["secs", "nanos"] with
  | [some seconds, some nanos] =>
    ofParts? (← seconds.natural? UInt64.size) (← nanos.natural? UInt32.size)
  | _ => none

end Duration

/-! ## Reports -/

/-- What a report tells. -/
structure Report where
  id : Uuid
  seed : UInt64
  k : UInt64
  diagonal : Bool
  clauses : UInt64
  attempts : UInt64
  queries : UInt64
  removed : UInt64
  restored : UInt64
  givens : UInt64
  elapsed : Duration
  /-- The time of the session, in seconds from the epoch. -/
  time : Int64
deriving DecidableEq

/-- Why a report cannot be written. -/
inductive ReportError
  | timeOutOfRange
deriving DecidableEq

def ReportError.message : ReportError → String
  | timeOutOfRange => "The Duration of Timestamp is outside the supported range."

namespace Report

def ofTally (plan : Plan) (seed : UInt64) (tally : Tally) (id : Uuid) (elapsed : Duration)
    (time : Int64) : Report :=
  { id, seed, elapsed, time
    k := UInt64.ofNat plan.size.k
    diagonal := plan.diagonal
    clauses := UInt64.ofNat tally.clauses
    attempts := UInt64.ofNat tally.attempts
    queries := UInt64.ofNat tally.queries
    removed := UInt64.ofNat tally.removed
    restored := UInt64.ofNat tally.restored
    givens := UInt64.ofNat tally.givens }

/-- The tally of a report. Its queries are to be added up, so the sum has to fit 64 bits. -/
def tally (r : Report) : Except Misuse Tally :=
  if r.attempts.toNat + r.removed.toNat + r.restored.toNat < UInt64.size then
    .ok {
      clauses := r.clauses.toNat
      attempts := r.attempts.toNat
      queries := r.queries.toNat
      removed := r.removed.toNat
      restored := r.restored.toNat
      givens := r.givens.toNat }
  else .error .sumTooLarge

def fieldNames : List String :=
  ["puzzle_id", "seed", "k", "diagonal", "clauses", "seed_attempts", "oracle_queries",
    "cells_removed", "cells_restored", "givens", "elapsed", "generated_at"]

def toJson (r : Report) : Json :=
  let counter (n : UInt64) : Json := .ofNat n.toNat
  .record (fieldNames.zip
    [.ofString (String.ofList r.id.written), counter r.seed, counter r.k, .bool r.diagonal,
      counter r.clauses, counter r.attempts, counter r.queries, counter r.removed,
      counter r.restored, counter r.givens, r.elapsed.toJson, .ofInt r.time.toInt])

def print (r : Report) : Except ReportError String :=
  if r.time = Int64.minValue then .error .timeOutOfRange else .ok r.toJson.print

def timeOf? (v : Json) : Option Int64 := do
  let n ← v.integer?
  if Text.least64 ≤ n ∧ n ≤ Text.greatest64 then return Int64.ofInt n else none

def ofJson? (v : Json) : Option Report := do
  match ← v.fields? fieldNames with
  | [some id, some seed, some k, some diagonal, some clauses, some attempts, some queries,
      some removed, some restored, some givens, some elapsed, some time] =>
    return {
      id := ← Uuid.ofText? (← id.string?).toList
      seed := ← seed.word64?
      k := ← k.word64?
      diagonal := ← diagonal.bool?
      clauses := ← clauses.word64?
      attempts := ← attempts.word64?
      queries := ← queries.word64?
      removed := ← removed.word64?
      restored := ← restored.word64?
      givens := ← givens.word64?
      elapsed := ← Duration.ofJson? elapsed
      time := ← timeOf? time }
  | _ => none

def ofText? (text : String) : Option Report := (Json.parse? text).bind ofJson?

end Report

end TwinSudoku
