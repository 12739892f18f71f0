import Mathlib.Logic.Function.Basic
import TwinSudoku.Pair.Csv
import TwinSudoku.Proofs.Numbering.Order
import TwinSudoku.Proofs.Pair.Tables
import TwinSudoku.Proofs.Rules.Solutions
import TwinSudoku.Proofs.Runs

/-!
# Changes of a pair

A pair cannot have the wrong shape, and an operation that is refused gives no pair. Here the same
operations are carried out on two tables of numbers, of which nothing is known. They look a cell up
before they store a value, and a refused one leaves what was stored until then.

* `Boards`: the tables of the two boards, with `Boards.store` for one cell.
* `Change`: the operations. `Change.make` has them done by the operations of `Pair`,
  `Change.carryOut` does them on the tables.
* `Change.carryOut_board`, `Change.mapM_carryOut`: on the tables of a pair one operation, and any
  number of them, leads to the tables of the pair that the operations of `Pair` lead to.
* `Change.carryOut_eq_error_iff`: which operations are refused, with the tables as they were.
* `changes_keep_boards`: from the empty pair, after any operations, refused ones among them.
-/

namespace TwinSudoku

/-- Why an operation on a pair is refused. -/
inductive Refusal
  | input (cause : InputError)
  | misuse (cause : Misuse)

/-! ## Tables of the boards -/

/-- The rows of both boards, of any shape. -/
abbrev Boards := Board → List (List Nat)

namespace Boards

def empty (s : Size) : Boards := fun _ => List.replicate s.side (List.replicate s.side 0)

/-- What the tables hold at the position of a cell, if they have it. -/
def value? (t : Boards) (c : Cell) : Option Nat := (t c.board)[c.row]?.bind (·[c.col]?)

/-- The tables with a value put at the position of a cell. -/
def put (t : Boards) (c : Cell) (v : Nat) : Boards :=
  Function.update t c.board ((t c.board).modify c.row (·.set c.col v))

/-- Stores a value at a position that the tables have. -/
def store (c : Cell) (v : Nat) : Run Boards Refusal Unit := do
  let t ← get
  if (t.value? c).isSome then set (t.put c v) else throw (.misuse .beyondBoards)

def storeDigit (s : Size) (c : Cell) (d : Nat) : Run Boards Refusal Unit :=
  if 1 ≤ d ∧ d ≤ s.side then store c d else throw (.misuse (.digitRefused d c))

/-- Stores the digit that a variable stands for. -/
def storeVariable (s : Size) (v : Nat) : Run Boards Refusal Unit :=
  match s.meaningOf v with
  | .error cause => throw (.misuse cause)
  | .ok (c, d) => storeDigit s c d

def ofTables (a b : List (List Nat)) : Boards
  | .a => a
  | .b => b

def replace (s : Size) (a b : List (List Nat)) : Run Boards Refusal Unit :=
  match (Pair.boardDefect? s 0 a).or (Pair.boardDefect? s s.side b) with
  | some defect => throw (.input defect)
  | none => set (ofTables a b)

def replaceRows (s : Size) (rows : List (List Nat)) : Run Boards Refusal Unit :=
  if rows.length ≠ 2 * s.side then throw (.input (.rowCount (2 * s.side) rows.length))
  else replace s (rows.take s.side) (rows.drop s.side)

end Boards

/-! ## Operations -/

/-- An operation on a pair that is kept in one place. -/
inductive Change
  | fresh
  | ofRows (rows : List (List Nat))
  | ofBoards (a b : List (List Nat))
  | ofCsv (text : String)
  | set (c : Cell) (d : Nat)
  | clear (c : Cell)
  | clearAll
  | write (m : Model)

namespace Change

variable {s : Size}

/-- The pair that an operation gives. -/
def apply (p : Pair s) : Change → Except Refusal (Pair s)
  | fresh => .ok (.empty s)
  | ofRows rows => (Pair.ofRows s rows).mapError .input
  | ofBoards a b => (Pair.ofBoards s a b).mapError .input
  | ofCsv text => (Pair.ofCsv s text).mapError .input
  | set c d => (p.set c d).mapError .misuse
  | clear c => (p.clear c).mapError .misuse
  | clearAll => .ok (.empty s)
  | write m => .ok (p.write m)

/-- The pair that an operation gives takes the place of the one before. -/
def make (change : Change) : Run (Pair s) Refusal Unit := do
  match change.apply (← get) with
  | .ok p => MonadStateOf.set p
  | .error e => throw e

/-- The operation on the tables of the boards. -/
def carryOut (s : Size) : Change → Run Boards Refusal Unit
  | fresh => MonadStateOf.set (Boards.empty s)
  | ofRows rows => Boards.replaceRows s rows
  | ofBoards a b => Boards.replace s a b
  | ofCsv text =>
    match Csv.table s text.toList with
    | .error defect => throw (.input defect)
    | .ok rows => Boards.replaceRows s rows
  | set c d => Boards.storeDigit s c d
  | clear c => Boards.store c 0
  | clearAll => modify fun t g => (t g).map fun values => values.map fun _ => 0
  -- were one of the digits refused, those before it would stay in the tables
  | write m => (m.trueVariables.filter (s.HasVariable ·)).forM (Boards.storeVariable s)

/-- The operations that are refused, and why. -/
inductive Refused (s : Size) : Change → Refusal → Prop
  | rows {rows : List (List Nat)} {defect : InputError}
      (h : Pair.rowsDefect? s rows = some defect) : Refused s (.ofRows rows) (.input defect)
  | boards {a b : List (List Nat)} {defect : InputError}
      (h : (Pair.boardDefect? s 0 a).or (Pair.boardDefect? s s.side b) = some defect) :
      Refused s (.ofBoards a b) (.input defect)
  | text {text : String} {defect : InputError} (h : Pair.ofCsv s text = .error defect) :
      Refused s (.ofCsv text) (.input defect)
  | digit {c : Cell} {d : Nat} (hd : d ∉ s.digits) :
      Refused s (.set c d) (.misuse (.digitRefused d c))
  | cell {c : Cell} {d : Nat} (hd : d ∈ s.digits) (hc : ¬ c.Inside s) :
      Refused s (.set c d) (.misuse .beyondBoards)
  | clear {c : Cell} (hc : ¬ c.Inside s) : Refused s (.clear c) (.misuse .beyondBoards)

end Change

namespace Boards

/-- The tables are those of the pair. They have the shape of boards, and the pair as a whole is read
as they are: its filled cells, in order, are those where they hold no zero. -/
structure Represents {s : Size} (t : Boards) (p : Pair s) : Prop where
  board_eq : p.board = t
  isBoard : ∀ g, Pair.IsBoard s (t g)
  ordered : p.filled.Pairwise Cell.Before
  mem_filled : ∀ c, c ∈ p.filled ↔ ∃ d, d ≠ 0 ∧ t.value? c = some d
  length_filled : p.filledCount = p.filled.length
  countP_values : (t .a ++ t .b).flatten.countP (· != 0) = p.filledCount
  isComplete_iff : p.isComplete ↔ ∀ c, t.value? c ≠ some 0

/-- An operation that is refused leaves the tables as they are, and one that sets or clears a cell
changes no other cell. -/
structure Guarded (s : Size) (t : Boards) : Prop where
  refused : ∀ change e t',
    Change.carryOut s change t = (.error e, t') ↔ change.Refused s e ∧ t' = t
  set : ∀ c d t', (Change.set c d).carryOut s t = (.ok (), t') →
    ∀ e, t'.value? e = if e = c then some d else t.value? e
  clear : ∀ c t', (Change.clear c).carryOut s t = (.ok (), t') →
    ∀ e, t'.value? e = if e = c then some 0 else t.value? e

end Boards

/-! ## Pairs -/

theorem Cell.pairwise_all (s : Size) : (Cell.all s).Pairwise Cell.Before := by
  refine List.pairwise_map.2 (List.pairwise_lt_range.imp_of_mem fun {i j} hi hj hij => ?_)
  rw [← place_lt_place_iff (s := s) ofPlace_inside ofPlace_inside,
    place_ofPlace (List.mem_range.1 hi), place_ofPlace (List.mem_range.1 hj)]
  exact hij

namespace Pair

variable {s : Size} {p q : Pair s} {c : Cell} {d : Nat} {cause : Misuse}

theorem set_eq_ok_iff : p.set c d = .ok q ↔
    d ∈ s.digits ∧ c.Inside s ∧ ∀ e, q.digit e = if e = c then d else p.digit e := by
  rw [set, Size.mem_digits]
  by_cases hd : 1 ≤ d ∧ d ≤ s.side
  · by_cases hc : c.Inside s
    · rw [dif_pos hd, dif_pos hc, and_iff_right hd, and_iff_right hc]
      constructor
      · intro h
        cases h
        exact fun e => digit_put p hc _
      · exact fun h => congrArg Except.ok (ext_digit fun e _ => by rw [digit_put, h])
    · rw [dif_pos hd, dif_neg hc]
      exact ⟨nofun, fun h => absurd h.2.1 hc⟩
  · rw [dif_neg hd]
    exact ⟨nofun, fun h => absurd h.1 hd⟩

theorem set_eq_error_iff : p.set c d = .error cause ↔
    d ∉ s.digits ∧ cause = .digitRefused d c ∨
      d ∈ s.digits ∧ ¬ c.Inside s ∧ cause = .beyondBoards := by
  rw [set, Size.mem_digits]
  by_cases hd : 1 ≤ d ∧ d ≤ s.side
  · by_cases hc : c.Inside s <;> simp [hd, hc, eq_comm]
  · simp [hd, eq_comm]

theorem clear_eq_ok_iff : p.clear c = .ok q ↔
    c.Inside s ∧ ∀ e, q.digit e = if e = c then 0 else p.digit e := by
  rw [clear]
  by_cases hc : c.Inside s
  · rw [if_pos hc, and_iff_right hc]
    constructor
    · intro h
      cases h
      exact digit_without p c
    · exact fun h => congrArg Except.ok (ext_digit fun e _ => by rw [digit_without, h])
  · rw [if_neg hc]
    exact ⟨nofun, fun h => absurd h.1 hc⟩

theorem clear_eq_error_iff :
    p.clear c = .error cause ↔ ¬ c.Inside s ∧ cause = .beyondBoards := by
  by_cases hc : c.Inside s <;> simp [clear, hc, eq_comm]

theorem pairwise_filled (p : Pair s) : p.filled.Pairwise Cell.Before :=
  (Cell.pairwise_all s).filter _

end Pair

/-! ## Pairs and their tables -/

namespace Boards

variable {s : Size}

theorem empty_eq : Boards.empty s = (Pair.empty s).board := by
  funext g
  simp [Boards.empty, Pair.board, Pair.digit_empty]

theorem value?_board (p : Pair s) (c : Cell) :
    value? p.board c = if c.Inside s then some (p.digit c) else none := by
  split
  · next hc => exact p.getElem?_board hc
  · next hc =>
    rw [Cell.Inside, not_and] at hc
    by_cases hrow : c.row < s.side
    · simp [value?, Pair.board, hrow, Nat.le_of_not_lt (hc hrow)]
    · simp [value?, Pair.board, Nat.le_of_not_lt hrow]

theorem value?_board_of_digit {p q : Pair s} {c : Cell} {v : Nat} (hc : c.Inside s)
    (h : ∀ e, q.digit e = if e = c then v else p.digit e) (e : Cell) :
    value? q.board e = if e = c then some v else value? p.board e := by
  rw [value?_board, value?_board, h]
  by_cases he : e = c
  · rw [if_pos he, if_pos he, if_pos (he ▸ hc)]
  · rw [if_neg he, if_neg he]

theorem represents_board (p : Pair s) : Represents p.board p where
  board_eq := rfl
  isBoard := p.isBoard_board
  ordered := p.pairwise_filled
  mem_filled c := by
    rw [Pair.mem_filled, value?_board]
    by_cases hc : c.Inside s <;> simp [hc, eq_comm]
  length_filled := p.filledCount_eq_length_filled
  countP_values := by
    change p.rows.flatten.countP (· != 0) = _
    rw [Pair.flatten_rows, List.countP_map, Pair.filledCount_eq_length_filled, Pair.filled,
      ← List.countP_eq_length_filter]
    rfl
  isComplete_iff := by
    rw [Pair.isComplete_iff]
    refine forall_congr' fun c => ?_
    rw [value?_board]
    by_cases hc : c.Inside s <;> simp [hc]

theorem put_board (p : Pair s) {c : Cell} (hc : c.Inside s) (v : Fin (s.side + 1)) :
    put p.board c v = (p.put c hc v).board := by
  funext g
  by_cases hg : g = c.board
  · subst hg
    rw [put, Function.update_self]
    -- position by position: the row and the column decide which value is read
    apply List.ext_getElem
    · simp [Pair.board]
    · intro r hr hr'
      apply List.ext_getElem
      · by_cases hrow : c.row = r <;> simp [Pair.board, hrow]
      · intro k hk hk'
        by_cases hrow : c.row = r <;> by_cases hcol : c.col = k <;>
          simp [Pair.board, Pair.digit_put, Cell.ext_iff, @eq_comm _ r, @eq_comm _ k, hrow, hcol]
  · rw [put, Function.update_of_ne hg]
    simp [Pair.board, Pair.digit_put, Cell.ext_iff, hg]

/-- What is left where a pair was to take the place of the tables. -/
def settled (t : Boards) : Except Refusal (Pair s) → Except Refusal Unit × Boards
  | .ok p => (.ok (), p.board)
  | .error e => (.error e, t)

theorem store_board (p : Pair s) (c : Cell) (v : Fin (s.side + 1)) :
    store c v p.board = settled p.board
      (if hc : c.Inside s then .ok (p.put c hc v) else .error (.misuse .beyondBoards)) := by
  change (if (value? p.board c).isSome then (set (put p.board c v) : Run Boards Refusal Unit)
    else throw _) p.board = _
  rw [value?_board]
  by_cases hc : c.Inside s
  · rw [if_pos hc, dif_pos hc, put_board p hc]
    rfl
  · rw [if_neg hc, dif_neg hc]
    rfl

theorem storeDigit_board (p : Pair s) (c : Cell) (d : Nat) :
    storeDigit s c d p.board = settled p.board ((p.set c d).mapError .misuse) := by
  rw [storeDigit, Pair.set]
  by_cases hd : 1 ≤ d ∧ d ≤ s.side
  · rw [if_pos hd, dif_pos hd]
    refine (store_board p c ⟨d, Nat.lt_succ_of_le hd.2⟩).trans ?_
    split <;> rfl
  · rw [if_neg hd, dif_neg hd]
    rfl

theorem store_zero_board (p : Pair s) (c : Cell) :
    store c 0 p.board = settled p.board ((p.clear c).mapError .misuse) := by
  refine (store_board p c 0).trans ?_
  rw [Pair.clear, Pair.without]
  split <;> rfl

/-- Storing the digit of a variable is never refused. -/
theorem storeVariable_board (p : Pair s) {v : Nat} (hv : s.HasVariable v) :
    storeVariable s v p.board = (.ok (), (p.writeVariable v).board) := by
  have hset : p.set (s.cellDigit v).1 (s.cellDigit v).2 = .ok (p.writeVariable v) := by
    rw [Pair.set, dif_pos Size.cellDigit_digit, dif_pos Size.cellDigit_inside,
      Pair.writeVariable, if_pos hv]
  rw [storeVariable, Size.meaningOf, if_pos hv]
  refine (storeDigit_board p (s.cellDigit v).1 (s.cellDigit v).2).trans ?_
  rw [hset]
  rfl

theorem forM_storeVariable_board (vs : List Nat) (p : Pair s) :
    (vs.filter (s.HasVariable ·)).forM (storeVariable s) p.board =
      (.ok (), (vs.foldl Pair.writeVariable p).board) := by
  induction vs generalizing p with
  | nil => rfl
  | cons v rest ih =>
    rw [List.foldl_cons, ← ih]
    by_cases hv : s.HasVariable v
    · rw [List.filter_cons_of_pos (by simpa using hv)]
      exact Run.bind_of_ok (storeVariable_board p hv) _
    · -- the tables pass the number over, the pair takes it and stays as it is
      rw [List.filter_cons_of_neg (by simpa using hv), Pair.writeVariable, if_neg hv]

theorem ofTables_board (p : Pair s) : ofTables (p.board .a) (p.board .b) = p.board := by
  funext g
  cases g <;> rfl

theorem replace_eq (t : Boards) (a b : List (List Nat)) :
    replace s a b t = settled t ((Pair.ofBoards s a b).mapError .input) := by
  cases hdefect : (Pair.boardDefect? s 0 a).or (Pair.boardDefect? s s.side b) with
  | some defect =>
    rw [replace, Pair.ofBoards, hdefect]
    rfl
  | none =>
    -- tables without a defect are those of the pair made from them
    obtain ⟨p, hp⟩ : ∃ p, Pair.ofBoards s a b = .ok p := ⟨_, by rw [Pair.ofBoards, hdefect]⟩
    obtain ⟨rfl, rfl⟩ := Pair.ofBoards_eq_ok_iff.1 hp
    rw [replace, hdefect, hp, ofTables_board]
    rfl

theorem replaceRows_eq (t : Boards) (rows : List (List Nat)) :
    replaceRows s rows t = settled t ((Pair.ofRows s rows).mapError .input) := by
  rw [replaceRows, Pair.ofRows]
  split
  · rfl
  · exact replace_eq t _ _

/-- Clearing all cells of the tables of a pair leaves those of the empty pair. -/
theorem map_zero_board (p : Pair s) (g : Board) :
    ((p.board g).map fun values => values.map fun _ => 0) = (Pair.empty s).board g := by
  obtain ⟨hlen, hrows⟩ := p.isBoard_board g
  calc (p.board g).map (fun values => values.map fun _ => 0)
    _ = (p.board g).map fun _ => List.replicate s.side 0 :=
      List.map_congr_left fun values hvalues => by rw [List.map_const', (hrows values hvalues).1]
    _ = Boards.empty s g := by rw [List.map_const', hlen, Boards.empty]
    _ = (Pair.empty s).board g := by rw [Boards.empty_eq]

end Boards

namespace Change

variable {s : Size}

theorem make_apply (change : Change) (p : Pair s) :
    change.make p = match change.apply p with
      | .ok q => (.ok (), q)
      | .error e => (.error e, p) := by
  change (match change.apply p with
    | .ok q => (MonadStateOf.set q : Run (Pair s) Refusal Unit)
    | .error e => throw e) p = _
  cases change.apply p <;> rfl

theorem carryOut_eq_settled (change : Change) (p : Pair s) :
    change.carryOut s p.board = Boards.settled p.board (change.apply p) := by
  cases change with
  | fresh =>
    change (Except.ok (), Boards.empty s) = _
    rw [Boards.empty_eq]
    rfl
  | ofRows rows => exact Boards.replaceRows_eq p.board rows
  | ofBoards a b => exact Boards.replace_eq p.board a b
  | ofCsv text =>
    rw [carryOut, apply, Pair.ofCsv]
    cases Csv.table s text.toList with
    | error defect => rfl
    | ok rows => exact Boards.replaceRows_eq p.board rows
  | set c d => exact Boards.storeDigit_board p c d
  | clear c => exact Boards.store_zero_board p c
  | clearAll => exact congrArg (Prod.mk (Except.ok ())) (funext (Boards.map_zero_board p))
  | write m => exact Boards.forM_storeVariable_board m.trueVariables p

theorem carryOut_board (change : Change) (p : Pair s) :
    change.carryOut s p.board = Prod.map id Pair.board (change.make p) := by
  rw [carryOut_eq_settled, make_apply]
  cases change.apply p <;> rfl

/-- Operations one after another, refused or not, on the tables of a pair. -/
theorem mapM_carryOut (changes : List Change) (p : Pair s) :
    (changes.mapM fun change => (change.carryOut s).run : StateM Boards _) p.board =
      Prod.map id Pair.board
        ((changes.mapM fun change => change.make.run : StateM (Pair s) _) p) :=
  Action.mapM_view carryOut_board changes p

/-! ## Refused operations -/

theorem apply_eq_error_iff {change : Change} {p : Pair s} {e : Refusal} :
    change.apply p = .error e ↔ change.Refused s e := by
  constructor
  · intro h
    cases change with
    | fresh => cases h
    | ofRows rows =>
      obtain ⟨defect, hdefect, rfl⟩ := mapError_eq_error.1 h
      exact .rows (Pair.ofRows_eq_error_iff.1 hdefect)
    | ofBoards a b =>
      obtain ⟨defect, hdefect, rfl⟩ := mapError_eq_error.1 h
      exact .boards (Pair.ofBoards_eq_error_iff.1 hdefect)
    | ofCsv text =>
      obtain ⟨defect, hdefect, rfl⟩ := mapError_eq_error.1 h
      exact .text hdefect
    | set c d =>
      obtain ⟨cause, hcause, rfl⟩ := mapError_eq_error.1 h
      obtain ⟨hd, rfl⟩ | ⟨hd, hc, rfl⟩ := Pair.set_eq_error_iff.1 hcause
      · exact .digit hd
      · exact .cell hd hc
    | clear c =>
      obtain ⟨cause, hcause, rfl⟩ := mapError_eq_error.1 h
      obtain ⟨hc, rfl⟩ := Pair.clear_eq_error_iff.1 hcause
      exact .clear hc
    | clearAll => cases h
    | write m => cases h
  · intro h
    cases h with
    | rows h => exact mapError_eq_error.2 ⟨_, Pair.ofRows_eq_error_iff.2 h, rfl⟩
    | boards h => exact mapError_eq_error.2 ⟨_, Pair.ofBoards_eq_error_iff.2 h, rfl⟩
    | text h => exact mapError_eq_error.2 ⟨_, h, rfl⟩
    | digit hd => exact mapError_eq_error.2 ⟨_, Pair.set_eq_error_iff.2 (.inl ⟨hd, rfl⟩), rfl⟩
    | cell hd hc =>
      exact mapError_eq_error.2 ⟨_, Pair.set_eq_error_iff.2 (.inr ⟨hd, hc, rfl⟩), rfl⟩
    | clear hc => exact mapError_eq_error.2 ⟨_, Pair.clear_eq_error_iff.2 ⟨hc, rfl⟩, rfl⟩

/-- An operation that is refused leaves the tables of a pair as they were. -/
theorem carryOut_eq_error_iff {change : Change} {p : Pair s} {e : Refusal} {t : Boards} :
    change.carryOut s p.board = (.error e, t) ↔ change.Refused s e ∧ t = p.board := by
  rw [carryOut_eq_settled, ← apply_eq_error_iff (p := p)]
  constructor
  · intro h
    cases hmade : change.apply p with
    | ok q => rw [hmade] at h; cases h
    | error cause => rw [hmade] at h; cases h; exact ⟨rfl, rfl⟩
  · rintro ⟨hmade, rfl⟩
    rw [hmade]
    rfl

theorem carryOut_eq_ok_iff {change : Change} {p : Pair s} {t : Boards} :
    change.carryOut s p.board = (.ok (), t) ↔ ∃ q, change.apply p = .ok q ∧ t = q.board := by
  rw [carryOut_eq_settled]
  constructor
  · intro h
    cases hmade : change.apply p with
    | ok q => rw [hmade] at h; cases h; exact ⟨q, rfl, rfl⟩
    | error cause => rw [hmade] at h; cases h
  · rintro ⟨q, hmade, rfl⟩
    rw [hmade]
    rfl

end Change

namespace Boards

variable {s : Size}

theorem guarded_board (p : Pair s) : Guarded s p.board where
  refused _ _ _ := Change.carryOut_eq_error_iff
  set c d t h := by
    obtain ⟨q, hq, rfl⟩ := Change.carryOut_eq_ok_iff.1 h
    obtain ⟨_, hc, hdigit⟩ := Pair.set_eq_ok_iff.1 (mapError_eq_ok.1 hq)
    exact value?_board_of_digit hc hdigit
  clear c t h := by
    obtain ⟨q, hq, rfl⟩ := Change.carryOut_eq_ok_iff.1 h
    obtain ⟨hc, hdigit⟩ := Pair.clear_eq_ok_iff.1 (mapError_eq_ok.1 hq)
    exact value?_board_of_digit hc hdigit

end Boards

/-! ## Any operations -/

/-- From the empty pair, whatever operations are done one after another and whether they are refused
or not, the replies are the same on the tables of the boards, and the tables are those of the pair.
The next operation changes no more of them than it should. -/
theorem changes_keep_boards (s : Size) (changes : List Change) :
    ∃ (replies : List (Except Refusal Unit)) (p : Pair s) (t : Boards),
      (changes.mapM fun change => change.make.run : StateM (Pair s) _) (Pair.empty s) =
        (replies, p) ∧
      (changes.mapM fun change => (change.carryOut s).run : StateM Boards _) (Boards.empty s) =
        (replies, t) ∧
      t.Represents p ∧ t.Guarded s := by
  cases hrun : (changes.mapM fun change => change.make.run : StateM (Pair s) _)
      (Pair.empty s) with
  | mk replies p =>
    refine ⟨replies, p, p.board, rfl, ?_, Boards.represents_board p, Boards.guarded_board p⟩
    rw [Boards.empty_eq, Change.mapM_carryOut, hrun]
    rfl

end TwinSudoku
