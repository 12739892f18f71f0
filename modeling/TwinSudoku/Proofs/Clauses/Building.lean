import TwinSudoku.Proofs.Clauses.Counting
import TwinSudoku.Proofs.Clauses.Solutions
import TwinSudoku.Proofs.Numbering.Givens
import TwinSudoku.Proofs.Numbering.Words
import TwinSudoku.Proofs.Rules.Checking
import TwinSudoku.Proofs.Rules.Solutions

/-!
# Collecting clauses in loops

`ClauseSet.add` puts the labelled clauses of a part behind those that are there and counts them by
their labels. Here the same clauses are collected without labels, in loops over rows, columns,
blocks and digits: a literal is refused where there is no such variable, and the clauses of a family
are counted by how much longer the list has become, although rows and columns take turns.

* `Building.addPart`: the loops for a part.
* `Building.Appends`: some steps append certain clauses, whatever was there, and give a certain
  result. It goes through loops by `Building.appends_forIn`.
* `Building.addPart_apply`: no literal is refused, and the loops do what `ClauseSet.add` does.
* `ClauseSet.parts_compose`: the clauses of several parts are those of each, with their numbers
  and variables; all rules are said as soon as each part is there.
* `Pair.built_models_bijOn_checked`: the loops for all rules and the check on tables, which look at
  the boards in ways of their own, are about the same pairs.
-/

namespace TwinSudoku

open TwinSudoku.Part (Labelled numberOf one once holdsDigit)

/-- The cells of a block that is the `j`-th from the left in the `i`-th band, row by row. -/
def House.blockAt (s : Size) (g : Board) (i j : Nat) : List Cell :=
  (List.range s.k).flatMap fun r => (List.range s.k).map fun c =>
    ⟨g, i * s.k + r, j * s.k + c⟩

theorem House.blockAt_eq {s : Size} {g : Board} {i j : Nat} (hj : j < s.k) :
    blockAt s g i j = block s g (i * s.k + j) := by
  rw [← blockByRows_eq, blockByRows, Size.pack_div hj, Size.pack_mod hj, blockAt]

/-- Adds clauses to a set, unless something is refused. -/
abbrev Building (α : Type) := Run ClauseSet Misuse α

/-- So many more clauses of the family. -/
def FamilyCounts.plus (n : FamilyCounts) (f : Family) (more : Nat) : FamilyCounts :=
  match f with
  | .cell => { n with cell := n.cell + more }
  | .row => { n with row := n.row + more }
  | .column => { n with column := n.column + more }
  | .block => { n with block := n.block + more }
  | .diagonal => { n with diagonal := n.diagonal + more }
  | .twin => { n with twin := n.twin + more }

theorem FamilyCounts.get_plus (n : FamilyCounts) (f f' : Family) (more : Nat) :
    (n.plus f more).get f' = n.get f' + if f = f' then more else 0 := by
  cases f <;> cases f' <;> rfl

namespace Building

/-! ## The loops -/

/-- A result, unless it is refused. -/
def unlessRefused {α : Type} (result : Except Misuse α) : Building α :=
  match result with
  | .ok a => pure a
  | .error cause => throw cause

def append (clauses : List Clause) : Building Unit :=
  modify fun set => { set with clauses := set.clauses ++ clauses }

/-- The number of clauses so far. -/
def size : Building Nat := return (← get).clauses.length

/-- The number of clauses that the steps add. -/
def counting (steps : Building Unit) : Building Nat := do
  let before ← size
  steps
  return (← size) - before

/-- Counts so many more clauses of a family. -/
def note (f : Family) (more : Nat) : Building Unit :=
  modify fun set => { set with counts := set.counts.plus f more }

/-- Exactly one of the literals. -/
def addExactlyOne (literals : List Int) : Building Nat :=
  counting do append (← unlessRefused (exactlyOne literals))

section Loops

variable (s : Size)

/-- The literals that assert that the cells hold the digit. -/
def holding (house : List Cell) (d : Nat) : Building (List Int) :=
  unlessRefused (house.mapM fun c => s.asserted c d)

def addCells (g : Board) : Building Nat := do
  let mut added := 0
  for r in List.range s.side do
    for c in House.row s g r do
      let literals ← unlessRefused (s.digits.mapM (s.asserted c))
      added := added + (← addExactlyOne literals)
  return added

def addLines (g : Board) : Building (Nat × Nat) := do
  let mut rows := 0
  let mut columns := 0
  for i in List.range s.side do
    for d in s.digits do
      let rowLiterals ← holding s (House.row s g i) d
      let columnLiterals ← holding s (House.column s g i) d
      rows := rows + (← addExactlyOne rowLiterals)
      columns := columns + (← addExactlyOne columnLiterals)
  return (rows, columns)

def addBlocks (g : Board) : Building Nat := do
  let mut added := 0
  for i in List.range s.k do
    for j in List.range s.k do
      for d in s.digits do
        let literals ← holding s (House.blockAt s g i j) d
        added := added + (← addExactlyOne literals)
  return added

def addDiagonals (g : Board) : Building Nat := do
  let mut added := 0
  for d in s.digits do
    let falling ← holding s (House.falling s g) d
    let rising ← holding s (House.rising s g) d
    added := added + (← addExactlyOne falling)
    added := added + (← addExactlyOne rising)
  return added

def addDifferences : Building Nat := counting do
  for r in List.range s.side do
    for c in House.row s .a r do
      for d in s.digits do
        append [[← unlessRefused (s.denied c d), ← unlessRefused (s.denied c.twin d)]]

/-- Adds the clauses of a part and takes down how many there are of each family. -/
def addPart (diagonal : Bool) : Part → Building Unit
  | .board g => do
    note .cell (← addCells s g)
    let lines ← addLines s g
    note .row lines.1
    note .column lines.2
    note .block (← addBlocks s g)
    if diagonal then note .diagonal (← addDiagonals s g)
  | .twins => do note .twin (← addDifferences s)

/-- Adds several parts in order. -/
def addParts (diagonal : Bool) (parts : List Part) : Building Unit :=
  parts.forM (addPart s diagonal)

end Loops

/-! ## What is appended -/

/-- Whatever the set, the clauses are put behind it, the counts stay and the result is `a`. -/
def Appends {α : Type} (x : Building α) (clauses : List Clause) (a : α) : Prop :=
  ∀ set, x set = (.ok a, { set with clauses := set.clauses ++ clauses })

section Laws

variable {α β : Type} {x : Building α} {a : α} {b : β} {clauses clauses' : List Clause}

theorem appends_pure (a : α) : Appends (pure a) [] a := by
  intro set
  rw [List.append_nil]
  rfl

theorem appends_append (clauses : List Clause) : Appends (append clauses) clauses () :=
  fun _ => rfl

theorem appends_unlessRefused {result : Except Misuse α} (h : result = .ok a) :
    Appends (unlessRefused result) [] a := by
  rw [h]
  exact appends_pure a

theorem Appends.bind {f : α → Building β} (hx : Appends x clauses a)
    (hf : Appends (f a) clauses' b) : Appends (x >>= f) (clauses ++ clauses') b := by
  intro set
  rw [Run.bind_of_ok (hx set), hf]
  simp only [List.append_assoc]

/-- At first there is only a result. -/
theorem Appends.bind_nil {f : α → Building β} (hx : Appends x [] a)
    (hf : Appends (f a) clauses b) : Appends (x >>= f) clauses b := hx.bind hf

/-- In the end there is only a result. -/
theorem Appends.bind_pure {f : α → Building β} (hx : Appends x clauses a) (hf : f a = pure b) :
    Appends (x >>= f) clauses b := by
  have hboth := hx.bind (hf ▸ appends_pure b)
  rwa [List.append_nil] at hboth

/-- The list grows by the clauses that the steps append. -/
theorem appends_counting {steps : Building Unit} (h : Appends steps clauses ()) :
    Appends (counting steps) clauses clauses.length := by
  intro set
  have hsize (set : ClauseSet) : size set = (.ok set.clauses.length, set) := rfl
  rw [counting, Run.bind_of_ok (hsize set), Run.bind_of_ok (h set), Run.bind_of_ok (hsize _),
    Run.pure_apply, List.length_append, Nat.add_sub_cancel_left]

/-- The rounds of a loop append the clauses of lists of their own and change a value according to
these lists. Then the loop does so for the lists one after another. -/
theorem appends_forIn (next : List Labelled → β → β) (hnil : ∀ b, next [] b = b)
    (happend : ∀ xs ys b, next (xs ++ ys) b = next ys (next xs b)) {labelled : α → List Labelled}
    {xs : List α} {round : α → β → Building (ForInStep β)}
    (h : ∀ x ∈ xs, ∀ b, Appends (round x b) ((labelled x).map Prod.snd)
      (.yield (next (labelled x) b))) (b : β) :
    Appends (forIn xs b round) ((xs.flatMap labelled).map Prod.snd)
      (next (xs.flatMap labelled) b) := by
  induction xs generalizing b with
  | nil =>
    rw [List.flatMap_nil, hnil]
    exact appends_pure b
  | cons x rest ih =>
    rw [List.forall_mem_cons] at h
    rw [List.forIn_cons, List.flatMap_cons, List.map_append, happend]
    exact (h.1 b).bind (ih h.2 _)

/-- A loop that counts the clauses of a family. -/
theorem appends_counted_forIn (f : Family) {labelled : α → List Labelled} {xs : List α}
    {round : α → Nat → Building (ForInStep Nat)}
    (h : ∀ x ∈ xs, ∀ n, Appends (round x n) ((labelled x).map Prod.snd)
      (.yield (n + numberOf f (labelled x)))) (n : Nat) :
    Appends (forIn xs n round) ((xs.flatMap labelled).map Prod.snd)
      (n + numberOf f (xs.flatMap labelled)) :=
  appends_forIn (fun labelled n => n + numberOf f labelled) (fun _ => rfl)
    (fun xs ys n => by rw [Part.numberOf_append, Nat.add_assoc]) h n

end Laws

/-! ## Groups -/

section Groups

variable {s : Size} {g : Board} {c : Cell} {d : Nat}

theorem holdsDigit_pos (hd : d ∈ s.digits) : 0 < holdsDigit s d c :=
  Int.natCast_pos.2 (Size.number_pos (Size.mem_digits.1 hd).1)

theorem exactlyOne_of_pos {literals : List Int} (h : ∀ l ∈ literals, 0 < l) :
    exactlyOne literals = .ok (oneHot literals) := by
  have hleast : leastLiteral ∉ literals := fun hmem => absurd (h _ hmem) (by decide)
  rw [exactlyOne, if_neg fun hboth => hleast hboth.2]

theorem appends_one (family : Family) {literals : List Int} (h : ∀ l ∈ literals, 0 < l) :
    Appends (addExactlyOne literals) ((one family literals).map Prod.snd)
      (numberOf family (one family literals)) := by
  have hclauses : (one family literals).map Prod.snd = oneHot literals := by
    simp [one, Function.comp_def]
  have hnumber : numberOf family (one family literals) = (oneHot literals).length := by
    rw [one, Part.numberOf_map, if_pos rfl]
  rw [hclauses, hnumber]
  apply appends_counting
  exact (appends_unlessRefused (exactlyOne_of_pos h)).bind_nil (appends_append _)

theorem appends_once (family : Family) (house : List Cell) (hd : d ∈ s.digits) :
    Appends (addExactlyOne (house.map (holdsDigit s d))) ((once s family house d).map Prod.snd)
      (numberOf family (once s family house d)) :=
  appends_one family (List.forall_mem_map.2 fun _ _ => holdsDigit_pos hd)

theorem appends_holding {house : List Cell} (h : house ∈ House.all s true g) (hd : d ∈ s.digits) :
    Appends (holding s house d) [] (house.map (holdsDigit s d)) :=
  appends_unlessRefused (mapM_of_ok fun c hc =>
    Size.asserted_of_inside ((House.proper_of_mem_all h).inside c hc) hd)

/-! ## Families -/

theorem appends_addCells (g : Board) :
    Appends (addCells s g) ((Part.cells s g).map Prod.snd) (numberOf .cell (Part.cells s g)) := by
  rw [addCells, Part.cells]
  refine (appends_counted_forIn .cell (fun r hr n => ?_) 0).bind_pure
    (congrArg pure (Nat.zero_add _))
  refine (appends_counted_forIn .cell (fun c hc n => ?_) n).bind_pure rfl
  have hin : c.Inside s := House.inside_of_mem_row (List.mem_range.1 hr) hc
  refine (appends_unlessRefused (mapM_of_ok fun d hd => Size.asserted_of_inside hin hd)).bind_nil ?_
  exact (appends_one .cell (List.forall_mem_map.2 fun d hd => holdsDigit_pos hd)).bind_pure rfl

/-- A loop that counts the clauses of rows and of columns. -/
theorem appends_lined_forIn {α : Type} {labelled : α → List Labelled} {xs : List α}
    {round : α → Nat × Nat → Building (ForInStep (Nat × Nat))}
    (h : ∀ x ∈ xs, ∀ n, Appends (round x n) ((labelled x).map Prod.snd)
      (.yield (n.1 + numberOf .row (labelled x), n.2 + numberOf .column (labelled x))))
    (n : Nat × Nat) :
    Appends (forIn xs n round) ((xs.flatMap labelled).map Prod.snd)
      (n.1 + numberOf .row (xs.flatMap labelled), n.2 + numberOf .column (xs.flatMap labelled)) :=
  appends_forIn (fun labelled (n : Nat × Nat) =>
    (n.1 + numberOf .row labelled, n.2 + numberOf .column labelled)) (fun _ => rfl)
    (fun xs ys n => by simp only [Part.numberOf_append, Nat.add_assoc]) h n

theorem appends_addLines (g : Board) :
    Appends (addLines s g) ((Part.lines s g).map Prod.snd)
      (numberOf .row (Part.lines s g), numberOf .column (Part.lines s g)) := by
  rw [addLines, Part.lines]
  refine (appends_lined_forIn (fun i hi n => ?_) (0, 0)).bind_pure ?_
  · refine (appends_lined_forIn (fun d hd n => ?_) n).bind_pure rfl
    have hrow := House.row_mem_all (g := g) true (List.mem_range.1 hi)
    have hcolumn := House.column_mem_all (g := g) true (List.mem_range.1 hi)
    refine (appends_holding hrow hd).bind_nil ((appends_holding hcolumn hd).bind_nil ?_)
    rw [List.map_append]
    refine (appends_once .row _ hd).bind ((appends_once .column _ hd).bind_pure ?_)
    -- neither family has a clause among those of the other
    have hrows : numberOf .row (once s .column (House.column s g i) d) = 0 := Part.numberOf_map _
    have hcolumns : numberOf .column (once s .row (House.row s g i) d) = 0 := Part.numberOf_map _
    simp only [Part.numberOf_append, hrows, hcolumns, Nat.zero_add, Nat.add_zero]
  · simp only [Nat.zero_add]

theorem appends_addBlocks (g : Board) :
    Appends (addBlocks s g) ((Part.blocks s g).map Prod.snd)
      (numberOf .block (Part.blocks s g)) := by
  -- the number of a block runs through the bands, and through the blocks of each band
  have hblocks : Part.blocks s g = (List.range s.k).flatMap fun i =>
      (List.range s.k).flatMap fun j =>
        s.digits.flatMap (once s .block (House.block s g (i * s.k + j))) := by
    rw [Part.blocks, Size.side, range_mul, List.flatMap_assoc]
    simp only [List.flatMap_map]
  rw [addBlocks, hblocks]
  refine (appends_counted_forIn .block (fun i hi n => ?_) 0).bind_pure
    (congrArg pure (Nat.zero_add _))
  refine (appends_counted_forIn .block (fun j hj n => ?_) n).bind_pure rfl
  refine (appends_counted_forIn .block (fun d hd n => ?_) n).bind_pure rfl
  have hj := List.mem_range.1 hj
  have hblock := House.block_mem_all (g := g) true (Size.pack_lt (List.mem_range.1 hi) hj)
  rw [House.blockAt_eq hj]
  exact (appends_holding hblock hd).bind_nil ((appends_once .block _ hd).bind_pure rfl)

theorem appends_addDiagonals (g : Board) :
    Appends (addDiagonals s g) ((Part.diagonals s g).map Prod.snd)
      (numberOf .diagonal (Part.diagonals s g)) := by
  rw [addDiagonals, Part.diagonals]
  refine (appends_counted_forIn .diagonal (fun d hd n => ?_) 0).bind_pure
    (congrArg pure (Nat.zero_add _))
  refine (appends_holding (House.falling_mem_all rfl) hd).bind_nil ?_
  refine (appends_holding (House.rising_mem_all rfl) hd).bind_nil ?_
  rw [List.map_append]
  refine (appends_once .diagonal _ hd).bind ((appends_once .diagonal _ hd).bind_pure ?_)
  rw [Part.numberOf_append, Nat.add_assoc]

/-- A loop that counts nothing itself. -/
theorem appends_uncounted_forIn {α : Type} {labelled : α → List Labelled} {xs : List α}
    {round : α → PUnit → Building (ForInStep PUnit)}
    (h : ∀ x ∈ xs, ∀ u, Appends (round x u) ((labelled x).map Prod.snd) (.yield ())) (u : PUnit) :
    Appends (forIn xs u round) ((xs.flatMap labelled).map Prod.snd) () :=
  appends_forIn (fun _ _ => ()) (fun _ => rfl) (fun _ _ _ => rfl) h u

theorem appends_addDifferences :
    Appends (addDifferences s) ((Part.differences s).map Prod.snd)
      (numberOf .twin (Part.differences s)) := by
  have hdifferences : Part.differences s = (List.range s.side).flatMap fun r =>
      (House.row s .a r).flatMap fun c => s.digits.flatMap fun d =>
        [(Family.twin, [-holdsDigit s d c, -holdsDigit s d c.twin])] := by
    simp only [Part.differences, List.map_eq_flatMap]
  have hall : ∀ entry ∈ Part.differences s, entry.1 = .twin := by
    simp only [Part.differences, List.mem_flatMap, List.mem_map]
    rintro entry ⟨r, _, c, _, d, _, rfl⟩
    rfl
  have hnumber : numberOf .twin (Part.differences s) =
      ((Part.differences s).map Prod.snd).length := by
    rw [List.length_map]
    exact List.countP_eq_length.2 fun entry hentry => by simp [hall entry hentry]
  rw [hnumber, addDifferences]
  apply appends_counting
  rw [hdifferences]
  refine (appends_uncounted_forIn (fun r hr n => ?_) ()).bind_pure rfl
  refine (appends_uncounted_forIn (fun c hc n => ?_) n).bind_pure rfl
  refine (appends_uncounted_forIn (fun d hd n => ?_) n).bind_pure rfl
  have hin : c.Inside s := House.inside_of_mem_row (List.mem_range.1 hr) hc
  have htwin : c.twin.Inside s := hin
  refine (appends_unlessRefused (Size.denied_of_inside hin hd)).bind_nil ?_
  refine (appends_unlessRefused (Size.denied_of_inside htwin hd)).bind_nil ?_
  exact (appends_append _).bind_pure rfl

end Groups

/-! ## Parts -/

theorem note_apply (f : Family) (more : Nat) (set : ClauseSet) :
    note f more set = (.ok (), ⟨set.clauses, set.counts.plus f more⟩) := rfl

variable (s : Size) (diagonal : Bool)

/-- No literal is refused, and the loops add to a set what its labelled clauses add. -/
theorem addPart_apply (part : Part) (set : ClauseSet) :
    addPart s diagonal part set = (.ok (), set.add s diagonal part) := by
  cases part with
  | board g =>
    rw [addPart, Run.bind_of_ok (appends_addCells g _), Run.bind_of_ok (note_apply _ _ _),
      Run.bind_of_ok (appends_addLines g _), Run.bind_of_ok (note_apply _ _ _),
      Run.bind_of_ok (note_apply _ _ _), Run.bind_of_ok (appends_addBlocks g _),
      Run.bind_of_ok (note_apply _ _ _)]
    -- the counters are compared one by one: what another family appends does not change them
    cases diagonal with
    | false =>
      rw [if_neg (by decide), Run.pure_apply]
      refine congrArg (Prod.mk _)
        (ClauseSet.eq_add (by simp [Part.clauses, Part.labelled]) fun f => ?_)
      simp only [FamilyCounts.get_plus, Part.labelled, Part.numberOf_append, Part.numberOf_cells,
        Part.numberOf_lines, Part.numberOf_blocks]
      cases f <;> simp [Size.inGroup]
    | true =>
      rw [if_pos rfl, Run.bind_of_ok (appends_addDiagonals g _), note_apply]
      refine congrArg (Prod.mk _)
        (ClauseSet.eq_add (by simp [Part.clauses, Part.labelled]) fun f => ?_)
      simp only [FamilyCounts.get_plus, Part.labelled, Part.numberOf_append, Part.numberOf_cells,
        Part.numberOf_lines, Part.numberOf_blocks, if_true, Part.numberOf_diagonals]
      cases f <;> simp [Size.inGroup]
  | twins =>
    rw [addPart, Run.bind_of_ok (appends_addDifferences _), note_apply]
    refine congrArg (Prod.mk _) (ClauseSet.eq_add rfl fun f => ?_)
    simp only [FamilyCounts.get_plus, Part.labelled, Part.numberOf_differences]
    cases f <;> simp

/-- Several parts are added to a set as without loops. -/
theorem addParts_apply (parts : List Part) (set : ClauseSet) :
    addParts s diagonal parts set = (.ok (), parts.foldl (ClauseSet.add s diagonal) set) := by
  induction parts generalizing set with
  | nil => rfl
  | cons part rest ih =>
    rw [addParts, List.forM_eq_forM, List.forM_cons,
      Run.bind_of_ok (addPart_apply s diagonal part set)]
    exact ih _

end Building

/-! ## Sequences of parts -/

namespace ClauseSet

variable {s : Size} {diagonal : Bool}

theorem clauses_eq_flatMap_singletons (parts : List Part) :
    (ofParts s diagonal parts).clauses =
      parts.flatMap fun part => (ofParts s diagonal [part]).clauses := by
  simp only [clauses_ofParts, List.flatMap_singleton]

theorem counts_ofParts (parts : List Part) :
    (ofParts s diagonal parts).counts =
      let boards := parts.count (.board .a) + parts.count (.board .b)
      let onBoards := boards * (s.side ^ 2 * s.groupClauses)
      ⟨onBoards, onBoards, onBoards, onBoards,
        if diagonal then boards * (2 * s.side * s.groupClauses) else 0,
        parts.count .twins * s.side ^ 3⟩ := by
  refine FamilyCounts.ext_get fun f => ?_
  rw [get_ofParts]
  cases f <;> simp [FamilyCounts.get, Part.clausesOf]

example : (rules .standard true).counts = ⟨5994, 5994, 5994, 5994, 1332, 729⟩ := by
  rw [rules, counts_ofParts]
  rfl

/-- Parts that are all rules together say all of them, in every order and however often. -/
theorem satisfies_ofParts_of_subset {parts : List Part} (h : allParts ⊆ parts) {σ : Assignment} :
    Satisfies σ (ofParts s diagonal parts).clauses ↔
      ∀ part : Part, Part.Says σ (part.labelled s diagonal) := by
  have hmem (part : Part) : part ∈ parts := by
    apply h
    cases part with
    | board g => cases g <;> simp [allParts]
    | twins => simp [allParts]
  rw [satisfies_ofParts]
  exact ⟨fun hsays part => hsays part (hmem part), fun hsays part _ => hsays part⟩

/-- Of parts in any order and however often, the loops collect the clauses of each, one after the
other, refuse nothing and count every family as it is. The clauses speak of the variables only, and
once each part is there, they hold for the same assignments. -/
theorem parts_compose (s : Size) (diagonal : Bool) (parts : List Part) :
    let set := ofParts s diagonal parts
    let n := s.k ^ 2
    let boards := parts.count (.board .a) + parts.count (.board .b)
    let onBoards := boards * n ^ 2 * (1 + n * (n - 1) / 2)
    let onDiagonals := if diagonal then 2 * boards * n * (1 + n * (n - 1) / 2) else 0
    Building.addParts s diagonal parts empty = (.ok (), set) ∧
      set.clauses = (parts.flatMap fun part => (ofParts s diagonal [part]).clauses) ∧
      set.counts =
        ⟨onBoards, onBoards, onBoards, onBoards, onDiagonals, parts.count .twins * n ^ 3⟩ ∧
      set.counts.total = set.clauses.length ∧
      (∀ clause ∈ set.clauses, ∀ l ∈ clause, 1 ≤ l.natAbs ∧ l.natAbs ≤ 2 * s.k ^ 6) ∧
      ∀ others, allParts ⊆ parts → allParts ⊆ others → ∀ σ,
        (Satisfies σ set.clauses ↔ Satisfies σ (ofParts s diagonal others).clauses) := by
  intro set n boards onBoards onDiagonals
  have hside : n = s.side := Nat.pow_two s.k
  refine ⟨Building.addParts_apply s diagonal parts empty, clauses_eq_flatMap_singletons parts, ?_,
    total_ofParts, fun clause hclause l hl => ?_, fun others hparts hothers σ => ?_⟩
  · have hboards : onBoards = boards * (s.side ^ 2 * s.groupClauses) := by
      rw [Size.groupClauses, ← hside, ← Nat.mul_assoc]
    have hdiagonals : onDiagonals =
        if diagonal then boards * (2 * s.side * s.groupClauses) else 0 := by
      rw [Size.groupClauses, ← hside]
      simp only [onDiagonals, Nat.mul_assoc, Nat.mul_left_comm]
    rw [hboards, hdiagonals, hside]
    exact counts_ofParts parts
  · rw [← Size.variableCount_eq]
    exact hasVariable_of_mem_ofParts hclause hl
  · rw [satisfies_ofParts_of_subset hparts, satisfies_ofParts_of_subset hothers]

theorem parts_compose_small :
    let parts : List Part := [.twins, .board .b, .board .a, .board .b]
    allParts ⊆ parts ∧ allParts ⊆ allParts ∧
      (Satisfies (fun _ => false) (ofParts .small true parts).clauses ↔
        Satisfies (fun _ => false) (ofParts .small true allParts).clauses) := by
  have hparts : allParts ⊆ [.twins, .board .b, .board .a, .board .b] := by decide
  have hall : allParts ⊆ allParts := List.Subset.refl _
  exact ⟨hparts, hall, (parts_compose .small true _).2.2.2.2.2 allParts hparts hall _⟩

end ClauseSet

/-- The clauses that the loops collect hold for the assignments that encode a pair whose tables the
check accepts. Writing the model gives this pair back, whatever it is written over, and models and
accepted pairs correspond one to one. -/
theorem Pair.built_models_bijOn_checked (s : Size) (diagonal : Bool) :
    ∃ set : ClauseSet,
      Building.addParts s diagonal ClauseSet.allParts ClauseSet.empty = (.ok (), set) ∧
      (∀ σ : Assignment, Satisfies σ set.clauses ↔
        ∃ p : Pair s, Boards.checkRules s diagonal p.board = .ok true ∧ p.EncodedBy σ) ∧
      (∀ (σ : Assignment) (p : Pair s), Boards.checkRules s diagonal p.board = .ok true →
        p.EncodedBy σ → ∀ q : Pair s, q.write (σ.model s) = p) ∧
      Set.BijOn (fun p : Pair s => p.assignment.model s)
        {p | Boards.checkRules s diagonal p.board = .ok true}
        {m | (∀ v ∈ m.trueVariables, s.HasVariable v) ∧ Satisfies m.assignment set.clauses} := by
  -- both loops do what the definitions without loops do, for which this is known
  simp only [checkRules_board, Except.ok.injEq]
  refine ⟨ClauseSet.rules s diagonal, Building.addParts_apply s diagonal _ _, ?_, ?_,
    bijOn_model s diagonal⟩
  · intro σ
    exact satisfies_rules_iff_exists
  · intro σ p hp hσ
    exact write_model_eq hp hσ

end TwinSudoku
