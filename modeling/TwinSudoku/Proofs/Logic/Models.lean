import Mathlib.Data.List.Destutter
import Mathlib.Data.Set.Function
import TwinSudoku.Proofs.Numbering.Assignments

/-!
# Models and the literals they are made from

Of the literals that a model is made from only the positive ones are kept, each once. Nothing is
assumed of the literals: they may be in any order, repeated or contradictory.

* `Model.findIn_iff`: halving finds what stands between two positions of an increasing array, and
  nothing else. So `Model.isTrue` decides which variables are true (`Model.isTrue_iff`).
* `Model.positives_eq_image`, `Model.ofLiterals_eq_iff`: a model is the set of its positive
  literals.
* `Words.positives`: the calculation on machine words, where a literal has a sign and a variable has
  none. The word of a negative literal, read without its sign, would be that of a large variable.
  `Words.map_positives` says that no such variable comes out.
* `Model.determined_by_positives`: all of this for the model of any literals.
-/

namespace TwinSudoku

namespace Model

/-! ## Looking a variable up -/

section Search

variable {sorted : Array Nat}

/-- Positions and values of an increasing array are in the same order. -/
theorem lt_iff_of_getElem? (h : sorted.toList.Pairwise (· < ·)) {i j a b : Nat}
    (hi : sorted[i]? = some a) (hj : sorted[j]? = some b) : i < j ↔ a < b := by
  obtain ⟨hisize, rfl⟩ := Array.getElem?_eq_some_iff.1 hi
  obtain ⟨hjsize, rfl⟩ := Array.getElem?_eq_some_iff.1 hj
  have hmono {m n : Nat} (hm : m < sorted.size) (hn : n < sorted.size) (hmn : m < n) :
      sorted[m] < sorted[n] := List.pairwise_iff_getElem.1 h m n hm hn hmn
  constructor
  · exact hmono hisize hjsize
  · intro hlt
    rcases Nat.lt_trichotomy i j with hij | rfl | hij
    · exact hij
    · exact absurd hlt (Nat.lt_irrefl _)
    · exact absurd hlt (Nat.lt_asymm (hmono hjsize hisize hij))

/-- Halving the range of positions loses no position of the value. -/
theorem findIn_iff (h : sorted.toList.Pairwise (· < ·)) {v lo hi : Nat} (hhi : hi ≤ sorted.size) :
    findIn sorted v lo hi = true ↔ ∃ i, (lo ≤ i ∧ i < hi) ∧ sorted[i]? = some v := by
  fun_induction findIn sorted v lo hi with
  | case1 lo hi hlt mid hnone =>
    -- the middle of the range is a position of the array
    rw [Array.getElem?_eq_none_iff] at hnone
    omega
  | case2 lo hi hlt mid w hw hless ih =>
    rw [ih (by omega)]
    refine exists_congr fun i => and_congr_left fun hi => ?_
    have hbelow : i < mid ↔ v < w := lt_iff_of_getElem? h hi hw
    omega
  | case3 lo hi hlt mid w hw hless hmore ih =>
    rw [ih hhi]
    refine exists_congr fun i => and_congr_left fun hi => ?_
    have habove : mid < i ↔ w < v := lt_iff_of_getElem? h hw hi
    omega
  | case4 lo hi hlt mid w hw hless hmore =>
    obtain rfl : w = v := by omega
    exact ⟨fun _ => ⟨mid, by omega, hw⟩, fun _ => rfl⟩
  | case5 lo hi hempty =>
    refine ⟨nofun, ?_⟩
    rintro ⟨i, hi, -⟩
    omega

end Search

theorem isTrue_iff {m : Model} {v : Nat} : m.isTrue v = true ↔ v ∈ m.trueVariables := by
  rw [isTrue, findIn_iff m.increasing (Nat.le_refl _), trueVariables, Array.mem_toList_iff,
    Array.mem_iff_getElem?]
  refine exists_congr fun i => and_iff_right_of_imp fun hi => ?_
  exact ⟨Nat.zero_le i, (Array.getElem?_eq_some_iff.1 hi).1⟩

/-! ## The set of positive literals -/

/-- The positive literals are the variables of the model, read as integers. -/
theorem positives_eq_image (literals : List Int) :
    {l | 0 < l ∧ l ∈ literals} =
      (fun v : Nat => (v : Int)) '' {v | v ∈ (ofLiterals literals).trueVariables} := by
  ext l
  simp only [Set.mem_ofPred_eq, Set.mem_image, mem_ofLiterals]
  constructor
  · rintro ⟨hpos, hl⟩
    have hcast : (l.toNat : Int) = l := Int.toNat_of_nonneg (Int.le_of_lt hpos)
    exact ⟨l.toNat, ⟨by omega, by rwa [hcast]⟩, hcast⟩
  · rintro ⟨v, ⟨hpos, hv⟩, rfl⟩
    exact ⟨Int.natCast_pos.2 hpos, hv⟩

/-- Models are equal exactly when they are made from the same positive literals. -/
theorem ofLiterals_eq_iff {literals others : List Int} :
    ofLiterals others = ofLiterals literals ↔
      {l | 0 < l ∧ l ∈ others} = {l | 0 < l ∧ l ∈ literals} := by
  have hcast : Function.Injective fun v : Nat => (v : Int) := fun v w hvw => Int.ofNat.inj hvw
  rw [positives_eq_image, positives_eq_image, hcast.image_injective.eq_iff]
  constructor
  · intro heq
    rw [heq]
  · intro heq
    exact ext_mem fun v => Set.ext_iff.1 heq v

end Model

/-! ## The same on words -/

theorem dropRepeats_eq_destutter (vs : List Nat) : dropRepeats vs = vs.destutter (· ≠ ·) := by
  induction vs using dropRepeats.induct with
  | case1 => rfl
  | case2 => rfl
  | case3 w rest ih =>
    rw [dropRepeats, if_pos rfl, ih, List.destutter_cons', List.destutter_cons',
      List.destutter'_cons, if_neg (not_not.2 rfl)]
  | case4 v w rest hne ih =>
    rw [dropRepeats, if_neg hne, ih, List.destutter_cons', List.destutter_cons',
      List.destutter'_cons, if_pos hne]

namespace Words

/-- The variables of the positive literals in words of 32 bits. Of equal neighbours the first one
stays. -/
def positives (literals : List Int32) : List UInt32 :=
  ((literals.filter (0 < ·)).map Int32.toUInt32).mergeSort (fun v w => decide (v ≤ w))
    |>.destutter (· ≠ ·)

/-- A positive word means the same without a sign. -/
theorem toNat_toUInt32 {x : Int32} (h : 0 < x) : x.toUInt32.toNat = x.toInt.toNat := by
  have hpos : 0 < x.toBitVec.toInt := Int32.lt_iff_toInt_lt.1 h
  change x.toBitVec.toNat = x.toBitVec.toInt.toNat
  rw [BitVec.toInt_eq_toNat_cond] at hpos ⊢
  split at hpos <;> omega

theorem map_positives (literals : List Int32) :
    (positives literals).map UInt32.toNat = TwinSudoku.positives (literals.map Int32.toInt) := by
  have hcast : ((literals.filter (0 < ·)).map Int32.toUInt32).map UInt32.toNat =
      ((literals.map Int32.toInt).filter (0 < ·)).map Int.toNat := by
    rw [List.filter_map, List.map_map, List.map_map]
    have hfilter : literals.filter ((fun l : Int => decide (0 < l)) ∘ Int32.toInt) =
        literals.filter (0 < ·) :=
      List.filter_congr fun x _ => decide_eq_decide.2 (Int32.lt_iff_toInt_lt (x := 0)).symm
    rw [hfilter]
    refine List.map_congr_left fun x hx => toNat_toUInt32 ?_
    simpa using (List.mem_filter.1 hx).2
  have hdiffer (v w : UInt32) : v ≠ w ↔ v.toNat ≠ w.toNat := not_congr UInt32.toNat_inj.symm
  have hle (v w : UInt32) : decide (v ≤ w) = decide (v.toNat ≤ w.toNat) :=
    decide_eq_decide.2 UInt32.le_iff_toNat_le
  rw [positives, List.map_destutter fun v _ w _ => hdiffer v w,
    List.map_mergeSort (s := fun m n => decide (m ≤ n)) fun v _ w _ => hle v w, hcast,
    ← dropRepeats_eq_destutter, TwinSudoku.positives]

end Words

namespace Model

/-- The variables of the model of any literals are those of the positive literals among them, in
increasing order and each once. Looking a number up says whether it is one of them, and the model is
determined by them. Where the literals are words with a sign, sorting them as words without one
gives the same variables, and looking up a word that no positive literal has finds nothing. -/
theorem determined_by_positives (literals : List Int) :
    let m := ofLiterals literals
    m.trueVariables.Pairwise (· < ·) ∧
      (∀ v : Nat, v ∈ m.trueVariables ↔ 0 < v ∧ (v : Int) ∈ literals) ∧
      (∀ v : Nat, m.isTrue v = true ↔ v ∈ m.trueVariables) ∧
      (∀ others : List Int, ofLiterals others = m ↔
        {l | 0 < l ∧ l ∈ others} = {l | 0 < l ∧ l ∈ literals}) ∧
      ∀ words : List Int32, words.map Int32.toInt = literals →
        (Words.positives words).map UInt32.toNat = m.trueVariables ∧
          ∀ v : UInt32, m.isTrue v.toNat = true ↔ v ∈ Words.positives words := by
  intro m
  refine ⟨m.increasing, fun v => mem_ofLiterals, fun v => isTrue_iff,
    fun others => ofLiterals_eq_iff, ?_⟩
  rintro words rfl
  have hwords : (Words.positives words).map UInt32.toNat = m.trueVariables :=
    Words.map_positives words
  refine ⟨hwords, fun v => ?_⟩
  have hinjective : Function.Injective UInt32.toNat := fun _ _ => UInt32.toNat_inj.1
  rw [isTrue_iff, ← hwords, List.mem_map_of_injective hinjective]

/-- The largest word without a sign is that of the literal -1, which is not among the variables. -/
theorem determined_by_positives_words :
    [3, -1, 2, -4, 3].map Int32.toInt = [3, -1, 2, -4, 3] ∧
      (Words.positives [3, -1, 2, -4, 3]).map UInt32.toNat =
        (ofLiterals [3, -1, 2, -4, 3]).trueVariables ∧
      (ofLiterals [3, -1, 2, -4, 3]).isTrue 4294967295 = false ∧
      (ofLiterals [2, 3]) = ofLiterals [3, -1, 2, -4, 3] := by
  obtain ⟨-, hmem, hfound, hequal, hwords⟩ := determined_by_positives [3, -1, 2, -4, 3]
  have hcast : [3, -1, 2, -4, 3].map Int32.toInt = [3, -1, 2, -4, 3] := by decide
  refine ⟨hcast, (hwords _ hcast).1, ?_, (hequal _).2 ?_⟩
  · rw [Bool.eq_false_iff, ne_eq, hfound, hmem]
    decide
  · ext l
    simp only [Set.mem_ofPred_eq, List.mem_cons, List.not_mem_nil, or_false]
    omega

end Model

end TwinSudoku
