import TwinSudoku.Proofs.Rules.Partners
import TwinSudoku.Proofs.Solving.Completions

/-!
# A complete board always has a partner

A pair of which one board is complete and keeps its rules, while there is nothing on the other one,
is never answered with `none`: the twin rule alone does not exclude such a board.

* `Solving.complete_partner`: one call in a session with the rules loaded.
* `Solving.complete_board_has_partner`: all calls of a session, and which boards under other digits
  make a solution with the board itself.
-/

namespace TwinSudoku

namespace Solving

variable {σ : Type} {o : Oracle σ} {holding : List Clause → σ → Prop} {s : Size} {diagonal : Bool}

/-- The reply to a pair of which one board keeps its rules and the other one is empty is a
completion. -/
def RepliesPartner (s : Size) (diagonal : Bool) (p : Sigma Pair)
    (reply : Except Failure (Option (Pair s))) : Prop :=
  ∀ (q : Pair s) (g : Board), p = ⟨s, q⟩ → q.KeepsBoard diagonal g →
    (∀ c : Cell, c.board ≠ g → q.digit c = 0) →
      ∃ r, reply = .ok (some r) ∧ r.Completes diagonal q

theorem complete_partner (diagonal : Bool) (hk : 2 ≤ s.k) (ho : o.Conforms holding) (p : Sigma Pair)
    {st : σ} (hst : holding (ClauseSet.rules s diagonal).clauses st) :
    ∃ reply st', complete o s p.2 st = (reply, st') ∧
      holding (ClauseSet.rules s diagonal).clauses st' ∧ RepliesPartner s diagonal p reply := by
  obtain ⟨reply, st', hrun, hst', hreplies, -⟩ := complete_replies ho hst p
  refine ⟨reply, st', hrun, hst', ?_⟩
  intro q g hp hboard hempty
  obtain ⟨answer, rfl, hanswer⟩ := hreplies q hp
  have hcompletion := Pair.exists_completes_of_keepsBoard hk hboard hempty
  obtain ⟨r, rfl, hr⟩ := (answers_iff hanswer).2.1 hcompletion
  exact ⟨r, rfl, hr⟩

/-- A board that keeps the rules, with the diagonals on request, makes a solution with itself under
a permutation of the digits exactly when no digit stays the same. From the second block size on
there is such a permutation. So an oracle that answers right makes a session answer with a
completion wherever among the calls there is a pair with such a board and nothing on the other
one. -/
theorem complete_board_has_partner (s : Size) (diagonal : Bool) :
    (∀ (p : Pair s) (g : Board) (π : Nat → Nat), p.KeepsBoard diagonal g →
      (s.digits.map π).Perm s.digits →
        ((p.withPartner g π).isSolution diagonal ↔ ∀ d ∈ s.digits, π d ≠ d)) ∧
    ∀ {σ : Type} {o : Oracle σ} {holding : List Clause → σ → Prop}, 2 ≤ s.k → o.Conforms holding →
      ∀ (st : σ) (pairs : List (Sigma Pair)), holding [] st →
        ∃ replies st', session o s diagonal pairs st = (.ok replies, st') ∧
          ∀ (i : Nat) (p : Pair s) (g : Board), pairs[i]? = some ⟨s, p⟩ → p.KeepsBoard diagonal g →
            (∀ c : Cell, c.board ≠ g → p.digit c = 0) →
              ∃ q, replies[i]? = some (.ok (some q)) ∧ q.Completes diagonal p := by
  constructor
  · intro p g π hp hπ
    exact Pair.isSolution_withPartner_iff hp hπ
  · intro σ o holding hk ho st pairs hst
    obtain ⟨replies, st', hrun, hreplies⟩ := session_forall₂ ho hst
      (fun p _ hst => complete_partner diagonal hk ho p hst) pairs
    refine ⟨replies, st', hrun, ?_⟩
    intro i p g hi hboard hempty
    obtain ⟨reply, hreply, hpartner⟩ := exists_getElem?_of_forall₂ hreplies hi
    obtain ⟨q, rfl, hq⟩ := hpartner p g rfl hboard hempty
    exact ⟨q, hreply, hq⟩

/-- A board of which both diagonals hold every digit, and nothing on the other one. -/
def smallBoard : Pair .small :=
  .ofView .small (Pair.tableView [] [[1, 2, 3, 4], [3, 4, 1, 2], [4, 3, 2, 1], [2, 1, 4, 3]])

theorem complete_board_has_partner_small :
    (∃ replies st', session Oracle.exhaustive .small true [⟨.small, smallBoard⟩] [] =
        (.ok replies, st') ∧
      ∃ q, replies[0]? = some (.ok (some q)) ∧ q.Completes true smallBoard) ∧
    (smallBoard.withPartner .b (Size.next .small)).isSolution true ∧
      ¬ (smallBoard.withPartner .b (Equiv.swap 1 2)).isSolution true := by
  obtain ⟨hpartner, hsession⟩ := complete_board_has_partner .small true
  have hboard : smallBoard.KeepsBoard true .b :=
    Pair.keepsBoard_of_withPartner (Size.next .small) (by decide)
  have hall : ∀ c ∈ Cell.all .small, c.board ≠ .b → smallBoard.digit c = 0 := by decide
  have hempty (c : Cell) (hc : c.board ≠ .b) : smallBoard.digit c = 0 := by
    by_contra hne
    have hin := Pair.inside_of_digit_ne_zero hne
    exact hne (hall c (Cell.mem_all.2 hin) hc)
  refine ⟨?_, ?_, ?_⟩
  · obtain ⟨replies, st', hrun, hreplies⟩ := hsession (by decide) Oracle.exhaustive_conforms []
      [⟨.small, smallBoard⟩] rfl
    exact ⟨replies, st', hrun, hreplies 0 smallBoard .b rfl hboard hempty⟩
  · rw [hpartner smallBoard .b _ hboard (Size.perm_map_next .small)]
    decide
  · rw [hpartner smallBoard .b _ hboard (Size.perm_map_swap (by decide) (by decide))]
    decide

end Solving

end TwinSudoku
