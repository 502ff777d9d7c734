import PokerHand.Proofs.Ranking.Choices
import PokerHand.Proofs.Ranking.Growth

/-!
# Live odds

While board cards are still to come the best hand is taken of those that are known. Whatever a
player may show now can be shown with further board cards later, as it is or filled up to five cards
(`MadeHand.Legal.append`), so in the usual orders the power of the best hand never drops.
-/
namespace PokerHand

/-- Entries at so many positions can be filled up from a list that is appended. -/
theorem Picks.append {α : Type} {k : Nat} {xs sel : List α}
    (hpicks : Picks (min k xs.length) xs sel) (more : List α) :
    ∃ extra, extra.Sublist more ∧
      Picks (min k (xs ++ more).length) (xs ++ more) (sel ++ extra) := by
  obtain ⟨hsub, hlength⟩ := picks_iff_sublist.1 hpicks
  have hextra : (more.take (k - xs.length)).Sublist more := List.take_sublist _ _
  refine ⟨_, hextra, picks_iff_sublist.2 ⟨hsub.append hextra, ?_⟩⟩
  rw [List.length_append, List.length_take, List.length_append, hlength]
  omega

namespace MadeHand

variable {hole board set : List Card} {required : Nat} {order : Order}

/-- What a player may show are hole cards and board cards. -/
theorem Legal.sublist (hlegal : Legal hole board required set) : set.Sublist (hole ++ board) := by
  unfold Legal at hlegal
  split at hlegal
  · exact (picks_iff_sublist.1 hlegal).1
  · obtain ⟨own, shared, hown, hshared, rfl⟩ := hlegal
    exact (picks_iff_sublist.1 hown).1.append (picks_iff_sublist.1 hshared).1

/-- What a player may show stays so when board cards are added, or is filled up with them to no more
than five cards. -/
theorem Legal.append (hlegal : Legal hole board required set) (more : List Card) :
    ∃ extra, Legal hole (board ++ more) required (set ++ extra) ∧
      (extra = [] ∨ (set ++ extra).length ≤ 5) := by
  unfold Legal at hlegal ⊢
  by_cases hzero : required = 0
  · rw [if_pos hzero] at hlegal
    obtain ⟨extra, -, hpicks⟩ := hlegal.append more
    rw [List.append_assoc hole board more] at hpicks
    refine ⟨extra, by rwa [if_pos hzero], .inr ?_⟩
    rw [(picks_iff_sublist.1 hpicks).2]
    exact Nat.min_le_left _ _
  · rw [if_neg hzero] at hlegal
    obtain ⟨own, shared, hown, hshared, rfl⟩ := hlegal
    obtain ⟨extra, -, hpicks⟩ := hshared.append more
    refine ⟨extra, ?_, ?_⟩
    · rw [if_neg hzero]
      exact ⟨own, shared ++ extra, hown, hpicks, List.append_assoc _ _ _⟩
    · have hownLength := (picks_iff_sublist.1 hown).2
      have hlength := (picks_iff_sublist.1 hpicks).2
      rw [List.length_append] at hlength
      rw [List.length_append, List.length_append, hownLength]
      by_cases hmany : min required hole.length ≤ 5
      · exact .inr (by omega)
      · exact .inl (List.length_eq_zero_iff.1 (by omega))

/-- In the standard order and in that of the short deck, board cards that are added never lower the
power of the best hand. -/
theorem odds_never_drop (husual : order ∈ Order.usual) (hole board more : List Card)
    (hnodup : (hole ++ board ++ more).Nodup) (required : Nat) :
    (best hole board required order).power ≤ (best hole (board ++ more) required order).power := by
  obtain ⟨set, hlegal, heq⟩ := exists_best_eq hole board required order
  obtain ⟨extra, hlater, hfive⟩ := hlegal.append more
  have hgrown : (evaluate set order).power ≤ (evaluate (set ++ extra) order).power := by
    rcases hfive with rfl | hfive
    · exact Nat.le_of_eq (by rw [List.append_nil])
    · rw [List.append_assoc] at hnodup
      exact power_le_append husual (hnodup.sublist hlater.sublist) hfive
  calc
    (best hole board required order).power = (evaluate set order).power := by rw [heq]
    _ ≤ (evaluate (set ++ extra) order).power := hgrown
    _ ≤ (best hole (board ++ more) required order).power :=
      power_le_strongest (mem_candidates_iff.2 hlater) order

/-- Two pair on four known cards becomes a flush, with two hole cards to be shown. -/
theorem odds_never_drop_flush :
    let hole : List Card := [⟨.spades, .ace⟩, ⟨.spades, .king⟩]
    let board : List Card := [⟨.hearts, .ace⟩, ⟨.diamonds, .king⟩]
    let more : List Card := [⟨.spades, .six⟩, ⟨.spades, .eight⟩, ⟨.spades, .nine⟩]
    .shortDeck ∈ Order.usual ∧ (hole ++ board ++ more).Nodup ∧
      (best hole board 2 .shortDeck).category = .twoPair ∧
      (best hole (board ++ more) 2 .shortDeck).category = .flush ∧
      (best hole board 2 .shortDeck).power ≤ (best hole (board ++ more) 2 .shortDeck).power := by
  intro hole board more
  have hnodup : (hole ++ board ++ more).Nodup := by decide
  exact ⟨by decide, hnodup, by decide, by decide +kernel,
    odds_never_drop (by decide) hole board more hnodup 2⟩

/-- In an order that ranks a high card first, a pair on the board may lower the power. -/
example :
    let order : Order := ⟨Category.all, by decide⟩
    let ace : Card := ⟨.spades, .ace⟩
    (best [ace] [⟨.hearts, .ace⟩] 0 order).power < (best [ace] [] 0 order).power := by decide

end MadeHand

end PokerHand
