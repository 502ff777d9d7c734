import PokerHand.Proofs.Chips.Layers
import PokerHand.Proofs.Deal.Loops
import PokerHand.Proofs.Stage

/-!
# Cards and pots within the flow

A deck that has all cards that the hand may take never runs short, and refreshed pots hold what the
seats have in them.
-/
namespace PokerHand

/-- A seat once it has its share of the hole cards. -/
def Setup.serve (setup : Setup) (dealer : Nat) (s : Seat) : Seat :=
  let cards := setup.terms.deck.take setup.holeCards
  { s with hole := s.hole ++
      Hand.share cards setup.players.length setup.terms.holeCount dealer s.number }

namespace Hand

variable {setup : Setup} {h h' : Hand} {last street : Street}

theorem take_eq_ok {n : Nat} (hdeck : h.dealt + n ≤ h.terms.deck.length) :
    h.take n = .ok ((h.terms.deck.drop h.dealt).take n, { h with dealt := h.dealt + n }) := by
  simp [take, hdeck]

theorem dealBoard_eq_ok (hterms : h.terms = setup.terms) (hnext : last.next? = some street)
    (hdealt : h.dealt = setup.dealtBy last)
    (hdeck : setup.dealtBy street ≤ setup.terms.deck.length) :
    h.dealBoard street = .ok { h with
      dealt := setup.dealtBy street
      burned := h.burned ++
        (setup.terms.deck.drop (setup.dealtBy last)).take setup.terms.burnCount
      board := h.board ++
        (setup.terms.deck.drop (setup.dealtBy last + setup.terms.burnCount)).take
          street.boardCards } := by
  have hcards : setup.dealtBy last + setup.terms.burnCount + street.boardCards =
      setup.dealtBy street := Setup.dealtBy_next hnext
  have hburn : h.dealt + h.terms.burnCount ≤ h.terms.deck.length := by
    rw [hdealt, hterms]
    omega
  have hboard : h.dealt + h.terms.burnCount + street.boardCards ≤ h.terms.deck.length := by
    rw [hdealt, hterms]
    omega
  have hsum : h.dealt + h.terms.burnCount + street.boardCards = setup.dealtBy street := by
    rw [hdealt, hterms, hcards]
  have hsecond := take_eq_ok (h := { h with dealt := h.dealt + h.terms.burnCount }) hboard
  simp [dealBoard_eq, take_eq_ok hburn, hsecond, hsum, ← hdealt, ← hterms]

/-- The deck has all cards of a street that is dealt. -/
theorem dealtBy_le_of_dealBoard (hterms : h.terms = setup.terms) (hnext : last.next? = some street)
    (hdealt : h.dealt = setup.dealtBy last) (hdeal : h.dealBoard street = .ok h') :
    setup.dealtBy street ≤ setup.terms.deck.length := by
  have hcards : setup.dealtBy last + setup.terms.burnCount + street.boardCards =
      setup.dealtBy street := Setup.dealtBy_next hnext
  have hsome : street.boardCards ≠ 0 := by
    cases last <;> cases hnext <;> decide
  rw [dealBoard_eq] at hdeal
  obtain ⟨⟨burned, g⟩, hburn, hdeal⟩ := Outcome.ok_of_bind hdeal
  obtain ⟨-, rfl⟩ := take_inv hburn
  obtain ⟨⟨board, g⟩, hboard, -⟩ := Outcome.ok_of_bind hdeal
  have hfits : h.dealt + h.terms.burnCount + street.boardCards ≤ h.terms.deck.length :=
    (fits_of_take hboard).resolve_left hsome
  rwa [hdealt, hterms, hcards] at hfits

variable [Counting]

theorem holeCount_mul_length (ht : Table setup h) :
    h.terms.holeCount * h.seats.length = setup.holeCards := by
  rw [ht.terms, ht.length_seats, Setup.holeCards]

theorem dealHole_eq_ok (ht : Table setup h) (hdealt : h.dealt = 0) {dealer : Nat}
    (hdealer : h.dealerSeat = .ok dealer) (hdeck : setup.holeCards ≤ setup.terms.deck.length) :
    h.dealHole =
      .ok { h with dealt := setup.holeCards, seats := h.seats.map (setup.serve dealer) } := by
  have hcards := holeCount_mul_length ht
  have hfits : h.dealt + setup.holeCards ≤ h.terms.deck.length := by
    rwa [hdealt, Nat.zero_add, ht.terms]
  simp [dealHole_eq, hdealer, hcards, take_eq_ok hfits, ht.numbered.mapIdx_eq_map, hdealt,
    Setup.serve, ← ht.terms, ← ht.length_seats]

/-- The deck has all hole cards that are dealt. -/
theorem holeCards_le_of_dealHole (ht : Table setup h) (hdealt : h.dealt = 0)
    (hdeal : h.dealHole = .ok h') : setup.holeCards ≤ setup.terms.deck.length := by
  rw [dealHole_eq] at hdeal
  obtain ⟨dealer, -, hdeal⟩ := Outcome.ok_of_bind hdeal
  obtain ⟨⟨cards, g⟩, htake, -⟩ := Outcome.ok_of_bind hdeal
  have hfits := fits_of_take htake
  rw [holeCount_mul_length ht, hdealt, ht.terms] at hfits
  omega

theorem counted_refreshPots [setup.Counted] (ht : Table setup h) : h.refreshPots.PotsCounted := by
  have hasc := ht.numbered.ascending
  have hsum := sum_pots hasc ht.pot_nonneg ht.sum_pot_le
  have hnonneg : ∀ x ∈ h.contributions.pots.map SidePot.total, 0 ≤ x :=
    List.forall_mem_map.2 fun _ hp => total_nonneg_of_mem_pots hasc ht.pot_nonneg ht.sum_pot_le hp
  exact (Counting.total_eq_sum hnonneg (hsum ▸ ht.sum_pot_le)).trans hsum

end Hand

end PokerHand
