import PokerHand.Proofs.Fairness

/-!
# The strongest hands win

The result of a closed hand lists one pot for each amount that some seat has put in, and the winners
of a pot are the seats with the strongest hands among the unfolded ones that reach it. Strength is
what a fresh evaluation of the hole cards and the board says, so no score is out of date at the
payout.
-/
namespace PokerHand

/-- The power of the best hand that a seat can show. -/
def Terms.strength (t : Terms) (hole board : List Card) : Nat :=
  (MadeHand.best hole board t.requiredHole t.order).power

namespace Hand

section Showdown

variable {setup : Setup} {h : Hand} {p : SidePot} {s : Seat} {level : Int} {seat : Nat}

theorem mem_reaching :
    s ∈ h.reaching level ↔ s ∈ h.seats ∧ s.folded = false ∧ level ≤ s.pot := by
  simp [reaching]

variable [Counting]

/-- A payment names the winners in their order. -/
theorem seats_payment (h : Hand) (p : SidePot) :
    (h.payment p).winners.map Winner.seat = h.winners p.level :=
  Payout.map_seat_share _ _

namespace Settled

variable (hs : h.Settled setup)

include hs

theorem score_eq (hmem : s ∈ h.seats) (hlive : s.folded = false) :
    s.entrant.score = some (setup.terms.strength s.hole h.board) := by
  rw [Seat.entrant, hs.made s hmem, madeBy, hlive, hs.table.terms]
  rfl

theorem levels_eq : h.paid.map PaidPot.level = h.contributions.levels := by
  rw [paid, List.map_map, ← Contributions.map_level_pots, ← hs.pots]
  rfl

/-! Each layer is claimed by those who reach it. -/

variable [setup.Counted]

theorem pairwise_winners (hp : p ∈ h.pots) : (h.winners p.level).Pairwise (· < ·) := by
  refine Payout.pairwise_topSeats ?_
  rw [numbers_entrants, hs.claimants_eq hp]
  exact hs.table.numbered.nodup.sublist (List.filter_sublist.map _)

/-- The winners of a layer are the unfolded seats that reach it and whose hands nobody among them
exceeds. -/
theorem mem_winners_iff (hp : p ∈ h.pots) :
    seat ∈ h.winners p.level ↔
      ∃ s ∈ h.seats, s.number = seat ∧ s.folded = false ∧ p.level ≤ s.pot ∧
        ∀ t ∈ h.seats, t.folded = false → p.level ≤ t.pot →
          setup.terms.strength t.hole h.board ≤ setup.terms.strength s.hole h.board := by
  rw [winners, hs.claimants_eq hp, Payout.mem_topSeats]
  constructor
  · rintro ⟨e, he, rfl, best, hbest, htop⟩
    obtain ⟨s, hreach, rfl⟩ := List.mem_map.1 he
    obtain ⟨hmem, hlive, hlevel⟩ := mem_reaching.1 hreach
    obtain rfl : _ = best := Option.some.inj ((hs.score_eq hmem hlive).symm.trans hbest)
    refine ⟨s, hmem, rfl, hlive, hlevel, fun t ht htlive htlevel => ?_⟩
    exact htop t.entrant (List.mem_map_of_mem (mem_reaching.2 ⟨ht, htlive, htlevel⟩)) _
      (hs.score_eq ht htlive)
  · rintro ⟨s, hmem, rfl, hlive, hlevel, hstrongest⟩
    refine ⟨s.entrant, List.mem_map_of_mem (mem_reaching.2 ⟨hmem, hlive, hlevel⟩), rfl, _,
      hs.score_eq hmem hlive, ?_⟩
    intro r hr score hscore
    obtain ⟨t, hreach, rfl⟩ := List.mem_map.1 hr
    obtain ⟨ht, htlive, htlevel⟩ := mem_reaching.1 hreach
    obtain rfl : _ = score := Option.some.inj ((hs.score_eq ht htlive).symm.trans hscore)
    exact hstrongest t ht htlive htlevel

end Settled

end Showdown

/-- Three players who are dealt aces, queens and kings; the aces have the fewest chips. -/
def pairsOfThree : Setup where
  terms :=
    { Terms.standard with
      deck := [⟨.hearts, .queen⟩, ⟨.hearts, .king⟩, ⟨.hearts, .ace⟩,
        ⟨.spades, .queen⟩, ⟨.spades, .king⟩, ⟨.spades, .ace⟩,
        ⟨.clubs, .three⟩, ⟨.clubs, .two⟩, ⟨.diamonds, .seven⟩, ⟨.clubs, .nine⟩,
        ⟨.clubs, .five⟩, ⟨.diamonds, .four⟩, ⟨.clubs, .six⟩, ⟨.clubs, .jack⟩] }
  players := [⟨60, [.dealer]⟩, ⟨100, [.smallBlind]⟩, ⟨100, [.bigBlind]⟩]

end Hand

end PokerHand
