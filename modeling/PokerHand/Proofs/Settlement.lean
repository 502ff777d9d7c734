import PokerHand.Proofs.Play

/-!
# A closed hand is settled to the chip

The result of a closed hand pays out what the seats have in the pot, as long as its chips are
counted exactly: every pot goes to its winners without a rest, the bankrolls together stay what they
were, and a folded seat gets nothing back.
-/
namespace PokerHand

/-- A payout of what the seats can have put in does not exceed the bound of counting. -/
theorem Seat.Sound.covers [Counting] {setup : Setup} [setup.Counted] {s : Seat}
    {pots : List PaidPot} (hs : s.Sound setup) (hwager : s.wager = 0)
    (hout : Payout.paidOut pots ≤ 3 * setup.bankrolls) :
    Payout.Covers setup.bound pots s.entrant := by
  have hbound := setup.bankrolls_lt_bound
  have hle := hs.bankroll_le
  have hbalanced := hs.balanced
  obtain ⟨hbankroll, hlow, hhigh, hmost⟩ := hs.within
  have hcommitted : s.entrant.committed = s.pot + s.wager := hs.committed_eq
  have hsame : s.entrant.bankroll = s.bankroll := rfl
  exact ⟨by omega, by omega, by omega, by omega⟩

namespace Hand

section Settled

variable [Counting] {setup : Setup} {h : Hand} {p : SidePot} {s : Seat}

/-- What a settled hand pays out. -/
def paid (h : Hand) : List PaidPot := h.pots.map h.payment

/-- Whoever wins a pot sits at the table and has not folded. -/
theorem unfolded_of_winner {w : Winner} (hw : w ∈ (h.payment p).winners) :
    ∃ s ∈ h.seats, s.folded = false ∧ s.number = w.seat := by
  obtain ⟨i, hi, rfl⟩ := List.mem_mapIdx.1 hw
  exact mem_winners (List.getElem_mem hi)

namespace Settled

variable (hs : h.Settled setup)

include hs

/-- The result of a settled hand in closed form. -/
theorem result_eq : h.result = some ⟨h.entrants.map (Payout.balance h.paid), h.paid⟩ := by
  obtain ⟨r, hresult, hsettle⟩ := hs.result
  rw [settle_eq_ok hs.table.numbered hs.made hs.finished.closing.one_le_unfolded hs.pots]
    at hsettle
  rw [hresult, ← Except.ok.inj hsettle]
  rfl

/-- A folded seat wins nothing. -/
theorem withdrawn_eq_zero (hmem : s ∈ h.seats) (hfolded : s.folded = true) :
    Payout.withdrawn h.paid s.number = 0 := by
  refine Payout.withdrawn_eq_zero fun p hp w hw hseat => ?_
  obtain ⟨pot, -, rfl⟩ := List.mem_map.1 hp
  obtain ⟨r, hr, hlive, hnumber⟩ := unfolded_of_winner hw
  obtain rfl := hs.table.numbered.eq_of_number hr hmem (hnumber.trans hseat)
  simp [hlive] at hfolded

/-! What is paid is counted exactly. -/

variable [setup.Counted]

theorem sum_paid : (h.paid.map PaidPot.total).sum = (h.seats.map Seat.pot).sum := by
  have ht := hs.table
  have htotals : h.paid.map PaidPot.total = h.pots.map SidePot.total := by
    rw [paid, List.map_map]
    rfl
  rw [htotals, hs.pots]
  exact sum_pots ht.numbered.ascending ht.pot_nonneg ht.sum_pot_le

/-- A pot holds no negative amount, and no more than all seats have put in. -/
theorem total_within (hp : p ∈ h.pots) :
    0 ≤ p.total ∧ p.total ≤ (h.seats.map Seat.pot).sum := by
  have ht := hs.table
  have hnonneg : ∀ q ∈ h.pots, 0 ≤ q.total := fun q hq =>
    total_nonneg_of_mem_pots ht.numbered.ascending ht.pot_nonneg ht.sum_pot_le (hs.pots ▸ hq)
  refine ⟨hnonneg p hp, ?_⟩
  have hle := le_sum_map hnonneg hp
  have hsum := hs.sum_paid
  rw [paid, List.map_map] at hsum
  exact hsum ▸ hle

/-- The winners of a pot share all of it. -/
theorem sum_payment (hp : p ∈ h.pots) :
    ((h.payment p).winners.map Winner.withdraw).sum = p.total := by
  obtain ⟨htotal, hle⟩ := hs.total_within hp
  exact Payout.sum_share htotal (hle.trans hs.table.sum_pot_le)
    (winners_ne_nil hs.made hs.finished.closing.one_le_unfolded p.level)

theorem withdraw_nonneg (hp : p ∈ h.pots) {w : Winner} (hw : w ∈ (h.payment p).winners) :
    0 ≤ w.withdraw := by
  obtain ⟨htotal, hle⟩ := hs.total_within hp
  exact Payout.withdraw_nonneg htotal (hle.trans hs.table.sum_pot_le) hw

theorem paid_nonneg : ∀ p ∈ h.paid, ∀ w ∈ p.winners, 0 ≤ w.withdraw := by
  intro p hp w hw
  obtain ⟨pot, hpot, rfl⟩ := List.mem_map.1 hp
  exact hs.withdraw_nonneg hpot hw

/-- The winners are paid all that is in the pot. -/
theorem paidOut_eq : Payout.paidOut h.paid = (h.seats.map Seat.pot).sum := by
  rw [← hs.sum_paid]
  refine sum_map_congr fun p hp => ?_
  obtain ⟨pot, hpot, rfl⟩ := List.mem_map.1 hp
  exact hs.sum_payment hpot

/-- The seats together take out what they have put in. -/
theorem sum_withdrawn :
    (h.seats.map fun s => Payout.withdrawn h.paid s.number).sum = (h.seats.map Seat.pot).sum := by
  have hwinners : ∀ p ∈ h.paid, ∀ w ∈ p.winners, w.seat ∈ h.seats.map Seat.number := by
    intro p hp w hw
    obtain ⟨pot, -, rfl⟩ := List.mem_map.1 hp
    obtain ⟨s, hmem, -, hnumber⟩ := unfolded_of_winner hw
    exact hnumber ▸ List.mem_map_of_mem hmem
  have hpaid := Payout.sum_withdrawn hs.table.numbered.nodup hwinners
  rw [List.map_map] at hpaid
  exact hpaid.trans hs.paidOut_eq

theorem withdrawnBy_eq (balances : List Balance) (seat : Nat) :
    Payout.withdrawnBy ⟨balances, h.paid⟩ seat = Payout.withdrawn h.paid seat :=
  Payout.withdrawnBy_eq hs.paid_nonneg (hs.paidOut_eq ▸ hs.table.sum_pot_le) seat

/-- What the hand did to the bankroll of a seat. -/
theorem balance_eq (hmem : s ∈ h.seats) : Payout.balance h.paid s.entrant =
    ⟨s.number, s.stack + Payout.withdrawn h.paid s.number,
      Payout.withdrawn h.paid s.number - s.pot⟩ := by
  have ht := hs.table
  have hsound := ht.sound s hmem
  have hbalanced := hsound.balanced
  have hwager := hs.finished.wager_eq_zero s hmem
  have hout : Payout.paidOut h.paid ≤ 3 * setup.bankrolls :=
    hs.paidOut_eq ▸ ht.sum_pot_le_bankrolls
  rw [Payout.balance_of_covers hs.paid_nonneg (hs.paidOut_eq ▸ ht.sum_pot_le)
    (hsound.covers hwager hout), Balance.mk.injEq]
  simp only [Seat.entrant, hsound.committed_eq]
  exact ⟨trivial, by omega, by omega⟩

theorem balances_eq : h.entrants.map (Payout.balance h.paid) = h.seats.map fun s =>
    ⟨s.number, s.stack + Payout.withdrawn h.paid s.number,
      Payout.withdrawn h.paid s.number - s.pot⟩ := by
  rw [entrants_eq, List.map_map]
  exact List.map_congr_left fun s hmem => hs.balance_eq hmem

end Settled

end Settled

end Hand

end PokerHand
