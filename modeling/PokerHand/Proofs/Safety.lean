import PokerHand.Proofs.WholeNumbers

/-!
# Calls never find the hand corrupted

However a hand was played, the next call succeeds or is refused because the action is not legal now
or the phase is another. The faults of a corrupted hand are never met: no task is missing, no deck
runs short, no pot goes without a winner, and no place is vacant. `Seated` says of the places that
a hand names that somebody sits there, and of the numbers it divides by that they are not zero. As
long as a machine word holds the chips of the hand, no amount gets out of one either; a blind that
is accepted can still be too large for that.
-/
namespace PokerHand.Hand

variable {h : Hand}

/-- There are seats to go round, everybody whom the hand turns to has one of them, and once the pots
are paid each of them was shared by somebody. -/
structure Seated (h : Hand) : Prop where
  seats_pos : 0 < h.seats.length
  dealer_lt : ∃ dealer, h.dealerSeat = .ok dealer ∧ dealer < h.seats.length
  dealt_lt : ∀ dealer, ∀ place ∈ dealOrder h.seats.length dealer, place < h.seats.length
  next_lt : ∀ start place, Turn.nextMovable h.seats start = some place → place < h.seats.length
  asked_lt : ∀ place ∈ h.actionable, place < h.seats.length
  shared : h.phase = .settlementCompleted ∨ h.phase = .gameClosed →
    ∃ r, h.result = some r ∧
      (∀ pot ∈ h.pots, ∀ place ∈ pot.contributors, place < h.seats.length) ∧
      ∀ pot ∈ r.pots, 0 < pot.winners.length ∧ ∀ w ∈ pot.winners, w.seat < h.seats.length

theorem nextMovable_lt {seats : List Seat} {start place : Nat}
    (hnext : Turn.nextMovable seats start = some place) : place < seats.length := by
  obtain ⟨k, hk, rfl⟩ := List.mem_map.1 (List.mem_of_find?_eq_some hnext)
  exact Nat.mod_lt _ (Nat.zero_lt_of_lt (List.mem_range.1 hk))

section Safety

variable [Counting] {setup : Setup}

theorem seated_of_table (ha : setup.Accepted) (ht : Table setup h)
    (hsettled : h.phase = .settlementCompleted ∨ h.phase = .gameClosed → h.Settled setup) :
    h.Seated where
  seats_pos := List.length_pos_of_ne_nil (ht.seats_ne_nil ha)
  dealer_lt := by
    obtain ⟨dealer, hdealer⟩ := ht.dealerSeat_eq_ok ha
    exact ⟨dealer, hdealer, dealerSeat_lt hdealer⟩
  dealt_lt := fun _ _ => dealOrder_lt
  next_lt := fun _ _ => nextMovable_lt
  asked_lt := by
    intro place hplace
    obtain ⟨s, hs, rfl⟩ := List.mem_map.1 hplace
    exact ht.numbered.number_lt (List.mem_of_mem_filter hs)
  shared := by
    intro hphase
    obtain ⟨hover, hpots, hmade, r, hresult, hsettle⟩ := hsettled hphase
    have hlive := hover.closing.one_le_unfolded
    rw [settle_eq_ok ht.numbered hmade hlive hpots] at hsettle
    obtain rfl := Except.ok.inj hsettle
    refine ⟨_, hresult, fun pot hpot place hplace => ?_, fun paid hpaid => ?_⟩
    · rw [contributors_of_mem_pots ht.numbered.ascending (hpots ▸ hpot)] at hplace
      obtain ⟨s, hs, rfl⟩ := List.mem_map.1 hplace
      exact ht.numbered.number_lt (List.mem_of_mem_filter hs)
    · obtain ⟨pot, -, rfl⟩ := List.mem_map.1 hpaid
      have hseats := Payout.map_seat_share pot.total (h.winners pot.level)
      refine ⟨?_, fun w hw => ?_⟩
      · rw [← List.length_map Winner.seat]
        show 0 < ((Payout.share pot.total (h.winners pot.level)).map Winner.seat).length
        rw [hseats]
        exact List.length_pos_of_ne_nil (winners_ne_nil hmade hlive pot.level)
      · have hwinner : w.seat ∈ h.winners pot.level := hseats ▸ List.mem_map_of_mem hw
        obtain ⟨s, hs, -, hnumber⟩ := mem_winners hwinner
        exact hnumber ▸ ht.numbered.number_lt hs

theorem Entering.seated (ha : setup.Accepted) (he : h.Entering setup) : h.Seated :=
  seated_of_table ha he.table fun hphase => by
    rcases hphase with hp | hp <;> rwa [Entering, hp] at he

theorem Resting.seated (ha : setup.Accepted) (hr : h.Resting setup) : h.Seated :=
  seated_of_table ha hr.table fun hphase => by
    rcases hphase with hp | hp <;> rw [Resting, hp] at hr
    · exact hr.elim
    · exact hr.1

end Safety

/-- Two players, and a big blind as large as a word allows. -/
def vastBlind : Setup where
  terms := { Terms.standard with blinds := ⟨0, 5, 9223372036854775807⟩ }
  players := [⟨1000, [.dealer, .smallBlind]⟩, ⟨100, [.bigBlind]⟩]

end PokerHand.Hand
