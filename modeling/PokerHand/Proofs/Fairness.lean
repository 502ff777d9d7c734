import PokerHand.Proofs.Settlement

/-!
# Side pots are fair

Somebody who has not folded has as much in the pot as anybody, so each layer of the pot goes to
seats that reach it. From every seat nobody takes out more than it has put in itself, the best hand
takes just that, and what nobody has matched comes back.
-/
namespace PokerHand.Hand

section Fairness

variable {setup : Setup} {h : Hand} {p : SidePot} {s t : Seat}

/-- What everybody has put in up to as much as the seat. -/
def matched (h : Hand) (s : Seat) : Int := (h.seats.map fun t => min s.pot t.pot).sum

/-- The seats apart from one. -/
def others (h : Hand) (s : Seat) : List Seat := h.seats.filter fun t => t.number != s.number

theorem mem_others : t ∈ h.others s ↔ t ∈ h.seats ∧ t.number ≠ s.number := by
  simp [others]

variable [Counting]

/-- What a seat takes out of a layer. -/
def cut (h : Hand) (p : SidePot) (s : Seat) : Int :=
  (((h.payment p).winners.filter fun w => w.seat == s.number).map Winner.withdraw).sum

theorem withdrawn_paid (h : Hand) (s : Seat) :
    Payout.withdrawn h.paid s.number = (h.pots.map fun p => h.cut p s).sum := by
  rw [Payout.withdrawn, paid, List.map_map]
  rfl

theorem cut_eq_zero (hnone : ∀ w ∈ (h.payment p).winners, w.seat ≠ s.number) : h.cut p s = 0 := by
  rw [cut, List.filter_eq_nil_iff.2 fun w hw => by simpa using hnone w hw]
  rfl

namespace Settled

variable [setup.Counted] (hs : h.Settled setup)

include hs

theorem claimants_eq (hp : p ∈ h.pots) : h.claimants p.level = h.reaching p.level := by
  have hreach := reaching_ne_nil hs.table.numbered.ascending hs.finished.led (hs.pots ▸ hp)
  rw [claimants, if_neg hreach]

/-- Whoever wins a layer reaches it, and nobody who does has a stronger hand. -/
theorem winner_unbeaten (hp : p ∈ h.pots) {w : Winner} (hw : w ∈ (h.payment p).winners) :
    ∃ r ∈ h.seats, r.number = w.seat ∧ r.folded = false ∧ p.level ≤ r.pot ∧
      ∀ t ∈ h.seats, t.folded = false → p.level ≤ t.pot → ¬ t.Beats r := by
  obtain ⟨i, hi, rfl⟩ := List.mem_mapIdx.1 hw
  obtain ⟨r, hr, hnumber, hbest⟩ := unbeaten_of_mem_winners (List.getElem_mem hi)
  rw [hs.claimants_eq hp] at hr hbest
  obtain ⟨hmem, hreach⟩ := List.mem_filter.1 hr
  simp only [Bool.and_eq_true, Bool.not_eq_true', decide_eq_true_eq] at hreach
  refine ⟨r, hmem, hnumber, hreach.1, hreach.2, fun t ht hlive hlevel => hbest t ?_⟩
  exact List.mem_filter.2 ⟨ht, by simp [hlive, hlevel]⟩

theorem cut_nonneg (hp : p ∈ h.pots) (s : Seat) : 0 ≤ h.cut p s :=
  List.sum_nonneg (List.forall_mem_map.2 fun _ hw =>
    hs.withdraw_nonneg hp (List.mem_filter.1 hw).1)

theorem cut_le_total (hp : p ∈ h.pots) (s : Seat) : h.cut p s ≤ p.total := by
  rw [← hs.sum_payment hp, cut, Payout.sum_filter_seat]
  refine List.sum_le_sum fun w hw => ?_
  have := hs.withdraw_nonneg hp hw
  split <;> omega

theorem cut_eq_total (hp : p ∈ h.pots) (hall : ∀ w ∈ (h.payment p).winners, w.seat = s.number) :
    h.cut p s = p.total := by
  rw [← hs.sum_payment hp, cut, Payout.sum_filter_seat]
  exact sum_map_congr fun w hw => if_pos (hall w hw)

/-- Nobody takes anything out of a layer that it has not reached. -/
theorem cut_eq_zero_of_lt (hp : p ∈ h.pots) (hmem : s ∈ h.seats) (hlt : s.pot < p.level) :
    h.cut p s = 0 := by
  refine cut_eq_zero fun w hw hseat => ?_
  obtain ⟨r, hr, hnumber, -, hreach, -⟩ := hs.winner_unbeaten hp hw
  obtain rfl := hs.table.numbered.eq_of_number hr hmem (hnumber.trans hseat)
  omega

theorem matched_eq (hmem : s ∈ h.seats) :
    h.matched s = (h.pots.map fun p => if p.level ≤ s.pot then p.total else 0).sum := by
  rw [hs.pots]
  have ht := hs.table
  exact (sum_pots_upTo ht.numbered.ascending ht.pot_nonneg ht.sum_pot_le hmem).symm

/-- From every seat nobody takes out more than it has put in itself. -/
theorem withdrawn_le_matched (hmem : s ∈ h.seats) :
    Payout.withdrawn h.paid s.number ≤ h.matched s := by
  rw [withdrawn_paid, hs.matched_eq hmem]
  refine List.sum_le_sum fun p hp => ?_
  split
  · exact hs.cut_le_total hp s
  · next hlow => exact Int.le_of_eq (hs.cut_eq_zero_of_lt hp hmem (Int.not_le.1 hlow))

/-- The one best hand takes out all that it can win. -/
theorem withdrawn_eq_matched (hmem : s ∈ h.seats) (hlive : s.folded = false)
    (hbest : ∀ t ∈ h.seats, t.number ≠ s.number → t.folded = false → s.Beats t) :
    Payout.withdrawn h.paid s.number = h.matched s := by
  rw [withdrawn_paid, hs.matched_eq hmem]
  refine sum_map_congr fun p hp => ?_
  split
  · next hreach =>
    refine hs.cut_eq_total hp fun w hw => ?_
    obtain ⟨r, hr, hnumber, hunfolded, -, hunbeaten⟩ := hs.winner_unbeaten hp hw
    by_contra hother
    exact hunbeaten s hmem hlive hreach (hbest r hr (hnumber.trans_ne hother) hunfolded)
  · next hlow => exact hs.cut_eq_zero_of_lt hp hmem (Int.not_le.1 hlow)

/-- A seat gets back whatever it has in the pot above everybody else. -/
theorem pot_sub_le_withdrawn (hmem : s ∈ h.seats) (ht : t ∈ h.seats)
    (htop : ∀ r ∈ h.seats, r.number ≠ s.number → r.pot ≤ t.pot) :
    s.pot - t.pot ≤ Payout.withdrawn h.paid s.number := by
  have hasc := hs.table.numbered.ascending
  have hpot := hs.table.pot_nonneg
  have hbound := hs.table.sum_pot_le
  have halone : ∀ p ∈ h.pots, (p.total - if p.level ≤ t.pot then p.total else 0) ≤ h.cut p s := by
    intro p hp
    split
    · have := hs.cut_nonneg hp s
      omega
    · next hlow =>
      have hall : ∀ w ∈ (h.payment p).winners, w.seat = s.number := by
        intro w hw
        obtain ⟨r, hr, hnumber, -, hreach, -⟩ := hs.winner_unbeaten hp hw
        by_contra hother
        have := htop r hr (hnumber.trans_ne hother)
        omega
      have := hs.cut_eq_total hp hall
      omega
  calc
    s.pot - t.pot ≤ s.pot - min t.pot s.pot := by omega
    _ ≤ (h.seats.map fun r => r.pot - min t.pot r.pot).sum :=
      le_sum_map (f := fun r : Seat => r.pot - min t.pot r.pot) (fun r _ => by omega) hmem
    _ = (h.pots.map fun p => p.total - if p.level ≤ t.pot then p.total else 0).sum := by
      rw [sum_map_sub, sum_map_sub, hs.pots, sum_pots_upTo hasc hpot hbound ht]
      exact congrArg (· - _) (sum_pots hasc hpot hbound).symm
    _ ≤ (h.pots.map fun p => h.cut p s).sum := List.sum_le_sum halone
    _ = Payout.withdrawn h.paid s.number := (withdrawn_paid h s).symm

end Settled

/-- Nobody sits alone at a table. -/
theorem others_ne_nil (ha : setup.Accepted) (ht : Table setup h) (s : Seat) : h.others s ≠ [] := by
  have htwo := ha.two_le_players
  rw [← ht.length_seats] at htwo
  obtain ⟨place, hlt, hne⟩ : ∃ place < h.seats.length, place ≠ s.number := by
    by_cases hzero : s.number = 0
    · exact ⟨1, by omega, by omega⟩
    · exact ⟨0, by omega, Ne.symm hzero⟩
  have hnumber := ht.numbered.number_of_getElem? (List.getElem?_eq_getElem hlt)
  exact List.ne_nil_of_mem (mem_others.2 ⟨List.getElem_mem hlt, hnumber.trans_ne hne⟩)

/-- A seat loses at most what one of the others has put in. -/
theorem Settled.neg_most_le_changed [setup.Counted] (hs : h.Settled setup) (ha : setup.Accepted)
    (hmem : s ∈ h.seats) : ∃ most, ((h.others s).map Seat.pot).max? = some most ∧
      -most ≤ Payout.withdrawn h.paid s.number - s.pot := by
  obtain ⟨t, ht, hmost, htop⟩ := exists_max_pot (others_ne_nil ha hs.table s)
  have hback := hs.pot_sub_le_withdrawn hmem (mem_others.1 ht).1 fun r hr hother =>
    htop r (mem_others.2 ⟨hr, hother⟩)
  exact ⟨t.pot, hmost, by omega⟩

end Fairness

end PokerHand.Hand
