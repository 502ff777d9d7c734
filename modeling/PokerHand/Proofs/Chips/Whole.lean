import PokerHand.Proofs.Betting.Moves
import PokerHand.Proofs.Chips.Settlement

/-!
# Counting as whole numbers do

What is weighed and paid out within the bound of counting comes to the same when it is counted in
whole numbers.
-/
namespace PokerHand

open Counting

namespace Stakes

variable [Counting] {k : Stakes} {s : Seat} {bound : Int} [Upto bound] (hb : k.Within bound s)

include hb

theorem offers_whole : k.offers s = @offers .whole k s := by
  simp only [offers, hb.fit_own, hb.fit_least, fit_whole]

theorem capped_whole (level : Int) : k.capped level = @capped .whole k level := by
  simp only [capped, hb.fit_least, fit_whole]

theorem callMove_whole : k.callMove s = @callMove .whole k s := by
  simp only [callMove, hb.fit_behind, fit_whole]

theorem betMove_whole (chips : Int) : k.betMove s chips = @betMove .whole k s chips := by
  simp only [betMove, capped_whole hb]

/-- A level that exceeds all chips of the seat is not weighed any further. -/
theorem raiseMove_whole (level : Int) : k.raiseMove s level = @raiseMove .whole k s level := by
  have hsize := hb.raiseSize_nonneg
  unfold raiseMove
  by_cases hlevel : (level ≤ 0 || level < k.wager) = true
  · rw [if_pos hlevel, if_pos hlevel]
  · have hcapped := capped_cases k level
    simp only [if_neg hlevel, callMove_whole hb, hb.fit_own, capped_whole hb] at hcapped ⊢
    simp only [Bool.or_eq_true, decide_eq_true_eq, not_or, Int.not_le, Int.not_lt] at hlevel
    rw [hb.fit_least] at hcapped
    generalize @capped .whole k level = capped at *
    by_cases hcovers : s.stack + s.wager ≤ capped
    · simp [hcovers]
    · obtain ⟨hrise, hchips⟩ := hb.fit_level (show k.wager ≤ capped by omega) (by omega)
      simp only [hrise, hchips, fit_whole]

end Stakes

namespace Contributions

variable [Counting] {c : Contributions} {bound : Int} [Upto bound]
  (hpos : ∀ e ∈ c.entries, 0 < e.2.amount) (hbound : c.staked ≤ bound)

include hpos hbound

theorem layer_whole {floor level : Int} (hfloor : 0 ≤ floor) (hlevel : floor ≤ level)
    (hend : level ∈ c.levels) : c.layer floor level = @layer .whole c floor level := by
  obtain ⟨hwager, htotal⟩ := total_layer hpos hbound hfloor hlevel hend
  obtain ⟨-, htotal'⟩ := @total_layer .whole bound _ c hpos hbound floor level hfloor hlevel hend
  have hlayer : c.layer floor level = ⟨level, (c.layer floor level).wager,
      (c.layer floor level).total, (@layer .whole c floor level).contributors⟩ := rfl
  rw [hlayer, hwager, htotal, ← htotal']
  rfl

theorem layersFrom_whole {floor : Int} {levels : List Int} (hfloor : 0 ≤ floor)
    (hasc : (floor :: levels).Pairwise (· < ·)) (hends : ∀ l ∈ levels, l ∈ c.levels) :
    c.layersFrom floor levels = @layersFrom .whole c floor levels := by
  induction levels generalizing floor with
  | nil => rfl
  | cons level rest ih =>
      obtain ⟨habove, hrest⟩ := List.pairwise_cons.1 hasc
      obtain ⟨hend, hends⟩ := List.forall_mem_cons.1 hends
      have hlevel := Int.le_of_lt (habove level List.mem_cons_self)
      simp only [layersFrom, layer_whole hpos hbound hfloor hlevel hend,
        ih (hfloor.trans hlevel) hrest hends]

theorem pots_whole : c.pots = @pots .whole c := by
  have hasc : (0 :: c.levels).Pairwise (· < ·) :=
    List.pairwise_cons.2 ⟨levels_pos hpos, pairwise_levels c⟩
  rw [pots_eq_layersFrom, @pots_eq_layersFrom .whole,
    layersFrom_whole hpos hbound (Int.le_refl 0) hasc fun _ hl => hl]

end Contributions

namespace Payout

variable [Counting] {bound : Int} [Upto bound]

theorem share_whole {total : Int} (htotal : 0 ≤ total) (hbound : total ≤ bound)
    (seats : List Nat) : share total seats = @share .whole total seats := by
  rw [share_eq htotal hbound, @share_eq .whole bound _ total htotal hbound]

theorem balance_whole {pots : List PaidPot} {e : Entrant}
    (hpaid : ∀ p ∈ pots, ∀ w ∈ p.winners, 0 ≤ w.withdraw) (hbound : paidOut pots ≤ bound)
    (hcovers : Covers bound pots e) : balance pots e = @balance .whole pots e := by
  rw [balance_of_covers hpaid hbound hcovers,
    @balance_of_covers .whole bound _ pots e hpaid hbound hcovers]

end Payout

end PokerHand
