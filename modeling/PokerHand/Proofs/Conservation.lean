import PokerHand.Proofs.Play

/-!
# No chip is made or lost

However a hand is played whose chips a machine word holds, every seat keeps its bankroll and has all
of it in its stack, its wager and the pot, and the layers of the pot hold what the seats have in it.
While antes are collected the layers are not counted yet.
-/
namespace PokerHand.Hand

section Counted

variable [Counting] {setup : Setup} {h : Hand}

theorem Readying.counted [setup.Counted] (hr : h.Readying setup) : h.PotsCounted := by
  rcases hr with ⟨-, hc⟩ | ⟨hpre, -⟩
  · exact hc
  · exact hpre.counted

theorem Resting.counted [setup.Counted] (hr : h.Resting setup)
    (hante : h.phase ≠ .anteRequested) : h.PotsCounted := by
  unfold Resting at hr
  split at hr
  · exact hr.1.counted
  · next hp => exact ((collecting_ready hp).1 hr.gated.collecting).2.counted
  · contradiction
  · next hp => exact ((collecting_blinds hp).1 hr.gated.collecting).2.counted
  · obtain ⟨street, ho⟩ := hr.inRound.onStreet
    exact ho.counted
  · obtain ⟨⟨street, -, hb⟩, -⟩ := hr
    exact hb.onStreet.counted
  · obtain ⟨street, ho⟩ := hr.1.finished.closing.onStreet
    exact ho.counted
  · exact hr.elim

end Counted

end PokerHand.Hand
