import PokerHand.Proofs.Snapshot.Faithful
import PokerHand.Snapshot.Chips

/-!
# Pots and payouts survive a snapshot
-/
namespace PokerHand

open Text.Numeral

structure SidePot.Fits (p : SidePot) : Prop where
  level : isAmount p.level
  wager : isAmount p.wager
  total : isAmount p.total
  contributors : ∀ seat ∈ p.contributors, seat < countBound

theorem SidePot.faithful : Faithful SidePot.toJson SidePot.ofJson? SidePot.Fits where
  read_write := by
    intro p h
    have hcols : p.toJson.columns ["level", "wager", "total", "contributors"] 0 =
        some [some (.int p.level), some (.int p.wager), some (.int p.total),
          some (.ofList .nat p.contributors)] := rfl
    have hcontributors := (Json.faithful_list Json.faithful_count).need h.contributors
    rw [SidePot.ofJson?, Json.columns_bind hcols]
    simp [Json.faithful_amount.need h.level, Json.faithful_amount.need h.wager,
      Json.faithful_amount.need h.total, hcontributors]
  fits := by
    intro j p h
    obtain ⟨cols, -, h⟩ := Option.bind_eq_some_iff.1 h
    split at h
    · obtain ⟨level, hlevel, h⟩ := Json.faithful_amount.of_need h
      obtain ⟨wager, hwager, h⟩ := Json.faithful_amount.of_need h
      obtain ⟨total, htotal, h⟩ := Json.faithful_amount.of_need h
      obtain ⟨contributors, hcontributors, h⟩ :=
        (Json.faithful_list Json.faithful_count).of_need h
      obtain rfl := Option.some.inj h
      exact ⟨hlevel, hwager, htotal, hcontributors⟩
    · cases h

structure Balance.Fits (b : Balance) : Prop where
  seat : b.seat < countBound
  final : isAmount b.final
  changed : isAmount b.changed

theorem Balance.faithful : Faithful Balance.toJson Balance.ofJson? Balance.Fits where
  read_write := by
    intro b h
    have hcols : b.toJson.columns ["idx", "final", "changed"] 0 =
        some [some (.nat b.seat), some (.int b.final), some (.int b.changed)] := rfl
    rw [Balance.ofJson?, Json.columns_bind hcols]
    simp [Json.faithful_count.need h.seat, Json.faithful_amount.need h.final,
      Json.faithful_amount.need h.changed]
  fits := by
    intro j b h
    obtain ⟨cols, -, h⟩ := Option.bind_eq_some_iff.1 h
    split at h
    · obtain ⟨seat, hseat, h⟩ := Json.faithful_count.of_need h
      obtain ⟨final, hfinal, h⟩ := Json.faithful_amount.of_need h
      obtain ⟨changed, hchanged, h⟩ := Json.faithful_amount.of_need h
      obtain rfl := Option.some.inj h
      exact ⟨hseat, hfinal, hchanged⟩
    · cases h

structure Winner.Fits (w : Winner) : Prop where
  seat : w.seat < countBound
  withdraw : isAmount w.withdraw

theorem Winner.faithful : Faithful Winner.toJson Winner.ofJson? Winner.Fits where
  read_write := by
    intro w h
    have hcols : w.toJson.columns ["idx", "withdraw"] 0 =
        some [some (.nat w.seat), some (.int w.withdraw)] := rfl
    rw [Winner.ofJson?, Json.columns_bind hcols]
    simp [Json.faithful_count.need h.seat, Json.faithful_amount.need h.withdraw]
  fits := by
    intro j w h
    obtain ⟨cols, -, h⟩ := Option.bind_eq_some_iff.1 h
    split at h
    · obtain ⟨seat, hseat, h⟩ := Json.faithful_count.of_need h
      obtain ⟨withdraw, hwithdraw, h⟩ := Json.faithful_amount.of_need h
      obtain rfl := Option.some.inj h
      exact ⟨hseat, hwithdraw⟩
    · cases h

structure PaidPot.Fits (p : PaidPot) : Prop where
  level : isAmount p.level
  total : isAmount p.total
  winners : ∀ w ∈ p.winners, w.Fits

theorem PaidPot.faithful : Faithful PaidPot.toJson PaidPot.ofJson? PaidPot.Fits where
  read_write := by
    intro p h
    have hcols : p.toJson.columns ["level", "total", "winners"] 0 =
        some [some (.int p.level), some (.int p.total),
          some (.ofList Winner.toJson p.winners)] := rfl
    rw [PaidPot.ofJson?, Json.columns_bind hcols]
    simp [Json.faithful_amount.need h.level, Json.faithful_amount.need h.total,
      (Json.faithful_list Winner.faithful).need h.winners]
  fits := by
    intro j p h
    obtain ⟨cols, -, h⟩ := Option.bind_eq_some_iff.1 h
    split at h
    · obtain ⟨level, hlevel, h⟩ := Json.faithful_amount.of_need h
      obtain ⟨total, htotal, h⟩ := Json.faithful_amount.of_need h
      obtain ⟨winners, hwinners, h⟩ := (Json.faithful_list Winner.faithful).of_need h
      obtain rfl := Option.some.inj h
      exact ⟨hlevel, htotal, hwinners⟩
    · cases h

structure Payout.Fits (p : Payout) : Prop where
  balances : ∀ b ∈ p.balances, b.Fits
  pots : ∀ q ∈ p.pots, q.Fits

theorem Payout.faithful : Faithful Payout.toJson Payout.ofJson? Payout.Fits where
  read_write := by
    intro p h
    have hcols : p.toJson.columns ["players", "pots"] 0 =
        some [some (.ofList Balance.toJson p.balances), some (.ofList PaidPot.toJson p.pots)] :=
      rfl
    rw [Payout.ofJson?, Json.columns_bind hcols]
    simp [(Json.faithful_list Balance.faithful).need h.balances,
      (Json.faithful_list PaidPot.faithful).need h.pots]
  fits := by
    intro j p h
    obtain ⟨cols, -, h⟩ := Option.bind_eq_some_iff.1 h
    split at h
    · obtain ⟨balances, hbalances, h⟩ := (Json.faithful_list Balance.faithful).of_need h
      obtain ⟨pots, hpots, h⟩ := (Json.faithful_list PaidPot.faithful).of_need h
      obtain rfl := Option.some.inj h
      exact ⟨hbalances, hpots⟩
    · cases h

end PokerHand
