import PokerHand.Betting
import PokerHand.Proofs.Chips.Counting
import PokerHand.Proofs.Outcome

/-!
# Moves that fit the stakes

`Stakes.mem_offers_iff` says when an action is offered. Whatever a player then asks for is settled
into a move that its stack covers and that respects the wager to match and the least raise, as long
as the amounts that are weighed against each other are within the bound of counting
(`Stakes.Within`).
-/
namespace PokerHand

/-- What a move of the seat `s` against the stakes `k` has to respect. -/
def Move.Fits (k : Stakes) (s : Seat) : Move → Prop
  | .fold => s.wager < k.wager
  | .check => k.wager ≤ s.wager
  | .call chips => 0 < chips ∧ chips ≤ s.stack ∧ s.wager + chips = k.wager
  | .bet chips | .raise chips =>
      0 < chips ∧ chips ≤ s.stack ∧ k.minBet ≤ s.wager + chips - k.wager
  | .allin chips => 0 < chips ∧ chips = s.stack

/-- A bet or a raise goes up by at least as much as the last full raise. -/
def Move.Full (k : Stakes) (s : Seat) : Move → Prop
  | .bet chips | .raise chips => k.raiseSize ≤ s.wager + chips - k.wager
  | _ => True

namespace Stakes

open Counting

/-- A seat with chips behind faces a wager and a last raise, and neither the least raise nor all
chips that the seat can bring in exceed `bound`. -/
structure Within (bound : Int) (k : Stakes) (s : Seat) : Prop where
  stack_pos : 0 < s.stack
  wager_nonneg : 0 ≤ s.wager
  wager_le : s.wager ≤ k.wager
  raiseSize_nonneg : 0 ≤ k.raiseSize
  least_le : k.wager + k.raiseSize ≤ bound
  own_le : s.stack + s.wager ≤ bound

variable [Counting] {k : Stakes} {s : Seat}

/-- When a seat that can act is offered an action. -/
def Grants (k : Stakes) (s : Seat) : Action → Prop
  | .allin => True
  | .fold | .call => s.wager < k.wager
  | .check => k.wager ≤ s.wager
  | .bet => k.wager ≤ s.wager ∧ k.wager = 0 ∧ k.minBet ≤ s.stack
  | .raise =>
      (s.wager < k.wager ∧ fit (k.wager + k.raiseSize) < fit (s.stack + s.wager)) ∨
        (k.wager ≤ s.wager ∧ k.wager ≠ 0 ∧ k.raiseSize < s.stack)
  | .ready | .pay | .pass => False

/-- What a seat that can act is offered. -/
theorem offers_of_movable (hmovable : s.isMovable = true) :
    k.offers s = if s.wager < k.wager then
        [.allin, .fold, .call] ++
          if fit (s.stack + s.wager) > fit (k.wager + k.raiseSize) then [.raise] else []
      else [.allin, .check] ++ if k.wager = 0 then if s.stack ≥ k.minBet then [.bet] else []
        else if s.stack > k.raiseSize then [.raise] else [] := by
  simp only [Seat.isMovable, Bool.and_eq_true, Bool.not_eq_true', decide_eq_true_eq] at hmovable
  obtain ⟨hfolded, hstack⟩ := hmovable
  have hallIn : s.isAllIn = false := by
    simp only [Seat.isAllIn, hfolded, Bool.not_false, Bool.true_and, beq_eq_false_iff_ne]
    omega
  simp only [offers, hfolded, hallIn, Bool.or_self, Bool.false_eq_true, if_false]

theorem mem_offers_iff (hmovable : s.isMovable = true) {a : Action} :
    a ∈ k.offers s ↔ k.Grants s a := by
  rw [offers_of_movable hmovable]
  by_cases hbehind : s.wager < k.wager
  · rw [if_pos hbehind]
    split <;> cases a <;> simp [Grants] <;> omega
  · rw [if_neg hbehind]
    by_cases hopen : k.wager = 0
    · rw [if_pos hopen]
      split <;> cases a <;> simp [Grants] <;> omega
    · rw [if_neg hopen]
      split <;> cases a <;> simp [Grants] <;> omega

/-- The limit leaves a request as it is, or brings it down to the last wager plus the last raise. -/
theorem capped_cases (k : Stakes) (level : Int) : k.capped level = level ∨
    k.capped level = fit (k.wager + k.raiseSize) ∧ fit (k.wager + k.raiseSize) ≤ level := by
  unfold capped
  split <;> omega

/-- What a bet that is not refused comes to. -/
theorem betMove_cases {chips : Int} {move : Move} (hbet : k.betMove s chips = .ok move) :
    0 < chips ∧ (s.stack ≤ k.capped chips ∧ move = .allin s.stack ∨
      k.capped chips < s.stack ∧ k.minBet ≤ k.capped chips ∧ move = .bet (k.capped chips)) := by
  unfold betMove at hbet
  split at hbet
  · cases hbet
  · next hpos =>
    refine ⟨Int.not_le.1 hpos, ?_⟩
    simp only at hbet
    split at hbet
    · next hcovers => exact .inl ⟨hcovers, (Except.ok.inj hbet).symm⟩
    · next hcovers =>
      split at hbet
      · cases hbet
      · next hleast =>
        exact .inr ⟨Int.not_le.1 hcovers, Int.not_lt.1 hleast, (Except.ok.inj hbet).symm⟩

/-- A bet is refused for its amount. -/
theorem betMove_refused {chips : Int} {fault : Fault} (hbet : k.betMove s chips = .error fault) :
    fault = .badBet chips k.minBet ∨ fault = .badBet (k.capped chips) k.minBet := by
  unfold betMove at hbet
  split at hbet
  · exact .inl (Except.error.inj hbet).symm
  · simp only at hbet
    split at hbet
    · cases hbet
    · split at hbet
      · exact .inr (Except.error.inj hbet).symm
      · cases hbet

/-- A raise is refused for its level. -/
theorem raiseMove_refused {level : Int} {fault : Fault}
    (hraise : k.raiseMove s level = .error fault) : fault = .badRaise level k.wager := by
  unfold raiseMove at hraise
  split at hraise
  · exact (Except.error.inj hraise).symm
  · simp only at hraise
    split at hraise
    · cases hraise
    · split at hraise <;> cases hraise

/-- A bet opens the betting with at least the least bet. -/
theorem betMove_fits (hmin : 0 < k.minBet) (hstack : 0 < s.stack) (hk : k.wager = 0)
    (hs : 0 ≤ s.wager) {chips : Int} {move : Move} (hbet : k.betMove s chips = .ok move) :
    move.Fits k s := by
  obtain ⟨-, ⟨-, rfl⟩ | ⟨hcovers, hleast, rfl⟩⟩ := betMove_cases hbet
  · exact ⟨hstack, rfl⟩
  · exact ⟨by omega, by omega, by omega⟩

/-- A bet that opens the betting is full while the least raise is the least bet. -/
theorem betMove_full (hopen : k.raiseSize = k.minBet) (hk : k.wager = 0) (hs : 0 ≤ s.wager)
    {chips : Int} {move : Move} (hbet : k.betMove s chips = .ok move) : move.Full k s := by
  obtain ⟨-, ⟨-, rfl⟩ | ⟨-, hleast, rfl⟩⟩ := betMove_cases hbet
  · trivial
  · simp only [Move.Full]
    omega

theorem callMove_full (k : Stakes) (s : Seat) : (k.callMove s).Full k s := by
  simp only [callMove]
  split <;> trivial

/-- Under either limit the wager can be raised by as much as last. -/
theorem exists_raiseMove (hraise : 0 < k.raiseSize) (hwager : 0 ≤ k.wager) :
    ∃ move, k.raiseMove s (k.wager + k.raiseSize) = .ok move := by
  have hlevel : ¬ (k.wager + k.raiseSize ≤ 0 || k.wager + k.raiseSize < k.wager) = true := by
    simp only [Bool.or_eq_true, decide_eq_true_eq]
    omega
  simp only [raiseMove, if_neg hlevel]
  split
  · exact ⟨_, rfl⟩
  · split <;> exact ⟨_, rfl⟩

section Bounded

variable {bound : Int} [Upto bound] (hb : k.Within bound s)

include hb

theorem Within.fit_least : fit (k.wager + k.raiseSize) = k.wager + k.raiseSize := by
  obtain ⟨hstack, hwager, hle, hsize, hleast, hown⟩ := hb
  exact fit_eq bound (by omega) (by omega)

theorem Within.fit_own : fit (s.stack + s.wager) = s.stack + s.wager := by
  obtain ⟨hstack, hwager, hle, hsize, hleast, hown⟩ := hb
  exact fit_eq bound (by omega) (by omega)

theorem Within.fit_behind : fit (k.wager - s.wager) = k.wager - s.wager := by
  obtain ⟨hstack, hwager, hle, hsize, hleast, hown⟩ := hb
  exact fit_eq bound (by omega) (by omega)

/-- A level from the wager up to the chips of the seat is compared exactly. -/
theorem Within.fit_level {level : Int} (hlow : k.wager ≤ level)
    (hhigh : level ≤ s.stack + s.wager) :
    fit (level - k.wager) = level - k.wager ∧ fit (level - s.wager) = level - s.wager := by
  obtain ⟨hstack, hwager, hle, hsize, hleast, hown⟩ := hb
  exact ⟨fit_eq bound (by omega) (by omega), fit_eq bound (by omega) (by omega)⟩

theorem grants_raise_iff : k.Grants s .raise ↔
    (s.wager < k.wager ∧ k.wager + k.raiseSize < s.stack + s.wager) ∨
      (k.wager ≤ s.wager ∧ k.wager ≠ 0 ∧ k.raiseSize < s.stack) := by
  rw [Grants, hb.fit_least, hb.fit_own]

theorem callMove_eq : k.callMove s =
    if s.stack ≤ k.wager - s.wager then .allin s.stack else .call (k.wager - s.wager) := by
  have hle := hb.wager_le
  rw [callMove, hb.fit_behind, Int.max_eq_left (by omega)]

/-- What a raise that is not refused comes to. -/
theorem raiseMove_cases {level : Int} {move : Move} (hraise : k.raiseMove s level = .ok move) :
    0 < level ∧ k.wager ≤ level ∧
      (k.capped level = k.wager ∧ (k.wager ≤ s.wager ∧ move = .check ∨
          s.wager < k.wager ∧ move = k.callMove s) ∨
        k.wager < k.capped level ∧
          ((s.stack + s.wager ≤ k.capped level ∨ k.capped level - k.wager < k.raiseSize) ∧
              move = .allin s.stack ∨
            k.capped level < s.stack + s.wager ∧ k.raiseSize ≤ k.capped level - k.wager ∧
              move = .raise (k.capped level - s.wager))) := by
  have hsize := hb.raiseSize_nonneg
  have hcapped := capped_cases k level
  rw [hb.fit_least] at hcapped
  unfold raiseMove at hraise
  split at hraise
  · cases hraise
  · next hlevel =>
    simp only [Bool.or_eq_true, decide_eq_true_eq, not_or, Int.not_le, Int.not_lt] at hlevel
    refine ⟨hlevel.1, hlevel.2, ?_⟩
    simp only at hraise
    split at hraise
    · next heven =>
      refine .inl ⟨heven, ?_⟩
      split at hraise
      · next hmatched => exact .inl ⟨hmatched, (Except.ok.inj hraise).symm⟩
      · next hbehind => exact .inr ⟨Int.not_le.1 hbehind, (Except.ok.inj hraise).symm⟩
    · next hless =>
      refine .inr ⟨by omega, ?_⟩
      rw [hb.fit_own] at hraise
      by_cases hcovers : s.stack + s.wager ≤ k.capped level
      · have hallin : (decide (k.capped level ≥ s.stack + s.wager) ||
            decide (fit (k.capped level - k.wager) < k.raiseSize)) = true := by
          simp only [Bool.or_eq_true, decide_eq_true_eq]
          exact .inl hcovers
        rw [if_pos hallin] at hraise
        exact .inl ⟨.inl hcovers, (Except.ok.inj hraise).symm⟩
      · obtain ⟨hrise, hchips⟩ := hb.fit_level (show k.wager ≤ k.capped level by omega) (by omega)
        rw [hrise, hchips] at hraise
        split at hraise
        · next hallin =>
          simp only [Bool.or_eq_true, decide_eq_true_eq] at hallin
          exact .inl ⟨hallin, (Except.ok.inj hraise).symm⟩
        · next hraised =>
          simp only [Bool.or_eq_true, decide_eq_true_eq, not_or, Int.not_le, Int.not_lt] at hraised
          exact .inr ⟨hraised.1, hraised.2, (Except.ok.inj hraise).symm⟩

theorem callMove_fits (hbehind : s.wager < k.wager) : (k.callMove s).Fits k s := by
  have hstack := hb.stack_pos
  rw [callMove_eq hb]
  split
  · exact ⟨hstack, rfl⟩
  · exact ⟨by omega, by omega, by omega⟩

/-- A raise goes up by at least the last one, or is none. -/
theorem raiseMove_fits (hmin : 0 < k.minBet) (hsize : k.minBet ≤ k.raiseSize) {level : Int}
    {move : Move} (hraise : k.raiseMove s level = .ok move) : move.Fits k s := by
  have hle := hb.wager_le
  obtain ⟨-, -, ⟨-, ⟨heven, rfl⟩ | ⟨hbehind, rfl⟩⟩ | ⟨-, ⟨-, rfl⟩ | ⟨hless, hfull, rfl⟩⟩⟩ :=
    raiseMove_cases hb hraise
  · exact heven
  · exact callMove_fits hb hbehind
  · exact ⟨hb.stack_pos, rfl⟩
  · exact ⟨by omega, by omega, by omega⟩

/-- A raise that would not be full is an all-in. -/
theorem raiseMove_full {level : Int} {move : Move} (hraise : k.raiseMove s level = .ok move) :
    move.Full k s := by
  obtain ⟨-, -, ⟨-, ⟨-, rfl⟩ | ⟨-, rfl⟩⟩ | ⟨-, ⟨-, rfl⟩ | ⟨-, hfull, rfl⟩⟩⟩ :=
    raiseMove_cases hb hraise
  · trivial
  · exact callMove_full k s
  · trivial
  · simp only [Move.Full]
    omega

/-- Under either limit the least bet can be placed. -/
theorem exists_betMove (hmin : 0 < k.minBet) (hraise : k.minBet ≤ k.raiseSize)
    (hopen : k.wager = 0) : ∃ move, k.betMove s k.minBet = .ok move := by
  have hcapped : k.capped k.minBet = k.minBet := by
    have hcases := capped_cases k k.minBet
    rw [hb.fit_least] at hcases
    omega
  simp only [betMove, hcapped, if_neg (Int.not_le.2 hmin), Int.lt_irrefl, if_false]
  split <;> exact ⟨_, rfl⟩

end Bounded

end Stakes

end PokerHand
