import PokerHand.Proofs.Betting.Moves

/-!
# Offers keep what they promise

What a seat is offered and how its choice is settled are two different computations. They agree: a
raise is offered just when some level can be raised to (`Stakes.mem_offers_raise_iff`), a bet just
when the least one can be placed, and whatever amount is asked for, no move takes chips that the
seat does not have. All this holds of amounts that are counted exactly.
-/
namespace PokerHand

/-- What a move may take from the stack, by its kind. -/
structure Move.Affordable (k : Stakes) (s : Seat) (move : Move) : Prop where
  chips_nonneg : 0 ≤ move.chips
  chips_le : move.chips ≤ s.stack
  allin : move.action = .allin → move.chips = s.stack
  less : move.action ∈ [.call, .bet, .raise] → move.chips < s.stack
  bet : move.action = .bet → k.minBet ≤ move.chips
  raise : move.action = .raise → k.wager + k.raiseSize ≤ s.wager + move.chips

namespace Stakes

open Counting

section Offers

variable {k : Stakes} {s : Seat} {move : Move} {amount : Int}

theorem isMovable_of_stack (hlive : s.folded = false) (hstack : 0 < s.stack) :
    s.isMovable = true := by
  simp [Seat.isMovable, hlive, hstack]

theorem affordable_allin (hstack : 0 < s.stack) : (Move.allin s.stack).Affordable k s := by
  constructor <;> simp [Move.chips, Move.action]
  omega

variable [Counting]

section Bounded

variable {bound : Int} [Upto bound] (hb : k.Within bound s)

include hb

theorem affordable_callMove : (k.callMove s).Affordable k s := by
  have hle := hb.wager_le
  rw [callMove_eq hb]
  split
  · exact affordable_allin hb.stack_pos
  · constructor <;> simp [Move.chips, Move.action] <;> omega

/-- A bet takes what is asked for or the whole stack. -/
theorem affordable_of_betMove (hceiling : 0 < k.wager + k.raiseSize)
    (hbet : k.betMove s amount = .ok move) : move.Affordable k s := by
  have hcapped := capped_cases k amount
  rw [hb.fit_least] at hcapped
  obtain ⟨hpos, ⟨-, rfl⟩ | ⟨hless, hleast, rfl⟩⟩ := betMove_cases hbet
  · exact affordable_allin hb.stack_pos
  · constructor <;> simp [Move.chips, Move.action] <;> omega

/-- A raise takes what is missing to the new wager or the whole stack. -/
theorem affordable_of_raiseMove (hraise : k.raiseMove s amount = .ok move) :
    move.Affordable k s := by
  have hstack := hb.stack_pos
  have hle := hb.wager_le
  have hsize := hb.raiseSize_nonneg
  obtain ⟨-, -, ⟨-, ⟨-, rfl⟩ | ⟨-, rfl⟩⟩ | ⟨-, ⟨-, rfl⟩ | ⟨hless, hfull, rfl⟩⟩⟩ :=
    raiseMove_cases hb hraise
  · constructor <;> simp [Move.chips, Move.action]
    omega
  · exact affordable_callMove hb
  · exact affordable_allin hstack
  · constructor <;> simp [Move.chips, Move.action] <;> omega

/-- With a wager to match, a raise is offered to who has the chips to raise by as much as last and
keep some. -/
theorem mem_offers_raise_iff (hmovable : s.isMovable = true) (hopened : 0 < k.wager) :
    .raise ∈ k.offers s ↔ k.wager + k.raiseSize < s.stack + s.wager := by
  have hle := hb.wager_le
  rw [mem_offers_iff hmovable, grants_raise_iff hb]
  omega

/-- The least raise. -/
theorem raiseMove_least (hopened : 0 < k.wager) (hsize : 0 < k.raiseSize)
    (hstack : k.wager + k.raiseSize < s.stack + s.wager) :
    k.raiseMove s (k.wager + k.raiseSize) = .ok (.raise (k.wager + k.raiseSize - s.wager)) := by
  have hcapped : k.capped (k.wager + k.raiseSize) = k.wager + k.raiseSize := by
    have hcases := capped_cases k (k.wager + k.raiseSize)
    rw [hb.fit_least] at hcases
    omega
  obtain ⟨hrise, hchips⟩ := hb.fit_level (show k.wager ≤ k.wager + k.raiseSize by omega) (by omega)
  simp only [raiseMove, hcapped, hb.fit_own, hrise, hchips]
  rw [if_neg (by simp; omega), if_neg (by omega), if_neg (by simp; omega)]

/-- No raise brings the wager to less than the last one and the raise before it. -/
theorem le_of_raiseMove {chips : Int} (hraise : k.raiseMove s amount = .ok (.raise chips)) :
    k.wager + k.raiseSize ≤ s.wager + chips ∧ s.wager + chips < s.stack + s.wager := by
  obtain ⟨-, -, ⟨-, ⟨-, heq⟩ | ⟨-, heq⟩⟩ | ⟨-, ⟨-, heq⟩ | ⟨hless, hfull, heq⟩⟩⟩ :=
    raiseMove_cases hb hraise
  · cases heq
  · simp only [callMove] at heq
    split at heq <;> cases heq
  · cases heq
  · cases heq
    omega

/-- Where nobody has bet yet, the least bet can be placed by who has as many chips. -/
theorem exists_full_betMove_iff (hopen : k.wager = 0) (hmin : 0 < k.minBet)
    (hsize : k.minBet ≤ k.raiseSize) :
    (∃ move, k.betMove s k.minBet = .ok move ∧ k.minBet ≤ move.chips) ↔ k.minBet ≤ s.stack := by
  have hcapped : k.capped k.minBet = k.minBet := by
    have hcases := capped_cases k k.minBet
    rw [hb.fit_least] at hcases
    omega
  constructor
  · rintro ⟨move, hbet, hchips⟩
    obtain ⟨-, ⟨-, rfl⟩ | ⟨hless, -, -⟩⟩ := betMove_cases hbet
    · exact hchips
    · rw [hcapped] at hless
      omega
  · intro hstack
    obtain ⟨move, hbet⟩ := exists_betMove hb hmin hsize hopen
    refine ⟨move, hbet, ?_⟩
    obtain ⟨-, ⟨-, rfl⟩ | ⟨-, hleast, rfl⟩⟩ := betMove_cases hbet
    · exact hstack
    · exact hleast

end Bounded

end Offers

end Stakes

end PokerHand
