import Mathlib.Data.List.Basic
import PokerHand.Proofs.Stage

/-!
# Where the streets take their cards

After the hole cards each street but the first takes cards to burn and then cards for the board,
one street after the other (`spread`).
-/
namespace PokerHand

namespace Street

/-- The streets from the first up to an open one. -/
def upTo : Option Street → List Street
  | none => []
  | some preflop => [preflop]
  | some flop => [preflop, flop]
  | some turn => [preflop, flop, turn]
  | some river => [preflop, flop, turn, river]

/-- The streets that take cards, in the order of play. -/
def boards : List Street := [flop, turn, river]

theorem upTo_next {last street : Street} (hnext : last.next? = some street) :
    upTo (some street) = upTo (some last) ++ [street] := by
  cases last <;> simp only [next?, Option.some.injEq, reduceCtorEq] at hnext <;> subst hnext <;> rfl

theorem tail_upTo_next {last street : Street} (hnext : last.next? = some street) :
    (upTo (some street)).tail = (upTo (some last)).tail ++ [street] := by
  cases last <;> simp only [next?, Option.some.injEq, reduceCtorEq] at hnext <;> subst hnext <;> rfl

theorem tail_upTo (street : Option Street) :
    (upTo street).tail = boards.filter fun s => decide (s ∈ upTo street) := by
  cases street with
  | none => rfl
  | some street => cases street <;> decide

end Street

namespace Hand

/-- What each of the streets burns and what it then lays on the board, from the front of `cards`. -/
def spread (burn : Nat) : List Street → List Card → List Card × List Card
  | [], _ => ([], [])
  | street :: rest, cards =>
      let later := spread burn rest (cards.drop (burn + street.boardCards))
      (cards.take burn ++ later.1, (cards.drop burn).take street.boardCards ++ later.2)

/-- How many cards the streets take. -/
def spreadCount (burn : Nat) : List Street → Nat
  | [] => 0
  | street :: rest => burn + street.boardCards + spreadCount burn rest

variable {burn : Nat} {streets : List Street}

/-- A further street takes its cards where those before it stopped. -/
theorem spread_concat (street : Street) (cards : List Card) :
    spread burn (streets ++ [street]) cards =
      ((spread burn streets cards).1 ++ (cards.drop (spreadCount burn streets)).take burn,
        (spread burn streets cards).2 ++
          (cards.drop (spreadCount burn streets + burn)).take street.boardCards) := by
  induction streets generalizing cards with
  | nil => simp [spread, spreadCount]
  | cons first rest ih =>
      have hrest := ih (cards.drop (burn + first.boardCards))
      simp only [List.cons_append, spread, hrest, spreadCount, List.drop_drop, List.append_assoc,
        Nat.add_assoc]

/-- The streets take the next cards, and each of them once. -/
theorem spread_perm (cards : List Card) :
    ((spread burn streets cards).1 ++ (spread burn streets cards).2).Perm
      (cards.take (spreadCount burn streets)) := by
  induction streets generalizing cards with
  | nil => exact .refl _
  | cons first rest ih =>
      simp only [spread, spreadCount]
      rw [List.take_add, List.take_add, List.append_assoc, List.append_assoc]
      refine .append_left _ ((List.perm_append_comm_assoc _ _ _).trans (.append_left _ ?_))
      exact ih _

end Hand

namespace Setup

theorem holeCards_add_spreadCount (s : Setup) (street : Street) :
    s.holeCards + Hand.spreadCount s.terms.burnCount (Street.upTo (some street)).tail =
      s.dealtBy street := by
  cases street <;>
    simp only [Street.upTo, List.tail_cons, Hand.spreadCount, Street.boardCards, dealtBy] <;> omega

end Setup

end PokerHand
