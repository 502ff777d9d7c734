import PokerHand.Hand.State
import PokerHand.Proofs.Chips.Counting
import PokerHand.Proofs.Forced
import PokerHand.Proofs.Outcome

/-!
# What an accepted setup guarantees

`Setup.check` looks at the cards as they are counted in words, and it accepts chips of any amount.
That the deck has all cards that the hand may take (`Setup.Stocked`), and that no amount of chips
gets out of the bounds of counting (`Setup.Counted`), are conditions of their own.
-/
namespace PokerHand

/-- The facts about a setup that `Setup.check` makes sure of. -/
structure Setup.Accepted (s : Setup) : Prop where
  two_le_players : 2 ≤ s.players.length
  one_dealer : s.players.countP (fun p => p.positions.contains .dealer) = 1
  holeCount_pos : 0 < s.terms.holeCount
  requiredHole_le : s.terms.requiredHole ≤ s.terms.holeCount
  ante_nonneg : 0 ≤ s.terms.ante
  dealer_nonneg : 0 ≤ s.terms.blinds.dealer
  small_nonneg : 0 ≤ s.terms.blinds.small
  big_nonneg : 0 ≤ s.terms.blinds.big
  deck_ne_nil : s.terms.deck ≠ []
  cards_le_deck : s.terms.cardsNeeded s.players.length ≤ s.terms.deck.length
  deck_nodup : s.terms.deck.Nodup
  bankroll_pos : ∀ p ∈ s.players, 0 < p.bankroll

namespace Setup

theorem one_dealer_of_checkDealer {s : Setup} {u : Unit} (h : s.checkDealer = .ok u) :
    s.players.countP (fun p => p.positions.contains .dealer) = 1 := by
  unfold checkDealer at h
  split at h <;> first | assumption | simp at h

theorem bankroll_pos_of_checkBankrolls {s : Setup} {u : Unit} (h : s.checkBankrolls = .ok u) :
    ∀ p ∈ s.players, 0 < p.bankroll := by
  unfold checkBankrolls at h
  split at h
  · next hnone =>
    intro p hp
    have := List.findIdx?_eq_none_iff.1 hnone p hp
    simp at this
    omega
  · simp at h

theorem accepted_of_check {s : Setup} {u : Unit} (h : s.check = .ok u) : s.Accepted := by
  unfold check at h
  obtain ⟨hplayers, h⟩ := Outcome.ok_of_guard h
  obtain ⟨_, hdealer, h⟩ := Outcome.ok_of_bind h
  obtain ⟨hhole, h⟩ := Outcome.ok_of_guard h
  obtain ⟨hrequired, h⟩ := Outcome.ok_of_guard h
  obtain ⟨hstakes, h⟩ := Outcome.ok_of_guard h
  obtain ⟨hdeck, h⟩ := Outcome.ok_of_guard h
  obtain ⟨hcards, h⟩ := Outcome.ok_of_guard h
  obtain ⟨hnodup, h⟩ := Outcome.ok_of_guard h
  exact
    { two_le_players := by omega
      one_dealer := one_dealer_of_checkDealer hdealer
      holeCount_pos := by omega
      requiredHole_le := by omega
      ante_nonneg := by omega
      dealer_nonneg := by omega
      small_nonneg := by omega
      big_nonneg := by omega
      deck_ne_nil := by simpa using hdeck
      cards_le_deck := by omega
      deck_nodup := by simpa using hnodup
      bankroll_pos := bankroll_pos_of_checkBankrolls h }

theorem check_of_accepted {s : Setup} (ha : s.Accepted) : s.check = .ok () := by
  have hdealer : s.checkDealer = .ok () := by
    unfold checkDealer
    rw [ha.one_dealer]
    rfl
  have hbankrolls : s.checkBankrolls = .ok () := by
    have hnone : s.players.findIdx? (fun p => p.bankroll ≤ 0) = none :=
      List.findIdx?_eq_none_iff.2 fun p hp => by simpa using ha.bankroll_pos p hp
    unfold checkBankrolls
    rw [hnone]
  have hplayers : ¬ s.players.length < 2 := by have := ha.two_le_players; omega
  have hhole : s.terms.holeCount ≠ 0 := by have := ha.holeCount_pos; omega
  have hrequired : ¬ s.terms.requiredHole > s.terms.holeCount := by
    have := ha.requiredHole_le; omega
  have hstakes : ¬ (s.terms.ante < 0 ∨ s.terms.blinds.dealer < 0 ∨ s.terms.blinds.small < 0 ∨
      s.terms.blinds.big < 0) := by
    have := ha.ante_nonneg
    have := ha.dealer_nonneg
    have := ha.small_nonneg
    have := ha.big_nonneg
    omega
  have hcards : ¬ s.terms.deck.length < s.terms.cardsNeeded s.players.length := by
    have := ha.cards_le_deck; omega
  have hdeck : ¬ s.terms.deck.isEmpty = true := by simpa using ha.deck_ne_nil
  have hnodup := ha.deck_nodup
  simp [check, hplayers, hdealer, hhole, hrequired, hstakes, hdeck, hcards, hnodup, hbankrolls]

theorem check_eq_ok_iff {s : Setup} : s.check = .ok () ↔ s.Accepted :=
  ⟨accepted_of_check, check_of_accepted⟩

/-- The deck has all cards that a hand may take. -/
def Stocked (s : Setup) : Prop := s.terms.cardsTaken s.players.length ≤ s.terms.deck.length

/-- The deck has all cards as long as a word holds how many a hand may take. -/
theorem Accepted.stocked {s : Setup} (ha : s.Accepted)
    (hcount : s.terms.cardsTaken s.players.length < 18446744073709551616) : s.Stocked := by
  have hcards := ha.cards_le_deck
  rwa [Terms.cardsNeeded, Nat.mod_eq_of_lt hcount] at hcards

/-- The chips of all players. -/
def bankrolls (s : Setup) : Int := (s.players.map Entry.bankroll).sum

theorem Accepted.bankroll_le {s : Setup} (ha : s.Accepted) {p : Entry} (hp : p ∈ s.players) :
    p.bankroll ≤ s.bankrolls :=
  List.single_le_sum (List.forall_mem_map.2 fun q hq => Int.le_of_lt (ha.bankroll_pos q hq)) _
    (List.mem_map_of_mem hp)

theorem Accepted.bankrolls_nonneg {s : Setup} (ha : s.Accepted) : 0 ≤ s.bankrolls :=
  List.sum_nonneg (List.forall_mem_map.2 fun p hp => Int.le_of_lt (ha.bankroll_pos p hp))

/-- A bound on all amounts that are counted in a hand. No seat puts in more than three times its
bankroll, and no raise is larger than that or the least bet. -/
def bound (s : Setup) : Int := 6 * s.bankrolls + s.terms.minBet

theorem bankrolls_lt_bound (s : Setup) : 6 * s.bankrolls < s.bound := by
  have hminBet := s.terms.minBet_pos
  unfold bound
  omega

/-- Chips are counted exactly throughout a hand. -/
abbrev Counted [Counting] (s : Setup) : Prop := Counting.Upto s.bound

/-- A word holds every amount that is counted in a hand. -/
def Modest (s : Setup) : Prop := s.bound ≤ 9223372036854775807

instance (s : Setup) : Decidable s.Modest := inferInstanceAs (Decidable (_ ≤ _))

theorem Modest.counted [Counting] [hwords : Counting.Faithful] {s : Setup} (hs : s.Modest) :
    s.Counted :=
  hwords.mono hs

end Setup

end PokerHand
