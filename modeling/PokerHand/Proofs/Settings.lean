import Mathlib.Data.List.Nodup
import PokerHand.Proofs.Accepted
import PokerHand.Proofs.Shuffle
import PokerHand.Settings

/-!
# Settings that are accepted can be played

Settings and setups are checked apart, for other things. What the first check leaves open the second
finds in order: at a customary table one seat deals, both decks hold enough cards for the largest
table, and a shuffle neither adds nor repeats one.
-/
namespace PokerHand

namespace Position

theorem afterBlinds_ne_dealer (k : Nat) : afterBlinds k ≠ dealer := by
  unfold afterBlinds
  split <;> nofun

theorem dealer_mem_customary_iff {count seat : Nat} :
    dealer ∈ customary count seat ↔ seat = 0 := by
  have hafter (k : Nat) : dealer ≠ afterBlinds k := (afterBlinds_ne_dealer k).symm
  unfold customary
  by_cases hcount : count = 2
  · simp only [if_pos hcount]
    split <;> simp
  · simp only [if_neg hcount]
    split <;> simp [hafter]

end Position

namespace Setup

variable {count : Nat} {bankroll : Int}

/-- At a customary table the first seat deals and no other. -/
theorem countP_dealer_entries (hcount : 0 < count) :
    (entries count bankroll).countP (fun p => p.positions.contains .dealer) = 1 := by
  have hdealer : ∀ seat ∈ List.range count,
      ((Position.customary count seat).contains .dealer = true ↔ (seat == 0) = true) := by
    intro seat _
    rw [List.contains_iff_mem, Position.dealer_mem_customary_iff, beq_iff_eq]
  rw [entries, List.countP_map]
  exact (List.countP_congr hdealer).trans
    (List.count_eq_one_of_mem List.nodup_range (List.mem_range.2 hcount))

theorem bankroll_of_mem_entries {p : Entry} (hp : p ∈ entries count bankroll) :
    p.bankroll = bankroll := by
  obtain ⟨seat, -, rfl⟩ := List.mem_map.1 hp
  rfl

end Setup

namespace Variant

theorem holeCount_pos (v : Variant) : 0 < v.terms.holeCount := by
  cases v <;> decide

theorem requiredHole_le (v : Variant) : v.terms.requiredHole ≤ v.terms.holeCount := by
  cases v <;> decide

/-- Even the largest table leaves cards over. -/
theorem cardsTaken_le_deck (v : Variant) :
    v.terms.cardsTaken maxPlayers ≤ v.terms.deck.length := by
  cases v <;> decide

theorem deck_nodup (v : Variant) : v.terms.deck.Nodup := by
  cases v <;> decide +kernel

end Variant

theorem Terms.cardsTaken_mono (t : Terms) {m n : Nat} (h : m ≤ n) :
    t.cardsTaken m ≤ t.cardsTaken n := by
  have := Nat.mul_le_mul_right t.holeCount h
  unfold cardsTaken
  omega

namespace Settings

variable {s : Settings}

/-- What `Settings.check` makes sure of. -/
theorem bounds_of_check (h : s.check = .ok ()) :
    (2 ≤ s.players ∧ s.players ≤ maxPlayers) ∧ 0 < s.bankroll ∧
      0 ≤ s.ante ∧ 0 ≤ s.smallBlind ∧ 0 ≤ s.bigBlind := by
  unfold check at h
  split at h
  · cases h
  · split at h
    · cases h
    · split at h
      · cases h
      · omega

theorem accepted_setup (h : s.check = .ok ()) (seed : UInt64) : (s.setup seed).Accepted := by
  obtain ⟨⟨htwo, hmost⟩, hbankroll, hante, hsmall, hbig⟩ := bounds_of_check h
  have hplayers : (s.setup seed).players.length = s.players := by
    simp [setup, Setup.entries]
  have hdeck : (s.setup seed).terms.deck.Perm s.variant.terms.deck :=
    Shuffle.shuffled_perm _ seed
  have htaken : (s.setup seed).terms.cardsTaken s.players = s.variant.terms.cardsTaken s.players :=
    rfl
  have hcards : s.variant.terms.cardsTaken s.players ≤ s.variant.terms.deck.length :=
    (Terms.cardsTaken_mono _ hmost).trans s.variant.cardsTaken_le_deck
  exact
    { two_le_players := hplayers ▸ htwo
      one_dealer := Setup.countP_dealer_entries (Nat.lt_of_lt_of_le Nat.two_pos htwo)
      holeCount_pos := s.variant.holeCount_pos
      requiredHole_le := s.variant.requiredHole_le
      ante_nonneg := hante
      dealer_nonneg := Int.le_refl 0
      small_nonneg := hsmall
      big_nonneg := hbig
      deck_ne_nil := by
        refine List.ne_nil_of_length_pos ?_
        rw [hdeck.length_eq]
        refine Nat.lt_of_lt_of_le ?_ hcards
        unfold Terms.cardsTaken
        omega
      cards_le_deck := by
        rw [hplayers, hdeck.length_eq]
        exact (Nat.mod_le _ _).trans (htaken ▸ hcards)
      deck_nodup := hdeck.nodup_iff.2 s.variant.deck_nodup
      bankroll_pos := fun p hp => Setup.bankroll_of_mem_entries hp ▸ hbankroll }

/-- Settings that are accepted make a setup that is accepted as well, whatever the seed: the hand
is made, every player has a seat, and its deck is that of the variant in another order. -/
theorem accepted_settings_deal (h : s.check = .ok ()) (seed : UInt64) :
    (s.setup seed).check = .ok () ∧
      ∀ id now, ∃ hand, Hand.create (s.setup seed) id now = .ok hand ∧
        hand.seats.length = s.players ∧ hand.terms.deck.Perm s.variant.terms.deck := by
  have hcheck : (s.setup seed).check = .ok () :=
    Setup.check_eq_ok_iff.2 (accepted_setup h seed)
  refine ⟨hcheck, fun id now => ?_⟩
  unfold Hand.create
  rw [hcheck]
  refine ⟨_, rfl, ?_, Shuffle.shuffled_perm _ seed⟩
  simp [setup, Setup.entries]

/-- Ten players, the fewest cards and no stakes at all. -/
theorem accepted_settings_deal_shortDeck :
    let s : Settings := ⟨some 3, 0, 0, 0, .short, 10, 1⟩
    s.check = .ok () ∧ (s.setup 3).check = .ok () ∧
      ∀ id now, ∃ hand, Hand.create (s.setup 3) id now = .ok hand ∧
        hand.seats.length = 10 ∧ hand.terms.deck.Perm Deck.short :=
  ⟨rfl, accepted_settings_deal rfl 3⟩

end Settings

end PokerHand
