import PokerHand.Proofs.Posting

/-!
# Overdrawn seats

What a seat owes is fixed when a gate opens, so a seat with two blinds owes each of them as if its
whole stack were left for it. As long as a machine word holds the chips of the hand, a seat stays
solvent however the hand is played if and only if its forced bets leave it no less than nothing,
which is so for every seat with one blind or none.
-/
namespace PokerHand

/-- The seat has put in no more than it had. -/
structure Seat.Solvent (s : Seat) : Prop where
  stack_nonneg : 0 ≤ s.stack
  wager_nonneg : 0 ≤ s.wager
  pot_nonneg : 0 ≤ s.pot
  wager_le : s.wager ≤ s.initialStack

theorem Seat.Sound.solvent_iff {setup : Setup} {s : Seat} (hs : s.Sound setup) :
    s.Solvent ↔ 0 ≤ s.stack := by
  refine ⟨Seat.Solvent.stack_nonneg, fun hstack => ⟨hstack, hs.wager_nonneg, hs.pot_nonneg, ?_⟩⟩
  have hle := hs.stack_add_wager_le
  omega

namespace Hand

section Counted

variable [Counting] {setup : Setup} {h : Hand}

/-- The seat at a place stays sound and its player's. -/
theorem sound_of_place [setup.Counted] {id : String} {now : Int}
    (hc : create setup id now = .ok h) {place : Nat} {e : Entry}
    (he : setup.players[place]? = some e) {calls : List (Int × Call)} {s : Seat}
    (hs : (h.play calls).seats[place]? = some s) : s.Sound setup ∧ s.entry = e := by
  have ht := (resting_of_create hc calls).table
  exact ⟨ht.sound s (List.mem_of_getElem? hs), ht.entry_of_getElem? he hs⟩

theorem solvent_of_covered [setup.Counted] {id : String} {now : Int}
    (hc : create setup id now = .ok h) {place : Nat} {e : Entry}
    (he : setup.players[place]? = some e) (hcovered : 0 ≤ setup.terms.afterBlinds e)
    {calls : List (Int × Call)} {s : Seat} (hs : (h.play calls).seats[place]? = some s) :
    s.Solvent := by
  obtain ⟨hsound, rfl⟩ := sound_of_place hc he hs
  exact hsound.solvent_iff.2 (hsound.stack_nonneg hcovered)

/-- A player with a single blind, or none, is never overdrawn. -/
theorem solvent_of_single_blind [setup.Counted] {id : String} {now : Int}
    (hc : create setup id now = .ok h) {place : Nat} {e : Entry}
    (he : setup.players[place]? = some e) (hone : (setup.terms.blindsOf e.positions).length ≤ 1)
    {calls : List (Int × Call)} {s : Seat} (hs : (h.play calls).seats[place]? = some s) :
    s.Solvent :=
  solvent_of_covered hc he (Terms.afterBlinds_nonneg hone) hs

theorem solvent_iff_covered [Counting.Faithful] {id : String} {now : Int}
    (hc : create setup id now = .ok h) (hmodest : setup.Modest)
    (hcount : setup.terms.cardsTaken setup.players.length < 18446744073709551616)
    {place : Nat} {e : Entry} (he : setup.players[place]? = some e) :
    (∀ calls s, (h.play calls).seats[place]? = some s → 0 ≤ s.wager ∧ 0 ≤ s.pot) ∧
      ((∀ calls s, (h.play calls).seats[place]? = some s → s.Solvent) ↔
        0 ≤ setup.terms.afterBlinds e) := by
  have := hmodest.counted
  refine ⟨fun calls s hs => ?_, fun hsolvent => ?_, fun hcovered calls s hs => ?_⟩
  · obtain ⟨hsound, -⟩ := sound_of_place hc he hs
    exact ⟨hsound.wager_nonneg, hsound.pot_nonneg⟩
  · have hf := fresh_of_create hc
    have ht := (resting_of_create hc
      [(0, .start), (0, .readyAll), (0, .payAntes), (0, .payBlinds)]).table
    obtain ⟨hlt, -⟩ := List.getElem?_eq_some_iff.1 he
    rw [← ht.length_seats] at hlt
    have hs := List.getElem?_eq_getElem hlt
    have hposted := hf.posted hf.accepted (hf.accepted.stocked hcount) _ (List.mem_of_getElem? hs)
    rw [ht.entry_of_getElem? he hs] at hposted
    exact hposted ▸ (hsolvent _ _ hs).stack_nonneg
  · exact solvent_of_covered hc he hcovered hs

end Counted

/-- Two players of whom the dealer posts two blinds of five out of eight chips. -/
def twoBlinds : Setup where
  terms := { Terms.standard with blinds := ⟨5, 5, 10⟩ }
  players := [⟨8, [.dealer, .smallBlind]⟩, ⟨100, [.bigBlind]⟩]

theorem solvent_iff_covered_twoBlinds :
    ∃ h, create twoBlinds "" 0 = .ok h ∧
      twoBlinds.players[0]? = some ⟨8, [.dealer, .smallBlind]⟩ ∧
      (∀ calls s, (h.play calls).seats[0]? = some s → 0 ≤ s.wager ∧ 0 ≤ s.pot) ∧
      ((∀ calls s, (h.play calls).seats[0]? = some s → s.Solvent) ↔
        0 ≤ twoBlinds.terms.afterBlinds ⟨8, [.dealer, .smallBlind]⟩) := by
  have hc : create twoBlinds "" 0 = .ok _ := rfl
  exact ⟨_, hc, rfl, solvent_iff_covered hc (by decide) (by decide) rfl⟩

/-- The dealer pays both blinds, is two chips short, and has wagered ten of eight. -/
theorem overdrawn_twoBlinds :
    ∃ h s, create twoBlinds "" 0 = .ok h ∧
      (h.play [(1, .start), (2, .readyAll), (3, .payBlinds)]).seats[0]? = some s ∧
      s.stack = -2 ∧ s.wager = 10 ∧ s.initialStack = 8 ∧ ¬ s.Solvent := by
  have hc : create twoBlinds "" 0 = .ok _ := rfl
  exact ⟨_, _, hc, rfl, rfl, rfl, rfl, fun hs => absurd hs.stack_nonneg (by decide)⟩

end Hand

end PokerHand
