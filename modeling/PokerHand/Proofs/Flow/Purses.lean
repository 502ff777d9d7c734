import PokerHand.Proofs.Play

/-!
# What forced bets leave a seat with

Only bids and forced bets take chips from a stack. `Hand.prospect` is what every seat is left with
once no forced bet is due any more. Where forced bets are due their amount is fixed
(`Setup.prospect`); later it is what the seats have. No phase changes it (`react_prospect`), so
whatever a gate or a phase takes from a seat is a forced bet, and no phase folds anybody.
-/
namespace PokerHand

namespace Phase

/-- Whether forced bets may still be due once the hand has come to a phase with `street` open. -/
def owing (street : Option Street) : Phase → Bool
  | started | initialized | prepared | anteRequested | antePaid | entered .preflop
  | blindsRequested => true
  | readyRequested | readiness | blindsPaid => street.isNone
  | roundInitialized => street == some .preflop
  | _ => false

/-- The phases at which no forced bet is due once a street is open, though nobody has bet. -/
def posted : List Phase := [readyRequested, readiness, blindsPaid]

variable {street : Option Street} {phase next : Phase}

theorem owing_successor (hn : some next ∈ phase.successors street)
    (howing : phase.owing street = false) : next.owing (phase.streetAfter street) = false := by
  cases phase <;> grind [successors, streetAfter, owing]

theorem owing_or_posted (hn : some next ∈ phase.successors street)
    (howing : phase.owing street = true) :
    next.owing (phase.streetAfter street) = true ∨ next ∈ posted := by
  cases phase <;> cases street <;> grind [successors, streetAfter, owing, posted]

theorem owing_rest (hn : none ∈ phase.successors street) :
    phase.owing (phase.streetAfter street) = phase.owing street := by
  cases phase <;> grind [successors, streetAfter, owing]

end Phase

/-- What the forced bets leave every player with. -/
def Setup.prospect (s : Setup) : List Int := s.players.map s.terms.afterBlinds

namespace Hand

variable {setup : Setup} {h h' : Hand} {f : Seat → Seat} {r : Hand × Option Phase}

/-- What every seat has left. -/
def purses (h : Hand) : List Int := h.seats.map Seat.stack

/-- Who has folded. -/
def folds (h : Hand) : List Bool := h.seats.map Seat.folded

/-- What every seat is left with once no forced bet is due any more. -/
def prospect (setup : Setup) (h : Hand) : List Int :=
  if h.phase.owing h.street then setup.prospect else h.purses

/-! What leaves the purses and the folds alone. -/

theorem purses_mapSeats (hf : ∀ s, (f s).stack = s.stack) : (h.mapSeats f).purses = h.purses := by
  simp only [purses, mapSeats, List.map_map, Function.comp_def, hf]

theorem folds_mapSeats (hf : ∀ s, (f s).folded = s.folded) : (h.mapSeats f).folds = h.folds := by
  simp only [folds, mapSeats, List.map_map, Function.comp_def, hf]

theorem folds_mapIdx {f : Nat → Seat → Seat} (hf : ∀ i s, (f i s).folded = s.folded) :
    (h.seats.mapIdx f).map Seat.folded = h.folds := by
  refine List.ext_getElem? fun i => ?_
  simp only [folds, List.getElem?_map, List.getElem?_mapIdx, Option.map_map, Function.comp_def, hf]

theorem prospect_of_owing (howing : h.phase.owing h.street = true) :
    h.prospect setup = setup.prospect := if_pos howing

theorem prospect_of_not_owing (howing : h.phase.owing h.street = false) :
    h.prospect setup = h.purses := by
  rw [prospect, howing]
  rfl

variable [Counting]

theorem folds_postBigBlind (h : Hand) : h.postBigBlind.folds = h.folds :=
  folds_mapSeats (h := h) fun s => by
    show (if s.holds .bigBlind then s.putIn _ else s).folded = s.folded
    split <;> rfl

/-- No phase folds anybody, and where no forced bet is due it takes chips from nobody. -/
theorem react_folds_purses (hr : h.react = .ok r) :
    r.1.folds = h.folds ∧ (h.phase.owing h.street = false → r.1.purses = h.purses) := by
  have hmap : ∀ f : Seat → Seat, (∀ s, (f s).folded = s.folded ∧ (f s).stack = s.stack) →
      (h.mapSeats f).folds = h.folds ∧
        (h.phase.owing h.street = false → (h.mapSeats f).purses = h.purses) := fun f hf =>
    ⟨folds_mapSeats (h := h) fun s => (hf s).1, fun _ => purses_mapSeats (h := h) fun s => (hf s).2⟩
  cases hp : h.phase with
  | started | readiness | gameCompleted | settlementCompleted | antePaid =>
      rw [react_eq hp, reaction, Except.ok.injEq] at hr
      subst hr
      exact ⟨rfl, fun _ => rfl⟩
  | initialized | blindsPaid =>
      rw [react_eq hp, reaction] at hr
      obtain ⟨_, -, hr⟩ := Outcome.ok_of_bind hr
      obtain rfl := Except.ok.inj hr
      exact ⟨rfl, fun _ => rfl⟩
  | prepared =>
      rw [react_eq hp, reaction] at hr
      obtain ⟨dealt, hdeal, hr⟩ := Outcome.ok_of_bind hr
      obtain ⟨dealer, cards, -, rfl⟩ := dealHole_inv hdeal
      obtain rfl := Except.ok.inj hr
      exact ⟨folds_mapIdx fun _ _ => rfl, fun howing => Bool.noConfusion howing⟩
  | entered street =>
      rw [react_eq hp, reaction] at hr
      split at hr
      · obtain rfl := Except.ok.inj hr
        exact ⟨rfl, fun _ => rfl⟩
      · obtain ⟨dealt, hdeal, hr⟩ := Outcome.ok_of_bind hr
        obtain ⟨burned, board, rfl⟩ := dealBoard_inv hdeal
        obtain rfl := Except.ok.inj hr
        exact ⟨rfl, fun _ => rfl⟩
  | readyRequested | anteRequested | roundPrepared | roundClosed | gameClosed =>
      rw [react_eq hp, reaction, Except.ok.injEq] at hr
      subst hr
      exact hp ▸ hmap _ fun _ => ⟨rfl, rfl⟩
  | blindsRequested =>
      rw [react_eq hp, reaction] at hr
      split at hr
      all_goals obtain rfl := Except.ok.inj hr
      · exact ⟨rfl, fun _ => rfl⟩
      · exact hp ▸ hmap _ fun _ => ⟨rfl, rfl⟩
  | roundInitialized =>
      have hreset := hmap Seat.resetRound fun _ => ⟨rfl, rfl⟩
      rw [hp] at hreset
      have hsame : (h.mapSeats Seat.resetRound).street = h.street := rfl
      rw [react_eq hp, reaction] at hr
      obtain ⟨dealer, -, hr⟩ := Outcome.ok_of_bind hr
      simp only [hsame] at hr
      split at hr
      · obtain rfl := Except.ok.inj hr
        exact hreset
      · next hpreflop =>
        have howing : Phase.owing h.street .roundInitialized = true := by
          simpa [Phase.owing] using hpreflop
        refine ⟨?_, fun hnone => absurd (hnone.symm.trans howing) (by decide)⟩
        split_ifs at hr
        all_goals obtain rfl := Except.ok.inj hr
        · exact hreset.1
        · exact (folds_postBigBlind _).trans hreset.1
        · exact hreset.1
  | roundStarted =>
      rw [react_eq hp, reaction, Except.ok.injEq] at hr
      subst hr
      rcases passing_eq { h with tasks := [] } h.raiser with ⟨-, heq⟩ | ⟨seat, -, -, heq⟩ <;>
        rw [heq]
      · exact ⟨rfl, fun _ => rfl⟩
      · exact hp ▸ hmap _ fun _ => ⟨rfl, rfl⟩
  | settlementRequested =>
      rw [react_eq hp, reaction] at hr
      obtain ⟨result, -, hr⟩ := Outcome.ok_of_bind hr
      obtain rfl := Except.ok.inj hr
      exact hp ▸ hmap _ fun _ => ⟨rfl, rfl⟩

/-! What is left when the forced bets are paid. -/

/-- When the forced bets are paid the seats have what they leave. -/
theorem Preflop.purses_eq [setup.Counted] (hp : h.Preflop setup (Seat.OwesBlinds setup.terms [])) :
    h.purses = setup.prospect := by
  rw [Setup.prospect, ← hp.before.scene.table.entries, List.map_map]
  refine List.map_congr_left fun s hs => ?_
  have howes : s.OwesBlinds setup.terms [] := (hp.before.seats s hs).2
  rw [Function.comp_apply, ← howes.2, leftAfter_nil]

theorem Readying.prospect_eq [setup.Counted] (hr : h.Readying setup)
    (hp : h.phase = .readyRequested ∨ h.phase = .readiness) :
    h.prospect setup = setup.prospect := by
  have howing : h.phase.owing h.street = h.street.isNone := by
    rcases hp with hp | hp <;> rw [hp] <;> rfl
  rcases hr with ⟨hb, -⟩ | ⟨hpre, -⟩
  · exact prospect_of_owing (by rw [howing, hb.scene.street]; rfl)
  · rw [prospect_of_not_owing (by rw [howing, hpre.before.scene.street]; rfl)]
    exact hpre.purses_eq

/-- Up to the first betting round the forced bets leave the seats with what the setup says. -/
theorem Entering.prospect_eq [setup.Counted] (he : h.Entering setup)
    (hp : h.phase.owing h.street = true ∨ h.phase ∈ Phase.posted) :
    h.prospect setup = setup.prospect := by
  rcases hp with howing | hposted
  · exact prospect_of_owing howing
  · simp only [Phase.posted, List.mem_cons, List.not_mem_nil, or_false] at hposted
    rcases hposted with hp | hp | hp <;> rw [Entering, hp] at he
    · exact Readying.prospect_eq he (.inl hp)
    · exact Readying.prospect_eq he (.inr hp)
    · have hpre : h.Preflop setup (Seat.OwesBlinds setup.terms []) := he
      rw [prospect_of_not_owing (by rw [hp, hpre.before.scene.street]; rfl)]
      exact hpre.purses_eq

theorem AtGate.prospect_eq [setup.Counted] (hg : h.AtGate setup) :
    h.prospect setup = setup.prospect := by
  have hc := hg.gated.collecting
  rcases hc.isGate with hp | hp | hp
  · exact ((collecting_ready hp).1 hc).2.prospect_eq (.inl hp)
  · exact prospect_of_owing (by rw [hp]; rfl)
  · exact prospect_of_owing (by rw [hp]; rfl)

/-- No phase changes what the seats will be left with, as long as the forced bets that are due are
counted exactly. -/
theorem react_prospect (hcounted : h.phase.owing h.street = true → setup.Counted)
    (hr : h.react = .ok r) (hc : Carries (Entering setup) (Resting setup) r) :
    Carries (fun k => k.prospect setup = h.prospect setup)
      (fun k => k.prospect setup = h.prospect setup) r := by
  have hpurses := (react_folds_purses hr).2
  obtain ⟨g, next⟩ := r
  obtain ⟨hphase, hstreet, hnext⟩ := react_leads hr
  cases next with
  | none =>
      have howing : g.phase.owing g.street = h.phase.owing h.street := by
        rw [hphase, hstreet, Phase.owing_rest hnext]
      show g.prospect setup = h.prospect setup
      rw [prospect, prospect, howing]
      split
      · rfl
      · next hpaid => exact hpurses (by simpa using hpaid)
  | some next =>
      show ({ g with phase := next } : Hand).prospect setup = h.prospect setup
      cases howing : h.phase.owing h.street with
      | true =>
          have := hcounted howing
          have hlater := Phase.owing_or_posted hnext howing
          rw [← hstreet] at hlater
          rw [prospect_of_owing howing]
          exact Entering.prospect_eq hc hlater
      | false =>
          have hlater := Phase.owing_successor hnext howing
          rw [← hstreet] at hlater
          rw [prospect_of_not_owing howing, prospect_of_not_owing hlater]
          exact hpurses howing

end Hand

end PokerHand
