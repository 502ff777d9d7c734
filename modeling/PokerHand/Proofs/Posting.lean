import PokerHand.Proofs.Play

/-!
# From the deal to the first betting round

`Posting` holds of a hand on its way from the deal to the first betting round, and such a hand
stays on its way until it rests at a gate. So clearing the gates in their order brings every hand
to the point where the forced bets are on the table.
-/
namespace PokerHand.Hand

variable [Counting] {setup : Setup} {h h' : Hand}

/-- The hand is on its way from the deal to the first betting round. -/
def Posting (h : Hand) : Prop :=
  match h.phase with
  | .readiness => h.street = none
  | .prepared | .anteRequested | .antePaid | .entered .preflop => True
  | .roundInitialized | .blindsRequested | .blindsPaid | .readyRequested =>
      h.street = some .preflop
  | _ => False

/-- A phase on the way leads on or rests at a gate. -/
theorem Posting.react (hp : h.Posting) {r : Hand × Option Phase} (hr : h.react = .ok r) :
    Carries Posting (fun h' => h'.Posting ∧ h'.phase = h.phase) r := by
  obtain ⟨h', next⟩ := r
  obtain ⟨hphase, hstreet, hnext⟩ := react_leads hr
  unfold Posting at hp
  cases hbefore : h.phase with
  | readiness | prepared | antePaid | roundInitialized | blindsPaid =>
      simp only [hbefore] at hp
      simp only [hbefore, hp, Phase.streetAfter, Phase.successors, List.mem_cons, if_true,
        List.not_mem_nil, or_false] at hstreet hnext
      rcases hnext with rfl | rfl | rfl <;> simp [Carries, Posting, hstreet]
  | anteRequested | readyRequested | blindsRequested =>
      simp only [hbefore] at hp
      simp only [hbefore, hp, Phase.streetAfter, Phase.successors, List.mem_cons,
        List.not_mem_nil, or_false] at hstreet hnext
      rcases hnext with rfl | rfl <;> simp [Carries, Posting, hphase, hbefore, hstreet]
  | entered street =>
      cases street with
      | preflop =>
          simp only [hbefore, Phase.streetAfter, Phase.successors, List.mem_singleton]
            at hstreet hnext
          subst hnext
          exact hstreet
      | flop | turn | river => simp only [hbefore] at hp
  | _ => simp only [hbefore] at hp

/-- A run on the way ends at a gate on the way, no earlier than it began. -/
theorem flow_posting (ha : setup.Accepted) (phase : Phase)
    (he : { h with phase := phase }.Entering setup) (hp : { h with phase := phase }.Posting)
    (hflow : (flow phase h).outcome = .ok h') :
    h'.Resting setup ∧ h'.Posting ∧ h'.phase.rank ≤ phase.rank := by
  have hstep : ∀ g : Hand, (g.Entering setup ∧ g.Posting ∧ g.phase.rank ≤ phase.rank) →
      ∀ r, g.react = .ok r →
        Carries (fun g => g.Entering setup ∧ g.Posting ∧ g.phase.rank ≤ phase.rank)
          (fun g => g.Resting setup ∧ g.Posting ∧ g.phase.rank ≤ phase.rank) r := by
    rintro g ⟨hentering, hposting, hrank⟩ ⟨g', next⟩ hr
    have hc := (proceeds_of_entering ha hentering).carries _ hr
    have hc' := hposting.react hr
    cases next with
    | none => exact ⟨hc, hc'.1, hc'.2 ▸ hrank⟩
    | some next => exact ⟨hc, hc', Nat.le_trans (Nat.le_of_lt (react_rank hr)) hrank⟩
  exact flow_rests hstep phase h ⟨he, hp, Nat.le_refl _⟩ hflow

/-- A hand on the way to the first betting round rests at one of three gates. -/
theorem Posting.isGate (hp : h.Posting) (hr : h.Resting setup) :
    h.phase = .readyRequested ∨ h.phase = .anteRequested ∨ h.phase = .blindsRequested := by
  unfold Posting at hp
  unfold Resting at hr
  cases hphase : h.phase <;> simp_all

/-- When the players are asked for readiness again, they have paid the forced bets. -/
theorem Posting.posted [setup.Counted] (hp : h.Posting) (hr : h.Resting setup)
    (hphase : h.phase = .readyRequested) :
    ∀ s ∈ h.seats, s.stack = setup.terms.afterBlinds s.entry := by
  have hstreet : h.street = some .preflop := by simpa only [Posting, hphase] using hp
  have hg : h.AtGate setup := by simpa only [Resting, hphase] using hr
  rcases ((collecting_ready hphase).1 hg.gated.collecting).2 with ⟨hb, -⟩ | ⟨hpre, -⟩
  · simp [hb.scene.street] at hstreet
  · exact fun s hs => (hpre.before.seats s hs).2.2

theorem after_of_ok {now : Int} {call : Call} (hok : (h.attempt call).outcome = .ok h') :
    h.after now call = { h' with updatedAt := now } := by
  simp [after, perform, step_outcome, hok]

theorem after_of_error {now : Int} {call : Call} {fault : Fault}
    (herror : (h.attempt call).outcome = .error fault) : h.after now call = h := by
  simp [after, perform, step_outcome, herror]

theorem clearGate_of_phase_ne {phase : Phase} (hne : h.phase ≠ phase) :
    ∃ fault, (h.clearGate phase).outcome = .error fault := by
  simp only [clearGate, Traced.outcome_bind, Traced.outcome_liftM, expectPhase, hne, if_false]
  split <;> exact ⟨_, rfl⟩

/-- The start leads to the first request for readiness. -/
theorem after_start (ha : setup.Accepted) (hf : h.Fresh setup) (now : Int) :
    (h.after now .start).Resting setup ∧ (h.after now .start).phase = .readyRequested ∧
      (h.after now .start).street = none := by
  have hr := after_resting ha hf.resting now .start
  obtain ⟨dealer, hdealer⟩ := hf.table.dealerSeat_eq_ok ha
  have hdealer' : ∀ g : Hand, g.seats = h.seats → g.dealerSeat = .ok dealer := by
    intro g hg
    rw [dealerSeat, hg]
    exact hdealer
  let asked : Hand :=
    { h with
      phase := .readyRequested, minBet := h.terms.minBet, raiseSize := h.terms.minBet,
      raiser := dealer }
  have hok : (h.attempt .start).outcome =
      .ok (asked.openGate [.forReadiness (h.seats.map Seat.number)]) := by
    simp only [attempt, expectPhase, hf.phase, if_true, Traced.outcome_bind,
      Traced.outcome_liftM, Outcome.ok_bind, start, outcome_enter, setStakes, hdealer',
      requestReadiness, Traced.outcome_pure, asked]
  rw [after_of_ok hok] at hr ⊢
  exact ⟨hr, rfl, hf.street⟩

/-- Whatever leaves a gate for a phase on the way stays on the way. -/
theorem Exits.posting (ha : setup.Accepted) (he : h.Exits setup h')
    (hp : ∀ g : Hand, g.street = h.street → { g with phase := exitOf h.phase }.Posting) :
    h'.Posting ∧ h'.phase.rank ≤ (exitOf h.phase).rank := by
  obtain ⟨g, hentering, hstreet, hflow⟩ := he
  exact (flow_posting ha _ hentering (hp g hstreet) hflow).2

/-- When everybody is ready the hand is on its way. -/
theorem after_readyAll (ha : setup.Accepted) (hstocked : setup.Stocked) (hr : h.Resting setup)
    (hphase : h.phase = .readyRequested) (hstreet : h.street = none) (now : Int) :
    (h.after now .readyAll).Resting setup ∧ (h.after now .readyAll).Posting := by
  have hr' := after_resting ha hr now .readyAll
  have hg : h.AtGate setup := by simpa only [Resting, hphase] using hr
  obtain ⟨h', hclear, hexits⟩ := clearGate_exits ha hstocked hg
  have hposting : h'.Posting := (hexits.posting ha fun g hg => by
    rw [hphase]
    exact hg.trans hstreet).1
  rw [hphase] at hclear
  have hok : (h.attempt .readyAll).outcome = .ok h' := hclear
  rw [after_of_ok hok] at hr' ⊢
  exact ⟨hr', hposting⟩

/-- Clearing a gate where payments are due leaves it behind, and never goes back; away from it
nothing changes. -/
theorem Posting.clear (ha : setup.Accepted) (hstocked : setup.Stocked) (hp : h.Posting)
    (hr : h.Resting setup) {gate : Phase} (hgate : gate = .anteRequested ∨ gate = .blindsRequested)
    (call : Call) (hcall : h.attempt call = h.clearGate gate) (now : Int) :
    (h.after now call).Resting setup ∧ (h.after now call).Posting ∧
      (h.after now call).phase.rank ≤ h.phase.rank ∧ (h.after now call).phase ≠ gate := by
  have hr' := after_resting ha hr now call
  by_cases hphase : h.phase = gate
  · subst hphase
    have hat : h.AtGate setup := by rcases hgate with hg | hg <;> simpa only [Resting, hg] using hr
    obtain ⟨h', hclear, hexits⟩ := clearGate_exits ha hstocked hat
    have hlt : (exitOf h.phase).rank < h.phase.rank := by
      rcases hgate with hg | hg <;> rw [hg] <;> decide
    have hexit : ∀ g : Hand, g.street = h.street → { g with phase := exitOf h.phase }.Posting := by
      intro g hstreet
      rcases hgate with hg | hg
      · rw [hg]
        trivial
      · have hpre : h.street = some .preflop := by simpa only [Posting, hg] using hp
        rw [hg]
        exact hstreet.trans hpre
    obtain ⟨hposting, hrank⟩ := hexits.posting ha hexit
    rw [← hcall] at hclear
    rw [after_of_ok hclear] at hr' ⊢
    have hpast : h'.phase.rank < h.phase.rank := Nat.lt_of_le_of_lt hrank hlt
    refine ⟨hr', hposting, Nat.le_of_lt hpast, fun hsame => ?_⟩
    exact Nat.lt_irrefl _ (congrArg Phase.rank hsame ▸ hpast)
  · obtain ⟨fault, herror⟩ := clearGate_of_phase_ne hphase
    rw [← hcall] at herror
    rw [after_of_error herror]
    exact ⟨hr, hp, Nat.le_refl _, hphase⟩

/-- Clearing the gates in their order puts all forced bets on the table. -/
theorem Fresh.posted [setup.Counted] (ha : setup.Accepted) (hstocked : setup.Stocked)
    (hf : h.Fresh setup) :
    ∀ s ∈ (h.play [(0, .start), (0, .readyAll), (0, .payAntes), (0, .payBlinds)]).seats,
      s.stack = setup.terms.afterBlinds s.entry := by
  obtain ⟨hstart, hphase, hstreet⟩ := after_start ha hf 0
  obtain ⟨hready, hposting⟩ := after_readyAll ha hstocked hstart hphase hstreet 0
  obtain ⟨hantes, hposting, -, hnoante⟩ :=
    hposting.clear ha hstocked hready (.inl rfl) .payAntes rfl 0
  obtain ⟨hblinds, hposting', hrank, hnoblinds⟩ :=
    hposting.clear ha hstocked hantes (.inr rfl) .payBlinds rfl 0
  refine hposting'.posted hblinds ?_
  rcases hposting'.isGate hblinds with hphase | hphase | hphase
  · exact hphase
  · rcases hposting.isGate hantes with hbefore | hbefore | hbefore
    · rw [hphase, hbefore] at hrank
      exact absurd hrank (by decide)
    · exact absurd hbefore hnoante
    · rw [hphase, hbefore] at hrank
      exact absurd hrank (by decide)
  · exact absurd hphase hnoblinds

end PokerHand.Hand
