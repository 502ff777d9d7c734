import PokerHand.Hand.Flow
import PokerHand.Proofs.Deal.Loops

/-!
# The flow, one phase at a time

`react` says what a single phase does once it is entered: the hand that it leaves and the phase
that follows, unless the hand rests there. `flow_outcome` says that entering a phase is the same as
reacting to phase after phase, and `flow_rests` is the induction over such a run: what every
reaction keeps holds of the hand at rest. `flow_succeeds` is the same for success.
-/
namespace PokerHand

namespace Phase

/-- How many phases may still follow in one run. -/
def rank : Phase → Nat
  | gameClosed => 0
  | settlementCompleted => 1
  | settlementRequested => 2
  | gameCompleted => 3
  | roundClosed => 4
  | roundStarted => 5
  | roundPrepared => 6
  | readyRequested => 7
  | blindsPaid => 8
  | blindsRequested => 9
  | roundInitialized => 10
  | entered _ => 11
  | antePaid => 12
  | anteRequested => 13
  | prepared => 14
  | readiness => 15
  | initialized => 16
  | started => 17

/-- What may follow a phase that is entered with `street` open: another phase, or a rest. -/
def successors (street : Option Street) : Phase → List (Option Phase)
  | started => [some initialized]
  | initialized => [some readyRequested]
  | prepared => [some anteRequested, some (entered .preflop)]
  | antePaid => [some (entered .preflop)]
  | blindsRequested => [none, some blindsPaid]
  | blindsPaid => [some readyRequested]
  | readiness => [some (if street = none then prepared else roundPrepared)]
  | entered _ => [some roundInitialized]
  | roundInitialized =>
      if street = some .preflop then [some readyRequested, some blindsPaid, some blindsRequested]
      else [some roundPrepared]
  | roundPrepared => [some roundStarted]
  | roundStarted => [none, some roundClosed]
  | roundClosed => [none, some gameCompleted]
  | gameCompleted => [some settlementRequested]
  | settlementRequested => [some settlementCompleted]
  | settlementCompleted => [some gameClosed]
  | anteRequested | readyRequested | gameClosed => [none]

/-- The street that is open once a phase is over. -/
def streetAfter (street : Option Street) : Phase → Option Street
  | entered next => some next
  | _ => street

theorem rank_lt_of_mem_successors {street : Option Street} {phase next : Phase}
    (hn : some next ∈ phase.successors street) : next.rank < phase.rank := by
  cases phase <;> grind [successors, rank]

end Phase

namespace Hand

theorem dealHole_keeps {h h' : Hand} (hd : h.dealHole = .ok h') :
    h'.phase = h.phase ∧ h'.street = h.street ∧ h'.tasks = h.tasks := by
  obtain ⟨dealer, cards, -, rfl⟩ := dealHole_inv hd
  exact ⟨rfl, rfl, rfl⟩

theorem dealBoard_keeps {h h' : Hand} {street : Street} (hd : h.dealBoard street = .ok h') :
    h'.phase = h.phase ∧ h'.street = h.street ∧ h'.tasks = h.tasks := by
  obtain ⟨burned, board, rfl⟩ := dealBoard_inv hd
  exact ⟨rfl, rfl, rfl⟩

@[simp] theorem outcome_enter (phase : Phase) (h : Hand) :
    (h.enter phase).outcome = .ok { h with phase := phase } := by
  simp [enter]

/-- What holds of the hand that has just entered `phase` when the reaction is over: the hand is at
rest with `J`, or enters the phase that follows with `I`. -/
def Carries (I J : Hand → Prop) (r : Hand × Option Phase) : Prop :=
  match r.2 with
  | none => J r.1
  | some phase => I { r.1 with phase := phase }

theorem Carries.and {I J I' J' : Hand → Prop} {r : Hand × Option Phase} (h : Carries I J r)
    (h' : Carries I' J' r) : Carries (fun g => I g ∧ I' g) (fun g => J g ∧ J' g) r := by
  obtain ⟨g, next⟩ := r
  cases next <;> exact ⟨h, h'⟩

variable [Counting]

/-- The hand after a pass of the turn from `start`, and the phase that follows when the round is
over. -/
def passing (h : Hand) (start : Nat) : Hand × Option Phase :=
  match Turn.nextMovable h.seats start with
  | some seat =>
      if Turn.isClosed h.seats h.wager (some seat) then (h, some .roundClosed)
      else (h.giveTurn seat, none)
  | none => (h, some .roundClosed)

/-- What a phase does to a hand that has just entered it. -/
def reaction (phase : Phase) (h : Hand) : Except Fault (Hand × Option Phase) :=
  match phase with
  | .started => .ok (h, some .initialized)
  | .initialized => do
      let dealer ← h.dealerSeat
      return ({ h with minBet := h.terms.minBet, raiseSize := h.terms.minBet, raiser := dealer },
        some .readyRequested)
  | .readyRequested => .ok (h.openGate [.forReadiness (h.seats.map Seat.number)], none)
  | .readiness => .ok (h, some (if h.street = none then .prepared else .roundPrepared))
  | .prepared => do
      let h ← h.dealHole
      return (h, some (if h.terms.ante > 0 then .anteRequested else .entered .preflop))
  | .anteRequested =>
      .ok (h.openGate [.forPayment .ante (h.dues (fun _ => true) h.terms.ante)], none)
  | .antePaid => .ok (h.refreshPots, some (.entered .preflop))
  | .entered street =>
      let h := { h with street := some street }
      if street = .preflop then .ok (h, some .roundInitialized)
      else do
        let h ← h.dealBoard street
        return (h, some .roundInitialized)
  | .roundInitialized => do
      let dealer ← h.dealerSeat
      let h := { h.mapSeats Seat.resetRound with
        wager := 0, raiseSize := h.minBet, raiser := dealer }
      if h.street ≠ some .preflop then return (h, some .roundPrepared)
      else if !h.terms.blinds.anyPositive then return (h, some .readyRequested)
      else if h.terms.blinds.dealer = 0 ∧ h.terms.blinds.small = 0 then
        return (h.postBigBlind, some .blindsPaid)
      else return (h, some .blindsRequested)
  | .blindsRequested =>
      if h.blindTasks.isEmpty then .ok (h, some .blindsPaid)
      else .ok (h.openGate h.blindTasks, none)
  | .blindsPaid => do
      let dealer ← h.dealerSeat
      let poster := h.seats.find? fun s => s.holds .bigBlind && s.wager > 0
      return ({ h with
        wager := ((h.seats.map Seat.wager).max?).getD 0
        raiser := (poster.map Seat.number).getD dealer }, some .readyRequested)
  | .roundPrepared => .ok (h.refreshMade, some .roundStarted)
  | .roundStarted => .ok ({ h with tasks := [] }.passing h.raiser)
  | .roundClosed =>
      let h := h.collectWagers.refreshPots
      .ok (h, if h.unfolded ≤ 1 ∨ h.street = some .river then some .gameCompleted else none)
  | .gameCompleted => .ok (h, some .settlementRequested)
  | .settlementRequested => do
      let h := h.refreshMade.refreshPots
      let result ← Payout.settle h.pots h.entrants
      return ({ h with result := some result }, some .settlementCompleted)
  | .settlementCompleted => .ok (h, some .gameClosed)
  | .gameClosed => .ok (h.withdrawOffers, none)

/-- What the phase that the hand has just entered does. -/
def react (h : Hand) : Except Fault (Hand × Option Phase) := reaction h.phase h

theorem react_eq {h : Hand} {phase : Phase} (hp : h.phase = phase) :
    h.react = reaction phase h := by
  rw [react, hp]

/-- Enters a phase and goes on up to a phase at which the hand rests. -/
def flow : Phase → Hand → Traced Hand
  | .started => start
  | .initialized => setStakes
  | .prepared => prepare
  | .anteRequested => requestAntes
  | .antePaid => acceptAntes
  | .blindsRequested => requestBlinds
  | .blindsPaid => acceptBlinds
  | .readyRequested => requestReadiness
  | .readiness => acceptReadiness
  | .entered street => enterStreet street
  | .roundInitialized => openRound
  | .roundPrepared => prepareRound
  | .roundStarted => startRound
  | .roundClosed => closeRound
  | .gameCompleted => complete
  | .settlementRequested => settle
  | .settlementCompleted => completeSettlement
  | .gameClosed => closeHand

/-- Goes on with the phase that follows, if any. -/
def follow (r : Hand × Option Phase) : Except Fault Hand :=
  match r.2 with
  | none => .ok r.1
  | some phase => (flow phase r.1).outcome

theorem passTurn_outcome (h : Hand) (start : Nat) :
    (h.passTurn start).outcome = follow (h.passing start) := by
  unfold passTurn passing
  cases Turn.nextMovable h.seats start with
  | none => rfl
  | some seat => by_cases hc : Turn.isClosed h.seats h.wager (some seat) <;> simp [hc, follow, flow]

/-- Entering a phase is reacting to it and going on. -/
theorem flow_outcome (phase : Phase) (h : Hand) :
    (flow phase h).outcome = { h with phase := phase }.react >>= follow := by
  have hreact : { h with phase := phase }.react = reaction phase { h with phase := phase } := rfl
  rw [hreact]
  cases phase with
  | started => simp [flow, start, reaction, follow]
  | initialized => simp [flow, setStakes, reaction, follow]
  | prepared =>
      simp only [flow, prepare, reaction, Traced.outcome_bind, outcome_enter, Outcome.ok_bind,
        Traced.outcome_liftM, bind_assoc]
      congr 1
      funext h'
      by_cases ha : 0 < h'.terms.ante <;> simp [ha, follow, flow]
  | anteRequested => simp [flow, requestAntes, reaction, follow]
  | antePaid => simp [flow, acceptAntes, reaction, follow]
  | blindsRequested =>
      generalize hh : { h with phase := Phase.blindsRequested } = h'
      by_cases hb : h'.blindTasks = [] <;> simp [flow, requestBlinds, reaction, follow, hh, hb]
  | blindsPaid => simp [flow, acceptBlinds, reaction, follow]
  | readyRequested => simp [flow, requestReadiness, reaction, follow]
  | readiness => cases hs : h.street <;> simp [flow, acceptReadiness, reaction, follow, hs]
  | entered street =>
      by_cases hs : street = .preflop <;> simp [flow, enterStreet, reaction, follow, hs]
  | roundInitialized =>
      simp only [flow, openRound, reaction, Traced.outcome_bind, outcome_enter, Outcome.ok_bind,
        Traced.outcome_liftM, bind_assoc]
      congr 1
      funext dealer
      simp only [mapSeats]
      by_cases hs : h.street = some .preflop
      · by_cases hb : h.terms.blinds.anyPositive
        · by_cases hl : h.terms.blinds.dealer = 0 ∧ h.terms.blinds.small = 0 <;>
            simp [follow, flow, hs, hb, hl]
        · simp [follow, flow, hs, hb]
      · simp [follow, flow, hs]
  | roundPrepared => simp [flow, prepareRound, reaction, follow]
  | roundStarted => simp [flow, startRound, reaction, passTurn_outcome]
  | roundClosed =>
      simp only [flow, closeRound, reaction, Traced.outcome_bind, outcome_enter, Outcome.ok_bind]
      split <;> simp [follow, flow, *]
  | gameCompleted => simp [flow, complete, reaction, follow]
  | settlementRequested => simp [flow, settle, reaction, follow]
  | settlementCompleted => simp [flow, completeSettlement, reaction, follow]
  | gameClosed => simp [flow, closeHand, reaction, follow]

/-! Where a reaction leads. -/

theorem passing_leads (h : Hand) (start : Nat) :
    (h.passing start).1.phase = h.phase ∧ (h.passing start).1.street = h.street ∧
      (h.passing start).2 ∈ [none, some Phase.roundClosed] := by
  unfold passing
  split
  · split <;> simp [giveTurn, mapSeats]
  · simp

/-- A reaction keeps the phase that it reacts to and leads where that phase may lead. -/
theorem react_leads {h h' : Hand} {next : Option Phase} (hr : h.react = .ok (h', next)) :
    h'.phase = h.phase ∧ h'.street = h.phase.streetAfter h.street ∧
      next ∈ h.phase.successors h.street := by
  cases hp : h.phase with
  | started | readyRequested | anteRequested | readiness | antePaid | roundPrepared | gameCompleted
  | settlementCompleted | gameClosed =>
      rw [react_eq hp, reaction, Except.ok.injEq, Prod.mk.injEq] at hr
      obtain ⟨rfl, rfl⟩ := hr
      exact ⟨hp, rfl, List.mem_singleton_self _⟩
  | initialized | blindsPaid | settlementRequested =>
      rw [react_eq hp, reaction] at hr
      obtain ⟨_, -, hr⟩ := Outcome.ok_of_bind hr
      simp only [Outcome.pure_eq, Except.ok.injEq, Prod.mk.injEq] at hr
      obtain ⟨rfl, rfl⟩ := hr
      exact ⟨hp, rfl, List.mem_singleton_self _⟩
  | prepared =>
      rw [react_eq hp, reaction] at hr
      obtain ⟨dealt, hdeal, hr⟩ := Outcome.ok_of_bind hr
      obtain ⟨hphase, hstreet, -⟩ := dealHole_keeps hdeal
      simp only [Outcome.pure_eq, Except.ok.injEq, Prod.mk.injEq] at hr
      obtain ⟨rfl, rfl⟩ := hr
      refine ⟨hphase.trans hp, hstreet, ?_⟩
      split <;> simp [Phase.successors]
  | entered street =>
      rw [react_eq hp, reaction] at hr
      split at hr
      · simp only [Except.ok.injEq, Prod.mk.injEq] at hr
        obtain ⟨rfl, rfl⟩ := hr
        exact ⟨hp, rfl, List.mem_singleton_self _⟩
      · obtain ⟨dealt, hdeal, hr⟩ := Outcome.ok_of_bind hr
        obtain ⟨hphase, hstreet, -⟩ := dealBoard_keeps hdeal
        simp only [Outcome.pure_eq, Except.ok.injEq, Prod.mk.injEq] at hr
        obtain ⟨rfl, rfl⟩ := hr
        exact ⟨hphase.trans hp, hstreet, List.mem_singleton_self _⟩
  | roundInitialized =>
      rw [react_eq hp, reaction] at hr
      obtain ⟨dealer, -, hr⟩ := Outcome.ok_of_bind hr
      have hsame : (h.mapSeats Seat.resetRound).street = h.street := rfl
      simp only [hsame] at hr
      by_cases hpre : h.street = some .preflop
      · simp only [hpre, ne_eq, not_true, if_false] at hr
        repeat' split at hr
        all_goals
          simp only [Outcome.pure_eq, Except.ok.injEq, Prod.mk.injEq] at hr
          obtain ⟨rfl, rfl⟩ := hr
          simp [Phase.successors, Phase.streetAfter, hpre, hp, postBigBlind, mapSeats]
      · simp only [hpre, ne_eq, not_false_eq_true, if_true, Outcome.pure_eq, Except.ok.injEq,
          Prod.mk.injEq] at hr
        obtain ⟨rfl, rfl⟩ := hr
        simp [Phase.successors, Phase.streetAfter, hpre, hp, mapSeats]
  | blindsRequested =>
      rw [react_eq hp, reaction] at hr
      split at hr
      all_goals
        simp only [Except.ok.injEq, Prod.mk.injEq] at hr
        obtain ⟨rfl, rfl⟩ := hr
        simp [Phase.successors, Phase.streetAfter, hp, openGate, refreshGate, mapSeats]
  | roundStarted =>
      rw [react_eq hp, reaction, Except.ok.injEq] at hr
      have hleads := passing_leads { h with tasks := [] } h.raiser
      rw [hr] at hleads
      exact ⟨hleads.1.trans hp, hleads.2⟩
  | roundClosed =>
      rw [react_eq hp, reaction, Except.ok.injEq, Prod.mk.injEq] at hr
      obtain ⟨rfl, rfl⟩ := hr
      refine ⟨hp, rfl, ?_⟩
      split <;> simp [Phase.successors]

/-- The phases that follow one another in a run have falling ranks. -/
theorem react_rank {h h' : Hand} {phase : Phase} (hr : h.react = .ok (h', some phase)) :
    phase.rank < h.phase.rank :=
  Phase.rank_lt_of_mem_successors (react_leads hr).2.2

section Runs

variable {I J : Hand → Prop} (step : ∀ h, I h → ∀ r, h.react = .ok r → Carries I J r)

include step

/-- A run through the phases ends in `J` when every reaction carries `I` on. -/
theorem flow_rests (phase : Phase) (h : Hand) {h' : Hand} (hi : I { h with phase := phase })
    (hflow : (flow phase h).outcome = .ok h') : J h' := by
  rw [flow_outcome] at hflow
  obtain ⟨⟨g, next⟩, hr, hfollow⟩ := Outcome.ok_of_bind hflow
  have hc := step _ hi _ hr
  cases next with
  | none => exact Except.ok.inj hfollow ▸ hc
  | some next =>
      have hlt : next.rank < phase.rank := react_rank hr
      exact flow_rests next g hc hfollow
termination_by phase.rank

/-- A run through the phases succeeds when every reaction does. -/
theorem flow_succeeds (hok : ∀ h, I h → ∃ r, h.react = .ok r) (phase : Phase) (h : Hand)
    (hi : I { h with phase := phase }) : ∃ h', (flow phase h).outcome = .ok h' := by
  obtain ⟨⟨g, next⟩, hr⟩ := hok _ hi
  have hc := step _ hi _ hr
  rw [flow_outcome, hr]
  cases next with
  | none => exact ⟨g, rfl⟩
  | some next =>
      have hlt : next.rank < phase.rank := react_rank hr
      exact flow_succeeds hok next g hc
termination_by phase.rank

end Runs

end Hand

end PokerHand
