import PokerHand.Proofs.Play

/-!
# No hand gets stuck

What a seat is offered is read off the tasks of a gate or off the stakes, and a call is checked
against them once more. Here is that both agree: every offer can be taken
(`Resting.taking_succeeds`), the calls that take the hand on from where it rests succeed, and only a
closed hand has none.
-/
namespace PokerHand

/-- The call that takes the hand on from a phase without a seat being named. -/
def Phase.onward : Phase → Option Call
  | started => some .start
  | readyRequested => some .readyAll
  | anteRequested => some .payAntes
  | blindsRequested => some .payBlinds
  | roundClosed => some .next
  | _ => none

namespace Hand

/-- The call that takes the offer of an action to the seat at `place`: it pays what is owed, bets
the least bet and raises by the last raise. -/
def taking (h : Hand) (place : Nat) : Action → Option Call
  | .ready => some (.ready place)
  | .pass => some (.pass place)
  | .pay => (h.owedBy place).map (.pay place)
  | .fold => some (.fold place)
  | .check => some (.check place)
  | .call => some (.call place)
  | .bet => some (.bet place h.minBet)
  | .raise => some (.raise place (h.wager + h.raiseSize))
  | .allin => some (.allin place)

/-- The call succeeds whenever it is made. -/
def Succeeds [Counting] (h : Hand) (call : Call) : Prop :=
  ∀ now, ∃ h', (h.perform now call).outcome = .ok h'

section Progress

variable [Counting] {setup : Setup} {h : Hand} {s : Seat} {a : Action} {call : Call}

/-- Every call on a closed hand is refused. -/
theorem attempt_of_closed (hp : h.phase = .gameClosed) (call : Call) :
    (h.attempt call).outcome = .error .handClosed := by
  rw [attempt_outcome]
  cases call <;>
    simp [launch, bid?, launchOther, bidden, allowedSeat, isClosed, drainGate, expectPhase, hp]

/-- A seat whose turn it is can at least go all in. -/
theorem AtTurn.exists_allin (ht : h.AtTurn setup) : ∃ s ∈ h.seats, s.mayDo .allin = true := by
  obtain ⟨s, hfind⟩ : ∃ s, h.seats[h.turn]? = some s := ⟨_, List.getElem?_eq_getElem ht.turn_lt⟩
  have hs := List.mem_of_getElem? hfind
  have hturn := ht.inRound.table.numbered.number_of_getElem? hfind
  have hoffer : Action.allin ∈ h.stakes.offers s :=
    (Stakes.mem_offers_iff (ht.movable s hs hturn)).2 trivial
  refine ⟨s, hs, ?_⟩
  simpa [Seat.mayDo, ht.offers _ hs, hturn] using hoffer

/-- At a gate and at a turn somebody is offered something. -/
theorem Resting.exists_offered (hr : h.Resting setup)
    (hp : h.phase ∈ [Phase.readyRequested, .anteRequested, .blindsRequested, .roundStarted]) :
    ∃ s ∈ h.seats, s.allowed ≠ [] := by
  have hgate : h.AtGate setup → ∃ s ∈ h.seats, s.allowed ≠ [] := by
    intro hg
    obtain ⟨s, hs, hoffered, -⟩ := hg.exists_actionable
    exact ⟨s, hs, hoffered⟩
  simp only [List.mem_cons, List.not_mem_nil, or_false] at hp
  rcases hp with hp | hp | hp | hp <;> rw [Resting, hp] at hr
  · exact hgate hr
  · exact hgate hr
  · exact hgate hr
  · obtain ⟨s, hs, hmay⟩ := AtTurn.exists_allin hr
    exact ⟨s, hs, allowed_ne_nil hmay⟩

section Stocked

variable (ha : setup.Accepted) (hstocked : setup.Stocked)

include ha hstocked

theorem Launched.call_succeeds {r : Hand × Option Phase} (hl : h.Launched setup r)
    (hlaunch : h.launch call = .ok r) : h.Succeeds call := by
  obtain ⟨h', hfollow⟩ := hl.succeeds ha hstocked
  intro now
  refine ⟨{ h' with updatedAt := now }, ?_⟩
  simp [perform, step_outcome, attempt_outcome, hlaunch, hfollow]

/-- A bid that its seat can settle succeeds. -/
theorem Resting.bid_succeeds (hr : h.Resting setup) (hs : s ∈ h.seats) {b : Bid}
    (hbid : h.bid? call = some b) (hplace : s.number = b.place) (hmay : s.mayDo b.action = true)
    (hsettle : ∃ move, b.settle s = .ok move) : h.Succeeds call := by
  obtain ⟨move, hsettle⟩ := hsettle
  obtain ⟨g, -, -, hlaunch, hlaunched⟩ := bid_launched hbid hr hs hplace hmay hsettle
  exact hlaunched.call_succeeds ha hstocked hlaunch

/-- Every offer can be taken. -/
theorem Resting.taking_succeeds [setup.Counted] (hr : h.Resting setup) (hs : s ∈ h.seats)
    (hoffered : a ∈ s.allowed) : ∃ call, h.taking s.number a = some call ∧ h.Succeeds call := by
  have hmay : s.mayDo a = true := by simpa [Seat.mayDo] using hoffered
  cases a with
  | ready =>
      obtain ⟨r, hlaunch, hl⟩ := ready_launched (hr.atGate hs hmay (.inl rfl)) hs hmay
      exact ⟨_, rfl, hl.call_succeeds ha hstocked hlaunch⟩
  | pass =>
      obtain ⟨r, hlaunch, hl⟩ := pass_launched (hr.atGate hs hmay (.inr (.inr rfl))) hs hmay
      exact ⟨_, rfl, hl.call_succeeds ha hstocked hlaunch⟩
  | pay =>
      obtain ⟨owed, r, howed, hlaunch, hl, -⟩ :=
        pay_launched (hr.atGate hs hmay (.inr (.inl rfl))) hs hmay
      exact ⟨.pay s.number owed, by simp [taking, howed], hl.call_succeeds ha hstocked hlaunch⟩
  | fold => exact ⟨_, rfl, hr.bid_succeeds ha hstocked hs rfl rfl hmay ⟨_, rfl⟩⟩
  | check => exact ⟨_, rfl, hr.bid_succeeds ha hstocked hs rfl rfl hmay ⟨_, rfl⟩⟩
  | call => exact ⟨_, rfl, hr.bid_succeeds ha hstocked hs rfl rfl hmay ⟨_, rfl⟩⟩
  | allin => exact ⟨_, rfl, hr.bid_succeeds ha hstocked hs rfl rfl hmay ⟨_, rfl⟩⟩
  | bet =>
      obtain ⟨hf, hgrant⟩ := hr.faces hs hmay (by simp)
      have hsettle := Stakes.exists_betMove hf.within hf.minBet_pos hf.minBet_le hgrant.2.1
      exact ⟨_, rfl, hr.bid_succeeds ha hstocked hs rfl rfl hmay hsettle⟩
  | raise =>
      obtain ⟨hf, -⟩ := hr.faces hs hmay (by simp)
      have hwithin : h.stakes.Within setup.bound s := hf.within
      have hsettle := Stakes.exists_raiseMove (s := s)
        (hf.minBet_pos.trans_le hf.minBet_le) (hwithin.wager_nonneg.trans hwithin.wager_le)
      exact ⟨_, rfl, hr.bid_succeeds ha hstocked hs rfl rfl hmay hsettle⟩

/-- The call that takes the hand on succeeds. -/
theorem Resting.onward_succeeds (hr : h.Resting setup)
    (honward : h.phase.onward = some call) : h.Succeeds call := by
  have hgate : h.AtGate setup → h.launch call = h.drainGate h.phase → h.Succeeds call := by
    intro hg hlaunch
    obtain ⟨r, hdrain, hl⟩ := drainGate_launched hg
    exact hl.call_succeeds ha hstocked (hlaunch.trans hdrain)
  cases hp : h.phase <;>
    simp only [hp, Phase.onward, Option.some.injEq, reduceCtorEq] at honward <;>
    subst honward
  case started =>
    obtain ⟨r, hlaunch, hl⟩ := start_launched hr hp
    exact hl.call_succeeds ha hstocked hlaunch
  case roundClosed =>
    obtain ⟨r, hlaunch, hl⟩ := next_launched hr hp
    exact hl.call_succeeds ha hstocked hlaunch
  all_goals
    refine hgate ?_ (by rw [hp]; rfl)
    simpa only [Resting, hp] using hr

/-- Unless the hand is closed somebody can go on with it. -/
theorem Resting.exists_succeeds (hr : h.Resting setup) (hopen : h.phase ≠ .gameClosed) :
    ∃ call, h.Succeeds call := by
  cases hp : h.phase.onward with
  | some call => exact ⟨call, hr.onward_succeeds ha hstocked hp⟩
  | none =>
      have hphase : h.phase = .roundStarted := by
        have hrest := hr
        unfold Resting at hrest
        split at hrest <;> simp_all [Phase.onward]
      have hturn := hr
      rw [Resting, hphase] at hturn
      obtain ⟨s, hs, hmay⟩ := AtTurn.exists_allin hturn
      exact ⟨.allin s.number, hr.bid_succeeds ha hstocked hs rfl rfl hmay ⟨_, rfl⟩⟩

end Stocked

end Progress

end Hand

end PokerHand
