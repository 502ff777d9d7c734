import PokerHand.Proofs.Betting.Effects
import PokerHand.Proofs.Gate.Clearing
import PokerHand.Proofs.Trace

/-!
# Whole hands

`Hand.play` applies one call after the other; a refused call leaves the hand as it was. Every call
on a hand in order keeps it in order or is refused mildly (`perform_fair`), so a hand is in order
however it was played (`play_resting`).
-/
namespace PokerHand.Hand

variable [Counting] {setup : Setup} {h : Hand} {s : Seat} {a : Action}

/-- The hand after a call at time `now`; a refused call leaves it as it was. -/
def after (h : Hand) (now : Int) (call : Call) : Hand :=
  match (h.perform now call).outcome with
  | .ok h' => h'
  | .error _ => h

theorem after_of_perform {now : Int} {call : Call} {h' : Hand}
    (hok : (h.perform now call).outcome = .ok h') : h.after now call = h' := by
  simp [after, hok]

theorem after_of_refused {now : Int} {call : Call} {fault : Fault}
    (herror : (h.perform now call).outcome = .error fault) : h.after now call = h := by
  simp [after, herror]

theorem perform_eq_after {now : Int} {call : Call}
    (hok : (h.perform now call).outcome.isOk = true) :
    (h.perform now call).outcome = .ok (h.after now call) := by
  unfold after
  cases houtcome : (h.perform now call).outcome with
  | error fault => simp [houtcome, Except.isOk, Except.toBool] at hok
  | ok h' => rfl

/-- The hand after calls, each at its time. -/
def play (h : Hand) (calls : List (Int × Call)) : Hand :=
  calls.foldl (fun h call => h.after call.1 call.2) h

/-- A move is made at a turn. -/
theorem Resting.atTurn (hr : h.Resting setup) (hs : s ∈ h.seats) (hmay : s.mayDo a = true)
    (hmove : a ≠ .ready ∧ a ≠ .pay ∧ a ≠ .pass) : h.phase = .roundStarted ∧ h.AtTurn setup := by
  rcases hr.atGate_or_atTurn hs hmay with hg | ht
  · obtain ⟨_, _, -, -, -, hask⟩ := hg.asked hs (allowed_ne_nil hmay)
    rcases hask with ⟨hoffer, -⟩ | ⟨hoffer, -⟩ | ⟨hoffer, -⟩
    · exact absurd (mem_of_mayDo hmay hoffer) hmove.2.2
    · exact absurd (mem_of_mayDo hmay hoffer) hmove.2.1
    · exact absurd (mem_of_mayDo hmay hoffer) hmove.1
  · exact ht

/-- What the seat whose turn it is has and faces. -/
structure Faces (setup : Setup) (h : Hand) (s : Seat) : Prop where
  phase : h.phase = .roundStarted
  atTurn : h.AtTurn setup
  turn : s.number = h.turn
  minBet_pos : 0 < h.stakes.minBet
  minBet_le : [setup.Counted] → h.stakes.minBet ≤ h.stakes.raiseSize
  within : [setup.Counted] → h.stakes.Within setup.bound s

/-- What a seat with chips behind weighs against the stakes stays within the bound of the setup. -/
theorem Staked.within [setup.Counted] (hc : h.Staked setup) (ht : Table setup h)
    (hminBet : h.minBet = setup.terms.minBet) (hs : s ∈ h.seats) (hmovable : s.isMovable = true) :
    h.stakes.Within setup.bound s := by
  simp only [Seat.isMovable, Bool.and_eq_true, decide_eq_true_eq] at hmovable
  have hsound := ht.sound s hs
  have hbound := setup.bankrolls_lt_bound
  have hpos := setup.terms.minBet_pos
  have hle := hsound.bankroll_le
  have hbalanced := hsound.balanced
  have hpot := hsound.pot_nonneg
  have hown := hsound.within
  have hsize := hc.minBet_le
  refine ⟨hmovable.2, hsound.wager_nonneg, hc.wager_le s hs, ?_, ?_, by omega⟩
  · show 0 ≤ h.raiseSize
    omega
  · obtain ⟨leader, hleader, -, hmatched, -⟩ := hc.leader
    have hmost := (ht.sound leader hleader).within
    have hlead := (ht.sound leader hleader).bankroll_le
    have hleadPot := (ht.sound leader hleader).pot_nonneg
    have hlargest := hc.raiseSize_le
    show h.wager + h.raiseSize ≤ setup.bound
    unfold Setup.bound
    omega

theorem Resting.faces (hr : h.Resting setup) (hs : s ∈ h.seats) (hmay : s.mayDo a = true)
    (hmove : a ≠ .ready ∧ a ≠ .pay ∧ a ≠ .pass) : h.Faces setup s ∧ h.stakes.Grants s a := by
  obtain ⟨hp, ht⟩ := hr.atTurn hs hmay hmove
  obtain ⟨hturn, hoffer⟩ := ht.eq_turn hs hmay
  obtain ⟨street, ho⟩ := ht.inRound.onStreet
  have hmovable := ht.movable s hs hturn
  refine ⟨?_, (Stakes.mem_offers_iff hmovable).1 hoffer⟩
  exact
    { phase := hp
      atTurn := ht
      turn := hturn
      minBet_pos := by
        show 0 < h.minBet
        rw [ho.scene.minBet]
        exact setup.terms.minBet_pos
      minBet_le := Staked.minBet_le ht.inRound.staked
      within := Staked.within ht.inRound.staked ho.scene.table ho.scene.minBet hs hmovable }

/-! Bids. -/

section Bids

variable {call : Call} {b : Bid} (hbid : h.bid? call = some b)

include hbid

/-- A bid is no action at a gate. -/
theorem isMove_of_bid : b.action ≠ .ready ∧ b.action ≠ .pay ∧ b.action ≠ .pass := by
  cases call <;> simp only [bid?, Option.some.injEq, reduceCtorEq] at hbid <;> subst hbid <;> simp

theorem launch_of_bid :
    h.launch call = h.bidden b >>= fun g => .ok (g.passing b.place) := by
  simp only [launch, hbid, Outcome.pure_eq]

/-- Whatever a seat asks for that it is offered, it comes to a move that fits. -/
theorem settle_fits [setup.Counted] (hf : h.Faces setup s) (hgrant : h.stakes.Grants s b.action)
    {move : Move} (hsettle : b.settle s = .ok move) : move.Fits h.stakes s := by
  have hb : h.stakes.Within setup.bound s := hf.within
  cases call <;> simp only [bid?, Option.some.injEq, reduceCtorEq] at hbid <;> subst hbid
  case fold place => exact Except.ok.inj hsettle ▸ hgrant
  case check place => exact Except.ok.inj hsettle ▸ hgrant
  case call place => exact Except.ok.inj hsettle ▸ Stakes.callMove_fits hb hgrant
  case bet place chips =>
    exact Stakes.betMove_fits hf.minBet_pos hb.stack_pos hgrant.2.1 hb.wager_nonneg hsettle
  case raise place level => exact Stakes.raiseMove_fits hb hf.minBet_pos hf.minBet_le hsettle
  case allin place => exact Except.ok.inj hsettle ▸ ⟨hb.stack_pos, rfl⟩

/-- A seat is refused only what it can do otherwise. -/
theorem settle_refused {fault : Fault} (hsettle : b.settle s = .error fault) : fault.IsMild := by
  cases call <;> simp only [bid?, Option.some.injEq, reduceCtorEq] at hbid <;> subst hbid
  case fold | check | call | allin => cases hsettle
  case bet place chips => obtain rfl | rfl := Stakes.betMove_refused hsettle <;> exact .inl rfl
  case raise place level =>
    obtain rfl := Stakes.raiseMove_refused hsettle
    exact .inl rfl

/-- A bid that comes to a move is made. -/
theorem bid_launched (hr : h.Resting setup) (hs : s ∈ h.seats) (hplace : s.number = b.place)
    (hmay : s.mayDo b.action = true) {move : Move} (hsettle : b.settle s = .ok move) :
    ∃ g, h.bidden b = .ok g ∧ h.Moved setup g ∧ h.launch call = .ok (g.passing b.place) ∧
      h.Launched setup (g.passing b.place) := by
  obtain ⟨hf, hgrant⟩ := hr.faces hs hmay (isMove_of_bid hbid)
  have hfits : [setup.Counted] → move.Fits h.stakes s := settle_fits hbid hf hgrant hsettle
  obtain ⟨g, hmade, hmoved⟩ := made_eq_ok hf.atTurn hs hf.turn hfits
  have hallowed := hr.allowedSeat_eq_ok hs hmay
  rw [hplace] at hmade hallowed
  have hbidden : h.bidden b = .ok g := by simp [bidden, hallowed, hsettle, hmade]
  refine ⟨g, hbidden, hmoved, by simp [launch_of_bid hbid, hbidden], ?_⟩
  have hturn : b.place = h.turn := hplace.symm.trans hf.turn
  exact hturn ▸ passing_launched hf.phase hmoved

theorem bid_fair (hr : h.Resting setup) : Outcome.Fair (h.Launched setup) (h.launch call) := by
  rcases hr.offered_or_mild b.place b.action with ⟨s, hs, hplace, hmay⟩ | ⟨fault, herror, hmild⟩
  · cases hsettle : b.settle s with
    | ok move =>
        obtain ⟨g, -, -, hlaunch, hlaunched⟩ := bid_launched hbid hr hs hplace hmay hsettle
        exact .of_ok ⟨_, hlaunch, hlaunched⟩
    | error fault =>
        have hmild := settle_refused hbid hsettle
        have hallowed := hr.allowedSeat_eq_ok hs hmay
        rw [hplace] at hallowed
        simpa [launch_of_bid hbid, bidden, hallowed, hsettle] using hmild
  · simpa [launch_of_bid hbid, bidden, herror] using hmild

end Bids

/-- What a bid that is made was: the seat whose turn it is had a move that fits, and made it. -/
theorem Resting.exists_settledBy (hr : h.Resting setup) {call : Call} {b : Bid} {g : Hand}
    (hbid : h.bid? call = some b) (hbidden : h.bidden b = .ok g) :
    ∃ s ∈ h.seats, s.number = b.place ∧ h.Faces setup s ∧ h.stakes.Grants s b.action ∧
      ∃ move value, b.settle s = .ok move ∧ ([setup.Counted] → move.Fits h.stakes s) ∧
        g = h.settledBy s.number move value := by
  obtain ⟨s, hallowed, hmade⟩ := Outcome.ok_of_bind hbidden
  obtain ⟨move, hsettle, hmade⟩ := Outcome.ok_of_bind hmade
  obtain ⟨hfind, hmay⟩ := offered_of_allowedSeat hallowed
  have hs := List.mem_of_getElem? hfind
  have hplace := hr.table.numbered.number_of_getElem? hfind
  obtain ⟨hf, hgrant⟩ := hr.faces hs hmay (isMove_of_bid hbid)
  have hfits : [setup.Counted] → move.Fits h.stakes s := settle_fits hbid hf hgrant hsettle
  obtain ⟨value, hmade'⟩ := made_eq hf.atTurn hs hf.turn hfits
  rw [hplace, hmade] at hmade'
  exact ⟨s, hs, hplace, hf, hgrant, move, value, hsettle, hfits, hplace ▸ Except.ok.inj hmade'⟩

/-- A round that is closed for now is followed by the next one. -/
theorem next_launched (hr : h.Resting setup) (hp : h.phase = .roundClosed) :
    ∃ r, h.launch .next = .ok r ∧ h.Launched setup r := by
  rw [Resting, hp] at hr
  obtain ⟨⟨street, hriver, hb⟩, -⟩ := hr
  have hstreet := hb.onStreet.scene.street
  obtain ⟨next, hnext⟩ : ∃ next, street.next? = some next := by
    cases street <;> simp_all [Street.next?]
  have hlaunch : h.launch .next = .ok (h, some (.entered next)) := by
    simp [launch, bid?, launchOther, hp, hstreet, hnext]
  refine ⟨_, hlaunch, launched_goes ?_ rfl (by simp [hp, Phase.exits, hstreet, hnext])⟩
  have hentered : { h with phase := .entered next }.Between setup street :=
    ⟨⟨hb.onStreet.scene.of_frame rfl (hb.onStreet.scene.table.congr rfl rfl),
      hb.onStreet.counted⟩, hb.two_le_unfolded, hb.wager_eq_zero, hb.level, hb.led⟩
  cases next with
  | preflop => cases street <;> simp [Street.next?] at hnext
  | flop | turn | river => exact ⟨street, hnext, hentered⟩

theorem start_launched (hr : h.Resting setup) (hp : h.phase = .started) :
    ∃ r, h.launch .start = .ok r ∧ h.Launched setup r := by
  rw [Resting, hp] at hr
  obtain ⟨ht, hstreet, hdealt, hcounted, hseats⟩ := hr.1
  have hlaunch : h.launch .start = .ok (h, some .started) := by
    simp [launch, bid?, launchOther, expectPhase, hp]
  refine ⟨_, hlaunch, launched_goes ?_ rfl (by simp [hp, Phase.exits])⟩
  exact ⟨ht.congr rfl rfl, hstreet, hdealt, hcounted, hseats⟩

/-- Every call on a hand in order is made or refused mildly. -/
theorem launch_fair (hr : h.Resting setup) (call : Call) :
    Outcome.Fair (h.Launched setup) (h.launch call) := by
  cases call with
  | start =>
      by_cases hp : h.phase = .started
      · exact .of_ok (start_launched hr hp)
      · exact (expectPhase_fair h .started).bind fun _ heq => absurd heq hp
  | ready place => exact ready_fair hr place
  | pay place chips => exact pay_fair hr place chips
  | pass place => exact pass_fair hr place
  | readyAll => exact drainGate_fair hr (.inl rfl)
  | payAntes => exact drainGate_fair hr (.inr (.inl rfl))
  | payBlinds => exact drainGate_fair hr (.inr (.inr rfl))
  | fold place | check place | call place | bet place chips | raise place level | allin place =>
      exact bid_fair rfl hr
  | next =>
      by_cases hp : h.phase = .roundClosed
      · exact .of_ok (next_launched hr hp)
      · simp only [launch, bid?, launchOther, hp, if_false]
        split
        · exact .inr rfl
        · exact .inr rfl

/-- A call that succeeds at a gate satisfies entries there. -/
theorem AtGate.served (hg : h.AtGate setup) {call : Call} {r : Hand × Option Phase}
    (hlaunch : h.launch call = .ok r) : Served h r := by
  have hr := hg.resting
  have hgate := hg.gated.collecting.isGate
  have hdrain : ∀ phase, h.drainGate phase = .ok r → Served h r := by
    intro phase hdrain
    obtain ⟨g, hdrain', hserved⟩ := drainGate_served hg
    rw [← phase_of_drainGate hdrain, hdrain'] at hdrain
    exact Except.ok.inj hdrain ▸ hserved
  have hbid : ∀ b, h.bid? call = some b → Served h r := by
    intro b hb
    rcases hr.offered_or_mild b.place b.action with ⟨s, hs, hplace, hmay⟩ | ⟨fault, herror, -⟩
    · have hturn := (hr.atTurn hs hmay (isMove_of_bid hb)).1
      simp [hturn] at hgate
    · simp [launch_of_bid hb, bidden, herror] at hlaunch
  cases call with
  | ready place =>
      rcases hr.offered_or_mild place .ready with ⟨s, hs, rfl, hmay⟩ | ⟨fault, herror, -⟩
      · obtain ⟨h', hserves, heq⟩ := ready_serves hg hs hmay
        exact .once hs hserves (heq.symm.trans hlaunch)
      · simp [launch, bid?, launchOther, herror] at hlaunch
  | pay place chips =>
      rcases hr.offered_or_mild place .pay with ⟨s, hs, rfl, hmay⟩ | ⟨fault, herror, -⟩
      · obtain ⟨owed, h', -, hserves, heq, hother⟩ := pay_serves hg hs hmay
        by_cases hchips : chips = owed
        · subst hchips
          exact .once hs hserves (heq.symm.trans hlaunch)
        · rw [hother chips hchips] at hlaunch
          cases hlaunch
      · simp [launch, bid?, launchOther, herror] at hlaunch
  | pass place =>
      rcases hr.offered_or_mild place .pass with ⟨s, hs, rfl, hmay⟩ | ⟨fault, herror, -⟩
      · obtain ⟨h', hserves, heq⟩ := pass_serves hg hs hmay
        exact .once hs hserves (heq.symm.trans hlaunch)
      · simp [launch, bid?, launchOther, herror] at hlaunch
  | readyAll | payAntes | payBlinds => exact hdrain _ hlaunch
  | fold place | check place | call place | bet place chips | raise place level | allin place =>
      exact hbid _ rfl
  | start | next =>
      rcases hgate with hp | hp | hp <;>
        simp [launch, bid?, launchOther, expectPhase, isClosed, hp] at hlaunch

/-- A call that succeeds satisfies entries of the gate at which the hand rests, or is a bid, or lets
the hand go on as it is. -/
theorem Resting.launch_cases (hr : h.Resting setup) {call : Call} {r : Hand × Option Phase}
    (hlaunch : h.launch call = .ok r) :
    h.AtGate setup ∧ Served h r ∨
      (∃ b g, h.bid? call = some b ∧ h.bidden b = .ok g ∧ r = g.passing b.place) ∨
      ∃ phase, r = (h, some phase) := by
  have hgate : h.AtGate setup → h.AtGate setup ∧ Served h r := fun hg => ⟨hg, hg.served hlaunch⟩
  have hdrain : ∀ phase ∈ Phase.gates, h.drainGate phase = .ok r → h.AtGate setup :=
    fun phase hp hdrain => hr.waits (Phase.mem_gates.1 (phase_of_drainGate hdrain ▸ hp))
  cases hbid : h.bid? call with
  | some b =>
      rw [launch_of_bid hbid] at hlaunch
      obtain ⟨g, hbidden, hlaunch⟩ := Outcome.ok_of_bind hlaunch
      exact .inr (.inl ⟨b, g, rfl, hbidden, (Except.ok.inj hlaunch).symm⟩)
  | none =>
      cases call with
      | fold | check | call | bet | raise | allin => cases hbid
      | ready place | pass place | pay place chips =>
          obtain ⟨s, hallowed, -⟩ := Outcome.ok_of_bind hlaunch
          obtain ⟨hfind, hmay⟩ := offered_of_allowedSeat hallowed
          exact .inl (hgate (hr.atGate (List.mem_of_getElem? hfind) hmay (by simp)))
      | readyAll => exact .inl (hgate (hdrain .readyRequested (by decide) hlaunch))
      | payAntes => exact .inl (hgate (hdrain .anteRequested (by decide) hlaunch))
      | payBlinds => exact .inl (hgate (hdrain .blindsRequested (by decide) hlaunch))
      | start =>
          obtain ⟨_, -, hlaunch⟩ := Outcome.ok_of_bind hlaunch
          exact .inr (.inr ⟨_, (Except.ok.inj hlaunch).symm⟩)
      | next =>
          simp only [launch, bid?, launchOther] at hlaunch
          repeat' split at hlaunch
          all_goals cases hlaunch
          exact .inr (.inr ⟨_, rfl⟩)

/-- What a call comes to goes on to a point of rest. -/
theorem Launched.resting (ha : setup.Accepted) {r : Hand × Option Phase} (hl : h.Launched setup r)
    {h' : Hand} (hfollow : follow r = .ok h') : h'.Resting setup := by
  obtain ⟨g, next⟩ := r
  have hcarries := hl.carries
  cases next with
  | none => exact Except.ok.inj hfollow ▸ hcarries
  | some phase => exact flow_resting ha hcarries hfollow

/-- It does so when the deck has all cards that the hand may take. -/
theorem Launched.succeeds (ha : setup.Accepted) (hstocked : setup.Stocked)
    {r : Hand × Option Phase} (hl : h.Launched setup r) : ∃ h', follow r = .ok h' := by
  obtain ⟨g, next⟩ := r
  have hcarries := hl.carries
  cases next with
  | none => exact ⟨g, rfl⟩
  | some phase => exact flow_eq_ok ha hstocked hcarries

theorem Launched.of_launch (hr : h.Resting setup) {call : Call} {r : Hand × Option Phase}
    (hlaunch : h.launch call = .ok r) : h.Launched setup r := by
  have hfair := launch_fair hr call
  rwa [hlaunch] at hfair

/-- All along the path of a call the hand is in order. -/
theorem Runs.entering (ha : setup.Accepted) (hr : h.Resting setup) {call : Call}
    {path : List Hand} {h' : Hand} (hruns : h.Runs call path h') :
    (∀ g ∈ path, g.Entering setup) ∧ h'.Resting setup := by
  obtain ⟨r, hlaunch, hpath⟩ := hruns
  refine hpath.keeps (fun g hg r' hreact => ?_) (Launched.of_launch hr hlaunch).carries
  exact (proceeds_of_entering ha hg).carries r' hreact

theorem attempt_fair (ha : setup.Accepted) (hstocked : setup.Stocked) (hr : h.Resting setup)
    (call : Call) : Outcome.Fair (Resting setup) (h.attempt call).outcome := by
  rw [attempt_outcome]
  refine (launch_fair hr call).bind fun _ hl => .of_ok ?_
  obtain ⟨h', hfollow⟩ := hl.succeeds ha hstocked
  exact ⟨h', hfollow, hl.resting ha hfollow⟩

/-- When the hand was last changed does not matter. -/
theorem Resting.withTime (hr : h.Resting setup) (now : Int) :
    { h with updatedAt := now }.Resting setup := by
  have hsame : h.seats = h.seats.map fun r => r := (List.map_id' _).symm
  have hgate : h.AtGate setup → { h with updatedAt := now }.AtGate setup := fun hg =>
    ⟨⟨hg.gated.collecting.alike rfl rfl rfl hsame Seat.Alike.refl fun _ => rfl, hg.gated.proper,
      hg.gated.fair⟩, hg.waiting, hg.offers⟩
  have hstreet : ∀ street, h.OnStreet setup street →
      { h with updatedAt := now }.OnStreet setup street :=
    fun street ho => ho.alike rfl hsame Seat.Alike.refl
  generalize hlater : { h with updatedAt := now } = later at *
  have hphase : later.phase = h.phase := by rw [← hlater]
  unfold Resting at hr ⊢
  rw [hphase]
  split at hr
  · obtain ⟨⟨ht, hnone, hdealt, hcounted, hseats⟩, hsilent⟩ := hr
    subst hlater
    exact ⟨⟨ht.congr rfl rfl, hnone, hdealt, hcounted, hseats⟩, hsilent⟩
  · exact hgate hr
  · exact hgate hr
  · exact hgate hr
  · obtain ⟨hround, htwo, hoffers, hlt, hmovable, hundone, hpaced⟩ := hr
    subst hlater
    exact ⟨hround.alike rfl hsame Seat.Alike.refl, htwo, hoffers, hlt, hmovable, hundone, hpaced⟩
  · obtain ⟨⟨street, hriver, ho, htwo, hwager, hlevel, hled⟩, hsilent⟩ := hr
    subst hlater
    exact ⟨⟨street, hriver, hstreet street ho, htwo, hwager, hlevel, hled⟩, hsilent⟩
  · obtain ⟨⟨⟨⟨⟨street, ho⟩, hlive⟩, hwager, hled⟩, hpots, hmade, hresult⟩, hsilent⟩ := hr
    subst hlater
    exact ⟨⟨⟨⟨⟨street, hstreet street ho⟩, hlive⟩, hwager, hled⟩, hpots, hmade, hresult⟩, hsilent⟩
  · exact hr

/-- Every call on a hand in order keeps it in order or is refused mildly. -/
theorem perform_fair (ha : setup.Accepted) (hstocked : setup.Stocked) (hr : h.Resting setup)
    (now : Int) (call : Call) : Outcome.Fair (Resting setup) (h.perform now call).outcome := by
  simp only [perform, Traced.outcome_bind, step_outcome]
  exact (attempt_fair ha hstocked hr call).bind fun h' hr' => hr'.withTime now

/-- A hand in order stays in order, whatever comes of a call on it. -/
theorem after_resting (ha : setup.Accepted) (hr : h.Resting setup) (now : Int) (call : Call) :
    (h.after now call).Resting setup := by
  unfold after
  split
  · next hok =>
    simp only [perform, Traced.outcome_bind, step_outcome, attempt_outcome] at hok
    obtain ⟨g, hattempt, hok⟩ := Outcome.ok_of_bind hok
    obtain ⟨r, hlaunch, hfollow⟩ := Outcome.ok_of_bind hattempt
    obtain rfl := Except.ok.inj hok
    exact ((Launched.of_launch hr hlaunch).resting ha hfollow).withTime now
  · exact hr

theorem Fresh.resting (hf : h.Fresh setup) : h.Resting setup := by
  have hseats : ∀ s ∈ h.seats, s.folded = false ∧ s.Untouched ∧ s.allowed = [] := by
    rw [hf.seats]
    intro s hs
    obtain ⟨i, hi, rfl⟩ := List.mem_mapIdx.1 hs
    exact ⟨rfl, ⟨rfl, rfl⟩, rfl⟩
  have hpot : (h.seats.map Seat.pot).sum = 0 := by
    rw [sum_map_congr fun s hs => (hseats s hs).2.1.2, List.sum_map_zero]
  rw [Resting, hf.phase]
  refine ⟨⟨hf.table, hf.street, hf.dealt, ?_, fun s hs => ?_⟩, fun s hs => (hseats s hs).2.2⟩
  · intro _
    rw [PotsCounted, hpot, potTotal, hf.pots]
    rfl
  · exact ⟨(hseats s hs).1, (hseats s hs).2.1⟩

/-- However a hand is played it is in order between two calls. -/
theorem play_resting (ha : setup.Accepted) (hr : h.Resting setup) (calls : List (Int × Call)) :
    (h.play calls).Resting setup := by
  unfold play
  induction calls generalizing h with
  | nil => exact hr
  | cons call calls ih => exact ih (after_resting ha hr call.1 call.2)

theorem resting_of_create {id : String} {now : Int} (hc : create setup id now = .ok h)
    (calls : List (Int × Call)) : (h.play calls).Resting setup :=
  have hf := fresh_of_create hc
  play_resting hf.accepted hf.resting calls

end PokerHand.Hand
