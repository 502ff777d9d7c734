import PokerHand.Proofs.Chips.Whole
import PokerHand.Proofs.Settlement

/-!
# A hand is played as with whole numbers

Within the bound of its setup a hand does the same whether its chips are counted in words or in
whole numbers. First the operations that count, then what a phase and what a call come to, and from
these whole runs (`play_whole`). So no amount that a word does not hold plays a part in them.
-/
namespace PokerHand.Hand

theorem mapSeats_congr {h : Hand} {f g : Seat → Seat} (hfg : ∀ s ∈ h.seats, f s = g s) :
    h.mapSeats f = h.mapSeats g := by
  rw [mapSeats, mapSeats, List.map_congr_left hfg]

section Counted

variable [Counting] {setup : Setup} [setup.Counted] {h g : Hand} {s : Seat}

/-! Operations that count. -/

theorem refreshPots_whole (ht : Table setup h) : h.refreshPots = @refreshPots .whole h := by
  have hasc := ht.numbered.ascending
  have hbound := ht.sum_pot_le
  rw [← staked_contributions hasc ht.pot_nonneg] at hbound
  simp only [refreshPots, Contributions.pots_whole (amount_pos hasc) hbound]

theorem collectWagers_whole (ht : Table setup h) :
    h.collectWagers = @collectWagers .whole h := by
  have hcollect : ∀ s ∈ h.seats, s.collect = @Seat.collect .whole s := fun s hs =>
    (ht.sound s hs).collect_eq
  have hseats : (h.mapSeats fun s => { s.collect with allowed := [] }) =
      h.mapSeats fun s => { @Seat.collect .whole s with allowed := [] } :=
    mapSeats_congr fun s hs => by rw [hcollect s hs]
  simp only [collectWagers, hseats]

theorem postBigBlind_whole (ht : Table setup h)
    (ho : ∀ s ∈ h.seats, s.OwesAnte setup.terms []) (hbig : 0 ≤ h.terms.blinds.big) :
    h.postBigBlind = @postBigBlind .whole h := by
  refine mapSeats_congr fun s hs => ?_
  have hstack := (ho s hs).stack_nonneg
  split
  · exact (ht.sound s hs).putIn_eq (by omega) (by omega)
  · rfl

/-- The seat that is given the turn has chips to weigh against the stakes. -/
theorem giveTurn_whole (hr : h.InRound setup) {start seat : Nat}
    (hnext : Turn.nextMovable h.seats start = some seat) :
    h.giveTurn seat = @giveTurn .whole h seat := by
  obtain ⟨street, ho⟩ := hr.onStreet
  have ht := ho.scene.table
  obtain ⟨-, s, -, -, -, hs, hmovable, -⟩ := Turn.rotate_of_nextMovable hnext
  have hmem := List.mem_of_getElem? hs
  have hwithin := Staked.within hr.staked ht ho.scene.minBet hmem hmovable
  have hoffers : (h.mapSeats fun r =>
        { r with allowed := if r.number = seat then h.stakes.offers r else [] }) =
      h.mapSeats fun r =>
        { r with allowed := if r.number = seat then @Stakes.offers .whole h.stakes r else [] } := by
    refine mapSeats_congr fun r hr' => ?_
    split
    · next hnumber =>
      have hturn := ht.numbered.number_of_getElem? hs
      obtain rfl := ht.numbered.eq_of_number hr' hmem (hnumber.trans hturn.symm)
      rw [Stakes.offers_whole hwithin]
    · rfl
  simp only [giveTurn, hoffers]

theorem passing_whole (hr : h.InRound setup) (start : Nat) :
    h.passing start = @passing .whole h start := by
  unfold passing
  cases hnext : Turn.nextMovable h.seats start with
  | none => rfl
  | some seat => simp only [giveTurn_whole hr hnext]

/-- What a seat pays at a gate. -/
theorem takePayment_whole {t t' : Task} {i : Nat} {chips : Int} (hg : h.Gated setup)
    (hs : s ∈ h.seats) (hi : Queue.firstFor? h.tasks s.number = some i)
    (ht : h.tasks[i]? = some t) (hsettles : t.Settles s.number t')
    (howed : t.owedBy s.number = some chips) (hstack : s.stack ≠ 0) :
    (h.setTask i t').takePayment s.number t.due chips =
      @takePayment .whole (h.setTask i t') s.number t.due chips := by
  obtain ⟨hchips, hcovered⟩ := overdraft_paid hg hs hi ht hsettles howed hstack
  have hn := hg.collecting.table.numbered
  have hsound := hg.collecting.table.sound s hs
  rw [takePayment_eq_ok (h := h.setTask i t') hn hs,
    @takePayment_eq_ok (h.setTask i t') s .whole hn hs]
  refine congrArg Except.ok (mapSeats_congr fun r hr => ?_)
  unfold paidBy
  split
  · next hnumber =>
    obtain rfl := hn.eq_of_number hr hs hnumber
    split
    · exact hsound.putInPot_eq hchips hcovered
    · exact hsound.putIn_eq hchips hcovered
  · rfl

section Chips

variable (ht : Table setup h) (hs : s ∈ h.seats) {chips : Int} (hpos : 0 < chips)
  (hle : chips ≤ s.stack)

include ht hs hpos hle

theorem mapSeats_betBy_whole :
    h.mapSeats (betBy s.number chips) = h.mapSeats (@betBy .whole s.number chips) := by
  refine mapSeats_congr fun r hr => ?_
  unfold betBy
  split
  · next hnumber =>
    obtain rfl := ht.numbered.eq_of_number hr hs hnumber
    exact (ht.sound r hr).putIn_eq (Int.le_of_lt hpos) (by omega)
  · rfl

/-- Chips that are put in, and the wager to match that takes account of them. -/
theorem raiseTo_whole (hc : h.Staked setup) :
    (h.mapSeats (betBy s.number chips)).raiseTo s.number =
      @raiseTo .whole (h.mapSeats (@betBy .whole s.number chips)) s.number := by
  have hlevel := wagerAt_bet ht hs (Int.le_of_lt hpos) hle
  have hsame : (h.mapSeats (betBy s.number chips)).wager = h.wager := rfl
  obtain ⟨hfit, -, -⟩ := hc.fit_increment ht hs (Int.le_of_lt hpos) hle
  rw [← mapSeats_betBy_whole ht hs hpos hle]
  simp only [raiseTo, hlevel, hsame, hfit, Counting.fit_whole]

theorem afterAllin_whole (hc : h.Staked setup) :
    (h.mapSeats (betBy s.number chips)).afterAllin s.number =
      @afterAllin .whole (h.mapSeats (@betBy .whole s.number chips)) s.number := by
  have hlevel := wagerAt_bet ht hs (Int.le_of_lt hpos) hle
  have hsame : (h.mapSeats (betBy s.number chips)).wager = h.wager := rfl
  obtain ⟨hfit, -, -⟩ := hc.fit_increment ht hs (Int.le_of_lt hpos) hle
  have hraise := raiseTo_whole ht hs hpos hle hc
  rw [← mapSeats_betBy_whole ht hs hpos hle] at hraise ⊢
  simp only [afterAllin, hlevel, hsame, hfit, Counting.fit_whole, hraise]

end Chips

theorem moved_whole (hr : h.InRound setup) (hs : s ∈ h.seats) {move : Move}
    (hfits : move.Fits h.stakes s) : h.moved s.number move = @moved .whole h s.number move := by
  have ht := hr.table
  have hc : h.Staked setup := hr.staked
  cases move with
  | fold | check => rfl
  | call chips => exact mapSeats_betBy_whole ht hs hfits.1 hfits.2.1
  | bet chips | raise chips => exact raiseTo_whole ht hs hfits.1 hfits.2.1 hc
  | allin chips => exact afterAllin_whole ht hs hfits.1 (Int.le_of_eq hfits.2) hc

/-- The payout of a settled hand. -/
theorem Settled.settle_whole (hs : h.Settled setup) :
    Payout.settle h.pots h.entrants = @Payout.settle .whole h.pots (@entrants .whole h) := by
  have ht := hs.table
  have hn := ht.numbered
  have hlive := hs.finished.closing.one_le_unfolded
  have hbound := ht.sum_pot_le
  have hentrant : ∀ s ∈ h.seats, s.entrant = @Seat.entrant .whole s := fun s hmem => by
    simp only [Seat.entrant, (ht.sound s hmem).committed_eq]
    rfl
  have hpots : h.pots = @Contributions.pots .whole h.contributions := by
    have hasc := hn.ascending
    rw [← staked_contributions hasc ht.pot_nonneg] at hbound
    rw [hs.pots, Contributions.pots_whole (amount_pos hasc) hbound]
  have hpaid : h.pots.map h.payment = h.pots.map (@payment .whole h) := by
    refine List.map_congr_left fun p hp => ?_
    obtain ⟨htotal, hle⟩ := hs.total_within hp
    have hwinners : h.winners p.level = @winners .whole h p.level := by
      unfold winners
      rw [List.map_congr_left fun s hclaim => hentrant s (mem_claimants hclaim).1]
    simp only [payment, hwinners, Payout.share_whole htotal (hle.trans hbound)]
  have hbalances : h.entrants.map (Payout.balance (h.pots.map h.payment)) =
      (@entrants .whole h).map (@Payout.balance .whole (h.pots.map h.payment)) := by
    rw [entrants_eq, @entrants_eq .whole, List.map_map, List.map_map]
    refine List.map_congr_left fun s hmem => ?_
    have hcovers := (ht.sound s hmem).covers (hs.finished.wager_eq_zero s hmem)
      (hs.paidOut_eq ▸ ht.sum_pot_le_bankrolls)
    rw [Function.comp_apply, Function.comp_apply, ← hentrant s hmem]
    exact Payout.balance_whole hs.paid_nonneg (hs.paidOut_eq ▸ hbound) hcovers
  rw [settle_eq_ok hn hs.made hlive hs.pots, @settle_eq_ok h .whole hn hs.made hlive hpots,
    hbalances, hpaid]

/-! Phases. -/

/-- What a phase comes to that a hand in order has just entered. -/
theorem react_whole (ha : setup.Accepted) (he : h.Entering setup) : h.react = @react .whole h := by
  have htable := he.table
  rw [Entering] at he
  unfold react
  cases hp : h.phase with
  | antePaid => simp only [reaction, refreshPots_whole htable]
  | roundInitialized =>
      rw [hp] at he
      refine Outcome.bind_congr_ok _ fun dealer _ => ?_
      show (if (h.resetBy dealer).street ≠ some .preflop then _ else _) =
        if (h.resetBy dealer).street ≠ some .preflop then _ else _
      rcases he with ⟨hb, hc⟩ | ⟨street, hne, hb⟩
      · have hpre := preflop_resetBy hb hc dealer
        have ht := hpre.before.scene.table
        have hpost : (h.resetBy dealer).postBigBlind = @postBigBlind .whole (h.resetBy dealer) :=
          postBigBlind_whole ht (fun s hs => (hpre.before.seats s hs).2)
            (ht.terms ▸ ha.big_nonneg)
        rw [resetBy] at hpost
        simp only [hpost]
      · have hlater : (h.resetBy dealer).street ≠ some .preflop := by
          rw [show (h.resetBy dealer).street = some street from hb.onStreet.scene.street]
          exact fun hsame => hne (Option.some.inj hsame)
        rw [if_pos hlater, if_pos hlater]
  | roundStarted =>
      rw [hp] at he
      have hr : { h with tasks := [] }.InRound setup :=
        he.1.alike rfl (List.map_id _).symm Seat.Alike.refl
      exact congrArg Except.ok (passing_whole hr h.raiser)
  | roundClosed =>
      have hcollect : h.collectWagers.refreshPots =
          @refreshPots .whole (@collectWagers .whole h) := by
        rw [refreshPots_whole (table_collectWagers htable), collectWagers_whole htable]
      simp only [reaction, hcollect]
  | settlementRequested =>
      rw [hp] at he
      have ht : Table setup h.refreshMade :=
        htable.alike rfl rfl fun s => s.alike_update _ _ _ _ _
      obtain ⟨r, -, hsettled⟩ := Over.exists_settled he
      have hsettle := hsettled.settle_whole
      simp only [reaction]
      rw [← refreshPots_whole ht]
      exact congrArg (· >>= _) hsettle
  | _ => rfl

/-- A hand in order that enters a phase goes on in the same way. -/
theorem flow_whole (ha : setup.Accepted) (phase : Phase) (h : Hand)
    (he : { h with phase := phase }.Entering setup) :
    (flow phase h).outcome = (@flow .whole phase h).outcome := by
  rw [flow_outcome, @flow_outcome .whole, ← react_whole ha he]
  refine Outcome.bind_congr_ok _ fun r hr => ?_
  have hcarries := (proceeds_of_entering ha he).carries r hr
  obtain ⟨g, next⟩ := r
  cases next with
  | none => rfl
  | some next =>
      have hlt : next.rank < phase.rank := react_rank hr
      exact flow_whole ha next g hcarries
termination_by phase.rank

theorem follow_whole (ha : setup.Accepted) {r : Hand × Option Phase}
    (hcarries : Carries (Entering setup) (Resting setup) r) : follow r = @follow .whole r := by
  obtain ⟨g, next⟩ := r
  cases next with
  | none => rfl
  | some phase => exact flow_whole ha phase g hcarries

/-! Calls at a gate. -/

theorem clearEntry_whole (hg : h.AtGate setup) (phase : Phase) :
    (h.clearEntry phase).outcome = (@clearEntry .whole h phase).outcome := by
  obtain ⟨s, hs, hoffered, rest, hactionable⟩ := hg.exists_actionable
  obtain ⟨i, t, hi, ht, hawaits, hask⟩ := hg.asked hs hoffered
  have hown : h.ownSeat s.number = .ok s := by
    rw [ownSeat, hg.gated.collecting.table.numbered.getElem?_number hs]
  simp only [clearEntry, hactionable, taskFor_eq_ok hi ht, hown, Traced.outcome_bind,
    Traced.outcome_liftM, Outcome.ok_bind]
  rcases hask with ⟨hoffer, -⟩ | ⟨hoffer, hstack, hpayment⟩ | ⟨hoffer, -⟩
  · have hpass : s.mayDo .pass = true := by simp [Seat.mayDo, hoffer]
    rw [if_pos hpass, if_pos hpass]
  · have hpass : ¬ s.mayDo .pass = true := by simp [Seat.mayDo, hoffer]
    have hready : ¬ s.mayDo .ready = true := by simp [Seat.mayDo, hoffer]
    obtain ⟨owed, t', howed, hsettles, hrecord⟩ := Task.recordPayment_eq hawaits hpayment
    have htake := takePayment_whole hg.gated hs hi ht hsettles howed hstack
    simp only [if_neg hpass, if_neg hready, howed, hrecord, if_true, Traced.outcome_bind,
      Traced.outcome_liftM, Outcome.ok_bind, hsettles.due, htake]
  · have hpass : ¬ s.mayDo .pass = true := by simp [Seat.mayDo, hoffer]
    have hready : s.mayDo .ready = true := by simp [Seat.mayDo, hoffer]
    rw [if_neg hpass, if_neg hpass, if_pos hready, if_pos hready]

theorem drain_whole (n : Nat) (phase : Phase) (hg : h.AtGate setup) :
    drain n phase h = @drain .whole n phase h := by
  induction n generalizing h with
  | zero => rfl
  | succ n ih =>
      obtain ⟨s, hs, cleared, hserves, hclear⟩ := clearEntry_serves hg phase
      simp only [drain, ← clearEntry_whole hg phase, hclear, Outcome.ok_bind]
      refine Outcome.bind_congr_ok _ fun r hrun => ?_
      obtain ⟨g, next⟩ := r
      cases next with
      | none =>
          simp only [Option.isSome_none, Bool.false_eq_true, if_false]
          exact ih (hserves.stays hg hs hrun).1
      | some next => simp only [Option.isSome_some, if_true]

theorem drainGate_whole (hr : h.Resting setup) {phase : Phase}
    (hphase : phase = .readyRequested ∨ phase = .anteRequested ∨ phase = .blindsRequested) :
    h.drainGate phase = @drainGate .whole h phase := by
  refine Outcome.bind_congr_ok _ fun _ hexpect => ?_
  have hp := expectPhase_fair h phase
  rw [hexpect] at hp
  exact drain_whole _ phase (hr.waits (hp.symm ▸ hphase))

theorem pay_whole (hr : h.Resting setup) (place : Nat) (chips : Int) :
    h.launchOther (.pay place chips) = @launchOther .whole h (.pay place chips) := by
  refine Outcome.bind_congr_ok _ fun s hallowed => ?_
  obtain ⟨hfind, hmay⟩ := offered_of_allowedSeat hallowed
  have hs := List.mem_of_getElem? hfind
  obtain rfl := hr.table.numbered.number_of_getElem? hfind
  have hg := hr.atGate hs hmay (.inr (.inl rfl))
  obtain ⟨i, t, hi, ht, hawaits, hask⟩ := hg.asked hs (allowed_ne_nil hmay)
  rcases hask with ⟨hoffer, -⟩ | ⟨-, hstack, hpayment⟩ | ⟨hoffer, -⟩
  · cases mem_of_mayDo hmay hoffer
  · obtain ⟨owed, t', howed, hsettles, hrecord⟩ := Task.recordPayment_eq hawaits hpayment
    have htake := takePayment_whole hg.gated hs hi ht hsettles howed hstack
    simp only [taskFor_eq_ok hi ht, hrecord, Outcome.ok_bind]
    by_cases hchips : chips = owed
    · subst hchips
      simp only [if_true, Outcome.ok_bind, hsettles.due, htake]
    · simp only [if_neg hchips, Outcome.error_bind]
  · cases mem_of_mayDo hmay hoffer

theorem launchOther_whole (hr : h.Resting setup) (call : Call) :
    h.launchOther call = @launchOther .whole h call := by
  cases call with
  | pay place chips => exact pay_whole hr place chips
  | readyAll => exact drainGate_whole hr (.inl rfl)
  | payAntes => exact drainGate_whole hr (.inr (.inl rfl))
  | payBlinds => exact drainGate_whole hr (.inr (.inr rfl))
  | _ => rfl

/-! Bids. -/

theorem made_whole (hr : h.InRound setup) (hs : s ∈ h.seats) {move : Move}
    (hfits : move.Fits h.stakes s) : h.made s.number move = @made .whole h s.number move := by
  have hn := hr.table.numbered
  have hlt := hn.number_lt hs
  simp only [made, moveChips_eq_ok hn hlt, @moveChips_eq_ok h .whole hn _ hlt,
    moved_whole hr hs hfits]

section Bids

variable {call : Call} {b : Bid} (hbid : h.bid? call = some b)

include hbid

variable (setup) in
/-- The same bid is weighed in whole numbers. -/
theorem exists_settle_whole : ∃ settle, @bid? .whole h call = some ⟨b.place, b.action, settle⟩ ∧
    ∀ s, h.stakes.Within setup.bound s → b.settle s = settle s := by
  cases call <;> simp only [bid?, Option.some.injEq, reduceCtorEq] at hbid <;> subst hbid
  case fold | check | allin => exact ⟨_, rfl, fun _ _ => rfl⟩
  case call place =>
    exact ⟨_, rfl, fun s hb => congrArg Except.ok (Stakes.callMove_whole hb)⟩
  case bet place chips => exact ⟨_, rfl, fun s hb => Stakes.betMove_whole hb chips⟩
  case raise place level => exact ⟨_, rfl, fun s hb => Stakes.raiseMove_whole hb level⟩

theorem bidden_whole (hr : h.Resting setup) {settle : Seat → Except Fault Move}
    (hsame : ∀ s, h.stakes.Within setup.bound s → b.settle s = settle s) :
    h.bidden b = @bidden .whole h ⟨b.place, b.action, settle⟩ := by
  refine Outcome.bind_congr_ok _ fun s hallowed => ?_
  obtain ⟨hfind, hmay⟩ := offered_of_allowedSeat hallowed
  have hs := List.mem_of_getElem? hfind
  have hplace := hr.table.numbered.number_of_getElem? hfind
  obtain ⟨hf, hgrant⟩ := hr.faces hs hmay (isMove_of_bid hbid)
  simp only [← hsame s hf.within]
  refine Outcome.bind_congr_ok _ fun move hsettle => ?_
  have hfits := settle_fits hbid hf hgrant hsettle
  rw [← hplace]
  exact made_whole hf.atTurn.inRound hs hfits

end Bids

/-! Whole runs. -/

/-- What a call on a hand in order does before the first phase. -/
theorem launch_whole (hr : h.Resting setup) (call : Call) :
    h.launch call = @launch .whole h call := by
  cases hbid : h.bid? call with
  | none =>
      have hbid' : @bid? .whole h call = none := by
        cases call <;> first | rfl | cases hbid
      simp only [launch, hbid, hbid', launchOther_whole hr]
  | some b =>
      obtain ⟨settle, hbid', hsame⟩ := exists_settle_whole setup hbid
      rw [launch_of_bid hbid, @launch_of_bid .whole h call _ hbid',
        ← bidden_whole hbid hr hsame]
      refine Outcome.bind_congr_ok _ fun g hbidden => ?_
      obtain ⟨s, hs, -, hf, -, move, value, -, hfits, rfl⟩ := hr.exists_settledBy hbid hbidden
      have hmoved := moved_settledBy hf.atTurn hs hf.turn hfits value
      exact congrArg Except.ok (passing_whole hmoved.inRound b.place)

/-- A call comes to the same, or is refused for the same reason. -/
theorem perform_whole (ha : setup.Accepted) (hr : h.Resting setup) (now : Int) (call : Call) :
    (h.perform now call).outcome = (@perform .whole now call h).outcome := by
  simp only [perform, Traced.outcome_bind, step_outcome, attempt_outcome, ← launch_whole hr]
  refine congrArg (· >>= _) (Outcome.bind_congr_ok _ fun r hlaunch => ?_)
  exact follow_whole ha (Launched.of_launch hr hlaunch).carries

theorem play_whole (ha : setup.Accepted) (hr : h.Resting setup) (calls : List (Int × Call)) :
    h.play calls = @play .whole h calls := by
  unfold play
  induction calls generalizing h with
  | nil => rw [List.foldl_nil, List.foldl_nil]
  | cons call calls ih =>
      have hafter : h.after call.1 call.2 = @after .whole h call.1 call.2 := by
        simp only [after, perform_whole ha hr]
      rw [List.foldl_cons, List.foldl_cons, ← hafter]
      exact ih (after_resting ha hr call.1 call.2)

end Counted

end PokerHand.Hand
