import PokerHand.Proofs.Betting.Levels
import PokerHand.Proofs.Termination

/-!
# The level of the betting never falls

In a betting round the wager to match is the highest one on the table. A bid after which the round
goes on leaves it, or lifts it as a full raise or an all-in does (`Hand.Lifts`), so the least raise
never gets smaller before the round is over.
-/
namespace PokerHand

/-- Nothing else is as far from the end as a turn in a betting round. -/
theorem Phase.eq_of_ahead_eq {street street' : Option Street} {phase : Phase}
    (h : phase.ahead street = roundStarted.ahead street') : phase = roundStarted := by
  cases phase <;> simp only [ahead] at h ⊢ <;> (try split at h) <;> omega

namespace Hand

section Counted

variable [Counting] {setup : Setup} {h h' : Hand} {now : Int} {call : Call}

/-- A hand that goes on to the end of the round does not come back to a turn in it. -/
theorem Path.phase_ne {g : Hand} {path : List Hand} (hpath : Path (g, some .roundClosed) path h') :
    h'.phase ≠ .roundStarted := by
  intro hp
  have hle : Phase.roundStarted.rank ≤ Phase.roundClosed.rank := hp ▸ hpath.rank_le
  exact absurd hle (by decide)

/-- What a bid was after which the round goes on: a move that fits, and the turn was passed on. -/
theorem Resting.exists_move_of_perform (hr : h.Resting setup) {b : Bid}
    (hbid : h.bid? call = some b) (hok : (h.perform now call).outcome = .ok h')
    (hp : h'.phase = .roundStarted) :
    ∃ s ∈ h.seats, s.number = b.place ∧ h.Faces setup s ∧ h.stakes.Grants s b.action ∧
      ∃ move value seat, b.settle s = .ok move ∧ ([setup.Counted] → move.Fits h.stakes s) ∧
        h' = { (h.settledBy s.number move value).giveTurn seat with updatedAt := now } := by
  obtain ⟨path, rested, ⟨r, hlaunch, hpath⟩, rfl, -⟩ := exists_runs_of_perform hok
  rw [launch_of_bid hbid] at hlaunch
  obtain ⟨g, hbidden, hlaunch⟩ := Outcome.ok_of_bind hlaunch
  obtain rfl := Except.ok.inj hlaunch
  obtain ⟨s, hs, hplace, hf, hgrant, move, value, hsettle, hfits, rfl⟩ :=
    hr.exists_settledBy hbid hbidden
  rcases passing_eq (h.settledBy s.number move value) b.place with
    ⟨-, heq⟩ | ⟨seat, -, -, heq⟩ <;> rw [heq] at hpath
  · exact absurd hp hpath.phase_ne
  · cases hpath
    exact ⟨s, hs, hplace, hf, hgrant, move, value, seat, hsettle, hfits, rfl⟩

/-- Bids are made in a betting round. -/
theorem Resting.phase_of_bid (hr : h.Resting setup) {b : Bid} (hbid : h.bid? call = some b)
    (hok : (h.perform now call).outcome = .ok h') : h.phase = .roundStarted := by
  obtain ⟨path, rested, ⟨r, hlaunch, -⟩, -⟩ := exists_runs_of_perform hok
  rw [launch_of_bid hbid] at hlaunch
  obtain ⟨g, hbidden, -⟩ := Outcome.ok_of_bind hlaunch
  obtain ⟨s, -, -, hf, -⟩ := hr.exists_settledBy hbid hbidden
  exact hf.phase

/-- What a bid does after which the round goes on. -/
theorem Resting.lifts_of_perform [setup.Counted] (hr : h.Resting setup)
    (hw : h.phase = .roundStarted → h.Wagered) {b : Bid} (hbid : h.bid? call = some b)
    (hok : (h.perform now call).outcome = .ok h') (hp : h'.phase = .roundStarted) :
    h.Lifts b.place h' ∧ h'.street = h.street := by
  obtain ⟨s, hs, hplace, hf, hgrant, move, value, seat, hsettle, hfits, rfl⟩ :=
    hr.exists_move_of_perform hbid hok hp
  have hstaked : h.Staked setup := hf.atTurn.inRound.staked
  have hfull := settle_full hbid hf hgrant (hw hf.phase) hsettle
  have hlifts := settledBy_lifts hstaked hf.atTurn.inRound.table hs hfits hfull value
  exact ⟨hplace ▸ hlifts.giveTurn seat now,
    (moved_settledBy hf.atTurn hs hf.turn hfits value).street⟩

/-- While a round goes on every call in it is a bid. -/
theorem Resting.exists_bid_of_perform (hr : h.Resting setup) (hp : h.phase = .roundStarted)
    (hok : (h.perform now call).outcome = .ok h') (hp' : h'.phase = .roundStarted) :
    ∃ b, h.bid? call = some b := by
  obtain ⟨path, rested, ⟨r, hlaunch, hpath⟩, rfl, -⟩ := exists_runs_of_perform hok
  rcases hr.launch_cases hlaunch with ⟨hg, -⟩ | ⟨b, g, hbid, -⟩ | ⟨phase, rfl⟩
  · have hgate := hg.gated.collecting.isGate
    simp [hp] at hgate
  · exact ⟨b, hbid⟩
  · have hgoes := (Launched.of_launch hr hlaunch).goes phase rfl
    rw [hp] at hgoes
    obtain rfl := List.mem_singleton.1 hgoes
    exact absurd hp' hpath.phase_ne

/-- The hand rests at a turn of a betting round. -/
structure Bidding (setup : Setup) (h : Hand) : Prop where
  resting : h.Resting setup
  phase : h.phase = .roundStarted
  wagered : h.Wagered

theorem Bidding.atTurn (hb : h.Bidding setup) : h.AtTurn setup := by
  have hr := hb.resting
  rwa [Resting, hb.phase] at hr

theorem bidding_of_create [setup.Counted] {id : String} {created : Int}
    (hc : create setup id created = .ok h) (calls : List (Int × Call))
    (hp : (h.play calls).phase = .roundStarted) : (h.play calls).Bidding setup :=
  ⟨resting_of_create hc calls, hp, wagered_of_create hc calls hp⟩

/-- A bid after which the round goes on. -/
structure Bids (h : Hand) (now : Int) (call : Call) (b : Bid) (h' : Hand) : Prop where
  bid : h.bid? call = some b
  made : (h.perform now call).outcome = .ok h'
  phase : h'.phase = .roundStarted

theorem Bidding.lifts [setup.Counted] (hb : h.Bidding setup) {b : Bid}
    (hbids : h.Bids now call b h') : h.Lifts b.place h' ∧ h'.street = h.street :=
  hb.resting.lifts_of_perform (fun _ => hb.wagered) hbids.bid hbids.made hbids.phase

/-- A call that leaves the hand where later calls can still end up in the same round is a bid. -/
theorem Bidding.of_perform [setup.Counted] (ha : setup.Accepted) (hb : h.Bidding setup)
    (hok : (h.perform now call).outcome = .ok h') {calls : List (Int × Call)}
    (hp : (h'.play calls).phase = .roundStarted) (hstreet : (h'.play calls).street = h.street) :
    h'.Bidding setup ∧ h'.street = h.street ∧ ∃ b, h.Bids now call b h' := by
  have hafter : h.after now call = h' := after_of_perform hok
  have hsingle : h.play [(now, call)] = h' := hafter
  have hrested : h'.Resting setup := hafter ▸ after_resting ha hb.resting now call
  -- the hand ends up no nearer to its end than it was, so it did not leave its turn
  have hback := ahead_play_le ha hrested calls
  have hon := ahead_play_le ha hb.resting [(now, call)]
  rw [hp, hstreet] at hback
  rw [hsingle, hb.phase] at hon
  have hturn := Phase.eq_of_ahead_eq (Nat.le_antisymm hon hback)
  have hwagered := chronicle_wagered.play ha hb.resting (fun _ => hb.wagered) [(now, call)]
  rw [hsingle] at hwagered
  obtain ⟨b, hbid⟩ := hb.resting.exists_bid_of_perform hb.phase hok hturn
  have hbids : h.Bids now call b h' := ⟨hbid, hok, hturn⟩
  exact ⟨⟨hrested, hturn, hwagered hturn⟩, (hb.lifts hbids).2, b, hbids⟩

/-- The first of some calls that end up in the same round is refused or a bid. -/
theorem Bidding.after [setup.Counted] (ha : setup.Accepted) (hb : h.Bidding setup)
    {calls : List (Int × Call)}
    (hp : ((h.after now call).play calls).phase = .roundStarted)
    (hstreet : ((h.after now call).play calls).street = h.street) :
    h.after now call = h ∨ (h.after now call).Bidding setup ∧
      (h.after now call).street = h.street ∧ ∃ b, h.Bids now call b (h.after now call) := by
  cases hok : (h.perform now call).outcome with
  | error fault => exact .inl (after_of_refused hok)
  | ok g =>
      rw [after_of_perform hok] at hp hstreet ⊢
      exact .inr (hb.of_perform ha hok hp hstreet)

/-- As long as the round goes on the least raise does not get smaller. -/
theorem Bidding.raiseSize_le_play [setup.Counted] (ha : setup.Accepted) (hb : h.Bidding setup)
    (calls : List (Int × Call)) (hp : (h.play calls).phase = .roundStarted)
    (hstreet : (h.play calls).street = h.street) : h.raiseSize ≤ (h.play calls).raiseSize := by
  induction calls generalizing h with
  | nil => exact Int.le_refl _
  | cons call calls ih =>
      have hplay : h.play (call :: calls) = (h.after call.1 call.2).play calls := rfl
      rw [hplay] at hp hstreet ⊢
      rcases hb.after ha hp hstreet with hsame | ⟨hnext, hopen, b, hbids⟩
      · rw [hsame] at hp hstreet ⊢
        exact ih hb hp hstreet
      · exact (hb.lifts hbids).1.raiseSize_le.trans (ih hnext hp (hstreet.trans hopen.symm))

end Counted

end Hand

end PokerHand
