import PokerHand.Proofs.Chips.Settlement
import PokerHand.Proofs.Flow.Blinds

/-!
# Reactions from the first betting to the end of the hand

A round passes the turn to a seat that can act or closes, a closed round ends the hand or waits
for the next, and the end settles the pots. With these `flow_resting` covers every phase: a run
through the phases from a hand in order leaves the hand in order. It succeeds when the deck has all
cards that the hand may take (`flow_eq_ok`).
-/
namespace PokerHand.Hand

theorem two_le_of_not_isClosed {seats : List Seat} {wager : Int} {candidate : Option Nat}
    (h : Turn.isClosed seats wager candidate = false) : 2 ≤ seats.countP fun s => !s.folded := by
  unfold Turn.isClosed at h
  split at h
  · simp at h
  · omega

variable [Counting] {setup : Setup} {h : Hand}

theorem proceeds_roundPrepared (hp : h.phase = .roundPrepared) (hr : h.InRound setup)
    (hu : h.Unacted) : h.Proceeds setup := by
  refine proceeds_to h.refreshMade .roundStarted hp rfl ?_
  have hscored : h.refreshMade.InRound setup :=
    hr.alike rfl rfl fun s => s.alike_update _ _ _ _ _
  exact ⟨hscored.withPhase .roundStarted, hu.map rfl fun _ => rfl⟩

theorem passing_eq (h : Hand) (start : Nat) :
    (Turn.isClosed h.seats h.wager (Turn.nextMovable h.seats start) = true ∧
        h.passing start = (h, some .roundClosed)) ∨
      ∃ seat, Turn.nextMovable h.seats start = some seat ∧
        Turn.isClosed h.seats h.wager (some seat) = false ∧
        h.passing start = (h.giveTurn seat, none) := by
  unfold passing
  cases hnext : Turn.nextMovable h.seats start with
  | none => exact .inl ⟨Turn.isClosed_none _ _, rfl⟩
  | some seat => cases hclosed : Turn.isClosed h.seats h.wager (some seat) <;> simp [hclosed]

/-- The turn goes to a seat that can act and has something to decide, and the order of play goes on
from there. -/
theorem atTurn_giveTurn (hr : h.InRound setup) {start seat : Nat}
    (hpaced : [setup.Counted] → Turn.Paced h.wager (h.seats.rotate (start + 1)))
    (hnext : Turn.nextMovable h.seats start = some seat)
    (hopen : Turn.isClosed h.seats h.wager (some seat) = false) :
    (h.giveTurn seat).AtTurn setup := by
  obtain ⟨skipped, s, rest, hafter, hturn, hs, hmovable, hskipped⟩ :=
    Turn.rotate_of_nextMovable hnext
  have hmem : s ∈ h.seats := List.mem_of_getElem? hs
  have hnumber : s.number = seat := hr.table.numbered.number_of_getElem? hs
  have hundone : ¬ s.Done h.wager := fun hdone => by
    simp [(Turn.isClosed_some hs hmovable).2 (.inr (.inl hdone))] at hopen
  let offer : Seat → Seat := fun s =>
    { s with allowed := if s.number = seat then h.stakes.offers s else [] }
  have hoffer : ∀ s, Seat.Alike s (offer s) := fun s => s.alike_update _ _ _ _ _
  refine ⟨hr.alike rfl rfl hoffer, ?_, ?_, ?_, ?_, ?_, ?_⟩
  · have hsame : (h.giveTurn seat).unfolded = h.unfolded := unfolded_map rfl fun _ _ => rfl
    rw [hsame]
    exact two_le_of_not_isClosed hopen
  · intro s hs
    obtain ⟨r, -, rfl⟩ := List.mem_map.1 hs
    rfl
  · show seat < (h.seats.map offer).length
    rw [List.length_map]
    exact (List.getElem?_eq_some_iff.1 hs).1
  · intro s' hs' hturn
    obtain ⟨r, hr', rfl⟩ := List.mem_map.1 hs'
    have hsame : r = s := hr.table.numbered.eq_of_number hr' hmem (Eq.trans hturn hnumber.symm)
    exact hsame ▸ hmovable
  · intro s' hs' hturn
    obtain ⟨r, hr', rfl⟩ := List.mem_map.1 hs'
    have hsame : r = s := hr.table.numbered.eq_of_number hr' hmem (Eq.trans hturn hnumber.symm)
    exact hsame ▸ hundone
  · intro _
    have hpaced : Turn.Paced h.wager (h.seats.rotate (start + 1)) := hpaced
    show Turn.Paced h.wager ((h.seats.map offer).rotate seat)
    rw [← List.map_rotate, hturn]
    rw [hafter] at hpaced
    exact (hpaced.of_append hskipped).map fun _ => ⟨rfl, rfl, rfl⟩

/-- Passing the turn leaves the hand at a turn, or ends the round. -/
theorem passing_carries (hp : h.phase = .roundStarted) (hr : h.InRound setup) {start : Nat}
    (hpaced : [setup.Counted] → Turn.Paced h.wager (h.seats.rotate (start + 1))) :
    Carries (Entering setup) (Resting setup) (h.passing start) := by
  rcases passing_eq h start with ⟨hclosed, heq⟩ | ⟨seat, hnext, hopen, heq⟩ <;> rw [heq]
  · exact ⟨hr.withPhase .roundClosed, (Turn.isClosed_iff hpaced).1 hclosed⟩
  · have hphase : (h.giveTurn seat).phase = .roundStarted := hp
    show Resting setup (h.giveTurn seat)
    rw [Resting, hphase]
    exact atTurn_giveTurn hr hpaced hnext hopen

theorem proceeds_roundStarted (hp : h.phase = .roundStarted) (hr : h.InRound setup)
    (hu : h.Unacted) : h.Proceeds setup := by
  refine proceeds_of_ok (react_eq hp) (passing_carries (h := { h with tasks := [] }) hp ?_ ?_)
  · exact hr.alike rfl (List.map_id _).symm Seat.Alike.refl
  · exact Turn.paced_of_unacted fun s hs => hu s (List.mem_rotate.1 hs)

/-- A wager moves into the pot of its seat. -/
theorem exists_of_mem_collectWagers [setup.Counted] (ht : Table setup h) {s' : Seat}
    (hs' : s' ∈ h.collectWagers.seats) :
    ∃ s ∈ h.seats, s'.isMovable = s.isMovable ∧ s'.pot = s.pot + s.wager := by
  obtain ⟨s, hs, rfl⟩ := List.mem_map.1 hs'
  exact ⟨s, hs, rfl, congrArg Seat.pot (ht.sound s hs).collect_eq⟩

/-- The seat that leads a round leads the pot once the wagers are in it. -/
theorem led_collectWagers [setup.Counted] (hr : h.InRound setup) : h.collectWagers.Led := by
  obtain ⟨s, hs, hfolded, hmatched, htops⟩ := hr.staked.leader
  refine ⟨_, List.mem_map_of_mem hs, hfolded, fun r' hr' => ?_⟩
  have hlead : { s.collect with allowed := [] }.pot = s.pot + s.wager :=
    congrArg Seat.pot (hr.table.sound s hs).collect_eq
  obtain ⟨r, hmem, -, hother⟩ := exists_of_mem_collectWagers hr.table hr'
  have hpot := htops r hmem
  have hwager := hr.staked.wager_le r hmem
  omega

/-- Whoever can still act when a round is over has matched the wager, so nobody is ahead of it. -/
theorem level_collectWagers [setup.Counted] (hc : h.Closed setup) (htwo : 2 ≤ h.unfolded) :
    h.collectWagers.Level := by
  intro s' hs' hmovable r' hr'
  have ht := hc.inRound.table
  obtain ⟨s, hs, hsame, hown⟩ := exists_of_mem_collectWagers ht hs'
  obtain ⟨r, hr, -, hother⟩ := exists_of_mem_collectWagers ht hr'
  rw [hsame] at hmovable
  have hpot := hc.inRound.staked.level s hs hmovable r hr
  have hmatched := Turn.Finished.matched hc.finished htwo hs hmovable
  have hwager := hc.inRound.staked.wager_le r hr
  omega

theorem table_collectWagers (ht : Table setup h) : Table setup h.collectWagers :=
  ht.map rfl rfl (fun _ => rfl) (fun _ => rfl) fun s hs =>
    ((ht.sound s hs).collect).alike (s.collect.alike_update _ _ _ _ _)

theorem over_collectWagers (hr : h.InRound setup) (phase : Phase) :
    { h.collectWagers.refreshPots with phase := phase }.Over setup := by
  have hled : [setup.Counted] → h.collectWagers.Led := led_collectWagers hr
  obtain ⟨⟨street, ho⟩, hlive, -⟩ := hr
  have ht : Table setup h.collectWagers := table_collectWagers ho.scene.table
  refine ⟨⟨⟨street, ho.scene.of_frame rfl (ht.congr rfl rfl), ?_⟩, ?_⟩, ?_, hled⟩
  · exact counted_refreshPots ht
  · have hsame : h.collectWagers.unfolded = h.unfolded := unfolded_map rfl fun _ _ => rfl
    exact hsame.symm ▸ hlive
  · intro s hs
    obtain ⟨r, -, rfl⟩ := List.mem_map.1 hs
    rfl

theorem proceeds_roundClosed (hp : h.phase = .roundClosed) (hc : h.Closed setup) :
    h.Proceeds setup := by
  let closed := h.collectWagers.refreshPots
  by_cases hend : closed.unfolded ≤ 1 ∨ closed.street = some .river
  · exact proceeds_to closed .gameCompleted hp (by simp [reaction, closed, hend])
      (over_collectWagers hc.inRound _)
  · refine proceeds_rests closed hp (by simp [reaction, closed, hend]) ?_
    rw [not_or] at hend
    have hsame : closed.unfolded = h.unfolded := unfolded_map rfl fun _ _ => rfl
    have htwo : 2 ≤ closed.unfolded := by omega
    obtain ⟨⟨⟨street, ho⟩, -⟩, hwager, hled⟩ := over_collectWagers hc.inRound h.phase
    have hphase : closed.phase = .roundClosed := hp
    rw [Resting, hphase]
    refine ⟨⟨street, ?_, ho, htwo, hwager, level_collectWagers hc (hsame ▸ htwo), hled⟩, ?_⟩
    · rintro rfl
      exact hend.2 ho.scene.street
    · intro s hs
      obtain ⟨r, -, rfl⟩ := List.mem_map.1 hs
      rfl

theorem Over.withPhase (ho : h.Over setup) (phase : Phase) :
    { h with phase := phase }.Over setup := by
  obtain ⟨⟨⟨street, hscene, hcounted⟩, hlive⟩, hwager, hled⟩ := ho
  exact ⟨⟨⟨street, hscene.of_frame rfl (hscene.table.congr rfl rfl), hcounted⟩, hlive⟩, hwager,
    hled⟩

theorem proceeds_gameCompleted (hp : h.phase = .gameCompleted) (ho : h.Over setup) :
    h.Proceeds setup :=
  proceeds_to h .settlementRequested hp rfl (ho.withPhase .settlementRequested)

/-- Once the hands are scored a last time the pots are paid out. -/
theorem Over.exists_settled (ho : h.Over setup) :
    ∃ r, Payout.settle h.refreshMade.refreshPots.pots h.refreshMade.refreshPots.entrants = .ok r ∧
      { h.refreshMade.refreshPots with
        result := some r, phase := .settlementCompleted }.Settled setup := by
  obtain ⟨⟨⟨street, hstreet⟩, hlive⟩, hwager, hled⟩ := ho
  have ht := hstreet.scene.table
  let scored := h.refreshMade.refreshPots
  have hscored : Table setup scored :=
    ht.alike rfl rfl fun s => s.alike_update _ _ _ _ _
  have hmade : ∀ s ∈ scored.seats, s.made = scored.madeBy s := by
    intro s hs
    obtain ⟨r, -, rfl⟩ := List.mem_map.1 hs
    rfl
  have hsame : scored.unfolded = h.unfolded := unfolded_map rfl fun _ _ => rfl
  have hsettle := settle_eq_ok hscored.numbered hmade (hsame ▸ hlive) rfl
  refine ⟨_, hsettle, ⟨⟨⟨street, hstreet.scene.of_frame rfl (hscored.congr rfl rfl), ?_⟩,
    hsame.symm ▸ hlive⟩, ?_, hled.map rfl fun _ _ => ⟨rfl, rfl⟩⟩, rfl, hmade, _, rfl, hsettle⟩
  · exact counted_refreshPots (h := h.refreshMade) (hscored.congr rfl rfl)
  · intro s hs
    obtain ⟨r, hr, rfl⟩ := List.mem_map.1 hs
    exact hwager r hr

theorem proceeds_settlementRequested (hp : h.phase = .settlementRequested) (ho : h.Over setup) :
    h.Proceeds setup := by
  obtain ⟨r, hsettle, hsettled⟩ := ho.exists_settled
  exact proceeds_to { h.refreshMade.refreshPots with result := some r } .settlementCompleted hp
    (by simp [reaction, hsettle]) hsettled

theorem proceeds_settlementCompleted (hp : h.phase = .settlementCompleted)
    (hs : h.Settled setup) : h.Proceeds setup := by
  refine proceeds_to h .gameClosed hp rfl ⟨hs.finished.withPhase _, hs.pots, hs.made, hs.result⟩

/-- Offers do not matter to the payout. -/
theorem Settled.withdrawOffers (hs : h.Settled setup) : h.withdrawOffers.Settled setup := by
  obtain ⟨⟨⟨⟨street, ho⟩, hlive⟩, hwager, hled⟩, hpots, hmade, r, hresult, hsettle⟩ := hs
  have halike : ∀ s : Seat, s.Alike { s with allowed := [] } :=
    fun s => s.alike_update _ _ _ _ _
  have hsame : h.withdrawOffers.unfolded = h.unfolded := unfolded_map rfl fun _ _ => rfl
  have hcontributions : h.withdrawOffers.contributions = h.contributions := by
    simp only [contributions, Hand.withdrawOffers, mapSeats, List.foldl_map]
  have hentrants : h.withdrawOffers.entrants = h.entrants := by
    simp only [entrants, Hand.withdrawOffers, mapSeats, List.map_map]
    rfl
  refine ⟨⟨⟨⟨street, ho.alike rfl rfl halike⟩, hsame.symm ▸ hlive⟩, ?_,
    hled.map rfl fun _ _ => ⟨rfl, rfl⟩⟩, ?_, ?_, r, hresult, ?_⟩
  · intro s hs
    obtain ⟨r, hr, rfl⟩ := List.mem_map.1 hs
    exact hwager r hr
  · rw [hcontributions]
    exact hpots
  · intro s hs
    obtain ⟨r, hr, rfl⟩ := List.mem_map.1 hs
    exact hmade r hr
  · rw [hentrants]
    exact hsettle

theorem proceeds_gameClosed (hp : h.phase = .gameClosed) (hs : h.Settled setup) :
    h.Proceeds setup := by
  refine proceeds_rests h.withdrawOffers hp rfl ?_
  have hphase : h.withdrawOffers.phase = .gameClosed := hp
  rw [Resting, hphase]
  refine ⟨hs.withdrawOffers, fun s hs => ?_⟩
  obtain ⟨r, -, rfl⟩ := List.mem_map.1 hs
  rfl

/-- Every phase that a hand in order enters succeeds. -/
theorem proceeds_of_entering (ha : setup.Accepted) (he : h.Entering setup) :
    h.Proceeds setup := by
  rw [Entering] at he
  cases hp : h.phase with
  | started => rw [hp] at he; exact proceeds_started hp he
  | initialized => rw [hp] at he; exact proceeds_initialized ha hp he
  | prepared => rw [hp] at he; exact proceeds_prepared ha hp he.1 he.2
  | anteRequested => rw [hp] at he; exact proceeds_anteRequested ha hp he
  | antePaid => rw [hp] at he; exact proceeds_antePaid hp he
  | blindsRequested => rw [hp] at he; exact proceeds_blindsRequested hp he
  | blindsPaid => rw [hp] at he; exact proceeds_blindsPaid ha hp he
  | readyRequested => rw [hp] at he; exact proceeds_readyRequested ha hp he
  | readiness => rw [hp] at he; exact proceeds_readiness ha hp he
  | entered street =>
      cases street with
      | preflop => rw [hp] at he; exact proceeds_entered_preflop hp he.1 he.2
      | flop | turn | river =>
          rw [hp] at he
          obtain ⟨last, hnext, hb⟩ := he
          exact proceeds_entered hp hnext hb
  | roundInitialized =>
      rw [hp] at he
      rcases he with ⟨hb, hc⟩ | ⟨street, hne, hb⟩
      · exact proceeds_roundInitialized ha hp hb hc
      · exact proceeds_roundInitialized_later ha hp hne hb
  | roundPrepared => rw [hp] at he; exact proceeds_roundPrepared hp he.1 he.2
  | roundStarted => rw [hp] at he; exact proceeds_roundStarted hp he.1 he.2
  | roundClosed => rw [hp] at he; exact proceeds_roundClosed hp he
  | gameCompleted => rw [hp] at he; exact proceeds_gameCompleted hp he
  | settlementRequested => rw [hp] at he; exact proceeds_settlementRequested hp he
  | settlementCompleted => rw [hp] at he; exact proceeds_settlementCompleted hp he
  | gameClosed => rw [hp] at he; exact proceeds_gameClosed hp he

/-- A hand that has just entered a phase sits at the table of its setup. -/
theorem Entering.table (he : h.Entering setup) : Table setup h := by
  rw [Entering] at he
  cases hp : h.phase with
  | started | initialized => rw [hp] at he; exact he.table
  | prepared => rw [hp] at he; exact he.1.scene.table
  | anteRequested | antePaid => rw [hp] at he; exact he.scene.table
  | blindsRequested | blindsPaid => rw [hp] at he; exact he.before.scene.table
  | readyRequested | readiness =>
      rw [hp] at he
      obtain ⟨_, _, hscene⟩ := Readying.scene he
      exact hscene.table
  | entered street =>
      cases street with
      | preflop => rw [hp] at he; exact he.1.scene.table
      | flop | turn | river =>
          rw [hp] at he
          obtain ⟨_, -, hb⟩ := he
          exact hb.onStreet.scene.table
  | roundInitialized =>
      rw [hp] at he
      rcases he with ⟨hb, -⟩ | ⟨_, -, hb⟩
      · exact hb.scene.table
      · exact hb.onStreet.scene.table
  | roundPrepared | roundStarted => rw [hp] at he; exact he.1.table
  | roundClosed => rw [hp] at he; exact he.inRound.table
  | gameCompleted | settlementRequested =>
      rw [hp] at he
      obtain ⟨_, hstreet⟩ := he.closing.onStreet
      exact hstreet.scene.table
  | settlementCompleted | gameClosed => rw [hp] at he; exact he.table

/-- A run through the phases from a hand in order leaves the hand in order. -/
theorem flow_resting (ha : setup.Accepted) {phase : Phase} {h' : Hand}
    (he : { h with phase := phase }.Entering setup) (hflow : (flow phase h).outcome = .ok h') :
    h'.Resting setup :=
  flow_rests (fun _ he => (proceeds_of_entering ha he).carries) phase h he hflow

/-- A run through the phases from a hand in order succeeds when the deck has all cards. -/
theorem flow_eq_ok (ha : setup.Accepted) (hstocked : setup.Stocked) {phase : Phase}
    (he : { h with phase := phase }.Entering setup) : ∃ h', (flow phase h).outcome = .ok h' :=
  flow_succeeds (fun _ he => (proceeds_of_entering ha he).carries)
    (fun _ he => (proceeds_of_entering ha he).succeeds hstocked) phase h he

end PokerHand.Hand
