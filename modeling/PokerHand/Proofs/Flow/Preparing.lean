import PokerHand.Proofs.Flow.Dealing
import PokerHand.Proofs.Flow.Gates

/-!
# Reactions up to the first betting round

Each phase from the start of a hand to its first betting round leaves what the next phase expects,
and it succeeds as long as the deck has all cards that the hand may take.
-/
namespace PokerHand.Hand

variable [Counting] {setup : Setup} {h : Hand} {phase : Phase}

/-- The phase that the hand has just entered leaves the hand in order, and does not fail as long as
the deck has all cards that the hand may take. -/
structure Proceeds (setup : Setup) (h : Hand) : Prop where
  carries : ∀ r, h.react = .ok r → Carries (Entering setup) (Resting setup) r
  succeeds : setup.Stocked → ∃ r, h.react = .ok r

theorem proceeds_of_ok {r : Hand × Option Phase} (hr : h.react = .ok r)
    (hc : Carries (Entering setup) (Resting setup) r) : h.Proceeds setup where
  carries := fun _ hr' => Except.ok.inj (hr.symm.trans hr') ▸ hc
  succeeds := fun _ => ⟨r, hr⟩

theorem proceeds_to (h' : Hand) (next : Phase) (hp : h.phase = phase)
    (hr : reaction phase h = .ok (h', some next))
    (he : { h' with phase := next }.Entering setup) : h.Proceeds setup :=
  proceeds_of_ok ((react_eq hp).trans hr) he

theorem proceeds_rests (h' : Hand) (hp : h.phase = phase)
    (hr : reaction phase h = .ok (h', none)) (he : h'.Resting setup) : h.Proceeds setup :=
  proceeds_of_ok ((react_eq hp).trans hr) he

theorem proceeds_started (hp : h.phase = .started) (hu : h.Undealt setup) : h.Proceeds setup :=
  proceeds_to h .initialized hp rfl
    ⟨hu.table.congr rfl rfl, hu.street, hu.dealt, hu.counted, hu.seats⟩

theorem proceeds_initialized (ha : setup.Accepted) (hp : h.phase = .initialized)
    (hu : h.Undealt setup) : h.Proceeds setup := by
  obtain ⟨dealer, hdealer⟩ := hu.table.dealerSeat_eq_ok ha
  refine proceeds_to
    { h with minBet := h.terms.minBet, raiseSize := h.terms.minBet, raiser := dealer }
    .readyRequested hp (by simp [reaction, hdealer]) ?_
  exact .inl ⟨⟨⟨hu.table.congr rfl rfl, congrArg Terms.minBet hu.table.terms, hu.street, hu.dealt⟩,
    fun s hs => ⟨(hu.seats s hs).1, (hu.seats s hs).2⟩⟩, hu.counted⟩

theorem proceeds_readyRequested (ha : setup.Accepted) (hp : h.phase = .readyRequested)
    (hr : h.Readying setup) : h.Proceeds setup :=
  proceeds_rests _ hp rfl (rests_readyRequested ha hp hr)

theorem Before.withPhase {street : Option Street} {dealt : Nat} {P : Seat → Prop}
    (hb : h.Before setup street dealt P) (phase : Phase) :
    { h with phase := phase }.Before setup street dealt P :=
  hb.alike rfl (List.map_id _).symm Seat.Alike.refl fun _ _ hP => hP

theorem Preflop.withPhase {P : Seat → Prop} (hp : h.Preflop setup P) (phase : Phase) :
    { h with phase := phase }.Preflop setup P :=
  hp.alike rfl (List.map_id _).symm Seat.Alike.refl (fun _ => rfl) fun _ _ hP => hP

theorem InRound.withPhase (hr : h.InRound setup) (phase : Phase) :
    { h with phase := phase }.InRound setup :=
  hr.alike rfl (List.map_id _).symm Seat.Alike.refl

/-- Somebody who posted the highest blind leads; without blinds whoever put most into the pot. -/
theorem Preflop.leader [setup.Counted] (ha : setup.Accepted)
    (hp : h.Preflop setup (Seat.OwesBlinds setup.terms [])) (hh : h.Highest) :
    ∃ s ∈ h.seats, s.folded = false ∧ s.wager = h.wager ∧ h.Tops s := by
  have ht := hp.before.scene.table
  obtain ⟨poster, hposter, hhighest⟩ := hh.exists_wager
  by_cases hblind : 0 < h.wager
  · have htops := hp.tops hposter (.inr (hhighest ▸ hblind))
    exact ⟨poster, hposter, (hp.before.seats poster hposter).1, hhighest, htops⟩
  · obtain ⟨s, hs, htops⟩ := exists_tops (ht.seats_ne_nil ha)
    have hnonneg := (ht.sound s hs).wager_nonneg
    have hle := hh.wager_le s hs
    exact ⟨s, hs, (hp.before.seats s hs).1, by omega, htops⟩

/-- With the blinds on the table the first betting round can begin. -/
theorem Preflop.inRound (ha : setup.Accepted)
    (hp : h.Preflop setup (Seat.OwesBlinds setup.terms []))
    (hh : [setup.Counted] → h.Highest) : h.InRound setup where
  onStreet := ⟨.preflop, hp.before.scene, hp.counted⟩
  one_le_unfolded := by
    have hplayers := ha.two_le_players
    have hlength := hp.before.scene.table.length_seats
    rw [unfolded_eq_length fun s hs => (hp.before.seats s hs).1]
    omega
  staked := by
    intro _
    have hh : h.Highest := hh
    have hbankrolls : 0 ≤ setup.bankrolls := ha.bankrolls_nonneg
    refine ⟨hh.wager_le, Int.le_of_eq hp.raiseSize.symm, ?_, ?_, hp.leader ha hh⟩
    · rw [hp.raiseSize]
      omega
    · intro s hs hmovable
      simp only [Seat.isMovable, Bool.and_eq_true, decide_eq_true_eq] at hmovable
      exact hp.tops hs (.inl hmovable.2)

theorem proceeds_readiness (ha : setup.Accepted) (hp : h.phase = .readiness)
    (hr : h.Readying setup) : h.Proceeds setup := by
  rcases hr with ⟨hb, hc⟩ | ⟨hpre, hw⟩
  · refine proceeds_to h .prepared hp (by simp [reaction, hb.scene.street]) ?_
    exact ⟨hb.withPhase _, hc⟩
  · refine proceeds_to h .roundPrepared hp (by simp [reaction, hpre.before.scene.street]) ?_
    exact ⟨(hpre.inRound ha hw).withPhase _, hpre.unacted⟩

/-- Nobody's chips move when the hole cards are dealt. -/
theorem Before.served (hb : h.Before setup none 0 Seat.Untouched) (dealer : Nat) :
    { h with dealt := setup.holeCards, seats := h.seats.map (setup.serve dealer) }.Before setup
      none setup.holeCards Seat.Untouched := by
  have hf : ∀ s, Seat.Alike s (setup.serve dealer s) := fun s => s.alike_update _ _ _ _ _
  refine ⟨⟨hb.scene.table.alike rfl rfl hf, hb.scene.minBet, hb.scene.street, rfl⟩, ?_⟩
  intro s hs
  obtain ⟨r, hr, rfl⟩ := List.mem_map.1 hs
  obtain ⟨hfolded, hu⟩ := hb.seats r hr
  exact ⟨(hf r).folded.trans hfolded, hu.alike (hf r)⟩

theorem proceeds_prepared (ha : setup.Accepted) (hp : h.phase = .prepared)
    (hb : h.Before setup none 0 Seat.Untouched) (hc : [setup.Counted] → h.PotsCounted) :
    h.Proceeds setup := by
  have ht := hb.scene.table
  obtain ⟨dealer, hdealer⟩ := ht.dealerSeat_eq_ok ha
  -- whether the deck has the cards decides whether the deal succeeds, and nothing else does
  have hfull : setup.holeCards ≤ setup.terms.deck.length → h.Proceeds setup := by
    intro hdeck
    have hdeal := dealHole_eq_ok ht hb.scene.dealt hdealer hdeck
    let dealt : Hand :=
      { h with dealt := setup.holeCards, seats := h.seats.map (setup.serve dealer) }
    have hbefore : ∀ phase,
        { dealt with phase := phase }.Before setup none setup.holeCards Seat.Untouched :=
      (hb.served dealer).withPhase
    by_cases hante : h.terms.ante > 0
    · exact proceeds_to dealt .anteRequested hp (by simp [reaction, hdeal, hante, dealt])
        (hbefore _)
    · refine proceeds_to dealt (.entered .preflop) hp (by simp [reaction, hdeal, hante, dealt])
        ⟨⟨?_, ?_⟩, hc.map rfl rfl fun s _ => rfl⟩
      · exact (hbefore _).scene
      · refine fun s hs => ⟨((hbefore .prepared).seats s hs).1, ?_⟩
        intro _
        have hu : s.Untouched := ((hbefore .prepared).seats s hs).2
        have hzero : setup.terms.ante = 0 := by
          have hnonneg := ha.ante_nonneg
          rw [ht.terms] at hante
          omega
        refine ⟨hu.1, ?_⟩
        rw [leftAfter_nil, (hbefore .prepared).stack_eq hs,
          Terms.afterAnte_of_zero hzero ((hbefore .prepared).scene.table.bankroll_pos ha hs)]
  refine ⟨fun r hr => ?_, fun hstocked =>
    (hfull (Setup.dealtBy_le hstocked .preflop)).succeeds hstocked⟩
  have hreact := hr
  rw [react_eq hp, reaction] at hreact
  obtain ⟨h', hdeal, -⟩ := Outcome.ok_of_bind hreact
  exact (hfull (holeCards_le_of_dealHole ht hb.scene.dealt hdeal)).carries r hr

theorem proceeds_anteRequested (ha : setup.Accepted) (hp : h.phase = .anteRequested)
    (hb : h.Before setup none setup.holeCards Seat.Untouched) : h.Proceeds setup :=
  proceeds_rests _ hp rfl (rests_anteRequested ha hp hb)

theorem proceeds_antePaid (hp : h.phase = .antePaid)
    (hb : h.Before setup none setup.holeCards (Seat.OwesAnte setup.terms [])) :
    h.Proceeds setup := by
  have ht := hb.scene.table
  refine proceeds_to h.refreshPots (.entered .preflop) hp rfl ⟨?_, counted_refreshPots ht⟩
  exact ⟨hb.scene.of_frame rfl (ht.congr rfl rfl), hb.seats⟩

theorem proceeds_entered {street last : Street} (hp : h.phase = .entered street)
    (hnext : last.next? = some street) (hb : h.Between setup last) : h.Proceeds setup := by
  have hscene := hb.onStreet.scene
  have hne : street ≠ .preflop := by rintro rfl; cases last <;> simp [Street.next?] at hnext
  have hfull : setup.dealtBy street ≤ setup.terms.deck.length → h.Proceeds setup := by
    intro hdeck
    have hboard := dealBoard_eq_ok (h := { h with street := some street }) hscene.table.terms hnext
      hscene.dealt hdeck
    refine proceeds_to _ .roundInitialized hp (by simp [reaction, hne, hboard]; rfl) ?_
    refine .inr ⟨street, hne, ⟨⟨?_, hscene.minBet, rfl, rfl⟩, hb.onStreet.counted⟩,
      hb.two_le_unfolded, hb.wager_eq_zero, hb.level, hb.led⟩
    exact hscene.table.congr rfl rfl
  refine ⟨fun r hr => ?_, fun hstocked =>
    (hfull (Setup.dealtBy_le hstocked street)).succeeds hstocked⟩
  have hreact := hr
  rw [react_eq hp, reaction, if_neg hne] at hreact
  obtain ⟨h', hdeal, -⟩ := Outcome.ok_of_bind hreact
  exact (hfull (dealtBy_le_of_dealBoard (h := { h with street := some street }) hscene.table.terms
    hnext hscene.dealt hdeal)).carries r hr

theorem proceeds_entered_preflop (hp : h.phase = .entered .preflop)
    (hb : h.Before setup none setup.holeCards (Seat.OwesAnte setup.terms []))
    (hc : [setup.Counted] → h.PotsCounted) : h.Proceeds setup := by
  refine proceeds_to { h with street := some .preflop } .roundInitialized hp rfl
    (.inl ⟨⟨?_, hb.seats⟩, hc⟩)
  exact ⟨hb.scene.table.congr rfl rfl, hb.scene.minBet, rfl, hb.scene.dealt⟩

end PokerHand.Hand
