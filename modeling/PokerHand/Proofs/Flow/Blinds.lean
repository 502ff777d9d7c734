import PokerHand.Proofs.Flow.Preparing

/-!
# Reactions that prepare a round

The seats are reset for every round. Before the first one the blinds are posted: those that are
asked for at the gate, and a lone big blind at once.
-/
namespace PokerHand.Hand

variable {setup : Setup} {h : Hand}

/-- The hand once its seats are reset for a round. -/
def resetBy (h : Hand) (dealer : Nat) : Hand :=
  { h.mapSeats Seat.resetRound with wager := 0, raiseSize := h.minBet, raiser := dealer }

theorem seats_resetBy {P : Seat → Prop} {dealer : Nat} (hP : ∀ s ∈ h.seats, P s.resetRound) :
    ∀ s ∈ (h.resetBy dealer).seats, P s := by
  intro s hs
  obtain ⟨r, hr, rfl⟩ := List.mem_map.1 hs
  exact hP r hr

theorem unacted_resetBy (h : Hand) (dealer : Nat) : (h.resetBy dealer).Unacted := by
  intro s hs
  obtain ⟨r, -, rfl⟩ := List.mem_map.1 hs
  rfl

/-- Taking the highest wager on the table as the one to match. -/
theorem highest_of_max (hne : h.seats ≠ [])
    (hwager : h.wager = ((h.seats.map Seat.wager).max?).getD 0) : h.Highest := by
  obtain ⟨first, hfirst⟩ := List.exists_mem_of_ne_nil _ hne
  obtain ⟨highest, hmax⟩ := Option.isSome_iff_exists.1
    (List.isSome_max?_of_mem (List.mem_map_of_mem (f := Seat.wager) hfirst))
  rw [hmax, Option.getD_some] at hwager
  obtain ⟨hmem, hle⟩ := List.max?_eq_some_iff.1 hmax
  obtain ⟨s, hs, heq⟩ := List.mem_map.1 hmem
  refine ⟨fun r hr => ?_, s, hs, heq.trans hwager.symm⟩
  rw [hwager]
  exact hle r.wager (List.mem_map_of_mem hr)

variable [Counting]

theorem table_resetBy (ht : Table setup h)
    (hwager : [setup.Counted] → ∀ s ∈ h.seats, s.wager = 0) (dealer : Nat) :
    Table setup (h.resetBy dealer) :=
  ht.map rfl rfl (fun _ => rfl) (fun _ => rfl) fun s hs =>
    (ht.sound s hs).resetRound (hwager s hs)

/-- After the first round every round goes straight to its betting. -/
theorem inRound_resetBy {street : Street} (hb : h.Between setup street) (dealer : Nat) :
    (h.resetBy dealer).InRound setup where
  onStreet := ⟨street, hb.onStreet.scene.of_frame rfl
    (table_resetBy hb.onStreet.scene.table hb.wager_eq_zero dealer),
    hb.onStreet.counted.map rfl rfl fun _ _ => rfl⟩
  one_le_unfolded := by
    have hlive := hb.two_le_unfolded
    have hsame : (h.resetBy dealer).unfolded = h.unfolded := unfolded_map rfl fun _ _ => rfl
    omega
  staked := by
    intro _
    have hlevel : h.Level := hb.level
    have hbankrolls := hb.onStreet.scene.table.bankrolls_nonneg
    refine ⟨seats_resetBy fun s hs => Int.le_of_eq (hb.wager_eq_zero s hs), Int.le_refl _, ?_,
      hlevel.map rfl (fun _ _ => rfl) fun _ _ hmovable => hmovable, ?_⟩
    · show h.minBet ≤ 3 * setup.bankrolls + h.minBet
      omega
    · obtain ⟨s, hs, hfolded, htops⟩ := hb.led
      exact ⟨s.resetRound, List.mem_map_of_mem hs, hfolded, hb.wager_eq_zero s hs,
        htops.map rfl (fun _ _ => rfl) hs⟩

theorem preflop_resetBy
    (hb : h.Before setup (some .preflop) setup.holeCards (Seat.OwesAnte setup.terms []))
    (hc : [setup.Counted] → h.PotsCounted) (dealer : Nat) :
    (h.resetBy dealer).Preflop setup (Seat.OwesAnte setup.terms []) where
  before := by
    have howes : [setup.Counted] → ∀ s ∈ h.seats, s.OwesAnte setup.terms [] :=
      fun s hs => (hb.seats s hs).2
    exact ⟨hb.scene.of_frame rfl
      (table_resetBy hb.scene.table (fun s hs => (howes s hs).1) dealer),
      seats_resetBy fun s hs => ⟨(hb.seats s hs).1, howes s hs⟩⟩
  counted := hc.map rfl rfl fun _ _ => rfl
  raiseSize := rfl
  unacted := unacted_resetBy h dealer

theorem preflop_postBigBlind
    (hp : h.Preflop setup (Seat.OwesAnte setup.terms []))
    (hpositive : h.terms.blinds.anyPositive = true)
    (hlone : h.terms.blinds.dealer = 0 ∧ h.terms.blinds.small = 0) :
    h.postBigBlind.Preflop setup (Seat.OwesBlinds setup.terms []) := by
  have ht := hp.before.scene.table
  obtain ⟨hdealer, hsmall⟩ := ht.terms ▸ hlone
  have hbig : 0 < setup.terms.blinds.big := by
    rw [ht.terms] at hpositive
    simpa [Blinds.anyPositive, hdealer, hsmall] using hpositive
  let post : Seat → Seat := fun s =>
    if s.holds .bigBlind then s.putIn (min h.terms.blinds.big s.stack) else s
  have hpost : [setup.Counted] → ∀ s ∈ h.seats, (post s).Sound setup ∧
      (post s).OwesBlinds setup.terms [] := by
    intro _ s hs
    have hsound := ht.sound s hs
    have ho : s.OwesAnte setup.terms [] := (hp.before.seats s hs).2
    have hblinds : setup.terms.blindsOf s.positions =
        if s.holds .bigBlind then [setup.terms.blinds.big] else [] :=
      Terms.blindsOf_of_big hdealer hsmall hbig s.positions
    simp only [post, ht.terms]
    by_cases hholds : s.holds .bigBlind
    · rw [if_pos hholds] at hblinds ⊢
      exact ho.postBig hsound hblinds hbig
    · rw [if_neg hholds] at hblinds ⊢
      exact ⟨hsound, by simpa [hblinds] using ho.owesBlinds hsound⟩
  have hsame : ∀ s, (post s).entry = s.entry ∧ (post s).number = s.number ∧
      (post s).pot = s.pot ∧ (post s).folded = s.folded ∧ (post s).acted = s.acted := by
    intro s
    simp only [post]
    split <;> exact ⟨rfl, rfl, rfl, rfl, rfl⟩
  have htable : Table setup h.postBigBlind :=
    ht.map rfl rfl (fun s => (hsame s).1) (fun s => (hsame s).2.1) fun s hs => (hpost s hs).1
  refine ⟨⟨hp.before.scene.of_frame rfl htable, fun s hs => ?_⟩,
    hp.counted.map rfl rfl fun s _ => (hsame s).2.2.1, hp.raiseSize,
    hp.unacted.map rfl fun s => (hsame s).2.2.2.2⟩
  obtain ⟨r, hr, rfl⟩ := List.mem_map.1 hs
  exact ⟨(hsame r).2.2.2.1.trans (hp.before.seats r hr).1, (hpost r hr).2⟩

theorem proceeds_roundInitialized (ha : setup.Accepted) (hp : h.phase = .roundInitialized)
    (hb : h.Before setup (some .preflop) setup.holeCards (Seat.OwesAnte setup.terms []))
    (hc : [setup.Counted] → h.PotsCounted) : h.Proceeds setup := by
  obtain ⟨dealer, hdealer⟩ := hb.scene.table.dealerSeat_eq_ok ha
  have hpre := preflop_resetBy hb hc dealer
  have hstreet : (h.resetBy dealer).street = some .preflop := hb.scene.street
  have ht := hpre.before.scene.table
  by_cases hblinds : h.terms.blinds.anyPositive = true
  · by_cases hlone : h.terms.blinds.dealer = 0 ∧ h.terms.blinds.small = 0
    · refine proceeds_to (h.resetBy dealer).postBigBlind .blindsPaid hp ?_ ?_
      · simp [reaction, hdealer, hb.scene.street, hblinds, hlone, resetBy, mapSeats]
      · exact (preflop_postBigBlind hpre hblinds hlone).withPhase _
    · refine proceeds_to (h.resetBy dealer) .blindsRequested hp ?_ ?_
      · simp [reaction, hdealer, hb.scene.street, hblinds, hlone, resetBy, mapSeats]
      · exact hpre.withPhase _
  · refine proceeds_to (h.resetBy dealer) .readyRequested hp ?_ (.inr ⟨?_, ?_⟩)
    · simp [reaction, hdealer, hb.scene.street, hblinds, resetBy, mapSeats]
    · refine ⟨⟨(hpre.withPhase _).before.scene, fun s hs => ?_⟩, hpre.counted, hpre.raiseSize,
        hpre.unacted⟩
      refine ⟨(hpre.before.seats s hs).1, ?_⟩
      intro _
      have ho : s.OwesAnte setup.terms [] := (hpre.before.seats s hs).2
      have hnone : setup.terms.blindsOf s.positions = [] :=
        Terms.blindsOf_of_none (by simpa [hb.scene.table.terms] using hblinds) s.positions
      simpa [hnone] using ho.owesBlinds (ht.sound s hs)
    · intro _
      have hzero : ∀ s ∈ (h.resetBy dealer).seats, s.wager = 0 := by
        intro s hs
        have ho : s.OwesAnte setup.terms [] := (hpre.before.seats s hs).2
        exact ho.1
      obtain ⟨first, hfirst⟩ := List.exists_mem_of_ne_nil _ (ht.seats_ne_nil ha)
      exact ⟨fun s hs => Int.le_of_eq (hzero s hs), first, hfirst, hzero first hfirst⟩

theorem proceeds_roundInitialized_later (ha : setup.Accepted) {street : Street}
    (hp : h.phase = .roundInitialized) (hne : street ≠ .preflop)
    (hb : h.Between setup street) : h.Proceeds setup := by
  obtain ⟨dealer, hdealer⟩ := hb.onStreet.scene.table.dealerSeat_eq_ok ha
  have hround := (inRound_resetBy hb dealer).withPhase .roundPrepared
  refine proceeds_to (h.resetBy dealer) .roundPrepared hp ?_ ⟨hround, unacted_resetBy h dealer⟩
  simp [reaction, hdealer, hb.onStreet.scene.street, hne, resetBy, mapSeats]

theorem proceeds_blindsRequested (hp : h.phase = .blindsRequested)
    (hpre : h.Preflop setup (Seat.OwesAnte setup.terms [])) : h.Proceeds setup := by
  by_cases htasks : h.blindTasks = []
  · refine proceeds_to h .blindsPaid hp (by simp [reaction, htasks]) ?_
    refine ⟨⟨(hpre.withPhase _).before.scene, fun s hs => ?_⟩, hpre.counted, hpre.raiseSize,
      hpre.unacted⟩
    refine ⟨(hpre.before.seats s hs).1, ?_⟩
    intro _
    have ho := hpre.owesBlinds hs
    rwa [htasks] at ho
  · exact proceeds_rests _ hp (by simp [reaction, htasks]) (rests_blindsRequested hp hpre htasks)

theorem proceeds_blindsPaid (ha : setup.Accepted) (hp : h.phase = .blindsPaid)
    (hpre : h.Preflop setup (Seat.OwesBlinds setup.terms [])) : h.Proceeds setup := by
  obtain ⟨dealer, hdealer⟩ := hpre.before.scene.table.dealerSeat_eq_ok ha
  refine proceeds_to _ .readyRequested hp (by simp [reaction, hdealer]; rfl) (.inr ⟨?_, ?_⟩)
  · exact ⟨⟨hpre.before.scene.of_frame rfl (hpre.before.scene.table.congr rfl rfl),
      hpre.before.seats⟩, hpre.counted, hpre.raiseSize, hpre.unacted⟩
  · exact highest_of_max (hpre.before.scene.table.seats_ne_nil ha) rfl

end PokerHand.Hand
